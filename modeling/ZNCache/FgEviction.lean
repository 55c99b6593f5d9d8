import ZNCache.Quiescence

/-!
# How much one foreground eviction evicts

`zn_fg_evict` computes its loop bound as an unsigned difference.  The bound is the
distance to the low-water mark as long as the free zones it counted are not above the
mark, and about `2 ^ 32` otherwise.
-/

set_option autoImplicit false

namespace ZNCache

open Tally Transition

variable {Thread : Type} [DecidableEq Thread]

/-- A system, and of the last call of `zn_fg_evict` by each thread the free zones that it
counted and the zones that it evicted. -/
structure EvictLog (Thread : Type) where
  system : PromotionalSystem Thread
  freeRead : Thread → Nat
  evicted : Thread → List Nat

def ThreadPc.nowFreeRead (freeZones before : Nat) : ThreadPc EvictPc → Nat
  | evict _ .start => freeZones
  | _ => before

def ThreadPc.nowEvicted (before : List Nat) : ThreadPc EvictPc → List Nat
  | evict _ .start => []
  | evict _ (.reset _ _ zone) => before ++ [zone]
  | _ => before

namespace EvictLog

def step (config : CacheConfig) (log : EvictLog Thread) (action : Thread × Choice) :
    Option (EvictLog Thread) :=
  (log.system.step (promotionalCode config) action).map fun next => {
    system := next
    freeRead := Function.update log.freeRead action.1
      ((log.system.threads action.1).nowFreeRead
        (zsmGetNumFreeZones log.system.cache.zoneState) (log.freeRead action.1))
    evicted := Function.update log.evicted action.1
      ((log.system.threads action.1).nowEvicted (log.evicted action.1)) }

def Initial (config : CacheConfig) (log : EvictLog Thread) : Prop :=
  promotionalSystem config = some log.system ∧ ∀ thread, log.evicted thread = []

end EvictLog

open EvictLog

/-! ## The loop bound -/

theorem threshMinus_eq {lowThresh freeZones : Nat} (small : lowThresh < 2 ^ 31) :
    threshMinus lowThresh freeZones = u32 (lowThresh - freeZones) := by
  unfold threshMinus
  rw [if_pos small]

theorem u32_sub {lowThresh freeZones : Nat} (small : lowThresh < 2 ^ 31)
    (below : freeZones ≤ lowThresh) : u32 (lowThresh - freeZones) = lowThresh - freeZones := by
  unfold u32
  omega

theorem u32_sub_wraps {lowThresh freeZones : Nat} (above : lowThresh < freeZones)
    (fits : freeZones < 2 ^ 32) : 0 < u32 (lowThresh - freeZones) := by
  unfold u32
  omega

omit [DecidableEq Thread] in
theorem fgEvictStep_more {lowThresh : Nat} {cache after : PromotionalCache Thread}
    {environment : Environment} {i freeZones : Nat} {next : EvictPc}
    (taken : fgEvictStep lowThresh cache environment (.loop i freeZones) =
      some (after, some next)) : (i : Int) < threshMinus lowThresh freeZones := by
  simp only [fgEvictStep] at taken
  split at taken
  next more => exact more
  next => cases taken

/-! ## Every interleaving -/

/-- What a call that counted `free` zones, no more than the mark, has still to respect. -/
def EvictPc.WithinMark (lowThresh free : Nat) (evicted : List Nat) : EvictPc → Prop
  | start => True
  | loop i freeZones => freeZones = free ∧ i = evicted.length
  | clear i freeZones _ | wait i freeZones _ | reset i freeZones _ =>
      freeZones = free ∧ i = evicted.length ∧ i < lowThresh - free

def ThreadPc.WithinMark (lowThresh free : Nat) (evicted : List Nat) :
    ThreadPc EvictPc → Prop
  | idle | get _ => True
  | evict _ code => code.WithinMark lowThresh free evicted

/-- A call that counted no more free zones than the mark evicts no more zones than were
missing to it. -/
def WithinMark (lowThresh : Nat) (log : EvictLog Thread) (thread : Thread) : Prop :=
  log.freeRead thread ≤ lowThresh →
    (log.evicted thread).length ≤ lowThresh - log.freeRead thread ∧
      (log.system.threads thread).WithinMark lowThresh (log.freeRead thread)
        (log.evicted thread)

section Interleaving

variable {config : CacheConfig} {log next : EvictLog Thread} {action : Thread × Choice}

theorem ThreadStep.withinMark {thread : Thread} {choice : Choice}
    {cache after : PromotionalCache Thread} {pc next : ThreadPc EvictPc} {free : Nat}
    {evicted : List Nat} (low : config.evictLowThreshZones < 2 ^ 31)
    (taken : ThreadStep (promotionalCode config) thread cache pc choice after next)
    (within : free ≤ config.evictLowThreshZones →
      evicted.length ≤ config.evictLowThreshZones - free ∧
        pc.WithinMark config.evictLowThreshZones free evicted)
    (counted : pc.nowFreeRead (zsmGetNumFreeZones cache.zoneState) free ≤
      config.evictLowThreshZones) :
    (pc.nowEvicted evicted).length ≤ config.evictLowThreshZones -
        pc.nowFreeRead (zsmGetNumFreeZones cache.zoneState) free ∧
      next.WithinMark config.evictLowThreshZones
        (pc.nowFreeRead (zsmGetNumFreeZones cache.zoneState) free)
        (pc.nowEvicted evicted) := by
  cases taken with
  | call | callEvict | wakeUp => exact ⟨(within counted).1, trivial⟩
  | get ran =>
      refine ⟨(within counted).1, ?_⟩
      cases ran with
      | find id => cases (znCachemapFind thread cache.cacheMap id).1 <;> trivial
      | @acquire id =>
          generalize (zsmGetActiveZone _ cache.zoneState).ret = ret
          cases ret <;> trivial
      | woken | read | touch | release | countHit | write | writeFailed => trivial
      | countMiss | giveBack | record | insert | undoZone | undoMap => trivial
  | evicted caller ran =>
      have leaves : ∀ free evicted, (afterEvict caller : ThreadPc EvictPc).WithinMark
          config.evictLowThreshZones free evicted := by
        cases caller <;> exact fun _ _ => trivial
      cases fgEvictStep_spec ran with
      | enough | nothing => exact ⟨(within counted).1, leaves _ _⟩
  | evict caller code ran =>
      cases fgEvictStep_spec ran with
      | start => exact ⟨Nat.zero_le _, rfl, rfl⟩
      | take i freeZones zone policy answer =>
          obtain ⟨bound, rfl, rfl⟩ := within counted
          have inside : freeZones ≤ config.evictLowThreshZones := counted
          have more := fgEvictStep_more ran
          rw [threshMinus_eq low, u32_sub low inside] at more
          refine ⟨bound, rfl, rfl, ?_⟩
          simp only [ThreadPc.nowFreeRead]
          omega
      | clear | wait => exact within counted
      | reset i freeZones zone =>
          obtain ⟨bound, rfl, rfl, more⟩ := within counted
          have counter : u32 ((evicted.length : Nat) + 1) = evicted.length + 1 := by
            exact_mod_cast u32_of_nat (by omega)
          refine ⟨?_, rfl, ?_⟩
          · simp only [ThreadPc.nowEvicted, ThreadPc.nowFreeRead, List.length_append,
              List.length_singleton]
            omega
          · simp [ThreadPc.nowEvicted, counter]

theorem WithinMark.step (low : config.evictLowThreshZones < 2 ^ 31)
    (within : ∀ thread, WithinMark config.evictLowThreshZones log thread)
    (taken : log.step config action = some next) (thread : Thread) :
    WithinMark config.evictLowThreshZones next thread := by
  obtain ⟨mover, choice⟩ := action
  obtain ⟨system, moved, rfl⟩ := Option.map_eq_some_iff.mp taken
  obtain ⟨cache, pc, rfl, stepped⟩ := System.step_spec moved
  by_cases same : thread = mover
  · subst same
    intro counted
    simp only [Function.update_self] at counted
    have after := stepped.withinMark low (within thread) counted
    simpa [System.advance] using after
  · simpa [WithinMark, System.advance, same] using within thread

theorem withinMark_of_reach (low : config.evictLowThreshZones < 2 ^ 31)
    (reached : Reach (EvictLog.step config) (fun _ _ => True) (Initial config) log)
    (thread : Thread) : WithinMark config.evictLowThreshZones log thread := by
  revert thread
  apply reached.invariant
  · intro start given thread _
    obtain ⟨begins, nothing⟩ := given
    obtain ⟨_, _, _, _, idle⟩ := System.init_spec begins
    refine ⟨by simp [nothing], ?_⟩
    rw [idle thread]
    trivial
  · exact fun _ _ _ within _ taken => WithinMark.step low within taken

end Interleaving

/-! ## One thread alone -/

theorem getZoneToEvict_cons {policy : ZnPolicyPromotional} {zone : Nat} {rest : List Nat}
    (queued : policy.zones = zone :: rest) :
    ∃ after, znPolicyPromotionalGetZoneToEvict true policy = (some zone, after) ∧
      after.zones = rest := by
  cases popped : policy.lruQueue.popHead with
  | none =>
      have empty := LinkedQueue.popHead_none.mp popped
      exact absurd (queued.symm.trans empty) (List.cons_ne_nil _ _)
  | some head =>
      obtain ⟨first, queue⟩ := head
      obtain ⟨rfl, rfl⟩ := List.cons.inj (queued.symm.trans (LinkedQueue.popHead_items popped))
      refine ⟨_, by simp only [znPolicyPromotionalGetZoneToEvict, popped, if_true]; rfl, rfl⟩

theorem getZoneToEvict_nil {policy : ZnPolicyPromotional} (empty : policy.zones = []) :
    znPolicyPromotionalGetZoneToEvict true policy = (none, policy) := by
  simp only [znPolicyPromotionalGetZoneToEvict, LinkedQueue.popHead_none.mpr empty, if_true]

section Alone

variable [Fintype Thread] {config : CacheConfig} {log : EvictLog Thread} {thread : Thread}

structure Alone (log : EvictLog Thread) (thread : Thread) : Prop where
  sound : CountsSound log.system
  others : ∀ other, other ≠ thread → log.system.threads other = .idle
  evicting : ∃ caller code, log.system.threads thread = .evict caller code

omit [DecidableEq Thread] in
theorem Alone.unread (alone : Alone log thread) (zone : Nat) :
    log.system.cache.cacheMap.activeReaders zone = 0 := by
  have none : tally ThreadPc.reads log.system.threads = 0 := by
    apply tally_const_zero
    intro other
    by_cases same : other = thread
    · subst same
      obtain ⟨caller, code, here⟩ := alone.evicting
      rw [here]
      rfl
    · rw [alone.others other same]
      rfl
  rw [alone.sound.readers, none]
  rfl

theorem Alone.step (alone : Alone log thread) {caller : Option Nat} {code next : EvictPc}
    {cache : PromotionalCache Thread} (here : log.system.threads thread = .evict caller code)
    (ran : fgEvictStep config.evictLowThreshZones log.system.cache .smooth code =
      some (cache, some next)) :
    ∃ after, log.step config (thread, .run .smooth) = some after ∧ Alone after thread ∧
      after.system.cache = cache ∧ after.system.threads thread = .evict caller next ∧
      after.freeRead thread = (ThreadPc.evict caller code).nowFreeRead
        (zsmGetNumFreeZones log.system.cache.zoneState) (log.freeRead thread) ∧
      after.evicted thread = (ThreadPc.evict caller code).nowEvicted (log.evicted thread) := by
  have moved : log.system.step (promotionalCode config) (thread, .run .smooth) =
      some (log.system.advance thread cache (.evict caller next)) := by
    simp [System.step, here, promotionalCode, ran]
  refine ⟨_, by rw [EvictLog.step, moved]; rfl, ⟨?_, ?_, caller, next, ?_⟩, rfl, ?_, ?_, ?_⟩
  · exact alone.sound.step (fun id called => by cases called) moved
  · intro other apart
    simpa [System.advance, apart] using alone.others other apart
  · simp [System.advance]
  · simp [System.advance]
  · simp [here]
  · simp [here]

omit [Fintype Thread] in
theorem EvictLog.leave {caller : Option Nat} {i freeZones : Nat}
    {cache : PromotionalCache Thread}
    (here : log.system.threads thread = .evict caller (.loop i freeZones))
    (ran : fgEvictStep config.evictLowThreshZones log.system.cache .smooth (.loop i freeZones) =
      some (cache, none)) :
    ∃ last, runActions (EvictLog.step config) log [(thread, .run .smooth)] = some last ∧
      last.system.threads thread = afterEvict caller ∧
      last.freeRead thread = log.freeRead thread ∧
      last.evicted thread = log.evicted thread := by
  have moved : log.system.step (promotionalCode config) (thread, .run .smooth) =
      some (log.system.advance thread cache (afterEvict caller)) := by
    simp [System.step, here, promotionalCode, ran]
  refine ⟨_, runActions_cons (by rw [EvictLog.step, moved]; rfl) rfl, ?_, ?_, ?_⟩
  · simp [System.advance]
  · simp [here, ThreadPc.nowFreeRead]
  · simp [here, ThreadPc.nowEvicted]

/-- One pass of the loop takes the least recently used zone and evicts it. -/
theorem Alone.pass (alone : Alone log thread) {caller : Option Nat} {i freeZones zone : Nat}
    {rest : List Nat} (here : log.system.threads thread = .evict caller (.loop i freeZones))
    (more : (i : Int) < threshMinus config.evictLowThreshZones freeZones)
    (queued : log.system.cache.evictionPolicy.zones = zone :: rest) :
    ∃ after, runActions (EvictLog.step config) log
        (List.replicate 4 (thread, .run .smooth)) = some after ∧ Alone after thread ∧
      after.system.threads thread = .evict caller (.loop (u32 (i + 1)) freeZones) ∧
      after.system.cache.evictionPolicy.zones = rest ∧
      after.freeRead thread = log.freeRead thread ∧
      after.evicted thread = log.evicted thread ++ [zone] := by
  obtain ⟨policy, answer, remains⟩ := getZoneToEvict_cons queued
  have took : fgEvictStep config.evictLowThreshZones log.system.cache .smooth
      (.loop i freeZones) = some ({ log.system.cache with evictionPolicy := policy },
        some (.clear i freeZones zone)) := by
    simp only [fgEvictStep, if_pos more, Environment.smooth, answer, Option.map_some]
  obtain ⟨one, ran₁, alone₁, cache₁, here₁, free₁, evicted₁⟩ := alone.step here took
  obtain ⟨outcome, cleared, _⟩ := @CacheMapAgrees.clearZone_asserts _ _ _ alone.sound.map.agrees
    zone fun id entry found => by
      by_contra above
      simp [alone.sound.map.keys id (Nat.le_of_not_lt above)] at found
  have emptied : fgEvictStep config.evictLowThreshZones one.system.cache .smooth
      (.clear i freeZones zone) = some ({ one.system.cache with cacheMap := outcome.state },
        some (.wait i freeZones zone)) := by
    simp only [fgEvictStep, cache₁, cleared]
  obtain ⟨two, ran₂, alone₂, cache₂, here₂, free₂, evicted₂⟩ := alone₁.step here₁ emptied
  have drained : fgEvictStep config.evictLowThreshZones two.system.cache .smooth
      (.wait i freeZones zone) = some (two.system.cache, some (.reset i freeZones zone)) := by
    simp only [fgEvictStep, alone₂.unread zone, lt_irrefl, if_false]
  obtain ⟨three, ran₃, alone₃, cache₃, here₃, free₃, evicted₃⟩ := alone₂.step here₂ drained
  obtain ⟨four, ran₄, alone₄, cache₄, here₄, free₄, evicted₄⟩ := alone₃.step here₃ rfl
  refine ⟨four, runActions_cons ran₁ (runActions_cons ran₂ (runActions_cons ran₃
    (runActions_cons ran₄ rfl))), alone₄, here₄, ?_, ?_, ?_⟩
  · rw [cache₄, ZnCache.evictZone, cache₃, cache₂, cache₁]
    exact remains
  · rw [free₄, free₃, free₂, free₁]
    rfl
  · rw [evicted₄, evicted₃, evicted₂, evicted₁]
    rfl

/-- The loop evicts `count` zones, or all that are listed. -/
theorem Alone.loop (low : config.evictLowThreshZones < 2 ^ 31) (count : Nat)
    (alone : Alone log thread) {caller : Option Nat} {i freeZones : Nat}
    (here : log.system.threads thread = .evict caller (.loop i freeZones))
    (remaining : i + count = u32 (config.evictLowThreshZones - freeZones)) :
    ∃ sections last, runActions (EvictLog.step config) log
        (List.replicate sections (thread, .run .smooth)) = some last ∧
      last.system.threads thread = afterEvict caller ∧
      last.freeRead thread = log.freeRead thread ∧
      last.evicted thread =
        log.evicted thread ++ log.system.cache.evictionPolicy.zones.take count := by
  induction count generalizing log i with
  | zero =>
      have enough : fgEvictStep config.evictLowThreshZones log.system.cache .smooth
          (.loop i freeZones) = some (log.system.cache, none) := by
        simp only [fgEvictStep]
        rw [if_neg]
        rw [threshMinus_eq low]
        omega
      obtain ⟨last, ran, left, free, evicted⟩ := EvictLog.leave here enough
      exact ⟨1, last, ran, left, free, by simp [evicted]⟩
  | succ count ih =>
      have more : (i : Int) < threshMinus config.evictLowThreshZones freeZones := by
        rw [threshMinus_eq low]
        omega
      cases queued : log.system.cache.evictionPolicy.zones with
      | nil =>
          have nothing : fgEvictStep config.evictLowThreshZones log.system.cache .smooth
              (.loop i freeZones) = some (log.system.cache, none) := by
            simp only [fgEvictStep, if_pos more, Environment.smooth, getZoneToEvict_nil queued,
              Option.map_none]
          obtain ⟨last, ran, left, free, evicted⟩ := EvictLog.leave here nothing
          exact ⟨1, last, ran, left, free, by simp [evicted]⟩
      | cons zone rest =>
          obtain ⟨middle, ran, aloneAfter, there, remains, free, evicted⟩ :=
            alone.pass here more queued
          have counter : u32 (i + 1) = i + 1 := by
            have bounded := u32_lt (config.evictLowThreshZones - freeZones)
            exact_mod_cast u32_of_nat (by omega)
          obtain ⟨sections, last, ranRest, left, freeRest, evictedRest⟩ :=
            ih aloneAfter there (by omega)
          refine ⟨4 + sections, last, ?_, left, freeRest.trans free, ?_⟩
          · rw [List.replicate_add]
            exact runActions_append ran ranRest
          · rw [evictedRest, evicted, remains, List.append_assoc]
            rfl

theorem Alone.fgEvict (low : config.evictLowThreshZones < 2 ^ 31) (alone : Alone log thread)
    {caller : Option Nat} (here : log.system.threads thread = .evict caller .start) :
    ∃ sections last, runActions (EvictLog.step config) log
        (List.replicate sections (thread, .run .smooth)) = some last ∧
      last.system.threads thread = afterEvict caller ∧
      last.freeRead thread = zsmGetNumFreeZones log.system.cache.zoneState ∧
      last.evicted thread = log.system.cache.evictionPolicy.zones.take
        (u32 (config.evictLowThreshZones -
          zsmGetNumFreeZones log.system.cache.zoneState)) := by
  obtain ⟨counting, ran, aloneAfter, sameCache, there, free, evicted⟩ :=
    @Alone.step _ _ _ config _ _ alone _ _ _ _ here rfl
  obtain ⟨sections, last, ranRest, left, freeRest, evictedRest⟩ :=
    aloneAfter.loop low _ there (Nat.zero_add _)
  refine ⟨sections + 1, last, runActions_cons ran ranRest, left, freeRest.trans free, ?_⟩
  rw [evictedRest, evicted, sameCache]
  rfl

end Alone

/-! ## The mark -/

/-- The prefix that the 32-bit bound takes is the one up to the mark unless the bound
wraps. -/
theorem take_bound_iff {lowThresh freeZones : Nat} {zones : List Nat}
    (low : lowThresh < 2 ^ 31) (fits : freeZones < 2 ^ 32) :
    zones.take (u32 (lowThresh - freeZones)) =
        zones.take (min zones.length (lowThresh - freeZones)) ↔
      freeZones ≤ lowThresh ∨ zones = [] := by
  constructor
  · intro same
    by_contra wraps
    obtain ⟨above, listed⟩ := not_or.mp wraps
    have positive := u32_sub_wraps (Nat.lt_of_not_le above) fits
    have none : lowThresh - freeZones = 0 := by omega
    rw [none, Nat.min_zero, List.take_zero, List.take_eq_nil_iff] at same
    cases same with
    | inl zero => omega
    | inr empty => exact listed empty
  · intro either
    rcases either with below | rfl
    · rw [u32_sub low below]
      exact (List.take_eq_take_min).trans (by rw [Nat.min_comm])
    · simp

section Mark

variable [Fintype Thread] {config : CacheConfig} {log : EvictLog Thread}

theorem EvictLog.sound_of_reach
    (reached : Reach (EvictLog.step config) (fun _ action => GetsBelow (2 ^ 31) action)
      (Initial config) log) : CountsSound log.system := by
  apply reached.invariant
  · exact fun _ begins => CountsSound.init begins.1
  · intro before action _ sound below taken
    obtain ⟨system, moved, rfl⟩ := Option.map_eq_some_iff.mp taken
    exact sound.step below moved

end Mark

/-- Three zones of one chunk each, and a mark of one free zone. -/
def oneFreeConfig : CacheConfig :=
  { oneChunkConfig with nrZones := 3, evictLowThreshZones := 1 }

def newLog : Option (EvictLog (Fin 3)) :=
  (promotionalSystem oneFreeConfig).map fun system => ⟨system, fun _ => 0, fun _ => []⟩

def sections (thread : Fin 3) (count : Nat) : List (Fin 3 × Choice) :=
  List.replicate count (thread, .run .smooth)

/-- Fills the three zones, and finds none for the next identifier. -/
def fillThree : List (Fin 3 × Choice) :=
  (0, .get 0) :: sections 0 7 ++ (0, .get 1) :: sections 0 7 ++ (0, .get 2) :: sections 0 7 ++
    (0, .get 3) :: sections 0 2

/-- Two more misses find none either.  Two of the calls free a zone each before the
third counts. -/
def threeEvict : List (Fin 3 × Choice) :=
  fillThree ++ (1, .get 4) :: sections 1 2 ++ (2, .get 5) :: sections 2 2 ++
    sections 0 1 ++ sections 1 1 ++ sections 0 4 ++ sections 1 4 ++ sections 2 5

end ZNCache
