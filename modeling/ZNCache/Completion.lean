import ZNCache.FgEviction
import ZNCache.Lib.Simulation
import ZNCache.SystemPlacement
import ZNCache.ZoneAnswers

/-!
# Every call can be finished

Whatever has happened to a cache, if nothing fails from now on there is a schedule that
brings every thread out of its call.  The threads that only have sections of their own to
run go first, then those that evict, then those that need a zone, and last those that
look for an identifier.
-/

set_option autoImplicit false

namespace ZNCache

open Tally Transition

variable {Thread : Type}

/-! ## How much is left -/

/-- What a thread has left at most, with the chance that it fills a zone and that a wait
ends in a miss. -/
def GetPc.left : GetPc → Nat
  | asleep _ => 12
  | find _ => 11
  | acquire _ => 10
  | write _ _ => 9
  | countMiss _ _ => 8
  | giveBack _ _ => 7
  | record _ _ => 6
  | insert _ _ => 1
  | undoZone _ _ => 2
  | undoMap _ => 1
  | read _ _ => 4
  | touch _ _ _ => 3
  | release _ _ _ => 2
  | countHit _ _ => 1

def EvictPc.left : EvictPc → Nat
  | clear _ _ _ => 4
  | wait _ _ _ => 3
  | start | reset _ _ _ => 2
  | loop _ _ => 1

def ThreadPc.left : ThreadPc EvictPc → Nat
  | idle => 0
  | get pc => pc.left
  | evict caller code => code.left + caller.elim 0 fun _ => 10

/-- Each zone that can still be taken is worth a round of the eviction loop. -/
def workLeft [Fintype Thread] (system : PromotionalSystem Thread) : Nat :=
  4 * system.cache.evictionPolicy.zones.length + tally ThreadPc.left system.threads

def RunsOn (_ : PromotionalSystem Thread) (action : Thread × Choice) : Prop :=
  ∃ thread, action = (thread, .run .smooth)

section Sections

variable {config : CacheConfig} {thread : Thread} {cache : PromotionalCache Thread}

def Lowers (cache : PromotionalCache Thread) (pc : ThreadPc EvictPc)
    (answer : Option (PromotionalCache Thread × ThreadPc EvictPc)) : Prop :=
  ∃ after next, answer = some (after, next) ∧
    4 * after.evictionPolicy.zones.length + next.left <
      4 * cache.evictionPolicy.zones.length + pc.left

def GetPc.Straight : GetPc → Prop
  | find _ | asleep _ | acquire _ => False
  | read _ _ | touch _ _ _ | release _ _ _ | countHit _ _ | write _ _ | countMiss _ _ => True
  | giveBack _ _ | record _ _ | insert _ _ | undoZone _ _ | undoMap _ => True

variable [DecidableEq Thread]

theorem GetPc.Straight.lowers {pc : GetPc} {writers : Multiset Nat} (straight : pc.Straight)
    (agrees : CacheMapAgrees cache.cacheMap (pc.writes + writers))
    (consistent : cache.evictionPolicy.Consistent)
    (absent : ∀ id location, pc = .record id location →
      location.chunkOffset = cache.evictionPolicy.lastChunk →
      location.zone ∉ cache.evictionPolicy.zones) :
    Lowers cache (.get pc) (getStep (promotionalCode config) thread cache .smooth pc) := by
  cases pc with
  | find | asleep | acquire => cases straight
  | read | release | countHit | write | countMiss | giveBack | undoZone =>
      exact ⟨_, _, rfl, Nat.add_lt_add_left (by simp [ThreadPc.left, GetPc.left]) _⟩
  | touch id location data =>
      obtain ⟨policy, updated, _, sameZones, _⟩ := consistent.update_read_perm location
      refine ⟨{ cache with evictionPolicy := policy }, .get (.release id location data), ?_, ?_⟩
      · simp [getStep, promotionalCode, updated]
      · rw [sameZones.length_eq]
        exact Nat.add_lt_add_left (by simp [ThreadPc.left, GetPc.left]) _
  | record id location =>
      by_cases last : location.chunkOffset = cache.evictionPolicy.lastChunk
      · obtain ⟨policy, updated, _, queued, _⟩ :=
          consistent.update_filled last (absent id location rfl last)
        refine ⟨{ cache with evictionPolicy := policy }, .get (.insert id location), ?_, ?_⟩
        · simp [getStep, promotionalCode, updated]
        · simp only [queued, List.length_append, List.length_singleton, ThreadPc.left, GetPc.left]
          omega
      · refine ⟨cache, .get (.insert id location), ?_, ?_⟩
        · simp [getStep, promotionalCode, ZnPolicyPromotional.update_notFilled last]
        · simp [ThreadPc.left, GetPc.left]
  | insert id location =>
      have agrees : CacheMapAgrees cache.cacheMap (id ::ₘ writers) := agrees
      refine ⟨{ cache with cacheMap := cache.cacheMap.located id location }, .idle, ?_, ?_⟩
      · simp [getStep, agrees.insert location]
      · simp [ThreadPc.left, GetPc.left]
  | undoMap id =>
      have agrees : CacheMapAgrees cache.cacheMap (id ::ₘ writers) := agrees
      obtain ⟨outcome, _, ran, _⟩ := agrees.fail
      refine ⟨{ cache with cacheMap := outcome.state }, .idle, ?_, ?_⟩
      · simp [getStep, ran]
      · simp [ThreadPc.left, GetPc.left]

omit [DecidableEq Thread] in
theorem EvictPc.lowers {caller : Option Nat} {code : EvictPc} {writers : Multiset Nat}
    {lowThresh : Nat} (agrees : CacheMapAgrees cache.cacheMap writers)
    (low : ∀ id entry, cache.cacheMap.zoneMap id = some entry → id < 2 ^ 31)
    (consistent : cache.evictionPolicy.Consistent)
    (unread : ∀ zone, cache.cacheMap.activeReaders zone = 0) :
    Lowers cache (.evict caller code)
      ((fgEvictStep lowThresh cache .smooth code).map fun next =>
        (next.1, match next.2 with
          | some code => .evict caller code
          | none => afterEvict caller)) := by
  have ends : (afterEvict caller : ThreadPc EvictPc).left = caller.elim 0 fun _ => 10 := by
    cases caller <;> rfl
  cases code with
  | start => exact ⟨_, _, rfl, by simp [ThreadPc.left, EvictPc.left]⟩
  | reset i freeZones zone =>
      exact ⟨_, _, rfl, by simp [ThreadPc.left, EvictPc.left, ZnCache.evictZone]⟩
  | wait i freeZones zone =>
      refine ⟨cache, .evict caller (.reset i freeZones zone), ?_, ?_⟩
      · simp [fgEvictStep, unread zone]
      · simp [ThreadPc.left, EvictPc.left]
  | clear i freeZones zone =>
      obtain ⟨outcome, cleared, _⟩ : ∃ outcome, znCachemapClearZone cache.cacheMap zone =
          some outcome ∧ outcome.asserts = true := agrees.clearZone_asserts low
      refine ⟨{ cache with cacheMap := outcome.state }, .evict caller (.wait i freeZones zone),
        ?_, ?_⟩
      · simp [fgEvictStep, cleared]
      · simp [ThreadPc.left, EvictPc.left]
  | loop i freeZones =>
      by_cases more : (i : Int) < threshMinus lowThresh freeZones
      · cases answer : znPolicyPromotionalGetZoneToEvict true cache.evictionPolicy with
        | mk zone policy =>
            cases zone with
            | none =>
                cases consistent.takesNothing answer
                refine ⟨cache, afterEvict caller, ?_, ?_⟩
                · simp [fgEvictStep, more, Environment.smooth, answer]
                · rw [ends]
                  simp only [ThreadPc.left, EvictPc.left]
                  omega
            | some zone =>
                obtain ⟨_, zones, _⟩ := consistent.takes answer
                refine ⟨{ cache with evictionPolicy := policy },
                  .evict caller (.clear i freeZones zone), ?_, ?_⟩
                · simp [fgEvictStep, more, Environment.smooth, answer]
                · simp only [zones, List.length_cons, ThreadPc.left, EvictPc.left]
                  omega
      · refine ⟨cache, afterEvict caller, ?_, ?_⟩
        · simp [fgEvictStep, more]
        · rw [ends]
          simp only [ThreadPc.left, EvictPc.left]
          omega

theorem GetPc.waits (config : CacheConfig) {pc : GetPc} (waits : ¬ pc.Straight) :
    pc.reads = 0 ∧ pc.holds = 0 ∧ pc.fills config = 0 := by
  cases pc with
  | find | asleep | acquire => exact ⟨rfl, rfl, rfl⟩
  | read | touch | release | countHit | write | countMiss => exact absurd trivial waits
  | giveBack | record | insert | undoZone | undoMap => exact absurd trivial waits

end Sections

/-! ## What a run keeps -/

section Run

variable [DecidableEq Thread] [Fintype Thread] {config : CacheConfig}
  {system next : PromotionalSystem Thread} {thread : Thread}

structure Recoverable (config : CacheConfig) (system : PromotionalSystem Thread) : Prop where
  owned : ZonesOwned config system
  counts : CountsSound system
  someActive : 1 ≤ system.cache.zoneState.maxNrActiveZones

omit [DecidableEq Thread] in
theorem Recoverable.init (begins : promotionalSystem config = some system) :
    Recoverable config system := by
  refine ⟨ZonesOwned.init begins, CountsSound.init begins, ?_⟩
  rw [(System.init_spec begins).2.1]
  change 1 ≤ config.maxActive
  unfold CacheConfig.maxActive
  split
  next => decide
  next positive => omega

theorem Recoverable.step (fits : config.maxZoneChunks < 2 ^ 32) {action : Thread × Choice}
    (sound : Recoverable config system) (success : CommandsSucceed action)
    (below : GetsBelow (2 ^ 31) action)
    (taken : system.step (promotionalCode config) action = some next) :
    Recoverable config next := by
  refine ⟨sound.owned.step fits success taken, sound.counts.step below taken, ?_⟩
  have followed := sound.owned.handoutStep success taken
  have same : (handoutOf next).manager.maxNrActiveZones =
      (handoutOf system).manager.maxNrActiveZones := by
    cases call : (system.threads action.1).zsmCall action.2 with
    | none =>
        rw [call] at followed
        rw [followed]
    | some made =>
        rw [call] at followed
        exact (Handout.step_shape followed).maxNrActiveZones
  exact sound.someActive.trans_eq same.symm

omit [DecidableEq Thread] in
theorem Recoverable.counted (sound : Recoverable config system) : (handoutOf system).Counted :=
  ⟨sound.owned.zones.partition, sound.owned.zones.entries, sound.owned.zones.counts⟩

/-! ## One thread runs on -/

omit [Fintype Thread] in
theorem System.step_evict {caller : Option Nat} {code : EvictPc} {environment : Environment}
    (here : system.threads thread = .evict caller code) :
    system.step (promotionalCode config) (thread, .run environment) =
      ((fgEvictStep config.evictLowThreshZones system.cache environment code).map fun next =>
        (next.1, match next.2 with
          | some code => .evict caller code
          | none => afterEvict caller)).map fun next =>
        system.advance thread next.1 next.2 := by
  rw [Option.map_map]
  simp only [System.step, here]
  refine congrArg (Option.map · _) (funext fun answer => ?_)
  obtain ⟨cache, _ | code⟩ := answer <;> rfl

theorem workLeft_advance (cache : PromotionalCache Thread) (pc : ThreadPc EvictPc) :
    workLeft (system.advance thread cache pc) =
      4 * cache.evictionPolicy.zones.length +
        (pc.left + others ThreadPc.left system.threads thread) := by
  simp only [workLeft, System.advance]
  rw [tally_update]

theorem workLeft_split :
    workLeft system = 4 * system.cache.evictionPolicy.zones.length +
      ((system.threads thread).left + others ThreadPc.left system.threads thread) := by
  rw [workLeft, tally_split _ _ thread]

def Progress (config : CacheConfig) (system : PromotionalSystem Thread) : Prop :=
  CanReach (System.step (promotionalCode config)) RunsOn
    (fun later => workLeft later < workLeft system) system

theorem Lowers.progress {answer : Option (PromotionalCache Thread × ThreadPc EvictPc)}
    (lowers : Lowers system.cache (system.threads thread) answer)
    (moved : system.step (promotionalCode config) (thread, .run .smooth) =
      answer.map fun next => system.advance thread next.1 next.2) : Progress config system := by
  obtain ⟨after, pc, rfl, less⟩ := lowers
  refine .cons ⟨thread, rfl⟩ moved (.here ?_)
  rw [workLeft_advance, @workLeft_split _ _ _ system thread]
  dsimp only
  omega

theorem Recoverable.straight (sound : Recoverable config system) {pc : GetPc}
    (here : system.threads thread = .get pc) (straight : pc.Straight) :
    Progress config system := by
  have agrees := sound.counts.map.agrees
  have full := sound.owned.full.nodup
  rw [tally_split _ _ thread, here] at agrees full
  refine Lowers.progress ?_ (System.step_get here)
  rw [here]
  refine straight.lowers agrees sound.owned.consistent ?_
  intro id location same last queued
  subst same
  rw [sound.owned.lastChunk] at last
  refine (Multiset.disjoint_left.mp (Multiset.nodup_add.mp full).2.2) queued ?_
  exact Multiset.mem_add.mpr (.inl (by simp [ThreadPc.ownsFull, GetPc.fills, last]))

/-- Nobody is reading, so an eviction does not have to wait. -/
theorem Recoverable.evicting (sound : Recoverable config system) {caller : Option Nat}
    {code : EvictPc} (here : system.threads thread = .evict caller code)
    (unread : ∀ other, (system.threads other).reads = 0) : Progress config system := by
  refine Lowers.progress ?_ (System.step_evict here)
  rw [here]
  refine EvictPc.lowers sound.counts.map.agrees ?_ sound.owned.consistent fun zone => ?_
  · intro id entry found
    by_contra high
    cases found.symm.trans (sound.counts.map.keys id (Nat.not_lt.mp high))
  · rw [sound.counts.readers, tally_const_zero _ _ unread]
    rfl

omit [Fintype Thread] in
theorem System.step_evicts {caller : Option Nat} {code later : EvictPc}
    {cache after : PromotionalCache Thread}
    (ran : fgEvictStep config.evictLowThreshZones cache .smooth code = some (after, some later)) :
    (system.advance thread cache (.evict caller code)).step (promotionalCode config)
      (thread, .run .smooth) = some (system.advance thread after (.evict caller later)) := by
  have here : (system.advance thread cache (.evict caller code)).threads thread =
      .evict caller code := Function.update_self ..
  rw [System.step_evict here]
  simp [ran, System.advance]

omit [DecidableEq Thread] in
/-- When every zone is full and no thread has one in hand, the policy has one to give. -/
theorem Recoverable.queued (sound : Recoverable config system) (someZone : 1 ≤ config.nrZones)
    (noneOwned : ∀ other, (system.threads other).ownsFull config = 0)
    (evicts : (zsmGetActiveZone 0 system.cache.zoneState).ret = .evict) :
    ∃ zone rest, system.cache.evictionPolicy.zones = zone :: rest := by
  have first : 0 < system.cache.zoneState.numZones := by
    rw [sound.owned.nrZones]
    exact someZone
  have isFull : IsFull system.cache.zoneState 0 :=
    ⟨first, sound.counted.allFull_iff.mpr (sound.counted.evict_iff.1.mp evicts) 0 first⟩
  have listed := (sound.owned.full.iff 0).mpr isFull
  rw [tally_const_zero _ _ noneOwned, add_zero] at listed
  exact List.exists_cons_of_ne_nil (List.ne_nil_of_mem (Multiset.mem_coe.mp listed))

/-- A miss gets a zone, or the first pass of its eviction takes one. -/
theorem Recoverable.acquiring (sound : Recoverable config system) (someZone : 1 ≤ config.nrZones)
    (mark : 1 ≤ config.evictLowThreshZones) {id : Nat}
    (here : system.threads thread = .get (.acquire id))
    (noneHeld : ∀ other, (system.threads other).holds = 0)
    (noneOwned : ∀ other, (system.threads other).ownsFull config = 0) :
    Progress config system := by
  have counted := sound.counted
  have outstanding : (handoutOf system).outstanding = 0 := tally_const_zero _ _ noneHeld
  cases answer : (zsmGetActiveZone 0 system.cache.zoneState).ret with
  | retry => exact absurd outstanding (counted.retry_waits sound.someActive answer).1
  | error => exact absurd answer counted.answer.2
  | success location =>
      refine Lowers.progress ⟨{ system.cache with
        zoneState := (zsmGetActiveZone 0 system.cache.zoneState).state },
        .get (.write id location), ?_, ?_⟩ (System.step_get here)
      · simp [getStep, Environment.smooth, answer, afterGetActiveZone]
      · simp [here, ThreadPc.left, GetPc.left]
  | evict =>
      obtain ⟨zone, rest, zones⟩ := sound.queued someZone noneOwned answer
      have noFree : system.cache.zoneState.free = [] := (counted.evict_iff.1.mp answer).2.1
      have unchanged : (zsmGetActiveZone 0 system.cache.zoneState).state =
          system.cache.zoneState := counted.evict_iff.2 answer
      obtain ⟨policy, taken, left⟩ := getZoneToEvict_cons zones
      have low : ∀ id entry, system.cache.cacheMap.zoneMap id = some entry → id < 2 ^ 31 := by
        intro other entry found
        by_contra high
        cases found.symm.trans (sound.counts.map.keys other (Nat.not_lt.mp high))
      obtain ⟨outcome, cleared, _⟩ : ∃ outcome, znCachemapClearZone system.cache.cacheMap zone =
          some outcome ∧ outcome.asserts = true := sound.counts.map.agrees.clearZone_asserts low
      have told : system.step (promotionalCode config) (thread, .run .smooth) =
          some (system.advance thread system.cache (.evict (some id) .start)) := by
        rw [System.step_get here]
        simp [getStep, Environment.smooth, answer, unchanged, afterGetActiveZone, promotionalCode]
      have due : (0 : Int) < threshMinus config.evictLowThreshZones 0 := by
        unfold threshMinus u32
        split <;> omega
      have counts : fgEvictStep config.evictLowThreshZones system.cache .smooth .start =
          some (system.cache, some (.loop 0 0)) := by
        simp [fgEvictStep, zsmGetNumFreeZones, noFree]
      have takes : fgEvictStep config.evictLowThreshZones system.cache .smooth (.loop 0 0) =
          some ({ system.cache with evictionPolicy := policy }, some (.clear 0 0 zone)) := by
        simp [fgEvictStep, due, Environment.smooth, taken]
      have clears : fgEvictStep config.evictLowThreshZones
          { system.cache with evictionPolicy := policy } .smooth (.clear 0 0 zone) =
          some ({ system.cache with evictionPolicy := policy, cacheMap := outcome.state },
            some (.wait 0 0 zone)) := by
        simp [fgEvictStep, cleared]
      refine .cons ⟨thread, rfl⟩ told (.cons ⟨thread, rfl⟩ (System.step_evicts counts)
        (.cons ⟨thread, rfl⟩ (System.step_evicts takes) (.cons ⟨thread, rfl⟩
          (System.step_evicts clears) (.here ?_))))
      rw [workLeft_advance, @workLeft_split _ _ _ system thread, here, zones, left]
      simp only [List.length_cons, ThreadPc.left, EvictPc.left, GetPc.left, Option.elim]
      omega

omit [DecidableEq Thread] in
theorem Recoverable.settled (sound : Recoverable config system)
    (unwritten : ∀ other, (system.threads other).writes = 0) {key : Nat}
    {entry : ZoneMapResult Thread} (found : system.cache.cacheMap.zoneMap key = some entry) :
    entry.type ≠ .cond := by
  intro busy
  have claimed := (sound.counts.map.agrees.claimed key).mpr ⟨entry, found, busy⟩
  rw [tally_const_zero _ _ unwritten] at claimed
  exact Multiset.notMem_zero _ claimed

theorem Recoverable.waking (sound : Recoverable config system)
    (unwritten : ∀ other, (system.threads other).writes = 0) {id : Nat}
    (here : system.threads thread = .get (.asleep id)) : Progress config system := by
  have awake : system.cache.cacheMap.sleeping thread id = false := by
    unfold CacheMap.sleeping
    cases found : system.cache.cacheMap.zoneMap (gintToPointer id) with
    | none => rfl
    | some entry =>
        refine decide_eq_false fun member => sound.settled unwritten found ?_
        exact sound.counts.map.agrees.asleep _ entry found (List.ne_nil_of_mem member)
  refine Lowers.progress ⟨system.cache, .get (.find id), ?_, ?_⟩ (System.step_get here)
  · simp [getStep, awake]
  · simp [here, ThreadPc.left, GetPc.left]

theorem Recoverable.finding (sound : Recoverable config system)
    (unwritten : ∀ other, (system.threads other).writes = 0) {id : Nat}
    (here : system.threads thread = .get (.find id)) : Progress config system := by
  have small : id < 2 ^ 31 :=
    sound.counts.map.seeks thread id (by simp [here, ThreadPc.seeks, ThreadPc.lift, GetPc.seeks])
  have answer := znCachemapFind_spec thread system.cache.cacheMap (small.trans (by decide))
  refine Lowers.progress ⟨_, _, rfl, ?_⟩ (System.step_get here)
  rw [here]
  refine Nat.add_lt_add_left ?_ _
  generalize znCachemapFind thread system.cache.cacheMap id = found at answer
  obtain ⟨result, map⟩ := found
  cases answer with
  | loc | claim => simp [afterFind, ThreadPc.left, GetPc.left]
  | wait entry found busy => exact absurd busy (sound.settled unwritten found)

/-! ## Some thread can always run on -/

/-- Where a call is in progress, some thread can run on: first those that depend on no
other, then those that evict, then those that need a zone, then those that look for an
identifier. -/
theorem Recoverable.progress (sound : Recoverable config system) (someZone : 1 ≤ config.nrZones)
    (mark : 1 ≤ config.evictLowThreshZones)
    (busy : ¬ ∀ thread, system.threads thread = .idle) : Progress config system := by
  by_cases straight : ∃ thread pc, system.threads thread = .get pc ∧ pc.Straight
  · obtain ⟨thread, pc, here, straight⟩ := straight
    exact sound.straight here straight
  have waits : ∀ thread pc, system.threads thread = .get pc → ¬ pc.Straight :=
    fun thread pc here also => straight ⟨thread, pc, here, also⟩
  have unread : ∀ thread, (system.threads thread).reads = 0 := by
    intro thread
    cases here : system.threads thread with
    | idle | evict => rfl
    | get pc => exact (GetPc.waits config (waits thread pc here)).1
  by_cases evicting : ∃ thread caller code, system.threads thread = .evict caller code
  · obtain ⟨thread, caller, code, here⟩ := evicting
    exact sound.evicting here unread
  have waiting : ∀ thread, system.threads thread = .idle ∨
      ∃ pc, system.threads thread = .get pc ∧ ¬ pc.Straight := by
    intro thread
    cases here : system.threads thread with
    | idle => exact .inl rfl
    | evict caller code => exact absurd ⟨thread, caller, code, here⟩ evicting
    | get pc => exact .inr ⟨pc, rfl, waits thread pc here⟩
  by_cases acquiring : ∃ thread id, system.threads thread = .get (.acquire id)
  · obtain ⟨thread, id, here⟩ := acquiring
    refine sound.acquiring someZone mark here (fun other => ?_) fun other => ?_
    · obtain idle | ⟨pc, there, waits⟩ := waiting other
      · rw [idle]
        rfl
      · rw [there]
        exact (GetPc.waits config waits).2.1
    · obtain idle | ⟨pc, there, waits⟩ := waiting other
      · rw [idle]
        rfl
      · rw [there]
        exact (GetPc.waits config waits).2.2
  have unwritten : ∀ thread, (system.threads thread).writes = 0 := by
    intro thread
    obtain idle | ⟨pc, here, waits⟩ := waiting thread
    · rw [idle]
      rfl
    · rw [here]
      cases pc with
      | find | asleep => rfl
      | acquire id => exact absurd ⟨thread, id, here⟩ acquiring
      | read | touch | release | countHit | write | countMiss => exact absurd trivial waits
      | giveBack | record | insert | undoZone | undoMap => exact absurd trivial waits
  obtain ⟨thread, notIdle⟩ := not_forall.mp busy
  obtain ⟨pc, here, waits⟩ := (waiting thread).resolve_left notIdle
  cases pc with
  | find id => exact sound.finding unwritten here
  | asleep id => exact sound.waking unwritten here
  | acquire id => exact absurd ⟨thread, id, here⟩ acquiring
  | read | touch | release | countHit | write | countMiss => exact absurd trivial waits
  | giveBack | record | insert | undoZone | undoMap => exact absurd trivial waits

theorem Recoverable.runsOn (fits : config.maxZoneChunks < 2 ^ 32) {action : Thread × Choice}
    (sound : Recoverable config system) (runs : RunsOn system action)
    (taken : system.step (promotionalCode config) action = some next) :
    Recoverable config next := by
  obtain ⟨thread, rfl⟩ := runs
  refine sound.step fits (fun environment same => ?_) (fun id called => ?_) taken
  · cases same
    rfl
  · cases called

theorem Recoverable.finishes (fits : config.maxZoneChunks < 2 ^ 32)
    (someZone : 1 ≤ config.nrZones) (mark : 1 ≤ config.evictLowThreshZones)
    (sound : Recoverable config system) :
    CanReach (System.step (promotionalCode config)) RunsOn
      (fun last => ∀ thread, last.threads thread = .idle) system := by
  have lowered : ∀ state : PromotionalSystem Thread, Recoverable config state →
      ¬ (∀ thread, state.threads thread = .idle) →
      CanReach (System.step (promotionalCode config)) RunsOn
        (fun next => Recoverable config next ∧ workLeft next < workLeft state) state := by
    intro state sound busy
    exact (sound.progress someZone mark busy).keep
      (fun _ _ _ sound runs taken => sound.runsOn fits runs taken) sound
  exact CanReach.of_measure workLeft lowered sound

end Run

/-- The second thread looks an identifier up that the first one is writing, and sleeps. -/
def sleepBesideWrite (writer sleeper : Thread) : List (Thread × Choice) :=
  [(writer, .get 7), (writer, .run .smooth), (sleeper, .get 7), (sleeper, .run .smooth),
    (writer, .run .smooth)]

end ZNCache
