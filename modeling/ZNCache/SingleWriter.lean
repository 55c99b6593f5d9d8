import ZNCache.Lib.Transition
import ZNCache.PromotionalEviction

/-!
# One writer for each identifier

The cache map agrees with the identifiers that threads are writing, in every
interleaving and whatever the device answers.
-/

set_option autoImplicit false

namespace ZNCache

open Tally Transition

variable {Thread Policy Local : Type} [DecidableEq Thread]

/-! ## Any eviction code that respects the map -/

structure EvictionCode.KeepsMap (code : EvictionCode Thread Policy Local) : Prop where
  agrees : ∀ {thread cache pc environment after next writers},
    code.evictStep thread cache pc environment = some (after, next) →
    CacheMapAgrees cache.cacheMap writers → CacheMapAgrees after.cacheMap writers
  keys : ∀ {thread cache pc environment after next writers},
    code.evictStep thread cache pc environment = some (after, next) →
    CacheMapAgrees cache.cacheMap writers →
    ∀ id, cache.cacheMap.zoneMap id = none → after.cacheMap.zoneMap id = none

structure EvictionCode.KeepsMapAt (code : EvictionCode Thread Policy Local) (thread : Thread)
    (cache : ZnCache Thread Policy) (pc : ThreadPc Local) : Prop where
  agrees : ∀ {caller here environment after next writers}, pc = .evict caller here →
    code.evictStep thread cache here environment = some (after, next) →
    CacheMapAgrees cache.cacheMap writers → CacheMapAgrees after.cacheMap writers
  keys : ∀ {caller here environment after next writers}, pc = .evict caller here →
    code.evictStep thread cache here environment = some (after, next) →
    CacheMapAgrees cache.cacheMap writers →
    ∀ id, cache.cacheMap.zoneMap id = none → after.cacheMap.zoneMap id = none

omit [DecidableEq Thread] in
theorem EvictionCode.KeepsMap.here {code : EvictionCode Thread Policy Local}
    (keeps : code.KeepsMap) {thread : Thread} {cache : ZnCache Thread Policy}
    {pc : ThreadPc Local} : code.KeepsMapAt thread cache pc :=
  ⟨fun _ => keeps.agrees, fun _ => keeps.keys⟩

def GetsBelow (bound : Nat) (action : Thread × Choice) : Prop :=
  ∀ id, action.2 = .get id → id < bound

theorem System.getsBelow_of_step {code : EvictionCode Thread Policy Local}
    {system next : System Thread Policy Local} {action : Thread × Choice}
    (taken : system.step code action = some next) : GetsBelow (2 ^ 32) action := by
  obtain ⟨thread, choice⟩ := action
  obtain ⟨cache, pc, rfl, moved⟩ := System.step_spec taken
  generalize system.threads thread = here at moved
  intro id called
  cases moved with
  | call other small =>
      cases called
      exact small
  | _ => cases called

section Step

variable {code : EvictionCode Thread Policy Local} {thread : Thread} {choice : Choice}
  {cache after : ZnCache Thread Policy} {pc next : ThreadPc Local}

theorem ThreadStep.agrees (keeps : code.KeepsMapAt thread cache pc) {others : Multiset Nat}
    (taken : ThreadStep code thread cache pc choice after next)
    (small : ∀ id ∈ pc.seeks, id < 2 ^ 32)
    (agrees : CacheMapAgrees cache.cacheMap (pc.writes + others)) :
    CacheMapAgrees after.cacheMap (next.writes + others) := by
  cases taken with
  | call | callEvict => exact agrees
  | wakeUp id => exact agrees.wakeUp thread (small id (by simp [ThreadPc.seeks,
      ThreadPc.lift, GetPc.seeks]))
  | get ran => exact ran.agrees small agrees
  | evict caller next ran => exact keeps.agrees rfl ran agrees
  | evicted caller ran =>
      rw [ThreadPc.writes_afterEvict]
      exact keeps.agrees rfl ran agrees

theorem ThreadStep.seeks (taken : ThreadStep code thread cache pc choice after next)
    {id : Nat} (member : id ∈ next.seeks) : id ∈ pc.seeks ∨ choice = .get id := by
  cases taken with
  | call other small =>
      right
      rw [Multiset.mem_singleton.mp member]
  | callEvict => simp [ThreadPc.seeks, ThreadPc.lift] at member
  | wakeUp other => exact .inl member
  | evict => simp [ThreadPc.seeks, ThreadPc.lift] at member
  | evicted caller => cases caller <;> simp [ThreadPc.seeks, ThreadPc.lift, afterEvict,
      GetPc.seeks] at member
  | get ran =>
      cases ran with
      | find other =>
          left
          generalize (znCachemapFind thread cache.cacheMap other).1 = result at member
          cases result
          · simp [ThreadPc.seeks, ThreadPc.lift, afterFind, GetPc.seeks] at member
          · simp [ThreadPc.seeks, ThreadPc.lift, afterFind, GetPc.seeks] at member
          · exact member
      | acquire other =>
          generalize (zsmGetActiveZone _ cache.zoneState).ret = ret at member
          cases ret <;> simp [ThreadPc.seeks, ThreadPc.lift, afterGetActiveZone,
            GetPc.seeks] at member
      | woken other => exact .inl member
      | read | touch | release | countHit | write | writeFailed => cases member
      | countMiss | giveBack | record | insert | undoZone | undoMap => cases member

theorem GetStep.keys {environment : Environment} {pc : GetPc} {others : Multiset Nat}
    (taken : GetStep code thread cache environment pc after next)
    (small : ∀ id ∈ pc.seeks, id < 2 ^ 32)
    (agrees : CacheMapAgrees cache.cacheMap (pc.writes + others)) {id : Nat}
    (absent : cache.cacheMap.zoneMap id = none) (unsought : id ∉ pc.seeks) :
    after.cacheMap.zoneMap id = none := by
  cases taken with
  | find other =>
      have apart : id ≠ other := fun same => unsought (by simp [same, GetPc.seeks])
      have found := znCachemapFind_spec thread cache.cacheMap
        (small other (by simp [GetPc.seeks]))
      generalize znCachemapFind thread cache.cacheMap other = answer at found
      obtain ⟨result, map⟩ := answer
      cases found with
      | loc => exact absent
      | wait => simpa [apart] using absent
      | claim => simpa [apart] using absent
  | insert other location answer inserted =>
      rw [GetPc.writes, Multiset.singleton_add] at agrees
      cases Option.some.inj (inserted.symm.trans (agrees.insert location))
      obtain ⟨_, _, entry, found, _⟩ := agrees.writer_entry
      have apart : id ≠ other := fun same => by simp [same, found] at absent
      simpa [CacheMap.located, apart] using absent
  | undoMap other answer failed =>
      rw [GetPc.writes, Multiset.singleton_add] at agrees
      obtain ⟨outcome, emptied, ran, _, _, _, state⟩ := agrees.fail
      cases Option.some.inj (failed.symm.trans ran)
      obtain ⟨_, _, entry, found, _⟩ := agrees.writer_entry
      have apart : id ≠ other := fun same => by simp [same, found] at absent
      simpa [state, apart] using absent
  | woken | read | touch | release | countHit | acquire | write => exact absent
  | writeFailed | countMiss | giveBack | record | undoZone => exact absent

theorem ThreadStep.keys (keeps : code.KeepsMapAt thread cache pc) {others : Multiset Nat}
    (taken : ThreadStep code thread cache pc choice after next)
    (small : ∀ id ∈ pc.seeks, id < 2 ^ 32)
    (agrees : CacheMapAgrees cache.cacheMap (pc.writes + others)) {id : Nat}
    (absent : cache.cacheMap.zoneMap id = none) (unsought : id ∉ pc.seeks) :
    after.cacheMap.zoneMap id = none := by
  cases taken with
  | call | callEvict => exact absent
  | wakeUp other =>
      have smallOther := small other (by simp [ThreadPc.seeks, ThreadPc.lift, GetPc.seeks])
      have apart : id ≠ other := fun same =>
        unsought (by simp [same, ThreadPc.seeks, ThreadPc.lift, GetPc.seeks])
      simp only [CacheMap.wakeUp, gintToPointer_of_u32 smallOther]
      split
      · simpa [apart] using absent
      · exact absent
  | get ran => exact ran.keys small agrees absent unsought
  | evict caller next ran => exact keeps.keys rfl ran agrees id absent
  | evicted caller ran => exact keeps.keys rfl ran agrees id absent

end Step

structure MapSound [Fintype Thread] (bound : Nat) (system : System Thread Policy Local) :
    Prop where
  seeks : ∀ thread, ∀ id ∈ (system.threads thread).seeks, id < bound
  keys : ∀ id, bound ≤ id → system.cache.cacheMap.zoneMap id = none
  agrees : CacheMapAgrees system.cache.cacheMap (tally ThreadPc.writes system.threads)

section Run

variable [Fintype Thread] {bound : Nat} {code : EvictionCode Thread Policy Local}

omit [DecidableEq Thread] in
theorem MapSound.init {config : CacheConfig} {policy : Policy}
    {system : System Thread Policy Local} (begins : System.init config policy = some system) :
    MapSound bound system := by
  obtain ⟨_, _, emptyMap, _, idle⟩ := System.init_spec begins
  refine ⟨fun thread id member => ?_, fun _ _ => by rw [emptyMap]; rfl, ?_⟩
  · rw [idle thread] at member
    exact absurd member (Multiset.notMem_zero _)
  · rw [emptyMap, tally_const_zero _ _ fun thread => by rw [idle thread]; rfl]
    exact CacheMapAgrees.init

theorem MapSound.split {system : System Thread Policy Local} (sound : MapSound bound system)
    (thread : Thread) :
    CacheMapAgrees system.cache.cacheMap
      ((system.threads thread).writes + others ThreadPc.writes system.threads thread) := by
  rw [← tally_split]
  exact sound.agrees

theorem MapSound.step {system next : System Thread Policy Local} {action : Thread × Choice}
    (keeps : code.KeepsMapAt action.1 system.cache (system.threads action.1))
    (fits : bound ≤ 2 ^ 32) (sound : MapSound bound system) (below : GetsBelow bound action)
    (taken : system.step code action = some next) : MapSound bound next := by
  obtain ⟨thread, choice⟩ := action
  obtain ⟨cache, pc, rfl, moved⟩ := System.step_spec taken
  have small : ∀ id ∈ (system.threads thread).seeks, id < 2 ^ 32 := fun id member =>
    Nat.lt_of_lt_of_le (sound.seeks thread id member) fits
  constructor
  · intro other id member
    by_cases same : other = thread
    · subst same
      simp only [System.advance, Function.update_self] at member
      rcases moved.seeks member with sought | called
      · exact sound.seeks other id sought
      · exact below id called
    · simp only [System.advance, Function.update_of_ne same] at member
      exact sound.seeks other id member
  · intro id above
    exact moved.keys keeps small (sound.split thread) (sound.keys id above) fun sought =>
      Nat.not_lt.mpr above (sound.seeks thread id sought)
  · simp only [System.advance]
    rw [tally_update]
    exact moved.agrees keeps small (sound.split thread)

theorem MapSound.of_reach (keeps : code.KeepsMap) (fits : bound ≤ 2 ^ 32)
    {config : CacheConfig} {policy : Policy}
    {allowed : System Thread Policy Local → Thread × Choice → Prop}
    (below : ∀ system action, allowed system action → GetsBelow bound action)
    {system : System Thread Policy Local}
    (reached : Reach (System.step code) allowed (System.init config policy = some ·) system) :
    MapSound bound system :=
  reached.invariant (fun _ begins => MapSound.init begins)
    fun system action _ sound permitted taken =>
      sound.step keeps.here fits (below system action permitted) taken

end Run

/-! ## The promotional policy -/

omit [DecidableEq Thread] in
theorem promotionalCode_keepsMap (config : CacheConfig) :
    (promotionalCode config : EvictionCode Thread _ _).KeepsMap := by
  constructor
  · intro thread cache pc environment after next writers ran agrees
    cases fgEvictStep_spec ran with
    | clear i freeZones zone answer cleared => exact agrees.clearZone cleared
    | start | enough | nothing | take | wait | reset => exact agrees
  · intro thread cache pc environment after next writers ran agrees id absent
    cases fgEvictStep_spec ran with
    | clear i freeZones zone answer cleared =>
        simp only [(agrees.smallKeys.clearZone_state cleared).1 id, absent]
        simp
    | start | enough | nothing | take | wait | reset => exact absent

abbrev PromotionalRun (config : CacheConfig)
    (allowed : PromotionalSystem Thread → Thread × Choice → Prop)
    (system : PromotionalSystem Thread) : Prop :=
  Reach (System.step (promotionalCode config)) allowed (promotionalSystem config = some ·)
    system

/-- In every interleaving of calls on identifiers below `2 ^ 31`, an entry is in
`RESULT_COND` exactly while one thread writes it, the reverse table names located
entries only, every sleeper has a writer that will wake it, and the assertions of
the map hold. -/
theorem single_writer [Fintype Thread] {config : CacheConfig}
    {system : PromotionalSystem Thread}
    (reached : PromotionalRun config (fun _ action => GetsBelow (2 ^ 31) action) system) :
    (∀ id, (∃ entry, system.cache.cacheMap.zoneMap id = some entry ∧ entry.type = .cond) ↔
      ∃! thread, id ∈ (system.threads thread).writes) ∧
    (∀ id first second, id ∈ (system.threads first).writes →
      id ∈ (system.threads second).writes → first = second) ∧
    (∀ zone chunk id, (system.cache.cacheMap.dataMap zone).lookup chunk = some id →
      ∃ entry, system.cache.cacheMap.zoneMap id = some entry ∧ entry.type = .loc ∧
        entry.location.zone = zone ∧ entry.location.chunkOffset = chunk) ∧
    (∀ thread id, system.threads thread = .get (.asleep id) →
      system.cache.cacheMap.sleeping thread id = true →
      (∃ entry, system.cache.cacheMap.zoneMap id = some entry ∧ entry.type = .cond) ∧
        ∃ writer, id ∈ (system.threads writer).writes) ∧
    (∀ thread id location, system.threads thread = .get (.insert id location) →
      ∃ answer, znCachemapInsert system.cache.cacheMap id location = some answer ∧
        answer.asserts = true ∧ ∀ waiter, answer.state.sleeping waiter id = false) ∧
    (∀ thread id, system.threads thread = .get (.undoMap id) →
      ∃ answer, znCachemapFail system.cache.cacheMap id = some answer ∧
        answer.asserts = true ∧ ∀ waiter, answer.state.sleeping waiter id = false) ∧
    ∀ thread caller i freeZones zone,
      system.threads thread = .evict caller (.clear i freeZones zone) →
      ∃ answer, znCachemapClearZone system.cache.cacheMap zone = some answer ∧
        answer.asserts = true := by
  have sound : MapSound (2 ^ 31) system :=
    MapSound.of_reach (promotionalCode_keepsMap config) (by decide) (fun _ _ => id) reached
  have writer_iff : ∀ id, id ∈ tally ThreadPc.writes system.threads ↔
      ∃ thread, id ∈ (system.threads thread).writes := fun id => mem_tally
  have unique : ∀ id first second, id ∈ (system.threads first).writes →
      id ∈ (system.threads second).writes → first = second :=
    fun id _ _ mine yours => tally_unique sound.agrees.writersNodup mine yours
  have low : ∀ id entry, system.cache.cacheMap.zoneMap id = some entry → id < 2 ^ 31 := by
    intro id entry found
    by_contra above
    simp [sound.keys id (Nat.le_of_not_lt above)] at found
  refine ⟨?_, unique, sound.agrees.listed, ?_, ?_, ?_, ?_⟩
  · intro id
    rw [← sound.agrees.claimed id, writer_iff id]
    constructor
    · intro given
      obtain ⟨thread, writing⟩ := given
      exact ⟨thread, writing, fun other writingToo => unique id _ _ writingToo writing⟩
    · intro given
      obtain ⟨thread, writing, _⟩ := given
      exact ⟨thread, writing⟩
  · intro thread id here asleep
    have small : id < 2 ^ 32 := Nat.lt_trans (sound.seeks thread id (by
      rw [here]
      simp [ThreadPc.seeks, ThreadPc.lift, GetPc.seeks])) (by decide)
    simp only [CacheMap.sleeping, gintToPointer_of_u32 small] at asleep
    cases found : system.cache.cacheMap.zoneMap id with
    | none => simp [found] at asleep
    | some entry =>
        simp only [found, decide_eq_true_eq] at asleep
        have busy := sound.agrees.asleep id entry found (List.ne_nil_of_mem asleep)
        have claimed := (sound.agrees.claimed id).mpr ⟨entry, found, busy⟩
        exact ⟨⟨entry, rfl, busy⟩, (writer_iff id).mp claimed⟩
  · intro thread id location here
    have agrees := sound.split thread
    rw [here, ThreadPc.writes, GetPc.writes, Multiset.singleton_add] at agrees
    refine ⟨_, agrees.insert location, rfl, fun waiter => ?_⟩
    simp [CacheMap.sleeping, CacheMap.located, gintToPointer_of_u32 agrees.writer_entry.1]
  · intro thread id here
    have agrees := sound.split thread
    rw [here, ThreadPc.writes, GetPc.writes, Multiset.singleton_add] at agrees
    obtain ⟨answer, entry, failed, asserts, after, emptied, state⟩ := agrees.fail
    refine ⟨answer, failed, asserts, fun waiter => ?_⟩
    have nobody : entry.writeFinished = [] := by
      by_contra someone
      have busy := after.asleep id entry (by simp [state]) someone
      simp [emptied] at busy
    simp [CacheMap.sleeping, state, gintToPointer_of_u32 agrees.writer_entry.1, nobody]
  · intro thread caller i freeZones zone _
    exact sound.agrees.clearZone_asserts low

/-- One of two threads looks up identifier 7 and is its only writer. -/
theorem single_writer_claimed :
    ∃ system : PromotionalSystem (Fin 2),
      System.execute (promotionalCode oneChunkConfig) oneChunkConfig (promotionalInit 1)
        [(0, .get 7), (0, .run .smooth)] = some system ∧
      ∃! thread, 7 ∈ (system.threads thread).writes := by
  cases executed : System.execute (promotionalCode oneChunkConfig) oneChunkConfig
      (promotionalInit 1) [((0 : Fin 2), .get 7), (0, .run .smooth)] with
  | none => cases executed
  | some system =>
      have claims := (@single_writer _ _ _ oneChunkConfig system
        (System.reach_of_execute executed fun start _ =>
          AllowedAlong.of_forall _ start (by simp [GetsBelow]))).1 7
      refine ⟨system, rfl, claims.mp ?_⟩
      cases Option.some.inj executed
      exact ⟨⟨⟨0, 0, 0, false⟩, [], .cond⟩, rfl, rfl⟩

end ZNCache
