import ZNCache.HitData
import ZNCache.SingleWriter

/-!
# Nothing is left behind

The claim on an identifier, the zone that is written and the reader count of a chunk are
taken and given back on different exits of `zn_cache_get`.  They balance whatever the
transfers and the opening of zones do.
-/

set_option autoImplicit false

namespace ZNCache

open Tally Transition ZoneStateManager

variable {Thread : Type}

/-! ## Reader counts -/

def ReadersBalanced (cache : PromotionalCache Thread) (reads : Multiset (Nat × ZnPair)) : Prop :=
  ∀ zone, cache.cacheMap.activeReaders zone = readersOf zone reads

section Readers

variable {config : CacheConfig} {cache after : PromotionalCache Thread}
  {reads : Multiset (Nat × ZnPair)}

theorem ReadersBalanced.same (counted : ReadersBalanced cache reads)
    (readers : after.cacheMap.activeReaders = cache.cacheMap.activeReaders) :
    ReadersBalanced after reads :=
  fun zone => (congrFun readers zone).trans (counted zone)

theorem ReadersBalanced.addReader (counted : ReadersBalanced cache reads) (id : Nat)
    (location : ZnPair) :
    ReadersBalanced { cache with
      cacheMap := { cache.cacheMap with
        activeReaders := Function.update cache.cacheMap.activeReaders location.zone
          (cache.cacheMap.activeReaders location.zone + 1) } }
      ((id, location) ::ₘ reads) := by
  intro zone
  have before := counted zone
  rw [readersOf_cons]
  by_cases same : zone = location.zone
  · subst same
    simp [before]
  · simp [same, Ne.symm same, before]

theorem ReadersBalanced.dropReader {id : Nat} {location : ZnPair}
    (counted : ReadersBalanced cache ((id, location) ::ₘ reads)) :
    ReadersBalanced { cache with cacheMap := cache.cacheMap.releaseReader location.zone }
      reads := by
  intro zone
  have before := counted zone
  rw [readersOf_cons] at before
  by_cases same : zone = location.zone
  · subst same
    simp only [CacheMap.releaseReader, Function.update_self]
    simp only [if_true] at before
    omega
  · simp only [CacheMap.releaseReader, Function.update_of_ne same]
    simpa [Ne.symm same] using before

theorem ThreadPc.reads_afterGetActiveZone (id : Nat) (code : EvictPc) (ret : GetActiveZone) :
    (afterGetActiveZone id code ret).reads = 0 := by
  cases ret <;> rfl

theorem ThreadPc.reads_afterEvict (caller : Option Nat) :
    (afterEvict caller : ThreadPc EvictPc).reads = 0 := by
  cases caller <;> rfl

variable [DecidableEq Thread]

theorem GetStep.readers {thread : Thread} {environment : Environment} {pc : GetPc}
    {next : ThreadPc EvictPc}
    (taken : GetStep (promotionalCode config) thread cache environment pc after next)
    (small : ∀ id ∈ pc.seeks, id < 2 ^ 32)
    (counted : ReadersBalanced cache (pc.reads + reads)) :
    ReadersBalanced after (next.reads + reads) := by
  cases taken with
  | find id =>
      have found := znCachemapFind_spec thread cache.cacheMap (small id (by simp [GetPc.seeks]))
      generalize znCachemapFind thread cache.cacheMap id = answer at found
      obtain ⟨result, map⟩ := answer
      cases found with
      | loc entry found located =>
          rw [GetPc.reads, zero_add] at counted
          exact (counted.addReader id entry.location)
      | wait | claim => exact counted.same rfl
  | release id location data =>
      rw [GetPc.reads, Multiset.singleton_add] at counted
      rw [ThreadPc.reads, ThreadPc.lift, GetPc.reads, zero_add]
      exact counted.dropReader
  | acquire id =>
      rw [ThreadPc.reads_afterGetActiveZone]
      exact counted.same rfl
  | insert id location answer inserted =>
      exact counted.same (znCachemapInsert_readers inserted)
  | undoMap id answer failed => exact counted.same (znCachemapFail_readers failed)
  | woken | read | touch | countHit | write => exact counted.same rfl
  | writeFailed | countMiss | giveBack | record | undoZone => exact counted.same rfl

omit [DecidableEq Thread] in
theorem FgEvictStep.readers {environment : Environment} {pc : EvictPc} {next : Option EvictPc}
    (taken : FgEvictStep cache environment pc after next)
    (counted : ReadersBalanced cache reads) : ReadersBalanced after reads := by
  cases taken with
  | clear i freeZones zone answer cleared =>
      exact counted.same (znCachemapClearZone_state cleared).2.2.2
  | start | enough | nothing | take | wait | reset => exact counted.same rfl

theorem ThreadStep.readers {thread : Thread} {choice : Choice} {pc next : ThreadPc EvictPc}
    (taken : ThreadStep (promotionalCode config) thread cache pc choice after next)
    (small : ∀ id ∈ pc.seeks, id < 2 ^ 32)
    (counted : ReadersBalanced cache (pc.reads + reads)) :
    ReadersBalanced after (next.reads + reads) := by
  cases taken with
  | call | callEvict => exact counted
  | wakeUp id => exact counted.same (CacheMap.wakeUp_readers _ _ _)
  | get ran => exact ran.readers small counted
  | evict caller next ran => exact (fgEvictStep_spec ran).readers counted
  | evicted caller ran =>
      rw [ThreadPc.reads_afterEvict]
      exact (fgEvictStep_spec ran).readers counted

end Readers

/-! ## Writers -/

structure Balanced (manager : ZoneStateManager) (pairs : Multiset ZnPair) : Prop where
  zoneIds : ∀ zone, (manager.state zone).zoneId = zone
  writing : ∀ zone, (manager.state zone).state = .writeOccuring →
    zone ∈ pairs.map ZnPair.zone
  writes : manager.writesOccurring = pairs.card

section Balance

variable {manager after : ZoneStateManager} {pairs others : Multiset ZnPair}

theorem Balanced.setEntry (balanced : Balanced manager pairs) (zone : Nat)
    (elsewhere : ∀ other, other ≠ zone → after.state other = manager.state other)
    (ownId : (after.state zone).zoneId = (manager.state zone).zoneId)
    (settled : (after.state zone).state = .writeOccuring → zone ∈ others.map ZnPair.zone)
    (kept : ∀ pair ∈ pairs, pair.zone ≠ zone → pair ∈ others)
    (writes : after.writesOccurring = others.card) : Balanced after others := by
  refine ⟨fun other => ?_, fun other busy => ?_, writes⟩
  · by_cases same : other = zone
    · subst same
      exact ownId.trans (balanced.zoneIds other)
    · rw [elsewhere other same]
      exact balanced.zoneIds other
  · by_cases same : other = zone
    · subst same
      exact settled busy
    · rw [elsewhere other same] at busy
      obtain ⟨pair, inPairs, rfl⟩ := Multiset.mem_map.mp (balanced.writing other busy)
      exact Multiset.mem_map_of_mem _ (kept pair inPairs same)

theorem Balanced.getActiveZone (balanced : Balanced manager pairs) {ret : GetActiveZone}
    (answer : GetActiveZoneAnswer manager ret after) : Balanced after (ret.hands + pairs) := by
  have handed : ∀ zone offset active free,
      Balanced (handedOut manager zone offset active free)
        (⟨(manager.state zone).zoneId, offset, 0, false⟩ ::ₘ pairs) := by
    intro zone offset active free
    rw [balanced.zoneIds zone]
    apply balanced.setEntry zone
    · exact fun other apart => Function.update_of_ne apart _ _
    · simp [handedOut]
    · simp
    · exact fun pair member _ => Multiset.mem_cons_of_mem member
    · simp [handedOut, balanced.writes]
  cases answer with
  | refused ret nothing =>
      rw [nothing, zero_add]
      exact balanced
  | dropped ret nothing zone rest head =>
      rw [nothing, zero_add]
      exact ⟨balanced.zoneIds, balanced.writing, balanced.writes⟩
  | resumed zone active head => exact handed zone _ active _
  | opened zone rest noActive head => exact handed zone 0 [] rest

theorem other_pairs {pair : ZnPair} : ∀ other ∈ pair ::ₘ pairs, other.zone ≠ pair.zone →
    other ∈ pairs := by
  intro other member apart
  refine (Multiset.mem_cons.mp member).resolve_left ?_
  intro same
  subst same
  exact apart rfl

theorem Balanced.returnActiveZone {finishRet ret : Int} {pair : ZnPair}
    (balanced : Balanced manager (pair ::ₘ pairs)) (success : backendRet manager finishRet = 0)
    (returned : ReturnSpec finishRet manager pair.zone ret after) : Balanced after pairs := by
  have writes := balanced.writes
  rw [Multiset.card_cons] at writes
  cases returned with
  | failed _ _ failure => exact absurd success failure
  | reopened | alreadyFull | finished =>
      apply balanced.setEntry pair.zone _ _ _ other_pairs
      · change manager.writesOccurring - 1 = pairs.card
        omega
      · exact fun other apart => Function.update_of_ne apart _ _
      · simp [returnedZone]
      · simp [returnedZone]

theorem Balanced.failedToWrite {pair : ZnPair} (balanced : Balanced manager (pair ::ₘ pairs)) :
    Balanced (zsmFailedToWrite manager pair).state pairs := by
  have writes := balanced.writes
  rw [Multiset.card_cons] at writes
  apply balanced.setEntry pair.zone _ _ _ other_pairs
  · simp only [zsmFailedToWrite]
    omega
  · exact fun other apart => Function.update_of_ne apart _ _
  · simp [zsmFailedToWrite]
  · simp [zsmFailedToWrite]

theorem Balanced.evict (balanced : Balanced manager pairs) {resetRet : Int} {zone : Nat}
    (success : backendRet manager resetRet = 0) (evicted : EvictSpec resetRet manager zone after) :
    Balanced after pairs := by
  cases evicted with
  | alreadyFree => exact balanced
  | failed _ failure => exact absurd success failure
  | reset =>
      apply balanced.setEntry zone
      · exact fun other apart => Function.update_of_ne apart _ _
      · simp [freed, returnedZone]
      · simp [freed, returnedZone]
      · exact fun pair member _ => member
      · exact balanced.writes

variable [DecidableEq Thread] {config : CacheConfig} {cache next : PromotionalCache Thread}

theorem GetStep.balanced {thread : Thread} {environment : Environment} {pc : GetPc}
    {later : ThreadPc EvictPc}
    (taken : GetStep (promotionalCode config) thread cache environment pc next later)
    (success : environment.commandRet = 0 ∨ ∃ id, pc = .acquire id)
    (balanced : Balanced cache.zoneState (pc.holds + pairs)) :
    Balanced next.zoneState (later.holds + pairs) := by
  cases taken with
  | find id =>
      generalize (znCachemapFind thread cache.cacheMap id).1 = result
      cases result <;> exact balanced
  | acquire id =>
      rw [GetPc.holds, zero_add] at balanced
      rw [ThreadPc.holds_afterGetActiveZone]
      exact balanced.getActiveZone (zsmGetActiveZone_answer _ _)
  | giveBack id location =>
      have done := success.resolve_right (by simp)
      rw [GetPc.holds, Multiset.singleton_add] at balanced
      rw [ThreadPc.holds, ThreadPc.lift, GetPc.holds, zero_add]
      apply balanced.returnActiveZone _ (zsmReturnActiveZone_spec _ _ _)
      rw [done]
      exact backendRet_zero _
  | undoZone id location =>
      rw [GetPc.holds, Multiset.singleton_add] at balanced
      rw [ThreadPc.holds, ThreadPc.lift, GetPc.holds, zero_add]
      exact balanced.failedToWrite
  | woken | read | touch | release | countHit | write | writeFailed => exact balanced
  | countMiss | record | insert | undoMap => exact balanced

omit [DecidableEq Thread] in
theorem FgEvictStep.balanced {environment : Environment} {pc : EvictPc} {later : Option EvictPc}
    (taken : FgEvictStep cache environment pc next later)
    (success : environment.commandRet = 0) (balanced : Balanced cache.zoneState pairs) :
    Balanced next.zoneState pairs := by
  cases taken with
  | reset i freeZones zone =>
      apply balanced.evict _ (zsmEvict_spec environment.commandRet _ zone)
      rw [success]
      exact backendRet_zero _
  | start | enough | nothing | take | clear | wait => exact balanced

theorem ThreadStep.balanced {thread : Thread} {choice : Choice} {pc later : ThreadPc EvictPc}
    (taken : ThreadStep (promotionalCode config) thread cache pc choice next later)
    (success : ∀ environment, choice = .run environment →
      environment.commandRet = 0 ∨ ∃ id, pc = .get (.acquire id))
    (balanced : Balanced cache.zoneState (pc.holds + pairs)) :
    Balanced next.zoneState (later.holds + pairs) := by
  cases taken with
  | call | callEvict | wakeUp => exact balanced
  | get ran =>
      apply ran.balanced _ balanced
      refine (success _ rfl).imp id ?_
      intro given
      obtain ⟨id, same⟩ := given
      exact ⟨id, ThreadPc.get.inj same⟩
  | evict caller evictPc ran =>
      exact (fgEvictStep_spec ran).balanced ((success _ rfl).resolve_right (by simp)) balanced
  | evicted caller ran =>
      have none : (afterEvict caller : ThreadPc EvictPc).holds = 0 := by cases caller <;> rfl
      rw [none]
      exact (fgEvictStep_spec ran).balanced ((success _ rfl).resolve_right (by simp)) balanced

end Balance

/-! ## Runs -/

section Run

variable [DecidableEq Thread] [Fintype Thread] {config : CacheConfig}
  {system next : PromotionalSystem Thread}

def OnlyOpensFail (system : PromotionalSystem Thread) (action : Thread × Choice) : Prop :=
  ∀ environment, action.2 = .run environment →
    environment.commandRet = 0 ∨ ∃ id, system.threads action.1 = .get (.acquire id)

structure CountsSound (system : PromotionalSystem Thread) : Prop where
  map : MapSound (2 ^ 31) system
  readers : ReadersBalanced system.cache (tally ThreadPc.reads system.threads)

omit [DecidableEq Thread] in
theorem CountsSound.init (begins : promotionalSystem config = some system) :
    CountsSound system := by
  refine ⟨MapSound.init begins, ?_⟩
  obtain ⟨_, _, emptyMap, _, idle⟩ := System.init_spec begins
  rw [tally_const_zero ThreadPc.reads _ fun thread => by rw [idle thread]; rfl]
  intro zone
  simp [emptyMap, znCachemapInit, readersOf]

theorem CountsSound.step (sound : CountsSound system) {action : Thread × Choice}
    (below : GetsBelow (2 ^ 31) action)
    (taken : system.step (promotionalCode config) action = some next) : CountsSound next := by
  refine ⟨sound.map.step (promotionalCode_keepsMap config).here (by decide) below taken, ?_⟩
  have counted := sound.readers
  obtain ⟨thread, choice⟩ := action
  obtain ⟨cache, pc, rfl, moved⟩ := System.step_spec taken
  rw [tally_split _ _ thread] at counted
  simp only [System.advance]
  rw [tally_update]
  apply moved.readers _ counted
  exact fun id member => Nat.lt_trans (sound.map.seeks thread id member) (by decide)

theorem CountsSound.of_reach {allowed : PromotionalSystem Thread → Thread × Choice → Prop}
    (below : ∀ system action, allowed system action → GetsBelow (2 ^ 31) action)
    (reached : PromotionalRun config allowed system) : CountsSound system :=
  reached.invariant (fun _ begins => CountsSound.init begins)
    fun system action _ sound permitted taken => sound.step (below system action permitted) taken

/-- Identifiers are below `2 ^ 31`, and reset and finish commands succeed. -/
def QuietDevice (system : PromotionalSystem Thread) (action : Thread × Choice) : Prop :=
  GetsBelow (2 ^ 31) action ∧ OnlyOpensFail system action

theorem balanced_of_reach (reached : PromotionalRun config QuietDevice system) :
    Balanced system.cache.zoneState (tally ThreadPc.holds system.threads) := by
  apply reached.invariant
  · intro start begins
    obtain ⟨_, zoneState, _, _, idle⟩ := System.init_spec begins
    rw [tally_const_zero ThreadPc.holds _ fun thread => by rw [idle thread]; rfl, zoneState]
    constructor <;> simp [zsmInit]
  · intro before given _ balanced also taken
    obtain ⟨thread, choice⟩ := given
    obtain ⟨_, success⟩ := also
    obtain ⟨cache, pc, rfl, moved⟩ := System.step_spec taken
    rw [tally_split _ _ thread] at balanced
    simp only [System.advance]
    rw [tally_update]
    exact moved.balanced success balanced

/-- Reader counts are never negative, and once no call is in progress nothing is claimed,
written or read. -/
theorem quiescence (reached : PromotionalRun config QuietDevice system) :
    (∀ zone, 0 ≤ system.cache.cacheMap.activeReaders zone) ∧
      ((∀ thread, system.threads thread = .idle) →
        (∀ id entry, system.cache.cacheMap.zoneMap id = some entry → entry.type ≠ .cond) ∧
        system.cache.zoneState.writesOccurring = 0 ∧
        (∀ zone, (system.cache.zoneState.state zone).state ≠ .writeOccuring) ∧
        ∀ zone, system.cache.cacheMap.activeReaders zone = 0) := by
  obtain ⟨sound, counted⟩ := CountsSound.of_reach (fun _ _ quiet => quiet.1) reached
  have balanced := balanced_of_reach reached
  refine ⟨fun zone => ?_, fun idle => ?_⟩
  · rw [counted]
    exact Int.natCast_nonneg _
  · have noPairs : tally ThreadPc.holds system.threads = 0 :=
      tally_const_zero _ _ fun thread => by rw [idle thread]; rfl
    have noReads : tally ThreadPc.reads system.threads = 0 :=
      tally_const_zero _ _ fun thread => by rw [idle thread]; rfl
    have noWrites : tally ThreadPc.writes system.threads = 0 :=
      tally_const_zero _ _ fun thread => by rw [idle thread]; rfl
    refine ⟨fun id entry found busy => ?_, ?_, fun zone busy => ?_, fun zone => ?_⟩
    · have claimed := (sound.agrees.claimed id).mpr ⟨entry, found, busy⟩
      rw [noWrites] at claimed
      exact Multiset.notMem_zero _ claimed
    · rw [balanced.writes, noPairs]
      rfl
    · have written := balanced.writing zone busy
      rw [noPairs] at written
      exact Multiset.notMem_zero _ written
    · rw [counted, noReads]
      rfl

end Run

def failedMiss (worker : Thread) : List (Thread × Choice) :=
  [(worker, .get 7), (worker, .run .smooth), (worker, .run .smooth),
    (worker, .run ⟨false, 0, true⟩), (worker, .run .smooth), (worker, .run .smooth)]

theorem quiescence_failedMiss :
    ∃ system : PromotionalSystem (Fin 2),
      System.execute (promotionalCode oneChunkConfig) oneChunkConfig (promotionalInit 1)
        (failedMiss 0) = some system ∧
      (∀ thread, system.threads thread = .idle) ∧
      system.cache.zoneState.writesOccurring = 0 := by
  obtain ⟨system, executed, idle⟩ : ∃ system : PromotionalSystem (Fin 2),
      System.execute (promotionalCode oneChunkConfig) oneChunkConfig (promotionalInit 1)
        (failedMiss 0) = some system ∧ ∀ thread, system.threads thread = .idle :=
    ⟨_, rfl, by decide⟩
  refine ⟨system, executed, idle, ?_⟩
  exact ((@quiescence _ _ _ oneChunkConfig system (System.reach_of_execute executed
    fun start _ => AllowedAlong.of_forall _ start (by
      simp [failedMiss, QuietDevice, GetsBelow, OnlyOpensFail, Environment.smooth]))).2 idle).2.1

end ZNCache
