import ZNCache.ChunkPlacement
import ZNCache.ChunkQuota
import ZNCache.InvalidChunks
import ZNCache.ZoneAnswers
import ZNCache.ZoneCounts
import ZNCache.ZoneWear

/-!
# What became of every chunk

Under the chunk policy a chunk that was written is in the policy's queue until it is
evicted, and is then an entry of its zone's queue of invalid chunks.  A reset takes none of
these entries away, though the chunks are gone.  So the misses and the moves of the GC are
counted by the two kinds of queues together, and the misses by the zones and their resets.
-/

set_option autoImplicit false

namespace ZNCache

open Tally Transition ZnPolicyChunk ZoneStateManager

variable {Thread : Type}

def ThreadPc.unreturned : ThreadPc ChunkEvictPc → Nat
  | get (.giveBack _ _) => 1
  | _ => 0

/-- The thread has a chunk that is in neither queue: it has counted the chunk's miss and not
yet queued it, or has taken it from the queue and not yet marked it. -/
def ThreadPc.between : ThreadPc ChunkEvictPc → Nat
  | get (.giveBack _ _) | get (.record _ _) => 1
  | evict _ (.mark _ _ _) => 1
  | _ => 0

/-! ## The policy's queue -/

section Queue

variable {policy after : ZnPolicyChunk Thread} {location : ZnPair}

theorem znPolicyChunkUpdate_readLength
    (updated : znPolicyChunkUpdate policy location .read = some after) :
    after.lruQueue.length = policy.lruQueue.length := by
  unfold znPolicyChunkUpdate at updated
  dsimp only at updated
  split at updated
  next => cases updated
  next =>
      split at updated
      next =>
          cases Option.some.inj updated
          rfl
      next node mapped =>
          split at updated
          next => cases updated
          next data found =>
              cases Option.some.inj updated
              exact LinkedQueue.length_touch found

theorem znPolicyChunkUpdate_writeLength
    (updated : znPolicyChunkUpdate policy location .write = some after) :
    after.lruQueue.length = policy.lruQueue.length + 1 := by
  have recorded : (recordChunk policy location).lruQueue.length =
      policy.lruQueue.length + 1 := by
    simp [recordChunk, LinkedQueue.length, LinkedQueue.pushTail]
  rw [znPolicyChunkUpdate_write updated]
  split <;> exact recorded

theorem moveSlot_length (policy : ZnPolicyChunk Thread) (source : Slot) (location : ZnPair) :
    (moveSlot policy source location).lruQueue.length = policy.lruQueue.length + 1 := by
  change (policy.lruQueue.pushTail (location.zone, location.chunkOffset)).length = _
  simp [LinkedQueue.length, LinkedQueue.pushTail]

end Queue

/-! ## The zones' queues -/

def ZsmCall.marks : ZsmCall → Nat
  | markChunkInvalid _ => 1
  | getActiveZone _ | returnActiveZone _ _ | failedToWrite _ | evict _ _ => 0

def invalidChunks (manager : ZoneStateManager) : Nat :=
  ∑ zone ∈ Finset.range manager.numZones, zsmGetNumInvalidChunks manager zone

theorem invalidChunks_step (handout : Handout) {after : Handout} {call : ZsmCall}
    (success : call.commandRet = 0) (taken : handout.step call = some after) :
    invalidChunks after.manager = invalidChunks handout.manager + call.marks := by
  have entries := @MarkLog.step_invalid ⟨handout, fun _ => []⟩ _ _ taken
  have shape := Handout.step_shape taken
  rw [invalidChunks, invalidChunks, shape.numZones]
  cases call with
  | markChunkInvalid location =>
      have inDevice : location.zone < handout.manager.numZones := by
        cases Handout.step_spec taken with
        | marked _ below => exact below
      have each : ∀ zone, zsmGetNumInvalidChunks after.manager zone =
          zsmGetNumInvalidChunks handout.manager zone +
            if zone = location.zone then 1 else 0 := by
        intro zone
        rw [zsmGetNumInvalidChunks, entries zone]
        by_cases same : zone = location.zone
        · simp [same, zsmGetNumInvalidChunks]
        · simp [same, zsmGetNumInvalidChunks]
      simp only [each, Finset.sum_add_distrib]
      simp [ZsmCall.marks, inDevice]
  | evict resetRet zone =>
      cases success
      refine Finset.sum_congr rfl fun other _ => ?_
      simp [zsmGetNumInvalidChunks, entries other, backendRet_zero]
  | getActiveZone | returnActiveZone | failedToWrite =>
      refine Finset.sum_congr rfl fun other _ => ?_
      rw [zsmGetNumInvalidChunks, entries other, zsmGetNumInvalidChunks]

/-! ## Steps -/

section Step

variable [DecidableEq Thread] {config : CacheConfig} {thread : Thread} {choice : Choice}
  {cache after : ChunkCache Thread} {pc next : ThreadPc ChunkEvictPc}

def callMarks (call : Option ZsmCall) : Nat := call.elim 0 ZsmCall.marks

theorem afterFind_unqueued (id : Nat) (result : FindResult) :
    (afterFind id result : ThreadPc ChunkEvictPc).between = 0 ∧
      (afterFind id result : ThreadPc ChunkEvictPc).unreturned = 0 := by
  cases result <;> exact ⟨rfl, rfl⟩

theorem afterGetActiveZone_unqueued (id : Nat) (ret : GetActiveZone) :
    (afterGetActiveZone id ChunkEvictPc.start ret).between = 0 ∧
      (afterGetActiveZone id ChunkEvictPc.start ret).unreturned = 0 := by
  cases ret <;> exact ⟨rfl, rfl⟩

theorem afterEvict_unqueued (caller : Option Nat) :
    (afterEvict caller : ThreadPc ChunkEvictPc).between = 0 ∧
      (afterEvict caller : ThreadPc ChunkEvictPc).unreturned = 0 := by
  cases caller <;> exact ⟨rfl, rfl⟩

theorem GetStep.entered {environment : Environment} {pc : GetPc}
    (taken : GetStep (chunkCode config) thread cache environment pc after next) :
    (after.misses + (cache.evictionPolicy.lruQueue.length + (ThreadPc.get pc).between) =
      cache.misses + (after.evictionPolicy.lruQueue.length + next.between)) ∧
    after.misses + (ThreadPc.get pc).unreturned =
      cache.misses + next.unreturned +
        callChunks (pc.zsmCall environment.commandRet) ∧
    callMarks (pc.zsmCall environment.commandRet) = 0 := by
  cases taken with
  | find id =>
      obtain ⟨unqueued, unreturned⟩ :=
        afterFind_unqueued id (znCachemapFind thread cache.cacheMap id).1
      rw [unqueued, unreturned]
      exact ⟨rfl, rfl, rfl⟩
  | acquire id =>
      obtain ⟨unqueued, unreturned⟩ := afterGetActiveZone_unqueued id
        (zsmGetActiveZone environment.commandRet cache.zoneState).ret
      change _ = _ + (_ + (afterGetActiveZone id ChunkEvictPc.start _).between) ∧
        _ = _ + (afterGetActiveZone id ChunkEvictPc.start _).unreturned + _ ∧ _
      rw [unqueued, unreturned]
      exact ⟨rfl, rfl, rfl⟩
  | touch id location data policy updated =>
      refine ⟨?_, rfl, rfl⟩
      change _ = _ + (policy.lruQueue.length + _)
      rw [znPolicyChunkUpdate_readLength updated]
      rfl
  | record id location policy updated =>
      refine ⟨?_, rfl, rfl⟩
      change _ = _ + (policy.lruQueue.length + _)
      rw [znPolicyChunkUpdate_writeLength updated]
      rfl
  | countMiss id location =>
      refine ⟨?_, rfl, rfl⟩
      change cache.misses + 1 + (cache.evictionPolicy.lruQueue.length + 0) =
        cache.misses + (cache.evictionPolicy.lruQueue.length + 1)
      omega
  | woken | read | release | countHit | write | writeFailed => exact ⟨rfl, rfl, rfl⟩
  | giveBack | insert | undoZone | undoMap => exact ⟨rfl, rfl, rfl⟩

omit [DecidableEq Thread] in
theorem ChunkEvictStep.entered {environment : Environment} (caller : Option Nat)
    {code : ChunkEvictPc} {later : Option ChunkEvictPc}
    (taken : ChunkEvictStep config thread cache environment code after later) :
    (code.moves.length + (cache.evictionPolicy.lruQueue.length +
        (ThreadPc.evict caller code).between) =
      after.evictionPolicy.lruQueue.length +
        later.elim 0 (fun code => (ThreadPc.evict caller code).between) +
        callMarks (cache.evictCall environment.commandRet code)) ∧
    callChunks (cache.evictCall environment.commandRet code) = 0 ∧
    after.misses = cache.misses := by
  cases taken with
  | pop i nr pair policy evicted =>
      refine ⟨?_, rfl, rfl⟩
      have shorter := evictChunk_length evicted
      change 0 + (_ + 0) = policy.lruQueue.length + 1 + 0
      omega
  | mark i nr pair =>
      refine ⟨?_, rfl, rfl⟩
      change 0 + (_ + 1) = cache.evictionPolicy.lruQueue.length + 0 + 1
      omega
  | gcAcquire zone chunk location inZone used handed =>
      simp [ChunkCache.evictCall, inZone, used, callMarks, callChunks, ZsmCall.marks,
        ZsmCall.chunks, ChunkEvictPc.moves, ThreadPc.between]
  | gcSkip zone chunk inZone unused =>
      simp [ChunkCache.evictCall, unused, callMarks, callChunks, ChunkEvictPc.moves,
        ThreadPc.between]
  | gcScanned zone chunk atEnd =>
      simp [ChunkCache.evictCall, Nat.not_lt.mpr atEnd, callMarks, callChunks,
        ChunkEvictPc.moves, ThreadPc.between]
  | gcInsert zone chunk location answer inserted =>
      refine ⟨?_, rfl, rfl⟩
      have longer := moveSlot_length cache.evictionPolicy (zone, chunk) location
      change 1 + (_ + 0) = (moveSlot cache.evictionPolicy (zone, chunk) location).lruQueue.length
        + 0 + 0
      omega
  | turnedAway | lock | popped | clear | gcEnough | gcShort | gcDone | gcTake =>
      exact ⟨Nat.zero_add _, rfl, rfl⟩
  | gcRead | gcWrite | gcClear | gcReset | gcCount | leave => exact ⟨Nat.zero_add _, rfl, rfl⟩

/-- What a step counts, and where the chunks go that it moves on. -/
theorem ThreadStep.entered
    (moved : ThreadStep (chunkCode config) thread cache pc choice after next) :
    (after.misses + (pc.moves choice).length +
        (cache.evictionPolicy.lruQueue.length + pc.between) =
      cache.misses + (after.evictionPolicy.lruQueue.length + next.between) +
        callMarks (cache.zsmCall pc choice)) ∧
    after.misses + pc.unreturned =
      cache.misses + next.unreturned + callChunks (cache.zsmCall pc choice) := by
  cases moved with
  | call | callEvict | wakeUp => exact ⟨rfl, rfl⟩
  | get ran =>
      obtain ⟨queued, returned, unmarked⟩ := ran.entered
      simp only [ThreadPc.moves, ChunkCache.zsmCall, List.length_nil, unmarked]
      exact ⟨queued, returned⟩
  | evict caller later ran =>
      obtain ⟨queued, unreturned, misses⟩ := (chunkEvictStep_spec ran).entered caller
      simp only [ThreadPc.moves, ChunkCache.zsmCall, ThreadPc.unreturned, misses, unreturned]
      refine ⟨?_, trivial⟩
      simp only [Option.elim_some] at queued
      omega
  | evicted caller ran =>
      obtain ⟨queued, unreturned, misses⟩ := (chunkEvictStep_spec ran).entered caller
      obtain ⟨unqueued, nothing⟩ := afterEvict_unqueued caller
      simp only [ThreadPc.moves, ChunkCache.zsmCall, ThreadPc.unreturned, misses, unreturned]
      rw [unqueued]
      refine ⟨?_, ?_⟩
      · simp only [Option.elim_none] at queued
        omega
      · exact (congrArg (cache.misses + ·) nothing).symm

end Step

/-! ## Runs -/

structure ChunkLedger (Thread : Type) where
  log : MigrationLog Thread
  erases : Nat → Nat

namespace ChunkLedger

variable [DecidableEq Thread]

def step (config : CacheConfig) (ledger : ChunkLedger Thread) (action : Thread × Choice) :
    Option (ChunkLedger Thread) :=
  (ledger.log.step config action).map fun next =>
    ⟨next, match ChunkCache.zsmCall ledger.log.system.cache
        (ledger.log.system.threads action.1) action.2 with
      | some call => call.erases ledger.erases
      | none => ledger.erases⟩

abbrev Run (config : CacheConfig) (ledger : ChunkLedger Thread) : Prop :=
  Reach (step config) (fun _ action => CommandsSucceed action)
    (fun ledger => chunkSystem config = some ledger.log.system ∧ ledger.log.moved = [] ∧
      ledger.erases = fun _ => 0) ledger

variable [Fintype Thread] {config : CacheConfig} {ledger : ChunkLedger Thread}

structure Accounted (ledger : ChunkLedger Thread) : Prop where
  queued : ledger.log.system.cache.misses + ledger.log.moved.length =
    ledger.log.system.cache.evictionPolicy.lruQueue.length +
      invalidChunks ledger.log.system.cache.zoneState +
      tally ThreadPc.between ledger.log.system.threads
  written : ledger.log.system.cache.misses =
    chunksWritten ledger.log.system.cache.zoneState ledger.erases +
      tally ThreadPc.unreturned ledger.log.system.threads

omit [DecidableEq Thread] in
theorem Accounted.init (begins : chunkSystem config = some ledger.log.system)
    (none : ledger.log.moved = []) (unused : ledger.erases = fun _ => 0) :
    Accounted ledger := by
  obtain ⟨_, zoneState, _, policy, idle⟩ := System.init_spec begins
  have misses := System.init_misses begins
  constructor
  · rw [misses, none, zoneState, policy,
      tally_const_zero _ _ fun thread => by rw [idle thread]; rfl]
    simp [invalidChunks, zsmGetNumInvalidChunks, zsmInit, chunkInit, LinkedQueue.length,
      LinkedQueue.empty]
  · rw [misses, unused, zoneState,
      tally_const_zero _ _ fun thread => by rw [idle thread]; rfl]
    simp [chunksWritten, fill, zsmInit]

theorem zones_step (fits : config.maxZoneChunks < 2 ^ 32) (positive : 0 < config.maxZoneChunks)
    (sound : MigrationLog.Sound config ledger.log) {action : Thread × Choice}
    {next : ChunkLedger Thread} (success : CommandsSucceed action)
    (taken : ledger.step config action = some next) :
    invalidChunks next.log.system.cache.zoneState =
        invalidChunks ledger.log.system.cache.zoneState +
          callMarks (ChunkCache.zsmCall ledger.log.system.cache
            (ledger.log.system.threads action.1) action.2) ∧
      chunksWritten next.log.system.cache.zoneState next.erases =
        chunksWritten ledger.log.system.cache.zoneState ledger.erases +
          callChunks (ChunkCache.zsmCall ledger.log.system.cache
            (ledger.log.system.threads action.1) action.2) := by
  obtain ⟨log, stepped, rfl⟩ := Option.map_eq_some_iff.mp taken
  have called := sound.handoutStep stepped
  cases made : ChunkCache.zsmCall ledger.log.system.cache
      (ledger.log.system.threads action.1) action.2 with
  | none =>
      rw [made] at called
      have same : log.system.cache.zoneState = ledger.log.system.cache.zoneState :=
        congrArg Handout.manager called
      rw [same]
      exact ⟨rfl, rfl⟩
  | some call =>
      rw [made] at called
      have done := ChunkCache.zsmCall_success made success
      have sameMax : ledger.log.system.cache.zoneState.maxZoneChunks = config.maxZoneChunks :=
        sound.zones.managerMax
      exact ⟨invalidChunks_step ledger.log.handout done called,
        chunksWritten_step ledger.log.handout sound.zones.zones (sameMax ▸ fits)
          (sameMax ▸ positive) done called⟩

theorem Accounted.step (accounted : Accounted ledger) (fits : config.maxZoneChunks < 2 ^ 32)
    (positive : 0 < config.maxZoneChunks) (sound : MigrationLog.Sound config ledger.log)
    {action : Thread × Choice} {next : ChunkLedger Thread} (success : CommandsSucceed action)
    (taken : ledger.step config action = some next) : Accounted next := by
  obtain ⟨invalid, written⟩ := zones_step fits positive sound success taken
  obtain ⟨log, stepped, rfl⟩ := Option.map_eq_some_iff.mp taken
  obtain ⟨system, moved, rfl⟩ := Option.map_eq_some_iff.mp stepped
  obtain ⟨thread, choice⟩ := action
  obtain ⟨cache, pc, rfl, ran⟩ := System.step_spec moved
  obtain ⟨queued, returned⟩ := ran.entered
  have before := accounted.queued
  have holds := accounted.written
  rw [tally_split _ _ thread] at before holds
  constructor
  · simp only [System.advance, tally_update, List.length_append] at invalid ⊢
    omega
  · simp only [System.advance, tally_update] at written ⊢
    omega

/-- In every interleaving the misses and the moves of the GC are counted by the entries of
the policy's queue and of the zones' queues of invalid chunks, and the misses by the chunks
that the zones took since their first use. -/
theorem chunks_accounted (someZone : 1 ≤ config.nrZones) (someChunk : 1 ≤ config.chunkSz)
    (chunkFits : config.chunkSz ≤ config.zoneCap) (fits : config.maxZoneChunks < 2 ^ 32)
    (run : Run config ledger) :
    ledger.log.system.cache.misses + ledger.log.moved.length =
        ledger.log.system.cache.evictionPolicy.lruQueue.length +
          ∑ zone ∈ Finset.range config.nrZones,
            zsmGetNumInvalidChunks ledger.log.system.cache.zoneState zone +
          tally ThreadPc.between ledger.log.system.threads ∧
      ledger.log.system.cache.misses =
        ∑ zone ∈ Finset.range config.nrZones,
            (ledger.erases zone * config.maxZoneChunks +
              ledger.log.system.cache.zoneState.fill zone) +
          tally ThreadPc.unreturned ledger.log.system.threads := by
  have positive : 0 < config.maxZoneChunks := Nat.div_pos chunkFits someChunk
  have both : MigrationLog.Run config ledger.log ∧ Accounted ledger := by
    induction run with
    | start begins =>
        exact ⟨.start ⟨begins.1, begins.2.1⟩,
          Accounted.init begins.1 begins.2.1 begins.2.2⟩
    | step action before success taken ih =>
        obtain ⟨reached, accounted⟩ := ih
        have sound := MigrationLog.Run.sound someZone fits positive reached
        have later := accounted.step fits positive sound success taken
        obtain ⟨log, stepped, rfl⟩ := Option.map_eq_some_iff.mp taken
        exact ⟨.step action reached success stepped, later⟩
  obtain ⟨reached, queued, written⟩ := both
  have sound := MigrationLog.Run.sound someZone fits positive reached
  rw [invalidChunks, sound.zones.numZones] at queued
  rw [chunksWritten, sound.zones.numZones, sound.zones.managerMax] at written
  exact ⟨queued, written⟩

/-- Of two chunks one has been evicted and one moved, whose old place is still queued. -/
theorem chunks_accounted_moveThenReset :
    ∃ start ledger : ChunkLedger (Fin 2),
      chunkSystem MigrationLog.migratingConfig = some start.log.system ∧
      runActions (step MigrationLog.migratingConfig) start
        (MigrationLog.moveThenReset 0 1) = some ledger ∧
      ledger.erases 0 = 1 ∧ ledger.log.moved.length = 1 ∧
      ledger.log.system.cache.evictionPolicy.lruQueue.items = [(0, 1), (1, 0)] ∧
      ledger.log.system.cache.misses + ledger.log.moved.length =
        ledger.log.system.cache.evictionPolicy.lruQueue.length +
          ∑ zone ∈ Finset.range 2,
            zsmGetNumInvalidChunks ledger.log.system.cache.zoneState zone +
          tally ThreadPc.between ledger.log.system.threads := by
  cases begins : (chunkSystem MigrationLog.migratingConfig : Option (ChunkSystem (Fin 2))) with
  | none => cases begins
  | some system =>
      cases ran : runActions (step MigrationLog.migratingConfig) ⟨⟨system, []⟩, fun _ => 0⟩
          (MigrationLog.moveThenReset 0 1) with
      | none => cases Option.some.inj begins; cases ran
      | some ledger =>
          have run : Run MigrationLog.migratingConfig ledger :=
            Reach.of_runActions (MigrationLog.moveThenReset 0 1) (.start ⟨begins, rfl, rfl⟩)
              (.of_forall _ _ (by
                simp [MigrationLog.moveThenReset, MigrationLog.fillThenMove, CommandsSucceed,
                  Environment.smooth])) ran
          have counts : ledger.erases 0 = 1 ∧ ledger.log.moved.length = 1 ∧
              ledger.log.system.cache.evictionPolicy.lruQueue.items = [(0, 1), (1, 0)] := by
            cases Option.some.inj begins
            cases Option.some.inj ran
            exact ⟨rfl, rfl, rfl⟩
          obtain ⟨queued, _⟩ :=
            chunks_accounted (by decide) (by decide) (by decide) (by decide) run
          exact ⟨⟨⟨system, []⟩, _⟩, ledger, rfl, ran, counts.1, counts.2.1, counts.2.2, queued⟩

end ChunkLedger

end ZNCache
