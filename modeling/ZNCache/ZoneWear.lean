import Mathlib.Algebra.BigOperators.Ring.Finset
import ZNCache.SystemPlacement

/-!
# Misses and wear

A miss that is counted has written one chunk, and a zone is reset only when all its
chunks have been written since its last reset.  So the misses of a run are the chunks
that lie in the zones and those that resets have taken away, each zone's own number at
every reset.
-/

set_option autoImplicit false

namespace ZNCache

open Tally Transition

/-- The chunks given back to a zone since its last reset. -/
def ZoneStateManager.fill (manager : ZoneStateManager) (zone : Nat) : Nat :=
  match (manager.state zone).state with
  | .free => 0
  | .active | .writeOccuring => (manager.state zone).chunkOffset
  | .full => manager.maxZoneChunks

/-! ## What a call does to the zones' chunks -/

section Calls

variable {manager : ZoneStateManager} {held : Multiset ZnPair} {zone : Nat}

theorem fill_congr {after : ZoneStateManager} {other : Nat}
    (sameEntry : after.state other = manager.state other)
    (sameMax : after.maxZoneChunks = manager.maxZoneChunks) :
    after.fill other = manager.fill other := by
  rw [ZoneStateManager.fill, sameEntry, sameMax, ZoneStateManager.fill]

theorem ZonesSound.fill_getActiveZone (sound : ZonesSound manager held) (other : Nat) :
    (zsmGetActiveZone 0 manager).state.fill other = manager.fill other := by
  have answer := sound.partition.getActiveZone_spec sound.counts 0
  generalize zsmGetActiveZone 0 manager = outcome at answer
  cases answer with
  | evict | retry => rfl
  | error _ _ _ _ failed => exact absurd (backendRet_zero _) failed
  | success zone offset active free drawn asserts checked =>
      by_cases same : other = zone
      · subst same
        cases drawn with
        | activeQueue head _ resumed =>
            have found := (sound.partition.activeIff other).mp (by simp [head])
            simp [ZoneStateManager.fill, handedOut, found.2, resumed]
        | freeQueue _ _ head restart =>
            have found := (sound.partition.freeIff other).mp (by simp [head])
            simp [ZoneStateManager.fill, handedOut, found.2, restart]
      · exact fill_congr (by simp [handedOut, same]) rfl

theorem ZonesSound.fill_failedToWrite {pair : ZnPair} (sound : ZonesSound manager held)
    (member : pair ∈ held) (other : Nat) :
    (zsmFailedToWrite manager pair).state.fill other = manager.fill other := by
  have writing := (sound.outstanding member).1
  rw [zsmFailedToWrite_state]
  by_cases same : other = pair.zone
  · subst same
    simp [ZoneStateManager.fill, returnedZone, writing]
  · exact fill_congr (by simp [same]) rfl

theorem ZonesSound.fill_returnActiveZone {pair : ZnPair} (sound : ZonesSound manager held)
    (fits : manager.maxZoneChunks < 2 ^ 32) (positive : 0 < manager.maxZoneChunks)
    (member : pair ∈ held) {ret : Int} {after : ZoneStateManager}
    (returned : ReturnSpec 0 manager pair.zone ret after)
    (other : Nat) :
    after.fill other = manager.fill other + if other = pair.zone then 1 else 0 := by
  have writing := (sound.outstanding member).1
  by_cases same : other = pair.zone
  · subst same
    rw [if_pos rfl]
    cases returned with
    | reopened offset advanced notLast =>
        rw [advanced] at notLast
        have counts := sound.entries.advance writing fits notLast
        simp [ZoneStateManager.fill, returnedZone, writing, advanced, counts]
    | alreadyFull _ full => simp [writing] at full
    | failed _ _ failure => exact absurd (backendRet_zero _) failure
    | finished last notFull done =>
        have small := sound.entries.offsetSmall pair.zone
        have whole : (manager.state pair.zone).chunkOffset + 1 = manager.maxZoneChunks := by
          unfold u32 at last
          omega
        simp [ZoneStateManager.fill, returnedZone, writing, whole]
  · rw [if_neg same, Nat.add_zero]
    cases returned with
    | reopened | alreadyFull | finished | failed => exact fill_congr (by simp [same]) rfl

theorem ZonesSound.fill_evict (sound : ZonesSound manager held) (full : IsFull manager zone)
    (other : Nat) :
    manager.fill zone = manager.maxZoneChunks ∧
      (zsmEvict 0 manager zone).state.fill other =
        if other = zone then 0 else manager.fill other := by
  rw [(sound.evict full).2]
  refine ⟨by simp [ZoneStateManager.fill, full.2], ?_⟩
  by_cases same : other = zone
  · subst same
    simp [ZoneStateManager.fill, freed, returnedZone]
  · rw [if_neg same]
    exact fill_congr (by simp [freed, same]) rfl

end Calls

/-! ## What a call adds -/

def ZsmCall.erases (before : Nat → Nat) : ZsmCall → Nat → Nat
  | evict _ zone => Function.update before zone (before zone + 1)
  | getActiveZone _ | returnActiveZone _ _ | failedToWrite _ | markChunkInvalid _ => before

def ZsmCall.chunks : ZsmCall → Nat
  | returnActiveZone _ _ => 1
  | getActiveZone _ | failedToWrite _ | evict _ _ | markChunkInvalid _ => 0

/-- All chunks ever written: those in the zones and those that resets took away. -/
def chunksWritten (manager : ZoneStateManager) (erases : Nat → Nat) : Nat :=
  ∑ zone ∈ Finset.range manager.numZones,
    (erases zone * manager.maxZoneChunks + manager.fill zone)

theorem chunksWritten_add {manager after : ZoneStateManager} (erases erases' added : Nat → Nat)
    (shape : SameShape manager after)
    (each : ∀ zone < manager.numZones,
      erases' zone * manager.maxZoneChunks + after.fill zone =
        erases zone * manager.maxZoneChunks + manager.fill zone + added zone) :
    chunksWritten after erases' =
      chunksWritten manager erases + ∑ zone ∈ Finset.range manager.numZones, added zone := by
  rw [chunksWritten, chunksWritten, shape.numZones, shape.maxZoneChunks,
    ← Finset.sum_add_distrib]
  exact Finset.sum_congr rfl fun zone member => each zone (Finset.mem_range.mp member)

theorem chunksWritten_same {manager after : ZoneStateManager} {erases : Nat → Nat}
    (shape : SameShape manager after) (same : ∀ zone, after.fill zone = manager.fill zone) :
    chunksWritten after erases = chunksWritten manager erases := by
  rw [chunksWritten_add erases erases (fun _ => 0) shape fun zone _ => by rw [same zone]; rfl]
  simp

/-- Giving a pair back is the only call that adds a chunk, and resets take none away. -/
theorem chunksWritten_step (handout : Handout) {after : Handout} {call : ZsmCall}
    {erases : Nat → Nat}
    (sound : ZonesSound handout.manager handout.outstanding)
    (fits : handout.manager.maxZoneChunks < 2 ^ 32)
    (positive : 0 < handout.manager.maxZoneChunks) (success : call.commandRet = 0)
    (taken : handout.step call = some after) :
    chunksWritten after.manager (call.erases erases) =
      chunksWritten handout.manager erases + call.chunks := by
  cases call with
  | getActiveZone openRet =>
      cases success
      have manager : after.manager = (zsmGetActiveZone 0 handout.manager).state := by
        obtain ⟨⟨next, asserts⟩, enabled, rfl⟩ := Option.map_eq_some_iff.mp taken
        simp only [Handout.call] at enabled
        split at enabled <;> cases Option.some.inj enabled <;> rfl
      rw [manager]
      exact chunksWritten_same sound.getActiveZone.2.1.shape sound.fill_getActiveZone
  | returnActiveZone finishRet pair =>
      cases success
      cases Handout.step_spec taken with
      | returned _ _ ret manager member spec =>
          obtain ⟨below, _⟩ := (sound.partition.heldIff pair.zone).mp
            (Multiset.mem_map_of_mem ZnPair.zone member)
          have filled := sound.fill_returnActiveZone fits positive member spec
          rw [ZsmCall.erases, chunksWritten_add erases erases
            (fun zone => if zone = pair.zone then 1 else 0) spec.shape
            fun zone _ => by rw [filled zone, Nat.add_assoc]]
          simp [ZsmCall.chunks, below]
  | failedToWrite pair =>
      cases Handout.step_spec taken with
      | failedToWrite _ member =>
          exact chunksWritten_same ⟨rfl, rfl, rfl, rfl⟩ (sound.fill_failedToWrite member)
  | evict resetRet zone =>
      cases success
      cases Handout.step_spec taken with
      | evicted _ _ manager below full spec =>
          have same : manager = (zsmEvict 0 handout.manager zone).state := by
            rw [(sound.evict ⟨below, full⟩).2]
            cases spec with
            | alreadyFree free => simp [full] at free
            | reset => rfl
            | failed _ failure => exact absurd (backendRet_zero _) failure
          have filled := sound.fill_evict ⟨below, full⟩
          rw [ZsmCall.erases, chunksWritten_add erases _ (fun _ => 0) spec.shape]
          · simp [ZsmCall.chunks]
          · intro other _
            rw [same, (filled other).2]
            by_cases here : other = zone
            · subst here
              rw [Function.update_self, if_pos rfl, (filled other).1]
              ring
            · rw [Function.update_of_ne here, if_neg here, Nat.add_zero]
  | markChunkInvalid location =>
      cases Handout.step_spec taken with
      | marked _ below =>
          refine chunksWritten_same ⟨rfl, rfl, rfl, rfl⟩ fun zone => ?_
          by_cases same : zone = location.zone
          · subst same
            simp [ZoneStateManager.fill, zsmMarkChunkInvalid]
          · exact fill_congr (by simp [zsmMarkChunkInvalid, same]) rfl

/-! ## Runs -/

theorem System.init_misses {Thread Policy Local : Type} {config : CacheConfig} {policy : Policy}
    {system : System Thread Policy Local} (begins : System.init config policy = some system) :
    system.cache.misses = 0 := by
  obtain ⟨cache, built, rfl⟩ := Option.map_eq_some_iff.mp begins
  unfold znInitCache at built
  split at built
  next =>
      cases Option.some.inj built
      rfl
  next => cases built

variable {Thread : Type}

structure WearLog (Thread : Type) where
  system : PromotionalSystem Thread
  erases : Nat → Nat

def ThreadPc.counted : ThreadPc EvictPc → Nat
  | get (.giveBack _ _) => 1
  | _ => 0

namespace WearLog

variable [DecidableEq Thread]

def step (config : CacheConfig) (log : WearLog Thread) (action : Thread × Choice) :
    Option (WearLog Thread) :=
  (log.system.step (promotionalCode config) action).map fun next =>
    ⟨next, match (log.system.threads action.1).zsmCall action.2 with
      | some call => call.erases log.erases
      | none => log.erases⟩

abbrev Run (config : CacheConfig) (log : WearLog Thread) : Prop :=
  Reach (step config) (fun _ action => CommandsSucceed action)
    (fun log => promotionalSystem config = some log.system ∧ log.erases = fun _ => 0) log

end WearLog

section Step

variable {config : CacheConfig} {thread : Thread} {choice : Choice}
  {cache after : PromotionalCache Thread} {pc next : ThreadPc EvictPc}

def callChunks (call : Option ZsmCall) : Nat := call.elim 0 ZsmCall.chunks

theorem counted_afterGetActiveZone (id : Nat) (ret : GetActiveZone) :
    (afterGetActiveZone id EvictPc.start ret).counted = 0 := by
  cases ret <;> rfl

theorem counted_afterFind (id : Nat) (result : FindResult) :
    (afterFind id result : ThreadPc EvictPc).counted = 0 := by
  cases result <;> rfl

variable [DecidableEq Thread]

/-- A step counts the miss of a chunk that it has written and gives back next. -/
theorem ThreadStep.misses
    (moved : ThreadStep (promotionalCode config) thread cache pc choice after next) :
    after.misses + pc.counted = cache.misses + next.counted + callChunks (pc.zsmCall choice) := by
  cases moved with
  | call | callEvict | wakeUp => rfl
  | get ran =>
      cases ran with
      | find id =>
          rw [counted_afterFind]
          rfl
      | acquire id =>
          change cache.misses + 0 = _ + (afterGetActiveZone id EvictPc.start _).counted + _
          rw [counted_afterGetActiveZone]
          rfl
      | woken | read | touch | release | countHit | write | writeFailed => rfl
      | countMiss | giveBack | record | insert | undoZone | undoMap => rfl
  | evict caller later ran =>
      cases fgEvictStep_spec ran with
      | start | take | clear | wait | reset => rfl
  | evicted caller ran =>
      cases fgEvictStep_spec ran with
      | enough | nothing => cases caller <;> rfl

end Step

namespace WearLog

variable [Fintype Thread] [DecidableEq Thread] {config : CacheConfig} {log : WearLog Thread}

omit [Fintype Thread] in
theorem Run.reached (run : Run config log) :
    PromotionalRun config (fun _ action => CommandsSucceed action) log.system := by
  induction run with
  | start begins => exact .start begins.1
  | step action before success taken ih =>
      obtain ⟨next, moved, rfl⟩ := Option.map_eq_some_iff.mp taken
      exact .step action ih success moved

/-- In every interleaving the misses counted are the chunks given back to the zones, all
of a zone's at each of its resets, and those that threads are about to give back. -/
theorem misses_are_chunks (someChunk : 1 ≤ config.chunkSz)
    (chunkFits : config.chunkSz ≤ config.zoneCap) (fits : config.maxZoneChunks < 2 ^ 32)
    (run : Run config log) :
    log.system.cache.misses =
      ∑ zone ∈ Finset.range config.nrZones,
          (log.erases zone * config.maxZoneChunks + log.system.cache.zoneState.fill zone) +
        tally ThreadPc.counted log.system.threads := by
  have written : log.system.cache.misses =
      chunksWritten log.system.cache.zoneState log.erases +
        tally ThreadPc.counted log.system.threads := by
    induction run with
    | start begins =>
        obtain ⟨_, zoneState, _, _, idle⟩ := System.init_spec begins.1
        rw [begins.2, tally_const_zero _ _ fun thread => by rw [idle thread]; rfl, zoneState,
          System.init_misses begins.1]
        simp [chunksWritten, ZoneStateManager.fill, zsmInit]
    | @step state later action before success taken ih =>
        have owned := ZonesOwned.of_run fits (fun _ _ success => success) (Run.reached before)
        obtain ⟨next, stepped, rfl⟩ := Option.map_eq_some_iff.mp taken
        have called := owned.handoutStep success stepped
        have manager : chunksWritten next.cache.zoneState
            (match (state.system.threads action.1).zsmCall action.2 with
              | some call => call.erases state.erases
              | none => state.erases) =
            chunksWritten state.system.cache.zoneState state.erases +
              callChunks ((state.system.threads action.1).zsmCall action.2) := by
          cases made : (state.system.threads action.1).zsmCall action.2 with
          | none =>
              rw [made] at called
              exact congrArg (fun handout => chunksWritten handout.manager state.erases) called
          | some call =>
              rw [made] at called
              exact chunksWritten_step (handoutOf state.system) owned.zones
                (owned.maxChunks ▸ fits)
                (owned.maxChunks ▸ Nat.div_pos chunkFits someChunk)
                (ThreadPc.zsmCall_success made success) called
        rw [manager]
        obtain ⟨thread, choice⟩ := action
        obtain ⟨cache, pc, rfl, moved⟩ := System.step_spec stepped
        have counts := moved.misses
        rw [tally_split _ _ thread] at ih
        simp only [System.advance, tally_update]
        omega
  have owned := ZonesOwned.of_run fits (fun _ _ success => success) run.reached
  rw [written, chunksWritten, owned.nrZones, owned.maxChunks]

/-- The one chunk that was written has been taken away by a reset. -/
theorem misses_are_chunks_earlyEviction :
    ∃ start log : WearLog (Fin 2), promotionalSystem oneChunkConfig = some start.system ∧
      runActions (step oneChunkConfig) start (earlyEviction 0 1) = some log ∧
      log.erases 0 = 1 ∧
      log.system.cache.misses =
        ∑ zone ∈ Finset.range 1,
            (log.erases zone * 1 + log.system.cache.zoneState.fill zone) +
          tally ThreadPc.counted log.system.threads := by
  cases begins : (promotionalSystem oneChunkConfig : Option (PromotionalSystem (Fin 2))) with
  | none => cases begins
  | some system =>
      cases ran : runActions (step oneChunkConfig) ⟨system, fun _ => 0⟩ (earlyEviction 0 1) with
      | none => cases Option.some.inj begins; cases ran
      | some log =>
          have run : Run oneChunkConfig log :=
            Reach.of_runActions (earlyEviction 0 1) (.start ⟨begins, rfl⟩)
              (.of_forall _ _ (by
                simp [earlyEviction, CommandsSucceed, Environment.smooth])) ran
          refine ⟨⟨system, _⟩, log, rfl, ran, ?_,
            misses_are_chunks (by decide) (by decide) (by decide) run⟩
          cases Option.some.inj begins
          cases Option.some.inj ran
          rfl

end WearLog

end ZNCache
