import ZNCache.ChunkGc
import ZNCache.ZoneStateManagerSpec

/-!
# The zones that the GC takes

The GC takes a location from the zone manager for every chunk it moves and gives
none back: a run that moves `k` chunks raises `writes_occurring` by `k`.
-/

set_option autoImplicit false

namespace ZNCache

variable {Thread : Type}

/-! ## The count of zones being written -/

theorem zsmGetActiveZone_writes {openRet : Int} {manager : ZoneStateManager} {pair : ZnPair}
    (handed : (zsmGetActiveZone openRet manager).ret = .success pair) :
    (zsmGetActiveZone openRet manager).state.writesOccurring =
      manager.writesOccurring + 1 := by
  have answer := zsmGetActiveZone_answer openRet manager
  generalize (zsmGetActiveZone openRet manager).state = after at answer ⊢
  rw [handed] at answer
  cases answer with
  | refused _ nothing => simp [GetActiveZone.hands] at nothing
  | dropped _ nothing => simp [GetActiveZone.hands] at nothing
  | resumed zone active head => rfl
  | opened zone rest noActive head => rfl

theorem zsmEvict_writes (resetRet : Int) (manager : ZoneStateManager) (zone : Nat) :
    (zsmEvict resetRet manager zone).state.writesOccurring = manager.writesOccurring := by
  have evicted := zsmEvict_spec resetRet manager zone
  generalize (zsmEvict resetRet manager zone).state = after at evicted ⊢
  cases evicted <;> rfl

/-- The locations that the GC took are exactly the writers it leaves behind. -/
theorem gcWrites_rule (device : GcDevice) (base : Int) :
    GcRule device
      (fun run : GcRun Thread =>
        run.cache.zoneState.writesOccurring = base + run.moved.length)
      (fun _ _ run => run.cache.zoneState.writesOccurring = base + run.moved.length) where
  extract := fun _ _ _ counted _ => counted
  move := by
    intro zone chunk run next _ counted moved
    cases moved with
    | skip => exact counted
    | moved location answer used handed inserted =>
        have taken := zsmGetActiveZone_writes handed
        simp only [taken, counted, List.length_append, List.length_singleton]
        omega
  free := by
    intro zone run next counted freed
    obtain ⟨answer, _, rfl⟩ := gcFree_spec freed
    exact (zsmEvict_writes _ _ _).trans counted

theorem znPolicyChunkGc_writes {config : CacheConfig} {device : GcDevice}
    {cache : ChunkCache Thread} {after : GcRun Thread}
    (ran : znPolicyChunkGc config device cache = some after) :
    after.cache.zoneState.writesOccurring =
      cache.zoneState.writesOccurring + after.moved.length :=
  (gcWrites_rule device cache.zoneState.writesOccurring).run ran (by simp)

/-! ## Giving zones back -/

def GcRun.writtenInto (run : GcRun Thread) (zone : Nat) : Nat :=
  run.moved.countP fun location => location.zone = zone

/-- No writer is left over, and a zone that took `k` chunks from the offset first handed
out is active again past them or full. -/
structure GivesBackZones (before : ChunkCache Thread) (after : GcRun Thread) : Prop where
  writes : after.cache.zoneState.writesOccurring = before.zoneState.writesOccurring
  zones : ∀ zone first,
    after.moved.find? (fun location => location.zone = zone) = some first →
    (zone ∈ after.cache.zoneState.active ∧
      (after.cache.zoneState.state zone).state = .active ∧
      (after.cache.zoneState.state zone).chunkOffset =
        first.chunkOffset + after.writtenInto zone) ∨
    (after.cache.zoneState.state zone).state = .full

/-- The GC gives its zones back exactly in the runs in which it needs none. -/
theorem gc_givesBackZones {config : CacheConfig} {device : GcDevice}
    {cache : ChunkCache Thread} {after : GcRun Thread}
    (ran : znPolicyChunkGc config device cache = some after) :
    GivesBackZones cache after ↔ GcMovesNothing config device cache := by
  have counted := znPolicyChunkGc_writes ran
  rw [← znPolicyChunkGc_moved ran]
  constructor
  · intro given
    rw [given.writes] at counted
    apply List.length_eq_zero_iff.mp
    omega
  · intro none
    rw [none] at counted
    refine ⟨by simpa using counted, ?_⟩
    simp [none]

/-- Two zones of one chunk each; the GC starts when fewer than two are free. -/
def twoZoneConfig : CacheConfig :=
  { oneChunkConfig with nrZones := 2, evictHighThreshZones := 1, evictLowThreshZones := 2 }

/-- Identifier 0 has been missed once on a fresh cache of `twoZoneConfig`. -/
def afterFirstMiss : ChunkCache Unit :=
  let location : ZnPair := ⟨0, 0, 0, false⟩
  let handed := zsmGetActiveZone 0 (zsmInit 2 4096 4096 4096 1 .zns)
  { zoneState := (zsmReturnActiveZone 0 handed.state location).state
    cacheMap := (znCachemapFind () znCachemapInit 0).2.located 0 location
    evictionPolicy := enterHeap (recordChunk (chunkInit 2 1) location) 0
    disk := fun zone chunk => if zone = 0 ∧ chunk = 0 then some 0 else none
    hits := 0
    misses := 1 }

def afterFirstEviction : ChunkCache Unit :=
  match evictChunk afterFirstMiss.evictionPolicy with
  | none => afterFirstMiss
  | some (pair, policy) =>
      match znCachemapClearChunk afterFirstMiss.cacheMap pair with
      | none => afterFirstMiss
      | some answer => { afterFirstMiss with evictionPolicy := policy, cacheMap := answer.state }

def GcDevice.smooth : GcDevice := ⟨fun _ => 0, fun _ => 0⟩

theorem gc_keepsZone_ofMovedChunk :
    ∃ after, znPolicyChunkGc twoZoneConfig .smooth afterFirstMiss = some after ∧
      ¬ GivesBackZones afterFirstMiss after := by
  refine ⟨_, rfl, fun given => ?_⟩
  have same := given.writes
  revert same
  decide

theorem gc_givesBackZones_idle :
    ∃ after, znPolicyChunkGc twoZoneConfig .smooth afterFirstEviction = some after ∧
      after.reclaimed = [0] ∧
      (GivesBackZones afterFirstEviction after ↔
        GcMovesNothing twoZoneConfig .smooth afterFirstEviction) :=
  ⟨_, rfl, rfl, gc_givesBackZones rfl⟩

end ZNCache
