import ZNCache.ChunkPolicy
import ZNCache.Lib.Loop
import ZNCache.Workers

/-!
# Garbage collection of the chunk policy

`zn_policy_chunk_gc` on a single thread.  A run carries the locations the GC took
from the zone manager and the zones it reclaimed, in order.  It has no result when
a zone cannot be had or a missing map entry is dereferenced.
-/

set_option autoImplicit false

namespace ZNCache

open ZnPolicyChunk

abbrev ChunkCache (Thread : Type) := ZnCache Thread (ZnPolicyChunk Thread)

/-- The return codes of the libzbd commands, by the chunks moved or the zones
reclaimed so far. -/
structure GcDevice where
  openRet : Nat → Int
  resetRet : Nat → Int

structure GcRun (Thread : Type) where
  cache : ChunkCache Thread
  moved : List ZnPair
  reclaimed : List Nat

variable {Thread : Type}

namespace ChunkCache

def setPolicy (cache : ChunkCache Thread) (policy : ZnPolicyChunk Thread) : ChunkCache Thread :=
  { cache with evictionPolicy := policy }

def setHeap (cache : ChunkCache Thread) (heap : ZnMinheap) : ChunkCache Thread :=
  cache.setPolicy { cache.evictionPolicy with invalidPqueue := heap }

/-- The GC's copy of a chunk: read at the slot's own fields, written at `location`. -/
def copyChunk (cache : ChunkCache Thread) (pair location : ZnPair) : ChunkCache Thread :=
  cache.writeChunk location (cache.disk pair.zone pair.chunkOffset)

/-- The GC's updates of the cache map and of the policy for a chunk it has copied. -/
def remapChunk (cache : ChunkCache Thread) (source : Slot) (location : ZnPair) :
    Option (ChunkCache Thread) :=
  match znCachemapInsert cache.cacheMap (cache.evictionPolicy.slot source).id location with
  | none => none
  | some answer =>
      some { cache with
        cacheMap := answer.state
        evictionPolicy := moveSlot cache.evictionPolicy source location }

end ChunkCache

/-- One pass of the loop over the chunks of a zone. -/
def gcMove (device : GcDevice) (zone : Nat) (run : GcRun Thread) (chunk : Nat) :
    Option (GcRun Thread) :=
  let pair := run.cache.evictionPolicy.slot (zone, chunk)
  if pair.inUse then
    let answer := zsmGetActiveZone (device.openRet run.moved.length) run.cache.zoneState
    match answer.ret with
    | .success location =>
        let taken : ChunkCache Thread := { run.cache with zoneState := answer.state }
        match (taken.copyChunk pair location).remapChunk (zone, chunk) location with
        | none => none
        | some cache => some { run with cache := cache, moved := run.moved ++ [location] }
    | _ => none
  else some run

/-- The zone's entry is cleared and the zone reset, through the `zone_id` it records. -/
def gcFree (device : GcDevice) (zone : Nat) (run : GcRun Thread) : Option (GcRun Thread) :=
  let zoneId := (run.cache.evictionPolicy.zonePool zone).zoneId
  match znCachemapClearZone run.cache.cacheMap zoneId with
  | none => none
  | some answer =>
      let cleared : ChunkCache Thread := { run.cache with cacheMap := answer.state }
      some { run with
        cache := cleared.evictZone (device.resetRet run.reclaimed.length) zoneId
        reclaimed := run.reclaimed ++ [zoneId] }

def gcReclaim (device : GcDevice) (zone : Nat) (run : GcRun Thread) : Option (GcRun Thread) :=
  ((List.range run.cache.evictionPolicy.maxZoneChunks).foldlM (gcMove device zone) run).bind
    (gcFree device zone)

/-- The loop takes one entry from the heap each time round, so it ends within as many
passes as the heap has entries. -/
def gcLoop (device : GcDevice) (lowThresh : Nat) : Nat → GcRun Thread → Option (GcRun Thread)
  | 0, run => some run
  | entries + 1, run =>
      if zsmGetNumFreeZones run.cache.zoneState < lowThresh then
        match znMinheapExtractMin run.cache.evictionPolicy.invalidPqueue with
        | none => some run
        | some (handle, heap) =>
            (gcReclaim device (heap.entry handle).data
              { run with cache := run.cache.setHeap heap }).bind
              (gcLoop device lowThresh entries)
      else some run

def znPolicyChunkGc (config : CacheConfig) (device : GcDevice) (cache : ChunkCache Thread) :
    Option (GcRun Thread) :=
  if config.evictHighThreshZones < zsmGetNumFreeZones cache.zoneState then
    some ⟨cache, [], []⟩
  else
    gcLoop device config.evictLowThreshZones cache.evictionPolicy.invalidPqueue.size
      ⟨cache, [], []⟩

/-! ## When the GC moves nothing -/

def NoneInUse (policy : ZnPolicyChunk Thread) (zone : Nat) : Prop :=
  ∀ chunk < policy.maxZoneChunks, (policy.slot (zone, chunk)).inUse = false

/-- No zone that the heap yields while free zones are short has a chunk in use. -/
def YieldsIdleZones (device : GcDevice) (lowThresh : Nat) (policy : ZnPolicyChunk Thread) :
    Nat → ZoneStateManager → ZnMinheap → Nat → Prop
  | 0, _, _, _ => True
  | entries + 1, manager, heap, reclaimed =>
      zsmGetNumFreeZones manager < lowThresh →
      ∀ handle rest, znMinheapExtractMin heap = some (handle, rest) →
        NoneInUse policy (rest.entry handle).data ∧
          YieldsIdleZones device lowThresh policy entries
            (zsmEvict (device.resetRet reclaimed) manager
              (policy.zonePool (rest.entry handle).data).zoneId).state rest (reclaimed + 1)

/-- The GC finds enough free zones, or only idle zones in the heap until it does. -/
def GcMovesNothing (config : CacheConfig) (device : GcDevice) (cache : ChunkCache Thread) :
    Prop :=
  config.evictHighThreshZones < zsmGetNumFreeZones cache.zoneState ∨
    YieldsIdleZones device config.evictLowThreshZones cache.evictionPolicy
      cache.evictionPolicy.invalidPqueue.size cache.zoneState
      cache.evictionPolicy.invalidPqueue 0

/-! ## What the steps of the GC do -/

section Steps

variable {device : GcDevice} {zone chunk : Nat} {run next scanned : GcRun Thread}

inductive GcMoveSpec (device : GcDevice) (zone : Nat) (run : GcRun Thread) (chunk : Nat) :
    GcRun Thread → Prop
  | skip (unused : (run.cache.evictionPolicy.slot (zone, chunk)).inUse = false) :
      GcMoveSpec device zone run chunk run
  | moved (location : ZnPair) (answer : Outcome (CacheMap Thread) Unit)
      (used : (run.cache.evictionPolicy.slot (zone, chunk)).inUse = true)
      (handed : (zsmGetActiveZone (device.openRet run.moved.length) run.cache.zoneState).ret =
        .success location)
      (inserted : znCachemapInsert run.cache.cacheMap
        (run.cache.evictionPolicy.slot (zone, chunk)).id location = some answer) :
      GcMoveSpec device zone run chunk
        { run with
          cache := { run.cache.copyChunk (run.cache.evictionPolicy.slot (zone, chunk)) location with
            zoneState :=
              (zsmGetActiveZone (device.openRet run.moved.length) run.cache.zoneState).state
            cacheMap := answer.state
            evictionPolicy := moveSlot run.cache.evictionPolicy (zone, chunk) location }
          moved := run.moved ++ [location] }

theorem gcMove_spec (ran : gcMove device zone run chunk = some next) :
    GcMoveSpec device zone run chunk next := by
  unfold gcMove at ran
  dsimp only at ran
  split at ran
  next used =>
      cases handed : (zsmGetActiveZone (device.openRet run.moved.length)
          run.cache.zoneState).ret with
      | success location =>
          rw [handed] at ran
          dsimp only at ran
          cases inserted : znCachemapInsert run.cache.cacheMap
              (run.cache.evictionPolicy.slot (zone, chunk)).id location with
          | none => simp [ChunkCache.remapChunk, ChunkCache.copyChunk, ZnCache.writeChunk,
              inserted] at ran
          | some answer =>
              simp only [ChunkCache.remapChunk, ChunkCache.copyChunk, ZnCache.writeChunk,
                inserted, Option.some.injEq] at ran
              subst ran
              exact .moved location answer used handed inserted
      | retry | error | evict => simp [handed] at ran
  next unused =>
      cases Option.some.inj ran
      exact .skip (by simpa using unused)

theorem gcFree_spec (ran : gcFree device zone run = some next) :
    ∃ answer, znCachemapClearZone run.cache.cacheMap
        (run.cache.evictionPolicy.zonePool zone).zoneId = some answer ∧
      next = { run with
        cache := ({ run.cache with cacheMap := answer.state } : ChunkCache Thread).evictZone
          (device.resetRet run.reclaimed.length)
          (run.cache.evictionPolicy.zonePool zone).zoneId
        reclaimed := run.reclaimed ++ [(run.cache.evictionPolicy.zonePool zone).zoneId] } := by
  unfold gcFree at ran
  dsimp only at ran
  cases cleared : znCachemapClearZone run.cache.cacheMap
      (run.cache.evictionPolicy.zonePool zone).zoneId with
  | none => simp [cleared] at ran
  | some answer =>
      rw [cleared] at ran
      exact ⟨answer, rfl, (Option.some.inj ran).symm⟩

/-! ### Counting the moves -/

theorem gcMove_moved (ran : gcMove device zone run chunk = some next) :
    ((run.cache.evictionPolicy.slot (zone, chunk)).inUse = false ∧ next = run) ∨
      (run.cache.evictionPolicy.slot (zone, chunk)).inUse = true ∧
        next.moved.length = run.moved.length + 1 := by
  cases gcMove_spec ran with
  | skip unused => exact .inl ⟨unused, rfl⟩
  | moved location answer used => exact .inr ⟨used, by simp⟩

/-- A scan moves a chunk unless none that it meets is in use, and then it does nothing. -/
theorem gcScan_moved (chunks : List Nat) :
    ∀ {run scanned : GcRun Thread}, chunks.foldlM (gcMove device zone) run = some scanned →
      ((∀ chunk ∈ chunks, (run.cache.evictionPolicy.slot (zone, chunk)).inUse = false) ∧
        scanned = run) ∨
      (∃ chunk ∈ chunks, (run.cache.evictionPolicy.slot (zone, chunk)).inUse = true) ∧
        run.moved.length < scanned.moved.length := by
  induction chunks with
  | nil =>
      intro run scanned ran
      cases Option.some.inj ran
      exact .inl ⟨by simp, rfl⟩
  | cons chunk rest ih =>
      intro run scanned ran
      rw [List.foldlM_cons] at ran
      obtain ⟨next, moved, scan⟩ := Option.bind_eq_some_iff.mp ran
      rcases gcMove_moved moved with ⟨unused, same⟩ | ⟨used, longer⟩
      · subst same
        rcases ih scan with ⟨unusedRest, same⟩ | ⟨⟨later, member, used⟩, longer⟩
        · exact .inl ⟨List.forall_mem_cons.mpr ⟨unused, unusedRest⟩, same⟩
        · exact .inr ⟨⟨later, List.mem_cons_of_mem _ member, used⟩, longer⟩
      · have grown : next.moved.length ≤ scanned.moved.length := by
          rcases ih scan with ⟨_, same⟩ | ⟨_, longerRest⟩
          · rw [same]
          · exact Nat.le_of_lt longerRest
        exact .inr ⟨⟨chunk, List.mem_cons_self, used⟩, by omega⟩

theorem gcReclaim_moved (ran : gcReclaim device zone run = some next) :
    (NoneInUse run.cache.evictionPolicy zone ∧ gcFree device zone run = some next) ∨
      ¬ NoneInUse run.cache.evictionPolicy zone ∧ run.moved.length < next.moved.length := by
  obtain ⟨scanned, scan, freed⟩ := Option.bind_eq_some_iff.mp ran
  rcases gcScan_moved _ scan with ⟨unused, same⟩ | ⟨⟨chunk, member, used⟩, longer⟩
  · subst same
    exact .inl ⟨fun chunk below => unused chunk (List.mem_range.mpr below), freed⟩
  · right
    obtain ⟨answer, _, rfl⟩ := gcFree_spec freed
    refine ⟨fun idle => ?_, longer⟩
    rw [idle chunk (List.mem_range.mp member)] at used
    cases used

theorem YieldsIdleZones.congr {lowThresh : Nat} {policy policy' : ZnPolicyChunk Thread}
    (samePool : policy'.zonePool = policy.zonePool)
    (sameMax : policy'.maxZoneChunks = policy.maxZoneChunks) (entries : Nat) :
    ∀ {manager : ZoneStateManager} {heap : ZnMinheap} {reclaimed : Nat},
      YieldsIdleZones device lowThresh policy' entries manager heap reclaimed ↔
        YieldsIdleZones device lowThresh policy entries manager heap reclaimed := by
  induction entries with
  | zero => exact Iff.rfl
  | succ entries ih =>
      intro manager heap reclaimed
      simp only [YieldsIdleZones, NoneInUse, ZnPolicyChunk.slot, samePool, sameMax, ih]

theorem gcLoop_length {lowThresh : Nat} (entries : Nat) :
    ∀ {run after : GcRun Thread}, gcLoop device lowThresh entries run = some after →
      run.moved.length ≤ after.moved.length := by
  induction entries with
  | zero =>
      intro run after ran
      cases Option.some.inj ran
      exact Nat.le_refl _
  | succ entries ih =>
      intro run after ran
      simp only [gcLoop] at ran
      split at ran
      next =>
          cases extracted : znMinheapExtractMin run.cache.evictionPolicy.invalidPqueue with
          | none =>
              rw [extracted] at ran
              cases Option.some.inj ran
              exact Nat.le_refl _
          | some pair =>
              rw [extracted] at ran
              obtain ⟨next, reclaimed, ran⟩ := Option.bind_eq_some_iff.mp ran
              have later := ih ran
              rcases gcReclaim_moved reclaimed with ⟨_, freed⟩ | ⟨_, longer⟩
              · obtain ⟨answer, _, rfl⟩ := gcFree_spec freed
                exact later
              · simp only at longer
                omega
      next =>
          cases Option.some.inj ran
          exact Nat.le_refl _

/-- The GC moves nothing exactly when the heap yields idle zones only. -/
theorem gcLoop_moved {lowThresh : Nat} (entries : Nat) :
    ∀ {run after : GcRun Thread}, gcLoop device lowThresh entries run = some after →
      (after.moved.length = run.moved.length ↔
        YieldsIdleZones device lowThresh run.cache.evictionPolicy entries
          run.cache.zoneState run.cache.evictionPolicy.invalidPqueue run.reclaimed.length) := by
  induction entries with
  | zero =>
      intro run after ran
      cases Option.some.inj ran
      simp [YieldsIdleZones]
  | succ entries ih =>
      intro run after ran
      simp only [gcLoop] at ran
      split at ran
      next short =>
          cases extracted : znMinheapExtractMin run.cache.evictionPolicy.invalidPqueue with
          | none =>
              rw [extracted] at ran
              cases Option.some.inj ran
              simp [YieldsIdleZones, extracted]
          | some pair =>
              obtain ⟨handle, rest⟩ := pair
              rw [extracted] at ran
              obtain ⟨next, reclaimed, ran⟩ := Option.bind_eq_some_iff.mp ran
              have later := ih ran
              have grown := gcLoop_length _ ran
              have walk : YieldsIdleZones device lowThresh run.cache.evictionPolicy (entries + 1)
                  run.cache.zoneState run.cache.evictionPolicy.invalidPqueue
                  run.reclaimed.length ↔
                NoneInUse run.cache.evictionPolicy (rest.entry handle).data ∧
                  YieldsIdleZones device lowThresh run.cache.evictionPolicy entries
                    (zsmEvict (device.resetRet run.reclaimed.length) run.cache.zoneState
                      (run.cache.evictionPolicy.zonePool (rest.entry handle).data).zoneId).state
                    rest (run.reclaimed.length + 1) := by
                simp only [YieldsIdleZones, short, forall_const, extracted, Option.some.injEq,
                  Prod.mk.injEq, and_imp]
                constructor
                · intro all
                  exact all _ _ rfl rfl
                · intro both _ _ equal alike
                  subst equal
                  subst alike
                  exact both
              rw [walk]
              rcases gcReclaim_moved reclaimed with ⟨idle, freed⟩ | ⟨busy, longer⟩
              · obtain ⟨answer, _, rfl⟩ := gcFree_spec freed
                have samePolicy := @YieldsIdleZones.congr Thread device lowThresh
                  run.cache.evictionPolicy { run.cache.evictionPolicy with invalidPqueue := rest }
                  rfl rfl entries
                have idleZone : NoneInUse run.cache.evictionPolicy (rest.entry handle).data := idle
                rw [and_iff_right idleZone, ← samePolicy]
                simpa [ZnCache.evictZone, ChunkCache.setHeap, ChunkCache.setPolicy] using later
              · constructor
                · intro same
                  simp only at longer
                  omega
                · intro both
                  exact absurd both.1 busy
      next enough =>
          cases Option.some.inj ran
          simp [YieldsIdleZones, enough]

end Steps

/-! ## The rule for a run of the GC -/

/-- `between` holds whenever the loop tests the free zones, `within zone chunk` when the
scan of the zone is about to look at the chunk. -/
structure GcRule (device : GcDevice) (between : GcRun Thread → Prop)
    (within : Nat → Nat → GcRun Thread → Prop) : Prop where
  extract : ∀ run handle heap, between run →
    znMinheapExtractMin run.cache.evictionPolicy.invalidPqueue = some (handle, heap) →
    within (heap.entry handle).data 0 { run with cache := run.cache.setHeap heap }
  move : ∀ zone chunk run next, chunk < run.cache.evictionPolicy.maxZoneChunks →
    within zone chunk run → GcMoveSpec device zone run chunk next →
    within zone (chunk + 1) next
  free : ∀ zone run next, within zone run.cache.evictionPolicy.maxZoneChunks run →
    gcFree device zone run = some next → between next

section Rule

variable {device : GcDevice} {between : GcRun Thread → Prop}
  {within : Nat → Nat → GcRun Thread → Prop}

theorem GcMoveSpec.maxZoneChunks {zone chunk : Nat} {run next : GcRun Thread}
    (moved : GcMoveSpec device zone run chunk next) :
    next.cache.evictionPolicy.maxZoneChunks = run.cache.evictionPolicy.maxZoneChunks := by
  cases moved <;> rfl

theorem GcRule.reclaim (rule : GcRule device between within) {zone : Nat}
    {run next : GcRun Thread} (holds : within zone 0 run)
    (ran : gcReclaim device zone run = some next) : between next := by
  obtain ⟨scanned, scan, freed⟩ := Option.bind_eq_some_iff.mp ran
  have atEnd := @Loop.range_invariant _ (gcMove device zone)
    (fun chunk state => within zone chunk state ∧
      state.cache.evictionPolicy.maxZoneChunks = run.cache.evictionPolicy.maxZoneChunks)
    run.cache.evictionPolicy.maxZoneChunks run scanned (by
      intro chunk state after below here moved
      have spec := gcMove_spec moved
      refine ⟨rule.move zone chunk state after ?_ here.1 spec, spec.maxZoneChunks.trans here.2⟩
      rw [here.2]
      exact below) scan ⟨holds, rfl⟩
  apply rule.free zone scanned next _ freed
  rw [atEnd.2]
  exact atEnd.1

theorem GcRule.loop (rule : GcRule device between within) {lowThresh : Nat} (entries : Nat) :
    ∀ {run after : GcRun Thread}, between run → gcLoop device lowThresh entries run = some after →
      between after := by
  induction entries with
  | zero =>
      intro run after holds ran
      cases Option.some.inj ran
      exact holds
  | succ entries ih =>
      intro run after holds ran
      simp only [gcLoop] at ran
      split at ran
      next =>
          cases extracted : znMinheapExtractMin run.cache.evictionPolicy.invalidPqueue with
          | none =>
              rw [extracted] at ran
              cases Option.some.inj ran
              exact holds
          | some pair =>
              rw [extracted] at ran
              obtain ⟨next, reclaimed, later⟩ := Option.bind_eq_some_iff.mp ran
              exact ih (rule.reclaim (rule.extract run _ _ holds extracted) reclaimed) later
      next =>
          cases Option.some.inj ran
          exact holds

theorem GcRule.run (rule : GcRule device between within) {config : CacheConfig}
    {cache : ChunkCache Thread} {after : GcRun Thread}
    (ran : znPolicyChunkGc config device cache = some after) (start : between ⟨cache, [], []⟩) :
    between after := by
  unfold znPolicyChunkGc at ran
  split at ran
  next =>
      cases Option.some.inj ran
      exact start
  next => exact rule.loop _ start ran

end Rule

/-- A run of the GC moves no chunk exactly when `GcMovesNothing` holds before it. -/
theorem znPolicyChunkGc_moved {config : CacheConfig} {device : GcDevice}
    {cache : ChunkCache Thread} {after : GcRun Thread}
    (ran : znPolicyChunkGc config device cache = some after) :
    after.moved = [] ↔ GcMovesNothing config device cache := by
  unfold znPolicyChunkGc at ran
  unfold GcMovesNothing
  split at ran
  next enough =>
      cases Option.some.inj ran
      simp [enough]
  next short =>
      have counted := gcLoop_moved _ ran
      rw [or_iff_right short, ← List.length_eq_zero_iff]
      exact counted

end ZNCache
