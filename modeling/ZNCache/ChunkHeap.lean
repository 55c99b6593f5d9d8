import ZNCache.ChunkCustodyRuns
import ZNCache.ChunkMetadata
import ZNCache.MinHeapQueue

/-!
# The heap of full zones

The pool and the heap point at each other, and the priority of a zone in the heap is its
count of chunks in use.  An eviction keeps the two in step for a zone that is in the heap,
and an insert needs a zone that is not.
-/

set_option autoImplicit false

namespace ZNCache

open ZnPolicyChunk ZnMinheap

variable {Thread : Type}

structure HeapTracks (policy : ZnPolicyChunk Thread) : Prop where
  sound : QueueSound policy.invalidPqueue
  entry : ∀ handle ∈ policy.invalidPqueue.arr,
    (policy.zonePool (policy.invalidPqueue.entry handle).data).pqueueEntry = some handle
  count : ∀ handle ∈ policy.invalidPqueue.arr,
    (policy.invalidPqueue.entry handle).priority =
      (policy.zonePool (policy.invalidPqueue.entry handle).data).chunksInUse

theorem ZnMinheap.mem_zones {heap : ZnMinheap} {zone : Nat} :
    zone ∈ heap.zones ↔ ∃ handle ∈ heap.arr, (heap.entry handle).data = zone := by
  simp [ZnMinheap.zones]

theorem ZnMinheap.data_mem_zones {heap : ZnMinheap} {handle : Nat} (member : handle ∈ heap.arr) :
    (heap.entry handle).data ∈ heap.zones :=
  mem_zones.mpr ⟨handle, member, rfl⟩

theorem evictChunk_heap {policy after : ZnPolicyChunk Thread} {pair : ZnPair}
    (evicted : evictChunk policy = some (pair, after)) :
    after.invalidPqueue = (znMinheapUpdateByEntry policy.invalidPqueue
        (policy.zonePool pair.zone).pqueueEntry
        (u32 ((policy.zonePool pair.zone).chunksInUse - 1))).2 ∧
      ∀ zone, (after.zonePool zone).pqueueEntry = (policy.zonePool zone).pqueueEntry := by
  unfold evictChunk at evicted
  cases popped : policy.lruQueue.popHead with
  | none => simp [popped] at evicted
  | some head =>
      obtain ⟨position, queue⟩ := head
      rw [popped] at evicted
      obtain ⟨rfl, rfl⟩ := Prod.mk.inj (Option.some.inj evicted)
      exact ⟨by simp [setSlot, setZone], pqueueEntry_setSlot policy _ _ _⟩

theorem znPolicyChunkUpdate_write {policy after : ZnPolicyChunk Thread} {location : ZnPair}
    (updated : znPolicyChunkUpdate policy location .write = some after) :
    after = if location.chunkOffset + 1 = policy.maxZoneChunks then
        enterHeap (recordChunk policy location) location.zone
      else recordChunk policy location := by
  unfold znPolicyChunkUpdate at updated
  dsimp only at updated
  split at updated
  next => cases updated
  next =>
      split at updated
      next last =>
          rw [if_pos last]
          exact (Option.some.inj updated).symm
      next notLast =>
          rw [if_neg notLast]
          exact (Option.some.inj updated).symm

theorem znPolicyChunkUpdate_max {policy after : ZnPolicyChunk Thread} {location : ZnPair}
    (updated : znPolicyChunkUpdate policy location .write = some after) :
    after.maxZoneChunks = policy.maxZoneChunks := by
  rw [znPolicyChunkUpdate_write updated]
  split <;> rfl

theorem znPolicyChunkUpdate_heap {policy updated : ZnPolicyChunk Thread} {location : ZnPair}
    (allocated : policy.invalidPqueue.Allocated)
    (ran : znPolicyChunkUpdate policy location .write = some updated) (zone : Nat) :
    zone ∈ updated.invalidPqueue.zones ↔ zone ∈ policy.invalidPqueue.zones ∨
      location.chunkOffset + 1 = policy.maxZoneChunks ∧ zone = location.zone := by
  rw [znPolicyChunkUpdate_write ran]
  split
  next last =>
      have entered := (allocated.zones_insert location.zone
        ((recordChunk policy location).zonePool location.zone).chunksInUse).1
      have same :
          zone ∈ (enterHeap (recordChunk policy location) location.zone).invalidPqueue.zones ↔
            zone ∈ location.zone :: policy.invalidPqueue.zones := entered.mem_iff
      rw [same, List.mem_cons]
      simp [last, or_comm]
  next notLast => simp [notLast, recordChunk, ZnPolicyChunk.setZone]

/-- A pass levels the entry that the pointer of its zone names. -/
theorem evictChunk_entries {policy after : ZnPolicyChunk Thread} {pair : ZnPair} {handle : Nat}
    (sound : QueueSound policy.invalidPqueue) (fits : policy.invalidPqueue.size < 2 ^ 31)
    (member : handle ∈ policy.invalidPqueue.arr)
    (points : (policy.zonePool pair.zone).pqueueEntry = some handle)
    (evicted : evictChunk policy = some (pair, after)) :
    QueueSound after.invalidPqueue ∧ after.invalidPqueue.arr.Perm policy.invalidPqueue.arr ∧
      (∀ other, (after.invalidPqueue.entry other).data =
        (policy.invalidPqueue.entry other).data) ∧
      ∀ other, (after.invalidPqueue.entry other).priority =
        if other = handle then (after.zonePool pair.zone).chunksInUse
        else (policy.invalidPqueue.entry other).priority := by
  obtain ⟨heap, _⟩ := evictChunk_heap evicted
  obtain ⟨_, _, _, _, _, _, _, _, counts⟩ := evictChunk_spec evicted
  obtain ⟨updated, moved⟩ := sound.update fits member
    (u32 ((policy.zonePool pair.zone).chunksInUse - 1))
  rw [points] at heap
  rw [← heap] at updated moved
  refine ⟨updated, moved.handles, fun other => ?_, fun other => ?_⟩
  · exact (moved.data other).trans (reprioritized_entry other).2.1
  · rw [counts, if_pos rfl]
    exact (moved.priority other).trans (reprioritized_entry other).2.2

namespace HeapTracks

variable {policy after : ZnPolicyChunk Thread}

theorem init {nrZones : Nat} (positive : 1 ≤ nrZones) (maxZoneChunks : Nat) :
    HeapTracks (chunkInit nrZones maxZoneChunks : ZnPolicyChunk Thread) where
  sound := QueueSound.init positive
  entry := fun _ member => absurd member List.not_mem_nil
  count := fun _ member => absurd member List.not_mem_nil

theorem congr (tracks : HeapTracks policy) (sameHeap : after.invalidPqueue = policy.invalidPqueue)
    (samePool : ∀ zone ∈ policy.invalidPqueue.zones,
      (after.zonePool zone).pqueueEntry = (policy.zonePool zone).pqueueEntry ∧
        (after.zonePool zone).chunksInUse = (policy.zonePool zone).chunksInUse) :
    HeapTracks after := by
  refine ⟨sameHeap ▸ tracks.sound, fun handle member => ?_, fun handle member => ?_⟩
  · rw [sameHeap] at member ⊢
    rw [(samePool _ (data_mem_zones member)).1]
    exact tracks.entry handle member
  · rw [sameHeap] at member ⊢
    rw [(samePool _ (data_mem_zones member)).2]
    exact tracks.count handle member

theorem extractMin (tracks : HeapTracks policy) (fits : policy.invalidPqueue.size < 2 ^ 31)
    {handle : Nat} {heap : ZnMinheap}
    (extracted : znMinheapExtractMin policy.invalidPqueue = some (handle, heap)) :
    HeapTracks { policy with invalidPqueue := heap } ∧
      ∀ zone ∈ heap.zones, (policy.zonePool (heap.entry handle).data).chunksInUse ≤
        (policy.zonePool zone).chunksInUse := by
  obtain ⟨handles, data, priority, _⟩ := extractMin_spec extracted
  obtain ⟨sound, root⟩ := tracks.sound.extractMin fits extracted
  have inside : ∀ other ∈ heap.arr, other ∈ policy.invalidPqueue.arr := fun other member =>
    handles.mem_iff.mpr (List.mem_cons_of_mem _ member)
  have first : handle ∈ policy.invalidPqueue.arr := handles.mem_iff.mpr List.mem_cons_self
  refine ⟨⟨sound, fun other member => ?_, fun other member => ?_⟩, fun zone member => ?_⟩
  · simp only [data]
    exact tracks.entry other (inside other member)
  · simp only [data, priority]
    exact tracks.count other (inside other member)
  · obtain ⟨other, here, rfl⟩ := mem_zones.mp member
    have least := tracks.sound.root_le (inside other here)
    rw [root, tracks.count handle first, tracks.count other (inside other here)] at least
    rw [data, data]
    exact least

theorem recordChunk (tracks : HeapTracks policy) {location : ZnPair}
    (outside : location.zone ∉ policy.invalidPqueue.zones) :
    HeapTracks (ZNCache.recordChunk policy location) := by
  refine tracks.congr rfl fun zone member => ?_
  have apart : zone ≠ location.zone := fun same => outside (same ▸ member)
  simp [ZNCache.recordChunk, setZone, apart]

theorem enterHeap (tracks : HeapTracks policy) {zone : Nat}
    (outside : zone ∉ policy.invalidPqueue.zones)
    (fits : policy.invalidPqueue.size + 1 < 2 ^ 31) :
    HeapTracks (ZNCache.enterHeap policy zone) := by
  obtain ⟨new, handles, newData, oldData, _⟩ := insert_spec policy.invalidPqueue zone
    (policy.zonePool zone).chunksInUse
  obtain ⟨sound, newPriority, oldPriority⟩ := tracks.sound.insert fits zone
    (policy.zonePool zone).chunksInUse
  have old : ∀ handle ∈ policy.invalidPqueue.arr,
      (policy.invalidPqueue.entry handle).data ≠ zone ∧ handle ≠ policy.invalidPqueue.fresh := by
    intro handle member
    refine ⟨fun same => outside (same ▸ data_mem_zones member), tracks.sound.allocated.ne_fresh member⟩
  refine ⟨sound, fun handle member => ?_, fun handle member => ?_⟩
  · rcases List.mem_cons.mp (handles.mem_iff.mp member) with rfl | before
    · simp [ZNCache.enterHeap, setZone, newData, new]
    · obtain ⟨apart, notFresh⟩ := old handle before
      simp [ZNCache.enterHeap, setZone, oldData handle notFresh, apart,
        tracks.entry handle before]
  · rcases List.mem_cons.mp (handles.mem_iff.mp member) with rfl | before
    · simp [ZNCache.enterHeap, setZone, newData, newPriority]
    · obtain ⟨apart, notFresh⟩ := old handle before
      simp [ZNCache.enterHeap, setZone, oldData handle notFresh, oldPriority handle notFresh,
        apart, tracks.count handle before]

theorem evictChunk (tracks : HeapTracks policy) {pair : ZnPair}
    (inHeap : pair.zone ∈ policy.invalidPqueue.zones)
    (once : policy.invalidPqueue.zones.Nodup)
    (fits : policy.invalidPqueue.size < 2 ^ 31)
    (evicted : ZNCache.evictChunk policy = some (pair, after)) : HeapTracks after := by
  obtain ⟨_, entries⟩ := evictChunk_heap evicted
  obtain ⟨_, _, _, _, _, _, _, _, counts⟩ := evictChunk_spec evicted
  obtain ⟨handle, member, here⟩ := mem_zones.mp inHeap
  have entry := tracks.entry handle member
  rw [here] at entry
  obtain ⟨sound, handles, data, priority⟩ :=
    evictChunk_entries tracks.sound fits member entry evicted
  have inside : ∀ other ∈ after.invalidPqueue.arr, other ∈ policy.invalidPqueue.arr :=
    fun other within => handles.mem_iff.mp within
  refine ⟨sound, fun other within => ?_, fun other within => ?_⟩
  · rw [data, entries]
    exact tracks.entry other (inside other within)
  · rw [data, priority]
    by_cases same : other = handle
    · subst same
      rw [if_pos rfl, here]
    · have apart : (policy.invalidPqueue.entry other).data ≠ pair.zone := by
        intro sameZone
        apply same
        exact List.inj_on_of_nodup_map once (inside other within) member (sameZone.trans here.symm)
      rw [if_neg same, counts, if_neg apart]
      exact tracks.count other (inside other within)

end HeapTracks

end ZNCache
