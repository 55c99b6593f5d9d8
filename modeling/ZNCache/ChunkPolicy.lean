import ZNCache.Lib.LinkedQueue
import ZNCache.MinHeap
import ZNCache.Promotional

/-!
# Chunk policy

The pool of chunk slots, their LRU queue and the heap of full zones.  A pointer to
a slot is its position in the pool; a heap entry's data is a position in
`zone_pool`.  An entry pointer that was never assigned is `none`, which the heap
turns down as it does NULL.  `holder` is the thread that keeps `policy_mutex` over
several steps.
-/

set_option autoImplicit false

namespace ZNCache

abbrev Slot := Nat × Nat

structure EvictionPolicyChunkZone where
  zoneId : Nat
  chunks : Nat → ZnPair
  chunksInUse : Nat
  filled : Bool
  pqueueEntry : Option Nat

structure ZnPolicyChunk (Thread : Type) where
  lruQueue : LinkedQueue Slot
  chunkToLruMap : Slot → Option Nat
  holder : Option Thread
  invalidPqueue : ZnMinheap
  zonePool : Nat → EvictionPolicyChunkZone
  maxZoneChunks : Nat
  totalChunks : Nat

variable {Thread : Type}

/-- The chunk case of `zn_evict_policy_init`; `total_chunks` is a `uint32_t`. -/
def chunkInit (nrZones maxZoneChunks : Nat) : ZnPolicyChunk Thread where
  lruQueue := LinkedQueue.empty
  chunkToLruMap := fun _ => none
  holder := none
  invalidPqueue := znMinheapInit nrZones
  zonePool := fun _ => ⟨0, fun _ => ⟨0, 0, 0, false⟩, 0, false, none⟩
  maxZoneChunks := maxZoneChunks
  totalChunks := u32 (nrZones * maxZoneChunks : Nat)

namespace ZnPolicyChunk

def slot (policy : ZnPolicyChunk Thread) (position : Slot) : ZnPair :=
  (policy.zonePool position.1).chunks position.2

def setZone (policy : ZnPolicyChunk Thread) (zone : Nat) (value : EvictionPolicyChunkZone) :
    ZnPolicyChunk Thread :=
  { policy with zonePool := Function.update policy.zonePool zone value }

/-- Writes a slot and adjusts its zone's count of chunks in use. -/
def setSlot (policy : ZnPolicyChunk Thread) (position : Slot) (pair : ZnPair) (count : Nat) :
    ZnPolicyChunk Thread :=
  policy.setZone position.1 { policy.zonePool position.1 with
    chunks := Function.update (policy.zonePool position.1).chunks position.2 pair
    chunksInUse := count }

end ZnPolicyChunk

open ZnPolicyChunk

/-- The `ZN_WRITE` branch up to the queue: the slot is taken into use and queued. -/
def recordChunk (policy : ZnPolicyChunk Thread) (location : ZnPair) : ZnPolicyChunk Thread :=
  let entry := policy.zonePool location.zone
  let queue := policy.lruQueue.pushTail (location.zone, location.chunkOffset)
  { policy.setZone location.zone { entry with
      zoneId := location.zone
      chunks := Function.update entry.chunks location.chunkOffset
        ⟨location.zone, location.chunkOffset, location.id, true⟩
      chunksInUse := u32 (entry.chunksInUse + 1) } with
    lruQueue := queue
    chunkToLruMap := Function.update policy.chunkToLruMap (location.zone, location.chunkOffset)
      queue.peekTailLink }

/-- The zone of a last chunk enters the heap with its count as priority. -/
def enterHeap (policy : ZnPolicyChunk Thread) (zone : Nat) : ZnPolicyChunk Thread :=
  let entry := policy.zonePool zone
  let inserted := znMinheapInsert policy.invalidPqueue zone entry.chunksInUse
  { policy.setZone zone { entry with pqueueEntry := some inserted.1, filled := true } with
    invalidPqueue := inserted.2 }

/-- Blocks while another thread keeps the policy's mutex. -/
def znPolicyChunkUpdate (policy : ZnPolicyChunk Thread) (location : ZnPair)
    (ioType : ZnIoType) : Option (ZnPolicyChunk Thread) :=
  let position := (location.zone, location.chunkOffset)
  if policy.holder.isSome then none
  else
    match ioType with
    | .write =>
        let recorded := recordChunk policy location
        if location.chunkOffset + 1 = policy.maxZoneChunks then
          some (enterHeap recorded location.zone)
        else some recorded
    | .read =>
        match policy.chunkToLruMap position with
        | none => some policy
        | some node =>
            match policy.lruQueue.data node with
            | none => none
            | some data =>
                let queue := (policy.lruQueue.deleteLink node).pushTail data
                some { policy with
                  lruQueue := queue
                  chunkToLruMap := Function.update policy.chunkToLruMap position
                    queue.peekTailLink }

/-- One pass of the eviction loop on the policy's own data; NULL from an empty queue
is dereferenced.  The slot's own fields say which slot is invalidated. -/
def evictChunk (policy : ZnPolicyChunk Thread) : Option (ZnPair × ZnPolicyChunk Thread) :=
  match policy.lruQueue.popHead with
  | none => none
  | some (position, queue) =>
      let pair := policy.slot position
      let place := (pair.zone, pair.chunkOffset)
      let count := u32 ((policy.zonePool pair.zone).chunksInUse - 1)
      let popped := { policy with
        lruQueue := queue
        chunkToLruMap := Function.update policy.chunkToLruMap position none }
      let invalid := popped.setSlot place { popped.slot place with inUse := false } count
      some (pair, { invalid with
        invalidPqueue := (znMinheapUpdateByEntry invalid.invalidPqueue
          (invalid.zonePool pair.zone).pqueueEntry count).2 })

/-- The test that sends `zn_policy_chunk_evict` back with nothing to do. -/
def enoughFreeChunks (highThresh : Nat) (policy : ZnPolicyChunk Thread) : Bool :=
  decide (policy.lruQueue.length = 0) ||
    decide (highThresh < u32 (policy.totalChunks - policy.lruQueue.length))

/-- `nr_evict`, in unsigned arithmetic. -/
def nrEvict (lowThresh : Nat) (policy : ZnPolicyChunk Thread) : Nat :=
  u32 (lowThresh - u32 (policy.totalChunks - policy.lruQueue.length))

/-- The metadata that the GC updates for a chunk it moved to `location`: the old slot
goes out of use, the new one is a copy of it in use, and is queued. -/
def moveSlot (policy : ZnPolicyChunk Thread) (source : Slot) (location : ZnPair) :
    ZnPolicyChunk Thread :=
  let target := (location.zone, location.chunkOffset)
  let left := policy.setSlot source { policy.slot source with inUse := false }
    (u32 ((policy.zonePool source.1).chunksInUse - 1))
  let entered := left.setSlot target { left.slot source with inUse := true }
    (u32 ((left.zonePool target.1).chunksInUse + 1))
  { entered with lruQueue := entered.lruQueue.pushTail target }

/-! ## What the updates leave in the slots -/

section Slots

variable (policy : ZnPolicyChunk Thread)

theorem slot_setSlot (position other : Slot) (pair : ZnPair) (count : Nat) :
    (policy.setSlot position pair count).slot other =
      if other = position then pair else policy.slot other := by
  obtain ⟨zone, chunk⟩ := other
  by_cases sameZone : zone = position.1
  · subst sameZone
    by_cases sameChunk : chunk = position.2
    · subst sameChunk
      simp [slot, setSlot, setZone]
    · simp [slot, setSlot, setZone, sameChunk, Prod.ext_iff]
  · simp [slot, setSlot, setZone, sameZone, Prod.ext_iff]

theorem slot_moveSlot (source other : Slot) (location : ZnPair) :
    (moveSlot policy source location).slot other =
      if other = (location.zone, location.chunkOffset) then
        { policy.slot source with inUse := true }
      else if other = source then { policy.slot source with inUse := false }
      else policy.slot other := by
  have entered := slot_setSlot
    (policy.setSlot source { policy.slot source with inUse := false }
      (u32 ((policy.zonePool source.1).chunksInUse - 1)))
    (location.zone, location.chunkOffset) other
  have left := slot_setSlot policy source
  simp only [moveSlot]
  apply (entered _ _).trans
  simp [left]

theorem zoneId_setSlot (position : Slot) (pair : ZnPair) (count zone : Nat) :
    ((policy.setSlot position pair count).zonePool zone).zoneId =
      (policy.zonePool zone).zoneId := by
  simp only [setSlot, setZone, Function.update_apply]
  split
  next same => rw [same]
  next => rfl

theorem pqueueEntry_setSlot (position : Slot) (pair : ZnPair) (count zone : Nat) :
    ((policy.setSlot position pair count).zonePool zone).pqueueEntry =
      (policy.zonePool zone).pqueueEntry := by
  simp only [setSlot, setZone, Function.update_apply]
  split
  next same => rw [same]
  next => rfl

theorem pqueueEntry_moveSlot (source : Slot) (location : ZnPair) (zone : Nat) :
    ((moveSlot policy source location).zonePool zone).pqueueEntry =
      (policy.zonePool zone).pqueueEntry := by
  apply (pqueueEntry_setSlot _ _ _ _ zone).trans
  exact pqueueEntry_setSlot policy source _ _ zone

theorem zoneId_moveSlot (source : Slot) (location : ZnPair) (zone : Nat) :
    ((moveSlot policy source location).zonePool zone).zoneId =
      (policy.zonePool zone).zoneId := by
  apply (zoneId_setSlot _ _ _ _ zone).trans
  exact zoneId_setSlot policy source _ _ zone

theorem zoneId_recordChunk (location : ZnPair) (zone : Nat) :
    ((recordChunk policy location).zonePool zone).zoneId =
      if zone = location.zone then location.zone else (policy.zonePool zone).zoneId := by
  by_cases same : zone = location.zone
  · simp [recordChunk, setZone, same]
  · simp [recordChunk, setZone, same]

theorem pqueueEntry_recordChunk (location : ZnPair) (zone : Nat) :
    ((recordChunk policy location).zonePool zone).pqueueEntry =
      (policy.zonePool zone).pqueueEntry := by
  by_cases same : zone = location.zone
  · simp [recordChunk, setZone, same]
  · simp [recordChunk, setZone, same]

theorem zoneId_enterHeap (zone other : Nat) :
    ((enterHeap policy zone).zonePool other).zoneId = (policy.zonePool other).zoneId := by
  by_cases same : other = zone
  · simp [enterHeap, setZone, same]
  · simp [enterHeap, setZone, same]

theorem zonePool_moveSlot {source : Slot} {location : ZnPair} {zone : Nat}
    (notSource : zone ≠ source.1) (notTarget : zone ≠ location.zone) :
    (moveSlot policy source location).zonePool zone = policy.zonePool zone := by
  simp [moveSlot, setSlot, setZone, notSource, notTarget]

end Slots

end ZNCache
