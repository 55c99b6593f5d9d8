import Mathlib.Data.Finset.Prod
import ZNCache.ChunkGcZones

/-!
# The policy's own metadata

`ChunkMetadata` ties the LRU queue, the slots, their node map and the zone counters
together.  The GC queues the new slot of a chunk that it moves but leaves the old
slot in the queue, so a run that moves chunks always outgrows the slots in use.
-/

set_option autoImplicit false

namespace ZNCache

open ZnPolicyChunk

variable {Thread : Type}

def ZnPolicyChunk.liveSlots (nrZones : Nat) (policy : ZnPolicyChunk Thread) : Finset Slot :=
  (Finset.range nrZones ×ˢ Finset.range policy.maxZoneChunks).filter fun position =>
    (policy.slot position).inUse

theorem mem_liveSlots {nrZones : Nat} {policy : ZnPolicyChunk Thread} {position : Slot} :
    position ∈ policy.liveSlots nrZones ↔
      (position.1 < nrZones ∧ position.2 < policy.maxZoneChunks) ∧
        (policy.slot position).inUse = true := by
  simp [liveSlots]

def ZnPolicyChunk.usedChunks (policy : ZnPolicyChunk Thread) (zone : Nat) : Finset Nat :=
  (Finset.range policy.maxZoneChunks).filter fun chunk => (policy.slot (zone, chunk)).inUse

theorem mem_usedChunks {policy : ZnPolicyChunk Thread} {zone chunk : Nat} :
    chunk ∈ policy.usedChunks zone ↔
      chunk < policy.maxZoneChunks ∧ (policy.slot (zone, chunk)).inUse = true := by
  simp [usedChunks]

structure ChunkMetadata (nrZones : Nat) (policy : ZnPolicyChunk Thread) : Prop where
  queued : ∀ position, position ∈ policy.lruQueue.items ↔ position ∈ policy.liveSlots nrZones
  once : policy.lruQueue.items.Nodup
  ownPlace : ∀ position ∈ policy.liveSlots nrZones,
    (policy.slot position).zone = position.1 ∧
      (policy.slot position).chunkOffset = position.2
  mapped : LinkedQueue.Tracks policy.chunkToLruMap policy.lruQueue
  counted : ∀ zone < nrZones,
    (policy.zonePool zone).chunksInUse = (policy.usedChunks zone).card

def EvictsQueuedSlot (policy : ZnPolicyChunk Thread) : Prop :=
  ∀ position ∈ policy.lruQueue.items,
    ((policy.slot position).zone, (policy.slot position).chunkOffset) = position

namespace ChunkMetadata

variable {nrZones : Nat} {policy : ZnPolicyChunk Thread}

theorem init (nrZones maxZoneChunks : Nat) :
    ChunkMetadata nrZones (chunkInit nrZones maxZoneChunks : ZnPolicyChunk Thread) where
  queued := by simp [chunkInit, mem_liveSlots, slot]
  once := by simp [chunkInit]
  ownPlace := by simp [chunkInit, mem_liveSlots, slot]
  mapped := LinkedQueue.Tracks.empty
  counted := by simp [chunkInit, usedChunks, slot]

theorem length_eq (metadata : ChunkMetadata nrZones policy) :
    policy.lruQueue.length = (policy.liveSlots nrZones).card := by
  have sameSlots : policy.lruQueue.items.toFinset = policy.liveSlots nrZones := by
    ext position
    rw [List.mem_toFinset, metadata.queued]
  rw [LinkedQueue.length_eq, ← sameSlots, List.toFinset_card_of_nodup metadata.once]

theorem length_le (metadata : ChunkMetadata nrZones policy) :
    policy.lruQueue.length ≤ nrZones * policy.maxZoneChunks := by
  rw [metadata.length_eq]
  apply (Finset.card_filter_le _ _).trans
  simp

theorem evictsQueuedSlot (metadata : ChunkMetadata nrZones policy) :
    EvictsQueuedSlot policy := by
  intro position queued
  have own := metadata.ownPlace position ((metadata.queued position).mp queued)
  exact Prod.ext own.1 own.2

theorem setHeap (metadata : ChunkMetadata nrZones policy) (heap : ZnMinheap) :
    ChunkMetadata nrZones { policy with invalidPqueue := heap } :=
  ⟨metadata.queued, metadata.once, metadata.ownPlace, metadata.mapped, metadata.counted⟩

end ChunkMetadata

/-! ## Updates and evictions -/

section Flags

variable {nrZones : Nat} {policy after : ZnPolicyChunk Thread} {position : Slot} {flag : Bool}

def FlagsSet (policy : ZnPolicyChunk Thread) (position : Slot) (flag : Bool)
    (after : ZnPolicyChunk Thread) : Prop :=
  after.maxZoneChunks = policy.maxZoneChunks ∧
    ∀ other, (after.slot other).inUse =
      if other = position then flag else (policy.slot other).inUse

theorem FlagsSet.usedChunks_ne (flags : FlagsSet policy position flag after) {zone : Nat}
    (apart : zone ≠ position.1) : after.usedChunks zone = policy.usedChunks zone := by
  ext chunk
  have elsewhere : (zone, chunk) ≠ position := fun same => apart (congrArg Prod.fst same)
  rw [mem_usedChunks, mem_usedChunks, flags.1, flags.2, if_neg elsewhere]

theorem FlagsSet.usedChunks_insert (flags : FlagsSet policy position true after)
    (inside : position.2 < policy.maxZoneChunks) :
    after.usedChunks position.1 = insert position.2 (policy.usedChunks position.1) := by
  ext chunk
  rw [Finset.mem_insert, mem_usedChunks, mem_usedChunks, flags.1, flags.2]
  by_cases same : chunk = position.2
  · subst same
    simp [inside]
  · have elsewhere : (position.1, chunk) ≠ position := fun eq => same (congrArg Prod.snd eq)
    simp [elsewhere, same]

theorem FlagsSet.usedChunks_erase (flags : FlagsSet policy position false after) :
    after.usedChunks position.1 = (policy.usedChunks position.1).erase position.2 := by
  ext chunk
  rw [Finset.mem_erase, mem_usedChunks, mem_usedChunks, flags.1, flags.2]
  by_cases same : chunk = position.2
  · subst same
    simp
  · have elsewhere : (position.1, chunk) ≠ position := fun eq => same (congrArg Prod.snd eq)
    simp [elsewhere, same]

theorem FlagsSet.liveSlots_insert (flags : FlagsSet policy position true after)
    (inPool : position.1 < nrZones ∧ position.2 < policy.maxZoneChunks) :
    after.liveSlots nrZones = insert position (policy.liveSlots nrZones) := by
  ext other
  rw [Finset.mem_insert, mem_liveSlots, mem_liveSlots, flags.1, flags.2]
  by_cases same : other = position
  · subst same
    simp [inPool]
  · simp [same]

theorem FlagsSet.liveSlots_erase (flags : FlagsSet policy position false after) :
    after.liveSlots nrZones = (policy.liveSlots nrZones).erase position := by
  ext other
  rw [Finset.mem_erase, mem_liveSlots, mem_liveSlots, flags.1, flags.2]
  by_cases same : other = position
  · subst same
    simp
  · simp [same]

end Flags

section Updates

variable (policy : ZnPolicyChunk Thread)

theorem slot_recordChunk (location : ZnPair) (other : Slot) :
    (recordChunk policy location).slot other =
      if other = (location.zone, location.chunkOffset) then
        ⟨location.zone, location.chunkOffset, location.id, true⟩
      else policy.slot other := by
  obtain ⟨zone, chunk⟩ := other
  by_cases sameZone : zone = location.zone
  · subst sameZone
    by_cases sameChunk : chunk = location.chunkOffset
    · subst sameChunk
      simp [slot, recordChunk, setZone]
    · simp [slot, recordChunk, setZone, sameChunk]
  · simp [slot, recordChunk, setZone, sameZone]

theorem slot_enterHeap (zone : Nat) (other : Slot) :
    (enterHeap policy zone).slot other = policy.slot other := by
  by_cases same : other.1 = zone
  · simp [slot, enterHeap, setZone, same]
  · simp [slot, enterHeap, setZone, same]

theorem chunksInUse_enterHeap (zone other : Nat) :
    ((enterHeap policy zone).zonePool other).chunksInUse =
      (policy.zonePool other).chunksInUse := by
  by_cases same : other = zone
  · simp [enterHeap, setZone, same]
  · simp [enterHeap, setZone, same]

theorem evictChunk_spec {policy after : ZnPolicyChunk Thread} {pair : ZnPair}
    (evicted : evictChunk policy = some (pair, after)) :
    ∃ position queue, policy.lruQueue.popHead = some (position, queue) ∧
      pair = policy.slot position ∧ after.lruQueue = queue ∧
      after.chunkToLruMap = Function.update policy.chunkToLruMap position none ∧
      after.maxZoneChunks = policy.maxZoneChunks ∧
      (∀ other, after.slot other =
        if other = (pair.zone, pair.chunkOffset) then
          { policy.slot (pair.zone, pair.chunkOffset) with inUse := false }
        else policy.slot other) ∧
      ∀ zone, (after.zonePool zone).chunksInUse =
        if zone = pair.zone then u32 ((policy.zonePool pair.zone).chunksInUse - 1)
        else (policy.zonePool zone).chunksInUse := by
  unfold evictChunk at evicted
  cases popped : policy.lruQueue.popHead with
  | none => simp [popped] at evicted
  | some head =>
      obtain ⟨position, queue⟩ := head
      rw [popped] at evicted
      obtain ⟨rfl, rfl⟩ := Prod.mk.inj (Option.some.inj evicted)
      refine ⟨position, queue, rfl, rfl, rfl, rfl, rfl, fun other => ?_, fun zone => ?_⟩
      · exact slot_setSlot policy _ other _ _
      · simp only [setSlot, setZone, Function.update_apply]
        split
        next => simp
        next => rfl

end Updates

namespace ChunkMetadata

variable {nrZones : Nat} {policy after : ZnPolicyChunk Thread}

theorem count_le (metadata : ChunkMetadata nrZones policy) {zone : Nat}
    (below : zone < nrZones) : (policy.zonePool zone).chunksInUse ≤ policy.maxZoneChunks := by
  rw [metadata.counted zone below]
  apply (Finset.card_filter_le _ _).trans
  simp

theorem recordChunk (metadata : ChunkMetadata nrZones policy) {location : ZnPair}
    (inPool : location.zone < nrZones ∧ location.chunkOffset < policy.maxZoneChunks)
    (unused : (policy.slot (location.zone, location.chunkOffset)).inUse = false)
    (fits : policy.maxZoneChunks < 2 ^ 32) :
    ChunkMetadata nrZones (ZNCache.recordChunk policy location) := by
  have flags : FlagsSet policy (location.zone, location.chunkOffset) true
      (ZNCache.recordChunk policy location) := by
    refine ⟨rfl, fun other => ?_⟩
    rw [slot_recordChunk]
    split <;> rfl
  have live := flags.liveSlots_insert inPool
  have absent : (location.zone, location.chunkOffset) ∉ policy.lruQueue.items := by
    rw [metadata.queued, mem_liveSlots, unused]
    simp
  have items : (ZNCache.recordChunk policy location).lruQueue.items =
      policy.lruQueue.items ++ [(location.zone, location.chunkOffset)] :=
    LinkedQueue.items_pushTail _ _
  constructor
  · intro position
    rw [items, live, List.mem_append, List.mem_singleton, Finset.mem_insert, metadata.queued]
    exact Or.comm
  · rw [items]
    exact metadata.once.append (List.nodup_singleton _) (by simpa using absent)
  · intro position member
    rw [slot_recordChunk]
    split
    next here => exact ⟨congrArg Prod.fst here.symm, congrArg Prod.snd here.symm⟩
    next elsewhere =>
        rw [live, Finset.mem_insert] at member
        exact metadata.ownPlace position (member.resolve_left elsewhere)
  · have pushed := metadata.mapped.push absent
    simpa [ZNCache.recordChunk] using pushed
  · intro zone below
    by_cases same : zone = location.zone
    · subst same
      have notUsed : location.chunkOffset ∉ policy.usedChunks location.zone := by
        rw [mem_usedChunks, unused]
        simp
      rw [flags.usedChunks_insert inPool.2, Finset.card_insert_of_notMem notUsed,
        ← metadata.counted _ below]
      have inside : insert location.chunkOffset (policy.usedChunks location.zone) ⊆
          Finset.range policy.maxZoneChunks :=
        Finset.insert_subset (Finset.mem_range.mpr inPool.2) (Finset.filter_subset _ _)
      have atMost := Finset.card_le_card inside
      rw [Finset.card_insert_of_notMem notUsed, Finset.card_range,
        ← metadata.counted _ below] at atMost
      simp only [ZNCache.recordChunk, setZone, Function.update_self]
      exact_mod_cast u32_of_nat (by omega)
    · rw [flags.usedChunks_ne same, ← metadata.counted zone below]
      simp [ZNCache.recordChunk, setZone, same]

theorem enterHeap (metadata : ChunkMetadata nrZones policy) (zone : Nat) :
    ChunkMetadata nrZones (ZNCache.enterHeap policy zone) := by
  have flags : ∀ other, (ZNCache.enterHeap policy zone).usedChunks other =
      policy.usedChunks other := by
    intro other
    ext chunk
    rw [mem_usedChunks, mem_usedChunks, slot_enterHeap]
    rfl
  have live : (ZNCache.enterHeap policy zone).liveSlots nrZones = policy.liveSlots nrZones := by
    ext position
    rw [mem_liveSlots, mem_liveSlots, slot_enterHeap]
    rfl
  constructor
  · intro position
    rw [live]
    exact metadata.queued position
  · exact metadata.once
  · intro position member
    rw [live] at member
    rw [slot_enterHeap]
    exact metadata.ownPlace position member
  · exact metadata.mapped
  · intro other below
    rw [chunksInUse_enterHeap, flags]
    exact metadata.counted other below

theorem update_write (metadata : ChunkMetadata nrZones policy) {location : ZnPair}
    (inPool : location.zone < nrZones ∧ location.chunkOffset < policy.maxZoneChunks)
    (unused : (policy.slot (location.zone, location.chunkOffset)).inUse = false)
    (fits : policy.maxZoneChunks < 2 ^ 32)
    (updated : znPolicyChunkUpdate policy location .write = some after) :
    ChunkMetadata nrZones after := by
  have recorded := metadata.recordChunk inPool unused fits
  unfold znPolicyChunkUpdate at updated
  dsimp only at updated
  split at updated
  next => simp at updated
  next =>
      split at updated
      next =>
          cases Option.some.inj updated
          exact recorded.enterHeap location.zone
      next =>
          cases Option.some.inj updated
          exact recorded

theorem update_read (metadata : ChunkMetadata nrZones policy) {location : ZnPair}
    (updated : znPolicyChunkUpdate policy location .read = some after) :
    ChunkMetadata nrZones after := by
  unfold znPolicyChunkUpdate at updated
  dsimp only at updated
  split at updated
  next => simp at updated
  next =>
      cases mapped : policy.chunkToLruMap (location.zone, location.chunkOffset) with
      | none =>
          rw [mapped] at updated
          cases Option.some.inj updated
          exact metadata
      | some node =>
          rw [mapped] at updated
          simp only [metadata.mapped.data mapped, Option.some.injEq] at updated
          subst updated
          have same := metadata.mapped.touch_perm mapped
          refine ⟨fun position => ?_, same.nodup_iff.mpr metadata.once, metadata.ownPlace, ?_,
            metadata.counted⟩
          · rw [same.mem_iff]
            exact metadata.queued position
          · simpa using (metadata.mapped.touch mapped).1

/-- One pass of the eviction loop takes the head of the queue, which is in use, and
invalidates that slot. -/
theorem evictChunk (metadata : ChunkMetadata nrZones policy) {pair : ZnPair}
    (fits : policy.maxZoneChunks < 2 ^ 32)
    (evicted : ZNCache.evictChunk policy = some (pair, after)) :
    ChunkMetadata nrZones after ∧
      policy.lruQueue.items = (pair.zone, pair.chunkOffset) :: after.lruQueue.items ∧
      pair = policy.slot (pair.zone, pair.chunkOffset) := by
  obtain ⟨position, queue, popped, rfl, sameQueue, sameMap, sameMax, slots, counts⟩ :=
    evictChunk_spec evicted
  have items := LinkedQueue.popHead_items popped
  have live := (metadata.queued position).mp (by simp [items])
  obtain ⟨ownZone, ownChunk⟩ := metadata.ownPlace position live
  have own : ((policy.slot position).zone, (policy.slot position).chunkOffset) = position :=
    Prod.ext ownZone ownChunk
  rw [own] at slots ⊢
  rw [ownZone] at counts
  have flags : FlagsSet policy position false after := by
    refine ⟨sameMax, fun other => ?_⟩
    rw [slots]
    split <;> rfl
  have once := metadata.once
  rw [items, List.nodup_cons] at once
  have others : after.liveSlots nrZones = (policy.liveSlots nrZones).erase position :=
    flags.liveSlots_erase
  refine ⟨⟨fun other => ?_, ?_, fun other member => ?_, ?_, fun zone below => ?_⟩, ?_, rfl⟩
  · rw [others, sameQueue, Finset.mem_erase, ← metadata.queued, items, List.mem_cons]
    constructor
    · intro member
      exact ⟨fun same => once.1 (same ▸ member), .inr member⟩
    · intro given
      obtain ⟨apart, member⟩ := given
      exact member.resolve_left apart
  · rw [sameQueue]
    exact once.2
  · rw [others, Finset.mem_erase] at member
    rw [slots, if_neg member.1]
    exact metadata.ownPlace other member.2
  · rw [sameMap, sameQueue]
    exact metadata.mapped.pop popped
  · rw [counts]
    by_cases same : zone = position.1
    · subst same
      have used : position.2 ∈ policy.usedChunks position.1 :=
        mem_usedChunks.mpr ⟨(mem_liveSlots.mp live).1.2, (mem_liveSlots.mp live).2⟩
      have positive := Finset.card_pos.mpr ⟨_, used⟩
      have counted := metadata.counted position.1 below
      have atMost := metadata.count_le below
      rw [if_pos rfl, flags.usedChunks_erase, Finset.card_erase_of_mem used, ← counted]
      rw [← counted] at positive
      have fewer : ((policy.zonePool position.1).chunksInUse : Int) - 1 =
          ((policy.zonePool position.1).chunksInUse - 1 : Nat) := by omega
      rw [fewer]
      exact u32_of_nat (by omega)
    · rw [if_neg same, flags.usedChunks_ne same]
      exact metadata.counted zone below
  · rw [sameQueue]
    exact items

end ChunkMetadata

/-- A move takes one slot out of use and at most one into use. -/
theorem liveSlots_moveSlot {nrZones : Nat} {policy : ZnPolicyChunk Thread} {source : Slot}
    (live : source ∈ policy.liveSlots nrZones) (location : ZnPair) :
    ((moveSlot policy source location).liveSlots nrZones).card ≤
      (policy.liveSlots nrZones).card := by
  have inside : (moveSlot policy source location).liveSlots nrZones ⊆
      insert (location.zone, location.chunkOffset)
        ((policy.liveSlots nrZones).erase source) := by
    intro position member
    rw [mem_liveSlots, slot_moveSlot] at member
    rw [Finset.mem_insert, Finset.mem_erase]
    by_cases target : position = (location.zone, location.chunkOffset)
    · exact .inl target
    · rw [if_neg target] at member
      by_cases same : position = source
      · simp [same] at member
      · rw [if_neg same] at member
        exact .inr ⟨same, mem_liveSlots.mpr member⟩
  have bound := (Finset.card_le_card inside).trans (Finset.card_insert_le _ _)
  rw [Finset.card_erase_of_mem live] at bound
  have positive := Finset.card_pos.mpr ⟨source, live⟩
  omega

/-! ## The GC -/

def HeapInPool (nrZones : Nat) (heap : ZnMinheap) : Prop :=
  ∀ handle ∈ heap.arr, (heap.entry handle).data < nrZones

theorem HeapInPool.extractMin {nrZones handle : Nat} {heap rest : ZnMinheap}
    (inPool : HeapInPool nrZones heap)
    (extracted : znMinheapExtractMin heap = some (handle, rest)) :
    (rest.entry handle).data < nrZones ∧ HeapInPool nrZones rest := by
  obtain ⟨handles, data, _, _⟩ := ZnMinheap.extractMin_spec extracted
  constructor
  · rw [data]
    exact inPool handle (handles.mem_iff.mpr List.mem_cons_self)
  · intro other member
    rw [data]
    exact inPool other (handles.mem_iff.mpr (List.mem_cons_of_mem _ member))

structure QueueGrowth (nrZones : Nat) (base : ZnPolicyChunk Thread) (run : GcRun Thread) :
    Prop where
  inPool : HeapInPool nrZones run.cache.evictionPolicy.invalidPqueue
  sameMax : run.cache.evictionPolicy.maxZoneChunks = base.maxZoneChunks
  longer : run.cache.evictionPolicy.lruQueue.length =
    base.lruQueue.length + run.moved.length
  noMoreLive : (run.cache.evictionPolicy.liveSlots nrZones).card ≤
    (base.liveSlots nrZones).card
  untouched : run.moved = [] →
    ∃ heap, run.cache.evictionPolicy = { base with invalidPqueue := heap }

theorem queueGrowth_rule (device : GcDevice) (nrZones : Nat) (base : ZnPolicyChunk Thread) :
    GcRule device (QueueGrowth nrZones base)
      (fun zone _ run => zone < nrZones ∧ QueueGrowth nrZones base run) where
  extract := by
    intro run handle heap growth extracted
    obtain ⟨below, inPool⟩ := growth.inPool.extractMin extracted
    refine ⟨below, inPool, growth.sameMax, growth.longer, growth.noMoreLive, ?_⟩
    intro none
    obtain ⟨_, same⟩ := growth.untouched none
    refine ⟨heap, ?_⟩
    simp [ChunkCache.setHeap, ChunkCache.setPolicy, same]
  move := by
    intro zone chunk run next inZone given moved
    obtain ⟨below, growth⟩ := given
    cases moved with
    | skip => exact ⟨below, growth⟩
    | moved location answer used handed inserted =>
        have live : (zone, chunk) ∈ run.cache.evictionPolicy.liveSlots nrZones :=
          mem_liveSlots.mpr ⟨⟨below, inZone⟩, used⟩
        have pushed : (moveSlot run.cache.evictionPolicy (zone, chunk) location).lruQueue.length =
            run.cache.evictionPolicy.lruQueue.length + 1 := by
          simp [moveSlot, setSlot, setZone, LinkedQueue.length, LinkedQueue.pushTail]
        refine ⟨below, growth.inPool, growth.sameMax, ?_,
          (liveSlots_moveSlot live location).trans growth.noMoreLive, by simp⟩
        simp only [pushed, growth.longer, List.length_append, List.length_singleton]
        omega
  free := by
    intro zone run next given freed
    obtain ⟨_, growth⟩ := given
    obtain ⟨answer, _, rfl⟩ := gcFree_spec freed
    exact ⟨growth.inPool, growth.sameMax, growth.longer, growth.noMoreLive, growth.untouched⟩

theorem znPolicyChunkGc_growth {config : CacheConfig} {device : GcDevice}
    {cache : ChunkCache Thread} {after : GcRun Thread} {nrZones : Nat}
    (inPool : HeapInPool nrZones cache.evictionPolicy.invalidPqueue)
    (ran : znPolicyChunkGc config device cache = some after) :
    QueueGrowth nrZones cache.evictionPolicy after :=
  (queueGrowth_rule device nrZones cache.evictionPolicy).run ran
    ⟨inPool, rfl, by simp, Nat.le_refl _, fun _ => ⟨_, rfl⟩⟩

/-- The metadata survives exactly the runs of the GC that move nothing. -/
theorem gc_keepsMetadata {config : CacheConfig} {device : GcDevice}
    {cache : ChunkCache Thread} {after : GcRun Thread}
    (metadata : ChunkMetadata config.nrZones cache.evictionPolicy)
    (inPool : HeapInPool config.nrZones cache.evictionPolicy.invalidPqueue)
    (ran : znPolicyChunkGc config device cache = some after) :
    (ChunkMetadata config.nrZones after.cache.evictionPolicy ∧
      after.cache.evictionPolicy.lruQueue.length ≤
        config.nrZones * after.cache.evictionPolicy.maxZoneChunks ∧
      EvictsQueuedSlot after.cache.evictionPolicy) ↔
    GcMovesNothing config device cache := by
  have growth := znPolicyChunkGc_growth inPool ran
  rw [← znPolicyChunkGc_moved ran]
  constructor
  · intro given
    obtain ⟨kept, _, _⟩ := given
    have before := metadata.length_eq
    have later := kept.length_eq
    have longer := growth.longer
    have noMoreLive := growth.noMoreLive
    apply List.length_eq_zero_iff.mp
    omega
  · intro none
    obtain ⟨heap, same⟩ := growth.untouched none
    have kept : ChunkMetadata config.nrZones after.cache.evictionPolicy := by
      rw [same]
      exact metadata.setHeap heap
    exact ⟨kept, kept.length_le, kept.evictsQueuedSlot⟩

theorem metadata_afterFirstMiss : ChunkMetadata 2 afterFirstMiss.evictionPolicy := by
  apply ChunkMetadata.enterHeap
  apply (ChunkMetadata.init 2 1).recordChunk <;> decide

theorem gc_breaksMetadata_ofMovedChunk :
    ChunkMetadata 2 afterFirstMiss.evictionPolicy ∧
      ∃ after, znPolicyChunkGc twoZoneConfig .smooth afterFirstMiss = some after ∧
        ¬ ChunkMetadata 2 after.cache.evictionPolicy := by
  refine ⟨metadata_afterFirstMiss, _, rfl, fun kept => ?_⟩
  have length := kept.length_eq
  revert length
  decide

theorem gc_keepsMetadata_idle :
    ∃ after, znPolicyChunkGc twoZoneConfig .smooth afterFirstEviction = some after ∧
      after.reclaimed = [0] ∧
      ((ChunkMetadata twoZoneConfig.nrZones after.cache.evictionPolicy ∧
        after.cache.evictionPolicy.lruQueue.length ≤
          twoZoneConfig.nrZones * after.cache.evictionPolicy.maxZoneChunks ∧
        EvictsQueuedSlot after.cache.evictionPolicy) ↔
      GcMovesNothing twoZoneConfig .smooth afterFirstEviction) := by
  have evicted : evictChunk afterFirstMiss.evictionPolicy =
      some (⟨0, 0, 0, true⟩, afterFirstEviction.evictionPolicy) := rfl
  have metadata := (metadata_afterFirstMiss.evictChunk (by decide) evicted).1
  have inPool : HeapInPool 2 afterFirstEviction.evictionPolicy.invalidPqueue := by
    unfold HeapInPool
    decide
  obtain ⟨after, ran, reclaimed⟩ :
      ∃ after, znPolicyChunkGc twoZoneConfig .smooth afterFirstEviction = some after ∧
        after.reclaimed = [0] := ⟨_, rfl, rfl⟩
  exact ⟨after, ran, reclaimed, gc_keepsMetadata metadata inPool ran⟩

end ZNCache
