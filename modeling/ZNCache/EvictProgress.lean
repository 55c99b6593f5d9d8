import ZNCache.GcProgress
import ZNCache.SoloChunk

/-!
# Whether an eviction unblocks a full cache

A single thread finds every zone full and evicts.  The eviction pops chunks from the
queue and the GC moves what stays.  From the queue, the pool and the cache map alone one
can tell whether this leaves a zone to hand out.
-/

set_option autoImplicit false

namespace ZNCache

open ZnPolicyChunk ZnMinheap Transition

def LowAt (cache : ChunkCache Unit) (place : Slot) : Prop :=
  ∀ id, (cache.cacheMap.dataMap place.1).lookup place.2 = some id → id < 2 ^ 31

/-- The GC can give the places that stay in the queue locations of their own: either
it meets the low mark with zones that nothing stays in, or there is a zone for every
place that stays and one more. -/
def GcRoom (config : CacheConfig) (cache : ChunkCache Unit) (staying : List Slot) : Prop :=
  0 < config.evictLowThreshZones ∧
    ((config.evictLowThreshZones ≤ ((List.range config.nrZones).countP fun zone =>
        decide (∀ place ∈ staying, place.1 ≠ zone)) ∧ 0 < config.maxActive) ∨
      staying.length < config.nrZones ∧ staying.length < config.maxActive ∧
        ∀ place ∈ staying, LowAt cache place ∧
          cache.cacheMap.zoneMap (cache.evictionPolicy.slot place).id ≠ none)

/-- The queue is short of free chunks, its first chunks can be evicted, and the GC has
room for those that stay. -/
structure EvictFits (config : CacheConfig) (cache : ChunkCache Unit) : Prop where
  due : enoughFreeChunks config.evictHighThreshChunks cache.evictionPolicy = false
  enough : nrEvict config.evictLowThreshChunks cache.evictionPolicy ≤
    cache.evictionPolicy.lruQueue.length
  clears : ∀ place ∈ cache.evictionPolicy.lruQueue.items.take
    (nrEvict config.evictLowThreshChunks cache.evictionPolicy), LowAt cache place
  room : GcRoom config cache (cache.evictionPolicy.lruQueue.items.drop
    (nrEvict config.evictLowThreshChunks cache.evictionPolicy))

/-- What holds while chunks are popped: every zone is full and in the heap, and the places
in the queue are those that identifiers are listed at. -/
structure PopScene (config : CacheConfig) (cache : ChunkCache Unit) : Prop where
  zones : ZonesSound cache.zoneState 0
  noActive : cache.zoneState.active = []
  noFree : cache.zoneState.free = []
  numZones : cache.zoneState.numZones = config.nrZones
  maxActive : cache.zoneState.maxNrActiveZones = config.maxActive
  full : ∀ zone < config.nrZones, IsFull cache.zoneState zone
  metadata : ChunkMetadata config.nrZones cache.evictionPolicy
  heap : HeapTracks cache.evictionPolicy
  once : cache.evictionPolicy.invalidPqueue.zones.Nodup
  inHeap : ∀ zone, zone ∈ cache.evictionPolicy.invalidPqueue.zones ↔ zone < config.nrZones
  named : ∀ zone < config.nrZones, cache.zoneId zone = zone
  fits : cache.evictionPolicy.maxZoneChunks < 2 ^ 32
  keys : ∀ key, 2 ^ 32 ≤ key → cache.cacheMap.zoneMap key = none
  listed : ∀ zone chunk id, (cache.cacheMap.dataMap zone).lookup chunk = some id →
    cache.cacheMap.zoneMap id ≠ none ∧ (zone, chunk) ∈ cache.evictionPolicy.lruQueue.items
  stored : ∀ place ∈ cache.evictionPolicy.lruQueue.items,
    (cache.cacheMap.dataMap place.1).lookup place.2 ≠ none

section Scene

variable {config : CacheConfig} {cache after : ChunkCache Unit} {i nr : Nat}

theorem PopScene.heapPerm (scene : PopScene config cache) :
    cache.evictionPolicy.invalidPqueue.zones.Perm (List.range config.nrZones) := by
  apply (List.perm_ext_iff_of_nodup scene.once List.nodup_range).mpr
  intro zone
  rw [scene.inHeap, List.mem_range]

theorem PopScene.size (scene : PopScene config cache) :
    cache.evictionPolicy.invalidPqueue.size < 2 ^ 31 := by
  have same := scene.heapPerm.length_eq
  have small := scene.zones.small
  rw [ZnMinheap.zones, List.length_map, List.length_range] at same
  rw [scene.numZones] at small
  change cache.evictionPolicy.invalidPqueue.arr.length < 2 ^ 31
  omega

/-! ## The queue, zone by zone -/

theorem PopScene.mem_usedChunks (scene : PopScene config cache) {zone chunk : Nat}
    (below : zone < config.nrZones) :
    chunk ∈ cache.evictionPolicy.usedChunks zone ↔
      (zone, chunk) ∈ cache.evictionPolicy.lruQueue.items := by
  rw [scene.metadata.queued, mem_liveSlots, ZNCache.mem_usedChunks]
  simp [below]

theorem PopScene.below (scene : PopScene config cache) {place : Slot}
    (member : place ∈ cache.evictionPolicy.lruQueue.items) : place.1 < config.nrZones :=
  (mem_liveSlots.mp ((scene.metadata.queued place).mp member)).1.1

theorem PopScene.total (scene : PopScene config cache) :
    Reclaim.total (fun zone => (cache.evictionPolicy.usedChunks zone).card)
      (List.range config.nrZones) = cache.evictionPolicy.lruQueue.items.length := by
  have maps : Set.MapsTo Prod.fst
      (cache.evictionPolicy.liveSlots config.nrZones : Set Slot)
      (Finset.range config.nrZones : Set Nat) := by
    intro place member
    simpa using (mem_liveSlots.mp member).1.1
  rw [← LinkedQueue.length_eq, scene.metadata.length_eq,
    Finset.card_eq_sum_card_fiberwise maps]
  refine (Finset.sum_congr rfl fun zone member => ?_ :
    ∑ zone ∈ Finset.range config.nrZones, (cache.evictionPolicy.usedChunks zone).card = _)
  have fiber : (cache.evictionPolicy.liveSlots config.nrZones).filter (·.1 = zone) =
      (cache.evictionPolicy.usedChunks zone).map ⟨(zone, ·), Prod.mk_right_injective zone⟩ := by
    ext ⟨other, chunk⟩
    rw [Finset.mem_filter, ← scene.metadata.queued, Finset.mem_map]
    constructor
    · intro given
      obtain ⟨queued, rfl⟩ := given
      exact ⟨chunk, (scene.mem_usedChunks (scene.below queued)).mpr queued, rfl⟩
    · intro given
      obtain ⟨own, used, same⟩ := given
      obtain ⟨rfl, rfl⟩ := Prod.mk.inj same
      exact ⟨(scene.mem_usedChunks (Finset.mem_range.mp member)).mp used, rfl⟩
  rw [fiber, Finset.card_map]

/-- A zone has no chunk in use exactly when no place of it is queued. -/
theorem PopScene.idle_iff (scene : PopScene config cache) {zone : Nat}
    (below : zone < config.nrZones) :
    (cache.evictionPolicy.usedChunks zone).card = 0 ↔
      ∀ place ∈ cache.evictionPolicy.lruQueue.items, place.1 ≠ zone := by
  rw [Finset.card_eq_zero, Finset.eq_empty_iff_forall_notMem]
  constructor
  · intro none given queued same
    obtain ⟨other, chunk⟩ := given
    subst same
    exact none chunk ((scene.mem_usedChunks below).mpr queued)
  · intro apart chunk used
    exact apart (zone, chunk) ((scene.mem_usedChunks below).mp used) rfl

theorem PopScene.movable_iff (scene : PopScene config cache) :
    (∀ zone ∈ List.range config.nrZones, Movable cache zone) ↔
      ∀ place ∈ cache.evictionPolicy.lruQueue.items, LowAt cache place ∧
        cache.cacheMap.zoneMap (cache.evictionPolicy.slot place).id ≠ none := by
  constructor
  · intro movable given queued
    obtain ⟨zone, chunk⟩ := given
    have below := scene.below queued
    obtain ⟨clearable, present⟩ := movable zone (List.mem_range.mpr below)
    exact ⟨clearable chunk, present chunk ((scene.mem_usedChunks below).mpr queued)⟩
  · intro places zone member
    have below := List.mem_range.mp member
    constructor
    · exact fun chunk id found => (places _ (scene.listed zone chunk id found).2).1 id found
    · exact fun chunk used => (places _ ((scene.mem_usedChunks below).mp used)).2

theorem PopScene.gcScene (scene : PopScene config cache) : GcScene config cache 0 [] where
  zones := scene.zones
  noActive := scene.noActive
  numZones := scene.numZones
  maxActive := scene.maxActive
  once := scene.once
  full := fun zone member => scene.full zone ((scene.inHeap zone).mp member)
  named := fun zone member => scene.named zone ((scene.inHeap zone).mp member)
  heap := scene.heap.sound
  size := scene.size
  loads := by
    intro handle member
    rw [scene.heap.count handle member]
    exact scene.metadata.counted _ ((scene.inHeap _).mp (data_mem_zones member))
  keys := scene.keys
  listed := fun zone chunk id found => (scene.listed zone chunk id found).1
  idle := by
    intro zone member none chunk
    cases found : (cache.cacheMap.dataMap zone).lookup chunk with
    | none => rfl
    | some id =>
        have queued := (scene.listed zone chunk id found).2
        have used := (scene.mem_usedChunks ((scene.inHeap zone).mp member)).mpr queued
        rw [none] at used
        simp at used

theorem PopScene.gcRoom_iff (scene : PopScene config cache)
    (marks : 0 < config.evictLowThreshZones) :
    Reclaimable config cache 0 0 ↔
      GcRoom config cache cache.evictionPolicy.lruQueue.items := by
  have idle : Reclaim.idle (fun zone => (cache.evictionPolicy.usedChunks zone).card)
      (List.range config.nrZones) = (List.range config.nrZones).countP fun zone =>
        decide (∀ place ∈ cache.evictionPolicy.lruQueue.items, place.1 ≠ zone) := by
    apply List.countP_congr
    intro zone member
    simpa using scene.idle_iff (List.mem_range.mp member)
  rw [Reclaimable, Reclaim.succeeds_perm scene.heapPerm, Reclaim.Succeeds, idle, scene.total,
    scene.movable_iff, List.length_range, GcRoom, and_iff_right marks]
  simp only [Nat.zero_add]
  exact or_congr_right (by tauto)

theorem PopScene.gcUnblocks (scene : PopScene config cache) :
    Unblocks config cache .gcStart ↔
      GcRoom config cache cache.evictionPolicy.lruQueue.items := by
  rcases Nat.eq_zero_or_pos config.evictLowThreshZones with noMark | marks
  · have none : zsmGetNumFreeZones cache.zoneState = 0 := congrArg List.length scene.noFree
    have startRan : evictSection config cache .gcStart = some (cache, some (.gcLoop 0)) := by
      simp only [evictSection, chunkEvictStep, none, if_neg (Nat.not_lt_zero _)]
    have loopRan : evictSection config cache (.gcLoop 0) = some (cache, some .leave) := by
      simp only [evictSection, chunkEvictStep, noMark, if_neg (Nat.not_lt_zero _)]
    have left := ((Loop.endsWith_pass startRan).trans (Loop.endsWith_pass loopRan)).trans
      scene.gcScene.leave
    rw [scene.noFree] at left
    refine iff_of_false (fun unblocks => ?_) fun room => ?_
    · exact absurd (left.mp unblocks).1 (Nat.not_lt_zero _)
    · rw [GcRoom, noMark] at room
      exact absurd room.1 (Nat.not_lt_zero _)
  · exact (scene.gcScene.unblocks marks scene.noFree).trans (scene.gcRoom_iff marks)

/-! ## One popped chunk -/

theorem PopScene.evicts (scene : PopScene config cache) {place : Slot} {rest : List Slot}
    (queue : cache.evictionPolicy.lruQueue.items = place :: rest) :
    ∃ pair policy, evictChunk cache.evictionPolicy = some (pair, policy) ∧ pair.place = place := by
  cases evicted : evictChunk cache.evictionPolicy with
  | none =>
      unfold evictChunk at evicted
      cases popped : cache.evictionPolicy.lruQueue.popHead with
      | none =>
          rw [LinkedQueue.popHead_none, queue] at popped
          cases popped
      | some head => simp [popped] at evicted
  | some answer =>
      obtain ⟨pair, policy⟩ := answer
      obtain ⟨_, items, _⟩ := scene.metadata.evictChunk scene.fits evicted
      rw [queue] at items
      exact ⟨pair, policy, rfl, (List.cons.inj items).1.symm⟩

theorem pop_passes {pair : ZnPair} {policy : ZnPolicyChunk Unit} (more : i < nr)
    (evicted : evictChunk cache.evictionPolicy = some (pair, policy)) :
    Unblocks config cache (.pop i nr) ↔
      Unblocks config { cache.setPolicy policy with
        zoneState := zsmMarkChunkInvalid cache.zoneState pair } (.clear i nr pair) := by
  have popRan : evictSection config cache (.pop i nr) =
      some (cache.setPolicy policy, some (.mark i nr pair)) := by
    simp only [evictSection, chunkEvictStep, if_pos more, evicted]
  exact (Loop.endsWith_pass popRan).trans (Loop.endsWith_pass rfl)

/-- An empty queue yields NULL, which is dereferenced. -/
theorem pop_stuck (more : i < nr) (empty : cache.evictionPolicy.lruQueue.items = []) :
    ¬ Unblocks config cache (.pop i nr) := by
  have nothing : evictChunk cache.evictionPolicy = none := by
    simp [evictChunk, LinkedQueue.popHead_none.mpr empty]
  apply Loop.not_endsWith_stuck
  simp only [evictSection, chunkEvictStep, if_pos more, nothing]

/-- The clearing dereferences NULL for an identifier that its key does not lead to. -/
theorem PopScene.pop_high (scene : PopScene config cache) {place : Slot} {rest : List Slot}
    (more : i < nr) (queue : cache.evictionPolicy.lruQueue.items = place :: rest)
    (high : ¬ LowAt cache place) : ¬ Unblocks config cache (.pop i nr) := by
  obtain ⟨pair, policy, evicted, rfl⟩ := scene.evicts queue
  rw [pop_passes more evicted]
  apply Loop.not_endsWith_stuck
  simp only [LowAt, not_forall, Nat.not_lt] at high
  obtain ⟨id, found, above⟩ := high
  have small : id < 2 ^ 32 := by
    by_contra large
    exact (scene.listed _ _ id found).1 (scene.keys id (Nat.le_of_not_lt large))
  have absent := scene.keys _ (clearKey_high above small)
  have stuck : znCachemapClearChunk cache.cacheMap pair = none := by
    simp only [ZnPair.place] at found
    simp [znCachemapClearChunk, found, absent]
  simp only [evictSection, chunkEvictStep, ChunkCache.setPolicy, stuck]

structure Popped (cache after : ChunkCache Unit) (place : Slot) : Prop where
  keys : ∀ key, after.cacheMap.zoneMap key = none ↔ cache.cacheMap.zoneMap key = none
  data : ∀ other : Slot, (after.cacheMap.dataMap other.1).lookup other.2 =
    if other = place then none else (cache.cacheMap.dataMap other.1).lookup other.2
  slots : ∀ other, other ≠ place →
    after.evictionPolicy.slot other = cache.evictionPolicy.slot other

theorem znCachemapClearChunk_total {map : CacheMap Unit} {pair : ZnPair} {id : Nat}
    (found : (map.dataMap pair.zone).lookup pair.chunkOffset = some id) (low : id < 2 ^ 31)
    (present : map.zoneMap id ≠ none) :
    ∃ answer, znCachemapClearChunk map pair = some answer ∧
      (∀ key, answer.state.zoneMap key = none ↔ map.zoneMap key = none) ∧
      ∀ other : Slot, (answer.state.dataMap other.1).lookup other.2 =
        if other = pair.place then none else (map.dataMap other.1).lookup other.2 := by
  obtain ⟨entry, here⟩ := Option.ne_none_iff_exists'.mp present
  refine ⟨_, by simp only [znCachemapClearChunk, guintToPointer_eq, found, Option.getD_some,
    clearKey_low low, here]; rfl, fun key => ?_, fun other => ?_⟩
  · by_cases same : key = id
    · simp [same, here]
    · simp [same]
  · obtain ⟨zone, chunk⟩ := other
    simp only [ZnPair.place, Prod.mk.injEq]
    by_cases sameZone : zone = pair.zone
    · subst sameZone
      by_cases sameChunk : chunk = pair.chunkOffset
      · subst sameChunk
        simp
      · simp [sameChunk, AList.lookup_erase_ne sameChunk]
    · simp [sameZone]

theorem PopScene.pop (scene : PopScene config cache) {place : Slot} {rest : List Slot}
    (more : i < nr) (queue : cache.evictionPolicy.lruQueue.items = place :: rest)
    (low : LowAt cache place) :
    ∃ after, (Unblocks config cache (.pop i nr) ↔
        Unblocks config after (.pop (u32 (i + 1)) nr)) ∧ PopScene config after ∧
      after.evictionPolicy.lruQueue.items = rest ∧ Popped cache after place := by
  obtain ⟨pair, policy, evicted, rfl⟩ := scene.evicts queue
  obtain ⟨metadata, items, _⟩ := scene.metadata.evictChunk scene.fits evicted
  obtain ⟨perm, _, ids, sameMax⟩ := evictChunk_zones evicted
  obtain ⟨_, _, _, _, _, _, _, slots, _⟩ := evictChunk_spec evicted
  rw [queue] at items
  have left : policy.lruQueue.items = rest := (List.cons.inj items).2.symm
  have here : pair.place ∈ cache.evictionPolicy.lruQueue.items := by simp [queue]
  have once : (pair.place :: rest).Nodup := queue ▸ scene.metadata.once
  have tracks := scene.heap.evictChunk ((scene.inHeap _).mpr (scene.below here)) scene.once
    scene.size evicted
  obtain ⟨id, found⟩ := Option.ne_none_iff_exists'.mp (scene.stored _ here)
  obtain ⟨answer, cleared, sameKeys, data⟩ := znCachemapClearChunk_total found (low id found)
    (scene.listed _ _ id found).1
  have clearRan : evictSection config { cache.setPolicy policy with
        zoneState := zsmMarkChunkInvalid cache.zoneState pair } (.clear i nr pair) =
      some ({ cache.setPolicy policy with
        zoneState := zsmMarkChunkInvalid cache.zoneState pair
        cacheMap := answer.state }, some (.pop (u32 (i + 1)) nr)) := by
    simp only [evictSection, chunkEvictStep, ChunkCache.setPolicy, cleared]
  refine ⟨_, (pop_passes more evicted).trans (Loop.endsWith_pass clearRan), ?_, left, sameKeys,
    data, fun other apart => (slots other).trans (if_neg apart)⟩
  constructor
  case zones => exact scene.zones.setInvalid _ _
  case noActive => exact scene.noActive
  case noFree => exact scene.noFree
  case numZones => exact scene.numZones
  case maxActive => exact scene.maxActive
  case full =>
    exact fun zone below => (zsmMarkChunkInvalid_full _ _ zone).mpr (scene.full zone below)
  case metadata => exact metadata
  case heap => exact tracks
  case once => exact perm.nodup_iff.mpr scene.once
  case inHeap => exact fun zone => perm.mem_iff.trans (scene.inHeap zone)
  case named => exact fun zone below => (ids zone).trans (scene.named zone below)
  case fits => exact lt_of_eq_of_lt sameMax scene.fits
  case keys => exact fun key high => (sameKeys key).mpr (scene.keys key high)
  case listed =>
    intro zone chunk other found
    rw [data (zone, chunk)] at found
    split at found
    next => cases found
    next apart =>
        obtain ⟨present, queued⟩ := scene.listed zone chunk other found
        rw [queue, List.mem_cons] at queued
        exact ⟨mt (sameKeys other).mp present, left ▸ queued.resolve_left apart⟩
  case stored =>
    intro other member
    have stays : other ∈ rest := left ▸ member
    have apart : other ≠ pair.place := fun same =>
      (List.nodup_cons.mp once).1 (same ▸ stays)
    rw [data other, if_neg apart]
    exact scene.stored other (queue ▸ List.mem_cons_of_mem _ stays)

/-! ## The loop -/

section Rest

variable {place : Slot} {rest : List Slot}

theorem Popped.lowAt (popped : Popped cache after place) {other : Slot} (apart : other ≠ place) :
    LowAt after other ↔ LowAt cache other := by
  simp only [LowAt, popped.data other, if_neg apart]

theorem Popped.gcRoom (popped : Popped cache after place) {staying : List Slot}
    (outside : place ∉ staying) :
    GcRoom config after staying ↔ GcRoom config cache staying := by
  have same : (∀ other ∈ staying, LowAt after other ∧
        after.cacheMap.zoneMap (after.evictionPolicy.slot other).id ≠ none) ↔
      ∀ other ∈ staying, LowAt cache other ∧
        cache.cacheMap.zoneMap (cache.evictionPolicy.slot other).id ≠ none := by
    refine forall₂_congr fun other member => ?_
    have apart : other ≠ place := fun same => outside (same ▸ member)
    rw [popped.lowAt apart, popped.slots other apart, ne_eq, popped.keys]
  rw [GcRoom, GcRoom, same]

end Rest

/-- The loop pops as many chunks as it is to, when the queue holds them and they can be
cleared, and then the GC decides. -/
theorem popLoop_unblocks (small : nr < 2 ^ 32) (remaining : Nat) :
    ∀ {cache : ChunkCache Unit} {i : Nat}, PopScene config cache → i + remaining = nr →
      (Unblocks config cache (.pop i nr) ↔
        remaining ≤ cache.evictionPolicy.lruQueue.items.length ∧
        (∀ place ∈ cache.evictionPolicy.lruQueue.items.take remaining, LowAt cache place) ∧
        GcRoom config cache (cache.evictionPolicy.lruQueue.items.drop remaining)) := by
  induction remaining with
  | zero =>
      intro cache i scene bound
      have ran : evictSection config cache (.pop i nr) = some (cache, some .gcStart) := by
        simp only [evictSection, chunkEvictStep, if_neg (show ¬ i < nr by omega)]
      refine ((Loop.endsWith_pass ran).trans scene.gcUnblocks).trans ?_
      simp
  | succ remaining ih =>
      intro cache i scene bound
      have more : i < nr := by omega
      cases queue : cache.evictionPolicy.lruQueue.items with
      | nil => exact iff_of_false (pop_stuck more queue) fun fits => by simp at fits
      | cons place rest =>
          by_cases low : LowAt cache place
          · obtain ⟨after, passed, later, left, popped⟩ := scene.pop more queue low
            have once : (place :: rest).Nodup := queue ▸ scene.metadata.once
            have outside := (List.nodup_cons.mp once).1
            have fits : i + 1 < 2 ^ 32 := by omega
            have next : u32 (i + 1) = i + 1 := by
              unfold u32
              omega
            have lows : (∀ other ∈ rest.take remaining, LowAt after other) ↔
                ∀ other ∈ rest.take remaining, LowAt cache other := by
              refine forall₂_congr fun other member => popped.lowAt ?_
              intro same
              subst same
              exact outside (List.mem_of_mem_take member)
            rw [passed, next, ih later (by omega), left, lows,
              popped.gcRoom fun member => outside (List.mem_of_mem_drop member),
              List.length_cons, List.take_succ_cons, List.drop_succ_cons, List.forall_mem_cons,
              and_iff_right low, Nat.add_le_add_iff_right]
          · refine iff_of_false (scene.pop_high more queue low) fun fits => low ?_
            exact fits.2.1 place (by simp)

theorem PopScene.setHolder (scene : PopScene config cache) (holder : Option Unit) :
    PopScene config (cache.setHolder holder) :=
  { scene with
    metadata := scene.metadata.setHolder holder
    heap := scene.heap.setHolder holder }

theorem PopScene.unblocks (scene : PopScene config cache)
    (unheld : cache.evictionPolicy.holder = none) :
    Unblocks config cache .start ↔ EvictFits config cache := by
  have passes : Environment.smooth.lockFree = true ∧ cache.evictionPolicy.holder = none :=
    ⟨rfl, unheld⟩
  cases due : enoughFreeChunks config.evictHighThreshChunks cache.evictionPolicy with
  | true =>
      have ran : evictSection config cache .start = some (cache, none) := by
        simp only [evictSection, chunkEvictStep, if_pos passes, due, if_true]
      have left := (Loop.endsWith_leave ran).trans scene.gcScene.hasZone
      rw [scene.noFree] at left
      refine iff_of_false (fun unblocks => ?_) fun fits => ?_
      · exact absurd (left.mp unblocks).1 (Nat.not_lt_zero _)
      · cases due.symm.trans fits.due
  | false =>
      let nr := nrEvict config.evictLowThreshChunks cache.evictionPolicy
      have small : nr < 2 ^ 32 := u32_lt _
      have ran : evictSection config cache .start =
          some (cache.setHolder (some ()), some (.pop 0 nr)) := by
        simp only [evictSection, chunkEvictStep, if_pos passes, due, Bool.false_eq_true, if_false,
          nr]
      have loop := popLoop_unblocks small nr (scene.setHolder (some ())) (Nat.zero_add nr)
      refine ((Loop.endsWith_pass ran).trans loop).trans ?_
      rw [← LinkedQueue.length_eq]
      constructor
      · intro loops
        exact ⟨due, loops.1, loops.2.1, loops.2.2⟩
      · intro fits
        exact ⟨fits.enough, fits.clears, fits.room⟩

end Scene

/-! ## Reached states -/

section Run

variable {config : CacheConfig} {system : ChunkSystem Unit}

/-- When no zone can be had, no pair is out. -/
theorem SoloZones.noneLeaked {cache : ChunkCache Unit} {pc : ThreadPc ChunkEvictPc}
    {leaked : Multiset ZnPair} (solo : SoloZones config cache pc leaked)
    (evicts : (zsmGetActiveZone 0 cache.zoneState).ret = .evict) : leaked = 0 := by
  have zones := solo.zones
  have counted := zones.partition.activeZones_eq zones.counts
  have answer := zones.partition.getActiveZone_spec zones.counts 0
  generalize zsmGetActiveZone 0 cache.zoneState = outcome at answer evicts
  cases answer with
  | retry | error | success => cases evicts
  | evict noActive noFree noWriter =>
      rw [noWriter, Multiset.card_add] at counted
      exact Multiset.card_eq_zero.mp (by omega)

/-- Where the thread finds no zone to write to, the eviction starts from full zones. -/
theorem SoloSound.popScene {id : Nat} (fits : config.maxZoneChunks < 2 ^ 32)
    (sound : SoloSound config system) (here : system.threads () = .get (.acquire id))
    (evicts : (zsmGetActiveZone 0 system.cache.zoneState).ret = .evict) :
    PopScene config system.cache := by
  obtain ⟨leaked, solo, clean⟩ := sound.leak
  obtain rfl := solo.noneLeaked evicts
  have known := clean rfl
  have custody := sound.custody.custody
  rw [here] at solo
  obtain ⟨noActive, noFree, allFull⟩ := solo.allFull rfl evicts
  have inHeap : ∀ zone, zone ∈ system.cache.evictionPolicy.invalidPqueue.zones ↔
      zone < config.nrZones := by
    refine fun zone => ⟨solo.heapBelow, fun below => ?_⟩
    exact ((solo.full zone).mp (allFull zone below)).resolve_right (Multiset.notMem_zero _)
  constructor
  case zones => exact solo.zones
  case noActive => exact noActive
  case noFree => exact noFree
  case numZones => exact solo.numZones
  case maxActive => exact solo.maxActive
  case full => exact allFull
  case metadata => exact known.policy.metadata
  case heap => exact known.policy.heap
  case once => exact ChunkCustody.heapOnce custody
  case inHeap => exact inHeap
  case named => exact fun zone below => custody.poolIds zone (.inl ((inHeap zone).mpr below))
  case fits =>
    rw [custody.policyMax]
    exact fits
  case keys => exact known.evict.map.keys
  case listed =>
    intro zone chunk other found
    obtain ⟨entry, present, _⟩ := known.evict.map.agrees.listed zone chunk other found
    refine ⟨by simp [present], (known.queue.listed zone chunk other found).resolve_right ?_⟩
    rw [here]
    exact fun popped => by cases popped
  case stored =>
    intro place queued
    rcases known.evict.placed place (.inl queued) with located |
      ⟨thread, other, location, inserts, _⟩
    · obtain ⟨other, location, found, rfl⟩ := located
      have listed := custody.listed other location found
      simp [ZnPair.place, listed]
    · rw [show thread = () from rfl, here] at inserts
      cases inserts

/-- Where `zsm_get_active_zone` finds no zone, the eviction that the thread runs leaves one
exactly when the queue and the cache map let it. -/
theorem chunkEvict_unblocks_iff {id : Nat} (fits : config.maxZoneChunks < 2 ^ 32)
    (positive : 0 < config.nrZones * config.maxZoneChunks) (reached : SoloRun config system)
    (here : system.threads () = .get (.acquire id))
    (evicts : (zsmGetActiveZone 0 system.cache.zoneState).ret = .evict) :
    Unblocks config system.cache .start ↔ EvictFits config system.cache := by
  have sound := SoloSound.of_reach fits positive reached
  exact (sound.popScene fits here evicts).unblocks (sound.unheld (by rw [here]; rfl))

end Run

/-! ## Two full caches -/

/-- A thread misses so many identifiers, and looks for a zone for one more. -/
def fillChunks : Nat → List (Unit × Choice)
  | 0 => [((), .get 0), ((), .run .smooth)]
  | id + 1 => ((), .get (id + 1)) :: List.replicate 7 ((), .run .smooth) ++ fillChunks id

theorem fillChunks_smooth (misses : Nat) : ∀ action ∈ fillChunks misses, ∀ system,
    SmoothGets system action := by
  induction misses with
  | zero => simp [fillChunks, SmoothGets]
  | succ id ih =>
      intro action member system
      rw [fillChunks, List.mem_append, List.mem_cons, List.mem_replicate] at member
      rcases member with (rfl | ⟨_, rfl⟩) | later
      · trivial
      · rfl
      · exact ih action later system

theorem fillChunks_solo {config : CacheConfig} {misses : Nat} {system : ChunkSystem Unit}
    (executed : System.execute (chunkCode config) config
      (chunkInit config.nrZones config.maxZoneChunks) (fillChunks misses) = some system) :
    SoloRun config system :=
  System.reach_of_execute executed fun start _ =>
    AllowedAlong.of_forall _ start (fillChunks_smooth misses)

theorem chunkEvict_unblocks_oneChunk :
    ∃ system : ChunkSystem Unit,
      System.execute (chunkCode oneChunkConfig) oneChunkConfig (chunkInit 1 1) (fillChunks 1) =
        some system ∧
      system.threads () = .get (.acquire 0) ∧
      (zsmGetActiveZone 0 system.cache.zoneState).ret = .evict ∧
      Unblocks oneChunkConfig system.cache .start := by
  cases executed : System.execute (chunkCode oneChunkConfig) oneChunkConfig (chunkInit 1 1)
      (fillChunks 1) with
  | none => cases executed
  | some system =>
      have here : system.threads () = .get (.acquire 0) := by
        cases Option.some.inj executed
        rfl
      have evicts : (zsmGetActiveZone 0 system.cache.zoneState).ret = .evict := by
        cases Option.some.inj executed
        rfl
      have popsAll : system.cache.evictionPolicy.lruQueue.items = [(0, 0)] ∧
          nrEvict 1 system.cache.evictionPolicy = 1 ∧
          enoughFreeChunks 0 system.cache.evictionPolicy = false ∧
          (system.cache.cacheMap.dataMap 0).lookup 0 = some 1 := by
        cases Option.some.inj executed
        exact ⟨rfl, rfl, rfl, rfl⟩
      obtain ⟨queue, nr, due, stored⟩ := popsAll
      refine ⟨system, rfl, here, evicts, (chunkEvict_unblocks_iff (by decide) (by decide)
        (fillChunks_solo executed) here evicts).mpr ⟨due, ?_, ?_, ?_⟩⟩
      · rw [LinkedQueue.length_eq, queue]
        exact nr.le
      · intro place member id found
        rw [queue] at member
        obtain rfl := List.mem_singleton.mp (List.mem_of_mem_take member)
        cases Option.some.inj (stored.symm.trans found)
        decide
      · change GcRoom _ _ (List.drop (nrEvict 1 _) _)
        rw [queue, nr]
        exact ⟨by decide, .inl (by decide)⟩

/-- One zone of 13 chunks, with the marks that the build sets. -/
def oneZoneConfig : CacheConfig where
  nrZones := 1
  zoneCap := 13 * 4096
  zoneSize := 13 * 4096
  chunkSz := 4096
  maxNrActiveZones := 14
  backend := .zns
  evictHighThreshZones := 2
  evictLowThreshZones := 4
  evictHighThreshChunks := 6
  evictLowThreshChunks := 12

theorem oneZone_fills :
    (System.execute (chunkCode oneZoneConfig) oneZoneConfig (chunkInit 1 13)
      (fillChunks 13 : List (Unit × Choice))).map (fun system =>
        (system.threads (), (zsmGetActiveZone 0 system.cache.zoneState).ret,
          system.cache.evictionPolicy.lruQueue.items.length,
          nrEvict 12 system.cache.evictionPolicy)) =
      some (.get (.acquire 0), .evict, 13, 12) := by
  decide +kernel

/-- The eviction leaves one chunk in the only zone, and the GC finds no zone for it. -/
theorem chunkEvict_leavesFull :
    ∃ system : ChunkSystem Unit, SoloRun oneZoneConfig system ∧
      oneZoneConfig.evictLowThreshChunks ≤ oneZoneConfig.nrZones * oneZoneConfig.maxZoneChunks ∧
      system.threads () = .get (.acquire 0) ∧
      (zsmGetActiveZone 0 system.cache.zoneState).ret = .evict ∧
      ¬ Unblocks oneZoneConfig system.cache .start := by
  obtain ⟨system, executed, answers⟩ := Option.map_eq_some_iff.mp oneZone_fills
  simp only [Prod.mk.injEq] at answers
  obtain ⟨here, evicts, queued, nr⟩ := answers
  have solo : SoloRun oneZoneConfig system := fillChunks_solo executed
  have sound := SoloSound.of_reach (by decide) (by decide) solo
  have unblocks := (sound.popScene (by decide) here evicts).unblocks
    (sound.unheld (by rw [here]; rfl))
  refine ⟨system, solo, by decide, here, evicts, fun ends => ?_⟩
  have room : GcRoom oneZoneConfig system.cache
      (system.cache.evictionPolicy.lruQueue.items.drop
        (nrEvict 12 system.cache.evictionPolicy)) := (unblocks.mp ends).room
  rw [nr] at room
  obtain ⟨_, ⟨marks, _⟩ | ⟨few, _⟩⟩ := room
  · exact absurd (marks.trans List.countP_le_length) (by decide)
  · rw [List.length_drop, queued] at few
    exact absurd few (by decide)

end ZNCache
