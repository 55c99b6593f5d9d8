import ZNCache.ChunkPlacement
import ZNCache.HeapStorage

/-!
# The array under the policy's heap

The heap of full zones is set up with as many slots as there are zones.  A zone that is about
to enter it is full and in no other place, so the array is never full before an insertion and
never reallocated, whatever the threads do.
-/

set_option autoImplicit false

namespace ZNCache

open Tally Transition ZnPolicyChunk Duties

variable {Thread : Type}

/-! ## Calls of the heap -/

namespace ZnMinheap

variable {heap after : ZnMinheap}

theorem extractMin_capacity {handle : Nat} (fits : heap.size < 2 ^ 32)
    (extracted : znMinheapExtractMin heap = some (handle, after)) :
    after.capacity = heap.capacity := by
  have storage := congrArg HeapStorage.capacity (extractMin_storage fits extracted)
  rw [HeapStorage.step] at storage
  split at storage <;> exact storage

theorem insert_capacity (fits : heap.size < 2 ^ 32) (room : heap.size < heap.capacity)
    (data priority : Nat) : (znMinheapInsert heap data priority).2.capacity = heap.capacity := by
  have storage := congrArg HeapStorage.capacity (insert_storage fits data priority)
  have noWrap : u32 heap.size = heap.size := u32_of_nat fits
  have notFull : ¬ heap.storage.size = heap.storage.capacity := by
    change ¬ u32 heap.size = heap.capacity
    omega
  rw [HeapStorage.step, HeapStorage.grow, if_neg notFull] at storage
  exact storage

theorem updateByEntry_capacity (heap : ZnMinheap) (handle : Option Nat) (newPriority : Nat) :
    (znMinheapUpdateByEntry heap handle newPriority).2.capacity = heap.capacity := by
  cases handle with
  | none => rfl
  | some handle =>
      simp only [znMinheapUpdateByEntry]
      split
      next => rfl
      next =>
          split
          next => exact bubbleUpLoop_capacity _ _ _
          next =>
              split
              next => exact bubbleDownLoop_capacity _ _ _
              next => rfl

end ZnMinheap

/-! ## Steps -/

def ThreadPc.EntersHeap (maxChunks : Nat) (pc : ThreadPc ChunkEvictPc) : Prop :=
  ∃ id location, pc = .get (.record id location) ∧ location.chunkOffset + 1 = maxChunks

section Step

variable [DecidableEq Thread] {config : CacheConfig} {thread : Thread} {choice : Choice}
  {cache after : ChunkCache Thread} {pc next : ThreadPc ChunkEvictPc}

/-- The capacity changes only where a zone enters a heap that is full. -/
theorem ThreadStep.heapCapacity
    (moved : ThreadStep (chunkCode config) thread cache pc choice after next)
    (fits : cache.evictionPolicy.invalidPqueue.size < 2 ^ 32)
    (room : pc.EntersHeap cache.evictionPolicy.maxZoneChunks →
      cache.evictionPolicy.invalidPqueue.size < cache.evictionPolicy.invalidPqueue.capacity) :
    after.evictionPolicy.invalidPqueue.capacity =
      cache.evictionPolicy.invalidPqueue.capacity := by
  cases moved with
  | call | callEvict | wakeUp => rfl
  | get ran =>
      cases ran with
      | touch id location data policy updated =>
          exact congrArg ZnMinheap.capacity (znPolicyChunkUpdate_read updated).1
      | record id location policy updated =>
          change policy.invalidPqueue.capacity = _
          rw [znPolicyChunkUpdate_write updated]
          split
          next closes =>
              have room' := room ⟨id, location, rfl, closes⟩
              exact @ZnMinheap.insert_capacity cache.evictionPolicy.invalidPqueue fits room' _ _
          next => rfl
      | find | woken | read | release | countHit | acquire | write | writeFailed => rfl
      | countMiss | giveBack | insert | undoZone | undoMap => rfl
  | evict caller later ran =>
      cases chunkEvictStep_spec ran with
      | pop i nr pair policy evicted =>
          change policy.invalidPqueue.capacity = _
          rw [(evictChunk_heap evicted).1]
          exact ZnMinheap.updateByEntry_capacity _ _ _
      | gcTake freeZones handle heap extracted => exact ZnMinheap.extractMin_capacity fits extracted
      | lock | popped | mark | clear | gcEnough | gcShort | gcDone | gcSkip | gcAcquire => rfl
      | gcScanned | gcRead | gcWrite | gcInsert | gcClear | gcReset | gcCount => rfl
  | evicted caller ran => cases chunkEvictStep_spec ran <;> rfl

end Step

/-! ## Runs -/

namespace MigrationLog

variable [Fintype Thread] [DecidableEq Thread] {config : CacheConfig} {log : MigrationLog Thread}

omit [DecidableEq Thread] in
theorem Sound.heap_within (sound : Sound config log) :
    log.system.cache.evictionPolicy.invalidPqueue.size +
      (tally (ThreadPc.duties config.maxZoneChunks) log.system.threads).filled.card ≤
        config.nrZones := by
  have below : (log.system.cache.evictionPolicy.invalidPqueue.zones : Multiset Nat) +
      ((tally (ThreadPc.duties config.maxZoneChunks) log.system.threads).filled +
        (tally (ThreadPc.duties config.maxZoneChunks) log.system.threads).reclaimed) ≤
      Multiset.range config.nrZones := by
    rw [Multiset.le_iff_subset sound.zones.once]
    intro zone member
    rw [Multiset.mem_range, ← sound.zones.numZones]
    exact ((sound.zones.full zone).mp member).1
  have counted := Multiset.card_le_card below
  simp only [Multiset.card_add, Multiset.coe_card, Multiset.card_range, ZnMinheap.zones,
    List.length_map] at counted
  rw [ZnMinheap.size]
  omega

theorem Sound.heap_room (sound : Sound config log) {thread : Thread}
    (enters : (log.system.threads thread).EntersHeap config.maxZoneChunks) :
    log.system.cache.evictionPolicy.invalidPqueue.size < config.nrZones := by
  obtain ⟨id, location, here, closes⟩ := enters
  have within := sound.heap_within
  have own : ((log.system.threads thread).duties config.maxZoneChunks).filled =
      {location.zone} := by
    rw [here]
    simp [ThreadPc.duties, GetPc.duties, returns, fillsIf_filled, closes]
  rw [tally_split _ _ thread, add_filled, own, Multiset.card_add, Multiset.card_singleton]
    at within
  omega

theorem Run.heapCapacity (someZone : 1 ≤ config.nrZones) (fits : config.maxZoneChunks < 2 ^ 32)
    (positive : 0 < config.maxZoneChunks) (run : Run config log) :
    config.nrZones < 2 ^ 31 ∧
      log.system.cache.evictionPolicy.invalidPqueue.capacity = config.nrZones := by
  induction run with
  | start begins =>
      obtain ⟨small, _, _, policy, _⟩ := System.init_spec begins.1
      rw [policy]
      exact ⟨small, rfl⟩
  | step action before success taken ih =>
      obtain ⟨small, capacity⟩ := ih
      have sound := Run.sound someZone fits positive before
      have within := sound.heap_within
      obtain ⟨system, stepped, rfl⟩ := Option.map_eq_some_iff.mp taken
      obtain ⟨thread, choice⟩ := action
      obtain ⟨cache, pc, rfl, moved⟩ := System.step_spec stepped
      refine ⟨small, (moved.heapCapacity (by omega) fun enters => ?_).trans capacity⟩
      rw [sound.zones.policyMax] at enters
      rw [capacity]
      exact sound.heap_room enters

/-- In every interleaving the heap keeps its first array, which has room for each zone that
enters, and its indices of children do not wrap. -/
theorem heap_never_grows (someZone : 1 ≤ config.nrZones) (someChunk : 1 ≤ config.chunkSz)
    (chunkFits : config.chunkSz ≤ config.zoneCap) (fits : config.maxZoneChunks < 2 ^ 32)
    (run : Run config log) :
    log.system.cache.evictionPolicy.invalidPqueue.storage =
        ⟨log.system.cache.evictionPolicy.invalidPqueue.size, config.nrZones, config.nrZones⟩ ∧
      log.system.cache.evictionPolicy.invalidPqueue.storage.ChildrenExact ∧
      ∀ thread, (log.system.threads thread).EntersHeap config.maxZoneChunks →
        log.system.cache.evictionPolicy.invalidPqueue.storage.Room ∧
          log.system.cache.evictionPolicy.invalidPqueue.storage.grow =
            log.system.cache.evictionPolicy.invalidPqueue.storage := by
  have positive : 0 < config.maxZoneChunks := Nat.div_pos chunkFits someChunk
  have sound := Run.sound someZone fits positive run
  obtain ⟨small, capacity⟩ := Run.heapCapacity someZone fits positive run
  have within := sound.heap_within
  have storage : log.system.cache.evictionPolicy.invalidPqueue.storage =
      ⟨log.system.cache.evictionPolicy.invalidPqueue.size, config.nrZones, config.nrZones⟩ := by
    rw [ZnMinheap.storage, capacity, HeapStorage.allocate_exact (by omega), u32_of_nat (by omega)]
  refine ⟨storage, ?_, fun thread enters => ?_⟩
  · rw [storage, HeapStorage.childrenExact_iff]
    change log.system.cache.evictionPolicy.invalidPqueue.size < 2 ^ 31
    omega
  · have room := sound.heap_room enters
    have unchanged : log.system.cache.evictionPolicy.invalidPqueue.storage.grow =
        log.system.cache.evictionPolicy.invalidPqueue.storage := by
      rw [storage]
      exact if_neg (Nat.ne_of_lt room)
    rw [HeapStorage.Room, unchanged, storage]
    exact ⟨⟨room, rfl⟩, rfl⟩

/-- Two chunks fill a zone, whose last chunk has been given back and not yet recorded. -/
def fillsZone (worker : Thread) : List (Thread × Choice) :=
  (worker, .get 7) :: List.replicate 7 (worker, .run .smooth) ++
    (worker, .get 0) :: List.replicate 5 (worker, .run .smooth)

theorem heap_never_grows_fillsZone :
    ∃ start log : MigrationLog (Fin 2), chunkSystem migratingConfig = some start.system ∧
      runActions (step migratingConfig) start (fillsZone 0) = some log ∧
      (log.system.threads 0).EntersHeap 2 ∧
      log.system.cache.evictionPolicy.invalidPqueue.storage.Room ∧
      log.system.cache.evictionPolicy.invalidPqueue.storage.grow =
        log.system.cache.evictionPolicy.invalidPqueue.storage := by
  obtain ⟨start, log, begins, none, ran, here⟩ : ∃ start log : MigrationLog (Fin 2),
      chunkSystem migratingConfig = some start.system ∧ start.moved = [] ∧
      runActions (step migratingConfig) start (fillsZone 0) = some log ∧
      log.system.threads 0 = .get (.record 0 ⟨0, 1, 0, false⟩) :=
    ⟨⟨_, []⟩, _, rfl, rfl, rfl, by decide⟩
  have run : Run migratingConfig log :=
    Reach.of_runActions (fillsZone 0) (.start ⟨begins, none⟩)
      (.of_forall _ _ (by simp [fillsZone, CommandsSucceed, Environment.smooth])) ran
  obtain ⟨_, _, enters⟩ :=
    heap_never_grows (by decide) (by decide) (by decide) (by decide) run
  have closes : (log.system.threads 0).EntersHeap 2 := ⟨0, _, here, rfl⟩
  exact ⟨start, log, begins, ran, closes, enters 0 closes⟩

end MigrationLog

end ZNCache
