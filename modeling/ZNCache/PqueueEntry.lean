import ZNCache.ChunkHeap
import ZNCache.Lib.Recency

/-!
# The pool's pointers into the heap

`pqueue_entry` is assigned when the last chunk of a zone is recorded and at no other time.
The history of a run says which zones had their last chunk recorded and were not taken
from the heap by the GC since.
-/

set_option autoImplicit false

namespace ZNCache

open Recency Tally Transition ZnPolicyChunk ZnMinheap Duties

variable {Thread : Type}

def PoolPoints (policy : ZnPolicyChunk Thread) : Prop :=
  ∀ handle ∈ policy.invalidPqueue.arr,
    (policy.zonePool (policy.invalidPqueue.entry handle).data).pqueueEntry = some handle

/-- The zone's pointer has been assigned, and is the entry of the heap whose data is the
zone. -/
def EntryLive (policy : ZnPolicyChunk Thread) (zone : Nat) : Prop :=
  ∃ handle ∈ policy.invalidPqueue.arr,
    (policy.zonePool zone).pqueueEntry = some handle ∧
      (policy.invalidPqueue.entry handle).data = zone

namespace PoolPoints

variable {policy after : ZnPolicyChunk Thread}

theorem live_iff (points : PoolPoints policy) {zone : Nat} :
    EntryLive policy zone ↔ zone ∈ policy.invalidPqueue.zones := by
  rw [mem_zones]
  constructor
  · intro given
    obtain ⟨handle, member, _, here⟩ := given
    exact ⟨handle, member, here⟩
  · intro given
    obtain ⟨handle, member, rfl⟩ := given
    exact ⟨handle, member, points handle member, rfl⟩

theorem init (nrZones maxZoneChunks : Nat) :
    PoolPoints (chunkInit nrZones maxZoneChunks : ZnPolicyChunk Thread) :=
  fun _ member => absurd member List.not_mem_nil

theorem congr (points : PoolPoints policy)
    (entries : ∀ handle ∈ after.invalidPqueue.arr, handle ∈ policy.invalidPqueue.arr ∧
      (after.invalidPqueue.entry handle).data = (policy.invalidPqueue.entry handle).data)
    (pool : ∀ zone, (after.zonePool zone).pqueueEntry = (policy.zonePool zone).pqueueEntry) :
    PoolPoints after := by
  intro handle member
  obtain ⟨inside, data⟩ := entries handle member
  rw [data, pool]
  exact points handle inside

theorem recordChunk (points : PoolPoints policy) (location : ZnPair) :
    PoolPoints (ZNCache.recordChunk policy location) :=
  points.congr (fun _ member => ⟨member, rfl⟩) (pqueueEntry_recordChunk policy location)

theorem enterHeap (points : PoolPoints policy) (allocated : policy.invalidPqueue.Allocated)
    {zone : Nat} (outside : zone ∉ policy.invalidPqueue.zones) :
    PoolPoints (ZNCache.enterHeap policy zone) := by
  obtain ⟨new, handles, newData, oldData, _⟩ := insert_spec policy.invalidPqueue zone
    (policy.zonePool zone).chunksInUse
  intro handle member
  rcases List.mem_cons.mp (handles.mem_iff.mp member) with rfl | before
  · simp [ZNCache.enterHeap, setZone, newData, new]
  · have notFresh := Nat.ne_of_lt (allocated handle before)
    have apart : (policy.invalidPqueue.entry handle).data ≠ zone :=
      fun same => outside (same ▸ data_mem_zones before)
    simp [ZNCache.enterHeap, setZone, oldData handle notFresh, apart, points handle before]

theorem update_write (points : PoolPoints policy) (allocated : policy.invalidPqueue.Allocated)
    {location : ZnPair}
    (outside : location.chunkOffset + 1 = policy.maxZoneChunks →
      location.zone ∉ policy.invalidPqueue.zones)
    (updated : znPolicyChunkUpdate policy location .write = some after) : PoolPoints after := by
  have recorded := points.recordChunk location
  rw [znPolicyChunkUpdate_write updated]
  split
  next last => exact recorded.enterHeap allocated (outside last)
  next => exact recorded

theorem evictChunk (points : PoolPoints policy) {pair : ZnPair}
    (evicted : ZNCache.evictChunk policy = some (pair, after)) : PoolPoints after := by
  obtain ⟨heap, pool⟩ := evictChunk_heap evicted
  obtain ⟨handles, data, _⟩ := updateByEntry_handles policy.invalidPqueue
    (policy.zonePool pair.zone).pqueueEntry (u32 ((policy.zonePool pair.zone).chunksInUse - 1))
  rw [← heap] at handles data
  exact points.congr (fun handle member => ⟨handles.mem_iff.mp member, data handle⟩) pool

theorem extractMin (points : PoolPoints policy) {handle : Nat} {heap : ZnMinheap}
    (extracted : znMinheapExtractMin policy.invalidPqueue = some (handle, heap)) :
    PoolPoints { policy with invalidPqueue := heap } := by
  obtain ⟨handles, data, _, _⟩ := extractMin_spec extracted
  refine points.congr (fun other member => ⟨?_, data other⟩) fun _ => rfl
  exact handles.mem_iff.mpr (List.mem_cons_of_mem _ member)

theorem moveSlot (points : PoolPoints policy) (source : Slot) (location : ZnPair) :
    PoolPoints (ZNCache.moveSlot policy source location) :=
  points.congr (fun _ member => ⟨member, rfl⟩) (pqueueEntry_moveSlot policy source location)

end PoolPoints

/-! ## Runs -/

/-- A cache, and what happened to its zones: a zone is put into the heap with its last chunk,
and dropped when the GC takes it. -/
structure EntryLog (Thread : Type) where
  system : ChunkSystem Thread
  history : List (Use Nat)

namespace EntryLog

variable [DecidableEq Thread] {config : CacheConfig}

def event (config : CacheConfig) (policy : ZnPolicyChunk Thread) :
    ThreadPc ChunkEvictPc → Option (Use Nat)
  | .get (.record _ location) =>
      if location.chunkOffset + 1 = policy.maxZoneChunks then some (.put location.zone) else none
  | .evict _ (.gcLoop freeZones) =>
      if freeZones < config.evictLowThreshZones then
        (znMinheapExtractMin policy.invalidPqueue).map fun taken =>
          .drop (taken.2.entry taken.1).data
      else none
  | _ => none

def step (config : CacheConfig) (log : EntryLog Thread) (action : Thread × Choice) :
    Option (EntryLog Thread) :=
  (log.system.step (chunkCode config) action).map fun next =>
    ⟨next, (event config log.system.cache.evictionPolicy (log.system.threads action.1)).toList ++
      log.history⟩

def Initial (config : CacheConfig) (log : EntryLog Thread) : Prop :=
  chunkSystem config = some log.system ∧ log.history = []

/-- The zones in the heap are those of the history, and the pool points to their entries. -/
structure Pointed (policy : ZnPolicyChunk Thread) (history : List (Use Nat)) : Prop where
  points : PoolPoints policy
  entered : ∀ zone, zone ∈ policy.invalidPqueue.zones ↔ lastUse history zone ≠ none

section Sections

variable {thread : Thread} {cache after : ChunkCache Thread} {environment : Environment}
  {history : List (Use Nat)} {rest : Duties}

omit [DecidableEq Thread] in
theorem Pointed.congr {policy other : ZnPolicyChunk Thread} (pointed : Pointed policy history)
    (sameHeap : other.invalidPqueue = policy.invalidPqueue)
    (samePool : other.zonePool = policy.zonePool) : Pointed other history := by
  refine ⟨pointed.points.congr (fun handle member => ?_) fun zone => by rw [samePool], ?_⟩
  · rw [sameHeap] at member ⊢
    exact ⟨member, rfl⟩
  · rw [sameHeap]
    exact pointed.entered

theorem Pointed.get {pc : GetPc} {next : ThreadPc ChunkEvictPc}
    (pointed : Pointed cache.evictionPolicy history)
    (custody : CacheCustody config.maxZoneChunks cache (pc.duties config.maxZoneChunks + rest))
    (taken : GetStep (chunkCode config) thread cache environment pc after next) :
    Pointed after.evictionPolicy
      ((event config cache.evictionPolicy (.get pc)).toList ++ history) := by
  cases taken with
  | find | woken | read | release | countHit | acquire | write | writeFailed => exact pointed
  | countMiss | giveBack | insert | undoZone | undoMap => exact pointed
  | touch id location data policy updated =>
      obtain ⟨heap, pool, _, _⟩ := znPolicyChunkUpdate_read updated
      exact pointed.congr heap pool
  | record id location policy updated =>
      have zones := fun zone => znPolicyChunkUpdate_heap custody.allocated updated zone
      by_cases last : location.chunkOffset + 1 = cache.evictionPolicy.maxZoneChunks
      · have outside : location.zone ∉ cache.evictionPolicy.invalidPqueue.zones := by
          intro inHeap
          have once := custody.once
          have closes : location.chunkOffset + 1 = config.maxZoneChunks :=
            last.trans custody.policyMax
          rw [GetPc.duties, fillsIf, if_pos closes, add_assoc, keptZones_returns, keptZones_fills,
            Multiset.nodup_cons] at once
          apply once.1
          simp [keptZones, inHeap]
        refine ⟨pointed.points.update_write custody.allocated (fun _ => outside) updated,
          fun zone => ?_⟩
        rw [zones]
        simp only [event, if_pos last, Option.toList_some, List.singleton_append]
        rw [lastUse_put, pointed.entered, or_comm, and_iff_right last]
      · refine ⟨pointed.points.update_write custody.allocated (fun here => absurd here last)
          updated, fun zone => ?_⟩
        rw [zones]
        simp only [event, if_neg last, Option.toList_none, List.nil_append]
        rw [pointed.entered, or_iff_left fun here => last here.1]

theorem Pointed.gcLoop {next : Option ChunkEvictPc} {caller : Option Nat} {freeZones : Nat}
    (pointed : Pointed cache.evictionPolicy history)
    (once : cache.evictionPolicy.invalidPqueue.zones.Nodup)
    (ran : chunkEvictStep config thread cache environment (.gcLoop freeZones) =
      some (after, next)) :
    Pointed after.evictionPolicy
      ((event config cache.evictionPolicy (.evict caller (.gcLoop freeZones))).toList ++
        history) := by
  simp only [chunkEvictStep] at ran
  simp only [event]
  split at ran
  next short =>
      rw [if_pos short]
      cases extracted : znMinheapExtractMin cache.evictionPolicy.invalidPqueue with
      | none =>
          rw [extracted] at ran
          cases Option.some.inj ran
          exact pointed
      | some taken =>
          obtain ⟨handle, heap⟩ := taken
          rw [extracted] at ran
          cases Option.some.inj ran
          refine ⟨pointed.points.extractMin extracted, fun zone => ?_⟩
          have zones := zones_extractMin extracted
          obtain ⟨outside, _⟩ := List.nodup_cons.mp (zones.nodup_iff.mp once)
          have before := pointed.entered zone
          rw [zones.mem_iff, List.mem_cons] at before
          simp only [Option.map_some, Option.toList_some, List.singleton_append]
          rw [lastUse_drop, ← before]
          constructor
          · exact fun member => ⟨fun same => outside (same ▸ member), .inr member⟩
          · intro given
            obtain ⟨apart, member⟩ := given
            exact member.resolve_left apart
  next enough =>
      cases Option.some.inj ran
      rw [if_neg enough]
      exact pointed

theorem Pointed.evict {pc : ChunkEvictPc} {next : Option ChunkEvictPc} {caller : Option Nat}
    (pointed : Pointed cache.evictionPolicy history)
    (once : cache.evictionPolicy.invalidPqueue.zones.Nodup)
    (ran : chunkEvictStep config thread cache environment pc = some (after, next)) :
    Pointed after.evictionPolicy
      ((event config cache.evictionPolicy (.evict caller pc)).toList ++ history) := by
  by_cases loop : ∃ freeZones, pc = .gcLoop freeZones
  · obtain ⟨freeZones, rfl⟩ := loop
    exact pointed.gcLoop once ran
  · have quiet : event config cache.evictionPolicy (.evict caller pc) = none := by
      cases pc with
      | gcLoop freeZones => exact absurd ⟨freeZones, rfl⟩ loop
      | _ => rfl
    rw [quiet, Option.toList_none, List.nil_append]
    cases chunkEvictStep_spec ran with
    | turnedAway | popped | mark | clear | gcEnough | gcShort => exact pointed
    | gcSkip | gcAcquire | gcScanned | gcRead | gcWrite | gcClear => exact pointed
    | gcReset | gcCount => exact pointed
    | lock | leave => exact pointed.congr rfl rfl
    | pop i nr pair policy evicted =>
        refine ⟨pointed.points.evictChunk evicted, fun zone => ?_⟩
        exact (evictChunk_zones evicted).1.mem_iff.trans (pointed.entered zone)
    | gcDone freeZones | gcTake freeZones => exact absurd ⟨freeZones, rfl⟩ loop
    | gcInsert zone chunk location =>
        exact ⟨pointed.points.moveSlot (zone, chunk) location, pointed.entered⟩

theorem Pointed.moves {choice : Choice} {pc next : ThreadPc ChunkEvictPc}
    (pointed : Pointed cache.evictionPolicy history)
    (custody : CacheCustody config.maxZoneChunks cache (pc.duties config.maxZoneChunks + rest))
    (moved : ThreadStep (chunkCode config) thread cache pc choice after next) :
    Pointed after.evictionPolicy ((event config cache.evictionPolicy pc).toList ++ history) := by
  cases moved with
  | call | callEvict | wakeUp => exact pointed
  | get ran => exact pointed.get custody ran
  | evict caller next ran => exact pointed.evict custody.heapOnce ran
  | evicted caller ran => exact pointed.evict custody.heapOnce ran

end Sections

abbrev Run (config : CacheConfig) (log : EntryLog Unit) : Prop :=
  Reach (step config) (fun _ _ => True) (Initial config) log

variable {log : EntryLog Unit}

theorem Run.pointed (fits : config.maxZoneChunks < 2 ^ 32) (run : Run config log) :
    CustodySound config.maxZoneChunks log.system ∧
      Pointed log.system.cache.evictionPolicy log.history := by
  induction run with
  | start begins =>
      obtain ⟨begins, nothing⟩ := begins
      obtain ⟨_, _, _, policy, _⟩ := System.init_spec begins
      refine ⟨CustodySound.init begins, ?_⟩
      rw [policy, nothing]
      exact ⟨PoolPoints.init _ _, fun zone => by simp [chunkInit, znMinheapInit, zones, lastUse]⟩
  | step action _ _ taken ih =>
      obtain ⟨custody, pointed⟩ := ih
      obtain ⟨next, moves, rfl⟩ := Option.map_eq_some_iff.mp taken
      refine ⟨custody.step fits (gcSettled_solo action) moves, ?_⟩
      obtain ⟨cache, pc, rfl, moved⟩ := System.step_spec moves
      exact pointed.moves (custody.split ()) moved

/-- The pointer that a pass of the eviction loop hands to `zn_minheap_update_by_entry` is
the entry of its zone if and only if the zone's last chunk was recorded, and the zone not
taken from the heap since. -/
theorem pqueueEntry_live_iff (fits : config.maxZoneChunks < 2 ^ 32) (run : Run config log) :
    ∀ pair policy, evictChunk log.system.cache.evictionPolicy = some (pair, policy) →
      (EntryLive log.system.cache.evictionPolicy pair.zone ↔
        lastUse log.history pair.zone ≠ none) := by
  obtain ⟨_, pointed⟩ := run.pointed fits
  exact fun pair _ _ => pointed.points.live_iff.trans (pointed.entered pair.zone)

/-- One zone of seven chunks, with the marks that the build sets. -/
def sevenChunkConfig : CacheConfig where
  nrZones := 1
  zoneCap := 7 * 4096
  zoneSize := 7 * 4096
  chunkSz := 4096
  maxNrActiveZones := 14
  backend := .zns
  evictHighThreshZones := 2
  evictLowThreshZones := 4
  evictHighThreshChunks := 6
  evictLowThreshChunks := 12

/-- A miss, and a call of `zn_policy_chunk_evict` up to its loop. -/
def missThenEvict : List (Unit × Choice) :=
  ((), .get 7) :: List.replicate 7 ((), .run .smooth) ++ [((), .evict), ((), .run .smooth)]

theorem run_of_actions {start : ChunkSystem Unit} {actions : List (Unit × Choice)}
    (begins : chunkSystem config = some start)
    (ran : runActions (step config) ⟨start, []⟩ actions = some log) : Run config log :=
  Reach.of_runActions actions (Reach.start ⟨begins, rfl⟩)
    (AllowedAlong.of_forall _ _ fun _ _ _ => trivial) ran

/-- One chunk of seven is written, and the eviction takes it from a zone whose pointer was
never assigned. -/
theorem pqueueEntry_unset :
    ∃ log, Run sevenChunkConfig log ∧ log.system.threads () = .evict none (.pop 0 6) ∧
      ∃ pair policy, evictChunk log.system.cache.evictionPolicy = some (pair, policy) ∧
        (log.system.cache.evictionPolicy.zonePool pair.zone).pqueueEntry = none ∧
        ¬ EntryLive log.system.cache.evictionPolicy pair.zone := by
  cases begins : (chunkSystem sevenChunkConfig : Option (ChunkSystem Unit)) with
  | none => cases begins
  | some start =>
      cases ran : runActions (step sevenChunkConfig) ⟨start, []⟩ missThenEvict with
      | none =>
          cases Option.some.inj begins
          cases ran
      | some log =>
          have reached := run_of_actions begins ran
          cases Option.some.inj begins
          cases Option.some.inj ran
          refine ⟨_, reached, rfl, _, _, rfl, rfl, ?_⟩
          intro given
          obtain ⟨handle, member, _⟩ := given
          cases member

/-- A zone of one chunk is in the heap when that chunk is evicted. -/
theorem pqueueEntry_live_iff_oneChunk :
    ∃ log, Run oneChunkConfig log ∧ log.system.threads () = .evict none (.pop 0 1) ∧
      EntryLive log.system.cache.evictionPolicy 0 := by
  cases begins : (chunkSystem oneChunkConfig : Option (ChunkSystem Unit)) with
  | none => cases begins
  | some start =>
      cases ran : runActions (step oneChunkConfig) ⟨start, []⟩ missThenEvict with
      | none =>
          cases Option.some.inj begins
          cases ran
      | some log =>
          have reached := run_of_actions begins ran
          have live := pqueueEntry_live_iff (by decide) reached
          cases Option.some.inj begins
          cases Option.some.inj ran
          exact ⟨_, reached, rfl, (live _ _ rfl).mpr (by decide)⟩

end EntryLog

end ZNCache
