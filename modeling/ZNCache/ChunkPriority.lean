import ZNCache.ChunkLru
import ZNCache.PqueueEntry

/-!
# The priorities in the heap of full zones

The updates of a zone's chunks reach the policy in any order, each once, with reads and
passes of the eviction loop in between.  The zone enters the heap with the update of its
last chunk, and an update that comes later leaves the priority behind.
-/

set_option autoImplicit false

namespace ZNCache

open Recency Transition ZnPolicyChunk ZnMinheap

variable {Thread : Type}

/-- The zone has one entry in the heap, with its count of chunks in use as priority. -/
def PriorityTracks (policy : ZnPolicyChunk Thread) (zone : Nat) : Prop :=
  policy.invalidPqueue.zones.count zone = 1 ∧
    ∀ handle ∈ policy.invalidPqueue.arr, (policy.invalidPqueue.entry handle).data = zone →
      (policy.invalidPqueue.entry handle).priority = (policy.zonePool zone).chunksInUse

def ChunkCall.writtenZone : ChunkCall → Option Nat
  | .update location .write => some location.zone
  | .update _ .read | .evict _ => none

namespace ChunkLog

/-- Each chunk has one update for its write, and the eviction loop makes one pass at a time. -/
def OncePerChunk (nrZones : Nat) (log : ChunkLog) : ChunkCall → Prop
  | .update location ioType =>
      (location.zone < nrZones ∧ location.chunkOffset < log.policy.maxZoneChunks) ∧
        (ioType = .write → .put location.place ∉ log.history)
  | .evict nrEvict => nrEvict = 1 ∧ log.policy.lruQueue.length ≠ 0

instance decidableOncePerChunk (nrZones : Nat) (log : ChunkLog) :
    ∀ call, Decidable (OncePerChunk nrZones log call)
  | .update _ _ => inferInstanceAs (Decidable (_ ∧ _))
  | .evict _ => inferInstanceAs (Decidable (_ ∧ _))

def Updated (log : ChunkLog) (zone : Nat) : Prop :=
  ∀ chunk < log.policy.maxZoneChunks, .put (zone, chunk) ∈ log.history

end ChunkLog

/-! ## What a call does to the entries -/

/-- An entry of the heap after a call that wrote to the zone `written`, if to any: it is
level with its zone's count, or as it was. -/
inductive EntryMove (policy after : ZnPolicyChunk Thread) (written : Option Nat) (handle : Nat) :
    Prop
  | level (priority : (after.invalidPqueue.entry handle).priority =
      (after.zonePool (after.invalidPqueue.entry handle).data).chunksInUse)
  | stays (member : handle ∈ policy.invalidPqueue.arr)
      (entry : (after.invalidPqueue.entry handle).data = (policy.invalidPqueue.entry handle).data ∧
        (after.invalidPqueue.entry handle).priority = (policy.invalidPqueue.entry handle).priority)
      (count : (after.zonePool (policy.invalidPqueue.entry handle).data).chunksInUse =
        (policy.zonePool (policy.invalidPqueue.entry handle).data).chunksInUse)
  | behind (member : handle ∈ policy.invalidPqueue.arr)
      (entry : (after.invalidPqueue.entry handle).data = (policy.invalidPqueue.entry handle).data ∧
        (after.invalidPqueue.entry handle).priority = (policy.invalidPqueue.entry handle).priority)
      (here : written = some (policy.invalidPqueue.entry handle).data)
      (count : (after.zonePool (policy.invalidPqueue.entry handle).data).chunksInUse =
        (policy.zonePool (policy.invalidPqueue.entry handle).data).chunksInUse + 1)

/-- The heap against the history: the zones in it are those whose last chunk had its update,
and no priority is ahead of its count. -/
structure HeapFollows (nrZones : Nat) (policy : ZnPolicyChunk Thread)
    (history : List (Use Slot)) : Prop where
  recency : ChunkRecency nrZones policy history
  puts : ∀ place, .put place ∈ history → place.1 < nrZones ∧ place.2 < policy.maxZoneChunks
  sound : QueueSound policy.invalidPqueue
  points : PoolPoints policy
  once : policy.invalidPqueue.zones.Nodup
  entered : ∀ zone, zone ∈ policy.invalidPqueue.zones ↔
    ∃ chunk, chunk + 1 = policy.maxZoneChunks ∧ .put (zone, chunk) ∈ history
  unset : ∀ zone, zone ∉ policy.invalidPqueue.zones → (policy.zonePool zone).pqueueEntry = none
  notAhead : ∀ handle ∈ policy.invalidPqueue.arr,
    (policy.invalidPqueue.entry handle).priority ≤
      (policy.zonePool (policy.invalidPqueue.entry handle).data).chunksInUse

theorem znPolicyChunkUpdate_pool {policy after : ZnPolicyChunk Thread} {location : ZnPair}
    (ran : znPolicyChunkUpdate policy location .write = some after) :
    (∀ zone, (after.zonePool zone).chunksInUse =
      if zone = location.zone then u32 ((policy.zonePool zone).chunksInUse + 1)
      else (policy.zonePool zone).chunksInUse) ∧
    (∀ zone, zone ≠ location.zone ∨ location.chunkOffset + 1 ≠ policy.maxZoneChunks →
      (after.zonePool zone).pqueueEntry = (policy.zonePool zone).pqueueEntry) ∧
    (after.slot location.place).inUse = true := by
  have counts : ∀ zone, ((recordChunk policy location).zonePool zone).chunksInUse =
      if zone = location.zone then u32 ((policy.zonePool zone).chunksInUse + 1)
      else (policy.zonePool zone).chunksInUse := by
    intro zone
    by_cases here : zone = location.zone
    · simp [recordChunk, setZone, here]
    · simp [recordChunk, setZone, here]
  have pointers : ∀ zone, ((recordChunk policy location).zonePool zone).pqueueEntry =
      (policy.zonePool zone).pqueueEntry := pqueueEntry_recordChunk policy location
  have used : ((recordChunk policy location).slot location.place).inUse = true := by
    rw [slot_recordChunk]
    simp [ZnPair.place]
  rw [znPolicyChunkUpdate_write ran]
  split
  next last =>
      refine ⟨fun zone => ?_, fun zone other => ?_, ?_⟩
      · rw [chunksInUse_enterHeap, counts]
      · have apart : zone ≠ location.zone := other.resolve_right fun no => no last
        rw [← pointers]
        simp [enterHeap, setZone, apart]
      · rw [slot_enterHeap]
        exact used
  next notLast => exact ⟨counts, fun zone _ => pointers zone, used⟩

theorem EntryMove.notAhead {policy after : ZnPolicyChunk Thread} {written : Option Nat}
    {handle : Nat} (move : EntryMove policy after written handle)
    (before : ∀ handle ∈ policy.invalidPqueue.arr, (policy.invalidPqueue.entry handle).priority ≤
      (policy.zonePool (policy.invalidPqueue.entry handle).data).chunksInUse) :
    (after.invalidPqueue.entry handle).priority ≤
      (after.zonePool (after.invalidPqueue.entry handle).data).chunksInUse := by
  cases move with
  | level priority => exact priority.le
  | stays member entry count =>
      rw [entry.1, entry.2, count]
      exact before handle member
  | behind member entry _ count =>
      rw [entry.1, entry.2, count]
      exact Nat.le_succ_of_le (before handle member)

namespace HeapFollows

variable {nrZones : Nat} {policy after : ZnPolicyChunk Thread} {history history' : List (Use Slot)}

theorem init {maxZoneChunks : Nat} (fits : nrZones ≠ 0 → maxZoneChunks < 2 ^ 32)
    (some : nrZones ≠ 0) :
    HeapFollows nrZones (chunkInit nrZones maxZoneChunks : ZnPolicyChunk Thread) [] where
  recency := ChunkRecency.init fits
  puts := fun _ member => absurd member List.not_mem_nil
  sound := QueueSound.init (by omega)
  points := PoolPoints.init nrZones maxZoneChunks
  once := List.nodup_nil
  entered := fun zone => by simp [chunkInit, znMinheapInit, zones]
  unset := fun _ _ => rfl
  notAhead := fun _ member => absurd member List.not_mem_nil

theorem update_read (follows : HeapFollows nrZones policy history) (location : ZnPair) :
    ∃ after, znPolicyChunkUpdate policy location .read = some after ∧
      HeapFollows nrZones after (.touch location.place :: history) ∧
      ∀ handle ∈ after.invalidPqueue.arr, EntryMove policy after none handle := by
  obtain ⟨after, ran, recency⟩ := follows.recency.update_read location
  obtain ⟨heap, pool, sameMax, _⟩ := znPolicyChunkUpdate_read ran
  obtain ⟨_, puts, sound, points, once, entered, unset, notAhead⟩ := follows
  refine ⟨after, ran, ⟨recency, fun place member => ?_, ?_, ?_, ?_, ?_, ?_, ?_⟩,
    fun handle member => ?_⟩
  · rw [sameMax]
    exact puts place (by simpa using member)
  · rwa [heap]
  · unfold PoolPoints
    rwa [heap, pool]
  · rwa [heap]
  · simpa [heap, sameMax] using entered
  · rwa [heap, pool]
  · rwa [heap, pool]
  · rw [heap] at member
    exact .stays member (by simp [heap]) (by rw [pool])

theorem written_count (follows : HeapFollows nrZones policy history)
    (recency : ChunkRecency nrZones after history') {location : ZnPair}
    (inPool : location.zone < nrZones ∧ location.chunkOffset < policy.maxZoneChunks)
    (ran : znPolicyChunkUpdate policy location .write = some after) (zone : Nat) :
    (after.zonePool zone).chunksInUse =
      if zone = location.zone then (policy.zonePool zone).chunksInUse + 1
      else (policy.zonePool zone).chunksInUse := by
  obtain ⟨counts, _, inUse⟩ := znPolicyChunkUpdate_pool ran
  have written := counts zone
  rw [written]
  split
  next here =>
      subst here
      rw [if_pos rfl] at written
      have fits := follows.recency.fits (by omega)
      have atMost := follows.recency.metadata.count_le inPool.1
      have used : location.chunkOffset ∈ after.usedChunks location.zone := by
        rw [mem_usedChunks, znPolicyChunkUpdate_max ran]
        exact ⟨inPool.2, inUse⟩
      have counted := recency.metadata.counted location.zone inPool.1
      have positive := Finset.card_pos.mpr ⟨_, used⟩
      unfold u32 at written ⊢
      omega
  next => rfl

theorem inPool (follows : HeapFollows nrZones policy history) {zone : Nat}
    (inHeap : zone ∈ policy.invalidPqueue.zones) : zone < nrZones := by
  obtain ⟨chunk, _, put⟩ := (follows.entered zone).mp inHeap
  exact (follows.puts _ put).1

theorem size_le (follows : HeapFollows nrZones policy history) :
    policy.invalidPqueue.size ≤ nrZones := by
  have length := length_le_of_nodup follows.once fun zone => follows.inPool
  rwa [zones, List.length_map] at length

theorem room (follows : HeapFollows nrZones policy history) {zone : Nat}
    (below : zone < nrZones) (outside : zone ∉ policy.invalidPqueue.zones) :
    policy.invalidPqueue.size + 1 ≤ nrZones := by
  have within : ∀ other ∈ zone :: policy.invalidPqueue.zones, other < nrZones := by
    intro other member
    rcases List.mem_cons.mp member with rfl | inHeap
    · exact below
    · exact follows.inPool inHeap
  have length := length_le_of_nodup (List.nodup_cons.mpr ⟨outside, follows.once⟩) within
  rwa [List.length_cons, zones, List.length_map] at length

theorem written (follows : HeapFollows nrZones policy history) (few : nrZones < 2 ^ 31)
    {location : ZnPair} (below : location.zone < nrZones)
    (outside : location.chunkOffset + 1 = policy.maxZoneChunks →
      location.zone ∉ policy.invalidPqueue.zones)
    (counts : ∀ zone, (after.zonePool zone).chunksInUse =
      if zone = location.zone then (policy.zonePool zone).chunksInUse + 1
      else (policy.zonePool zone).chunksInUse)
    (ran : znPolicyChunkUpdate policy location .write = some after) :
    QueueSound after.invalidPqueue ∧
      after.invalidPqueue.zones.Nodup ∧
      ∀ handle ∈ after.invalidPqueue.arr,
        EntryMove policy after (some location.zone) handle := by
  have shape := znPolicyChunkUpdate_write ran
  split at shape
  next last =>
      let count := ((recordChunk policy location).zonePool location.zone).chunksInUse
      have heap : after.invalidPqueue =
          (znMinheapInsert policy.invalidPqueue location.zone count).2 := by
        rw [shape]
        rfl
      obtain ⟨_, handles, newData, oldData, _⟩ :=
        insert_spec policy.invalidPqueue location.zone count
      obtain ⟨sound, newPriority, oldPriority⟩ := follows.sound.insert
        (Nat.lt_of_le_of_lt (follows.room below (outside last)) few) location.zone count
      have zones := (follows.sound.allocated.zones_insert location.zone count).1
      rw [← heap] at handles newData oldData sound newPriority oldPriority zones
      refine ⟨sound, zones.nodup_iff.mpr (List.nodup_cons.mpr ⟨outside last, follows.once⟩), ?_⟩
      intro handle member
      rcases List.mem_cons.mp (handles.mem_iff.mp member) with rfl | before
      · apply EntryMove.level
        rw [newPriority, newData, shape, chunksInUse_enterHeap]
      · have notFresh := follows.sound.allocated.ne_fresh before
        have apart : (policy.invalidPqueue.entry handle).data ≠ location.zone :=
          fun same => outside last (same ▸ data_mem_zones before)
        exact .stays before ⟨oldData handle notFresh, oldPriority handle notFresh⟩
          (by rw [counts, if_neg apart])
  next notLast =>
      have heap : after.invalidPqueue = policy.invalidPqueue := by
        rw [shape]
        rfl
      rw [heap]
      refine ⟨follows.sound, follows.once, fun handle member => ?_⟩
      by_cases here : (policy.invalidPqueue.entry handle).data = location.zone
      · exact .behind member (by simp [heap]) (congrArg some here.symm)
          (by rw [counts, if_pos here])
      · exact .stays member (by simp [heap]) (by rw [counts, if_neg here])

theorem update_write (follows : HeapFollows nrZones policy history) (few : nrZones < 2 ^ 31)
    {location : ZnPair}
    (inPool : location.zone < nrZones ∧ location.chunkOffset < policy.maxZoneChunks)
    (new : .put location.place ∉ history) :
    ∃ after, znPolicyChunkUpdate policy location .write = some after ∧
      HeapFollows nrZones after (.put location.place :: history) ∧
      ∀ handle ∈ after.invalidPqueue.arr,
        EntryMove policy after (some location.zone) handle := by
  have unused : (policy.slot location.place).inUse = false := by
    by_contra used
    have live := mem_liveSlots.mpr ⟨inPool, by simpa using used⟩
    have queued := (follows.recency.metadata.queued location.place).mpr live
    exact new (put_mem history ((follows.recency.recent.mem _).mp queued))
  obtain ⟨after, ran, recency⟩ := follows.recency.update_write inPool unused
  have counts := follows.written_count recency inPool ran
  obtain ⟨_, pointers, _⟩ := znPolicyChunkUpdate_pool ran
  have zones := znPolicyChunkUpdate_heap follows.sound.allocated ran
  have outside : location.chunkOffset + 1 = policy.maxZoneChunks →
      location.zone ∉ policy.invalidPqueue.zones := by
    intro last inHeap
    obtain ⟨chunk, same, put⟩ := (follows.entered location.zone).mp inHeap
    obtain rfl : chunk = location.chunkOffset := by omega
    exact new put
  have points := follows.points.update_write follows.sound.allocated outside ran
  have sameMax := znPolicyChunkUpdate_max ran
  obtain ⟨sound, once, moves⟩ := follows.written few inPool.1 outside counts ran
  have put_mem' : ∀ place, .put place ∈ Use.put location.place :: history ↔
      place = location.place ∨ .put place ∈ history := fun place => by simp
  refine ⟨after, ran, ⟨recency, fun place member => ?_, sound, points, once, fun zone => ?_,
    fun zone left => ?_, fun handle member => (moves handle member).notAhead follows.notAhead⟩,
    moves⟩
  · rw [sameMax]
    rcases (put_mem' place).mp member with rfl | before
    · exact inPool
    · exact follows.puts place before
  · rw [zones, follows.entered, sameMax]
    constructor
    · intro either
      rcases either with ⟨chunk, same, put⟩ | ⟨last, rfl⟩
      · exact ⟨chunk, same, List.mem_cons_of_mem _ put⟩
      · exact ⟨location.chunkOffset, last, List.mem_cons_self⟩
    · intro given
      obtain ⟨chunk, same, put⟩ := given
      rcases (put_mem' _).mp put with here | before
      · obtain ⟨rfl, rfl⟩ := Prod.mk.inj here
        exact .inr ⟨same, rfl⟩
      · exact .inl ⟨chunk, same, before⟩
  · rw [zones, not_or, not_and'] at left
    rw [pointers zone (Classical.or_iff_not_imp_left.mpr fun here => left.2 (not_not.mp here))]
    exact follows.unset zone left.1

theorem passed (follows : HeapFollows nrZones policy history) (few : nrZones < 2 ^ 31)
    {pair : ZnPair} (evicted : evictChunk policy = some (pair, after)) :
    QueueSound after.invalidPqueue ∧ ∀ handle ∈ after.invalidPqueue.arr,
      EntryMove policy after none handle := by
  obtain ⟨_, _, _, _, _, _, _, _, counts⟩ := evictChunk_spec evicted
  by_cases inHeap : pair.zone ∈ policy.invalidPqueue.zones
  · obtain ⟨handle, member, here⟩ := mem_zones.mp inHeap
    have points := follows.points handle member
    rw [here] at points
    obtain ⟨sound, handles, data, priority⟩ := evictChunk_entries follows.sound
      (Nat.lt_of_le_of_lt follows.size_le few) member points evicted
    refine ⟨sound, fun other within => ?_⟩
    have inside := handles.mem_iff.mp within
    by_cases same : other = handle
    · subst same
      apply EntryMove.level
      rw [priority, if_pos rfl, data, here]
    · have apart : (policy.invalidPqueue.entry other).data ≠ pair.zone := by
        intro sameZone
        exact same (List.inj_on_of_nodup_map follows.once inside member
          (sameZone.trans here.symm))
      exact .stays inside ⟨data other, by rw [priority, if_neg same]⟩
        (by rw [counts, if_neg apart])
  · -- the pointer was never assigned, and the update is turned down
    have heap := (evictChunk_heap evicted).1
    rw [follows.unset pair.zone inHeap] at heap
    have sameHeap : after.invalidPqueue = policy.invalidPqueue := heap
    rw [sameHeap]
    refine ⟨follows.sound, fun handle member => ?_⟩
    have apart : (policy.invalidPqueue.entry handle).data ≠ pair.zone :=
      fun same => inHeap (same ▸ data_mem_zones member)
    exact .stays member (by simp [sameHeap]) (by rw [counts, if_neg apart])

theorem pass (follows : HeapFollows nrZones policy history) (few : nrZones < 2 ^ 31)
    {place : Slot} {rest : List Slot} (queued : policy.lruQueue.items = place :: rest) :
    ∃ pair after, evictChunk policy = some (pair, after) ∧ pair.place = place ∧
      HeapFollows nrZones after (.drop place :: history) ∧
      ∀ handle ∈ after.invalidPqueue.arr, EntryMove policy after none handle := by
  obtain ⟨pair, after, evicted, named, _, recency⟩ := follows.recency.evictChunk queued
  obtain ⟨heap, pointers⟩ := evictChunk_heap evicted
  obtain ⟨_, _, _, _, _, _, sameMax, _, counts⟩ := evictChunk_spec evicted
  have zones := (evictChunk_zones evicted).1
  obtain ⟨sound, moves⟩ := follows.passed few evicted
  refine ⟨pair, after, evicted, named, ⟨recency, fun other member => ?_, sound,
    follows.points.evictChunk evicted, zones.nodup_iff.mpr follows.once, fun zone => ?_,
    fun zone left => ?_, fun handle member => (moves handle member).notAhead follows.notAhead⟩,
    moves⟩
  · rw [sameMax]
    exact follows.puts other (by simpa using member)
  · rw [zones.mem_iff, follows.entered, sameMax]
    simp
  · rw [pointers]
    exact follows.unset zone fun inHeap => left (zones.mem_iff.mpr inHeap)

theorem tracks (follows : HeapFollows nrZones policy history) {zone : Nat}
    (inHeap : zone ∈ policy.invalidPqueue.zones)
    (level : ∀ handle ∈ policy.invalidPqueue.arr, (policy.invalidPqueue.entry handle).data = zone →
      (policy.invalidPqueue.entry handle).priority = (policy.zonePool zone).chunksInUse) :
    PriorityTracks policy zone :=
  ⟨List.count_eq_one_of_mem follows.once inHeap, level⟩

end HeapFollows

theorem EntryMove.level_of_level {policy after : ZnPolicyChunk Thread} {written : Option Nat}
    {handle zone : Nat} (move : EntryMove policy after written handle) (other : written ≠ some zone)
    (tracks : PriorityTracks policy zone) (here : (after.invalidPqueue.entry handle).data = zone) :
    (after.invalidPqueue.entry handle).priority = (after.zonePool zone).chunksInUse := by
  subst here
  cases move with
  | level priority => exact priority
  | stays member entry count =>
      have before := tracks.2 handle member entry.1.symm
      rw [entry.2, before, entry.1, count]
  | behind member entry written count =>
      exact absurd (entry.1 ▸ written) other

/-! ## Runs -/

namespace ChunkLog

variable {nrZones maxZoneChunks : Nat} {log next : ChunkLog}

/-- What a call keeps, and what it does to the entries. -/
theorem step_follows {call : ChunkCall} (few : nrZones < 2 ^ 31)
    (follows : HeapFollows nrZones log.policy log.history)
    (allowed : OncePerChunk nrZones log call) (taken : log.step call = some next) :
    HeapFollows nrZones next.policy next.history ∧
      (∀ handle ∈ next.policy.invalidPqueue.arr,
        EntryMove log.policy next.policy call.writtenZone handle) ∧
      next.policy.maxZoneChunks = log.policy.maxZoneChunks ∧
      ∀ event ∈ log.history, event ∈ next.history := by
  cases call with
  | update location ioType =>
      cases ioType with
      | read =>
          obtain ⟨after, ran, kept, moves⟩ := follows.update_read location
          rw [step, ran] at taken
          cases Option.some.inj taken
          exact ⟨kept, moves, (znPolicyChunkUpdate_read ran).2.2.1, fun _ member =>
            List.mem_cons_of_mem _ member⟩
      | write =>
          obtain ⟨after, ran, kept, moves⟩ := follows.update_write few allowed.1 (allowed.2 rfl)
          rw [step, ran] at taken
          cases Option.some.inj taken
          exact ⟨kept, moves, znPolicyChunkUpdate_max ran, fun _ member =>
            List.mem_cons_of_mem _ member⟩
  | evict nrEvict =>
      obtain ⟨one, some⟩ := allowed
      subst one
      cases queued : log.policy.lruQueue.items with
      | nil => simp [LinkedQueue.length_eq, queued] at some
      | cons place rest =>
          obtain ⟨pair, after, evicted, named, kept, moves⟩ := follows.pass few queued
          simp only [step, evictChunks, evicted, Option.map_some] at taken
          cases Option.some.inj taken
          rw [← named] at kept
          exact ⟨kept, moves, (evictChunk_zones evicted).2.2.2, fun _ member =>
            List.mem_cons_of_mem _ member⟩

abbrev UpdateRun (nrZones maxZoneChunks : Nat) (log : ChunkLog) : Prop :=
  Reach step (OncePerChunk nrZones) (· = init nrZones maxZoneChunks) log

theorem UpdateRun.follows (starts : InitReturns nrZones maxZoneChunks) (few : nrZones < 2 ^ 31)
    (some : nrZones ≠ 0) (run : UpdateRun nrZones maxZoneChunks log) :
    HeapFollows nrZones log.policy log.history := by
  induction run with
  | start begins =>
      cases begins
      exact HeapFollows.init (initReturns_iff.mp starts) some
  | step call _ allowed taken follows => exact (step_follows few follows allowed taken).1

/-- Once its chunks have all had their updates, a level entry stays level. -/
theorem tracks_later {zone : Nat} (few : nrZones < 2 ^ 31)
    (follows : HeapFollows nrZones log.policy log.history) (all : Updated log zone)
    (tracks : PriorityTracks log.policy zone) {later : ChunkLog}
    (run : Reach step (OncePerChunk nrZones) (· = log) later) :
    HeapFollows nrZones later.policy later.history ∧ Updated later zone ∧
      PriorityTracks later.policy zone := by
  induction run with
  | start begins =>
      cases begins
      exact ⟨follows, all, tracks⟩
  | @step before after call _ allowed taken ih =>
      obtain ⟨follows, updated, tracks⟩ := ih
      obtain ⟨kept, moves, sameMax, grows⟩ := step_follows few follows allowed taken
      refine ⟨kept, fun chunk inside => grows _ (updated chunk (sameMax ▸ inside)), ?_⟩
      have otherZone : call.writtenZone ≠ some zone := by
        cases call with
        | update location ioType =>
            cases ioType with
            | read => exact (Option.some_ne_none zone).symm
            | write =>
                intro here
                cases Option.some.inj here
                exact allowed.2 rfl (updated location.chunkOffset allowed.1.2)
        | evict nrEvict => exact (Option.some_ne_none zone).symm
      have inHeap : zone ∈ before.policy.invalidPqueue.zones :=
        List.count_pos_iff.mp (by rw [tracks.1]; decide)
      obtain ⟨chunk, last, put⟩ := (follows.entered zone).mp inHeap
      apply kept.tracks ((kept.entered zone).mpr ⟨chunk, last.trans sameMax.symm, grows _ put⟩)
      exact fun handle member => (moves handle member).level_of_level otherZone tracks

end ChunkLog

end ZNCache
