import ZNCache.CacheMapAgreement
import ZNCache.ChunkMetadata
import ZNCache.Occupancy

/-!
# What the GC does to cached data

The GC inserts a moved identifier at its new place but leaves it listed in the old
zone, whose table it then clears: the identifier ends up empty.  Zones that are still
in the heap are full, so no move touches them before their turn.
-/

set_option autoImplicit false

namespace ZNCache

open ZnPolicyChunk

variable {Thread : Type}

/-- Between calls of a single thread: the tables, the pool, the queue, the heap and the
disk agree. -/
structure GcReady (config : CacheConfig) (cache : ChunkCache Thread) (held : Multiset ZnPair)
    (writers : Multiset Nat) : Prop where
  zones : ZonesSound cache.zoneState held
  nrZones : cache.zoneState.numZones = config.nrZones
  map : CacheMapAgrees cache.cacheMap writers
  located : LocatedListed cache.cacheMap
  metadata : ChunkMetadata config.nrZones cache.evictionPolicy
  slots : ∀ zone chunk id, (cache.cacheMap.dataMap zone).lookup chunk = some id ↔
    (zone, chunk) ∈ cache.evictionPolicy.liveSlots config.nrZones ∧
      (cache.evictionPolicy.slot (zone, chunk)).id = id
  heapOnce : cache.evictionPolicy.invalidPqueue.zones.Nodup
  heapFull : ∀ zone, zone ∈ cache.evictionPolicy.invalidPqueue.zones ↔
    IsFull cache.zoneState zone
  priority : ∀ handle ∈ cache.evictionPolicy.invalidPqueue.arr,
    (cache.evictionPolicy.invalidPqueue.entry handle).priority =
      (cache.evictionPolicy.zonePool
        (cache.evictionPolicy.invalidPqueue.entry handle).data).chunksInUse
  zoneIds : ∀ zone, IsFull cache.zoneState zone →
    (cache.evictionPolicy.zonePool zone).zoneId = zone
  stored : ∀ id location, cache.cacheMap.Locates id location →
    cache.disk location.zone location.chunkOffset = some id

def LiveAt (nrZones : Nat) (cache : ChunkCache Thread) (id : Nat) (location : ZnPair) : Prop :=
  cache.cacheMap.Locates id location ∧
    (location.zone, location.chunkOffset) ∈ cache.evictionPolicy.liveSlots nrZones

/-- Every live identifier is still located where its chunk is, and listed there, and the
tables of the reclaimed zones are empty. -/
structure KeepsCachedData (nrZones : Nat) (before : ChunkCache Thread)
    (after : GcRun Thread) : Prop where
  kept : ∀ id location, LiveAt nrZones before id location →
    ∃ place, after.cache.cacheMap.Locates id place ∧
      after.cache.disk place.zone place.chunkOffset = some id ∧
      (after.cache.cacheMap.dataMap place.zone).lookup place.chunkOffset = some id
  cleared : ∀ zone ∈ after.reclaimed, after.cache.cacheMap.dataMap zone = ∅

/-! ## The progress of a run -/

section Progress

variable {config : CacheConfig} {base : ChunkCache Thread} {held : Multiset ZnPair}
  {writers : Multiset Nat}

structure Untouched (base : ChunkCache Thread) (run : GcRun Thread) (zone : Nat) : Prop where
  heaped : zone ∈ base.evictionPolicy.invalidPqueue.zones
  full : IsFull run.cache.zoneState zone
  pool : run.cache.evictionPolicy.zonePool zone = base.evictionPolicy.zonePool zone
  table : run.cache.cacheMap.dataMap zone = base.cacheMap.dataMap zone

structure GcSound (base : ChunkCache Thread) (run : GcRun Thread) : Prop where
  zones : ∃ held, ZonesSound run.cache.zoneState held
  keys : SmallKeys run.cache.cacheMap
  sameMax : run.cache.evictionPolicy.maxZoneChunks = base.evictionPolicy.maxZoneChunks
  heapOnce : run.cache.evictionPolicy.invalidPqueue.zones.Nodup
  heaped : ∀ zone ∈ run.cache.evictionPolicy.invalidPqueue.zones, Untouched base run zone

structure AllKept (nrZones : Nat) (base : ChunkCache Thread) (run : GcRun Thread) : Prop where
  live : ∀ id location, LiveAt nrZones base id location →
    run.cache.cacheMap.Locates id location ∧
      run.cache.disk location.zone location.chunkOffset = some id ∧
      (run.cache.cacheMap.dataMap location.zone).lookup location.chunkOffset = some id
  cleared : ∀ zone ∈ run.reclaimed, run.cache.cacheMap.dataMap zone = ∅

/-- Between two zones: as soon as something was moved, a live identifier is lost. -/
structure GcBetween (nrZones : Nat) (base : ChunkCache Thread) (run : GcRun Thread) : Prop where
  sound : GcSound base run
  lost : run.moved ≠ [] → ∃ id location, LiveAt nrZones base id location ∧
    location.zone ∉ run.cache.evictionPolicy.invalidPqueue.zones ∧
    ∀ place, ¬ run.cache.cacheMap.Locates id place
  kept : run.moved = [] → AllKept nrZones base run

/-- In the scan of a zone: the chunks from `chunk` on are as they were, and the lost
identifier may still be listed in the zone, to be cleared with it. -/
structure GcWithin (nrZones : Nat) (base : ChunkCache Thread) (zone chunk : Nat)
    (run : GcRun Thread) : Prop where
  sound : GcSound base run
  heaped : zone ∈ base.evictionPolicy.invalidPqueue.zones
  taken : zone ∉ run.cache.evictionPolicy.invalidPqueue.zones
  full : IsFull run.cache.zoneState zone
  zoneId : (run.cache.evictionPolicy.zonePool zone).zoneId = zone
  table : run.cache.cacheMap.dataMap zone = base.cacheMap.dataMap zone
  slots : ∀ later, chunk ≤ later →
    run.cache.evictionPolicy.slot (zone, later) = base.evictionPolicy.slot (zone, later)
  losing : run.moved ≠ [] → ∃ id location, LiveAt nrZones base id location ∧
    location.zone ∉ run.cache.evictionPolicy.invalidPqueue.zones ∧
    (location.zone ≠ zone → ∀ place, ¬ run.cache.cacheMap.Locates id place)
  kept : run.moved = [] → AllKept nrZones base run ∧
    ∀ earlier < chunk, (base.evictionPolicy.slot (zone, earlier)).inUse = false

theorem GcReady.between (ready : GcReady config base held writers) :
    GcBetween config.nrZones base ⟨base, [], []⟩ where
  sound := {
    zones := ⟨held, ready.zones⟩
    keys := ready.map.smallKeys
    sameMax := rfl
    heapOnce := ready.heapOnce
    heaped := fun zone member => ⟨member, (ready.heapFull zone).mp member, rfl, rfl⟩ }
  lost := fun moved => absurd rfl moved
  kept := fun _ => {
    live := fun id location live =>
      ⟨live.1, ready.stored id location live.1, ready.located id location live.1⟩
    cleared := by simp }

theorem GcBetween.extract (ready : GcReady config base held writers) {run : GcRun Thread}
    {handle : Nat} {heap : ZnMinheap} (between : GcBetween config.nrZones base run)
    (extracted : znMinheapExtractMin run.cache.evictionPolicy.invalidPqueue =
      some (handle, heap)) :
    GcWithin config.nrZones base (heap.entry handle).data 0
      { run with cache := run.cache.setHeap heap } := by
  have zones := ZnMinheap.zones_extractMin extracted
  have once := between.sound.heapOnce
  rw [zones.nodup_iff, List.nodup_cons] at once
  have here : Untouched base run (heap.entry handle).data :=
    between.sound.heaped _ (zones.mem_iff.mpr List.mem_cons_self)
  have still : ∀ zone ∈ heap.zones, zone ∈ run.cache.evictionPolicy.invalidPqueue.zones :=
    fun zone member => zones.mem_iff.mpr (List.mem_cons_of_mem _ member)
  constructor
  · constructor
    · exact between.sound.zones
    · exact between.sound.keys
    · exact between.sound.sameMax
    · exact once.2
    · intro zone member
      have before := between.sound.heaped zone (still zone member)
      exact ⟨before.heaped, before.full, before.pool, before.table⟩
  · exact here.heaped
  · exact once.1
  · exact here.full
  · have full := (ready.heapFull _).mp here.heaped
    exact (congrArg EvictionPolicyChunkZone.zoneId here.pool).trans (ready.zoneIds _ full)
  · exact here.table
  · intro later _
    simp only [slot, ChunkCache.setHeap, ChunkCache.setPolicy, here.pool]
  · intro moved
    obtain ⟨id, location, live, out, lost⟩ := between.lost moved
    exact ⟨id, location, live, fun member => out (still _ member), fun _ => lost⟩
  · intro none
    exact ⟨⟨(between.kept none).live, (between.kept none).cleared⟩, by simp⟩

theorem GcReady.live (ready : GcReady config base held writers) {zone chunk : Nat}
    (slotLive : (zone, chunk) ∈ base.evictionPolicy.liveSlots config.nrZones) :
    ∃ location, location.zone = zone ∧ location.chunkOffset = chunk ∧
      LiveAt config.nrZones base (base.evictionPolicy.slot (zone, chunk)).id location := by
  have listed := (ready.slots zone chunk _).mpr ⟨slotLive, rfl⟩
  obtain ⟨entry, found, isLoc, sameZone, sameChunk⟩ := ready.map.listed zone chunk _ listed
  refine ⟨entry.location, sameZone, sameChunk, ⟨entry, found, isLoc, rfl⟩, ?_⟩
  rw [sameZone, sameChunk]
  exact slotLive

theorem GcWithin.move (ready : GcReady config base held writers) {run next : GcRun Thread}
    {zone chunk : Nat} (inZone : chunk < run.cache.evictionPolicy.maxZoneChunks)
    (within : GcWithin config.nrZones base zone chunk run)
    (moved : GcMoveSpec .smooth zone run chunk next) :
    GcWithin config.nrZones base zone (chunk + 1) next := by
  have slotHere := within.slots chunk (Nat.le_refl _)
  cases moved with
  | skip unused =>
      refine ⟨within.sound, within.heaped, within.taken, within.full, within.zoneId,
        within.table, fun later below => within.slots later (by omega), within.losing, ?_⟩
      intro none
      obtain ⟨kept, idle⟩ := within.kept none
      refine ⟨kept, fun earlier below => ?_⟩
      rcases Nat.lt_succ_iff_lt_or_eq.mp below with before | same
      · exact idle earlier before
      · rw [same, ← slotHere]
        exact unused
  | moved location answer used handed inserted =>
      obtain ⟨heldNow, sound⟩ := within.sound.zones
      obtain ⟨handedSound, sameFull, notFull⟩ := sound.handed handed
      have apart : ∀ other, IsFull run.cache.zoneState other → other ≠ location.zone :=
        fun other full same => notFull (same ▸ full)
      have zoneApart := apart zone within.full
      obtain ⟨small, isLocated⟩ := within.sound.keys.insert inserted
      simp only [isLocated]
      have below : zone < config.nrZones :=
        ready.nrZones ▸ ((ready.heapFull zone).mp within.heaped).1
      have slotLive : (zone, chunk) ∈ base.evictionPolicy.liveSlots config.nrZones := by
        rw [mem_liveSlots, ← within.sound.sameMax, ← slotHere]
        exact ⟨⟨below, inZone⟩, used⟩
      obtain ⟨old, oldZone, _, oldLive⟩ := ready.live slotLive
      constructor
      · constructor
        · exact ⟨_, handedSound⟩
        · exact within.sound.keys.located small location
        · exact within.sound.sameMax
        · exact within.sound.heapOnce
        · intro other member
          have before := within.sound.heaped other member
          have otherApart := apart other before.full
          refine ⟨before.heaped, (sameFull other).mpr before.full, ?_, ?_⟩
          · refine (zonePool_moveSlot _ ?_ otherApart).trans before.pool
            exact fun (same : other = zone) => within.taken (same ▸ member)
          · refine Eq.trans ?_ before.table
            simp [CacheMap.located, otherApart]
      · exact within.heaped
      · exact within.taken
      · exact (sameFull zone).mpr within.full
      · exact (zoneId_moveSlot _ _ _ _).trans within.zoneId
      · refine Eq.trans ?_ within.table
        simp [CacheMap.located, zoneApart]
      · intro later after
        rw [← within.slots later (by omega)]
        refine (slot_moveSlot _ _ _ _).trans ?_
        rw [if_neg fun same => zoneApart (congrArg Prod.fst same),
          if_neg fun same => Nat.ne_of_gt after (congrArg Prod.snd same)]
      · intro _
        refine ⟨_, old, oldLive, ?_, fun elsewhere => absurd oldZone elsewhere⟩
        rw [oldZone]
        exact within.taken
      · simp

/-- After its scan the zone's table is cleared, and with it the identifiers that were
moved out of the zone. -/
theorem GcWithin.free (ready : GcReady config base held writers) {run next : GcRun Thread}
    {zone : Nat}
    (within : GcWithin config.nrZones base zone run.cache.evictionPolicy.maxZoneChunks run)
    (freed : gcFree .smooth zone run = some next) : GcBetween config.nrZones base next := by
  obtain ⟨answer, cleared, rfl⟩ := gcFree_spec freed
  rw [within.zoneId] at cleared ⊢
  obtain ⟨heldNow, sound⟩ := within.sound.zones
  obtain ⟨evictedSound, evicted⟩ := sound.evict within.full
  obtain ⟨zoneMap, dataMap, _⟩ := within.sound.keys.clearZone_state cleared
  have unlocated : ∀ id place, answer.state.Locates id place →
      run.cache.cacheMap.Locates id place ∧ id ∉ (run.cache.cacheMap.dataMap zone).values := by
    intro id place given
    obtain ⟨entry, found, isLoc, there⟩ := given
    rw [zoneMap id] at found
    split at found
    next =>
        obtain ⟨old, _, rfl⟩ := Option.map_eq_some_iff.mp found
        simp [ZoneMapResult.emptied] at isLoc
    next unlisted => exact ⟨⟨entry, found, isLoc, there⟩, unlisted⟩
  have listedHere : ∀ id location, LiveAt config.nrZones base id location →
      (id ∈ (run.cache.cacheMap.dataMap zone).values ↔ location.zone = zone) := by
    intro id location given
    obtain ⟨located, _⟩ := given
    rw [within.table, GHashTable.mem_values]
    constructor
    · intro given
      obtain ⟨chunk, listed⟩ := given
      obtain ⟨entry, found, _, sameZone, _⟩ := ready.map.listed zone chunk id listed
      obtain ⟨entry', found', _, rfl⟩ := located
      cases Option.some.inj (found.symm.trans found')
      exact sameZone
    · intro equal
      subst equal
      exact ⟨_, ready.located id location located⟩
  constructor
  · constructor
    · exact ⟨_, evictedSound⟩
    · exact within.sound.keys.clearZone cleared
    · exact within.sound.sameMax
    · exact within.sound.heapOnce
    · intro other member
      have before := within.sound.heaped other member
      have apart : other ≠ zone := fun same => within.taken (same ▸ member)
      refine ⟨before.heaped, ?_, before.pool, ?_⟩
      · have stillFull := (freed_full other).mpr ⟨before.full, apart⟩
        rw [← evicted] at stillFull
        exact stillFull
      · refine Eq.trans ?_ before.table
        simp [ZnCache.evictZone, dataMap, apart]
  · intro moved
    obtain ⟨id, location, live, out, lost⟩ := within.losing moved
    refine ⟨id, location, live, out, fun place located => ?_⟩
    obtain ⟨before, unlisted⟩ := unlocated id place located
    apply lost _ place before
    rwa [listedHere id location live] at unlisted
  · intro none
    obtain ⟨kept, idle⟩ := within.kept none
    constructor
    · intro id location live
      have apart : location.zone ≠ zone := by
        intro same
        have inUse := mem_liveSlots.mp live.2
        have unused := idle location.chunkOffset (within.sound.sameMax ▸ inUse.1.2)
        rw [← same, inUse.2] at unused
        cases unused
      obtain ⟨⟨entry, found, isLoc, there⟩, stored, listed⟩ := kept.live id location live
      refine ⟨⟨entry, ?_, isLoc, there⟩, ?_, ?_⟩
      · refine (zoneMap id).trans ?_
        rw [if_neg (fun member => apart ((listedHere id location live).mp member)), found]
      · simp only [ZnCache.evictZone]
        split
        next => exact stored
        next => simpa [apart] using stored
      · simpa [ZnCache.evictZone, dataMap, apart] using listed
    · intro other member
      by_cases same : other = zone
      · simp [ZnCache.evictZone, dataMap, same]
      · have before : other ∈ run.reclaimed := by simpa [same] using member
        simpa [ZnCache.evictZone, dataMap, same] using kept.cleared other before

end Progress

theorem gcData_rule {config : CacheConfig} {base : ChunkCache Thread}
    {held : Multiset ZnPair} {writers : Multiset Nat}
    (ready : GcReady config base held writers) :
    GcRule .smooth (GcBetween config.nrZones base)
      (fun zone chunk run => GcWithin config.nrZones base zone chunk run) where
  extract := fun _ _ _ between extracted => between.extract ready extracted
  move := fun _ _ _ _ inZone within moved => within.move ready inZone moved
  free := fun _ _ _ within freed => within.free ready freed

/-- The GC keeps the cached data exactly in the runs in which it moves none of it. -/
theorem gc_keepsCachedData {config : CacheConfig} {cache : ChunkCache Thread}
    {after : GcRun Thread} {held : Multiset ZnPair} {writers : Multiset Nat}
    (ready : GcReady config cache held writers)
    (ran : znPolicyChunkGc config .smooth cache = some after) :
    KeepsCachedData config.nrZones cache after ↔ GcMovesNothing config .smooth cache := by
  have progress := (gcData_rule ready).run ran ready.between
  rw [← znPolicyChunkGc_moved ran]
  constructor
  · intro keeps
    by_contra moved
    obtain ⟨id, location, live, _, lost⟩ := progress.lost moved
    obtain ⟨place, located, _⟩ := keeps.kept id location live
    exact lost place located
  · intro none
    have kept := progress.kept none
    exact ⟨fun id location live => ⟨location, kept.live id location live⟩, kept.cleared⟩

/-! ### A run that loses its only chunk -/

theorem afterFirstMiss_zones : ZonesSound afterFirstMiss.zoneState 0 := by
  have fresh := ZonesSound.init (show 2 < 2 ^ 31 by decide) 4096 4096 4096 1 .zns
  have handed : (zsmGetActiveZone 0 (zsmInit 2 4096 4096 4096 1 .zns)).ret =
      .success ⟨0, 0, 0, false⟩ := rfl
  exact (fresh.handed handed).1.returnActiveZone.1

theorem afterFirstMiss_lookup (zone chunk : Nat) :
    (afterFirstMiss.cacheMap.dataMap zone).lookup chunk =
      if zone = 0 ∧ chunk = 0 then some 0 else none := by
  apply (CacheMap.located_lookup _ _ _ zone chunk).trans
  simp [znCachemapFind, znCachemapInit, CacheMap.setEntry]

theorem afterFirstMiss_locates {id : Nat} {location : ZnPair}
    (located : afterFirstMiss.cacheMap.Locates id location) :
    id = 0 ∧ location = ⟨0, 0, 0, false⟩ := by
  rcases CacheMap.located_locates located with here | ⟨apart, entry, found, _⟩
  · exact here
  · simp [znCachemapFind, znCachemapInit, gintToPointer, apart] at found

theorem afterFirstMiss_slot (position : Slot) :
    afterFirstMiss.evictionPolicy.slot position =
      if position = (0, 0) then ⟨0, 0, 0, true⟩ else ⟨0, 0, 0, false⟩ :=
  (slot_enterHeap _ _ _).trans (slot_recordChunk _ _ _)

theorem afterFirstMiss_full (zone : Nat) : IsFull afterFirstMiss.zoneState zone ↔ zone = 0 := by
  constructor
  · intro given
    obtain ⟨below, full⟩ := given
    have two : zone < 2 := below
    have either : zone = 0 ∨ zone = 1 := by omega
    rcases either with rfl | rfl
    · rfl
    · revert full
      decide
  · intro same
    subst same
    exact ⟨by decide, by decide⟩

theorem gcReady_afterFirstMiss : GcReady twoZoneConfig afterFirstMiss 0 0 where
  zones := afterFirstMiss_zones
  nrZones := rfl
  map := by
    have found := (znCachemapFind_spec () (znCachemapInit : CacheMap Unit)
      (show 0 < 2 ^ 32 by decide)).agrees CacheMapAgrees.init (by decide)
    exact found.located ⟨0, 0, 0, false⟩
  located := by
    intro id location located
    obtain ⟨rfl, rfl⟩ := afterFirstMiss_locates located
    exact afterFirstMiss_lookup 0 0
  metadata := metadata_afterFirstMiss
  slots := by
    intro zone chunk id
    rw [afterFirstMiss_lookup, mem_liveSlots, afterFirstMiss_slot]
    by_cases here : zone = 0 ∧ chunk = 0
    · obtain ⟨rfl, rfl⟩ := here
      simp [twoZoneConfig, afterFirstMiss, chunkInit, enterHeap, recordChunk, setZone]
    · rw [if_neg here, if_neg (by simpa using here)]
      simp
  heapOnce := by decide
  heapFull := by
    intro zone
    rw [afterFirstMiss_full]
    exact List.mem_singleton
  priority := by decide
  zoneIds := by
    intro zone full
    rw [(afterFirstMiss_full zone).mp full]
    rfl
  stored := by
    intro id location located
    obtain ⟨rfl, rfl⟩ := afterFirstMiss_locates located
    rfl

theorem gc_losesData_ofMovedChunk :
    GcReady twoZoneConfig afterFirstMiss 0 0 ∧
      ∃ after, znPolicyChunkGc twoZoneConfig .smooth afterFirstMiss = some after ∧
        ¬ KeepsCachedData twoZoneConfig.nrZones afterFirstMiss after := by
  refine ⟨gcReady_afterFirstMiss, _, rfl, fun keeps => ?_⟩
  have live : LiveAt twoZoneConfig.nrZones afterFirstMiss 0 ⟨0, 0, 0, false⟩ :=
    ⟨⟨_, rfl, rfl, rfl⟩, by decide⟩
  obtain ⟨place, ⟨entry, found, isLoc, _⟩, _⟩ := keeps.kept 0 _ live
  cases Option.some.inj found
  cases isLoc

theorem gc_keepsCachedData_afterFirstMiss :
    ∃ after, znPolicyChunkGc twoZoneConfig .smooth afterFirstMiss = some after ∧
      (KeepsCachedData twoZoneConfig.nrZones afterFirstMiss after ↔
        GcMovesNothing twoZoneConfig .smooth afterFirstMiss) := by
  obtain ⟨after, ran⟩ :
      ∃ after, znPolicyChunkGc twoZoneConfig .smooth afterFirstMiss = some after := ⟨_, rfl⟩
  exact ⟨after, ran, gc_keepsCachedData gcReady_afterFirstMiss ran⟩

end ZNCache
