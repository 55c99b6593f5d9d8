import ZNCache.CacheMapAgreement
import ZNCache.Lib.ZoneLru
import ZNCache.Occupancy
import ZNCache.Placement
import ZNCache.SequentialGet

/-!
# The sequential promotional cache is a zone-granular LRU cache

A single thread on a device that never fails.  The queues of the zone manager, the LRU
queue of the policy, the two tables of the cache map and the bytes of the device together
stand for one abstract cache, which answers every call alike.
-/

set_option autoImplicit false

namespace ZNCache

open ByteDevice ZnPolicyPromotional

/-- The abstract cache: zones are numbered, and a chunk is an identifier with its bytes. -/
abbrev LruCache := ZoneLru Nat Nat (List UInt8)

/-- The sizes are aligned, chunks fit into zones and zones on the device. -/
structure SizesFit (config : CacheConfig) (ioSize : Nat) : Prop where
  someZone : 1 ≤ config.nrZones
  evicts : 1 ≤ config.evictLowThreshZones
  chunkPositive : 0 < config.chunkSz
  chunkAligned : config.chunkSz % directAlignment = 0
  ioPositive : 0 < ioSize
  ioAligned : ioSize % directAlignment = 0
  zonePositive : 0 < config.zoneSize
  zoneAligned : config.zoneSize % directAlignment = 0
  chunkFits : config.chunkSz ≤ config.zoneCap
  capFits : config.zoneCap ≤ config.zoneSize
  countFits : config.zoneCap / config.chunkSz < 2 ^ 32
  deviceFits : config.nrZones * config.zoneSize < 2 ^ 63

def chunkAt (config : CacheConfig) (device : Device) (zone chunk : Nat) : List UInt8 :=
  pread device config.chunkSz (chunkPointer config.zoneSize config.chunkSz chunk zone)

section Sizes

variable {config : CacheConfig} {ioSize zone chunk : Nat} {device : Device}

theorem SizesFit.someChunk (sizes : SizesFit config ioSize) : 0 < config.maxZoneChunks :=
  Nat.div_pos sizes.chunkFits sizes.chunkPositive

theorem SizesFit.pointer (sizes : SizesFit config ioSize) (inDevice : zone < config.nrZones)
    (inZone : chunk < config.maxZoneChunks) :
    chunkPointer config.zoneSize config.chunkSz chunk zone =
        config.zoneSize * zone + chunk * config.chunkSz ∧
      chunkPointer config.zoneSize config.chunkSz chunk zone + config.chunkSz ≤
        config.zoneSize * (zone + 1) ∧
      chunkPointer config.zoneSize config.chunkSz chunk zone + config.chunkSz < 2 ^ 64 := by
  have device : config.zoneSize * config.nrZones < 2 ^ 64 := by
    have fits := sizes.deviceFits
    rw [Nat.mul_comm] at fits
    omega
  exact @chunkPointer_exact config.nrZones config.zoneCap config.zoneSize config.chunkSz
    (zone, chunk) sizes.capFits device inDevice inZone

theorem SizesFit.pointerAligned (sizes : SizesFit config ioSize)
    (inDevice : zone < config.nrZones) (inZone : chunk < config.maxZoneChunks) :
    chunkPointer config.zoneSize config.chunkSz chunk zone % directAlignment = 0 := by
  rw [(sizes.pointer inDevice inZone).1]
  apply Nat.mod_eq_zero_of_dvd
  apply Nat.dvd_add
  · exact (Nat.dvd_of_mod_eq_zero sizes.zoneAligned).mul_right _
  · exact (Nat.dvd_of_mod_eq_zero sizes.chunkAligned).mul_left _

theorem SizesFit.reads (sizes : SizesFit config ioSize) {location : ZnPair}
    (inDevice : location.zone < config.nrZones)
    (inZone : location.chunkOffset < config.maxZoneChunks) :
    znReadFromDisk config ioSize device location =
      some (some (chunkAt config device location.zone location.chunkOffset)) :=
  znReadFromDisk_reads sizes.ioPositive sizes.chunkAligned sizes.ioAligned
    (sizes.pointerAligned inDevice inZone) (sizes.pointer inDevice inZone).2.2

theorem SizesFit.chunkAt_write (sizes : SizesFit config ioSize) {other otherChunk : Nat}
    {data : List UInt8} (length : data.length = config.chunkSz)
    (inDevice : zone < config.nrZones) (inZone : chunk < config.maxZoneChunks)
    (otherInDevice : other < config.nrZones) (otherInZone : otherChunk < config.maxZoneChunks) :
    chunkAt config (pwrite device data
        (chunkPointer config.zoneSize config.chunkSz chunk zone)) other otherChunk =
      if other = zone ∧ otherChunk = chunk then data
      else chunkAt config device other otherChunk := by
  split
  next here =>
      obtain ⟨rfl, rfl⟩ := here
      rw [chunkAt, ← length]
      exact pread_pwrite
  next apart =>
      apply pread_pwrite_apart
      obtain ⟨exact, ends, _⟩ := sizes.pointer inDevice inZone
      obtain ⟨otherExact, otherEnds, _⟩ := sizes.pointer otherInDevice otherInZone
      rw [length]
      rcases Nat.lt_trichotomy other zone with before | rfl | after
      · have order : config.zoneSize * (other + 1) ≤ config.zoneSize * zone :=
          Nat.mul_le_mul_left _ before
        omega
      · have chunks : otherChunk ≠ chunk := fun same => apart ⟨rfl, same⟩
        rw [exact, otherExact]
        rcases Nat.lt_or_gt_of_ne chunks with before | after
        · have order : (otherChunk + 1) * config.chunkSz ≤ chunk * config.chunkSz :=
            Nat.mul_le_mul_right _ before
          rw [Nat.succ_mul] at order
          omega
        · have order : (chunk + 1) * config.chunkSz ≤ otherChunk * config.chunkSz :=
            Nat.mul_le_mul_right _ after
          rw [Nat.succ_mul] at order
          omega
      · have order : config.zoneSize * (zone + 1) ≤ config.zoneSize * other :=
          Nat.mul_le_mul_left _ after
        omega

theorem SizesFit.chunkAt_reset (sizes : SizesFit config ioSize) {other otherChunk : Nat}
    (otherInDevice : other < config.nrZones) (otherInZone : otherChunk < config.maxZoneChunks)
    (apart : other ≠ zone) :
    chunkAt config (resetBytes config zone device) other otherChunk =
      chunkAt config device other otherChunk := by
  obtain ⟨exact, ends, _⟩ := sizes.pointer otherInDevice otherInZone
  apply pread_congr
  intro place above below
  have outside : ¬ (config.zoneSize * zone ≤ place ∧ place < config.zoneSize * (zone + 1)) := by
    rcases Nat.lt_or_gt_of_ne apart with before | after
    · have order : config.zoneSize * (other + 1) ≤ config.zoneSize * zone :=
        Nat.mul_le_mul_left _ before
      omega
    · have order : config.zoneSize * (zone + 1) ≤ config.zoneSize * other :=
        Nat.mul_le_mul_left _ after
      omega
  simp only [resetBytes, if_neg outside]

end Sizes

/-- The cache and the abstract one agree.  `writers` are the identifiers that the thread
has claimed. -/
structure Simulates (config : CacheConfig) (state : DeviceCache) (lru : LruCache)
    (writers : Multiset Nat) : Prop where
  zones : ZonesSound state.cache.zoneState 0
  numZones : state.cache.zoneState.numZones = config.nrZones
  maxZoneChunks : state.cache.zoneState.maxZoneChunks = config.maxZoneChunks
  maxActive : state.cache.zoneState.maxNrActiveZones = config.maxActive
  free : state.cache.zoneState.free = lru.free
  active : state.cache.zoneState.active = (lru.filling.map Prod.fst).toList
  offset : ∀ zone held, lru.filling = some (zone, held) →
    (state.cache.zoneState.state zone).chunkOffset = held.length
  isFull : ∀ zone, IsFull state.cache.zoneState zone ↔ zone ∈ state.cache.evictionPolicy.zones
  queue : state.cache.evictionPolicy.Consistent
  queueMax : state.cache.evictionPolicy.zoneMaxChunks = u32 config.maxZoneChunks
  order : state.cache.evictionPolicy.zones = lru.ranked.map FullZone.zone
  timely : lru.Timely
  filled : ∀ entry ∈ lru.ranked, entry.chunks.length = config.maxZoneChunks
  map : CacheMapAgrees state.cache.cacheMap writers
  listed : LocatedListed state.cache.cacheMap
  low : ∀ id entry, state.cache.cacheMap.zoneMap id = some entry → id < 2 ^ 31
  located : ∀ id location, state.cache.cacheMap.Locates id location ↔
    ∃ held data, lru.Holds location.zone held ∧
      held[location.chunkOffset]? = some (id, data) ∧ location.id = 0 ∧ location.inUse = false
  unread : ∀ zone, state.cache.cacheMap.activeReaders zone = 0
  bytes : ∀ zone held chunk id data, lru.Holds zone held → held[chunk]? = some (id, data) →
    chunkAt config state.device zone chunk = data

namespace Simulates

variable {config : CacheConfig} {ioSize : Nat} {state : DeviceCache} {lru : LruCache}
  {writers : Multiset Nat}

/-- The zone that is being filled is not full. -/
theorem notQueued (sim : Simulates config state lru writers) {zone : Nat}
    {held : List (Nat × List UInt8)} (filling : lru.filling = some (zone, held)) :
    zone ∉ state.cache.evictionPolicy.zones := by
  intro queued
  have full := ((sim.isFull zone).mpr queued).2
  have active := (sim.zones.partition.activeIff zone).mp (by simp [sim.active, filling])
  rw [active.2] at full
  cases full

theorem mem_zones (sim : Simulates config state lru writers)
    {entry : FullZone Nat Nat (List UInt8)} (member : entry ∈ lru.ranked) :
    entry.zone ∈ state.cache.evictionPolicy.zones := by
  rw [sim.order]
  exact List.mem_map_of_mem member

theorem zones_nodup (sim : Simulates config state lru writers) :
    state.cache.evictionPolicy.zones.Nodup :=
  LinkedQueue.Tracks.nodup sim.queue

theorem distinct (sim : Simulates config state lru writers) :
    (lru.ranked.map FullZone.zone).Nodup := by
  rw [← sim.order]
  exact sim.zones_nodup

theorem inside (sizes : SizesFit config ioSize) (sim : Simulates config state lru writers)
    {zone : Nat} {held : List (Nat × List UInt8)} (holds : lru.Holds zone held) :
    zone < config.nrZones ∧ held.length ≤ config.maxZoneChunks := by
  rw [← sim.numZones]
  rcases holds with filling | ⟨entry, member, rfl, rfl⟩
  · have active := (sim.zones.partition.activeIff zone).mp (by simp [sim.active, filling])
    have positive := sizes.someChunk
    rw [← sim.maxZoneChunks] at positive
    have room := sim.zones.entries.offsetRoom zone (.inl active.2) positive
    rw [sim.offset zone held filling, sim.maxZoneChunks] at room
    exact ⟨active.1, Nat.le_of_lt room⟩
  · exact ⟨((sim.isFull entry.zone).mpr (sim.mem_zones member)).1, (sim.filled entry member).le⟩

theorem located_of_stored (sizes : SizesFit config ioSize)
    (sim : Simulates config state lru writers) {id : Nat} {data : List UInt8}
    (found : lru.stored id = some data) :
    ∃ location, state.cache.cacheMap.Locates id location ∧
      location.zone < config.nrZones ∧ location.chunkOffset < config.maxZoneChunks ∧
      chunkAt config state.device location.zone location.chunkOffset = data := by
  obtain ⟨zone, held, holds, member⟩ := ZoneLru.stored_eq_some found
  obtain ⟨chunk, here⟩ := List.mem_iff_getElem?.mp member
  obtain ⟨inDevice, fits⟩ := sim.inside sizes holds
  have below := (List.getElem?_eq_some_iff.mp here).1
  exact ⟨⟨zone, chunk, 0, false⟩, (sim.located id _).mpr ⟨held, data, holds, here, rfl, rfl⟩,
    inDevice, Nat.lt_of_lt_of_le below fits, sim.bytes zone held chunk id data holds here⟩

theorem stored_of_located (sim : Simulates config state lru writers) {id : Nat}
    {location : ZnPair} (located : state.cache.cacheMap.Locates id location) :
    lru.stored id ≠ none := by
  intro absent
  obtain ⟨held, data, holds, here, _⟩ := (sim.located id location).mp located
  have nowhere := ZoneLru.stored_eq_none.mp absent _ held holds
  exact nowhere _ (List.mem_of_getElem? here) rfl

theorem reorder (sim : Simulates config state lru writers) {policy : ZnPolicyPromotional}
    {after : LruCache} (hits : Nat) (consistent : policy.Consistent)
    (sameMax : policy.zoneMaxChunks = state.cache.evictionPolicy.zoneMaxChunks)
    (order : policy.zones = after.ranked.map FullZone.zone)
    (sameZones : policy.zones.Perm state.cache.evictionPolicy.zones)
    (timely : after.Timely) (sameFree : after.free = lru.free)
    (sameFilling : after.filling = lru.filling)
    (sameHolds : ∀ zone held, after.Holds zone held ↔ lru.Holds zone held) :
    Simulates config { state with
      cache := { state.cache with evictionPolicy := policy, hits := hits } } after writers where
  zones := sim.zones
  numZones := sim.numZones
  maxZoneChunks := sim.maxZoneChunks
  maxActive := sim.maxActive
  free := sim.free.trans sameFree.symm
  active := by
    rw [sameFilling]
    exact sim.active
  offset := by
    rw [sameFilling]
    exact sim.offset
  isFull := fun zone => (sim.isFull zone).trans sameZones.mem_iff.symm
  queue := consistent
  queueMax := sameMax.trans sim.queueMax
  order := order
  timely := timely
  filled := by
    intro entry member
    rcases (sameHolds _ _).mp (.inr ⟨entry, member, rfl, rfl⟩) with filling | ⟨old, here, _, same⟩
    · have queued : entry.zone ∈ policy.zones := by
        rw [order]
        exact List.mem_map_of_mem member
      exact absurd (sameZones.mem_iff.mp queued) (sim.notQueued filling)
    · rw [← same]
      exact sim.filled old here
  map := sim.map
  listed := sim.listed
  low := sim.low
  located := fun id location => by
    simp only [sameHolds]
    exact sim.located id location
  unread := sim.unread
  bytes := fun zone held chunk id data holds =>
    sim.bytes zone held chunk id data ((sameHolds zone held).mp holds)

/-! ## A hit -/

theorem touch (sim : Simulates config state lru writers) {id : Nat} {location : ZnPair}
    (located : state.cache.cacheMap.Locates id location) (hits : Nat) :
    ∃ policy, znPolicyPromotionalUpdate state.cache.evictionPolicy location .read = some policy ∧
      Simulates config { state with
        cache := { state.cache with evictionPolicy := policy, hits := hits } }
        (lru.touch id).tick writers := by
  obtain ⟨policy, updated, consistent, zones, sameMax⟩ := sim.queue.update_read location
  obtain ⟨policy', updated', _, sameZones, _⟩ := sim.queue.update_read_perm location
  cases Option.some.inj (updated.symm.trans updated')
  refine ⟨policy, updated, ?_⟩
  -- whatever full zone holds the item is the one that it is located in
  have only : ∀ entry ∈ lru.ranked, entry.holds id = true → entry.zone = location.zone := by
    intro entry member holds
    obtain ⟨chunk, inEntry, rfl⟩ := ZoneLru.holds_iff.mp holds
    obtain ⟨position, here⟩ := List.mem_iff_getElem?.mp inEntry
    have there := (sim.located chunk.1 ⟨entry.zone, position, 0, false⟩).mpr
      ⟨entry.chunks, chunk.2, .inr ⟨entry, member, rfl, rfl⟩, here, rfl, rfl⟩
    obtain ⟨old, found, _, atOld⟩ := located
    obtain ⟨new, foundNew, _, atNew⟩ := there
    cases Option.some.inj (found.symm.trans foundNew)
    exact (congrArg ZnPair.zone (atNew.symm.trans atOld))
  have touched : (lru.touch id).ranked.map FullZone.zone = policy.zones ∧
      ZoneLru.Timely (lru.touch id).tick := by
    by_cases queued : location.zone ∈ state.cache.evictionPolicy.zones
    · rw [if_pos queued] at zones
      obtain ⟨held, data, holds, here, _⟩ := (sim.located id location).mp located
      obtain filling | ⟨entry, member, sameZone, rfl⟩ := holds
      · exact absurd queued (sim.notQueued filling)
      · obtain ⟨before, after, split⟩ := List.append_of_mem member
        have distinct := sim.distinct
        rw [split, List.map_append, List.map_cons, List.nodup_middle, List.nodup_cons] at distinct
        have elsewhere : ∀ other ∈ before ++ after, other.holds id = false := by
          intro other inRest
          by_contra holds
          have inRanked : other ∈ lru.ranked := by
            rw [split]
            exact (List.perm_middle.mem_iff).mpr (List.mem_cons_of_mem _ inRest)
          have same := only other inRanked (by simpa using holds)
          apply distinct.1
          rw [sameZone, ← same, ← List.map_append]
          exact List.mem_map_of_mem inRest
        obtain ⟨ranks, timely⟩ := sim.timely.touch split
          (ZoneLru.holds_iff.mpr ⟨_, List.mem_of_getElem? here, rfl⟩) elsewhere
        refine ⟨?_, timely⟩
        have notBefore : location.zone ∉ before.map FullZone.zone := fun inBefore =>
          distinct.1 (sameZone ▸ List.mem_append_left _ inBefore)
        rw [zones, sim.order, ranks, split]
        simp [List.erase_append_right _ notBefore, sameZone]
    · rw [if_neg queued] at zones
      have nowhere : ∀ entry ∈ lru.ranked, entry.holds id = false := by
        intro entry member
        by_contra holds
        apply queued
        rw [← only entry member (by simpa using holds)]
        exact sim.mem_zones member
      rw [ZoneLru.touch_none nowhere]
      exact ⟨sim.order.symm.trans zones.symm, sim.timely.tick⟩
  exact sim.reorder hits consistent sameMax touched.1.symm sameZones touched.2 rfl rfl
    fun zone held => ZoneLru.holds_tick.trans ZoneLru.holds_touch

theorem get_hit (sizes : SizesFit config ioSize) (sim : Simulates config state lru 0) {id : Nat}
    {data : List UInt8} (small : id < 2 ^ 31) (found : lru.stored id = some data) (passes : Nat)
    (randomBuffer : List UInt8) :
    ∃ after, znCacheGet config ioSize passes randomBuffer state id =
        some (⟨true, some data⟩, after) ∧
      Simulates config after (lru.touch id).tick 0 := by
  obtain ⟨location, located, inDevice, inZone, bytes⟩ := sim.located_of_stored sizes found
  obtain ⟨entry, inMap, isLoc, rfl⟩ := located
  have located : state.cache.cacheMap.Locates id entry.location := ⟨entry, inMap, isLoc, rfl⟩
  obtain ⟨policy, updated, touched⟩ := sim.touch located (state.cache.hits + 1)
  have lookup : znCachemapFind () state.cache.cacheMap id = (.loc entry.location,
      { state.cache.cacheMap with
        activeReaders := Function.update state.cache.cacheMap.activeReaders entry.location.zone
          (state.cache.cacheMap.activeReaders entry.location.zone + 1) }) := by
    simp only [znCachemapFind, gintToPointer_of_u32 (small.trans (by decide)), inMap, isLoc]
  have released : CacheMap.releaseReader { state.cache.cacheMap with
      activeReaders := Function.update state.cache.cacheMap.activeReaders entry.location.zone
        (state.cache.cacheMap.activeReaders entry.location.zone + 1) } entry.location.zone =
      state.cache.cacheMap := by
    simp [CacheMap.releaseReader]
  refine ⟨_, ?_, touched⟩
  simp only [znCacheGet, lookup, znCacheHit, sizes.reads inDevice inZone, updated, released, bytes]

/-! ## Freeing zones -/

/-- One pass of the eviction loop empties the zone used least recently. -/
theorem evictZone (sizes : SizesFit config ioSize) (sim : Simulates config state lru writers)
    {entry : FullZone Nat Nat (List UInt8)} {rest : List (FullZone Nat Nat (List UInt8))}
    (first : lru.ranked = entry :: rest) :
    ∃ policy answer,
      znPolicyPromotionalGetZoneToEvict true state.cache.evictionPolicy =
        (some entry.zone, policy) ∧
      znCachemapClearZone state.cache.cacheMap entry.zone = some answer ∧
      answer.state.activeReaders entry.zone = 0 ∧
      Simulates config (DeviceCache.evictZone config entry.zone { state with
        cache := { state.cache with evictionPolicy := policy, cacheMap := answer.state } })
        (lru.evict 1) writers := by
  have queue := sim.order
  rw [first, List.map_cons] at queue
  obtain ⟨nothing, empty⟩ | ⟨zone, policy, taken, consistent, zones, sameMax⟩ :=
    sim.queue.getZoneToEvict true
  · rw [empty rfl] at queue
    cases queue
  rw [queue] at zones
  obtain ⟨rfl, left⟩ := List.cons.inj zones
  obtain ⟨answer, cleared, _⟩ := @CacheMapAgrees.clearZone_asserts _ _ _ sim.map entry.zone sim.low
  obtain ⟨entries, data, readers⟩ := sim.map.smallKeys.clearZone_state cleared
  have isFull := (sim.isFull entry.zone).mpr (by rw [queue]; exact List.mem_cons_self)
  obtain ⟨sound, reset⟩ := sim.zones.evict isFull
  have ranks := sim.timely.evict 1
  rw [first, List.drop_one, List.tail_cons] at ranks
  have notFilling : ∀ filling, lru.filling = some filling → filling.1 ≠ entry.zone := by
    intro filling here same
    apply sim.notQueued here
    rw [same, queue]
    exact List.mem_cons_self
  have holds : ∀ other held, (lru.evict 1).Holds other held ↔
      lru.Holds other held ∧ other ≠ entry.zone := fun other held =>
    sim.timely.holds_evict first sim.distinct notFilling
  have locates : ∀ id location, answer.state.Locates id location ↔
      state.cache.cacheMap.Locates id location ∧ location.zone ≠ entry.zone := fun id location =>
    ⟨sim.map.smallKeys.clearZone_locates sim.listed cleared,
      fun both => sim.map.clearZone_keeps cleared both.2 both.1⟩
  refine ⟨policy, answer, taken, cleared, by rw [readers]; exact sim.unread _, ?_⟩
  have state' : (DeviceCache.evictZone config entry.zone { state with
      cache := { state.cache with evictionPolicy := policy, cacheMap := answer.state }
      }).cache.zoneState = freed state.cache.zoneState entry.zone := reset
  constructor
  case zones => exact sound
  case numZones =>
    rw [state']
    exact sim.numZones
  case maxZoneChunks =>
    rw [state']
    exact sim.maxZoneChunks
  case maxActive =>
    rw [state']
    exact sim.maxActive
  case free =>
    rw [state', freed, sim.free, ZoneLru.evict, first]
    rfl
  case active =>
    rw [state']
    exact sim.active
  case offset =>
    intro zone held filling
    have apart := notFilling _ filling
    rw [state']
    simp only [freed, ZoneStateManager.setZone_state, Function.update_of_ne apart]
    exact sim.offset zone held filling
  case isFull =>
    intro zone
    rw [state', freed_full, sim.isFull, queue, left, List.mem_cons]
    have once := sim.zones_nodup
    rw [queue, left] at once
    constructor
    · intro given
      obtain ⟨here | stays, apart⟩ := given
      · exact absurd here apart
      · exact stays
    · intro stays
      refine ⟨.inr stays, ?_⟩
      intro equal
      subst equal
      exact (List.nodup_cons.mp once).1 stays
  case queue => exact consistent
  case queueMax => exact sameMax.trans sim.queueMax
  case order =>
    rw [ranks.1]
    exact left.symm
  case timely => exact ranks.2
  case filled =>
    rw [ranks.1]
    exact fun one member => sim.filled one (by rw [first]; exact List.mem_cons_of_mem _ member)
  case map => exact sim.map.clearZone cleared
  case listed =>
    intro id location located
    obtain ⟨before, apart⟩ := (locates id location).mp located
    change (answer.state.dataMap location.zone).lookup location.chunkOffset = some id
    rw [data, Function.update_of_ne apart]
    exact sim.listed id location before
  case low =>
    intro id new found
    change answer.state.zoneMap id = some new at found
    rw [entries id] at found
    split at found
    next =>
        obtain ⟨old, before, _⟩ := Option.map_eq_some_iff.mp found
        exact sim.low id old before
    next => exact sim.low id new found
  case located =>
    intro id location
    refine (locates id location).trans ?_
    rw [sim.located]
    simp only [holds]
    constructor
    · intro given
      obtain ⟨⟨held, item, here, rest⟩, apart⟩ := given
      exact ⟨held, item, ⟨here, apart⟩, rest⟩
    · intro given
      obtain ⟨held, item, ⟨here, apart⟩, rest⟩ := given
      exact ⟨⟨held, item, here, rest⟩, apart⟩
  case unread =>
    intro zone
    change answer.state.activeReaders zone = 0
    rw [readers]
    exact sim.unread zone
  case bytes =>
    intro zone held chunk id item here atChunk
    obtain ⟨before, apart⟩ := (holds zone held).mp here
    obtain ⟨inDevice, fits⟩ := sim.inside sizes before
    have inZone := Nat.lt_of_lt_of_le (List.getElem?_eq_some_iff.mp atChunk).1 fits
    refine Eq.trans ?_ (sim.bytes zone held chunk id item before atChunk)
    simp only [DeviceCache.evictZone]
    split
    · rfl
    · exact sizes.chunkAt_reset inDevice inZone apart

theorem evict_zero (sim : Simulates config state lru writers) :
    Simulates config state (lru.evict 0) writers := by
  have ranks := sim.timely.evict 0
  rw [List.drop_zero] at ranks
  have holds : ∀ zone held, (lru.evict 0).Holds zone held ↔ lru.Holds zone held := by
    intro zone held
    rw [ZoneLru.Holds, ZoneLru.Holds, ranks.1]
    rfl
  refine sim.reorder state.cache.hits sim.queue rfl ?_ (List.Perm.refl _) ranks.2 ?_ rfl holds
  · rw [ranks.1]
    exact sim.order
  · simp [ZoneLru.evict]

/-- The loop empties as many zones as the mark says, or all that are full. -/
theorem fgEvictLoop (sizes : SizesFit config ioSize)
    (start : Simulates config state lru writers) (zones : Nat) :
    ∀ {i : Nat} {now : DeviceCache}, Simulates config now (lru.evict i) writers →
      now.cache.evictionPolicy.zones.length = zones → i ≤ config.evictLowThreshZones →
      i + zones < 2 ^ 31 →
      ∃ after, ZNCache.fgEvictLoop config 0 zones i now = some after ∧
        Simulates config after (lru.evict config.evictLowThreshZones) writers := by
  have mark : threshMinus config.evictLowThreshZones 0 = config.evictLowThreshZones := by
    unfold threshMinus u32
    split <;> omega
  induction zones with
  | zero =>
      intro i now sim none below small
      rw [sim.order, List.length_map, (start.timely.evict i).1, List.length_drop] at none
      rw [ZoneLru.evict_all (show lru.ranked.length ≤ i by omega) below]
      exact ⟨now, rfl, sim⟩
  | succ zones ih =>
      intro i now sim some below small
      rw [ZNCache.fgEvictLoop, mark]
      split
      next more =>
          have ranks := (start.timely.evict i).1
          cases first : (lru.evict i).ranked with
          | nil => rw [sim.order, first] at some; cases some
          | cons entry rest =>
              obtain ⟨policy, answer, taken, cleared, unread, later⟩ := sim.evictZone sizes first
              have next : u32 (i + 1) = i + 1 := by
                unfold u32
                omega
              have idle : ¬ 0 < answer.state.activeReaders entry.zone := by
                rw [unread]
                exact Int.lt_irrefl 0
              rw [← start.timely.evict_succ] at later
              simp only [taken, cleared, if_neg idle, next]
              refine ih later ?_ (by omega) (by omega)
              rw [sim.order, List.length_map, ranks, List.length_drop] at some
              rw [later.order, List.length_map, (start.timely.evict (i + 1)).1, List.length_drop]
              omega
      next done =>
          have all : i = config.evictLowThreshZones := by omega
          exact ⟨now, rfl, all ▸ sim⟩

/-- When no zone is free or active, the eviction makes room for the next item. -/
theorem znFgEvict (sizes : SizesFit config ioSize) (sim : Simulates config state lru writers)
    (noFilling : lru.filling = none) (noFree : lru.free = []) :
    ∃ after, ZNCache.znFgEvict config state = some after ∧
      Simulates config after (lru.evict config.evictLowThreshZones) writers ∧
      (lru.evict config.evictLowThreshZones).free ≠ [] := by
  have none : zsmGetNumFreeZones state.cache.zoneState = 0 := by
    rw [zsmGetNumFreeZones, sim.free, noFree]
    rfl
  have small : state.cache.evictionPolicy.zones.length < 2 ^ 31 :=
    Nat.lt_of_le_of_lt
      (length_le_of_nodup sim.zones_nodup fun zone member => ((sim.isFull zone).mpr member).1)
      sim.zones.small
  obtain ⟨after, ran, later⟩ := sim.fgEvictLoop sizes _ sim.evict_zero rfl (Nat.zero_le _)
    (by rwa [Nat.zero_add])
  refine ⟨after, ?_, later, ?_⟩
  · rw [ZNCache.znFgEvict, none, LinkedQueue.length_eq]
    exact ran
  · have inDevice : 0 < state.cache.zoneState.numZones := by
      rw [sim.numZones]
      exact sizes.someZone
    have noActive : state.cache.zoneState.active = [] := by
      rw [sim.active, noFilling]
      rfl
    have queued := (sim.isFull 0).mp
      (sim.zones.partition.allFull noActive (sim.free.trans noFree) inDevice)
    rw [sim.order] at queued
    obtain ⟨entry, member, _⟩ := List.mem_map.mp queued
    obtain ⟨before, rest, split⟩ := List.append_of_mem member
    have marks := sizes.evicts
    intro empty
    simp only [ZoneLru.evict, noFree, List.nil_append, List.map_eq_nil_iff,
      List.take_eq_nil_iff, split, List.append_eq_nil_iff, reduceCtorEq, and_false, or_false]
      at empty
    omega

/-! ## Writing a chunk -/

section Writing

variable {zone : Nat} {free : List Nat} {held : List (Nat × List UInt8)}

theorem handOut (sizes : SizesFit config ioSize) (sim : Simulates config state lru writers)
    (drawn : DrawnFrom state.cache.zoneState zone held.length [] free) :
    ZonesSound (handedOut state.cache.zoneState zone held.length [] free)
        (⟨zone, held.length, 0, false⟩ ::ₘ 0) ∧
      zone < config.nrZones ∧ held.length < config.maxZoneChunks ∧
      zone ∉ state.cache.evictionPolicy.zones := by
  have sound := sim.zones.handOut drawn
  rw [sim.zones.entries.zoneId zone] at sound
  have writing := (sound.partition.heldIff zone).mp (by simp)
  have positive := sizes.someChunk
  rw [← sim.maxZoneChunks] at positive
  have room := sound.entries.offsetRoom zone (.inr writing.2) positive
  refine ⟨sound, sim.numZones ▸ writing.1, ?_, ?_⟩
  · rw [← sim.maxZoneChunks]
    simpa [handedOut] using room
  · intro queued
    exact (sim.zones.partition.drawn_state drawn).1 ((sim.isFull zone).mpr queued).2

/-- The zone goes back active, or full with its last chunk. -/
theorem goesBack (sizes : SizesFit config ioSize) (sim : Simulates config state lru writers)
    (drawn : DrawnFrom state.cache.zoneState zone held.length [] free)
    {last : ZoneStateManager}
    (back : (zsmReturnActiveZone 0 (handedOut state.cache.zoneState zone held.length [] free)
      ⟨zone, held.length, 0, false⟩).state = last) :
    ZonesSound last 0 ∧ SameShape state.cache.zoneState last ∧ last.free = free ∧
      (∀ other, IsFull last other ↔ other ∈ state.cache.evictionPolicy.zones ∨
        other = zone ∧ held.length + 1 = config.maxZoneChunks) ∧
      (held.length + 1 = config.maxZoneChunks ∧ last.active = [] ∨
        held.length + 1 ≠ config.maxZoneChunks ∧ last.active = [zone] ∧
          (last.state zone).chunkOffset = held.length + 1) := by
  obtain ⟨sound, inDevice, inZone, _⟩ := sim.handOut sizes drawn
  have writing := (sound.partition.heldIff zone).mp (by simp)
  have countFits : config.maxZoneChunks < 2 ^ 32 := sizes.countFits
  have next : u32 (held.length + 1) = held.length + 1 := by
    unfold u32
    omega
  obtain ⟨returned, shape, full⟩ := sound.returnActiveZone
  rw [back] at returned shape full
  refine ⟨returned, ⟨shape.numZones, shape.maxZoneChunks, shape.maxNrActiveZones,
    shape.backendType⟩, ?_⟩
  have count : (handedOut state.cache.zoneState zone held.length [] free).maxZoneChunks =
      config.maxZoneChunks := sim.maxZoneChunks
  have here : ((handedOut state.cache.zoneState zone held.length [] free).state
      zone).chunkOffset = held.length := by
    simp [handedOut]
  have isFull : ∀ other, IsFull last other ↔ other ∈ state.cache.evictionPolicy.zones ∨
      other = zone ∧ held.length + 1 = config.maxZoneChunks := by
    intro other
    rw [full, sim.zones.partition.handedOut_full drawn, sim.isFull, next, count]
  have spec := zsmReturnActiveZone_spec 0
    (handedOut state.cache.zoneState zone held.length [] free) ⟨zone, held.length, 0, false⟩
  rw [back] at spec
  generalize (zsmReturnActiveZone 0 (handedOut state.cache.zoneState zone held.length [] free)
    ⟨zone, held.length, 0, false⟩).ret = ret at spec
  cases spec with
  | reopened offset advanced notLast =>
      rw [here, next] at advanced
      refine ⟨rfl, isFull, .inr ⟨fun same => notLast ?_, rfl, ?_⟩⟩
      · rw [advanced, same, count]
      · simp [returnedZone, advanced]
  | alreadyFull closes wasFull =>
      rw [writing.2] at wasFull
      cases wasFull
  | finished closes =>
      rw [here, next, count] at closes
      exact ⟨rfl, isFull, .inl ⟨closes, rfl⟩⟩
  | failed closes notFull failure => exact absurd (backendRet_zero _) failure

/-- The policy takes the zone up with its last chunk. -/
theorem queueUp (sizes : SizesFit config ioSize) (sim : Simulates config state lru writers)
    (inZone : held.length < config.maxZoneChunks)
    (notFull : zone ∉ state.cache.evictionPolicy.zones) :
    ∃ policy, znPolicyPromotionalUpdate state.cache.evictionPolicy
        ⟨zone, held.length, 0, false⟩ .write = some policy ∧ policy.Consistent ∧
      policy.zones = state.cache.evictionPolicy.zones ++
        (if held.length + 1 = config.maxZoneChunks then [zone] else []) ∧
      policy.zoneMaxChunks = state.cache.evictionPolicy.zoneMaxChunks := by
  have countFits : config.maxZoneChunks < 2 ^ 32 := sizes.countFits
  have next : u32 (held.length + 1) = held.length + 1 := by
    unfold u32
    omega
  have last : held.length + 1 = config.maxZoneChunks ↔
      held.length = state.cache.evictionPolicy.lastChunk := by
    rw [ZnPolicyPromotional.lastChunk, sim.queueMax, ← next]
    exact closes_iff_lastChunk countFits (by omega)
  by_cases closes : held.length + 1 = config.maxZoneChunks
  · rw [if_pos closes]
    exact sim.queue.update_filled (last.mp closes) notFull
  · rw [if_neg closes, List.append_nil]
    exact ⟨_, update_notFilled (mt last.mpr closes), sim.queue, rfl, rfl⟩

variable {id : Nat} {data : List UInt8} {after : LruCache}

/-- The abstract cache stores the chunk behind those of its zone, and the rest as before. -/
def StoresBehind (lru after : LruCache) (zone length : Nat) (chunk : Nat × List UInt8) : Prop :=
  ∀ other place item, (∃ stored, after.Holds other stored ∧ stored[place]? = some item) ↔
    other = zone ∧ place = length ∧ item = chunk ∨
      ∃ stored, lru.Holds other stored ∧ stored[place]? = some item

theorem place_fresh (own : lru.filling = some (zone, held) ∨ lru.filling = none ∧ held = [])
    (notRanked : ∀ entry ∈ lru.ranked, entry.zone ≠ zone) {other place : Nat}
    {stored : List (Nat × List UInt8)} {item : Nat × List UInt8} (here : lru.Holds other stored)
    (there : stored[place]? = some item) : ¬ (other = zone ∧ place = held.length) := by
  intro same
  obtain ⟨rfl, rfl⟩ := same
  cases ZoneLru.holds_own own notRanked here
  exact Nat.lt_irrefl _ (List.getElem?_eq_some_iff.mp there).1

/-- Once the chunk is inserted, located is what the abstract cache stores. -/
theorem located_write (sim : Simulates config state lru {id})
    (stores : StoresBehind lru after zone held.length (id, data)) (other : Nat)
    (location : ZnPair) :
    (state.cache.cacheMap.located id ⟨zone, held.length, 0, false⟩).Locates other location ↔
      ∃ stored item, after.Holds location.zone stored ∧
        stored[location.chunkOffset]? = some (other, item) ∧ location.id = 0 ∧
          location.inUse = false := by
  constructor
  · intro located
    rcases CacheMap.located_locates located with ⟨rfl, rfl⟩ | ⟨_, old⟩
    · obtain ⟨stored, here, atChunk⟩ :=
        (stores zone held.length (other, data)).mpr (.inl ⟨rfl, rfl, rfl⟩)
      exact ⟨stored, data, here, atChunk, rfl, rfl⟩
    · obtain ⟨stored, item, here, atChunk, unused⟩ := (sim.located other location).mp old
      obtain ⟨stored', here', atChunk'⟩ := (stores _ _ _).mpr (.inr ⟨stored, here, atChunk⟩)
      exact ⟨stored', item, here', atChunk', unused⟩
  · intro held
    obtain ⟨stored, item, here, atChunk, unused⟩ := held
    rcases (stores _ _ _).mp ⟨stored, here, atChunk⟩ with
      ⟨sameZone, sameChunk, same⟩ | ⟨stored', here', atChunk'⟩
    · cases same
      obtain ⟨_, _, _, _⟩ := location
      obtain ⟨rfl, rfl⟩ := unused
      cases sameZone
      cases sameChunk
      exact CacheMap.located_self _ _
    · exact sim.map.located_keeps _
        ((sim.located other location).mpr ⟨stored', item, here', atChunk', unused⟩)

theorem bytes_write (sizes : SizesFit config ioSize) (sim : Simulates config state lru writers)
    (own : lru.filling = some (zone, held) ∨ lru.filling = none ∧ held = [])
    (notRanked : ∀ entry ∈ lru.ranked, entry.zone ≠ zone)
    (stores : StoresBehind lru after zone held.length (id, data))
    (length : data.length = config.chunkSz) (inDevice : zone < config.nrZones)
    (inZone : held.length < config.maxZoneChunks) {other place otherId : Nat}
    {stored : List (Nat × List UInt8)} {item : List UInt8} (here : after.Holds other stored)
    (there : stored[place]? = some (otherId, item)) :
    chunkAt config (pwrite state.device data
      (chunkPointer config.zoneSize config.chunkSz held.length zone)) other place = item := by
  rcases (stores _ _ _).mp ⟨stored, here, there⟩ with ⟨rfl, rfl, same⟩ | ⟨old, oldHere, atOld⟩
  · cases same
    exact (sizes.chunkAt_write length inDevice inZone inDevice inZone).trans (if_pos ⟨rfl, rfl⟩)
  · obtain ⟨oldInDevice, fits⟩ := sim.inside sizes oldHere
    have below := (List.getElem?_eq_some_iff.mp atOld).1
    have apart := place_fresh own notRanked oldHere atOld
    refine (sizes.chunkAt_write length inDevice inZone oldInDevice ?_).trans ?_
    · exact Nat.lt_of_lt_of_le below fits
    · rw [if_neg apart]
      exact sim.bytes other old place otherId item oldHere atOld

end Writing

/-- The thread has a location: the chunk is written, the zone is given back, and the policy
and the cache map learn of it. -/
theorem write (sizes : SizesFit config ioSize) {id zone : Nat} {free : List Nat}
    {held : List (Nat × List UInt8)} {randomBuffer : List UInt8}
    (sim : Simulates config state lru {id}) (low : id < 2 ^ 31)
    (enough : config.chunkSz ≤ randomBuffer.length)
    (drawn : DrawnFrom state.cache.zoneState zone held.length [] free)
    (own : lru.filling = some (zone, held) ∨ lru.filling = none ∧ held = []) :
    ∃ after, znCacheFill config ioSize randomBuffer id ⟨zone, held.length, 0, false⟩
        { state with cache := { state.cache with
          zoneState := handedOut state.cache.zoneState zone held.length [] free } } =
        some (⟨false, some (znGenWriteBuffer config.chunkSz id randomBuffer)⟩, after) ∧
      Simulates config after (({ lru with free := free } : LruCache).putBack config.maxZoneChunks
        zone (held ++ [(id, znGenWriteBuffer config.chunkSz id randomBuffer)])).tick 0 := by
  generalize dataIs : znGenWriteBuffer config.chunkSz id randomBuffer = data
  have length : data.length = config.chunkSz := by
    rw [← dataIs]
    apply znGenWriteBuffer_length _ enough
    have positive := sizes.chunkPositive
    have aligned := sizes.chunkAligned
    unfold directAlignment at aligned
    omega
  obtain ⟨_, inDevice, inZone, notFull⟩ := sim.handOut sizes drawn
  obtain ⟨sound, shape, leftFree, isFull, active⟩ := sim.goesBack sizes drawn rfl
  obtain ⟨policy, updated, consistent, zones, sameMax⟩ := sim.queueUp sizes inZone notFull
  have inserted := sim.map.insert ⟨zone, held.length, 0, false⟩
  have wrote := @znWriteOut_writes state.device data ioSize _ sizes.ioPositive
    (length ▸ (sizes.pointer inDevice inZone).2.2)
  rw [length] at wrote
  generalize returnedIs : (zsmReturnActiveZone 0 (handedOut state.cache.zoneState zone held.length
    [] free) ⟨zone, held.length, 0, false⟩).state = last at sound shape leftFree isFull active
  let written : PromotionalCache Unit :=
    state.cache.writeChunk ⟨zone, held.length, 0, false⟩ (some id)
  refine ⟨⟨{ written with
      zoneState := last
      evictionPolicy := policy
      cacheMap := state.cache.cacheMap.located id ⟨zone, held.length, 0, false⟩
      misses := written.misses + 1 }, pwrite state.device data
        (chunkPointer config.zoneSize config.chunkSz held.length zone)⟩, ?_, ?_⟩
  · simp only [znCacheFill, dataIs, wrote, ZnCache.writeChunk, updated, inserted, returnedIs,
      written]
  -- in the abstract cache the same item went into the same zone
  have more : (held ++ [(id, data)]).length = held.length + 1 := by simp
  have notRanked : ∀ entry ∈ lru.ranked, entry.zone ≠ zone := fun entry member same =>
    notFull (same ▸ sim.mem_zones member)
  obtain ⟨ranks, timely⟩ := @ZoneLru.Timely.putBack _ _ _ _ { lru with free := free } zone
    (held ++ [(id, data)]) sim.timely rfl rfl config.maxZoneChunks
  rw [more] at ranks
  generalize abstract : ({ lru with free := free } : LruCache).putBack config.maxZoneChunks zone
    (held ++ [(id, data)]) = after at ranks timely
  have free' : after.tick.free = free := abstract ▸ ZoneLru.putBack_free
  have filling : after.tick.filling = if held.length + 1 = config.maxZoneChunks then none
      else some (zone, held ++ [(id, data)]) := by
    rw [← more, ← abstract]
    exact ZoneLru.putBack_filling
  have stores : StoresBehind lru after.tick zone held.length (id, data) := by
    intro other place item
    rw [← abstract]
    exact ZoneLru.stores_putBack own notRanked
  constructor
  case zones => exact sound
  case numZones => exact shape.numZones.trans sim.numZones
  case maxZoneChunks => exact shape.maxZoneChunks.trans sim.maxZoneChunks
  case maxActive => exact shape.maxNrActiveZones.trans sim.maxActive
  case free => exact leftFree.trans free'.symm
  case active =>
    rw [filling]
    rcases active with ⟨closes, none⟩ | ⟨stays, one, _⟩
    · rw [if_pos closes]
      exact none
    · rw [if_neg stays]
      exact one
  case offset =>
    intro other stored isFilling
    rw [filling] at isFilling
    rcases active with ⟨closes, none⟩ | ⟨stays, _, offset⟩
    · rw [if_pos closes] at isFilling
      cases isFilling
    · rw [if_neg stays] at isFilling
      cases isFilling
      rw [more]
      exact offset
  case isFull =>
    intro other
    rw [isFull, zones, List.mem_append]
    split
    next closes => simp [closes]
    next stays => simp [stays]
  case queue => exact consistent
  case queueMax => exact sameMax.trans sim.queueMax
  case order =>
    rw [show after.tick.ranked = _ from ranks, zones, sim.order, List.map_append]
    split <;> rfl
  case timely => exact timely
  case filled =>
    intro entry member
    rw [show after.tick.ranked = _ from ranks] at member
    rcases List.mem_append.mp member with old | new
    · exact sim.filled entry old
    · split at new
      next closes =>
          cases List.mem_singleton.mp new
          exact more.trans closes
      next => cases new
  case map => exact sim.map.located _
  case listed =>
    intro other location located
    change ((state.cache.cacheMap.located id _).dataMap location.zone).lookup _ = _
    rw [CacheMap.located_lookup]
    rcases CacheMap.located_locates located with ⟨rfl, rfl⟩ | ⟨_, old⟩
    · exact if_pos ⟨rfl, rfl⟩
    · obtain ⟨stored, item, holds, atChunk, _⟩ := (sim.located other location).mp old
      rw [if_neg (place_fresh own notRanked holds atChunk)]
      exact sim.listed other location old
  case low =>
    intro other entry found
    change Function.update state.cache.cacheMap.zoneMap id _ other = some entry at found
    rw [Function.update_apply] at found
    split at found
    next same => exact same ▸ low
    next => exact sim.low other entry found
  case located => exact sim.located_write stores
  case unread => exact sim.unread
  case bytes =>
    intro other stored place otherId item here there
    exact sim.bytes_write sizes own notRanked stores length inDevice inZone here there

/-! ## A miss -/

theorem find_miss (sim : Simulates config state lru 0) {id : Nat} (low : id < 2 ^ 31)
    (absent : lru.stored id = none) :
    ∃ map, znCachemapFind () state.cache.cacheMap id = (.cond, map) ∧
      Simulates config { state with cache := { state.cache with cacheMap := map } } lru {id} := by
  have small : id < 2 ^ 32 := low.trans (by decide)
  have spec := znCachemapFind_spec () state.cache.cacheMap small
  have agrees := spec.agrees sim.map small
  obtain ⟨sameData, fewer⟩ := spec.locates
  have kept := fun other location => @FindSpec.keepsLocated _ _ _ _ _ other _ location spec
  generalize znCachemapFind () state.cache.cacheMap id = found at *
  obtain ⟨result, map⟩ := found
  cases spec with
  | loc entry found located =>
      exact absurd absent (sim.stored_of_located ⟨entry, found, located, rfl⟩)
  | wait entry found busy =>
      have claimed := (sim.map.claimed id).mpr ⟨entry, found, busy⟩
      simp at claimed
  | claim entry unclaimed busy =>
      refine ⟨_, rfl, { sim with map := agrees, listed := ?_, low := ?_, located := ?_ }⟩
      · intro other location located
        exact sim.listed other location (fewer other location located)
      · intro other old found
        change Function.update state.cache.cacheMap.zoneMap id _ other = some old at found
        rw [Function.update_apply] at found
        split at found
        next same => exact same ▸ low
        next => exact sim.low other old found
      · intro other location
        rw [← sim.located other location]
        exact ⟨fewer other location, kept other location⟩

theorem draw (sim : Simulates config state lru writers)
    (room : ¬ (lru.filling = none ∧ lru.free = [])) :
    ∃ zone held free asserts, zsmGetActiveZone 0 state.cache.zoneState =
        ⟨.success ⟨zone, held.length, 0, false⟩,
          handedOut state.cache.zoneState zone held.length [] free, asserts⟩ ∧
      DrawnFrom state.cache.zoneState zone held.length [] free ∧
      (lru.filling = some (zone, held) ∨ lru.filling = none ∧ held = []) ∧
      ∀ chunk, lru.fill config.maxZoneChunks chunk = ({ lru with free := free } : LruCache).putBack
        config.maxZoneChunks zone (held ++ [chunk]) := by
  have spec := sim.zones.partition.getActiveZone_spec sim.zones.counts 0
  have active := sim.active
  have idle : state.cache.zoneState.active = [] → lru.filling = none := by
    intro noActive
    rw [noActive] at active
    cases filling : lru.filling with
    | none => rfl
    | some pair => simp [filling] at active
  generalize zsmGetActiveZone 0 state.cache.zoneState = answer at spec ⊢
  cases spec with
  | evict noActive noFree => exact absurd ⟨idle noActive, sim.free.symm.trans noFree⟩ room
  | retry noActive blocked =>
      rcases blocked with noFree | full
      · exact absurd ⟨idle noActive, sim.free.symm.trans noFree⟩ room
      · rw [sim.zones.partition.activeZones_eq sim.zones.counts, sim.maxActive, noActive] at full
        unfold CacheConfig.maxActive maxOpenZones at full
        simp only [List.length_nil, Multiset.card_zero] at full
        split at full <;> omega
  | error zone free noActive head failed => exact absurd (backendRet_zero _) failed
  | success zone offset rest free drawn asserts =>
      rw [sim.zones.entries.zoneId zone]
      cases filling : lru.filling with
      | some pair =>
          obtain ⟨other, held⟩ := pair
          rw [filling] at active
          cases drawn with
          | activeQueue head sameFree resumed =>
              cases active.symm.trans head
              rw [sim.offset other held filling] at resumed
              subst resumed
              refine ⟨other, held, free, asserts, rfl, .activeQueue head sameFree ?_, .inl rfl, ?_⟩
              · exact (sim.offset other held filling).symm
              · rw [sim.free] at sameFree
                subst sameFree
                exact ZoneLru.fill_filling filling
          | freeQueue noActive => cases active.symm.trans noActive
      | none =>
          rw [filling] at active
          cases drawn with
          | activeQueue head => cases active.symm.trans head
          | freeQueue noActive stillNone head restart room =>
              subst stillNone
              subst restart
              refine ⟨zone, [], free, asserts, rfl, .freeQueue noActive rfl head rfl room,
                .inr ⟨rfl, rfl⟩, ?_⟩
              rw [sim.free] at head
              exact ZoneLru.fill_free filling head

/-- The thread gets a location at the latest after it has freed zones. -/
theorem acquire (sizes : SizesFit config ioSize) (sim : Simulates config state lru writers)
    {passes : Nat} (enough : 2 ≤ passes) :
    ∃ ready zone held free, acquireLoop config passes state =
        some (some ⟨zone, held.length, 0, false⟩, { ready with cache := { ready.cache with
          zoneState := handedOut ready.cache.zoneState zone held.length [] free } }) ∧
      Simulates config ready (lru.makeRoom config.evictLowThreshZones) writers ∧
      DrawnFrom ready.cache.zoneState zone held.length [] free ∧
      ((lru.makeRoom config.evictLowThreshZones).filling = some (zone, held) ∨
        (lru.makeRoom config.evictLowThreshZones).filling = none ∧ held = []) ∧
      ∀ chunk, (lru.makeRoom config.evictLowThreshZones).fill config.maxZoneChunks chunk =
        ({ lru.makeRoom config.evictLowThreshZones with free := free } : LruCache).putBack
          config.maxZoneChunks zone (held ++ [chunk]) := by
  obtain ⟨more, rfl⟩ := Nat.exists_eq_add_of_le' enough
  by_cases full : lru.filling = none ∧ lru.free = []
  · obtain ⟨noFilling, noFree⟩ := full
    have evicts : zsmGetActiveZone 0 state.cache.zoneState =
        ⟨.evict, state.cache.zoneState, true⟩ := by
      have noActive : state.cache.zoneState.active = [] := by
        rw [sim.active, noFilling]
        rfl
      have idle : state.cache.zoneState.activeZones = 0 := by
        rw [sim.zones.partition.activeZones_eq sim.zones.counts, noActive]
        rfl
      simp [zsmGetActiveZone, idle, sim.free, noFree]
    obtain ⟨ready, evicted, later, someFree⟩ := sim.znFgEvict sizes noFilling noFree
    have room : lru.makeRoom config.evictLowThreshZones =
        lru.evict config.evictLowThreshZones := by
      simp [ZoneLru.makeRoom, noFilling, noFree]
    rw [room]
    obtain ⟨zone, held, free, asserts, handed, drawn, own, fills⟩ :=
      later.draw fun both => someFree both.2
    refine ⟨ready, zone, held, free, ?_, later, drawn, own, fills⟩
    simp only [acquireLoop, evicts, evicted, Option.bind_some, handed]
  · have room : lru.makeRoom config.evictLowThreshZones = lru := by
      apply if_neg
      rwa [Option.isNone_iff_eq_none]
    rw [room]
    obtain ⟨zone, held, free, asserts, handed, drawn, own, fills⟩ := sim.draw full
    refine ⟨state, zone, held, free, ?_, sim, drawn, own, fills⟩
    simp only [acquireLoop, handed]

/-- A call for an item that is not stored writes it and returns what it wrote. -/
theorem get_miss (sizes : SizesFit config ioSize) (sim : Simulates config state lru 0) {id : Nat}
    (low : id < 2 ^ 31) (absent : lru.stored id = none) {passes : Nat} (enough : 2 ≤ passes)
    {randomBuffer : List UInt8} (long : config.chunkSz ≤ randomBuffer.length) :
    ∃ after, znCacheGet config ioSize passes randomBuffer state id =
        some (⟨false, some (znGenWriteBuffer config.chunkSz id randomBuffer)⟩, after) ∧
      Simulates config after ((lru.makeRoom config.evictLowThreshZones).fill config.maxZoneChunks
        (id, znGenWriteBuffer config.chunkSz id randomBuffer)).tick 0 := by
  obtain ⟨map, claimed, writing⟩ := sim.find_miss low absent
  obtain ⟨ready, zone, held, free, acquired, later, drawn, own, fills⟩ :=
    writing.acquire sizes enough
  obtain ⟨after, filled, last⟩ := later.write sizes low long drawn own
  rw [fills]
  refine ⟨after, ?_, last⟩
  simp only [znCacheGet, claimed, acquired, filled]

/-! ## Runs -/

theorem ranked_le (sim : Simulates config state lru writers) :
    lru.ranked.length ≤ config.nrZones := by
  rw [← List.length_map FullZone.zone, ← sim.order, ← sim.numZones]
  exact length_le_of_nodup sim.zones_nodup fun zone member => ((sim.isFull zone).mpr member).1

theorem get (sizes : SizesFit config ioSize) (sim : Simulates config state lru 0) {id : Nat}
    (low : id < 2 ^ 31) {passes : Nat} (enough : 2 ≤ passes) {randomBuffer : List UInt8}
    (long : config.chunkSz ≤ randomBuffer.length) :
    ∃ hit data next after,
      lru.get config.maxZoneChunks (min config.evictLowThreshZones config.nrZones)
        (id, znGenWriteBuffer config.chunkSz id randomBuffer) = ((hit, data), next) ∧
      znCacheGet config ioSize passes randomBuffer state id = some (⟨hit, some data⟩, after) ∧
      Simulates config after next 0 := by
  cases found : lru.stored id with
  | some data =>
      obtain ⟨after, ran, later⟩ := sim.get_hit sizes low found passes randomBuffer
      exact ⟨true, data, _, after, by rw [ZoneLru.get, found], ran, later⟩
  | none =>
      obtain ⟨after, ran, later⟩ := sim.get_miss sizes low found enough long
      refine ⟨false, _, _, after, ?_, ran, later⟩
      rw [ZoneLru.get, found, ZoneLru.makeRoom_min sim.ranked_le]

/-- By induction on the calls that are left. -/
theorem gets (sizes : SizesFit config ioSize) {passes : Nat} (enough : 2 ≤ passes)
    {randomBuffer : List UInt8} (long : config.chunkSz ≤ randomBuffer.length) (ids : List Nat) :
    ∀ {state : DeviceCache} {lru : LruCache}, Simulates config state lru 0 →
      (∀ id ∈ ids, id < 2 ^ 31) →
      ∃ after, znCacheGets config ioSize passes randomBuffer state ids =
        some ((lru.answers config.maxZoneChunks
          (min config.evictLowThreshZones config.nrZones)
          (ids.map fun id => (id, znGenWriteBuffer config.chunkSz id randomBuffer))).map
            fun answer => ⟨answer.1, some answer.2⟩, after) := by
  induction ids with
  | nil => intro state lru sim low; exact ⟨state, rfl⟩
  | cons id rest ih =>
      intro state lru sim low
      obtain ⟨hit, data, next, middle, answer, ran, later⟩ :=
        sim.get sizes (low id List.mem_cons_self) enough long
      obtain ⟨after, ranRest⟩ := ih later fun other member =>
        low other (List.mem_cons_of_mem _ member)
      refine ⟨after, ?_⟩
      simp only [znCacheGets, ran, ranRest, List.map_cons, ZoneLru.answers, answer,
        Option.map_some]

theorem init {device : Device} {start : DeviceCache}
    (begins : DeviceCache.init config device = some start) :
    Simulates config start (ZoneLru.init (List.range config.nrZones)) 0 := by
  obtain ⟨cache, built, rfl⟩ := Option.map_eq_some_iff.mp begins
  unfold znInitCache at built
  split at built
  next valid =>
      cases Option.some.inj built
      have sound := ZonesSound.init valid.1 config.zoneCap config.zoneSize config.chunkSz
        config.maxActive config.backend
      have nowhere : ∀ id location,
          ¬ (znCachemapInit : CacheMap Unit).Locates id location := by
        intro id location located
        obtain ⟨entry, found, _⟩ := located
        cases found
      have nothing : ∀ zone held,
          ¬ (ZoneLru.init (List.range config.nrZones) : LruCache).Holds zone held := by
        intro zone held holds
        rcases holds with filling | ⟨entry, member, _⟩
        · cases filling
        · cases member
      constructor
      case zones => exact sound
      case numZones => rfl
      case maxZoneChunks => rfl
      case maxActive => rfl
      case free => rfl
      case active => rfl
      case offset =>
        intro zone held filling
        cases filling
      case isFull =>
        intro zone
        constructor
        · intro full
          cases full.2
        · intro queued
          cases queued
      case queue => exact consistent_init _
      case queueMax => rfl
      case order => rfl
      case timely => exact ZoneLru.Timely.init _
      case filled =>
        intro entry member
        cases member
      case map => exact CacheMapAgrees.init
      case listed => exact fun id location located => absurd located (nowhere id location)
      case low =>
        intro id entry found
        cases found
      case located =>
        intro id location
        constructor
        · exact fun located => absurd located (nowhere id location)
        · intro stored
          obtain ⟨held, data, holds, _⟩ := stored
          exact absurd holds (nothing location.zone held)
      case unread =>
        intro zone
        rfl
      case bytes => exact fun zone held chunk id data holds => absurd holds (nothing zone held)
  next => cases built

end Simulates

/-- The calls of one thread are answered as a cache does that holds whole zones and empties
those used least recently. -/
theorem promotional_refines_lru {config : CacheConfig} {ioSize passes : Nat} {device : Device}
    {start : DeviceCache} {randomBuffer : List UInt8} {ids : List Nat}
    (sizes : SizesFit config ioSize) (begins : DeviceCache.init config device = some start)
    (long : config.chunkSz ≤ randomBuffer.length) (enough : 2 ≤ passes)
    (low : ∀ id ∈ ids, id < 2 ^ 31) :
    ∃ answers after,
      answers = (ZoneLru.init (List.range config.nrZones)).answers config.maxZoneChunks
        (min config.evictLowThreshZones config.nrZones)
        (ids.map fun id => (id, u32Bytes id ++ (randomBuffer.take config.chunkSz).drop 4)) ∧
      answers.map Prod.snd =
        ids.map (fun id => u32Bytes id ++ (randomBuffer.take config.chunkSz).drop 4) ∧
      znCacheGets config ioSize passes randomBuffer start ids =
        some (answers.map fun answer => ⟨answer.1, some answer.2⟩, after) := by
  obtain ⟨after, ran⟩ := (Simulates.init begins).gets sizes enough long ids low
  exact ⟨_, after, rfl, (ZoneLru.Genuine.init _).answers _ _ ids, ran⟩

/-- Two zones of two pages each. -/
def pagedConfig : CacheConfig where
  nrZones := 2
  zoneCap := 8192
  zoneSize := 8192
  chunkSz := 4096
  maxNrActiveZones := 0
  backend := .zns
  evictHighThreshZones := 0
  evictLowThreshZones := 1
  evictHighThreshChunks := 0
  evictLowThreshChunks := 1

/-- The hit on 1 saves its zone: the other one is emptied for 5. -/
theorem promotional_refines_lru_paged :
    ∃ (start : DeviceCache) (answers : List (Bool × List UInt8)) (after : DeviceCache),
      DeviceCache.init pagedConfig (fun _ => 0) = some start ∧
      answers.map Prod.fst = [false, false, false, false, true, false, false, true, true] ∧
      znCacheGets pagedConfig 4096 2 (List.replicate 4096 255) start [1, 2, 3, 4, 1, 5, 3, 1, 2] =
        some (answers.map fun answer => ⟨answer.1, some answer.2⟩, after) := by
  have sizes : SizesFit pagedConfig 4096 := by
    constructor <;> decide
  have long : pagedConfig.chunkSz ≤ (List.replicate 4096 (255 : UInt8)).length := by
    rw [List.length_replicate]
    decide
  have low : ∀ id ∈ [1, 2, 3, 4, 1, 5, 3, 1, 2], id < 2 ^ 31 := by decide
  have begins : DeviceCache.init pagedConfig (fun _ => 0) = some _ := rfl
  obtain ⟨answers, after, rfl, data, ran⟩ :=
    promotional_refines_lru sizes begins long (Nat.le_refl 2) low
  exact ⟨_, _, after, rfl, rfl, ran⟩

end ZNCache
