import ZNCache.ChunkHeap
import ZNCache.Lib.Reclaim

/-!
# What the GC makes of the full zones

The GC of a single thread, run from its first section to its last while no zone is
active.  It ends with a zone to hand out exactly when the zones in the heap can be
reclaimed into the free ones.
-/

set_option autoImplicit false

namespace ZNCache

open ZnPolicyChunk ZnMinheap

def HasZone (config : CacheConfig) (cache : ChunkCache Unit) : Prop :=
  (∃ zone < config.nrZones, (cache.zoneState.state zone).state = .free ∨
    (cache.zoneState.state zone).state = .active) ∧
    ∃ location, (zsmGetActiveZone 0 cache.zoneState).ret = .success location

def evictSection (config : CacheConfig) (cache : ChunkCache Unit) (pc : ChunkEvictPc) :
    Option (ChunkCache Unit × Option ChunkEvictPc) :=
  chunkEvictStep config () cache .smooth pc

/-- From the section on, the eviction comes to its end and leaves a zone to hand out. -/
def Unblocks (config : CacheConfig) : ChunkCache Unit → ChunkEvictPc → Prop :=
  Loop.EndsWith (evictSection config) (HasZone config)

/-- What holds of the GC while it runs: `held` are the pairs that it took, and `scanned`
is the zone that it reclaims, if any. -/
structure GcScene (config : CacheConfig) (cache : ChunkCache Unit) (held : Multiset ZnPair)
    (scanned : List Nat) : Prop where
  zones : ZonesSound cache.zoneState held
  noActive : cache.zoneState.active = []
  numZones : cache.zoneState.numZones = config.nrZones
  maxActive : cache.zoneState.maxNrActiveZones = config.maxActive
  once : (scanned ++ cache.evictionPolicy.invalidPqueue.zones).Nodup
  full : ∀ zone ∈ scanned ++ cache.evictionPolicy.invalidPqueue.zones,
    IsFull cache.zoneState zone
  named : ∀ zone ∈ scanned ++ cache.evictionPolicy.invalidPqueue.zones,
    cache.zoneId zone = zone
  heap : QueueSound cache.evictionPolicy.invalidPqueue
  size : cache.evictionPolicy.invalidPqueue.size < 2 ^ 31
  loads : ∀ handle ∈ cache.evictionPolicy.invalidPqueue.arr,
    (cache.evictionPolicy.invalidPqueue.entry handle).priority =
      (cache.evictionPolicy.usedChunks (cache.evictionPolicy.invalidPqueue.entry handle).data).card
  keys : ∀ key, 2 ^ 32 ≤ key → cache.cacheMap.zoneMap key = none
  listed : ∀ zone chunk id, (cache.cacheMap.dataMap zone).lookup chunk = some id →
    cache.cacheMap.zoneMap id ≠ none
  idle : ∀ zone ∈ cache.evictionPolicy.invalidPqueue.zones,
    cache.evictionPolicy.usedChunks zone = ∅ →
    ∀ chunk, (cache.cacheMap.dataMap zone).lookup chunk = none

def Clearable (cache : ChunkCache Unit) (zone : Nat) : Prop :=
  ∀ chunk id, (cache.cacheMap.dataMap zone).lookup chunk = some id → id < 2 ^ 31

def Movable (cache : ChunkCache Unit) (zone : Nat) : Prop :=
  Clearable cache zone ∧ ∀ chunk ∈ cache.evictionPolicy.usedChunks zone,
    cache.cacheMap.zoneMap (cache.evictionPolicy.slot (zone, chunk)).id ≠ none

theorem usedChunks_congr {policy other : ZnPolicyChunk Unit} {zone : Nat}
    (samePool : other.zonePool zone = policy.zonePool zone)
    (sameMax : other.maxZoneChunks = policy.maxZoneChunks) :
    other.usedChunks zone = policy.usedChunks zone := by
  ext chunk
  rw [mem_usedChunks, mem_usedChunks, sameMax, ZnPolicyChunk.slot, samePool]
  rfl

def Reclaimable (config : CacheConfig) (cache : ChunkCache Unit) (free writers : Nat) : Prop :=
  Reclaim.Succeeds config.evictLowThreshZones config.maxActive
    (fun zone => (cache.evictionPolicy.usedChunks zone).card) (Movable cache)
    cache.evictionPolicy.invalidPqueue.zones free writers

section Scene

variable {config : CacheConfig} {cache : ChunkCache Unit} {held : Multiset ZnPair}
  {scanned : List Nat} {zone chunk : Nat}

theorem GcScene.activeZones (scene : GcScene config cache held scanned) :
    cache.zoneState.activeZones = held.card := by
  rw [scene.zones.partition.activeZones_eq scene.zones.counts, scene.noActive]
  simp

/-- A zone is handed out exactly when one is free and not too many are being written. -/
theorem GcScene.handsOut (scene : GcScene config cache held scanned) :
    (∃ location, (zsmGetActiveZone 0 cache.zoneState).ret = .success location) ↔
      0 < cache.zoneState.free.length ∧ held.card < config.maxActive := by
  have writers := scene.activeZones
  constructor
  · intro given
    obtain ⟨location, handed⟩ := given
    have answer := scene.zones.partition.getActiveZone_spec scene.zones.counts 0
    generalize zsmGetActiveZone 0 cache.zoneState = outcome at answer handed
    cases answer with
    | evict | retry | error => cases handed
    | success drawnZone offset active free drawn =>
        cases drawn with
        | activeQueue head => simp [scene.noActive] at head
        | freeQueue _ _ head _ room =>
            rw [writers, scene.maxActive] at room
            exact ⟨by simp [head], room⟩
  · intro given
    obtain ⟨some, room⟩ := given
    obtain ⟨first, rest, head⟩ := List.exists_cons_of_length_pos some
    rw [← writers, ← scene.maxActive] at room
    exact ⟨_, congrArg Outcome.ret (zsmGetActiveZone_opened 0 scene.noActive head room
      (backendRet_zero _))⟩

theorem GcScene.hasZone (scene : GcScene config cache held scanned) :
    HasZone config cache ↔ 0 < cache.zoneState.free.length ∧ held.card < config.maxActive := by
  rw [HasZone, scene.handsOut]
  constructor
  · exact And.right
  · intro given
    obtain ⟨some, room⟩ := given
    obtain ⟨first, rest, head⟩ := List.exists_cons_of_length_pos some
    have free := (scene.zones.partition.freeIff first).mp (by simp [head])
    exact ⟨⟨first, scene.numZones ▸ free.1, .inl free.2⟩, some, room⟩

theorem GcScene.leave (scene : GcScene config cache held scanned) :
    Unblocks config cache .leave ↔
      0 < cache.zoneState.free.length ∧ held.card < config.maxActive := by
  have ran : evictSection config cache .leave = some (cache.setHolder none, none) := rfl
  exact (Loop.endsWith_leave ran).trans scene.hasZone

/-! ## One reclaimed zone -/

def unscanned (policy : ZnPolicyChunk Unit) (zone chunk : Nat) : Finset Nat :=
  (policy.usedChunks zone).filter (chunk ≤ ·)

theorem mem_unscanned {policy : ZnPolicyChunk Unit} {other : Nat} :
    other ∈ unscanned policy zone chunk ↔ (other < policy.maxZoneChunks ∧
      (policy.slot (zone, other)).inUse = true) ∧ chunk ≤ other := by
  rw [unscanned, Finset.mem_filter, mem_usedChunks]

theorem gcScan_atEnd (atEnd : cache.evictionPolicy.maxZoneChunks ≤ chunk) :
    evictSection config cache (.gcScan zone chunk) = some (cache, some (.gcClear zone)) := by
  simp only [evictSection, chunkEvictStep, if_neg (Nat.not_lt.mpr atEnd)]

/-- The clearing dereferences NULL for an identifier that its key does not lead to. -/
theorem GcScene.unclearable (scene : GcScene config cache held [zone])
    (atEnd : cache.evictionPolicy.maxZoneChunks ≤ chunk) (high : ¬ Clearable cache zone) :
    ¬ Unblocks config cache (.gcScan zone chunk) := by
  have stuck : znCachemapClearZone cache.cacheMap zone = none := by
    by_contra some
    obtain ⟨answer, cleared⟩ := Option.ne_none_iff_exists'.mp some
    apply high
    intro key id listed
    by_contra above
    apply (znCachemapClearZone_state cleared).2.1 id (GHashTable.mem_values.mpr ⟨key, listed⟩)
    apply scene.keys
    apply clearKey_high (Nat.le_of_not_lt above)
    by_contra large
    exact scene.listed zone key id listed (scene.keys id (Nat.le_of_not_lt large))
  have clearStuck : evictSection config cache (.gcClear zone) = none := by
    simp only [evictSection, chunkEvictStep, scene.named zone (by simp), stuck]
  rw [show Unblocks config cache (.gcScan zone chunk) ↔ Unblocks config cache (.gcClear zone)
    from Loop.endsWith_pass (gcScan_atEnd atEnd)]
  exact Loop.not_endsWith_stuck clearStuck

theorem GcScene.reclaimed (scene : GcScene config cache held [zone])
    (atEnd : cache.evictionPolicy.maxZoneChunks ≤ chunk) (clearable : Clearable cache zone) :
    ∃ after, (Unblocks config cache (.gcScan zone chunk) ↔
        Unblocks config after (.gcLoop after.zoneState.free.length)) ∧
      GcScene config after held [] ∧ after.evictionPolicy = cache.evictionPolicy ∧
      after.zoneState.free.length = cache.zoneState.free.length + 1 ∧
      (∀ key, after.cacheMap.zoneMap key = none ↔ cache.cacheMap.zoneMap key = none) ∧
      ∀ other, other ≠ zone → after.cacheMap.dataMap other = cache.cacheMap.dataMap other := by
  have own := scene.named zone (by simp)
  obtain ⟨answer, cleared, sameKeys, data⟩ := @znCachemapClearZone_total _ cache.cacheMap zone (by
    intro value member
    obtain ⟨key, listed⟩ := GHashTable.mem_values.mp member
    have present := scene.listed zone key value listed
    rwa [clearKey_low (clearable key value listed)])
  obtain ⟨sound, reset⟩ := scene.zones.evict (scene.full zone (by simp))
  obtain ⟨outside, once⟩ := List.nodup_cons.mp scene.once
  have sameData : ∀ other, other ≠ zone →
      answer.state.dataMap other = cache.cacheMap.dataMap other := fun other apart => by
    rw [data, Function.update_of_ne apart]
  have clearRan : evictSection config cache (.gcClear zone) =
      some ({ cache with cacheMap := answer.state }, some (.gcReset zone)) := by
    simp only [evictSection, chunkEvictStep, own, cleared]
  have resetRan : evictSection config { cache with cacheMap := answer.state } (.gcReset zone) =
      some (({ cache with cacheMap := answer.state } : ChunkCache Unit).evictZone 0 zone,
        some .gcCount) := by
    have sameOwn : ChunkCache.zoneId { cache with cacheMap := answer.state } zone = zone := own
    simp only [evictSection, chunkEvictStep, sameOwn, Environment.smooth]
  refine ⟨({ cache with cacheMap := answer.state } : ChunkCache Unit).evictZone 0 zone, ?_, ?_,
    rfl, ?_, sameKeys, sameData⟩
  · exact (((Loop.endsWith_pass (gcScan_atEnd atEnd)).trans (Loop.endsWith_pass clearRan)).trans
      (Loop.endsWith_pass resetRan)).trans (Loop.endsWith_pass rfl)
  · have state : (({ cache with cacheMap := answer.state } : ChunkCache Unit).evictZone
        0 zone).zoneState = freed cache.zoneState zone := reset
    constructor
    case zones =>
      rw [state, ← reset]
      exact sound
    case noActive =>
      rw [state]
      exact scene.noActive
    case numZones =>
      rw [state]
      exact scene.numZones
    case maxActive =>
      rw [state]
      exact scene.maxActive
    case once => exact once
    case full =>
      intro other member
      rw [state, freed_full]
      refine ⟨scene.full other (List.mem_cons_of_mem _ member), ?_⟩
      intro equal
      subst equal
      exact outside member
    case named => exact fun other member => scene.named other (List.mem_cons_of_mem _ member)
    case heap => exact scene.heap
    case size => exact scene.size
    case loads => exact scene.loads
    case keys => exact fun key high => (sameKeys key).mpr (scene.keys key high)
    case listed =>
      intro other key id found
      change (answer.state.dataMap other).lookup key = some id at found
      rw [data] at found
      by_cases same : other = zone
      · subst same
        simp at found
      · rw [Function.update_of_ne same] at found
        exact mt (sameKeys id).mp (scene.listed other key id found)
    case idle =>
      intro other member none key
      change (answer.state.dataMap other).lookup key = Option.none
      rw [sameData other fun same => outside (same ▸ member)]
      exact scene.idle other member none key
  · have state : (({ cache with cacheMap := answer.state } : ChunkCache Unit).evictZone
        0 zone).zoneState = freed cache.zoneState zone := reset
    rw [state]
    simp [freed]

def ChunkCache.copied (cache : ChunkCache Unit) (source : Slot) (location : ZnPair) :
    ChunkCache Unit :=
  ChunkCache.copyChunk { cache with zoneState := (zsmGetActiveZone 0 cache.zoneState).state }
    (cache.evictionPolicy.slot source) location

theorem gcScan_copies (inZone : chunk < cache.evictionPolicy.maxZoneChunks)
    (used : (cache.evictionPolicy.slot (zone, chunk)).inUse = true) {location : ZnPair}
    (handed : (zsmGetActiveZone 0 cache.zoneState).ret = .success location) :
    Unblocks config cache (.gcScan zone chunk) ↔
      Unblocks config (cache.copied (zone, chunk) location) (.gcInsert zone chunk location) := by
  have acquireRan : evictSection config cache (.gcScan zone chunk) =
      some ({ cache with zoneState := (zsmGetActiveZone 0 cache.zoneState).state },
        some (.gcRead zone chunk location)) := by
    simp only [evictSection, chunkEvictStep, if_pos inZone, if_pos used, Environment.smooth, handed]
  exact ((Loop.endsWith_pass acquireRan).trans (Loop.endsWith_pass rfl)).trans
    (Loop.endsWith_pass rfl)

/-- Without a location for it the chunk stays where it is, and the GC stops. -/
theorem gcScan_stuck (inZone : chunk < cache.evictionPolicy.maxZoneChunks)
    (used : (cache.evictionPolicy.slot (zone, chunk)).inUse = true)
    (unhanded : ¬ ∃ location, (zsmGetActiveZone 0 cache.zoneState).ret = .success location) :
    ¬ Unblocks config cache (.gcScan zone chunk) := by
  apply Loop.not_endsWith_stuck
  simp only [evictSection, chunkEvictStep, if_pos inZone, if_pos used, Environment.smooth]
  split
  next location handed => exact absurd ⟨location, handed⟩ unhanded
  next => rfl

/-- A moved chunk whose identifier has no entry dereferences NULL. -/
theorem gcInsert_stuck {location : ZnPair}
    (absent : cache.cacheMap.zoneMap (cache.evictionPolicy.slot (zone, chunk)).id = none) :
    ¬ Unblocks config (cache.copied (zone, chunk) location) (.gcInsert zone chunk location) := by
  apply Loop.not_endsWith_stuck
  have nothing : znCachemapInsert cache.cacheMap (cache.evictionPolicy.slot (zone, chunk)).id
      location = none := by
    simp [znCachemapInsert, absent]
  simp only [evictSection, chunkEvictStep, ChunkCache.remapChunk, ChunkCache.copied,
    ChunkCache.copyChunk, ZnCache.writeChunk, nothing]

/-- One chunk is moved: the GC keeps the pair that it took for it. -/
theorem GcScene.moved (scene : GcScene config cache held [zone])
    (inZone : chunk < cache.evictionPolicy.maxZoneChunks)
    (used : (cache.evictionPolicy.slot (zone, chunk)).inUse = true) {location : ZnPair}
    (handed : (zsmGetActiveZone 0 cache.zoneState).ret = .success location)
    (present : cache.cacheMap.zoneMap (cache.evictionPolicy.slot (zone, chunk)).id ≠ none) :
    ∃ after, (Unblocks config cache (.gcScan zone chunk) ↔
        Unblocks config after (.gcScan zone (chunk + 1))) ∧
      GcScene config after (location ::ₘ held) [zone] ∧
      after.evictionPolicy = moveSlot cache.evictionPolicy (zone, chunk) location ∧
      location.zone ∉ zone :: cache.evictionPolicy.invalidPqueue.zones ∧
      after.zoneState.free.length + 1 = cache.zoneState.free.length ∧
      (∀ key, after.cacheMap.zoneMap key = none ↔ cache.cacheMap.zoneMap key = none) ∧
      ∀ other, other ≠ location.zone →
        after.cacheMap.dataMap other = cache.cacheMap.dataMap other := by
  obtain ⟨sound, sameFull, notFull⟩ := scene.zones.handed handed
  obtain ⟨some, room⟩ := scene.handsOut.mp ⟨location, handed⟩
  obtain ⟨first, rest, head⟩ := List.exists_cons_of_length_pos some
  rw [← scene.activeZones, ← scene.maxActive] at room
  have opened := zsmGetActiveZone_opened 0 scene.noActive head room (backendRet_zero _)
  have shape := zsmGetActiveZone_shape 0 cache.zoneState
  have apart : ∀ other ∈ zone :: cache.evictionPolicy.invalidPqueue.zones,
      other ≠ location.zone := by
    intro other member equal
    subst equal
    exact notFull (scene.full _ member)
  obtain ⟨entry, found⟩ := Option.ne_none_iff_exists'.mp present
  have small : (cache.evictionPolicy.slot (zone, chunk)).id < 2 ^ 32 := by
    by_contra high
    exact present (scene.keys _ (Nat.le_of_not_lt high))
  have inserted := znCachemapInsert_found small found location
  let after : ChunkCache Unit := { cache.copied (zone, chunk) location with
    cacheMap := cache.cacheMap.located (cache.evictionPolicy.slot (zone, chunk)).id location
    evictionPolicy := moveSlot cache.evictionPolicy (zone, chunk) location }
  have insertRan : evictSection config (cache.copied (zone, chunk) location)
      (.gcInsert zone chunk location) =
        Option.some (after, Option.some (.gcScan zone (chunk + 1))) := by
    simp only [evictSection, chunkEvictStep, ChunkCache.remapChunk, ChunkCache.copied,
      ChunkCache.copyChunk, ZnCache.writeChunk, inserted, after]
  have sameKeys : ∀ key, after.cacheMap.zoneMap key = none ↔
      cache.cacheMap.zoneMap key = none := by
    intro key
    by_cases same : key = (cache.evictionPolicy.slot (zone, chunk)).id
    · simp [after, CacheMap.located, same, present]
    · simp [after, CacheMap.located, same]
  have sameZone : ∀ other ∈ cache.evictionPolicy.invalidPqueue.zones,
      (moveSlot cache.evictionPolicy (zone, chunk) location).zonePool other =
        cache.evictionPolicy.zonePool other := by
    intro other member
    refine zonePool_moveSlot _ ?_ (apart other (List.mem_cons_of_mem _ member))
    intro equal
    subst equal
    exact (List.nodup_cons.mp scene.once).1 member
  have sameData : ∀ other, other ≠ location.zone →
      after.cacheMap.dataMap other = cache.cacheMap.dataMap other := fun other elsewhere =>
    Function.update_of_ne elsewhere _ _
  refine ⟨after, ?_, ?_, rfl, fun member => apart _ member rfl, ?_, sameKeys, sameData⟩
  · exact (gcScan_copies inZone used handed).trans (Loop.endsWith_pass insertRan)
  · constructor
    case zones => exact sound
    case noActive =>
      change (zsmGetActiveZone 0 cache.zoneState).state.active = []
      rw [opened]
      rfl
    case numZones => exact shape.numZones.trans scene.numZones
    case maxActive => exact shape.maxNrActiveZones.trans scene.maxActive
    case once => exact scene.once
    case full => exact fun other member => (sameFull other).mpr (scene.full other member)
    case named =>
      exact fun other member => (zoneId_moveSlot _ _ _ other).trans (scene.named other member)
    case heap => exact scene.heap
    case size => exact scene.size
    case loads =>
      intro handle member
      apply (scene.loads handle member).trans
      have same := sameZone _ (data_mem_zones member)
      exact congrArg Finset.card (usedChunks_congr same.symm rfl)
    case keys => exact fun key high => (sameKeys key).mpr (scene.keys key high)
    case listed =>
      intro other key id listed
      apply mt (sameKeys id).mp
      have lookup := CacheMap.located_lookup cache.cacheMap
        (cache.evictionPolicy.slot (zone, chunk)).id location other key
      rw [show (after.cacheMap.dataMap other).lookup key = _ from lookup] at listed
      split at listed
      next => exact Option.some.inj listed ▸ present
      next => exact scene.listed other key id listed
    case idle =>
      intro other member none key
      rw [sameData other (apart other (List.mem_cons_of_mem _ member))]
      refine scene.idle other member ?_ key
      exact (usedChunks_congr (sameZone other member) rfl).symm.trans none
  · change (zsmGetActiveZone 0 cache.zoneState).state.free.length + 1 = _
    rw [opened, head]
    rfl

theorem Reclaimable.congr {after : ChunkCache Unit} {free writers : Nat}
    (sameZones : after.evictionPolicy.invalidPqueue.zones =
      cache.evictionPolicy.invalidPqueue.zones)
    (sameMax : after.evictionPolicy.maxZoneChunks = cache.evictionPolicy.maxZoneChunks)
    (samePool : ∀ zone ∈ cache.evictionPolicy.invalidPqueue.zones,
      after.evictionPolicy.zonePool zone = cache.evictionPolicy.zonePool zone)
    (sameKeys : ∀ key, after.cacheMap.zoneMap key = none ↔ cache.cacheMap.zoneMap key = none)
    (sameData : ∀ zone ∈ cache.evictionPolicy.invalidPqueue.zones,
      after.cacheMap.dataMap zone = cache.cacheMap.dataMap zone) :
    Reclaimable config after free writers ↔ Reclaimable config cache free writers := by
  have sameUsed : ∀ zone ∈ cache.evictionPolicy.invalidPqueue.zones,
      after.evictionPolicy.usedChunks zone = cache.evictionPolicy.usedChunks zone :=
    fun zone member => usedChunks_congr (samePool zone member) sameMax
  rw [Reclaimable, sameZones]
  apply Reclaim.succeeds_congr
  · exact fun zone member => congrArg Finset.card (sameUsed zone member)
  · intro zone member
    simp only [Movable, Clearable, sameUsed zone member, slot, samePool zone member, ne_eq,
      sameKeys, sameData zone member]

/-! ## The scan of a zone -/

theorem unscanned_atEnd {policy : ZnPolicyChunk Unit} (atEnd : policy.maxZoneChunks ≤ chunk) :
    unscanned policy zone chunk = ∅ := by
  ext other
  rw [mem_unscanned]
  simp only [Finset.notMem_empty, iff_false]
  omega

theorem unscanned_skip {policy : ZnPolicyChunk Unit}
    (unused : (policy.slot (zone, chunk)).inUse = false) :
    unscanned policy zone chunk = unscanned policy zone (chunk + 1) := by
  ext other
  rw [mem_unscanned, mem_unscanned]
  refine and_congr_right fun within => ⟨fun below => ?_, fun below => by omega⟩
  rcases Nat.eq_or_lt_of_le below with rfl | later
  · rw [within.2] at unused
    cases unused
  · exact later

theorem unscanned_move {policy : ZnPolicyChunk Unit} {location : ZnPair}
    (apart : zone ≠ location.zone) :
    unscanned (moveSlot policy (zone, chunk) location) zone (chunk + 1) =
      (unscanned policy zone chunk).erase chunk := by
  ext other
  have notTarget : (zone, other) ≠ (location.zone, location.chunkOffset) := fun same =>
    apart (congrArg Prod.fst same)
  rw [Finset.mem_erase, mem_unscanned, mem_unscanned, slot_moveSlot, if_neg notTarget]
  by_cases same : other = chunk
  · subst same
    simp
  · have elsewhere : (zone, other) ≠ (zone, chunk) := fun eq => same (congrArg Prod.snd eq)
    rw [if_neg elsewhere]
    simp only [moveSlot, setSlot, ZnPolicyChunk.setZone]
    constructor
    · intro before
      exact ⟨same, before.1, by omega⟩
    · intro after
      exact ⟨after.2.1, by omega⟩

/-- There is a location and an entry for every chunk that the scan has yet to move, and
the rest of the heap can be reclaimed afterwards. -/
def Scannable (config : CacheConfig) (cache : ChunkCache Unit) (zone chunk free writers : Nat) :
    Prop :=
  ((Clearable cache zone ∧ ∀ other ∈ unscanned cache.evictionPolicy zone chunk,
      cache.cacheMap.zoneMap (cache.evictionPolicy.slot (zone, other)).id ≠ none) ∧
    (unscanned cache.evictionPolicy zone chunk).card ≤ free ∧
    writers + (unscanned cache.evictionPolicy zone chunk).card ≤ config.maxActive) ∧
  Reclaimable config cache (free - (unscanned cache.evictionPolicy zone chunk).card + 1)
    (writers + (unscanned cache.evictionPolicy zone chunk).card)

theorem scannable_atEnd {free writers : Nat} (atEnd : cache.evictionPolicy.maxZoneChunks ≤ chunk)
    (room : writers ≤ config.maxActive) :
    Scannable config cache zone chunk free writers ↔
      Clearable cache zone ∧ Reclaimable config cache (free + 1) writers := by
  simp [Scannable, unscanned_atEnd atEnd, room]

theorem scannable_moved {after : ChunkCache Unit} {location : ZnPair} {free writers : Nat}
    (inZone : chunk < cache.evictionPolicy.maxZoneChunks)
    (used : (cache.evictionPolicy.slot (zone, chunk)).inUse = true)
    (present : cache.cacheMap.zoneMap (cache.evictionPolicy.slot (zone, chunk)).id ≠ none)
    (once : (zone :: cache.evictionPolicy.invalidPqueue.zones).Nodup)
    (policy : after.evictionPolicy = moveSlot cache.evictionPolicy (zone, chunk) location)
    (outside : location.zone ∉ zone :: cache.evictionPolicy.invalidPqueue.zones)
    (sameKeys : ∀ key, after.cacheMap.zoneMap key = none ↔ cache.cacheMap.zoneMap key = none)
    (sameData : ∀ other, other ≠ location.zone →
      after.cacheMap.dataMap other = cache.cacheMap.dataMap other) :
    Scannable config after zone (chunk + 1) free (writers + 1) ↔
      Scannable config cache zone chunk (free + 1) writers := by
  have here : chunk ∈ unscanned cache.evictionPolicy zone chunk :=
    mem_unscanned.mpr ⟨⟨inZone, used⟩, Nat.le_refl _⟩
  have some := Finset.card_pos.mpr ⟨chunk, here⟩
  have apart : zone ≠ location.zone := fun same => outside (same ▸ List.mem_cons_self)
  have left : unscanned after.evictionPolicy zone (chunk + 1) =
      (unscanned cache.evictionPolicy zone chunk).erase chunk := by
    rw [policy, unscanned_move apart]
  have fewer := Finset.card_erase_of_mem here
  have sameSlot : ∀ other, other ≠ chunk →
      after.evictionPolicy.slot (zone, other) = cache.evictionPolicy.slot (zone, other) := by
    intro other notHere
    rw [policy, slot_moveSlot, if_neg fun same => apart (congrArg Prod.fst same),
      if_neg fun same => notHere (congrArg Prod.snd same)]
  have entriesLeft : (∀ other ∈ (unscanned cache.evictionPolicy zone chunk).erase chunk,
        after.cacheMap.zoneMap (after.evictionPolicy.slot (zone, other)).id ≠ none) ↔
      ∀ other ∈ unscanned cache.evictionPolicy zone chunk,
        cache.cacheMap.zoneMap (cache.evictionPolicy.slot (zone, other)).id ≠ none := by
    constructor
    · intro all other member
      by_cases same : other = chunk
      · exact same ▸ present
      · have kept := all other (Finset.mem_erase.mpr ⟨same, member⟩)
        rwa [sameSlot other same, ne_eq, sameKeys] at kept
    · intro all other member
      obtain ⟨notHere, before⟩ := Finset.mem_erase.mp member
      rw [sameSlot other notHere, ne_eq, sameKeys]
      exact all other before
  have reclaims := fun spare taken => @Reclaimable.congr config cache after spare taken
    (by rw [policy]; rfl) (by rw [policy]; rfl) (by
      intro other member
      rw [policy]
      apply zonePool_moveSlot
      · intro equal
        subst equal
        exact (List.nodup_cons.mp once).1 member
      · intro equal
        subst equal
        exact outside (List.mem_cons_of_mem _ member)) sameKeys (by
      intro other member
      apply sameData
      intro equal
      subst equal
      exact outside (List.mem_cons_of_mem _ member))
  have spare : free - ((unscanned cache.evictionPolicy zone chunk).card - 1) + 1 =
      free + 1 - (unscanned cache.evictionPolicy zone chunk).card + 1 := by omega
  have taken : writers + 1 + ((unscanned cache.evictionPolicy zone chunk).card - 1) =
      writers + (unscanned cache.evictionPolicy zone chunk).card := by omega
  simp only [Scannable, left, fewer, entriesLeft, Clearable, sameData zone apart, reclaims, spare,
    taken]
  refine and_congr_left fun _ => and_congr_right fun _ => and_congr_left fun _ => ?_
  omega

theorem GcScene.finished {entries : Nat}
    (loop : ∀ (cache : ChunkCache Unit) (held : Multiset ZnPair), GcScene config cache held [] →
      cache.evictionPolicy.invalidPqueue.size = entries →
      (Unblocks config cache (.gcLoop cache.zoneState.free.length) ↔
        Reclaimable config cache cache.zoneState.free.length held.card))
    (scene : GcScene config cache held [zone])
    (size : cache.evictionPolicy.invalidPqueue.size = entries)
    (atEnd : cache.evictionPolicy.maxZoneChunks ≤ chunk) :
    Unblocks config cache (.gcScan zone chunk) ↔
      Scannable config cache zone chunk cache.zoneState.free.length held.card := by
  have within := scene.zones.partition.within
  rw [scene.noActive, scene.maxActive, List.length_nil, Nat.zero_add] at within
  rw [scannable_atEnd atEnd within]
  by_cases clearable : Clearable cache zone
  · obtain ⟨after, passed, later, samePolicy, free, sameKeys, sameData⟩ :=
      scene.reclaimed atEnd clearable
    rw [passed, loop after held later (by rw [samePolicy, size]), free, and_iff_right clearable]
    apply Reclaimable.congr _ _ _ sameKeys
    · intro other member
      apply sameData
      intro same
      subst same
      exact (List.nodup_cons.mp scene.once).1 member
    · rw [samePolicy]
    · rw [samePolicy]
    · exact fun zone _ => by rw [samePolicy]
  · exact iff_of_false (scene.unclearable atEnd clearable) fun fits => clearable fits.1

/-- The scan gets through exactly when all that it has yet to move can be moved. -/
theorem gcScan_unblocks {entries : Nat}
    (loop : ∀ (cache : ChunkCache Unit) (held : Multiset ZnPair), GcScene config cache held [] →
      cache.evictionPolicy.invalidPqueue.size = entries →
      (Unblocks config cache (.gcLoop cache.zoneState.free.length) ↔
        Reclaimable config cache cache.zoneState.free.length held.card))
    (remaining : Nat) :
    ∀ {cache : ChunkCache Unit} {held : Multiset ZnPair} {zone chunk : Nat},
      GcScene config cache held [zone] →
      cache.evictionPolicy.invalidPqueue.size = entries →
      cache.evictionPolicy.maxZoneChunks = chunk + remaining →
      (Unblocks config cache (.gcScan zone chunk) ↔
        Scannable config cache zone chunk cache.zoneState.free.length held.card) := by
  induction remaining with
  | zero => exact fun scene size bound => scene.finished loop size (Nat.le_of_eq bound)
  | succ remaining ih =>
      intro cache held zone chunk scene size bound
      have inZone : chunk < cache.evictionPolicy.maxZoneChunks := by omega
      cases used : (cache.evictionPolicy.slot (zone, chunk)).inUse with
      | false =>
          have ran : evictSection config cache (.gcScan zone chunk) =
              some (cache, some (.gcScan zone (chunk + 1))) := by
            simp only [evictSection, chunkEvictStep, if_pos inZone, used, Bool.false_eq_true,
              if_false]
          rw [Scannable, unscanned_skip used]
          exact (Loop.endsWith_pass ran).trans (ih scene size (by omega))
      | true =>
          have here : chunk ∈ unscanned cache.evictionPolicy zone chunk :=
            mem_unscanned.mpr ⟨⟨inZone, used⟩, Nat.le_refl _⟩
          have some := Finset.card_pos.mpr ⟨chunk, here⟩
          by_cases handed : ∃ location,
              (zsmGetActiveZone 0 cache.zoneState).ret = .success location
          · obtain ⟨location, handed⟩ := handed
            by_cases present :
                cache.cacheMap.zoneMap (cache.evictionPolicy.slot (zone, chunk)).id = none
            · rw [gcScan_copies inZone used handed]
              exact iff_of_false (gcInsert_stuck present) fun fits => fits.1.1.2 chunk here present
            · obtain ⟨after, passed, later, policy, outside, free, sameKeys, sameData⟩ :=
                scene.moved inZone used handed present
              have bounded : after.evictionPolicy.maxZoneChunks = chunk + 1 + remaining := by
                rw [policy]
                exact bound.trans (by omega)
              have rest := ih later (by rw [policy]; exact size) bounded
              rw [passed, rest, Multiset.card_cons, scannable_moved inZone used present scene.once
                policy outside sameKeys sameData, free]
          · refine iff_of_false (gcScan_stuck inZone used handed) fun fits => ?_
            have room := fits.1.2
            rw [scene.handsOut] at handed
            omega

/-! ## The loop -/

/-- The zone that leaves the heap has the fewest chunks in use. -/
theorem GcScene.extract (scene : GcScene config cache held []) {handle : Nat} {heap : ZnMinheap}
    (extracted : znMinheapExtractMin cache.evictionPolicy.invalidPqueue = some (handle, heap)) :
    GcScene config (cache.setHeap heap) held [(heap.entry handle).data] ∧
      ∀ zone ∈ heap.zones,
        (cache.evictionPolicy.usedChunks (heap.entry handle).data).card ≤
          (cache.evictionPolicy.usedChunks zone).card := by
  have zones := zones_extractMin extracted
  obtain ⟨handles, data, priority, _⟩ := extractMin_spec extracted
  obtain ⟨sound, root⟩ := scene.heap.extractMin scene.size extracted
  have inside : ∀ other ∈ heap.arr, other ∈ cache.evictionPolicy.invalidPqueue.arr :=
    fun other member => handles.mem_iff.mpr (List.mem_cons_of_mem _ member)
  have first : handle ∈ cache.evictionPolicy.invalidPqueue.arr :=
    handles.mem_iff.mpr List.mem_cons_self
  have smaller : cache.evictionPolicy.invalidPqueue.size = heap.size + 1 := handles.length_eq
  have size := scene.size
  constructor
  · refine ⟨scene.zones, scene.noActive, scene.numZones, scene.maxActive, ?_, fun zone member => ?_,
      fun zone member => ?_, sound, ?_, fun other member => ?_, scene.keys, scene.listed, ?_⟩
    · exact zones.nodup_iff.mp scene.once
    · exact scene.full zone (zones.mem_iff.mpr member)
    · exact scene.named zone (zones.mem_iff.mpr member)
    · change heap.size < 2 ^ 31
      omega
    · change (heap.entry other).priority =
        (cache.evictionPolicy.usedChunks (heap.entry other).data).card
      rw [priority, data]
      exact scene.loads other (inside other member)
    · exact fun zone member => scene.idle zone (zones.mem_iff.mpr (List.mem_cons_of_mem _ member))
  · intro zone member
    obtain ⟨other, here, rfl⟩ := mem_zones.mp member
    have least := scene.heap.root_le (inside other here)
    rw [root, scene.loads handle first, scene.loads other (inside other here)] at least
    rw [data, data]
    exact least

theorem gcLoop_unblocks (marks : 0 < config.evictLowThreshZones) (entries : Nat) :
    ∀ (cache : ChunkCache Unit) (held : Multiset ZnPair), GcScene config cache held [] →
      cache.evictionPolicy.invalidPqueue.size = entries →
      (Unblocks config cache (.gcLoop cache.zoneState.free.length) ↔
        Reclaimable config cache cache.zoneState.free.length held.card) := by
  induction entries with
  | zero =>
      intro cache held scene size
      have empty : cache.evictionPolicy.invalidPqueue.arr = [] := List.length_eq_zero_iff.mp size
      have ran : evictSection config cache (.gcLoop cache.zoneState.free.length) =
          some (cache, some .leave) := by
        simp only [evictSection, chunkEvictStep, extractMin_none.mpr empty, ite_self]
      rw [show Unblocks config cache (.gcLoop cache.zoneState.free.length) ↔
        Unblocks config cache .leave from Loop.endsWith_pass ran, scene.leave, Reclaimable]
      rcases Nat.lt_or_ge cache.zoneState.free.length config.evictLowThreshZones with short | enough
      · rw [ZnMinheap.zones, empty, List.map_nil, Reclaim.succeeds_nil short]
      · rw [Reclaim.succeeds_of_enough enough]
        exact and_iff_right (by omega)
  | succ entries ih =>
      intro cache held scene size
      rcases Nat.lt_or_ge cache.zoneState.free.length config.evictLowThreshZones with short | enough
      · cases extracted : znMinheapExtractMin cache.evictionPolicy.invalidPqueue with
        | none =>
            have empty := congrArg List.length (extractMin_none.mp extracted)
            rw [show cache.evictionPolicy.invalidPqueue.arr.length = entries + 1 from size] at empty
            cases empty
        | some answer =>
            obtain ⟨handle, heap⟩ := answer
            obtain ⟨taken, least⟩ := scene.extract extracted
            have zones := zones_extractMin extracted
            have smaller : cache.evictionPolicy.invalidPqueue.size = heap.size + 1 :=
              (extractMin_spec extracted).1.length_eq
            have ran : evictSection config cache (.gcLoop cache.zoneState.free.length) =
                some (cache.setHeap heap, some (.gcScan (heap.entry handle).data 0)) := by
              simp only [evictSection, chunkEvictStep, if_pos short, extracted]
            have scan := gcScan_unblocks ih cache.evictionPolicy.maxZoneChunks taken
              (show heap.size = entries by omega) (Nat.zero_add _).symm
            have all : unscanned (cache.setHeap heap).evictionPolicy (heap.entry handle).data 0 =
                cache.evictionPolicy.usedChunks (heap.entry handle).data := by
              ext other
              rw [mem_unscanned, and_iff_left (Nat.zero_le _)]
              exact mem_usedChunks.symm
            rw [Scannable, all] at scan
            have empty : (cache.evictionPolicy.usedChunks (heap.entry handle).data).card = 0 →
                Movable cache (heap.entry handle).data := by
              intro none
              have idle := Finset.card_eq_zero.mp none
              refine ⟨fun chunk id listed => ?_, fun chunk member => ?_⟩
              · rw [scene.idle _ (zones.mem_iff.mpr List.mem_cons_self) idle chunk] at listed
                cases listed
              · rw [idle] at member
                simp at member
            rw [Reclaimable, Reclaim.succeeds_perm zones,
              Reclaim.succeeds_cons short least empty]
            exact (Loop.endsWith_pass ran).trans scan
      · have ran : evictSection config cache (.gcLoop cache.zoneState.free.length) =
            some (cache, some .leave) := by
          simp only [evictSection, chunkEvictStep, if_neg (Nat.not_lt.mpr enough)]
        rw [show Unblocks config cache (.gcLoop cache.zoneState.free.length) ↔
          Unblocks config cache .leave from Loop.endsWith_pass ran, scene.leave, Reclaimable,
          Reclaim.succeeds_of_enough enough]
        exact and_iff_right (by omega)

/-- The GC as a whole, with no zone free when it starts. -/
theorem GcScene.unblocks (marks : 0 < config.evictLowThreshZones)
    (scene : GcScene config cache held []) (noFree : cache.zoneState.free = []) :
    Unblocks config cache .gcStart ↔ Reclaimable config cache 0 held.card := by
  have none : zsmGetNumFreeZones cache.zoneState = 0 := congrArg List.length noFree
  have ran : evictSection config cache .gcStart = some (cache, some (.gcLoop 0)) := by
    simp only [evictSection, chunkEvictStep, none, if_neg (Nat.not_lt_zero _)]
  have loop := gcLoop_unblocks marks _ cache held scene rfl
  rw [noFree] at loop
  exact (Loop.endsWith_pass ran).trans loop

end Scene

end ZNCache
