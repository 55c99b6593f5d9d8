import ZNCache.ChunkHeap
import ZNCache.EvictedChunks

/-!
# One thread under the chunk policy

A single thread that only calls `zn_cache_get`, on a device that never fails.  Each
chunk that the GC moves leaks a writer; as long as none has leaked, the metadata, the
heap and the cache map of the policy agree.
-/

set_option autoImplicit false

namespace ZNCache

open Tally Transition ZnPolicyChunk ZnMinheap Duties

/-- The thread calls `zn_cache_get` and runs its sections, of which none fails. -/
def SmoothGets (_ : ChunkSystem Unit) (action : Unit × Choice) : Prop :=
  match action.2 with
  | .get _ => True
  | .run environment => environment = .smooth
  | .evict | .wakeUp => False

/-! ## The zones -/

def ThreadPc.fullZones (maxChunks : Nat) (pc : ThreadPc ChunkEvictPc) : Multiset Nat :=
  (pc.duties maxChunks).filled + (pc.duties maxChunks).reclaimed

/-- Every pair that is out is the thread's own or has leaked, and the full zones are those
in the heap or in the thread's hands. -/
structure SoloZones (config : CacheConfig) (cache : ChunkCache Unit) (pc : ThreadPc ChunkEvictPc)
    (leaked : Multiset ZnPair) : Prop where
  zones : ZonesSound cache.zoneState (pc.holds + leaked)
  numZones : cache.zoneState.numZones = config.nrZones
  maxActive : cache.zoneState.maxNrActiveZones = config.maxActive
  full : ∀ zone, IsFull cache.zoneState zone ↔
    zone ∈ cache.evictionPolicy.invalidPqueue.zones ∨ zone ∈ pc.fullZones config.maxZoneChunks

section Zones

variable {config : CacheConfig} {cache after : ChunkCache Unit} {environment : Environment}
  {leaked : Multiset ZnPair} {rest : Duties}

theorem ZonesSound.setInvalid {manager : ZoneStateManager} {held : Multiset ZnPair}
    (sound : ZonesSound manager held) (zone : Nat) (invalid : List Nat) :
    ZonesSound (manager.setZone zone { manager.state zone with invalid := invalid }) held where
  partition := sound.partition.setInvalid zone invalid
  entries := sound.entries.setZone zone _ (sound.entries.zoneId zone)
    (sound.entries.offsetSmall zone) (sound.entries.offsetRoom zone)
  small := sound.small

theorem zsmMarkChunkInvalid_full (manager : ZoneStateManager) (pair : ZnPair) (zone : Nat) :
    IsFull (zsmMarkChunkInvalid manager pair) zone ↔ IsFull manager zone := by
  by_cases same : zone = pair.zone
  · subst same
    simp [IsFull, zsmMarkChunkInvalid]
  · simp [IsFull, zsmMarkChunkInvalid, same]

theorem GetPc.fullZones_of_ne_record {maxChunks : Nat} {pc : GetPc}
    (notRecord : ∀ id location, pc ≠ .record id location) :
    (ThreadPc.get pc).fullZones maxChunks = 0 := by
  cases pc with
  | record id location => exact absurd rfl (notRecord id location)
  | _ => rfl

theorem GetPc.mem_fullZones_record {maxChunks id zone : Nat} {location : ZnPair} :
    zone ∈ (ThreadPc.get (.record id location)).fullZones maxChunks ↔
      location.chunkOffset + 1 = maxChunks ∧ zone = location.zone := by
  simp only [ThreadPc.fullZones, ThreadPc.duties, GetPc.duties, returns, fillsIf]
  split
  next last => simp [fills, last]
  next notLast => simp [notLast]

/-- Only giving back a zone's last chunk leaves the thread with a full zone. -/
theorem GetStep.fullZones {pc : GetPc} {next : ThreadPc ChunkEvictPc} {maxChunks : Nat}
    (taken : GetStep (chunkCode config) () cache environment pc after next)
    (notGiveBack : ∀ id location, pc ≠ .giveBack id location) :
    next.fullZones maxChunks = 0 := by
  cases taken with
  | find id => cases (znCachemapFind () cache.cacheMap id).1 <;> rfl
  | acquire id => cases (zsmGetActiveZone environment.commandRet cache.zoneState).ret <;> rfl
  | giveBack id location => exact absurd rfl (notGiveBack id location)
  | woken | read | touch | release | countHit | write | writeFailed => rfl
  | countMiss | record | insert | undoZone | undoMap => rfl

theorem GetStep.soloZones {pc : GetPc} {next : ThreadPc ChunkEvictPc}
    (fits : config.maxZoneChunks < 2 ^ 32) (positive : 0 < config.maxZoneChunks)
    (taken : GetStep (chunkCode config) () cache environment pc after next)
    (success : environment.commandRet = 0)
    (solo : SoloZones config cache (.get pc) leaked)
    (custody : CacheCustody config.maxZoneChunks cache
      (pc.duties config.maxZoneChunks + rest)) :
    SoloZones config after next leaked := by
  obtain ⟨zones, shape⟩ := taken.zones success solo.zones
  have fullAfter := taken.full success solo.zones
  refine ⟨zones, shape.numZones.trans solo.numZones,
    shape.maxNrActiveZones.trans solo.maxActive, fun zone => ?_⟩
  rw [fullAfter zone, solo.full zone]
  have none := @GetStep.fullZones _ _ _ _ _ _ config.maxZoneChunks taken
  cases taken with
  | giveBack id location =>
      have offset := custody.offsets location (by simp [GetPc.duties, takes])
      have room := custody.room location.zone (.inr (by simp [GetPc.duties, takes]))
      rw [← offset] at room
      have last : u32 (location.chunkOffset + 1) = cache.zoneState.maxZoneChunks ↔
          location.chunkOffset + 1 = config.maxZoneChunks := by
        have inside := room.2 positive
        rw [custody.managerMax]
        unfold u32
        omega
      rw [GetPc.mem_fullZones_record, GetPc.fullZones_of_ne_record (by simp)]
      constructor
      · intro either
        rcases either with (inHeap | none) | ⟨_, _, same, here, closes⟩
        · exact .inl inHeap
        · exact absurd none (Multiset.notMem_zero _)
        · cases same
          exact .inr ⟨last.mp closes, here⟩
      · intro either
        rcases either with inHeap | ⟨closes, here⟩
        · exact .inl (.inl inHeap)
        · exact .inr ⟨id, location, rfl, here, last.mpr closes⟩
  | record id location policy updated =>
      have heap := znPolicyChunkUpdate_heap custody.allocated updated zone
      rw [none (by simp), heap, custody.policyMax, GetPc.mem_fullZones_record]
      simp
  | touch id location data policy updated =>
      obtain ⟨heap, _, _, _⟩ := znPolicyChunkUpdate_read updated
      rw [none (by simp), heap]
      simp [GetPc.fullZones_of_ne_record]
  | find | woken | read | release | countHit | acquire | write | writeFailed | countMiss
  | insert | undoZone | undoMap =>
      rw [none (by simp)]
      simp [GetPc.fullZones_of_ne_record, ZnCache.writeChunk]

def afterEvictStep (caller : Option Nat) : Option ChunkEvictPc → ThreadPc ChunkEvictPc
  | some code => .evict caller code
  | none => afterEvict caller

theorem afterEvictStep_holds (caller : Option Nat) (next : Option ChunkEvictPc) :
    (afterEvictStep caller next).holds = 0 := by
  cases next with
  | some code => rfl
  | none => cases caller <;> rfl

theorem mem_fullZones_afterEvictStep {maxChunks zone : Nat} {caller : Option Nat}
    {next : Option ChunkEvictPc} :
    zone ∈ (afterEvictStep caller next).fullZones maxChunks ↔
      ∃ code, next = some code ∧ zone ∈ code.duties.reclaimed := by
  cases next with
  | some code =>
      have filled : code.duties.filled = 0 := by cases code <;> rfl
      simp [afterEvictStep, ThreadPc.fullZones, ThreadPc.duties, filled]
  | none => cases caller <;> simp [afterEvictStep, afterEvict, ThreadPc.fullZones,
      ThreadPc.duties, GetPc.duties]

/-- The eviction leaks a pair exactly where the GC takes a location for a chunk. -/
theorem ChunkEvictStep.soloZones {pc : ChunkEvictPc} {next : Option ChunkEvictPc}
    {caller : Option Nat}
    (taken : ChunkEvictStep config () cache .smooth pc after next)
    (solo : SoloZones config cache (.evict caller pc) leaked)
    (custody : CacheCustody config.maxZoneChunks cache (pc.duties + rest)) :
    ∃ leaked', SoloZones config after (afterEvictStep caller next) leaked' ∧
      (leaked' = 0 → leaked = 0 ∧ ∀ zone chunk, pc = .gcScan zone chunk →
        chunk < config.maxZoneChunks →
          (cache.evictionPolicy.slot (zone, chunk)).inUse = false) := by
  have zones := solo.zones
  rw [show (ThreadPc.evict caller pc).holds = 0 from rfl, zero_add] at zones
  have full : ∀ zone, IsFull cache.zoneState zone ↔
      zone ∈ cache.evictionPolicy.invalidPqueue.zones ∨ zone ∈ pc.duties.reclaimed := by
    intro zone
    rw [solo.full zone]
    exact or_congr_right ((@mem_fullZones_afterEvictStep _ _ caller (some pc)).trans
      (by simp))
  have kept : ∀ (after : ChunkCache Unit) (next : Option ChunkEvictPc),
      ZonesSound after.zoneState leaked → SameShape cache.zoneState after.zoneState →
      (∀ zone, IsFull after.zoneState zone ↔
        zone ∈ after.evictionPolicy.invalidPqueue.zones ∨
          ∃ code, next = some code ∧ zone ∈ code.duties.reclaimed) →
      SoloZones config after (afterEvictStep caller next) leaked := by
    intro after next sound shape sameFull
    refine ⟨by rwa [afterEvictStep_holds, zero_add], shape.numZones.trans solo.numZones,
      shape.maxNrActiveZones.trans solo.maxActive, fun zone => ?_⟩
    rw [mem_fullZones_afterEvictStep]
    exact sameFull zone
  have same : SameShape cache.zoneState cache.zoneState := ⟨rfl, rfl, rfl, rfl⟩
  cases taken with
  | gcAcquire zone chunk location inZone used handed =>
      obtain ⟨sound, sameFull, _⟩ := zones.handed handed
      refine ⟨location ::ₘ leaked, ⟨?_, ?_, ?_, fun other => ?_⟩, by simp⟩
      · rw [afterEvictStep_holds, zero_add]
        exact sound
      · exact (zsmGetActiveZone_shape 0 cache.zoneState).numZones.trans solo.numZones
      · exact (zsmGetActiveZone_shape 0 cache.zoneState).maxNrActiveZones.trans solo.maxActive
      · rw [mem_fullZones_afterEvictStep]
        apply (sameFull other).trans
        rw [full other]
        simp [ChunkEvictPc.duties, takes, reclaims]
  | gcReset zone =>
      have own : ChunkCache.zoneId cache zone = zone :=
        custody.poolIds zone (.inr (by simp [ChunkEvictPc.duties, reclaims]))
      have isFull : IsFull cache.zoneState zone :=
        (full zone).mpr (.inr (by simp [ChunkEvictPc.duties, reclaims]))
      obtain ⟨sound, freed⟩ := zones.evict isFull
      have once := custody.once
      rw [ChunkEvictPc.duties, add_assoc, keptZones_clears, keptZones_reclaims,
        Multiset.nodup_cons] at once
      have outside : zone ∉ cache.evictionPolicy.invalidPqueue.zones := by
        intro inHeap
        apply once.1
        simp [keptZones, inHeap]
      refine ⟨leaked, kept _ _ ?_ ?_ fun other => ?_, by simp⟩
      · simp only [ZnCache.evictZone, own]
        exact sound
      · simp only [ZnCache.evictZone, own]
        exact (zsmEvict_spec 0 cache.zoneState zone).shape
      · simp only [ZnCache.evictZone, own, Environment.smooth, freed, freed_full, full]
        by_cases here : other = zone
        · subst here
          simp [outside, ChunkEvictPc.duties]
        · simp [here, ChunkEvictPc.duties, clears, reclaims]
  | pop i nr pair policy evicted =>
      have heap := (evictChunk_zones evicted).1
      refine ⟨leaked, kept _ _ zones same fun zone => ?_, by simp⟩
      apply (full zone).trans
      simp [ChunkCache.setPolicy, heap.mem_iff, ChunkEvictPc.duties, pops]
  | mark i nr pair =>
      refine ⟨leaked, kept _ _ ?_ ⟨rfl, rfl, rfl, rfl⟩ fun zone => ?_, by simp⟩
      · exact zones.setInvalid _ _
      · apply (zsmMarkChunkInvalid_full _ _ zone).trans
        rw [full zone]
        simp [ChunkEvictPc.duties]
  | gcTake freeZones handle heap extracted =>
      have taken := ZnMinheap.zones_extractMin extracted
      refine ⟨leaked, kept _ _ zones same fun zone => ?_, by simp⟩
      apply (full zone).trans
      rw [taken.mem_iff]
      simp [ChunkCache.setHeap, ChunkCache.setPolicy, ChunkEvictPc.duties, reclaims, or_comm]
  | gcSkip zone chunk inZone unused =>
      refine ⟨leaked, kept _ _ zones same fun other => ?_, fun none =>
        ⟨none, fun _ _ here _ => ?_⟩⟩
      · rw [full other]
        simp [ChunkEvictPc.duties]
      · cases here
        exact unused
  | gcScanned zone chunk atEnd =>
      refine ⟨leaked, kept _ _ zones same fun other => ?_, fun none =>
        ⟨none, fun _ _ here below => ?_⟩⟩
      · rw [full other]
        simp [ChunkEvictPc.duties]
      · cases here
        rw [custody.policyMax] at atEnd
        exact absurd below (Nat.not_lt.mpr atEnd)
  | _ =>
      refine ⟨leaked, kept _ _ zones same fun zone => ?_, by simp⟩
      apply (full zone).trans
      simp [ChunkEvictPc.duties, ZnCache.writeChunk, ChunkCache.setHolder, ChunkCache.setPolicy,
        takes, pops, clears, reclaims, moveSlot, setSlot, ZnPolicyChunk.setZone]

theorem SoloZones.heapBelow {pc : ThreadPc ChunkEvictPc}
    (solo : SoloZones config cache pc leaked) {zone : Nat}
    (inHeap : zone ∈ cache.evictionPolicy.invalidPqueue.zones) : zone < config.nrZones := by
  rw [← solo.numZones]
  exact ((solo.full zone).mpr (.inl inHeap)).1

/-- When no zone can be had and none is lost, every zone is full. -/
theorem SoloZones.allFull {pc : ThreadPc ChunkEvictPc}
    (solo : SoloZones config cache pc 0) (unheld : pc.holds = 0)
    (evicts : (zsmGetActiveZone 0 cache.zoneState).ret = .evict) :
    cache.zoneState.active = [] ∧ cache.zoneState.free = [] ∧
      ∀ zone < config.nrZones, IsFull cache.zoneState zone := by
  have zones := solo.zones
  rw [unheld, zero_add] at zones
  have answer := zones.partition.getActiveZone_spec zones.counts 0
  generalize zsmGetActiveZone 0 cache.zoneState = outcome at answer evicts
  cases answer with
  | retry | error | success => cases evicts
  | evict noActive noFree _ =>
      refine ⟨noActive, noFree, fun zone below => ?_⟩
      rw [← solo.numZones] at below
      exact zones.partition.allFull noActive noFree below

end Zones

/-! ## The policy -/

def ChunkEvictPc.pops : ChunkEvictPc → Bool
  | start | pop _ _ | mark _ _ _ | clear _ _ _ => true
  | _ => false

/-- The zone of a chunk that is about to be recorded is outside the heap.  While chunks
are popped, all zones are in it. -/
structure PolicyClean (config : CacheConfig) (policy : ZnPolicyChunk Unit)
    (pc : ThreadPc ChunkEvictPc) : Prop where
  metadata : ChunkMetadata config.nrZones policy
  heap : HeapTracks policy
  recording : ∀ id location, pc = .get (.record id location) →
    location.zone < config.nrZones ∧ location.zone ∉ policy.invalidPqueue.zones
  allIn : ∀ caller code, pc = .evict caller code → code.pops = true →
    ∀ zone < config.nrZones, zone ∈ policy.invalidPqueue.zones

section Policy

variable {config : CacheConfig} {cache after : ChunkCache Unit} {rest : Duties}

theorem ChunkMetadata.setHolder {nrZones : Nat} {policy : ZnPolicyChunk Unit}
    (metadata : ChunkMetadata nrZones policy) (holder : Option Unit) :
    ChunkMetadata nrZones { policy with holder := holder } :=
  ⟨metadata.queued, metadata.once, metadata.ownPlace, metadata.mapped, metadata.counted⟩

theorem HeapTracks.setHolder {policy : ZnPolicyChunk Unit} (tracks : HeapTracks policy)
    (holder : Option Unit) : HeapTracks { policy with holder := holder } :=
  tracks.congr rfl fun _ _ => ⟨rfl, rfl⟩

theorem PolicyClean.move {policy : ZnPolicyChunk Unit} {pc next : ThreadPc ChunkEvictPc}
    (clean : PolicyClean config policy pc)
    (notRecord : ∀ id location, next ≠ .get (.record id location))
    (notPops : ∀ caller code, next = .evict caller code → code.pops = false) :
    PolicyClean config policy next := by
  refine ⟨clean.metadata, clean.heap, fun id location here => absurd here (notRecord id location),
    fun caller code here pops => ?_⟩
  rw [notPops caller code here] at pops
  cases pops

theorem GetStep.policyClean {pc : GetPc} {next : ThreadPc ChunkEvictPc}
    (fits : config.maxZoneChunks < 2 ^ 32) (positive : 0 < config.maxZoneChunks)
    (taken : GetStep (chunkCode config) () cache .smooth pc after next)
    (solo : SoloZones config cache (.get pc) 0)
    (custody : CacheCustody config.maxZoneChunks cache
      (pc.duties config.maxZoneChunks + rest))
    (absent : ∀ id location, pc = .record id location →
      location.place ∉ cache.evictionPolicy.lruQueue.items)
    (knows : (ThreadPc.get pc).Knows config.maxZoneChunks cache.evictionPolicy)
    (clean : PolicyClean config cache.evictionPolicy (.get pc)) :
    PolicyClean config after.evictionPolicy next := by
  cases taken with
  | find id =>
      apply clean.move
      · cases (znCachemapFind () cache.cacheMap id).1 <;> simp [afterFind]
      · cases (znCachemapFind () cache.cacheMap id).1 <;> simp [afterFind]
  | acquire id =>
      have evicts : (zsmGetActiveZone 0 cache.zoneState).ret = .evict → ∀ zone < config.nrZones,
          zone ∈ cache.evictionPolicy.invalidPqueue.zones := by
        intro answer zone below
        have isFull := (solo.allFull rfl answer).2.2 zone below
        exact ((solo.full zone).mp isFull).resolve_right (Multiset.notMem_zero _)
      refine ⟨clean.metadata, clean.heap, ?_, ?_⟩
      · cases (zsmGetActiveZone Environment.smooth.commandRet cache.zoneState).ret <;>
          simp [afterGetActiveZone]
      · intro caller code here _
        apply evicts
        cases answer : (zsmGetActiveZone Environment.smooth.commandRet cache.zoneState).ret with
        | evict => exact answer
        | success | retry | error => simp [afterGetActiveZone, answer] at here
  | touch id location data policy updated =>
      obtain ⟨heap, pool, _, _⟩ := znPolicyChunkUpdate_read updated
      refine ⟨clean.metadata.update_read updated, clean.heap.congr heap fun zone _ => ?_, by simp,
        by simp⟩
      rw [pool]
      exact ⟨rfl, rfl⟩
  | giveBack id location =>
      refine ⟨clean.metadata, clean.heap, fun _ _ here => ?_, by simp⟩
      cases here
      have member : location ∈ (ThreadPc.get (.giveBack id location) :
          ThreadPc ChunkEvictPc).holds + 0 := by
        simp [ThreadPc.holds, ThreadPc.lift, GetPc.holds]
      have writing := (solo.zones.partition.heldIff location.zone).mp
        (Multiset.mem_map_of_mem ZnPair.zone member)
      refine ⟨solo.numZones ▸ writing.1, fun inHeap => ?_⟩
      have isFull := ((solo.full location.zone).mpr (.inl inHeap)).2
      rw [writing.2] at isFull
      cases isFull
  | record id location policy updated =>
      obtain ⟨inPool, outside⟩ := clean.recording id location rfl
      have inside : location.chunkOffset < cache.evictionPolicy.maxZoneChunks := by
        rw [custody.policyMax]
        exact knows positive
      have unused : (cache.evictionPolicy.slot (location.zone, location.chunkOffset)).inUse =
          false := by
        by_contra used
        apply absent id location rfl
        have live : (cache.evictionPolicy.slot location.place).inUse = true := by
          simpa [ZnPair.place] using used
        exact (clean.metadata.queued _).mpr (mem_liveSlots.mpr ⟨⟨inPool, inside⟩, live⟩)
      refine ⟨clean.metadata.update_write ⟨inPool, inside⟩ unused (by rwa [custody.policyMax])
        updated, ?_, by simp, by simp⟩
      have ran : znPolicyChunkUpdate cache.evictionPolicy location .write = some policy := updated
      have recorded := clean.heap.recordChunk outside
      unfold znPolicyChunkUpdate at ran
      dsimp only at ran
      split at ran
      next => cases ran
      next =>
          split at ran
          next =>
              cases Option.some.inj ran
              apply recorded.enterHeap outside
              have once : (location.zone ::
                  cache.evictionPolicy.invalidPqueue.zones).Nodup :=
                List.nodup_cons.mpr ⟨outside, custody.heapOnce⟩
              have bound := length_le_of_nodup once (List.forall_mem_cons.mpr
                ⟨inPool, fun zone => solo.heapBelow⟩)
              have small := solo.zones.small
              rw [solo.numZones] at small
              rw [List.length_cons, ZnMinheap.zones, List.length_map] at bound
              exact Nat.lt_of_le_of_lt bound small
          next =>
              cases Option.some.inj ran
              exact recorded
  | woken | read | release | countHit | write => exact clean.move (by simp) (by simp)
  | writeFailed | countMiss | insert | undoZone | undoMap => exact clean.move (by simp) (by simp)

theorem ChunkEvictStep.policyClean {pc : ChunkEvictPc} {next : Option ChunkEvictPc}
    {caller : Option Nat} (fits : config.maxZoneChunks < 2 ^ 32)
    (taken : ChunkEvictStep config () cache .smooth pc after next)
    (solo : SoloZones config cache (.evict caller pc) 0)
    (custody : CacheCustody config.maxZoneChunks cache (pc.duties + rest))
    (unmoved : ∀ zone chunk, pc = .gcScan zone chunk → chunk < config.maxZoneChunks →
      (cache.evictionPolicy.slot (zone, chunk)).inUse = false)
    (knows : pc.Knows config.maxZoneChunks cache.evictionPolicy)
    (clean : PolicyClean config cache.evictionPolicy (.evict caller pc)) :
    PolicyClean config after.evictionPolicy (afterEvictStep caller next) := by
  have size : cache.evictionPolicy.invalidPqueue.size < 2 ^ 31 := by
    have bound := length_le_of_nodup custody.heapOnce fun zone => solo.heapBelow
    have small := solo.zones.small
    rw [solo.numZones] at small
    rw [ZnMinheap.zones, List.length_map] at bound
    exact Nat.lt_of_le_of_lt bound small
  have left : ∀ policy, ChunkMetadata config.nrZones policy → HeapTracks policy →
      PolicyClean config policy (afterEvict caller) := by
    intro policy metadata heap
    refine ⟨metadata, heap, ?_, ?_⟩ <;> cases caller <;> simp [afterEvict]
  cases taken with
  | lock nr unheld =>
      refine ⟨clean.metadata.setHolder _, clean.heap.setHolder _, by simp [afterEvictStep], ?_⟩
      exact fun _ _ _ _ => clean.allIn caller .start rfl rfl
  | turnedAway => exact left _ clean.metadata clean.heap
  | leave => exact left _ (clean.metadata.setHolder _) (clean.heap.setHolder _)
  | pop i nr pair policy evicted =>
      have allIn := clean.allIn caller _ rfl rfl
      obtain ⟨metadata, items, _⟩ := clean.metadata.evictChunk (by rwa [custody.policyMax]) evicted
      have live := (clean.metadata.queued (pair.zone, pair.chunkOffset)).mp (by simp [items])
      have tracks := clean.heap.evictChunk (allIn pair.zone (mem_liveSlots.mp live).1.1)
        custody.heapOnce size evicted
      refine ⟨metadata, tracks, by simp [afterEvictStep], fun _ _ _ _ zone below => ?_⟩
      exact (evictChunk_zones evicted).1.mem_iff.mpr (allIn zone below)
  | mark i nr pair =>
      exact ⟨clean.metadata, clean.heap, by simp [afterEvictStep],
        fun _ _ _ _ => clean.allIn caller _ rfl rfl⟩
  | clear i nr pair answer cleared =>
      exact ⟨clean.metadata, clean.heap, by simp [afterEvictStep],
        fun _ _ _ _ => clean.allIn caller _ rfl rfl⟩
  | gcTake freeZones handle heap extracted =>
      refine ⟨clean.metadata.setHeap heap, (clean.heap.extractMin size extracted).1,
        by simp [afterEvictStep], ?_⟩
      simp [afterEvictStep, ChunkEvictPc.pops]
  | gcAcquire zone chunk location inZone used handed =>
      rw [unmoved zone chunk rfl (custody.policyMax ▸ inZone)] at used
      cases used
  | gcRead | gcWrite | gcInsert => exact knows.elim
  | popped | gcEnough | gcShort | gcDone | gcSkip =>
      exact clean.move (by simp [afterEvictStep]) (by simp [afterEvictStep, ChunkEvictPc.pops])
  | gcScanned | gcClear | gcReset | gcCount =>
      exact clean.move (by simp [afterEvictStep]) (by simp [afterEvictStep, ChunkEvictPc.pops])

/-! ## What the cache map lists -/

/-- Whatever is listed is in the queue, or has just left it to be cleared. -/
structure QueueListed (cache : ChunkCache Unit) (pc : ThreadPc ChunkEvictPc) : Prop where
  listed : ∀ zone chunk id, (cache.cacheMap.dataMap zone).lookup chunk = some id →
    (zone, chunk) ∈ cache.evictionPolicy.lruQueue.items ∨ pc.popped = some (zone, chunk)
  inserting : ∀ id location, pc = .get (.insert id location) →
    location.place ∈ cache.evictionPolicy.lruQueue.items

theorem znCachemapFind_dataMap (map : CacheMap Unit) (id : Nat) :
    (znCachemapFind () map id).2.dataMap = map.dataMap := by
  unfold znCachemapFind
  split
  · split <;> rfl
  · rfl

theorem znCachemapFail_dataMap {map : CacheMap Unit} {id : Nat}
    {answer : Outcome (CacheMap Unit) Unit} (failed : znCachemapFail map id = some answer) :
    answer.state.dataMap = map.dataMap := by
  unfold znCachemapFail at failed
  split at failed
  next => cases failed
  next =>
      cases Option.some.inj failed
      rfl

theorem QueueListed.move {pc next : ThreadPc ChunkEvictPc} (queued : QueueListed cache pc)
    (sameData : after.cacheMap.dataMap = cache.cacheMap.dataMap)
    (grown : ∀ place ∈ cache.evictionPolicy.lruQueue.items,
      place ∈ after.evictionPolicy.lruQueue.items)
    (popped : ∀ place, pc.popped = some place → next.popped = some place)
    (notInsert : ∀ id location, next ≠ .get (.insert id location)) :
    QueueListed after next := by
  refine ⟨fun zone chunk id here => ?_, fun id location same => absurd same (notInsert id location)⟩
  rw [sameData] at here
  rcases queued.listed zone chunk id here with inQueue | justLeft
  · exact .inl (grown _ inQueue)
  · exact .inr (popped _ justLeft)

theorem GetStep.queueListed {pc : GetPc} {next : ThreadPc ChunkEvictPc} {others : Multiset Nat}
    (taken : GetStep (chunkCode config) () cache .smooth pc after next)
    (named : SlotsNamed cache.evictionPolicy)
    (absent : ∀ id location, pc = .record id location →
      location.place ∉ cache.evictionPolicy.lruQueue.items)
    (agrees : CacheMapAgrees cache.cacheMap (pc.writes + others))
    (queued : QueueListed cache (.get pc)) : QueueListed after next := by
  cases taken with
  | find id =>
      refine queued.move (znCachemapFind_dataMap _ _) (fun _ member => member)
        (fun _ none => by cases none) ?_
      cases (znCachemapFind () cache.cacheMap id).1 <;> simp [afterFind]
  | acquire id =>
      refine queued.move rfl (fun _ member => member) (fun _ none => by cases none) ?_
      cases (zsmGetActiveZone Environment.smooth.commandRet cache.zoneState).ret <;>
        simp [afterGetActiveZone]
  | touch id location data policy updated =>
      obtain ⟨_, same⟩ := named.update_read updated
      exact queued.move rfl (fun _ member => same.mem_iff.mpr member)
        (fun _ none => by cases none) (by simp)
  | record id location policy updated =>
      obtain ⟨_, items⟩ := named.update_write (absent id location rfl) updated
      refine ⟨fun zone chunk id here => ?_, fun _ _ same => ?_⟩
      · rw [items]
        exact .inl (List.mem_append_left _ ((queued.listed zone chunk id here).resolve_right
          fun none => by cases none))
      · cases same
        rw [items]
        exact List.mem_append_right _ (List.mem_singleton_self _)
  | insert id location answer inserted =>
      rw [GetPc.writes, Multiset.singleton_add] at agrees
      cases Option.some.inj (inserted.symm.trans (agrees.insert location))
      refine ⟨fun zone chunk other here => ?_, by simp⟩
      have lookup := CacheMap.located_lookup cache.cacheMap id location zone chunk
      rw [show ((cache.cacheMap.located id location).dataMap zone).lookup chunk = some other
        from here] at lookup
      split at lookup
      next place =>
          obtain ⟨rfl, rfl⟩ := place
          exact .inl (queued.inserting id location rfl)
      next => exact .inl ((queued.listed zone chunk other lookup.symm).resolve_right
          fun none => by cases none)
  | undoMap id answer failed =>
      exact queued.move (znCachemapFail_dataMap failed) (fun _ member => member)
        (fun _ none => by cases none) (by simp)
  | woken | read | release | countHit | write =>
      exact queued.move rfl (fun _ member => member) (fun _ none => by cases none) (by simp)
  | writeFailed | countMiss | giveBack | undoZone =>
      exact queued.move rfl (fun _ member => member) (fun _ none => by cases none) (by simp)

theorem ChunkEvictStep.queueListed {pc : ChunkEvictPc} {next : Option ChunkEvictPc}
    {caller : Option Nat} {maxChunks : Nat}
    (taken : ChunkEvictStep config () cache .smooth pc after next)
    (named : SlotsNamed cache.evictionPolicy)
    (knows : pc.Knows maxChunks cache.evictionPolicy)
    (queued : QueueListed cache (.evict caller pc)) :
    QueueListed after (afterEvictStep caller next) := by
  have notInsert : ∀ id location,
      afterEvictStep caller next ≠ .get (.insert id location) := by
    intro id location
    cases next with
    | some code => simp [afterEvictStep]
    | none => cases caller <;> simp [afterEvictStep, afterEvict]
  cases taken with
  | pop i nr pair policy evicted =>
      obtain ⟨_, items, _⟩ := named.evictChunk evicted
      refine ⟨fun zone chunk id here => ?_, fun id place same => absurd same (notInsert id place)⟩
      have before := (queued.listed zone chunk id here).resolve_right fun none => by cases none
      rw [items, List.mem_cons] at before
      rcases before with left | stays
      · exact .inr (congrArg some left.symm)
      · exact .inl stays
  | clear i nr pair answer cleared =>
      refine ⟨fun zone chunk id here => ?_, fun id place same => absurd same (notInsert id place)⟩
      obtain ⟨_, _, _, lookups⟩ := znCachemapClearChunk_state cleared
      have elsewhere : (zone, chunk) ≠ pair.place ∧
          (cache.cacheMap.dataMap zone).lookup chunk = some id := by
        have left := (lookups zone chunk).symm.trans here
        split at left
        next => cases left
        next apart => exact ⟨apart, left⟩
      refine .inl ((queued.listed zone chunk id elsewhere.2).resolve_right fun popped => ?_)
      exact elsewhere.1 (Option.some.inj popped).symm
  | gcClear zone answer cleared =>
      refine ⟨fun other chunk id here => ?_, fun id place same => absurd same (notInsert id place)⟩
      rw [(znCachemapClearZone_state cleared).2.2.1] at here
      by_cases same : other = cache.zoneId zone
      · subst same
        simp at here
      · rw [Function.update_of_ne same] at here
        exact .inl ((queued.listed other chunk id here).resolve_right fun none => by cases none)
  | gcInsert => exact knows.elim
  | mark i nr pair => exact queued.move rfl (fun _ member => member) (fun _ => id) notInsert
  | turnedAway | lock | popped | gcEnough | gcShort | gcDone | gcTake | gcSkip | gcAcquire =>
      exact queued.move rfl (fun _ member => member) (fun _ none => by cases none) notInsert
  | gcScanned | gcRead | gcWrite | gcReset | gcCount | leave =>
      exact queued.move rfl (fun _ member => member) (fun _ none => by cases none) notInsert

structure SoloKnows (config : CacheConfig) (cache : ChunkCache Unit)
    (pc : ThreadPc ChunkEvictPc) : Prop where
  named : SlotsNamed cache.evictionPolicy
  absent : ∀ id location, pc = .get (.record id location) →
    location.place ∉ cache.evictionPolicy.lruQueue.items
  knows : pc.Knows config.maxZoneChunks cache.evictionPolicy
  policy : PolicyClean config cache.evictionPolicy pc
  queue : QueueListed cache pc

theorem ThreadStep.solo {choice : Choice} {pc next : ThreadPc ChunkEvictPc}
    {system : ChunkSystem Unit} {leaked : Multiset ZnPair} {others : Multiset Nat}
    (fits : config.maxZoneChunks < 2 ^ 32) (positive : 0 < config.maxZoneChunks)
    (taken : ThreadStep (chunkCode config) () cache pc choice after next)
    (smooth : SmoothGets system ((), choice)) (solo : SoloZones config cache pc leaked)
    (custody : CacheCustody config.maxZoneChunks cache
      (pc.duties config.maxZoneChunks + rest))
    (agrees : leaked = 0 → CacheMapAgrees cache.cacheMap (pc.writes + others))
    (clean : leaked = 0 → SoloKnows config cache pc) :
    ∃ leaked', SoloZones config after next leaked' ∧ (leaked' = 0 → leaked = 0 ∧
      (∀ caller zone chunk, pc = .evict caller (.gcScan zone chunk) →
        chunk < config.maxZoneChunks →
        (cache.evictionPolicy.slot (zone, chunk)).inUse = false) ∧
      PolicyClean config after.evictionPolicy next ∧ QueueListed after next) := by
  have evicts : ∀ (caller : Option Nat) (code : ChunkEvictPc) (next : Option ChunkEvictPc),
      pc = .evict caller code → ChunkEvictStep config () cache .smooth code after next →
      ∃ leaked', SoloZones config after (afterEvictStep caller next) leaked' ∧
        (leaked' = 0 → leaked = 0 ∧
          (∀ caller' zone chunk, pc = .evict caller' (.gcScan zone chunk) →
            chunk < config.maxZoneChunks →
            (cache.evictionPolicy.slot (zone, chunk)).inUse = false) ∧
          PolicyClean config after.evictionPolicy (afterEvictStep caller next) ∧
          QueueListed after (afterEvictStep caller next)) := by
    intro caller code next equal ran
    subst equal
    obtain ⟨leaked', zones, kept⟩ := ran.soloZones solo custody
    refine ⟨leaked', zones, fun none => ?_⟩
    obtain ⟨before, unmoved⟩ := kept none
    have known := clean before
    refine ⟨before, fun _ zone chunk same => ?_, ?_, ran.queueListed known.named known.knows
      known.queue⟩
    · cases same
      exact unmoved zone chunk rfl
    · subst before
      exact ran.policyClean fits solo custody unmoved known.knows known.policy
  cases taken with
  | callEvict | wakeUp => exact smooth.elim
  | call id small =>
      refine ⟨leaked, ⟨solo.zones, solo.numZones, solo.maxActive, solo.full⟩, fun none =>
        ⟨none, by simp, ?_, ?_⟩⟩
      · exact (clean none).policy.move (by simp) (by simp)
      · exact (clean none).queue.move rfl (fun _ member => member) (fun _ none => by cases none)
          (by simp)
  | get ran =>
      rename_i start environment
      obtain rfl : environment = .smooth := smooth
      refine ⟨leaked, ran.soloZones fits positive rfl solo custody, fun none => ?_⟩
      have known := clean none
      have mapAgrees := agrees none
      have absent : ∀ id location, start = .record id location →
          location.place ∉ cache.evictionPolicy.lruQueue.items := fun id location same =>
        known.absent id location (by rw [same])
      subst none
      exact ⟨rfl, by simp, ran.policyClean fits positive solo custody absent known.knows
        known.policy, ran.queueListed known.named absent mapAgrees known.queue⟩
  | evict caller code ran =>
      rename_i environment
      obtain rfl : environment = .smooth := smooth
      exact evicts caller _ _ rfl (chunkEvictStep_spec ran)
  | evicted caller ran =>
      rename_i environment
      obtain rfl : environment = .smooth := smooth
      exact evicts caller _ _ rfl (chunkEvictStep_spec ran)

end Policy

/-! ## Runs -/

section Run

variable {config : CacheConfig} {system next : ChunkSystem Unit}

structure SoloClean (config : CacheConfig) (system : ChunkSystem Unit) : Prop where
  evict : EvictSound (2 ^ 32) config.maxZoneChunks system
  policy : PolicyClean config system.cache.evictionPolicy (system.threads ())
  queue : QueueListed system.cache (system.threads ())

structure SoloSound (config : CacheConfig) (system : ChunkSystem Unit) : Prop where
  custody : CustodySound config.maxZoneChunks system
  unheld : (system.threads ()).locked = false → system.cache.evictionPolicy.holder = none
  leak : ∃ leaked, SoloZones config system.cache (system.threads ()) leaked ∧
    (leaked = 0 → SoloClean config system)

theorem SoloSound.init (positive : 0 < config.nrZones * config.maxZoneChunks)
    (begins : chunkSystem config = some system) : SoloSound config system := by
  obtain ⟨small, zones, emptyMap, policy, idle⟩ := System.init_spec begins
  refine ⟨CustodySound.init begins, fun _ => ?_, 0, ⟨?_, ?_, ?_, fun zone => ?_⟩, fun _ =>
    ⟨EvictSound.init begins, ⟨?_, ?_, ?_, ?_⟩, ⟨?_, ?_⟩⟩⟩
  · rw [policy]
    rfl
  · rw [zones, idle]
    exact ZonesSound.init small _ _ _ _ _
  · rw [zones]
    rfl
  · rw [zones]
    rfl
  · rw [zones, policy, idle]
    simp [IsFull, zsmInit, chunkInit, znMinheapInit, ZnMinheap.zones, ThreadPc.fullZones,
      ThreadPc.duties]
  · rw [policy]
    exact ChunkMetadata.init _ _
  · rw [policy]
    exact HeapTracks.init (Nat.pos_of_mul_pos_right positive) _
  · simp [idle]
  · simp [idle]
  · intro zone chunk id listed
    rw [emptyMap] at listed
    simp [znCachemapInit] at listed
  · simp [idle]

theorem clearsInserted_solo (action : Unit × Choice) : ClearsInserted system action := by
  intro caller i nr pair here other id location there
  rw [show other = action.1 from rfl, here] at there
  cases there

theorem SoloSound.step (fits : config.maxZoneChunks < 2 ^ 32)
    (positive : 0 < config.maxZoneChunks) (sound : SoloSound config system)
    {action : Unit × Choice} (smooth : SmoothGets system action)
    (taken : system.step (chunkCode config) action = some next) : SoloSound config next := by
  have custody := sound.custody.step fits (gcSettled_solo action) taken
  obtain ⟨leaked, solo, clean⟩ := sound.leak
  have evictSound : GcMigratesNothing system action → leaked = 0 →
      EvictSound (2 ^ 32) config.maxZoneChunks next := fun migrates none =>
    (clean none).evict.step fits (Nat.le_refl _) (System.getsBelow_of_step taken)
      (gcSettled_solo action) migrates (clearsInserted_solo action) taken
  obtain ⟨⟨⟩, choice⟩ := action
  obtain ⟨cache, pc, rfl, moved⟩ := System.step_spec taken
  have knows : leaked = 0 → SoloKnows config system.cache (system.threads ()) := fun none =>
    ⟨(clean none).evict.policy.named, fun id location => (clean none).evict.absent,
      (clean none).evict.knows (), (clean none).policy, (clean none).queue⟩
  obtain ⟨leaked', zones, kept⟩ := moved.solo fits positive smooth solo (sound.custody.split ())
    (fun none => (clean none).evict.map.split ()) knows
  have here : (system.advance () cache pc).threads () = pc := by simp [System.advance]
  refine ⟨custody, fun unlocked => ?_, leaked', by rwa [here], fun none => ?_⟩
  · rw [here] at unlocked
    exact moved.returnsMutex sound.unheld unlocked
  · obtain ⟨before, unmoved, policy, queue⟩ := kept none
    refine ⟨evictSound (fun caller zone chunk there inZone => ?_) before, by rwa [here],
      by rwa [here]⟩
    rw [sound.custody.custody.policyMax] at inZone
    exact unmoved caller zone chunk there inZone

abbrev SoloRun (config : CacheConfig) (system : ChunkSystem Unit) : Prop :=
  ChunkRun config SmoothGets system

theorem SoloSound.of_reach (fits : config.maxZoneChunks < 2 ^ 32)
    (positive : 0 < config.nrZones * config.maxZoneChunks) (reached : SoloRun config system) :
    SoloSound config system :=
  reached.invariant (fun _ begins => SoloSound.init positive begins)
    fun _ _ _ sound smooth taken =>
      sound.step fits (Nat.pos_of_mul_pos_left positive) smooth taken

end Run

end ZNCache
