import ZNCache.SoloChunk
import ZNCache.SystemPlacement

/-!
# Where the threads of a cache place their chunks under the chunk policy

To the zone state manager the threads and their GC are one caller, which never gives
back a pair that it moved a chunk to.  The zone of such a pair takes no more chunks for
the rest of the run, whoever runs beside the GC.
-/

set_option autoImplicit false

namespace ZNCache

open Tally Transition ZoneStateManager ZnPolicyChunk Duties

variable {Thread : Type}

def ChunkEvictPc.holds : ChunkEvictPc → Multiset ZnPair
  | gcRead _ _ location | gcWrite _ _ location _ | gcInsert _ _ location => {location}
  | start | pop _ _ | mark _ _ _ | clear _ _ _ | gcStart | gcLoop _ | gcScan _ _ => 0
  | gcClear _ | gcReset _ | gcCount | leave => 0

def ThreadPc.out : ThreadPc ChunkEvictPc → Multiset ZnPair
  | idle => 0
  | get pc => pc.holds
  | evict _ code => code.holds

def ChunkEvictPc.moves : ChunkEvictPc → List (Slot × ZnPair)
  | gcInsert zone chunk location => [((zone, chunk), location)]
  | start | pop _ _ | mark _ _ _ | clear _ _ _ | gcStart | gcLoop _ | gcScan _ _ => []
  | gcRead _ _ _ | gcWrite _ _ _ _ | gcClear _ | gcReset _ | gcCount | leave => []

def ThreadPc.moves : ThreadPc ChunkEvictPc → Choice → List (Slot × ZnPair)
  | evict _ code, .run _ => code.moves
  | _, _ => []

def ThreadPc.told : ThreadPc ChunkEvictPc → Multiset Nat
  | get (.record _ location) => {location.zone}
  | evict _ (.mark _ _ pair) => {pair.zone}
  | _ => 0

def ChunkCache.evictCall (cache : ChunkCache Thread) (commandRet : Int) :
    ChunkEvictPc → Option ZsmCall
  | .mark _ _ pair => some (.markChunkInvalid pair)
  | .gcScan zone chunk =>
      if chunk < cache.evictionPolicy.maxZoneChunks ∧
          (cache.evictionPolicy.slot (zone, chunk)).inUse = true then
        some (.getActiveZone commandRet)
      else none
  | .gcReset zone => some (.evict commandRet (cache.zoneId zone))
  | .start | .pop _ _ | .clear _ _ _ | .gcStart | .gcLoop _ | .gcRead _ _ _ => none
  | .gcWrite _ _ _ _ | .gcInsert _ _ _ | .gcClear _ | .gcCount | .leave => none

def ChunkCache.zsmCall (cache : ChunkCache Thread) :
    ThreadPc ChunkEvictPc → Choice → Option ZsmCall
  | .get pc, .run environment => pc.zsmCall environment.commandRet
  | .evict _ code, .run environment => cache.evictCall environment.commandRet code
  | _, _ => none

/-- The zones of a cache, whose pairs are out, and the full zones, which are in the heap or
in some thread's hands. -/
structure ChunkZones (config : CacheConfig) (cache : ChunkCache Thread)
    (out : Multiset ZnPair) (duties : Duties) : Prop where
  zones : ZonesSound cache.zoneState out
  numZones : cache.zoneState.numZones = config.nrZones
  maxActive : cache.zoneState.maxNrActiveZones = config.maxActive
  managerMax : cache.zoneState.maxZoneChunks = config.maxZoneChunks
  policyMax : cache.evictionPolicy.maxZoneChunks = config.maxZoneChunks
  allocated : cache.evictionPolicy.invalidPqueue.Allocated
  once : ((cache.evictionPolicy.invalidPqueue.zones : Multiset Nat) +
    (duties.filled + duties.reclaimed)).Nodup
  full : ∀ zone, zone ∈ (cache.evictionPolicy.invalidPqueue.zones : Multiset Nat) +
    (duties.filled + duties.reclaimed) ↔ IsFull cache.zoneState zone
  poolIds : ∀ zone, zone ∈ cache.evictionPolicy.invalidPqueue.zones ∨
    zone ∈ duties.reclaimed → (cache.evictionPolicy.zonePool zone).zoneId = zone
  slots : ∀ place, (cache.evictionPolicy.slot place).zone < config.nrZones

section Zones

variable {config : CacheConfig} {cache after : ChunkCache Thread} {out : Multiset ZnPair}
  {duties rest : Duties}

theorem ChunkZones.init (someZone : 1 ≤ config.nrZones) {system : ChunkSystem Thread}
    (begins : chunkSystem config = some system) : ChunkZones config system.cache 0 0 := by
  obtain ⟨small, zoneState, _, policy, _⟩ := System.init_spec begins
  constructor
  case zones =>
    rw [zoneState]
    exact ZonesSound.init small _ _ _ _ _
  case numZones =>
    rw [zoneState]
    rfl
  case maxActive =>
    rw [zoneState]
    rfl
  case managerMax =>
    rw [zoneState]
    rfl
  case policyMax =>
    rw [policy]
    rfl
  case allocated =>
    rw [policy]
    exact fun handle member => absurd member (List.not_mem_nil)
  case once =>
    rw [policy]
    exact Multiset.nodup_zero
  case full =>
    rw [policy, zoneState]
    simp [IsFull, zsmInit, chunkInit, znMinheapInit, ZnMinheap.zones]
  case poolIds =>
    rw [policy]
    intro zone either
    rcases either with inHeap | reclaimed
    · cases inHeap
    · exact absurd reclaimed (Multiset.notMem_zero _)
  case slots =>
    rw [policy]
    exact fun _ => someZone

theorem ChunkZones.keep (sound : ChunkZones config cache out duties) {out' : Multiset ZnPair}
    {duties' : Duties} (zones : ZonesSound after.zoneState out')
    (shape : SameShape cache.zoneState after.zoneState)
    (full : ∀ zone, IsFull after.zoneState zone ↔ IsFull cache.zoneState zone)
    (policy : after.evictionPolicy = cache.evictionPolicy)
    (filled : duties'.filled = duties.filled)
    (reclaimed : duties'.reclaimed = duties.reclaimed) :
    ChunkZones config after out' duties' := by
  constructor
  case zones => exact zones
  case numZones => exact shape.numZones.trans sound.numZones
  case maxActive => exact shape.maxNrActiveZones.trans sound.maxActive
  case managerMax => exact shape.maxZoneChunks.trans sound.managerMax
  case policyMax =>
    rw [policy]
    exact sound.policyMax
  case allocated =>
    rw [policy]
    exact sound.allocated
  case once =>
    rw [policy, filled, reclaimed]
    exact sound.once
  case full =>
    intro zone
    rw [policy, filled, reclaimed, full]
    exact sound.full zone
  case poolIds =>
    rw [policy, reclaimed]
    exact sound.poolIds
  case slots =>
    rw [policy]
    exact sound.slots

theorem ChunkZones.setPolicy (sound : ChunkZones config cache out duties) {duties' : Duties}
    (sameZones : after.zoneState = cache.zoneState)
    (allocated : after.evictionPolicy.invalidPqueue.Allocated)
    (sameMax : after.evictionPolicy.maxZoneChunks = cache.evictionPolicy.maxZoneChunks)
    (moved : (after.evictionPolicy.invalidPqueue.zones : Multiset Nat) +
        (duties'.filled + duties'.reclaimed) =
      (cache.evictionPolicy.invalidPqueue.zones : Multiset Nat) +
        (duties.filled + duties.reclaimed))
    (poolIds : ∀ zone, zone ∈ after.evictionPolicy.invalidPqueue.zones ∨
      zone ∈ duties'.reclaimed → (after.evictionPolicy.zonePool zone).zoneId = zone)
    (slots : ∀ place, (after.evictionPolicy.slot place).zone < config.nrZones) :
    ChunkZones config after out duties' := by
  constructor
  case zones =>
    rw [sameZones]
    exact sound.zones
  case numZones =>
    rw [sameZones]
    exact sound.numZones
  case maxActive =>
    rw [sameZones]
    exact sound.maxActive
  case managerMax =>
    rw [sameZones]
    exact sound.managerMax
  case policyMax => exact sameMax.trans sound.policyMax
  case allocated => exact allocated
  case once =>
    rw [moved]
    exact sound.once
  case full =>
    intro zone
    rw [moved, sameZones]
    exact sound.full zone
  case poolIds => exact poolIds
  case slots => exact slots

end Zones

/-! ## Sections of `zn_cache_get` -/

section Get

variable {config : CacheConfig} {cache after : ChunkCache Thread} {pairs : Multiset ZnPair}
  {rest : Duties}

/-- A zone is full in the thread's hands when its last chunk has been given back. -/
theorem fillsIf_filled (maxChunks : Nat) (location : ZnPair) :
    (fillsIf maxChunks location).filled =
      if location.chunkOffset + 1 = maxChunks then {location.zone} else 0 := by
  unfold fillsIf
  split <;> rfl

theorem ChunkZones.giveBack {location : ZnPair} (fits : config.maxZoneChunks < 2 ^ 32)
    (positive : 0 < config.maxZoneChunks)
    (sound : ChunkZones config cache (location ::ₘ pairs) rest) (id : Nat) :
    ChunkZones config
      { cache with zoneState := (zsmReturnActiveZone 0 cache.zoneState location).state } pairs
      (returns (id, location) + fillsIf config.maxZoneChunks location + rest) := by
  obtain ⟨zones, shape, full⟩ := sound.zones.returnActiveZone
  obtain ⟨writing, offset, _⟩ := sound.zones.outstanding (Multiset.mem_cons_self location pairs)
  have room := sound.zones.entries.offsetRoom location.zone (.inr writing)
    (sound.managerMax.symm ▸ positive)
  rw [offset, sound.managerMax] at room
  have last : u32 (location.chunkOffset + 1) = cache.zoneState.maxZoneChunks ↔
      location.chunkOffset + 1 = config.maxZoneChunks := by
    rw [sound.managerMax]
    unfold u32
    omega
  have notFull : ¬ IsFull cache.zoneState location.zone := by
    intro isFull
    rw [isFull.2] at writing
    cases writing
  have filled : (returns (id, location) + fillsIf config.maxZoneChunks location + rest).filled =
      (if location.chunkOffset + 1 = config.maxZoneChunks then {location.zone} else 0) +
        rest.filled := by
    simp [returns, fillsIf_filled]
  have reclaimed : (returns (id, location) + fillsIf config.maxZoneChunks location +
      rest).reclaimed = rest.reclaimed := by
    simp [returns]
  constructor
  case zones => exact zones
  case numZones => exact shape.numZones.trans sound.numZones
  case maxActive => exact shape.maxNrActiveZones.trans sound.maxActive
  case managerMax => exact shape.maxZoneChunks.trans sound.managerMax
  case policyMax => exact sound.policyMax
  case allocated => exact sound.allocated
  case once =>
    rw [filled, reclaimed]
    split
    next closes =>
        rw [Multiset.singleton_add, Multiset.cons_add, Multiset.add_cons, Multiset.nodup_cons]
        exact ⟨fun inside => notFull ((sound.full _).mp inside), sound.once⟩
    next => simpa using sound.once
  case full =>
    intro zone
    rw [filled, reclaimed, full, last]
    split
    next closes =>
        rw [Multiset.singleton_add, Multiset.cons_add, Multiset.add_cons, Multiset.mem_cons,
          sound.full]
        tauto
    next stays =>
        rw [zero_add, sound.full]
        tauto
  case poolIds =>
    rw [reclaimed]
    exact sound.poolIds
  case slots => exact sound.slots

theorem ChunkZones.record {id : Nat} {location : ZnPair}
    (sound : ChunkZones config cache pairs
      (returns (id, location) + fillsIf config.maxZoneChunks location + rest))
    (inDevice : location.zone < config.nrZones) {policy : ZnPolicyChunk Thread}
    (updated : znPolicyChunkUpdate cache.evictionPolicy location .write = some policy) :
    ChunkZones config { cache with evictionPolicy := policy } pairs
      (records (id, location) + rest) := by
  have poolIds : ∀ zone, zone ∈ cache.evictionPolicy.invalidPqueue.zones ∨
      zone = location.zone ∨ zone ∈ rest.reclaimed →
      ((recordChunk cache.evictionPolicy location).zonePool zone).zoneId = zone := by
    intro zone member
    rw [zoneId_recordChunk]
    split
    next same => exact same.symm
    next apart =>
        apply sound.poolIds
        rcases member with inHeap | same | reclaimed
        · exact .inl inHeap
        · exact absurd same apart
        · exact .inr (Multiset.mem_add.mpr (.inr reclaimed))
  have slots : ∀ place,
      ((recordChunk cache.evictionPolicy location).slot place).zone < config.nrZones := by
    intro place
    rw [slot_recordChunk]
    split
    next => exact inDevice
    next => exact sound.slots place
  rw [znPolicyChunkUpdate_write updated, sound.policyMax]
  split
  next closes =>
      obtain ⟨zones, allocated⟩ := sound.allocated.zones_insert location.zone
        ((recordChunk cache.evictionPolicy location).zonePool location.zone).chunksInUse
      refine sound.setPolicy rfl allocated rfl ?_ ?_ ?_
      · have queued : ((enterHeap (recordChunk cache.evictionPolicy location)
            location.zone).invalidPqueue.zones : Multiset Nat) =
              location.zone ::ₘ (cache.evictionPolicy.invalidPqueue.zones : Multiset Nat) :=
          Multiset.coe_eq_coe.mpr zones
        rw [queued]
        simp [records, returns, fillsIf_filled, closes, -Multiset.cons_coe]
      · intro zone member
        rw [zoneId_enterHeap]
        apply poolIds
        rcases member with inHeap | reclaimed
        · rcases List.mem_cons.mp (zones.mem_iff.mp inHeap) with here | before
          · exact .inr (.inl here)
          · exact .inl before
        · exact .inr (.inr (by simpa [records] using reclaimed))
      · intro place
        rw [slot_enterHeap]
        exact slots place
  next stays =>
      refine sound.setPolicy rfl sound.allocated rfl ?_ ?_ slots
      · simp only [records, returns, fillsIf_filled, if_neg stays, add_filled, add_reclaimed,
          zero_filled, zero_reclaimed, fillsIf_reclaimed, zero_add]
        rfl
      · intro zone member
        apply poolIds
        rcases member with inHeap | reclaimed
        · exact .inl inHeap
        · exact .inr (.inr (by simpa [records] using reclaimed))

variable [DecidableEq Thread] {thread : Thread} {environment : Environment} {pc : GetPc}
  {next : ThreadPc ChunkEvictPc}

theorem GetStep.outHolds
    (taken : GetStep (chunkCode config) thread cache environment pc after next) :
    next.out = next.holds := by
  cases taken with
  | find id => cases (znCachemapFind thread cache.cacheMap id).1 <;> rfl
  | acquire id => cases (zsmGetActiveZone environment.commandRet cache.zoneState).ret <;> rfl
  | woken | read | touch | release | countHit | write | writeFailed => rfl
  | countMiss | giveBack | record | insert | undoZone | undoMap => rfl

/-- Only a thread that has just given a pair back has a full zone in its hands. -/
theorem GetStep.handsFull
    (taken : GetStep (chunkCode config) thread cache environment pc after next)
    (notGiveBack : ∀ id location, pc ≠ .giveBack id location) (maxChunks : Nat) :
    (next.duties maxChunks).filled = 0 ∧ (next.duties maxChunks).reclaimed = 0 := by
  cases taken with
  | find id => cases (znCachemapFind thread cache.cacheMap id).1 <;> exact ⟨rfl, rfl⟩
  | acquire id =>
      cases (zsmGetActiveZone environment.commandRet cache.zoneState).ret <;> exact ⟨rfl, rfl⟩
  | giveBack id location => exact absurd rfl (notGiveBack id location)
  | woken | read | touch | release | countHit | write | writeFailed => exact ⟨rfl, rfl⟩
  | countMiss | record | insert | undoZone | undoMap => exact ⟨rfl, rfl⟩

theorem GetStep.chunkZones (fits : config.maxZoneChunks < 2 ^ 32)
    (positive : 0 < config.maxZoneChunks)
    (taken : GetStep (chunkCode config) thread cache environment pc after next)
    (success : environment.commandRet = 0)
    (told : ∀ zone ∈ (ThreadPc.get pc).told, zone < config.nrZones)
    (sound : ChunkZones config cache (pc.holds + pairs)
      (pc.duties config.maxZoneChunks + rest)) :
    ChunkZones config after (next.out + pairs) (next.duties config.maxZoneChunks + rest) := by
  obtain ⟨zones, shape⟩ := taken.zones success sound.zones
  rw [← taken.outHolds] at zones
  have full := taken.full success sound.zones
  have hands := fun notGiveBack => taken.handsFull notGiveBack config.maxZoneChunks
  cases taken with
  | giveBack id location =>
      have before : ChunkZones config cache (location ::ₘ pairs) rest :=
        sound.keep sound.zones ⟨rfl, rfl, rfl, rfl⟩ (fun _ => Iff.rfl) rfl
          (by simp [GetPc.duties, takes]) (by simp [GetPc.duties, takes])
      rw [success]
      rw [ThreadPc.out, GetPc.holds, zero_add]
      exact before.giveBack fits positive id
  | touch id location data policy updated =>
      obtain ⟨heap, pool, sameMax, _⟩ := znPolicyChunkUpdate_read updated
      refine sound.setPolicy rfl ?_ sameMax ?_ ?_ ?_
      · rw [heap]
        exact sound.allocated
      · rw [heap]
        rfl
      · rw [heap, pool]
        exact sound.poolIds
      · intro place
        rw [slot, pool]
        exact sound.slots place
  | record id location policy updated =>
      exact sound.record (told _ (Multiset.mem_singleton_self _)) updated
  | find | woken | read | release | countHit | acquire | write | writeFailed | countMiss
  | insert | undoZone | undoMap =>
      obtain ⟨filled, reclaimed⟩ := hands (by simp)
      refine sound.keep zones shape (fun zone => (full zone).trans ?_) rfl ?_ ?_
      · simp
      · rw [add_filled, filled, add_filled]
        rfl
      · rw [add_reclaimed, reclaimed, add_reclaimed]
        rfl

theorem GetStep.told
    (taken : GetStep (chunkCode config) thread cache environment pc after next)
    (sound : ChunkZones config cache (pc.holds + pairs) rest) :
    ∀ zone ∈ next.told, zone < config.nrZones := by
  cases taken with
  | giveBack id location =>
      intro zone member
      cases Multiset.mem_singleton.mp member
      have held : location ∈ (GetPc.giveBack id location).holds + pairs := by simp [GetPc.holds]
      rw [← sound.numZones]
      exact ((sound.zones.partition.heldIff location.zone).mp
        (Multiset.mem_map_of_mem ZnPair.zone held)).1
  | find id =>
      cases (znCachemapFind thread cache.cacheMap id).1 <;>
        exact fun _ member => absurd member (Multiset.notMem_zero _)
  | acquire id =>
      cases (zsmGetActiveZone environment.commandRet cache.zoneState).ret <;>
        exact fun _ member => absurd member (Multiset.notMem_zero _)
  | woken | read | touch | release | countHit | write | writeFailed | countMiss | record
  | insert | undoZone | undoMap => exact fun _ member => absurd member (Multiset.notMem_zero _)

end Get

/-! ## Sections of the eviction and of the GC -/

section Evict

variable {config : CacheConfig} {thread : Thread} {cache after : ChunkCache Thread}
  {environment : Environment} {pc : ChunkEvictPc} {next : Option ChunkEvictPc}
  {pairs : Multiset ZnPair} {rest : Duties}

/-- The pairs that are out once a section of the eviction has been run, or left: its own,
and the one it moved a chunk to. -/
def outAfter (pc : ChunkEvictPc) (next : Option ChunkEvictPc) : Multiset ZnPair :=
  (pc.moves.map Prod.snd : List ZnPair) + next.elim 0 ChunkEvictPc.holds

theorem slot_evictChunk {policy left : ZnPolicyChunk Thread} {pair : ZnPair}
    (evicted : evictChunk policy = some (pair, left)) :
    (∃ place, pair = policy.slot place) ∧
      ∀ place, ∃ before, (left.slot place).zone = (policy.slot before).zone := by
  unfold evictChunk at evicted
  cases popped : policy.lruQueue.popHead with
  | none => simp [popped] at evicted
  | some head =>
      obtain ⟨position, queue⟩ := head
      rw [popped] at evicted
      obtain ⟨rfl, rfl⟩ := Prod.mk.inj (Option.some.inj evicted)
      refine ⟨⟨position, rfl⟩, fun place => ⟨place, ?_⟩⟩
      have entered := slot_setSlot { policy with
        lruQueue := queue
        chunkToLruMap := Function.update policy.chunkToLruMap position none }
        ((policy.slot position).zone, (policy.slot position).chunkOffset) place
      refine (congrArg ZnPair.zone (entered _ _)).trans ?_
      split
      next same =>
          subst same
          rfl
      next => rfl

theorem ChunkZones.reset {zone : Nat}
    (sound : ChunkZones config cache pairs (clears zone + reclaims zone + rest)) :
    ChunkZones config (cache.evictZone 0 (cache.zoneId zone)) pairs rest := by
  have own : cache.zoneId zone = zone := sound.poolIds zone (.inr (by simp [reclaims]))
  have before : (cache.evictionPolicy.invalidPqueue.zones : Multiset Nat) +
      ((clears zone + reclaims zone + rest).filled +
        (clears zone + reclaims zone + rest).reclaimed) =
      zone ::ₘ ((cache.evictionPolicy.invalidPqueue.zones : Multiset Nat) +
        (rest.filled + rest.reclaimed)) := by
    simp [clears, reclaims]
  have once := sound.once
  have full := sound.full
  rw [before] at once full
  have isFull := (full zone).mp (Multiset.mem_cons_self zone _)
  rw [Multiset.nodup_cons] at once
  obtain ⟨zones, freed⟩ := sound.zones.evict isFull
  have shape := (zsmEvict_spec 0 cache.zoneState zone).shape
  rw [own]
  constructor
  case zones => exact zones
  case numZones => exact shape.numZones.trans sound.numZones
  case maxActive => exact shape.maxNrActiveZones.trans sound.maxActive
  case managerMax => exact shape.maxZoneChunks.trans sound.managerMax
  case policyMax => exact sound.policyMax
  case allocated => exact sound.allocated
  case once => exact once.2
  case full =>
    intro other
    simp only [ZnCache.evictZone, freed, freed_full, ← full other, Multiset.mem_cons]
    constructor
    · intro inside
      exact ⟨.inr inside, fun same => once.1 (same ▸ inside)⟩
    · rintro ⟨here | inside, apart⟩
      · exact absurd here apart
      · exact inside
  case poolIds =>
    intro other member
    apply sound.poolIds
    rcases member with inHeap | reclaimed
    · exact .inl inHeap
    · exact .inr (Multiset.mem_add.mpr (.inr reclaimed))
  case slots => exact sound.slots

theorem ChunkEvictStep.chunkZones
    (taken : ChunkEvictStep config thread cache environment pc after next)
    (success : environment.commandRet = 0)
    (sound : ChunkZones config cache (pc.holds + pairs) (pc.duties + rest)) :
    ChunkZones config after (outAfter pc next + pairs) (dutiesAfter next + rest) := by
  have keep : ∀ {after : ChunkCache Thread} {out : Multiset ZnPair} {duties : Duties},
      after.zoneState = cache.zoneState → after.evictionPolicy = cache.evictionPolicy →
      out = pc.holds + pairs → duties.filled = (pc.duties + rest).filled →
      duties.reclaimed = (pc.duties + rest).reclaimed → ChunkZones config after out duties := by
    intro after out duties sameZones samePolicy same filled reclaimed
    rw [same]
    refine sound.keep ?_ ?_ ?_ samePolicy filled reclaimed
    · rw [sameZones]
      exact sound.zones
    · rw [sameZones]
      exact ⟨rfl, rfl, rfl, rfl⟩
    · intro zone
      rw [sameZones]
  cases taken with
  | lock nr unheld =>
      exact sound.setPolicy rfl sound.allocated rfl rfl sound.poolIds sound.slots
  | leave =>
      exact sound.setPolicy rfl sound.allocated rfl rfl sound.poolIds sound.slots
  | pop i nr pair policy evicted =>
      obtain ⟨zones, allocated, sameIds, sameMax⟩ := evictChunk_zones evicted
      refine sound.setPolicy rfl (allocated sound.allocated) sameMax ?_ ?_ fun place => ?_
      · have same : ((cache.setPolicy policy).evictionPolicy.invalidPqueue.zones :
            Multiset Nat) = cache.evictionPolicy.invalidPqueue.zones :=
          Multiset.coe_eq_coe.mpr zones
        rw [same]
        rfl
      · intro zone member
        refine (sameIds zone).trans (sound.poolIds zone ?_)
        rw [← zones.mem_iff]
        exact member
      · obtain ⟨before, same⟩ := (slot_evictChunk evicted).2 place
        exact same ▸ sound.slots before
  | mark i nr pair =>
      exact sound.keep (sound.zones.setInvalid _ _) ⟨rfl, rfl, rfl, rfl⟩
        (zsmMarkChunkInvalid_full _ _) rfl rfl rfl
  | gcTake freeZones handle heap extracted =>
      have zones := ZnMinheap.zones_extractMin extracted
      refine sound.setPolicy rfl (sound.allocated.extractMin extracted) rfl ?_ ?_ sound.slots
      · rw [Multiset.coe_eq_coe.mpr zones, ← Multiset.cons_coe]
        simp [dutiesAfter, ChunkEvictPc.duties, reclaims, ChunkCache.setHeap,
          ChunkCache.setPolicy, -Multiset.cons_coe]
      · intro zone member
        apply sound.poolIds
        rw [zones.mem_iff, List.mem_cons]
        rcases member with inHeap | reclaimed
        · exact .inl (.inr inHeap)
        · simp only [dutiesAfter, ChunkEvictPc.duties, reclaims, add_reclaimed,
            Multiset.singleton_add, Multiset.mem_cons] at reclaimed
          rcases reclaimed with here | other
          · exact .inl (.inl here)
          · exact .inr (by simpa [ChunkEvictPc.duties] using other)
  | gcAcquire zone chunk location inZone used handed =>
      rw [success] at handed
      obtain ⟨zones, full, _⟩ := sound.zones.handed handed
      rw [success]
      refine sound.keep ?_ (zsmGetActiveZone_shape 0 cache.zoneState) full rfl ?_ ?_
      · simpa [outAfter, ChunkEvictPc.moves, ChunkEvictPc.holds] using zones
      · simp [dutiesAfter, ChunkEvictPc.duties, takes]
      · simp [dutiesAfter, ChunkEvictPc.duties, takes]
  | gcInsert zone chunk location answer inserted =>
      have out : outAfter (.gcInsert zone chunk location) (some (.gcScan zone (chunk + 1))) +
          pairs = (ChunkEvictPc.gcInsert zone chunk location).holds + pairs := by
        simp [outAfter, ChunkEvictPc.moves, ChunkEvictPc.holds]
      have filled : (dutiesAfter (some (.gcScan zone (chunk + 1))) + rest).filled =
          ((ChunkEvictPc.gcInsert zone chunk location).duties + rest).filled := by
        simp [dutiesAfter, ChunkEvictPc.duties, takes]
      have reclaimed : (dutiesAfter (some (.gcScan zone (chunk + 1))) + rest).reclaimed =
          ((ChunkEvictPc.gcInsert zone chunk location).duties + rest).reclaimed := by
        simp [dutiesAfter, ChunkEvictPc.duties, takes]
      rw [out]
      refine sound.setPolicy rfl sound.allocated rfl ?_ ?_ fun place => ?_
      · rw [filled, reclaimed]
        rfl
      · intro other member
        rw [reclaimed] at member
        exact (zoneId_moveSlot _ _ _ other).trans (sound.poolIds other member)
      · rw [slot_moveSlot]
        split
        next => exact sound.slots (zone, chunk)
        next =>
            split
            next => exact sound.slots (zone, chunk)
            next => exact sound.slots place
  | gcReset zone =>
      rw [success, dutiesAfter, ChunkEvictPc.duties, zero_add]
      exact sound.reset
  | turnedAway | popped | gcEnough | gcShort | gcDone | gcSkip => exact keep rfl rfl rfl rfl rfl
  | clear | gcScanned | gcRead | gcWrite | gcClear | gcCount =>
      refine keep rfl rfl ?_ ?_ ?_
      · simp [outAfter, ChunkEvictPc.holds, ChunkEvictPc.moves]
      · simp [dutiesAfter, ChunkEvictPc.duties, takes, clears, pops]
      · simp [dutiesAfter, ChunkEvictPc.duties, takes, clears, pops]

theorem ChunkEvictStep.makesCall {caller : Option Nat}
    (taken : ChunkEvictStep config thread cache environment pc after next)
    (told : ∀ zone ∈ (ThreadPc.evict caller pc).told, zone < config.nrZones)
    (sound : ChunkZones config cache (pc.holds + pairs) (pc.duties + rest)) :
    MakesCall cache.zoneState after.zoneState (pc.holds + pairs) (outAfter pc next + pairs)
      (cache.evictCall environment.commandRet pc) := by
  cases taken with
  | mark i nr pair =>
      have inRange : pair.zone < cache.zoneState.numZones := by
        rw [sound.numZones]
        exact told _ (Multiset.mem_singleton_self _)
      simp [ChunkCache.evictCall, MakesCall, Handout.step, Handout.call, inRange, outAfter,
        ChunkEvictPc.moves, ChunkEvictPc.holds]
  | gcSkip zone chunk inZone unused =>
      simp [ChunkCache.evictCall, MakesCall, unused, outAfter, ChunkEvictPc.moves,
        ChunkEvictPc.holds]
  | gcAcquire zone chunk location inZone used handed =>
      simp [ChunkCache.evictCall, MakesCall, used, inZone, Handout.step, Handout.call, handed,
        outAfter, ChunkEvictPc.moves, ChunkEvictPc.holds]
  | gcScanned zone chunk atEnd =>
      simp [ChunkCache.evictCall, MakesCall, Nat.not_lt.mpr atEnd, outAfter, ChunkEvictPc.moves,
        ChunkEvictPc.holds]
  | gcReset zone =>
      have own : cache.zoneId zone = zone :=
        sound.poolIds zone (.inr (by simp [ChunkEvictPc.duties, clears, reclaims]))
      have isFull : IsFull cache.zoneState zone :=
        (sound.full zone).mp (by simp [ChunkEvictPc.duties, clears, reclaims])
      simp [ChunkCache.evictCall, MakesCall, Handout.step, Handout.call, own, isFull.1, isFull.2,
        outAfter, ChunkEvictPc.moves, ChunkEvictPc.holds, ZnCache.evictZone]
  | turnedAway | lock | pop | popped | clear | gcEnough | gcShort | gcDone | gcTake =>
      exact ⟨rfl, by simp [outAfter, ChunkEvictPc.moves, ChunkEvictPc.holds]⟩
  | gcRead | gcWrite | gcInsert | gcClear | gcCount | leave =>
      exact ⟨rfl, by simp [outAfter, ChunkEvictPc.moves, ChunkEvictPc.holds]⟩

/-- The policy's slots say which zone the zone manager is told of. -/
theorem ChunkEvictStep.told (caller : Option Nat)
    (taken : ChunkEvictStep config thread cache environment pc after next)
    (sound : ChunkZones config cache pairs rest) :
    ∀ code, next = some code → ∀ zone ∈ (ThreadPc.evict caller code).told,
      zone < config.nrZones := by
  cases taken with
  | pop i nr pair policy evicted =>
      rintro code ⟨rfl⟩ zone member
      cases Multiset.mem_singleton.mp member
      obtain ⟨place, rfl⟩ := (slot_evictChunk evicted).1
      exact sound.slots place
  | turnedAway | leave => exact fun code here => nomatch here
  | lock | popped | mark | clear | gcEnough | gcShort | gcDone | gcTake | gcSkip =>
      rintro code ⟨rfl⟩ zone member
      exact absurd member (Multiset.notMem_zero _)
  | gcAcquire | gcScanned | gcRead | gcWrite | gcInsert | gcClear | gcReset | gcCount =>
      rintro code ⟨rfl⟩ zone member
      exact absurd member (Multiset.notMem_zero _)

end Evict

/-! ## Steps of a thread -/

section Step

variable [DecidableEq Thread] {config : CacheConfig} {thread : Thread} {choice : Choice}
  {cache after : ChunkCache Thread} {pc next : ThreadPc ChunkEvictPc} {pairs : Multiset ZnPair}
  {rest : Duties}

structure ThreadZones (config : CacheConfig) (cache : ChunkCache Thread)
    (pc : ThreadPc ChunkEvictPc) (out : Multiset ZnPair) (rest : Duties) : Prop where
  zones : ChunkZones config cache out (pc.duties config.maxZoneChunks + rest)
  told : ∀ zone ∈ pc.told, zone < config.nrZones

def ThreadPc.outOf (pc next : ThreadPc ChunkEvictPc) (choice : Choice) : Multiset ZnPair :=
  ((pc.moves choice).map Prod.snd : List ZnPair) + next.out

omit [DecidableEq Thread] in
theorem outOf_get (pc : GetPc) (environment : Environment) (next : ThreadPc ChunkEvictPc) :
    (ThreadPc.get pc).outOf next (.run environment) = next.out :=
  zero_add next.out

omit [DecidableEq Thread] in
theorem out_afterEvict (caller : Option Nat) :
    (afterEvict caller : ThreadPc ChunkEvictPc).out = 0 := by
  cases caller <;> rfl

omit [DecidableEq Thread] in
theorem told_afterEvict (caller : Option Nat) :
    (afterEvict caller : ThreadPc ChunkEvictPc).told = 0 := by
  cases caller <;> rfl

theorem ThreadStep.threadZones (fits : config.maxZoneChunks < 2 ^ 32)
    (positive : 0 < config.maxZoneChunks)
    (moved : ThreadStep (chunkCode config) thread cache pc choice after next)
    (success : ∀ environment, choice = .run environment → environment.commandRet = 0)
    (sound : ThreadZones config cache pc (pc.out + pairs) rest) :
    ThreadZones config after next (pc.outOf next choice + pairs) rest := by
  obtain ⟨zones, told⟩ := sound
  cases moved with
  | call | callEvict => exact ⟨zones, fun _ member => absurd member (Multiset.notMem_zero _)⟩
  | wakeUp id =>
      exact ⟨zones.keep zones.zones ⟨rfl, rfl, rfl, rfl⟩ (fun _ => Iff.rfl) rfl rfl rfl,
        fun _ member => absurd member (Multiset.notMem_zero _)⟩
  | get ran =>
      refine ⟨?_, ran.told zones⟩
      rw [outOf_get]
      exact ran.chunkZones fits positive (success _ rfl) told zones
  | evict caller next ran =>
      have taken := chunkEvictStep_spec ran
      exact ⟨taken.chunkZones (success _ rfl) zones, taken.told caller zones _ rfl⟩
  | evicted caller ran =>
      have taken := chunkEvictStep_spec ran
      have left := taken.chunkZones (success _ rfl) zones
      refine ⟨?_, ?_⟩
      · rw [duties_afterEvict, ThreadPc.outOf, out_afterEvict]
        exact left
      · rw [told_afterEvict]
        exact fun _ member => absurd member (Multiset.notMem_zero _)

/-- What a step of a thread is to the zone manager. -/
theorem ThreadStep.chunkCall
    (moved : ThreadStep (chunkCode config) thread cache pc choice after next)
    (sound : ThreadZones config cache pc (pc.out + pairs) rest) :
    MakesCall cache.zoneState after.zoneState (pc.out + pairs) (pc.outOf next choice + pairs)
      (cache.zsmCall pc choice) := by
  obtain ⟨zones, told⟩ := sound
  cases moved with
  | call | callEvict | wakeUp => exact ⟨rfl, rfl⟩
  | get ran =>
      rw [outOf_get, ran.outHolds]
      exact ran.makesCall pairs
  | evict caller next ran => exact (chunkEvictStep_spec ran).makesCall told zones
  | evicted caller ran =>
      rw [ThreadPc.outOf, out_afterEvict]
      exact (chunkEvictStep_spec ran).makesCall told zones

omit [DecidableEq Thread] in
theorem ChunkCache.zsmCall_success {call : ZsmCall}
    (made : ChunkCache.zsmCall cache pc choice = some call)
    (success : ∀ environment, choice = .run environment → environment.commandRet = 0) :
    call.commandRet = 0 := by
  cases choice with
  | get | evict | wakeUp => cases pc <;> cases made
  | run environment =>
      have zero := success environment rfl
      cases pc with
      | idle => cases made
      | get pc => cases pc <;> cases made <;> first | exact zero | rfl
      | evict caller code =>
          cases code with
          | gcScan zone chunk =>
              simp only [ChunkCache.zsmCall, ChunkCache.evictCall] at made
              split at made
              next =>
                  cases made
                  exact zero
              next => cases made
          | gcReset zone =>
              cases made
              exact zero
          | mark i nr pair =>
              cases made
              rfl
          | _ => cases made

end Step

/-! ## Runs -/

theorem ZonePartition.zones_split {manager : ZoneStateManager} {held : Multiset ZnPair}
    {full : Multiset Nat} (partition : ZonePartition manager held) (nodup : full.Nodup)
    (mem : ∀ zone, zone ∈ full ↔ IsFull manager zone) :
    (manager.free : Multiset Nat) + manager.active + held.map ZnPair.zone + full =
      Multiset.range manager.numZones := by
  have once : ((manager.free : Multiset Nat) + manager.active + held.map ZnPair.zone +
      full).Nodup := by
    simp only [Multiset.nodup_add, Multiset.disjoint_left, Multiset.mem_add, Multiset.mem_coe,
      Multiset.coe_nodup, partition.freeIff, partition.activeIff, partition.heldIff, mem, IsFull]
    refine ⟨⟨⟨partition.freeNodup, partition.activeNodup, ?_⟩, partition.heldNodup, ?_⟩,
      nodup, ?_⟩
    all_goals
      intro zone one two
      cases state : (manager.state zone).state <;> simp [state] at one two
  refine (Multiset.Nodup.ext once (Multiset.nodup_range _)).mpr fun zone => ?_
  simp only [Multiset.mem_add, Multiset.mem_coe, partition.freeIff, partition.activeIff,
    partition.heldIff, mem, IsFull, Multiset.mem_range]
  cases (manager.state zone).state <;> simp

def fullPart : Duties →+ Multiset Nat where
  toFun := fun duties => duties.filled + duties.reclaimed
  map_zero' := rfl
  map_add' := fun one two => by
    rw [add_filled, add_reclaimed]
    exact add_add_add_comm _ _ _ _

/-- A cache whose threads evict by chunk, with the chunks that the GC has moved so far. -/
structure MigrationLog (Thread : Type) where
  system : ChunkSystem Thread
  moved : List (Slot × ZnPair)

namespace MigrationLog

variable [DecidableEq Thread]

def step (config : CacheConfig) (log : MigrationLog Thread) (action : Thread × Choice) :
    Option (MigrationLog Thread) :=
  (log.system.step (chunkCode config) action).map fun next =>
    ⟨next, log.moved ++ (log.system.threads action.1).moves action.2⟩

abbrev Run (config : CacheConfig) (log : MigrationLog Thread) : Prop :=
  Reach (step config) (fun _ action => CommandsSucceed action)
    (fun log => chunkSystem config = some log.system ∧ log.moved = []) log

variable [Fintype Thread]

def handout (log : MigrationLog Thread) : Handout :=
  ⟨log.system.cache.zoneState,
    tally ThreadPc.out log.system.threads + (log.moved.map Prod.snd : List ZnPair)⟩

structure Sound (config : CacheConfig) (log : MigrationLog Thread) : Prop where
  zones : ChunkZones config log.system.cache log.handout.outstanding
    (tally (ThreadPc.duties config.maxZoneChunks) log.system.threads)
  told : ∀ thread, ∀ zone ∈ (log.system.threads thread).told, zone < config.nrZones

variable {config : CacheConfig} {log : MigrationLog Thread}

omit [DecidableEq Thread] in
theorem Sound.init (someZone : 1 ≤ config.nrZones)
    (begins : chunkSystem config = some log.system) (none : log.moved = []) :
    Sound config log := by
  obtain ⟨_, _, _, _, idle⟩ := System.init_spec begins
  constructor
  · rw [handout, none, tally_const_zero _ _ fun thread => by rw [idle thread]; rfl,
      tally_const_zero _ _ fun thread => by rw [idle thread]; rfl]
    exact ChunkZones.init someZone begins
  · intro thread zone member
    rw [idle thread] at member
    exact absurd member (Multiset.notMem_zero _)

theorem handout_split (log : MigrationLog Thread) (thread : Thread) :
    log.handout.outstanding = (log.system.threads thread).out +
      (others ThreadPc.out log.system.threads thread +
        (log.moved.map Prod.snd : List ZnPair)) := by
  rw [handout, tally_split _ _ thread, add_assoc]

theorem Sound.split (sound : Sound config log) (thread : Thread) :
    ThreadZones config log.system.cache (log.system.threads thread)
      ((log.system.threads thread).out + (others ThreadPc.out log.system.threads thread +
        (log.moved.map Prod.snd : List ZnPair)))
      (others (ThreadPc.duties config.maxZoneChunks) log.system.threads thread) := by
  refine ⟨?_, sound.told thread⟩
  rw [← handout_split, ← tally_split]
  exact sound.zones

theorem outstanding_step {thread : Thread} {choice : Choice} {cache : ChunkCache Thread}
    {pc : ThreadPc ChunkEvictPc} :
    (handout ⟨log.system.advance thread cache pc,
      log.moved ++ (log.system.threads thread).moves choice⟩).outstanding =
      (log.system.threads thread).outOf pc choice +
        (others ThreadPc.out log.system.threads thread +
          (log.moved.map Prod.snd : List ZnPair)) := by
  rw [handout, System.advance, tally_update, List.map_append, ← Multiset.coe_add,
    ThreadPc.outOf]
  simp only [add_assoc, add_comm, add_left_comm]

theorem Sound.step (fits : config.maxZoneChunks < 2 ^ 32) (positive : 0 < config.maxZoneChunks)
    (sound : Sound config log) {action : Thread × Choice} {next : MigrationLog Thread}
    (success : CommandsSucceed action) (taken : log.step config action = some next) :
    Sound config next := by
  obtain ⟨system, stepped, rfl⟩ := Option.map_eq_some_iff.mp taken
  obtain ⟨thread, choice⟩ := action
  obtain ⟨cache, pc, rfl, moved⟩ := System.step_spec stepped
  obtain ⟨zones, told⟩ := moved.threadZones fits positive success (sound.split thread)
  constructor
  · rw [outstanding_step, System.advance, tally_update]
    exact zones
  · intro other zone member
    by_cases same : other = thread
    · subst same
      simp only [System.advance, Function.update_self] at member
      exact told zone member
    · simp only [System.advance, Function.update_of_ne same] at member
      exact sound.told other zone member

theorem Run.sound (someZone : 1 ≤ config.nrZones) (fits : config.maxZoneChunks < 2 ^ 32)
    (positive : 0 < config.maxZoneChunks) (run : Run config log) : Sound config log :=
  run.invariant (fun _ begins => Sound.init someZone begins.1 begins.2)
    fun _ _ _ sound success taken => sound.step fits positive success taken

/-- One step of the system is one call of the zone manager or none. -/
theorem Sound.handoutStep (sound : Sound config log) {action : Thread × Choice}
    {next : MigrationLog Thread} (taken : log.step config action = some next) :
    match ChunkCache.zsmCall log.system.cache (log.system.threads action.1) action.2 with
    | none => next.handout = log.handout
    | some call => log.handout.step call = some next.handout := by
  obtain ⟨system, stepped, rfl⟩ := Option.map_eq_some_iff.mp taken
  obtain ⟨thread, choice⟩ := action
  obtain ⟨cache, pc, rfl, moved⟩ := System.step_spec stepped
  have made := moved.chunkCall (sound.split thread)
  rw [← handout_split, ← outstanding_step] at made
  cases call : ChunkCache.zsmCall log.system.cache (log.system.threads thread) choice with
  | none =>
      rw [call] at made
      obtain ⟨manager, outstanding⟩ := made
      simp only [handout] at outstanding ⊢
      rw [outstanding]
      exact congrArg (Handout.mk · _) manager
  | some call' =>
      rw [call] at made
      exact made

/-- A device of two zones of two chunks each, of which one may be active. -/
def migratingConfig : CacheConfig :=
  { oneChunkConfig with
    nrZones := 2
    zoneCap := 8192
    zoneSize := 8192
    maxNrActiveZones := 1
    evictHighThreshZones := 1
    evictLowThreshZones := 2
    evictHighThreshChunks := 2
    evictLowThreshChunks := 3 }

/-- One thread fills a zone.  The other evicts the older of its chunks, and its GC moves the
younger, which the policy knows by the identifier 0, to the other zone. -/
def fillThenMove (worker evictor : Thread) : List (Thread × Choice) :=
  (worker, .get 7) :: List.replicate 7 (worker, .run .smooth) ++
    (worker, .get 0) :: List.replicate 7 (worker, .run .smooth) ++
    (evictor, .evict) :: List.replicate 12 (evictor, .run .smooth)

/-- The GC then resets the zone that the chunk was in. -/
def moveThenReset (worker evictor : Thread) : List (Thread × Choice) :=
  fillThenMove worker evictor ++ List.replicate 3 (evictor, .run .smooth)

theorem fillThenMove_run : ∃ log : MigrationLog (Fin 2), Run migratingConfig log ∧
    log.moved = [((0, 1), ⟨1, 0, 0, false⟩)] := by
  obtain ⟨start, log, begins, none, ran, moved⟩ : ∃ start log : MigrationLog (Fin 2),
      chunkSystem migratingConfig = some start.system ∧ start.moved = [] ∧
      runActions (step migratingConfig) start (fillThenMove 0 1) = some log ∧
      log.moved = [((0, 1), ⟨1, 0, 0, false⟩)] :=
    ⟨⟨_, []⟩, _, rfl, rfl, rfl, by decide⟩
  refine ⟨log, Reach.of_runActions (fillThenMove 0 1) (.start ⟨begins, none⟩) ?_ ran, moved⟩
  exact .of_forall _ _ (by simp [fillThenMove, CommandsSucceed, Environment.smooth])

/-- The zone manager under the chunk policy goes through a run of its own, in which the
pairs of the chunks that the GC has moved are never given back. -/
theorem chunkThreads_follow_manager (someZone : 1 ≤ config.nrZones)
    (someChunk : 1 ≤ config.chunkSz) (chunkFits : config.chunkSz ≤ config.zoneCap)
    (fits : config.maxZoneChunks < 2 ^ 32) (run : Run config log) :
    ∃ placement, PlacementLog.Run (PlacementLog.ofConfig config) placement ∧
      placement.handout = log.handout := by
  have positive : 0 < config.maxZoneChunks := Nat.div_pos chunkFits someChunk
  apply Reach.simulated _ _ run
  · intro start begins
    obtain ⟨_, zoneState, _, _, idle⟩ := System.init_spec begins.1
    refine ⟨PlacementLog.ofConfig config, rfl, ?_⟩
    simp only [handout, zoneState, begins.2]
    rw [tally_const_zero _ _ fun thread => by rw [idle thread]; rfl]
    rfl
  · intro state placement action later before same success taken
    have sound : Sound config state := Run.sound someZone fits positive before
    have followed := sound.handoutStep taken
    cases call : ChunkCache.zsmCall state.system.cache (state.system.threads action.1)
        action.2 with
    | none =>
        rw [call] at followed
        exact .stay (same.trans followed.symm)
    | some call' =>
        rw [call] at followed
        have stepped : placement.step call' =
            some ⟨later.handout, placement.nowWritten call', placement.nowRetry call'⟩ := by
          rw [PlacementLog.step, same, followed]
          rfl
        exact .one (ChunkCache.zsmCall_success call success) stepped rfl

theorem chunkThreads_follow_manager_fillThenMove :
    ∃ log : MigrationLog (Fin 2), log.moved = [((0, 1), ⟨1, 0, 0, false⟩)] ∧
      ∃ placement, PlacementLog.Run (PlacementLog.ofConfig migratingConfig) placement ∧
        placement.handout = log.handout := by
  obtain ⟨log, run, moved⟩ := fillThenMove_run
  exact ⟨log, moved, chunkThreads_follow_manager (by decide) (by decide) (by decide)
    (by decide) run⟩

omit [DecidableEq Thread] in
theorem tally_fullZones (maxChunks : Nat) (threads : Thread → ThreadPc ChunkEvictPc) :
    (tally (ThreadPc.duties maxChunks) threads).filled +
        (tally (ThreadPc.duties maxChunks) threads).reclaimed =
      tally (ThreadPc.fullZones maxChunks) threads :=
  map_sum fullPart _ _

/-- Every zone is in one place: free, active, handed to a thread, lost with a chunk that the
GC moved to it, in the policy's heap, or full in the hands of a thread. -/
theorem zones_each_once (someZone : 1 ≤ config.nrZones) (someChunk : 1 ≤ config.chunkSz)
    (chunkFits : config.chunkSz ≤ config.zoneCap) (fits : config.maxZoneChunks < 2 ^ 32)
    (run : Run config log) :
    (log.system.cache.zoneState.free : Multiset Nat) + log.system.cache.zoneState.active +
        ((tally ThreadPc.out log.system.threads).map ZnPair.zone +
          (log.moved.map fun move => move.2.zone : List Nat)) +
        (log.system.cache.evictionPolicy.invalidPqueue.zones +
          tally (ThreadPc.fullZones config.maxZoneChunks) log.system.threads) =
      Multiset.range config.nrZones := by
  have sound := Run.sound someZone fits (Nat.div_pos chunkFits someChunk) run
  have split := sound.zones.zones.partition.zones_split sound.zones.once sound.zones.full
  rw [sound.zones.numZones, handout, tally_fullZones, Multiset.map_add, Multiset.map_coe,
    List.map_map] at split
  exact split

theorem zones_each_once_fillThenMove :
    ∃ log : MigrationLog (Fin 2), log.moved = [((0, 1), ⟨1, 0, 0, false⟩)] ∧
      (log.system.cache.zoneState.free : Multiset Nat) + log.system.cache.zoneState.active +
          ((tally ThreadPc.out log.system.threads).map ZnPair.zone +
            (log.moved.map fun move => move.2.zone : List Nat)) +
          (log.system.cache.evictionPolicy.invalidPqueue.zones +
            tally (ThreadPc.fullZones migratingConfig.maxZoneChunks) log.system.threads) =
        Multiset.range migratingConfig.nrZones := by
  obtain ⟨log, run, moved⟩ := fillThenMove_run
  exact ⟨log, moved, zones_each_once (by decide) (by decide) (by decide) (by decide) run⟩

/-- In a whole run the GC moves no more chunks than zones may be active.  Each goes to a
zone of its own, which no thread gets hold of again, and once there are as many as that, no
chunk can be written any more. -/
theorem gc_moves_few (someZone : 1 ≤ config.nrZones) (someChunk : 1 ≤ config.chunkSz)
    (chunkFits : config.chunkSz ≤ config.zoneCap) (fits : config.maxZoneChunks < 2 ^ 32)
    (run : Run config log) :
    log.moved.length + (tally ThreadPc.out log.system.threads).card ≤ config.maxActive ∧
      (log.moved.map fun move => move.2.zone).Nodup ∧
      (∀ move ∈ log.moved,
        (log.system.cache.zoneState.state move.2.zone).state = .writeOccuring ∧
        ∀ thread, ∀ pair ∈ (log.system.threads thread).out, pair.zone ≠ move.2.zone) ∧
      (log.moved.length = config.maxActive → ∀ openRet,
        (zsmGetActiveZone openRet log.system.cache.zoneState).ret.hands = 0) := by
  have sound := Run.sound someZone fits (Nat.div_pos chunkFits someChunk) run
  have partition := sound.zones.zones.partition
  have within := partition.within
  have heldNodup := partition.heldNodup
  rw [sound.zones.maxActive] at within
  simp only [handout, Multiset.card_add, Multiset.coe_card, List.length_map] at within
  rw [handout, Multiset.map_add, Multiset.map_coe, List.map_map, Multiset.nodup_add] at heldNodup
  obtain ⟨_, movedNodup, apart⟩ := heldNodup
  refine ⟨by omega, Multiset.coe_nodup.mp movedNodup, fun move member => ⟨?_, ?_⟩, ?_⟩
  · have out : move.2 ∈ log.handout.outstanding := by
      rw [handout]
      exact Multiset.mem_add.mpr (.inr (Multiset.mem_coe.mpr (List.mem_map_of_mem member)))
    exact (sound.zones.zones.outstanding out).1
  · intro thread pair mine same
    have here : pair.zone ∈ (tally ThreadPc.out log.system.threads).map ZnPair.zone :=
      Multiset.mem_map_of_mem _ (mem_tally.mpr ⟨thread, mine⟩)
    refine Multiset.disjoint_left.mp apart here ?_
    rw [same]
    exact Multiset.mem_coe.mpr (List.mem_map_of_mem member)
  · intro many openRet
    have noActive : log.system.cache.zoneState.active = [] :=
      List.length_eq_zero_iff.mp (by omega)
    have allOut : log.system.cache.zoneState.maxNrActiveZones ≤
        log.system.cache.zoneState.activeZones := by
      rw [partition.activeZones_eq sound.zones.zones.counts, sound.zones.maxActive]
      simp only [handout, Multiset.card_add, Multiset.coe_card, List.length_map]
      omega
    have answer := partition.getActiveZone_spec sound.zones.zones.counts openRet
    generalize zsmGetActiveZone openRet log.system.cache.zoneState = outcome at answer
    cases answer with
    | evict | retry | error => rfl
    | success zone offset active free drawn =>
        cases drawn with
        | activeQueue head => simp [noActive] at head
        | freeQueue _ _ _ _ room => exact absurd room (Nat.not_lt.mpr allOut)

theorem gc_moves_few_fillThenMove :
    ∃ log : MigrationLog (Fin 2), log.moved = [((0, 1), ⟨1, 0, 0, false⟩)] ∧
      (log.system.cache.zoneState.state 1).state = .writeOccuring := by
  obtain ⟨log, run, moved⟩ := fillThenMove_run
  obtain ⟨_, _, lost, _⟩ := gc_moves_few (by decide) (by decide) (by decide) (by decide) run
  exact ⟨log, moved, (lost ((0, 1), ⟨1, 0, 0, false⟩) (by simp [moved])).1⟩

omit [Fintype Thread] in
/-- A thread counts its miss while it holds the pair it has written to. -/
theorem misses_step {thread : Thread} {choice : Choice} {cache after : ChunkCache Thread}
    {pc next : ThreadPc ChunkEvictPc}
    (moved : ThreadStep (chunkCode config) thread cache pc choice after next) :
    after.misses = cache.misses ∨ pc.out ≠ 0 := by
  cases moved with
  | call | callEvict | wakeUp => exact .inl rfl
  | get ran =>
      cases ran with
      | countMiss id location => exact .inr (Multiset.singleton_ne_zero location)
      | _ => exact .inl rfl
  | evict caller next ran => cases chunkEvictStep_spec ran <;> exact .inl rfl
  | evicted caller ran => cases chunkEvictStep_spec ran <;> exact .inl rfl

/-- Once the GC has moved as many chunks as zones may be active, no miss is ever served
again, and the GC moves nothing more. -/
theorem gc_starves_misses (someZone : 1 ≤ config.nrZones) (someChunk : 1 ≤ config.chunkSz)
    (chunkFits : config.chunkSz ≤ config.zoneCap) (fits : config.maxZoneChunks < 2 ^ 32)
    (run : Run config log) (many : log.moved.length = config.maxActive)
    {later : MigrationLog Thread}
    (onward : Reach (step config) (fun _ action => CommandsSucceed action) (· = log) later) :
    later.system.cache.misses = log.system.cache.misses ∧ later.moved = log.moved := by
  suffices Run config later ∧ later.system.cache.misses = log.system.cache.misses ∧
      later.moved = log.moved from this.2
  induction onward with
  | start same =>
      subst same
      exact ⟨run, rfl, rfl⟩
  | @step state later action before success taken ih =>
      obtain ⟨reached, misses, moved⟩ := ih
      have next : Run config later := .step action reached success taken
      have few := (gc_moves_few someZone someChunk chunkFits fits reached).1
      have fewNext := (gc_moves_few someZone someChunk chunkFits fits next).1
      have noneOut : tally ThreadPc.out state.system.threads = 0 := by
        rw [← Multiset.card_eq_zero]
        rw [moved] at few
        omega
      obtain ⟨system, stepped, rfl⟩ := Option.map_eq_some_iff.mp taken
      obtain ⟨thread, choice⟩ := action
      obtain ⟨cache, pc, rfl, ran⟩ := System.step_spec stepped
      have mine : (state.system.threads thread).out = 0 := by
        have split := tally_split ThreadPc.out state.system.threads thread
        rw [noneOut] at split
        exact (add_eq_zero.mp split.symm).1
      refine ⟨next, ?_, ?_⟩
      · exact ((misses_step ran).resolve_right fun out => out mine).trans misses
      · simp only [moved, List.length_append] at fewNext ⊢
        have nothing : ((state.system.threads thread).moves choice).length = 0 := by omega
        rw [List.length_eq_zero_iff.mp nothing, List.append_nil]

/-- A call that misses keeps asking for a zone. -/
theorem gc_starves_misses_fillThenMove :
    ∃ log later : MigrationLog (Fin 2), log.moved = [((0, 1), ⟨1, 0, 0, false⟩)] ∧
      runActions (step migratingConfig) log [(0, .get 9), (0, .run .smooth), (0, .run .smooth)] =
        some later ∧ later.system.threads 0 = .get (.acquire 9) ∧
      later.system.cache.misses = log.system.cache.misses := by
  obtain ⟨start, log, later, begins, none, ran, moved, onward, asks⟩ :
      ∃ start log later : MigrationLog (Fin 2),
        chunkSystem migratingConfig = some start.system ∧ start.moved = [] ∧
        runActions (step migratingConfig) start (fillThenMove 0 1) = some log ∧
        log.moved = [((0, 1), ⟨1, 0, 0, false⟩)] ∧
        runActions (step migratingConfig) log
          [(0, .get 9), (0, .run .smooth), (0, .run .smooth)] = some later ∧
        later.system.threads 0 = .get (.acquire 9) :=
    ⟨⟨_, []⟩, _, _, rfl, rfl, rfl, by decide, rfl, by decide⟩
  have run : Run migratingConfig log := by
    refine Reach.of_runActions (fillThenMove 0 1) (.start ⟨begins, none⟩) ?_ ran
    exact .of_forall _ _ (by simp [fillThenMove, CommandsSucceed, Environment.smooth])
  refine ⟨log, later, moved, onward, asks, ?_⟩
  refine (gc_starves_misses (by decide) (by decide) (by decide) (by decide) run
    (by rw [moved]; rfl) ?_).1
  refine Reach.of_runActions _ (.start rfl) (.of_forall _ _ ?_) onward
  simp [CommandsSucceed, Environment.smooth]

end MigrationLog

end ZNCache
