import ZNCache.CacheMapAgreement
import ZNCache.ChunkDuties

/-!
# Who keeps each zone under the chunk policy

A zone is in one of the queues, handed out, about to enter the heap, in the heap or
being reclaimed, and never in two of these.  Chunks that are located or about to be
are below the offset of a zone that takes chunks and in no free zone.  All of it
holds whatever the device answers, as long as the GC clears no zone of which a chunk
has been given back and not yet inserted.
-/

set_option autoImplicit false

namespace ZNCache

open ZoneStateManager ZnPolicyChunk Duties

variable {Thread : Type}

/-- Some identifier is or is about to be located in the place. -/
def Claimed (map : CacheMap Thread) (duties : Duties) (place : Slot) : Prop :=
  ∃ id location, (map.Locates id location ∨ (id, location) ∈ duties.pending) ∧
    location.place = place

def OpenZone (manager : ZoneStateManager) (duties : Duties) (zone : Nat) : Prop :=
  zone ∈ manager.active ∨ zone ∈ duties.taken.map ZnPair.zone

structure ChunkCustody (maxChunks : Nat) (manager : ZoneStateManager) (map : CacheMap Thread)
    (policy : ZnPolicyChunk Thread) (duties : Duties) : Prop where
  once : (keptZones manager policy duties).Nodup
  allocated : policy.invalidPqueue.Allocated
  zoneIds : ∀ zone, (manager.state zone).zoneId = zone
  poolIds : ∀ zone, zone ∈ policy.invalidPqueue.zones ∨ zone ∈ duties.reclaimed →
    (policy.zonePool zone).zoneId = zone
  managerMax : manager.maxZoneChunks = maxChunks
  policyMax : policy.maxZoneChunks = maxChunks
  offsets : ∀ pair ∈ duties.taken, pair.chunkOffset = (manager.state pair.zone).chunkOffset
  room : ∀ zone, OpenZone manager duties zone →
    (manager.state zone).chunkOffset < 2 ^ 32 ∧
      (0 < maxChunks → (manager.state zone).chunkOffset < maxChunks)
  keys : SmallKeys map
  listed : LocatedListed map
  freeClean : ∀ zone ∈ manager.free, ∀ chunk, ¬ Claimed map duties (zone, chunk)
  openBelow : ∀ zone, OpenZone manager duties zone → ∀ chunk,
    Claimed map duties (zone, chunk) → chunk < (manager.state zone).chunkOffset
  pendingOnce : (duties.pending.map fun chunk => chunk.2.place).Nodup
  pendingFresh : ∀ chunk ∈ duties.pending, ∀ id location, map.Locates id location →
    location.place ≠ chunk.2.place
  clearedKept : ∀ zone ∈ duties.cleared, zone ∈ duties.reclaimed
  clearedEmpty : ∀ zone ∈ duties.cleared, ∀ chunk, ¬ Claimed map duties (zone, chunk)
  readers : ∀ zone, map.activeReaders zone = duties.reading.count zone

theorem ChunkCustody.init (nrZones zoneCap zoneSize chunkSize maxNrActiveZones : Nat)
    (backendType : ZnBackend) :
    ChunkCustody (zoneCap / chunkSize)
      (zsmInit nrZones zoneCap zoneSize chunkSize maxNrActiveZones backendType)
      (znCachemapInit : CacheMap Thread) (chunkInit nrZones (zoneCap / chunkSize)) 0 := by
  have nowhere : ∀ place, ¬ Claimed (znCachemapInit : CacheMap Thread) 0 place := by
    intro place given
    obtain ⟨id, location, ⟨entry, found, _⟩ | pending, _⟩ := given
    · cases found
    · exact Multiset.notMem_zero _ pending
  have closed : ∀ zone, ¬ OpenZone
      (zsmInit nrZones zoneCap zoneSize chunkSize maxNrActiveZones backendType) 0 zone := by
    intro zone either
    rcases either with inActive | taken
    · cases inActive
    · exact Multiset.notMem_zero _ taken
  constructor
  case once =>
    simp [keptZones, zsmInit, chunkInit, znMinheapInit, ZnMinheap.zones, List.nodup_range]
  case allocated =>
    intro handle member
    cases member
  case zoneIds => exact fun _ => rfl
  case poolIds =>
    intro zone either
    rcases either with inHeap | reclaimed
    · cases inHeap
    · exact absurd reclaimed (Multiset.notMem_zero _)
  case managerMax => rfl
  case policyMax => rfl
  case offsets => exact fun pair member => absurd member (Multiset.notMem_zero _)
  case room => exact fun zone isOpen => absurd isOpen (closed zone)
  case keys =>
    constructor
    · intro id entry found
      cases found
    · intro zone chunk id listed
      simp [znCachemapInit] at listed
  case listed =>
    intro id location given
    obtain ⟨entry, found, _⟩ := given
    cases found
  case freeClean => exact fun zone _ chunk => nowhere _
  case openBelow => exact fun zone isOpen => absurd isOpen (closed zone)
  case pendingOnce => exact Multiset.nodup_zero
  case pendingFresh => exact fun chunk member => absurd member (Multiset.notMem_zero _)
  case clearedKept => exact fun zone member => absurd member (Multiset.notMem_zero _)
  case clearedEmpty => exact fun zone member => absurd member (Multiset.notMem_zero _)
  case readers => exact fun _ => rfl

section Effects

variable {maxChunks : Nat} {manager : ZoneStateManager} {map : CacheMap Thread}
  {policy : ZnPolicyChunk Thread} {duties rest : Duties}

theorem ChunkCustody.heapOnce (custody : ChunkCustody maxChunks manager map policy duties) :
    policy.invalidPqueue.zones.Nodup := by
  have once := custody.once
  rw [keptZones, Multiset.nodup_add, Multiset.nodup_add] at once
  exact Multiset.coe_nodup.mp once.1.2.1

/-! ## Changes to the cache map -/

theorem Claimed.mono {after : CacheMap Thread} {place : Slot}
    (located : ∀ id location, after.Locates id location → map.Locates id location)
    (claimed : Claimed after duties place) : Claimed map duties place := by
  obtain ⟨id, location, here | pending, same⟩ := claimed
  · exact ⟨id, location, .inl (located id location here), same⟩
  · exact ⟨id, location, .inr pending, same⟩

theorem ChunkCustody.setMap (custody : ChunkCustody maxChunks manager map policy duties)
    {after : CacheMap Thread} (keys : SmallKeys after) (listed : LocatedListed after)
    (located : ∀ id location, after.Locates id location → map.Locates id location)
    (readers : after.activeReaders = map.activeReaders) :
    ChunkCustody maxChunks manager after policy duties :=
  { custody with
    keys := keys
    listed := listed
    freeClean := fun zone member chunk claimed =>
      custody.freeClean zone member chunk (claimed.mono located)
    openBelow := fun zone isOpen chunk claimed =>
      custody.openBelow zone isOpen chunk (claimed.mono located)
    pendingFresh := fun chunk member id location here =>
      custody.pendingFresh chunk member id location (located id location here)
    clearedEmpty := fun zone member chunk claimed =>
      custody.clearedEmpty zone member chunk (claimed.mono located)
    readers := fun zone => by
      rw [readers]
      exact custody.readers zone }

/-! ## Changes to the policy and to who holds what -/

theorem ChunkCustody.regroup (custody : ChunkCustody maxChunks manager map policy duties)
    {after : CacheMap Thread} {policy' : ZnPolicyChunk Thread} {duties' : Duties}
    (kept : keptZones manager policy' duties' ≤ keptZones manager policy duties)
    (allocated : policy'.invalidPqueue.Allocated)
    (poolIds : ∀ zone, zone ∈ policy'.invalidPqueue.zones ∨ zone ∈ duties'.reclaimed →
      (policy'.zonePool zone).zoneId = zone)
    (policyMax : policy'.maxZoneChunks = policy.maxZoneChunks)
    (taken : duties'.taken = duties.taken) (pending : duties'.pending = duties.pending)
    (cleared : ∀ zone ∈ duties'.cleared, zone ∈ duties.cleared)
    (clearedKept : ∀ zone ∈ duties'.cleared, zone ∈ duties'.reclaimed)
    (sameEntries : after.zoneMap = map.zoneMap) (sameData : after.dataMap = map.dataMap)
    (readers : ∀ zone, after.activeReaders zone = duties'.reading.count zone) :
    ChunkCustody maxChunks manager after policy' duties' := by
  have sameLocates : ∀ id location, after.Locates id location ↔ map.Locates id location := by
    intro id location
    simp only [CacheMap.Locates, sameEntries]
  have sameClaimed : ∀ place, Claimed after duties' place ↔ Claimed map duties place := by
    intro place
    simp only [Claimed, sameLocates, pending]
  have sameOpen : ∀ zone, OpenZone manager duties' zone ↔ OpenZone manager duties zone := by
    intro zone
    simp only [OpenZone, taken]
  constructor
  case once => exact Multiset.nodup_of_le kept custody.once
  case allocated => exact allocated
  case zoneIds => exact custody.zoneIds
  case poolIds => exact poolIds
  case managerMax => exact custody.managerMax
  case policyMax => exact policyMax.trans custody.policyMax
  case offsets =>
    rw [taken]
    exact custody.offsets
  case room => exact fun zone isOpen => custody.room zone ((sameOpen zone).mp isOpen)
  case keys =>
    constructor
    · rw [sameEntries]
      exact custody.keys.keys
    · rw [sameData]
      exact custody.keys.values
  case listed =>
    intro id location located
    rw [sameData]
    exact custody.listed id location ((sameLocates id location).mp located)
  case freeClean =>
    exact fun zone member chunk claimed =>
      custody.freeClean zone member chunk ((sameClaimed _).mp claimed)
  case openBelow =>
    exact fun zone isOpen chunk claimed =>
      custody.openBelow zone ((sameOpen zone).mp isOpen) chunk ((sameClaimed _).mp claimed)
  case pendingOnce =>
    rw [pending]
    exact custody.pendingOnce
  case pendingFresh =>
    rw [pending]
    exact fun chunk member id location located =>
      custody.pendingFresh chunk member id location ((sameLocates id location).mp located)
  case clearedKept => exact clearedKept
  case clearedEmpty =>
    exact fun zone member chunk claimed =>
      custody.clearedEmpty zone (cleared zone member) chunk ((sameClaimed _).mp claimed)
  case readers => exact readers

theorem ChunkCustody.congr (custody : ChunkCustody maxChunks manager map policy duties)
    {after : CacheMap Thread} {duties' : Duties} (taken : duties'.taken = duties.taken)
    (pending : duties'.pending = duties.pending) (filled : duties'.filled = duties.filled)
    (reclaimed : duties'.reclaimed = duties.reclaimed)
    (cleared : duties'.cleared = duties.cleared)
    (sameEntries : after.zoneMap = map.zoneMap) (sameData : after.dataMap = map.dataMap)
    (readers : ∀ zone, after.activeReaders zone = duties'.reading.count zone) :
    ChunkCustody maxChunks manager after policy duties' := by
  refine custody.regroup ?_ custody.allocated ?_ rfl taken pending ?_ ?_ sameEntries sameData
    readers
  · simp [keptZones, taken, filled, reclaimed]
  · rw [reclaimed]
    exact custody.poolIds
  · simp [cleared]
  · rw [cleared, reclaimed]
    exact custody.clearedKept

theorem ChunkCustody.addReader (custody : ChunkCustody maxChunks manager map policy rest)
    (zone : Nat) :
    ChunkCustody maxChunks manager
      { map with
        activeReaders := Function.update map.activeReaders zone (map.activeReaders zone + 1) }
      policy (reads zone + rest) := by
  refine custody.congr (by simp [reads]) (by simp [reads, pending]) (by simp [reads])
    (by simp [reads]) (by simp [reads]) rfl rfl fun other => ?_
  by_cases same : other = zone
  · subst same
    simp [reads, custody.readers]
  · simp [reads, custody.readers, same]

theorem ChunkCustody.dropReader {zone : Nat}
    (custody : ChunkCustody maxChunks manager map policy (reads zone + rest)) :
    ChunkCustody maxChunks manager (map.releaseReader zone) policy rest := by
  refine custody.congr (by simp [reads]) (by simp [reads, pending]) (by simp [reads])
    (by simp [reads]) (by simp [reads]) rfl rfl fun other => ?_
  have counted := custody.readers other
  by_cases same : other = zone
  · subst same
    simp only [reads, add_reading, Multiset.singleton_add, Multiset.count_cons_self] at counted
    simp [CacheMap.releaseReader, counted]
  · simpa [CacheMap.releaseReader, reads, same] using counted

theorem ChunkCustody.pops_iff (place : Slot) :
    ChunkCustody maxChunks manager map policy (pops place + rest) ↔
      ChunkCustody maxChunks manager map policy rest := by
  constructor
  · intro custody
    refine custody.congr (by simp [pops]) (by simp [pops, pending]) (by simp [pops])
      (by simp [pops]) (by simp [pops]) rfl rfl fun zone => ?_
    simpa [pops] using custody.readers zone
  · intro custody
    refine custody.congr (by simp [pops]) (by simp [pops, pending]) (by simp [pops])
      (by simp [pops]) (by simp [pops]) rfl rfl fun zone => ?_
    simpa [pops] using custody.readers zone

theorem ChunkCustody.setPolicy (custody : ChunkCustody maxChunks manager map policy duties)
    {after : ZnPolicyChunk Thread}
    (zones : after.invalidPqueue.zones.Perm policy.invalidPqueue.zones)
    (allocated : after.invalidPqueue.Allocated)
    (sameIds : ∀ zone, (after.zonePool zone).zoneId = (policy.zonePool zone).zoneId)
    (sameMax : after.maxZoneChunks = policy.maxZoneChunks) :
    ChunkCustody maxChunks manager map after duties := by
  refine custody.regroup ?_ allocated ?_ sameMax rfl rfl (fun _ member => member)
    custody.clearedKept rfl rfl custody.readers
  · rw [keptZones, Multiset.coe_eq_coe.mpr zones]
    rfl
  · intro zone
    rw [sameIds, zones.mem_iff]
    exact custody.poolIds zone

theorem ChunkCustody.reclaim (custody : ChunkCustody maxChunks manager map policy rest)
    {handle : Nat} {heap : ZnMinheap}
    (extracted : znMinheapExtractMin policy.invalidPqueue = some (handle, heap)) :
    ChunkCustody maxChunks manager map { policy with invalidPqueue := heap }
      (reclaims (heap.entry handle).data + rest) := by
  have zones := ZnMinheap.zones_extractMin extracted
  refine custody.regroup ?_ (custody.allocated.extractMin extracted) ?_ rfl ?_ ?_ ?_ ?_ rfl rfl
    ?_
  · apply le_of_eq
    rw [keptZones_reclaims, keptZones, keptZones, Multiset.coe_eq_coe.mpr zones,
      ← Multiset.cons_coe]
    simp only [Multiset.add_cons, Multiset.cons_add]
  · intro zone member
    apply custody.poolIds
    rw [zones.mem_iff, List.mem_cons]
    rcases member with inHeap | taken
    · exact .inl (.inr inHeap)
    · rw [add_reclaimed, reclaims, Multiset.singleton_add, Multiset.mem_cons] at taken
      rcases taken with here | other
      · exact .inl (.inl here)
      · exact .inr other
  · simp [reclaims]
  · simp [add_pending]
  · simp [reclaims]
  · intro zone member
    have cleared : zone ∈ rest.cleared := by simpa [reclaims] using member
    simp [custody.clearedKept zone cleared]
  · simpa [reclaims] using custody.readers

/-! ## Changes to the zones -/

theorem ChunkCustody.setZones (custody : ChunkCustody maxChunks manager map policy duties)
    {after : ZoneStateManager}
    (kept : keptZones after policy duties ≤ keptZones manager policy duties)
    (free : ∀ zone ∈ after.free, zone ∈ manager.free)
    (active : ∀ zone ∈ after.active, zone ∈ manager.active)
    (offsets : ∀ zone, (after.state zone).chunkOffset = (manager.state zone).chunkOffset)
    (zoneIds : ∀ zone, (after.state zone).zoneId = (manager.state zone).zoneId)
    (sameMax : after.maxZoneChunks = manager.maxZoneChunks) :
    ChunkCustody maxChunks after map policy duties := by
  have stillOpen : ∀ zone, OpenZone after duties zone → OpenZone manager duties zone := by
    intro zone either
    rcases either with inActive | taken
    · exact .inl (active zone inActive)
    · exact .inr taken
  exact { custody with
    once := Multiset.nodup_of_le kept custody.once
    zoneIds := fun zone => (zoneIds zone).trans (custody.zoneIds zone)
    managerMax := sameMax.trans custody.managerMax
    offsets := fun pair member => (custody.offsets pair member).trans (offsets pair.zone).symm
    room := fun zone isOpen => by
      rw [offsets]
      exact custody.room zone (stillOpen zone isOpen)
    freeClean := fun zone member => custody.freeClean zone (free zone member)
    openBelow := fun zone isOpen => by
      rw [offsets]
      exact custody.openBelow zone (stillOpen zone isOpen) }

/-- A zone leaves its queue and is handed out at an offset that no chunk has reached. -/
theorem ChunkCustody.handOut (custody : ChunkCustody maxChunks manager map policy rest)
    {zone offset : Nat} {active free : List Nat}
    (moved : (manager.free : Multiset Nat) + (manager.active : Multiset Nat) =
      zone ::ₘ ((free : Multiset Nat) + (active : Multiset Nat)))
    (room : offset < 2 ^ 32 ∧ (0 < maxChunks → offset < maxChunks))
    (below : ∀ chunk, Claimed map rest (zone, chunk) → chunk < offset)
    (freeBefore : ∀ other ∈ free, other ∈ manager.free)
    (activeBefore : ∀ other ∈ active, other ∈ manager.active) :
    ChunkCustody maxChunks (handedOut manager zone offset active free) map policy
      (takes ⟨(manager.state zone).zoneId, offset, 0, false⟩ + rest) := by
  rw [custody.zoneIds zone]
  have before : keptZones manager policy rest =
      zone ::ₘ ((free : Multiset Nat) + (active : Multiset Nat) +
        (policy.invalidPqueue.zones : Multiset Nat) +
        (rest.taken.map ZnPair.zone + rest.filled + rest.reclaimed)) := by
    rw [keptZones, moved]
    simp only [Multiset.cons_add]
  have once := custody.once
  rw [before, Multiset.nodup_cons] at once
  have apart : ∀ other, other ∈ active ∨ other ∈ free ∨ other ∈ rest.taken.map ZnPair.zone ∨
      other ∈ rest.reclaimed → other ≠ zone := by
    intro other member same
    subst same
    apply once.1
    simp only [Multiset.mem_add, Multiset.mem_coe]
    tauto
  have sameOffset : ∀ other, other ≠ zone →
      ((handedOut manager zone offset active free).state other).chunkOffset =
        (manager.state other).chunkOffset := by
    intro other different
    simp [handedOut, different]
  have offsetHere : ((handedOut manager zone offset active free).state zone).chunkOffset =
      offset := by
    simp [handedOut]
  have sameClaimed : ∀ place, Claimed map
      (takes ⟨zone, offset, 0, false⟩ + rest) place ↔ Claimed map rest place := by
    intro place
    simp only [Claimed, add_pending, takes_pending, zero_add]
  have openCases : ∀ other, OpenZone (handedOut manager zone offset active free)
      (takes ⟨zone, offset, 0, false⟩ + rest) other →
      other = zone ∨ other ≠ zone ∧ OpenZone manager rest other := by
    intro other either
    rcases either with inActive | taken
    · exact .inr ⟨apart other (.inl inActive), .inl (activeBefore other inActive)⟩
    · rw [add_taken, takes, Multiset.singleton_add, Multiset.map_cons, Multiset.mem_cons] at taken
      rcases taken with here | other'
      · exact .inl here
      · exact .inr ⟨apart other (.inr (.inr (.inl other'))), .inr other'⟩
  constructor
  case once =>
    have after : keptZones (handedOut manager zone offset active free) policy
        (takes ⟨zone, offset, 0, false⟩ + rest) = keptZones manager policy rest := by
      rw [keptZones_takes, before]
      rfl
    rw [after]
    exact custody.once
  case allocated => exact custody.allocated
  case zoneIds =>
    intro other
    by_cases same : other = zone
    · subst same
      simp [handedOut, custody.zoneIds]
    · simp [handedOut, same, custody.zoneIds]
  case poolIds => simpa [takes] using custody.poolIds
  case managerMax => exact custody.managerMax
  case policyMax => exact custody.policyMax
  case offsets =>
    intro pair member
    rw [add_taken, takes, Multiset.singleton_add, Multiset.mem_cons] at member
    rcases member with rfl | member
    · exact offsetHere.symm
    · rw [sameOffset _ (apart _ (.inr (.inr (.inl
        (Multiset.mem_map_of_mem ZnPair.zone member)))))]
      exact custody.offsets pair member
  case room =>
    intro other isOpen
    rcases openCases other isOpen with rfl | ⟨different, before⟩
    · rw [offsetHere]
      exact room
    · rw [sameOffset other different]
      exact custody.room other before
  case keys => exact custody.keys
  case listed => exact custody.listed
  case freeClean =>
    exact fun other member chunk claimed =>
      custody.freeClean other (freeBefore other member) chunk ((sameClaimed _).mp claimed)
  case openBelow =>
    intro other isOpen chunk claimed
    rw [sameClaimed] at claimed
    rcases openCases other isOpen with rfl | ⟨different, before⟩
    · rw [offsetHere]
      exact below chunk claimed
    · rw [sameOffset other different]
      exact custody.openBelow other before chunk claimed
  case pendingOnce => simpa [add_pending] using custody.pendingOnce
  case pendingFresh => simpa [add_pending] using custody.pendingFresh
  case clearedKept => simpa [takes] using custody.clearedKept
  case clearedEmpty =>
    intro other member chunk claimed
    rw [add_cleared, takes, zero_cleared, zero_add] at member
    exact custody.clearedEmpty other member chunk ((sameClaimed _).mp claimed)
  case readers => simpa [takes] using custody.readers

theorem ChunkCustody.getActiveZone (custody : ChunkCustody maxChunks manager map policy rest)
    {ret : GetActiveZone} {after : ZoneStateManager}
    (answer : GetActiveZoneAnswer manager ret after) :
    (∀ pair, ret = .success pair →
      ChunkCustody maxChunks after map policy (takes pair + rest)) ∧
    (ret.hands = 0 → ChunkCustody maxChunks after map policy rest) := by
  cases answer with
  | refused ret nothing =>
      refine ⟨?_, fun _ => custody⟩
      intro pair equal
      subst equal
      simp [GetActiveZone.hands] at nothing
  | dropped ret nothing zone free head =>
      refine ⟨?_, fun _ => ?_⟩
      · intro pair equal
        subst equal
        simp [GetActiveZone.hands] at nothing
      · refine custody.setZones ?_ ?_ (fun _ => id) (fun _ => rfl) (fun _ => rfl) rfl
        · simp only [keptZones, head, ← Multiset.cons_coe, Multiset.cons_add]
          exact Multiset.le_cons_self _ _
        · exact fun other member => head ▸ List.mem_cons_of_mem _ member
  | resumed zone active head =>
      refine ⟨?_, fun nothing => by simp [GetActiveZone.hands] at nothing⟩
      intro pair same
      cases same
      have isOpen : OpenZone manager rest zone := .inl (by simp [head])
      apply custody.handOut _ (custody.room zone isOpen) (custody.openBelow zone isOpen)
        (fun _ => id) fun other member => head ▸ List.mem_cons_of_mem _ member
      rw [head, ← Multiset.cons_coe, Multiset.add_cons]
  | opened zone free noActive head =>
      refine ⟨?_, fun nothing => by simp [GetActiveZone.hands] at nothing⟩
      intro pair same
      cases same
      apply custody.handOut _ ⟨by decide, id⟩ _
        (fun other member => head ▸ List.mem_cons_of_mem _ member) (by simp)
      · rw [head, noActive, ← Multiset.cons_coe, Multiset.cons_add]
      · exact fun chunk claimed =>
          absurd claimed (custody.freeClean zone (by simp [head]) chunk)

section GivingBack

variable {pair : ZnPair}

theorem ChunkCustody.holding
    (custody : ChunkCustody maxChunks manager map policy (takes pair + rest)) :
    pair.zone ∉ manager.free ∧ pair.zone ∉ manager.active ∧
      pair.zone ∉ rest.taken.map ZnPair.zone ∧ pair.zone ∉ rest.reclaimed ∧
      ∀ chunk, Claimed map rest (pair.zone, chunk) → chunk < pair.chunkOffset := by
  have once := custody.once
  rw [keptZones_takes, Multiset.nodup_cons] at once
  have isOpen : OpenZone manager (takes pair + rest) pair.zone := .inr (by simp [takes])
  have offset := custody.offsets pair (by simp [takes])
  simp only [keptZones, Multiset.mem_add, Multiset.mem_coe, not_or] at once
  refine ⟨once.1.1.1.1, once.1.1.1.2, once.1.2.1.1, once.1.2.2, fun chunk claimed => ?_⟩
  rw [offset]
  apply custody.openBelow pair.zone isOpen
  simpa only [Claimed, add_pending, takes_pending, zero_add] using claimed

/-- A chunk written to a pair becomes pending as the pair is given up; the zone may move
past the chunk and be active again, or no longer take chunks. -/
theorem ChunkCustody.settle
    (custody : ChunkCustody maxChunks manager map policy (takes pair + rest)) (id : Nat)
    {after : ZoneStateManager} {duties : Duties}
    (kept : keptZones after policy duties ≤ keptZones manager policy (takes pair + rest))
    (sameFree : after.free = manager.free)
    (active : ∀ zone ∈ after.active, zone ∈ manager.active ∨
      zone = pair.zone ∧ (after.state zone).chunkOffset = pair.chunkOffset + 1 ∧
        pair.chunkOffset + 1 < 2 ^ 32 ∧ (0 < maxChunks → pair.chunkOffset + 1 < maxChunks))
    (sameOffsets : ∀ zone, zone ≠ pair.zone →
      (after.state zone).chunkOffset = (manager.state zone).chunkOffset)
    (zoneIds : ∀ zone, (after.state zone).zoneId = (manager.state zone).zoneId)
    (sameMax : after.maxZoneChunks = manager.maxZoneChunks)
    (taken : duties.taken = rest.taken) (pending : duties.pending = (id, pair) ::ₘ rest.pending)
    (reclaimed : duties.reclaimed = rest.reclaimed) (cleared : duties.cleared = rest.cleared)
    (reading : duties.reading = rest.reading) :
    ChunkCustody maxChunks after map policy duties := by
  obtain ⟨notFree, notActive, notTaken, notReclaimed, below⟩ := custody.holding
  have pendingRest : (takes pair + rest).pending = rest.pending := by
    simp [add_pending]
  have claimedCases : ∀ zone chunk, Claimed map duties (zone, chunk) →
      (zone = pair.zone ∧ chunk = pair.chunkOffset) ∨
        Claimed map (takes pair + rest) (zone, chunk) := by
    intro zone chunk given
    obtain ⟨other, location, here | member, same⟩ := given
    · exact .inr ⟨other, location, .inl here, same⟩
    · rw [pending, Multiset.mem_cons, Prod.mk.injEq] at member
      rcases member with ⟨rfl, rfl⟩ | member
      · exact .inl (Prod.mk.inj same.symm)
      · exact .inr ⟨other, location, .inr (pendingRest ▸ member), same⟩
  have takenApart : ∀ zone, zone ∈ rest.taken.map ZnPair.zone → zone ≠ pair.zone :=
    fun zone member same => notTaken (same ▸ member)
  have stillOpen : ∀ zone, zone ≠ pair.zone → OpenZone after duties zone →
      OpenZone manager (takes pair + rest) zone := by
    intro zone apart either
    rcases either with inActive | member
    · rcases active zone inActive with before | here
      · exact .inl before
      · exact absurd here.1 apart
    · rw [taken] at member
      exact .inr (by simp [takes, member])
  have openHere : OpenZone after duties pair.zone →
      (after.state pair.zone).chunkOffset = pair.chunkOffset + 1 ∧
        pair.chunkOffset + 1 < 2 ^ 32 ∧ (0 < maxChunks → pair.chunkOffset + 1 < maxChunks) := by
    intro either
    rcases either with inActive | member
    · rcases active _ inActive with before | here
      · exact absurd before notActive
      · exact here.2
    · rw [taken] at member
      exact absurd member notTaken
  constructor
  case once => exact Multiset.nodup_of_le kept custody.once
  case allocated => exact custody.allocated
  case zoneIds => exact fun zone => (zoneIds zone).trans (custody.zoneIds zone)
  case poolIds =>
    rw [reclaimed]
    simpa [takes] using custody.poolIds
  case managerMax => exact sameMax.trans custody.managerMax
  case policyMax => exact custody.policyMax
  case offsets =>
    intro other member
    rw [taken] at member
    rw [sameOffsets _ (takenApart _ (Multiset.mem_map_of_mem ZnPair.zone member))]
    exact custody.offsets other (by simp [takes, member])
  case room =>
    intro zone isOpen
    by_cases same : zone = pair.zone
    · subst same
      obtain ⟨offset, small, fits⟩ := openHere isOpen
      rw [offset]
      exact ⟨small, fits⟩
    · rw [sameOffsets zone same]
      exact custody.room zone (stillOpen zone same isOpen)
  case keys => exact custody.keys
  case listed => exact custody.listed
  case freeClean =>
    intro zone member chunk claimed
    rw [sameFree] at member
    rcases claimedCases _ _ claimed with here | before
    · exact notFree (here.1 ▸ member)
    · exact custody.freeClean zone member chunk before
  case openBelow =>
    intro zone isOpen chunk claimed
    by_cases same : zone = pair.zone
    · subst same
      rw [(openHere isOpen).1]
      rcases claimedCases _ _ claimed with here | before
      · rw [here.2]
        exact Nat.lt_succ_self _
      · apply Nat.lt_succ_of_lt
        apply below
        simpa only [Claimed, pendingRest] using before
    · rw [sameOffsets zone same]
      rcases claimedCases _ _ claimed with here | before
      · exact absurd here.1 same
      · exact custody.openBelow zone (stillOpen zone same isOpen) chunk before
  case pendingOnce =>
    rw [pending, Multiset.map_cons, Multiset.nodup_cons]
    refine ⟨fun member => ?_, pendingRest ▸ custody.pendingOnce⟩
    obtain ⟨⟨other, location⟩, inRest, same⟩ := Multiset.mem_map.mp member
    exact Nat.lt_irrefl _ (below pair.chunkOffset ⟨other, location, .inr inRest, same⟩)
  case pendingFresh =>
    intro chunk member other location located
    rw [pending, Multiset.mem_cons] at member
    rcases member with rfl | member
    · exact fun same =>
        Nat.lt_irrefl _ (below pair.chunkOffset ⟨other, location, .inl located, same⟩)
    · exact custody.pendingFresh chunk (pendingRest ▸ member) other location located
  case clearedKept =>
    rw [cleared, reclaimed]
    simpa [takes] using custody.clearedKept
  case clearedEmpty =>
    intro zone member chunk claimed
    rw [cleared] at member
    rcases claimedCases _ _ claimed with here | before
    · have kept : zone ∈ (takes pair + rest).reclaimed :=
        custody.clearedKept zone (by simpa [takes] using member)
      apply notReclaimed
      rw [← here.1]
      simpa [takes] using kept
    · exact custody.clearedEmpty zone (by simpa [takes] using member) chunk before
  case readers =>
    rw [reading]
    simpa [takes] using custody.readers

theorem ChunkCustody.returnActiveZone (fits : maxChunks < 2 ^ 32)
    (custody : ChunkCustody maxChunks manager map policy (takes pair + rest)) (id : Nat)
    {finishRet ret : Int} {after : ZoneStateManager}
    (returned : ReturnSpec finishRet manager pair.zone ret after) :
    ChunkCustody maxChunks after map policy
      (returns (id, pair) + fillsIf maxChunks pair + rest) := by
  have offset := custody.offsets pair (by simp [takes])
  obtain ⟨small, room⟩ := custody.room pair.zone (.inr (by simp [takes]))
  rw [← offset] at small room
  have duties : (returns (id, pair) + fillsIf maxChunks pair + rest).taken = rest.taken ∧
      (returns (id, pair) + fillsIf maxChunks pair + rest).pending = (id, pair) ::ₘ rest.pending ∧
      (returns (id, pair) + fillsIf maxChunks pair + rest).reclaimed = rest.reclaimed ∧
      (returns (id, pair) + fillsIf maxChunks pair + rest).cleared = rest.cleared ∧
      (returns (id, pair) + fillsIf maxChunks pair + rest).reading = rest.reading := by
    refine ⟨?_, ?_, ?_, ?_, ?_⟩
    · simp [returns]
    · simp [add_pending]
    · simp [returns]
    · simp [returns]
    · simp [returns]
  obtain ⟨taken, pending, reclaimed, cleared, reading⟩ := duties
  -- a zone that is not active again may be on its way to the heap
  have closed : ∀ (entry : ZnZone) (writes : Int),
      entry.zoneId = (manager.state pair.zone).zoneId →
      ChunkCustody maxChunks
        { manager.setZone pair.zone entry with writesOccurring := writes } map policy
        (returns (id, pair) + fillsIf maxChunks pair + rest) := by
    intro entry writes sameId
    refine custody.settle id ?_ rfl (fun zone member => .inl member) ?_ ?_ rfl taken pending
      reclaimed cleared reading
    · rw [add_assoc, keptZones_returns, keptZones_takes]
      unfold fillsIf
      split
      · rw [keptZones_fills]
        exact le_refl _
      · rw [zero_add]
        exact Multiset.le_cons_self _ _
    · intro zone apart
      simp [apart]
    · intro zone
      by_cases same : zone = pair.zone
      · subst same
        simp [sameId]
      · simp [same]
  cases returned with
  | alreadyFull last full => exact closed _ _ rfl
  | finished last notFull done => exact closed _ _ rfl
  | failed last notFull failure => exact closed _ _ rfl
  | reopened next advanced notLast =>
      rw [← offset] at advanced
      have managerMax := custody.managerMax
      have noWrap : next = pair.chunkOffset + 1 ∧ pair.chunkOffset + 1 < 2 ^ 32 ∧
          pair.chunkOffset + 1 ≠ maxChunks := by
        unfold u32 at advanced
        omega
      have stays : fillsIf maxChunks pair = 0 := if_neg noWrap.2.2
      refine custody.settle id ?_ rfl ?_ ?_ ?_ rfl taken pending reclaimed cleared reading
      · apply le_of_eq
        rw [stays, add_zero, keptZones_returns, keptZones_takes]
        exact @keptZones_active _ policy rest manager _ _ ⟨rfl, rfl⟩
      · intro zone member
        rcases List.mem_append.mp member with before | here
        · exact .inl before
        · rw [List.mem_singleton.mp here]
          refine .inr ⟨rfl, ?_, noWrap.2.1, fun positive => ?_⟩
          · simpa [returnedZone] using noWrap.1
          · have below := room positive
            omega
      · intro zone apart
        simp [apart]
      · intro zone
        by_cases same : zone = pair.zone
        · subst same
          simp [returnedZone]
        · simp [same]

theorem ChunkCustody.failedToWrite
    (custody : ChunkCustody maxChunks manager map policy (takes pair + rest)) :
    ChunkCustody maxChunks (zsmFailedToWrite manager pair).state map policy rest := by
  rw [zsmFailedToWrite_state]
  obtain ⟨notFree, _, _, _, _⟩ := custody.holding
  have sameOffset : ∀ zone, ((manager.setZone pair.zone
      (returnedZone (manager.state pair.zone) .active
        (manager.state pair.zone).chunkOffset)).state zone).chunkOffset =
      (manager.state zone).chunkOffset := by
    intro zone
    by_cases same : zone = pair.zone
    · subst same
      simp [returnedZone]
    · simp [same]
  have sameClaimed : ∀ place, Claimed map rest place →
      Claimed map (takes pair + rest) place := by
    intro place claimed
    simpa only [Claimed, add_pending, takes_pending, zero_add] using claimed
  have stillOpen : ∀ zone, zone ∈ manager.active ++ [pair.zone] ∨
      zone ∈ rest.taken.map ZnPair.zone → OpenZone manager (takes pair + rest) zone := by
    intro zone either
    rcases either with inActive | taken
    · rcases List.mem_append.mp inActive with before | here
      · exact .inl before
      · exact .inr (by simp [takes, List.mem_singleton.mp here])
    · exact .inr (by
        rw [add_taken, Multiset.map_add]
        exact Multiset.mem_add.mpr (.inr taken))
  constructor
  case once =>
    refine (congrArg Multiset.Nodup (@keptZones_active _ policy rest manager _ pair.zone ?_)).mpr ?_
    · exact ⟨rfl, rfl⟩
    · rw [← keptZones_takes]
      exact custody.once
  case allocated => exact custody.allocated
  case zoneIds =>
    intro zone
    by_cases same : zone = pair.zone
    · subst same
      simp [returnedZone, custody.zoneIds]
    · simp [same, custody.zoneIds]
  case poolIds => simpa [takes] using custody.poolIds
  case managerMax => exact custody.managerMax
  case policyMax => exact custody.policyMax
  case offsets =>
    intro other member
    exact (custody.offsets other (by simp [takes, member])).trans (sameOffset _).symm
  case room =>
    intro zone isOpen
    have room := custody.room zone (stillOpen zone isOpen)
    rw [← sameOffset zone] at room
    exact room
  case keys => exact custody.keys
  case listed => exact custody.listed
  case freeClean =>
    exact fun zone member chunk claimed =>
      custody.freeClean zone member chunk (sameClaimed _ claimed)
  case openBelow =>
    intro zone isOpen chunk claimed
    have below := custody.openBelow zone (stillOpen zone isOpen) chunk (sameClaimed _ claimed)
    rw [← sameOffset zone] at below
    exact below
  case pendingOnce => simpa [add_pending] using custody.pendingOnce
  case pendingFresh => simpa [add_pending] using custody.pendingFresh
  case clearedKept => simpa [takes] using custody.clearedKept
  case clearedEmpty =>
    intro zone member chunk claimed
    exact custody.clearedEmpty zone (by simpa [takes] using member) chunk (sameClaimed _ claimed)
  case readers => simpa [takes] using custody.readers

end GivingBack

/-! ## Recording and inserting -/

section Recording

variable {id : Nat} {location : ZnPair}

theorem ChunkCustody.record
    (custody : ChunkCustody maxChunks manager map policy
      (returns (id, location) + fillsIf maxChunks location + rest))
    {after : ZnPolicyChunk Thread}
    (updated : znPolicyChunkUpdate policy location .write = some after) :
    ChunkCustody maxChunks manager map after (records (id, location) + rest) := by
  have poolIds : ∀ zone, zone ∈ policy.invalidPqueue.zones ∨ zone = location.zone ∨
      zone ∈ rest.reclaimed → ((recordChunk policy location).zonePool zone).zoneId = zone := by
    intro zone member
    rw [zoneId_recordChunk]
    split
    next same => exact same.symm
    next apart =>
        apply custody.poolIds
        rcases member with inHeap | here | reclaimed
        · exact .inl inHeap
        · exact absurd here apart
        · exact .inr (Multiset.mem_add.mpr (.inr reclaimed))
  have clearedKept : ∀ zone ∈ (records (id, location) + rest).cleared,
      zone ∈ (records (id, location) + rest).reclaimed := by
    intro zone member
    have kept := custody.clearedKept zone (Multiset.mem_add.mpr (.inr
      (by simpa [records] using member)))
    simpa [records, returns] using kept
  have duties : (records (id, location) + rest).taken =
        (returns (id, location) + fillsIf maxChunks location + rest).taken ∧
      (records (id, location) + rest).pending =
        (returns (id, location) + fillsIf maxChunks location + rest).pending ∧
      (∀ zone ∈ (records (id, location) + rest).cleared,
        zone ∈ (returns (id, location) + fillsIf maxChunks location + rest).cleared) ∧
      ∀ zone, map.activeReaders zone = (records (id, location) + rest).reading.count zone := by
    have readers := custody.readers
    refine ⟨?_, ?_, ?_, ?_⟩
    · simp [returns, records]
    · simp [add_pending]
    · simp [returns, records]
    · simpa [returns, records] using readers
  obtain ⟨taken, pending, cleared, readers⟩ := duties
  unfold znPolicyChunkUpdate at updated
  dsimp only at updated
  split at updated
  next => simp at updated
  next =>
      split at updated
      next last =>
          cases Option.some.inj updated
          rw [custody.policyMax] at last
          obtain ⟨zones, allocated⟩ := custody.allocated.zones_insert location.zone
            ((recordChunk policy location).zonePool location.zone).chunksInUse
          refine custody.regroup ?_ allocated ?_ rfl taken pending cleared clearedKept rfl rfl
            readers
          · have filled : fillsIf maxChunks location = fills location.zone := if_pos last
            rw [keptZones_records, filled, add_assoc, keptZones_returns, keptZones_fills]
            apply le_of_eq
            have queued :
                ((enterHeap (recordChunk policy location) location.zone).invalidPqueue.zones :
                  Multiset Nat) = location.zone ::ₘ (policy.invalidPqueue.zones : Multiset Nat) :=
              Multiset.coe_eq_coe.mpr zones
            simp only [keptZones, queued, Multiset.add_cons, Multiset.cons_add]
          · intro zone member
            rw [zoneId_enterHeap]
            apply poolIds
            rcases member with inHeap | reclaimed
            · rcases List.mem_cons.mp (zones.mem_iff.mp inHeap) with here | before
              · exact .inr (.inl here)
              · exact .inl before
            · exact .inr (.inr (by simpa [records] using reclaimed))
      next =>
          cases Option.some.inj updated
          refine custody.regroup ?_ custody.allocated ?_ rfl taken pending cleared clearedKept
            rfl rfl readers
          · rw [keptZones_records, add_assoc, keptZones_returns]
            unfold fillsIf
            split
            · rw [keptZones_fills]
              exact Multiset.le_cons_self _ _
            · rw [zero_add]
              exact le_refl _
          · intro zone member
            apply poolIds
            rcases member with inHeap | reclaimed
            · exact .inl inHeap
            · exact .inr (.inr (by simpa [records] using reclaimed))

theorem ChunkCustody.locate (custody : ChunkCustody maxChunks manager map policy duties)
    (small : id < 2 ^ 32)
    (kept : keptZones manager policy rest ≤ keptZones manager policy duties)
    (taken : ∀ pair ∈ rest.taken, pair ∈ duties.taken)
    (pending : ∀ chunk ∈ rest.pending,
      chunk ∈ duties.pending ∧ chunk.2.place ≠ location.place)
    (pendingOnce : (rest.pending.map fun chunk => chunk.2.place).Nodup)
    (reclaimed : rest.reclaimed = duties.reclaimed) (cleared : rest.cleared = duties.cleared)
    (reading : rest.reading = duties.reading)
    (unlocated : ∀ other place, map.Locates other place → place.place ≠ location.place)
    (inside : Claimed map duties location.place ∨
      location.zone ∉ manager.free ∧ ¬ OpenZone manager rest location.zone ∧
        location.zone ∉ duties.cleared) :
    ChunkCustody maxChunks manager (map.located id location) policy rest := by
  have claimedCases : ∀ zone chunk, Claimed (map.located id location) rest (zone, chunk) →
      Claimed map duties (zone, chunk) ∨ zone = location.zone ∧
        location.zone ∉ manager.free ∧ ¬ OpenZone manager rest location.zone ∧
          location.zone ∉ duties.cleared := by
    intro zone chunk given
    obtain ⟨other, place, here | member, same⟩ := given
    · rcases CacheMap.located_locates here with ⟨rfl, rfl⟩ | ⟨_, before⟩
      · rcases inside with claimed | outside
        · exact .inl (same ▸ claimed)
        · exact .inr ⟨congrArg Prod.fst same.symm, outside⟩
      · exact .inl ⟨other, place, .inl before, same⟩
    · exact .inl ⟨other, place, .inr (pending _ member).1, same⟩
  have stillOpen : ∀ zone, OpenZone manager rest zone → OpenZone manager duties zone := by
    intro zone either
    rcases either with inActive | member
    · exact .inl inActive
    · obtain ⟨pair, inRest, rfl⟩ := Multiset.mem_map.mp member
      exact .inr (Multiset.mem_map_of_mem _ (taken pair inRest))
  exact {
    once := Multiset.nodup_of_le kept custody.once
    allocated := custody.allocated
    zoneIds := custody.zoneIds
    poolIds := by
      rw [reclaimed]
      exact custody.poolIds
    managerMax := custody.managerMax
    policyMax := custody.policyMax
    offsets := fun pair member => custody.offsets pair (taken pair member)
    room := fun zone isOpen => custody.room zone (stillOpen zone isOpen)
    keys := custody.keys.located small location
    listed := by
      intro other place here
      rw [CacheMap.located_lookup]
      rcases CacheMap.located_locates here with ⟨rfl, rfl⟩ | ⟨_, before⟩
      · exact if_pos ⟨rfl, rfl⟩
      · rw [if_neg fun same => unlocated other place before (Prod.ext same.1 same.2)]
        exact custody.listed other place before
    freeClean := by
      intro zone member chunk claimed
      rcases claimedCases zone chunk claimed with before | ⟨rfl, notFree, _⟩
      · exact custody.freeClean zone member chunk before
      · exact notFree member
    openBelow := by
      intro zone isOpen chunk claimed
      rcases claimedCases zone chunk claimed with before | ⟨rfl, _, notOpen, _⟩
      · exact custody.openBelow zone (stillOpen zone isOpen) chunk before
      · exact absurd isOpen notOpen
    pendingOnce := pendingOnce
    pendingFresh := by
      intro chunk member other place here
      rcases CacheMap.located_locates here with ⟨_, rfl⟩ | ⟨_, before⟩
      · exact (pending chunk member).2.symm
      · exact custody.pendingFresh chunk (pending chunk member).1 other place before
    clearedKept := by
      rw [cleared, reclaimed]
      exact custody.clearedKept
    clearedEmpty := by
      intro zone member chunk claimed
      rw [cleared] at member
      rcases claimedCases zone chunk claimed with before | ⟨rfl, _, _, notCleared⟩
      · exact custody.clearedEmpty zone member chunk before
      · exact notCleared member
    readers := by
      rw [reading]
      exact custody.readers }

theorem ChunkCustody.insert (small : id < 2 ^ 32)
    (custody : ChunkCustody maxChunks manager map policy (records (id, location) + rest)) :
    ChunkCustody maxChunks manager (map.located id location) policy rest := by
  have pending : (records (id, location) + rest).pending = (id, location) ::ₘ rest.pending := by
    simp [add_pending]
  have here : (id, location) ∈ (records (id, location) + rest).pending := by simp [pending]
  have once := custody.pendingOnce
  rw [pending, Multiset.map_cons, Multiset.nodup_cons] at once
  refine custody.locate small (by simp) (by simp [records]) ?_ once.2 (by simp [records])
    (by simp [records]) (by simp [records]) ?_ (.inl ⟨id, location, .inr here, rfl⟩)
  · intro chunk member
    refine ⟨by simp [pending, member], fun same => once.1 ?_⟩
    exact Multiset.mem_map.mpr ⟨chunk, member, same⟩
  · exact custody.pendingFresh (id, location) here

theorem ChunkCustody.migrate (small : id < 2 ^ 32)
    (custody : ChunkCustody maxChunks manager map policy (takes location + rest)) :
    ChunkCustody maxChunks manager (map.located id location) policy rest := by
  obtain ⟨notFree, notActive, notTaken, notReclaimed, below⟩ := custody.holding
  have pending : (takes location + rest).pending = rest.pending := by
    simp [add_pending]
  refine custody.locate small ?_ (by simp +contextual [takes]) ?_ (pending ▸ custody.pendingOnce)
    (by simp [takes]) (by simp [takes]) (by simp [takes]) ?_ (.inr ⟨notFree, ?_, ?_⟩)
  · rw [keptZones_takes]
    exact Multiset.le_cons_self _ _
  · intro chunk member
    refine ⟨pending ▸ member, fun same => ?_⟩
    exact Nat.lt_irrefl _ (below location.chunkOffset ⟨chunk.1, chunk.2, .inr member, same⟩)
  · exact fun other place located same =>
      Nat.lt_irrefl _ (below location.chunkOffset ⟨other, place, .inl located, same⟩)
  · intro either
    rcases either with inActive | taken
    · exact notActive inActive
    · exact notTaken taken
  · intro cleared
    have kept := custody.clearedKept location.zone cleared
    exact notReclaimed (by simpa [takes] using kept)

end Recording

/-! ## Clearing and resetting a zone -/

section Reclaiming

variable {zone : Nat}

/-- Clearing the reclaimed zone leaves it in nobody's use, if no chunk of it is pending. -/
theorem ChunkCustody.clearZone
    (custody : ChunkCustody maxChunks manager map policy (reclaims zone + rest))
    (settled : ∀ chunk ∈ rest.pending, chunk.2.zone ≠ zone)
    {outcome : Outcome (CacheMap Thread) Unit}
    (cleared : znCachemapClearZone map zone = some outcome) :
    ChunkCustody maxChunks manager outcome.state policy
      (clears zone + (reclaims zone + rest)) := by
  obtain ⟨_, dataMap, readers⟩ := custody.keys.clearZone_state cleared
  have located : ∀ id location, outcome.state.Locates id location →
      map.Locates id location ∧ location.zone ≠ zone :=
    fun id location => custody.keys.clearZone_locates custody.listed cleared
  have listed : LocatedListed outcome.state := by
    intro id location here
    obtain ⟨before, apart⟩ := located id location here
    rw [dataMap, Function.update_of_ne apart]
    exact custody.listed id location before
  have shrunk := custody.setMap (custody.keys.clearZone cleared) listed
    (fun id location here => (located id location here).1) readers
  have pending : (clears zone + (reclaims zone + rest)).pending = rest.pending := by
    simp [add_pending]
  have sameClaimed : ∀ place, Claimed outcome.state (clears zone + (reclaims zone + rest)) place →
      Claimed outcome.state (reclaims zone + rest) place := by
    intro place claimed
    simpa only [Claimed, add_pending, clears_pending, zero_add] using claimed
  exact { shrunk with
    once := by
      rw [keptZones_clears]
      exact shrunk.once
    poolIds := by simpa [clears] using shrunk.poolIds
    offsets := by simpa [clears] using shrunk.offsets
    room := by simpa [OpenZone, clears] using shrunk.room
    freeClean := fun other member chunk claimed =>
      shrunk.freeClean other member chunk (sameClaimed _ claimed)
    openBelow := fun other isOpen chunk claimed =>
      shrunk.openBelow other (by simpa [OpenZone, clears] using isOpen) chunk
        (sameClaimed _ claimed)
    pendingOnce := by simpa [add_pending] using shrunk.pendingOnce
    pendingFresh := by simpa [add_pending] using shrunk.pendingFresh
    clearedKept := by
      intro other member
      rw [add_cleared, clears, Multiset.singleton_add, Multiset.mem_cons] at member
      rcases member with rfl | member
      · simp [clears, reclaims]
      · simpa [clears] using shrunk.clearedKept other member
    clearedEmpty := by
      intro other member chunk claimed
      rw [add_cleared, clears, Multiset.singleton_add, Multiset.mem_cons] at member
      rcases member with rfl | member
      · obtain ⟨id, location, here | inRest, same⟩ := claimed
        · exact (located id location here).2 (congrArg Prod.fst same)
        · exact settled (id, location) (pending ▸ inRest) (congrArg Prod.fst same)
      · exact shrunk.clearedEmpty other member chunk (sameClaimed _ claimed)
    readers := by simpa [clears] using shrunk.readers }

theorem ChunkCustody.resetZone
    (custody : ChunkCustody maxChunks manager map policy (clears zone + (reclaims zone + rest)))
    (restCleared : ∀ other ∈ rest.cleared, other ∈ rest.reclaimed)
    {resetRet : Int} {after : ZoneStateManager} (evicted : EvictSpec resetRet manager zone after) :
    ChunkCustody maxChunks after map policy rest := by
  have dropped : ChunkCustody maxChunks manager map policy rest := by
    refine custody.regroup ?_ custody.allocated ?_ rfl ?_ ?_ ?_ restCleared rfl rfl ?_
    · rw [keptZones_clears, keptZones_reclaims]
      exact Multiset.le_cons_self _ _
    · intro other member
      apply custody.poolIds
      rcases member with inHeap | reclaimed
      · exact .inl inHeap
      · exact .inr (by simp [clears, reclaims, reclaimed])
    · simp [clears, reclaims]
    · simp [add_pending]
    · intro other member
      simp [clears, reclaims, member]
    · simpa [clears, reclaims] using custody.readers
  have once := custody.once
  rw [keptZones_clears, keptZones_reclaims] at once
  have notOpen : ¬ OpenZone manager rest zone := by
    have outside := (Multiset.nodup_cons.mp once).1
    simp only [keptZones, Multiset.mem_add, Multiset.mem_coe, not_or] at outside
    intro either
    rcases either with inActive | taken
    · exact outside.1.1.2 inActive
    · exact outside.2.1.1 taken
  have empty : ∀ chunk, ¬ Claimed map rest (zone, chunk) := by
    intro chunk claimed
    apply custody.clearedEmpty zone (by simp [clears]) chunk
    simpa only [Claimed, add_pending, clears_pending, reclaims_pending, zero_add] using claimed
  cases evicted with
  | alreadyFree => exact dropped
  | failed =>
      refine dropped.setZones (le_of_eq rfl) (fun _ => id) (fun _ => id) ?_ ?_ rfl
      · intro other
        by_cases same : other = zone
        · subst same
          simp
        · simp [same]
      · intro other
        by_cases same : other = zone
        · subst same
          simp
        · simp [same]
  | reset =>
      have elsewhere : ∀ other, other ≠ zone →
          (freed manager zone).state other = manager.state other := by
        intro other apart
        simp [freed, apart]
      exact { dropped with
        once := by
          refine (congrArg Multiset.Nodup
            (@keptZones_free _ policy rest manager _ zone ?_)).mpr once
          exact ⟨rfl, rfl⟩
        zoneIds := by
          intro other
          by_cases same : other = zone
          · subst same
            simp [freed, returnedZone, custody.zoneIds]
          · rw [elsewhere other same]
            exact custody.zoneIds other
        offsets := by
          intro pair member
          have apart : pair.zone ≠ zone := fun same =>
            notOpen (.inr (same ▸ Multiset.mem_map_of_mem ZnPair.zone member))
          rw [elsewhere _ apart]
          exact dropped.offsets pair member
        room := by
          intro other isOpen
          have apart : other ≠ zone := fun same => notOpen (same ▸ isOpen)
          rw [elsewhere _ apart]
          exact dropped.room other isOpen
        freeClean := by
          intro other member chunk
          rcases List.mem_append.mp member with before | here
          · exact dropped.freeClean other before chunk
          · rw [List.mem_singleton.mp here]
            exact empty chunk
        openBelow := by
          intro other isOpen
          have apart : other ≠ zone := fun same => notOpen (same ▸ isOpen)
          rw [elsewhere _ apart]
          exact dropped.openBelow other isOpen }

end Reclaiming

end Effects

end ZNCache
