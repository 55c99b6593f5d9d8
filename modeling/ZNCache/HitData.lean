import ZNCache.ZoneOwnership

/-!
# What a cache hit reads

A located chunk is on the disk as long as anyone may read it, provided that no
evictor clears a zone while a chunk of it is between the giving back of its pair
and its insert into the cache map.
-/

set_option autoImplicit false

namespace ZNCache

open Tally Transition

variable {Thread Policy : Type}

def Stored (cache : ZnCache Thread Policy) (location : ZnPair) (id : Nat) : Prop :=
  cache.disk location.zone location.chunkOffset = some id ∧
    Occupied cache.zoneState location.zone location.chunkOffset

def EvictPc.cleared : EvictPc → Multiset Nat
  | start | loop _ _ | clear _ _ _ => 0
  | wait _ _ zone | reset _ _ zone => {zone}

def EvictPc.drained : EvictPc → Multiset Nat
  | start | loop _ _ | clear _ _ _ | wait _ _ _ => 0
  | reset _ _ zone => {zone}

def ThreadPc.evicting {Item : Type} (weight : EvictPc → Multiset Item) :
    ThreadPc EvictPc → Multiset Item
  | idle => 0
  | get _ => 0
  | evict _ code => weight code

structure Underway where
  reads : Multiset (Nat × ZnPair)
  pending : Multiset (Nat × ZnPair)
  written : Multiset (Nat × ZnPair)
  cleared : Multiset Nat
  drained : Multiset Nat

def ThreadPc.underway (pc : ThreadPc EvictPc) : Underway where
  reads := pc.reads
  pending := pc.pending
  written := pc.written
  cleared := pc.evicting EvictPc.cleared
  drained := pc.evicting EvictPc.drained

def Underway.add (one two : Underway) : Underway where
  reads := one.reads + two.reads
  pending := one.pending + two.pending
  written := one.written + two.written
  cleared := one.cleared + two.cleared
  drained := one.drained + two.drained

section Add

variable (rest : Underway) (chunk : Nat × ZnPair) (zone : Nat)

@[simp] theorem Underway.add_nothing : Underway.add ⟨0, 0, 0, 0, 0⟩ rest = rest := by
  simp [Underway.add]

@[simp] theorem Underway.add_reads : Underway.add ⟨{chunk}, 0, 0, 0, 0⟩ rest =
    { rest with reads := chunk ::ₘ rest.reads } := by
  simp [Underway.add]

@[simp] theorem Underway.add_pending : Underway.add ⟨0, {chunk}, 0, 0, 0⟩ rest =
    { rest with pending := chunk ::ₘ rest.pending } := by
  simp [Underway.add]

@[simp] theorem Underway.add_written : Underway.add ⟨0, 0, {chunk}, 0, 0⟩ rest =
    { rest with written := chunk ::ₘ rest.written } := by
  simp [Underway.add]

@[simp] theorem Underway.add_cleared : Underway.add ⟨0, 0, 0, {zone}, 0⟩ rest =
    { rest with cleared := zone ::ₘ rest.cleared } := by
  simp [Underway.add]

@[simp] theorem Underway.add_drained : Underway.add ⟨0, 0, 0, {zone}, {zone}⟩ rest =
    { rest with cleared := zone ::ₘ rest.cleared, drained := zone ::ₘ rest.drained } := by
  simp [Underway.add]

end Add

def readersOf (zone : Nat) (reads : Multiset (Nat × ZnPair)) : Nat :=
  reads.countP fun chunk => chunk.2.zone = zone

theorem readersOf_cons (zone id : Nat) (location : ZnPair) (reads : Multiset (Nat × ZnPair)) :
    readersOf zone ((id, location) ::ₘ reads) =
      readersOf zone reads + if location.zone = zone then 1 else 0 :=
  Multiset.countP_cons ..

theorem readersOf_eq_zero {zone : Nat} {reads : Multiset (Nat × ZnPair)} :
    readersOf zone reads = 0 ↔ ∀ chunk ∈ reads, chunk.2.zone ≠ zone :=
  Multiset.countP_eq_zero

/-- Every location in use is stored; a cleared zone is in nobody's use but its
readers', and a drained one has none of those. -/
structure HitData (cache : ZnCache Thread Policy) (underway : Underway) : Prop where
  listed : LocatedListed cache.cacheMap
  mapped : ∀ id location, cache.cacheMap.Locates id location → Stored cache location id
  written : ∀ chunk ∈ underway.written,
    cache.disk chunk.2.zone chunk.2.chunkOffset = some chunk.1
  pending : ∀ chunk ∈ underway.pending, Stored cache chunk.2 chunk.1
  reading : ∀ chunk ∈ underway.reads, Stored cache chunk.2 chunk.1
  readers : ∀ zone, cache.cacheMap.activeReaders zone = readersOf zone underway.reads
  unmapped : ∀ zone ∈ underway.cleared, ∀ id location,
    cache.cacheMap.Locates id location → location.zone ≠ zone
  settled : ∀ zone ∈ underway.cleared, ∀ chunk ∈ underway.pending, chunk.2.zone ≠ zone
  unread : ∀ zone ∈ underway.drained, ∀ chunk ∈ underway.reads, chunk.2.zone ≠ zone
  drainedCleared : ∀ zone ∈ underway.drained, zone ∈ underway.cleared

section Step

variable {cache after : ZnCache Thread Policy} {underway : Underway}

theorem HitData.mono (hits : HitData cache underway)
    (sameData : after.cacheMap.dataMap = cache.cacheMap.dataMap)
    (sameReaders : after.cacheMap.activeReaders = cache.cacheMap.activeReaders)
    (located : ∀ id location, after.cacheMap.Locates id location →
      cache.cacheMap.Locates id location)
    (stored : ∀ location id, Stored cache location id → Stored after location id)
    (written : ∀ chunk ∈ underway.written,
      after.disk chunk.2.zone chunk.2.chunkOffset = some chunk.1) :
    HitData after underway where
  listed := fun id location here => by
    rw [sameData]
    exact hits.listed id location (located id location here)
  mapped := fun id location here => stored _ _ (hits.mapped id location (located _ _ here))
  written := written
  pending := fun chunk member => stored _ _ (hits.pending chunk member)
  reading := fun chunk member => stored _ _ (hits.reading chunk member)
  readers := fun zone => by
    rw [sameReaders]
    exact hits.readers zone
  unmapped := fun zone member id location here =>
    hits.unmapped zone member id location (located id location here)
  settled := hits.settled
  unread := hits.unread
  drainedCleared := hits.drainedCleared

theorem HitData.same (hits : HitData cache underway)
    (sameMap : after.cacheMap = cache.cacheMap) (sameDisk : after.disk = cache.disk)
    (sameZones : after.zoneState = cache.zoneState) : HitData after underway := by
  refine hits.mono (by rw [sameMap]) (by rw [sameMap]) (by rw [sameMap]; exact fun _ _ => id)
    ?_ ?_
  · unfold Stored
    rw [sameDisk, sameZones]
    exact fun _ _ => id
  · rw [sameDisk]
    exact hits.written

theorem HitData.keepZones (hits : HitData cache underway) {manager : ZoneStateManager}
    (occupied : ∀ zone chunk, Occupied cache.zoneState zone chunk →
      Occupied manager zone chunk) :
    HitData { cache with zoneState := manager } underway :=
  hits.mono rfl rfl (fun _ _ => id) (fun _ _ stored => ⟨stored.1, occupied _ _ stored.2⟩)
    hits.written

/-! ### Reading -/

/-- A find that returns a location makes its caller one more reader of the zone. -/
theorem HitData.addReader (hits : HitData cache underway) {id : Nat} {location : ZnPair}
    (located : cache.cacheMap.Locates id location) :
    HitData
      { cache with
        cacheMap := { cache.cacheMap with
          activeReaders := Function.update cache.cacheMap.activeReaders location.zone
            (cache.cacheMap.activeReaders location.zone + 1) } }
      { underway with reads := (id, location) ::ₘ underway.reads } where
  listed := hits.listed
  mapped := hits.mapped
  written := hits.written
  pending := hits.pending
  reading := by
    intro chunk member
    rcases Multiset.mem_cons.mp member with rfl | member
    · exact hits.mapped id location located
    · exact hits.reading chunk member
  readers := by
    intro zone
    rw [readersOf_cons]
    by_cases same : location.zone = zone
    · subst same
      simp [hits.readers]
    · simpa [same, Ne.symm same] using hits.readers zone
  unmapped := hits.unmapped
  settled := hits.settled
  unread := by
    intro zone drained chunk member
    rcases Multiset.mem_cons.mp member with rfl | member
    · exact hits.unmapped zone (hits.drainedCleared zone drained) id location located
    · exact hits.unread zone drained chunk member
  drainedCleared := hits.drainedCleared

theorem HitData.dropReader (hits : HitData cache underway) {id : Nat} {location : ZnPair}
    {reads : Multiset (Nat × ZnPair)} (isRead : underway.reads = (id, location) ::ₘ reads) :
    HitData { cache with cacheMap := cache.cacheMap.releaseReader location.zone }
      { underway with reads := reads } where
  listed := hits.listed
  mapped := hits.mapped
  written := hits.written
  pending := hits.pending
  reading := fun chunk member =>
    hits.reading chunk (isRead ▸ Multiset.mem_cons_of_mem member)
  readers := by
    intro zone
    have counted := hits.readers zone
    rw [isRead, readersOf_cons] at counted
    by_cases same : location.zone = zone
    · subst same
      simp [CacheMap.releaseReader, counted]
    · simpa [CacheMap.releaseReader, same, Ne.symm same] using counted
  unmapped := hits.unmapped
  settled := hits.settled
  unread := fun zone drained chunk member =>
    hits.unread zone drained chunk (isRead ▸ Multiset.mem_cons_of_mem member)
  drainedCleared := hits.drainedCleared

/-! ### Writing -/

theorem HitData.writeChunk (hits : HitData cache underway) {location : ZnPair}
    {content : Option Nat}
    (fresh : ¬ Occupied cache.zoneState location.zone location.chunkOffset)
    (apart : ∀ chunk ∈ underway.written, chunk.2.zone ≠ location.zone) :
    HitData (cache.writeChunk location content) underway := by
  have elsewhere : ∀ zone chunk, ¬ (zone = location.zone ∧ chunk = location.chunkOffset) →
      (cache.writeChunk location content).disk zone chunk = cache.disk zone chunk :=
    fun zone chunk other => (cache.writeChunk_disk _ _ zone chunk).trans (if_neg other)
  refine hits.mono rfl rfl (fun _ _ => id) ?_ ?_
  · intro place id given
    obtain ⟨onDisk, occupied⟩ := given
    refine ⟨?_, occupied⟩
    rw [elsewhere, onDisk]
    intro given
    obtain ⟨sameZone, sameChunk⟩ := given
    rw [sameZone, sameChunk] at occupied
    exact fresh occupied
  · intro chunk member
    rw [elsewhere, hits.written chunk member]
    exact fun same => apart chunk member same.1

theorem HitData.addWritten (hits : HitData cache underway) {id : Nat} {location : ZnPair}
    (onDisk : cache.disk location.zone location.chunkOffset = some id) :
    HitData cache { underway with written := (id, location) ::ₘ underway.written } :=
  { hits with
    written := by
      intro chunk member
      rcases Multiset.mem_cons.mp member with rfl | member
      · exact onDisk
      · exact hits.written chunk member }

/-- Giving a pair back turns its written chunk into a pending one. -/
theorem HitData.settle (hits : HitData cache underway) {id : Nat} {location : ZnPair}
    {written : Multiset (Nat × ZnPair)}
    (isWritten : underway.written = (id, location) ::ₘ written)
    (occupied : Occupied cache.zoneState location.zone location.chunkOffset)
    (uncleared : location.zone ∉ underway.cleared) :
    HitData cache { underway with
      written := written
      pending := (id, location) ::ₘ underway.pending } :=
  { hits with
    written := fun chunk member =>
      hits.written chunk (isWritten ▸ Multiset.mem_cons_of_mem member)
    pending := by
      intro chunk member
      rcases Multiset.mem_cons.mp member with rfl | member
      · exact ⟨hits.written (id, location) (isWritten ▸ Multiset.mem_cons_self _ _), occupied⟩
      · exact hits.pending chunk member
    settled := by
      intro zone cleared chunk member
      rcases Multiset.mem_cons.mp member with rfl | member
      · exact fun same => uncleared (same ▸ cleared)
      · exact hits.settled zone cleared chunk member }

theorem HitData.insert (hits : HitData cache underway) {id : Nat} {location : ZnPair}
    {pending : Multiset (Nat × ZnPair)}
    (isPending : underway.pending = (id, location) ::ₘ pending) :
    HitData { cache with cacheMap := cache.cacheMap.located id location }
      { underway with pending := pending } := by
  have member : (id, location) ∈ underway.pending := isPending ▸ Multiset.mem_cons_self _ _
  have stored : Stored cache location id := hits.pending _ member
  constructor
  case listed =>
    intro other place located
    rw [CacheMap.located_lookup]
    rcases CacheMap.located_locates located with ⟨rfl, rfl⟩ | ⟨apart, before⟩
    · exact if_pos ⟨rfl, rfl⟩
    · have otherStored := hits.mapped other place before
      rw [if_neg, hits.listed other place before]
      intro given
      obtain ⟨sameZone, sameChunk⟩ := given
      have onDisk := otherStored.1
      rw [sameZone, sameChunk, stored.1] at onDisk
      exact apart (Option.some.inj onDisk).symm
  case mapped =>
    intro other place located
    rcases CacheMap.located_locates located with ⟨rfl, rfl⟩ | ⟨_, before⟩
    · exact stored
    · exact hits.mapped other place before
  case written => exact hits.written
  case pending =>
    exact fun chunk later => hits.pending chunk (isPending ▸ Multiset.mem_cons_of_mem later)
  case reading => exact hits.reading
  case readers => exact hits.readers
  case unmapped =>
    intro zone cleared other place located
    rcases CacheMap.located_locates located with ⟨rfl, rfl⟩ | ⟨_, before⟩
    · exact hits.settled zone cleared _ member
    · exact hits.unmapped zone cleared other place before
  case settled =>
    exact fun zone cleared chunk later =>
      hits.settled zone cleared chunk (isPending ▸ Multiset.mem_cons_of_mem later)
  case unread => exact hits.unread
  case drainedCleared => exact hits.drainedCleared

/-! ### Evicting -/

/-- Clearing a zone with no chunk pending leaves it in its readers' hands only. -/
theorem HitData.clear (hits : HitData cache underway) (smallKeys : SmallKeys cache.cacheMap)
    {zone : Nat} {answer : Outcome (CacheMap Thread) Unit}
    (cleared : znCachemapClearZone cache.cacheMap zone = some answer)
    (settled : ∀ chunk ∈ underway.pending, chunk.2.zone ≠ zone) :
    HitData { cache with cacheMap := answer.state }
      { underway with cleared := zone ::ₘ underway.cleared } := by
  obtain ⟨_, dataMap, activeReaders⟩ := smallKeys.clearZone_state cleared
  have located : ∀ id location, answer.state.Locates id location →
      cache.cacheMap.Locates id location ∧ location.zone ≠ zone :=
    fun id location => smallKeys.clearZone_locates hits.listed cleared
  constructor
  case listed =>
    intro id location here
    obtain ⟨before, apart⟩ := located id location here
    rw [dataMap, Function.update_of_ne apart]
    exact hits.listed id location before
  case mapped =>
    exact fun id location here => hits.mapped id location (located id location here).1
  case written => exact hits.written
  case pending => exact hits.pending
  case reading => exact hits.reading
  case readers =>
    intro other
    rw [activeReaders]
    exact hits.readers other
  case unmapped =>
    intro other member id location here
    rcases Multiset.mem_cons.mp member with rfl | member
    · exact (located id location here).2
    · exact hits.unmapped other member id location (located id location here).1
  case settled =>
    intro other member
    rcases Multiset.mem_cons.mp member with rfl | member
    · exact settled
    · exact hits.settled other member
  case unread => exact hits.unread
  case drainedCleared =>
    exact fun other member => Multiset.mem_cons_of_mem (hits.drainedCleared other member)

theorem HitData.drain (hits : HitData cache underway) {zone : Nat}
    (gone : cache.cacheMap.activeReaders zone ≤ 0) (cleared : zone ∈ underway.cleared) :
    HitData cache { underway with drained := zone ::ₘ underway.drained } :=
  { hits with
    unread := by
      intro other member
      rcases Multiset.mem_cons.mp member with rfl | member
      · have counted := hits.readers other
        have nobody : readersOf other underway.reads = 0 := by omega
        exact readersOf_eq_zero.mp nobody
      · exact hits.unread other member
    drainedCleared := by
      intro other member
      rcases Multiset.mem_cons.mp member with rfl | member
      · exact cleared
      · exact hits.drainedCleared other member }

theorem HitData.forget (hits : HitData cache underway) {cleared drained : Multiset Nat}
    (fewerCleared : ∀ zone ∈ cleared, zone ∈ underway.cleared)
    (fewerDrained : ∀ zone ∈ drained, zone ∈ underway.drained ∧ zone ∈ cleared) :
    HitData cache { underway with cleared := cleared, drained := drained } :=
  { hits with
    unmapped := fun zone member => hits.unmapped zone (fewerCleared zone member)
    settled := fun zone member => hits.settled zone (fewerCleared zone member)
    unread := fun zone member => hits.unread zone (fewerDrained zone member).1
    drainedCleared := fun zone member => (fewerDrained zone member).2 }

/-- Nothing stored in use is lost when a cleared and drained zone is reset. -/
theorem HitData.reset (hits : HitData cache underway) {zone : Nat}
    (drained : zone ∈ underway.drained)
    (unwritten : ∀ chunk ∈ underway.written, chunk.2.zone ≠ zone)
    (freedZone : (zsmEvict 0 cache.zoneState zone).state = freed cache.zoneState zone) :
    HitData (cache.evictZone 0 zone) underway := by
  have cleared := hits.drainedCleared zone drained
  have elsewhere : ∀ other, other ≠ zone →
      (cache.evictZone 0 zone).disk other = cache.disk other := by
    intro other apart
    simp only [ZnCache.evictZone]
    split
    · rfl
    · exact Function.update_of_ne apart _ _
  have stored : ∀ location id, location.zone ≠ zone → Stored cache location id →
      Stored (cache.evictZone 0 zone) location id := by
    intro location id apart given
    obtain ⟨onDisk, occupied⟩ := given
    refine ⟨by rw [elsewhere _ apart, onDisk], ?_⟩
    simp only [ZnCache.evictZone, freedZone]
    exact freed_occupied apart occupied
  constructor
  case listed => exact hits.listed
  case mapped =>
    intro id location located
    exact stored _ _ (hits.unmapped zone cleared id location located)
      (hits.mapped id location located)
  case written =>
    intro chunk member
    rw [elsewhere _ (unwritten chunk member)]
    exact hits.written chunk member
  case pending =>
    exact fun chunk member => stored _ _ (hits.settled zone cleared chunk member)
      (hits.pending chunk member)
  case reading =>
    exact fun chunk member => stored _ _ (hits.unread zone drained chunk member)
      (hits.reading chunk member)
  case readers => exact hits.readers
  case unmapped => exact hits.unmapped
  case settled => exact hits.settled
  case unread => exact hits.unread
  case drainedCleared => exact hits.drainedCleared

end Step

/-! ## Steps of a thread -/

section ThreadSteps

variable [DecidableEq Thread] {config : CacheConfig} {thread : Thread}
  {cache after : PromotionalCache Thread} {environment : Environment} {rest : Underway}
  {pairs : Multiset ZnPair} {writers : Multiset Nat}

omit [DecidableEq Thread] in
theorem FindSpec.hitData {id : Nat} {result : FindResult} {map : CacheMap Thread}
    (found : FindSpec thread cache.cacheMap id result map) (hits : HitData cache rest) :
    HitData { cache with cacheMap := map }
      ((afterFind id result : ThreadPc EvictPc).underway.add rest) := by
  obtain ⟨sameData, located⟩ := found.locates
  cases found with
  | loc entry found isLoc =>
      change HitData _ (Underway.add ⟨{(id, entry.location)}, 0, 0, 0, 0⟩ rest)
      rw [Underway.add_reads]
      exact hits.addReader ⟨entry, found, isLoc, rfl⟩
  | wait entry found busy =>
      change HitData _ (Underway.add ⟨0, 0, 0, 0, 0⟩ rest)
      rw [Underway.add_nothing]
      exact hits.mono sameData rfl located (fun _ _ stored => stored) hits.written
  | claim entry unclaimed busy =>
      change HitData _ (Underway.add ⟨0, 0, 0, 0, 0⟩ rest)
      rw [Underway.add_nothing]
      exact hits.mono sameData rfl located (fun _ _ stored => stored) hits.written

omit [DecidableEq Thread] in
theorem HitData.moveOn {pc next : ThreadPc EvictPc} (hits : HitData cache (pc.underway.add rest))
    (sameMap : after.cacheMap = cache.cacheMap) (sameDisk : after.disk = cache.disk)
    (sameZones : after.zoneState = cache.zoneState) (same : next.underway = pc.underway) :
    HitData after (next.underway.add rest) := by
  rw [same]
  exact hits.same sameMap sameDisk sameZones

theorem GetStep.hitData {pc : GetPc} {next : ThreadPc EvictPc}
    (fits : cache.zoneState.maxZoneChunks < 2 ^ 32)
    (taken : GetStep (promotionalCode config) thread cache environment pc after next)
    (success : environment.commandRet = 0) (small : ∀ id ∈ pc.seeks, id < 2 ^ 32)
    (sound : ZonesSound cache.zoneState (pc.holds + pairs))
    (agrees : CacheMapAgrees cache.cacheMap (pc.writes + writers))
    (writtenHeld : ∀ chunk ∈ rest.written, chunk.2 ∈ pairs)
    (clearedFull : ∀ zone ∈ rest.cleared, IsFull cache.zoneState zone)
    (hits : HitData cache ((ThreadPc.get pc : ThreadPc EvictPc).underway.add rest)) :
    HitData after (next.underway.add rest) := by
  have occupied : ∀ zone chunk, Occupied cache.zoneState zone chunk →
      Occupied after.zoneState zone chunk := fun _ _ => taken.occupied success sound fits
  have apart : ∀ location, pc.holds = {location} → ∀ chunk ∈ rest.written,
      chunk.2.zone ≠ location.zone := by
    intro location holds chunk member same
    have heldNodup := sound.partition.heldNodup
    rw [holds, Multiset.singleton_add, Multiset.map_cons, Multiset.nodup_cons] at heldNodup
    exact heldNodup.1 (same ▸ Multiset.mem_map_of_mem ZnPair.zone (writtenHeld chunk member))
  have fresh : ∀ location, pc.holds = {location} →
      ¬ Occupied cache.zoneState location.zone location.chunkOffset := by
    intro location holds
    exact sound.partition.not_occupied (by simp [holds])
  cases taken with
  | find id =>
      change HitData cache (Underway.add ⟨0, 0, 0, 0, 0⟩ rest) at hits
      rw [Underway.add_nothing] at hits
      exact (znCachemapFind_spec thread cache.cacheMap
        (small id (by simp [GetPc.seeks]))).hitData hits
  | release id location data =>
      change HitData cache (Underway.add ⟨{(id, location)}, 0, 0, 0, 0⟩ rest) at hits
      change HitData _ (Underway.add ⟨0, 0, 0, 0, 0⟩ rest)
      rw [Underway.add_reads] at hits
      rw [Underway.add_nothing]
      exact hits.dropReader rfl
  | acquire id =>
      refine (hits.keepZones occupied).moveOn rfl rfl rfl ?_
      cases (zsmGetActiveZone environment.commandRet cache.zoneState).ret <;> rfl
  | write id location =>
      have fresh := fresh location rfl
      change HitData cache (Underway.add ⟨0, 0, 0, 0, 0⟩ rest) at hits
      change HitData _ (Underway.add ⟨0, 0, {(id, location)}, 0, 0⟩ rest)
      rw [Underway.add_nothing] at hits
      rw [Underway.add_written]
      refine (hits.writeChunk fresh (apart location rfl)).addWritten ?_
      simp [ZnCache.writeChunk]
  | writeFailed id location =>
      have fresh := fresh location rfl
      change HitData cache (Underway.add ⟨0, 0, 0, 0, 0⟩ rest) at hits
      change HitData _ (Underway.add ⟨0, 0, 0, 0, 0⟩ rest)
      rw [Underway.add_nothing] at hits ⊢
      exact hits.writeChunk fresh (apart location rfl)
  | giveBack id location =>
      have sound' : ZonesSound cache.zoneState (location ::ₘ pairs) := sound
      have here := (sound'.returnActiveZone_occupied fits).1
      have writing := (sound'.outstanding (Multiset.mem_cons_self _ _)).1
      have moved := hits.keepZones occupied
      change HitData _ (Underway.add ⟨0, 0, {(id, location)}, 0, 0⟩ rest) at moved
      change HitData _ (Underway.add ⟨0, {(id, location)}, 0, 0, 0⟩ rest)
      rw [Underway.add_written] at moved
      rw [Underway.add_pending]
      refine moved.settle rfl (success ▸ here) fun cleared => ?_
      have full := clearedFull location.zone cleared
      rw [IsFull, writing] at full
      cases full.2
  | insert id location answer inserted =>
      have agrees' : CacheMapAgrees cache.cacheMap (id ::ₘ writers) := agrees
      cases Option.some.inj (inserted.symm.trans (agrees'.insert location))
      change HitData cache (Underway.add ⟨0, {(id, location)}, 0, 0, 0⟩ rest) at hits
      change HitData _ (Underway.add ⟨0, 0, 0, 0, 0⟩ rest)
      rw [Underway.add_pending] at hits
      rw [Underway.add_nothing]
      exact hits.insert rfl
  | undoZone id location => exact (hits.keepZones occupied).moveOn rfl rfl rfl rfl
  | undoMap id answer failed =>
      have agrees' : CacheMapAgrees cache.cacheMap (id ::ₘ writers) := agrees
      obtain ⟨outcome, entry, ran, _, _, emptied, state⟩ := agrees'.fail
      cases Option.some.inj (failed.symm.trans ran)
      have kept : HitData { cache with cacheMap := answer.state }
          ((ThreadPc.get (.undoMap id) : ThreadPc EvictPc).underway.add rest) := by
        rw [state]
        refine hits.mono rfl rfl (fun other location located => ?_)
          (fun _ _ stored => stored) hits.written
        exact locates_setEntry (by simp [emptied]) located
      exact kept.moveOn rfl rfl rfl rfl
  | woken | read | touch | countHit | countMiss | record => exact hits.moveOn rfl rfl rfl rfl

omit [DecidableEq Thread] in
theorem FgEvictStep.hitData {pc : EvictPc} {next : Option EvictPc}
    (taken : FgEvictStep cache environment pc after next) (caller : Option Nat)
    (success : environment.commandRet = 0)
    (sound : ZonesSound cache.zoneState pairs)
    (smallKeys : SmallKeys cache.cacheMap)
    (settled : ∀ i freeZones zone, pc = .clear i freeZones zone →
      ∀ chunk ∈ rest.pending, chunk.2.zone ≠ zone)
    (writtenHeld : ∀ chunk ∈ rest.written, chunk.2 ∈ pairs)
    (takenFull : ∀ zone ∈ pc.takes, IsFull cache.zoneState zone)
    (restDrained : ∀ zone ∈ rest.drained, zone ∈ rest.cleared)
    (hits : HitData cache ((ThreadPc.evict caller pc).underway.add rest)) :
    HitData after ((next.elim (afterEvict caller) (ThreadPc.evict caller)).underway.add rest) := by
  have nothing : (afterEvict caller : ThreadPc EvictPc).underway = ⟨0, 0, 0, 0, 0⟩ := by
    cases caller <;> rfl
  cases taken with
  | start | take => exact hits.moveOn rfl rfl rfl rfl
  | enough | nothing => exact hits.moveOn rfl rfl rfl nothing
  | clear i freeZones zone answer cleared =>
      change HitData cache (Underway.add ⟨0, 0, 0, 0, 0⟩ rest) at hits
      change HitData _ (Underway.add ⟨0, 0, 0, {zone}, 0⟩ rest)
      rw [Underway.add_nothing] at hits
      rw [Underway.add_cleared]
      exact hits.clear smallKeys cleared (settled i freeZones zone rfl)
  | wait i freeZones zone gone =>
      change HitData cache (Underway.add ⟨0, 0, 0, {zone}, 0⟩ rest) at hits
      change HitData _ (Underway.add ⟨0, 0, 0, {zone}, {zone}⟩ rest)
      rw [Underway.add_cleared] at hits
      rw [Underway.add_drained]
      exact hits.drain gone (Multiset.mem_cons_self _ _)
  | reset i freeZones zone =>
      change HitData cache (Underway.add ⟨0, 0, 0, {zone}, {zone}⟩ rest) at hits
      rw [Underway.add_drained] at hits
      change HitData _ (Underway.add ⟨0, 0, 0, 0, 0⟩ rest)
      rw [Underway.add_nothing, success]
      have full := takenFull zone (by simp [EvictPc.takes])
      refine HitData.forget (hits.reset (Multiset.mem_cons_self _ _) ?_ (sound.evict full).2)
        ?_ ?_
      · intro chunk member same
        have writing := (sound.outstanding (writtenHeld chunk member)).1
        rw [same, full.2] at writing
        cases writing
      · exact fun other member => Multiset.mem_cons_of_mem member
      · exact fun other member => ⟨Multiset.mem_cons_of_mem member, restDrained other member⟩

end ThreadSteps

/-! ## Runs -/

section Run

variable [Fintype Thread] [DecidableEq Thread] {config : CacheConfig}

def underwayOf (threads : Thread → ThreadPc EvictPc) : Underway where
  reads := tally ThreadPc.reads threads
  pending := tally ThreadPc.pending threads
  written := tally ThreadPc.written threads
  cleared := tally (ThreadPc.evicting EvictPc.cleared) threads
  drained := tally (ThreadPc.evicting EvictPc.drained) threads

def othersUnderway (threads : Thread → ThreadPc EvictPc) (thread : Thread) : Underway where
  reads := others ThreadPc.reads threads thread
  pending := others ThreadPc.pending threads thread
  written := others ThreadPc.written threads thread
  cleared := others (ThreadPc.evicting EvictPc.cleared) threads thread
  drained := others (ThreadPc.evicting EvictPc.drained) threads thread

theorem underwayOf_split (threads : Thread → ThreadPc EvictPc) (thread : Thread) :
    underwayOf threads = (threads thread).underway.add (othersUnderway threads thread) := by
  simp only [underwayOf, Underway.add, ThreadPc.underway, othersUnderway, ← tally_split]

theorem underwayOf_update (threads : Thread → ThreadPc EvictPc) (thread : Thread)
    (pc : ThreadPc EvictPc) :
    underwayOf (Function.update threads thread pc) =
      pc.underway.add (othersUnderway threads thread) := by
  simp only [underwayOf, tally_update, Underway.add, ThreadPc.underway, othersUnderway]

def GetPc.fetched : GetPc → Multiset (Nat × Option Nat)
  | touch id _ data | release id _ data | countHit id data => {(id, data)}
  | find _ | asleep _ | read _ _ | acquire _ | write _ _ | countMiss _ _ => 0
  | giveBack _ _ | record _ _ | insert _ _ | undoZone _ _ | undoMap _ => 0

/-- Located chunks, the chunks of readers in place, and what readers got so far are
those of the identifiers asked for; a failed read gets nothing. -/
structure HitsRight (system : PromotionalSystem Thread) : Prop where
  mapped : ∀ id location, system.cache.cacheMap.Locates id location →
    system.cache.disk location.zone location.chunkOffset = some id
  reading : ∀ thread id location, (id, location) ∈ (system.threads thread).reads →
    system.cache.disk location.zone location.chunkOffset = some id
  fetched : ∀ thread id data, (id, data) ∈ (system.threads thread).lift GetPc.fetched →
    data = none ∨ data = some id

structure HitsSound (config : CacheConfig) (system : PromotionalSystem Thread) : Prop where
  owned : ZonesOwned config system
  map : MapSound (2 ^ 32) system
  hits : HitData system.cache (underwayOf system.threads)
  fetched : ∀ thread id data, (id, data) ∈ (system.threads thread).lift GetPc.fetched →
    data = none ∨ data = some id

/-- An evictor that is about to clear a zone finds no chunk of it between the giving
back of its pair and its insert. -/
def ClearsSettled (system : PromotionalSystem Thread) (action : Thread × Choice) : Prop :=
  ∀ caller i freeZones zone,
    system.threads action.1 = .evict caller (.clear i freeZones zone) →
    ∀ thread, ∀ chunk ∈ (system.threads thread).pending, chunk.2.zone ≠ zone

omit [Fintype Thread] [DecidableEq Thread] in
theorem ThreadPc.written_held {pc : ThreadPc EvictPc} {chunk : Nat × ZnPair}
    (member : chunk ∈ pc.written) : chunk.2 ∈ pc.holds := by
  cases pc with
  | idle => cases member
  | evict => cases member
  | get pc =>
      cases pc with
      | countMiss | giveBack =>
          rw [Multiset.mem_singleton.mp member]
          exact Multiset.mem_singleton_self _
      | _ => cases member

omit [Fintype Thread] [DecidableEq Thread] in
theorem ThreadPc.cleared_owned {pc : ThreadPc EvictPc} {zone : Nat}
    (member : zone ∈ pc.evicting EvictPc.cleared) : zone ∈ pc.ownsFull config := by
  cases pc with
  | idle => cases member
  | get => cases member
  | evict caller code =>
      cases code with
      | wait | reset => exact member
      | _ => cases member

omit [Fintype Thread] [DecidableEq Thread] in
theorem ThreadPc.drained_cleared {pc : ThreadPc EvictPc} {zone : Nat}
    (member : zone ∈ pc.evicting EvictPc.drained) : zone ∈ pc.evicting EvictPc.cleared := by
  cases pc with
  | idle => cases member
  | get => cases member
  | evict caller code =>
      cases code with
      | reset => exact member
      | _ => cases member

variable {system next : PromotionalSystem Thread}

theorem HitsSound.ofThread (sound : HitsSound config system) (thread : Thread) :
    (∀ chunk ∈ (othersUnderway system.threads thread).written,
      chunk.2 ∈ others ThreadPc.holds system.threads thread) ∧
    (∀ zone ∈ (othersUnderway system.threads thread).cleared,
      IsFull system.cache.zoneState zone) ∧
    ∀ zone ∈ (othersUnderway system.threads thread).drained,
      zone ∈ (othersUnderway system.threads thread).cleared := by
  refine ⟨fun chunk member => ?_, fun zone member => ?_, fun zone member => ?_⟩
  · obtain ⟨other, apart, written⟩ := mem_others.mp member
    exact mem_others.mpr ⟨other, apart, ThreadPc.written_held written⟩
  · obtain ⟨other, _, cleared⟩ := mem_others.mp member
    exact sound.owned.owner.mpr (.inr ⟨other, ThreadPc.cleared_owned cleared⟩)
  · obtain ⟨other, apart, drained⟩ := mem_others.mp member
    exact mem_others.mpr ⟨other, apart, ThreadPc.drained_cleared drained⟩

theorem HitsSound.hitData_step (fits : config.maxZoneChunks < 2 ^ 32)
    (sound : HitsSound config system) {thread : Thread} {choice : Choice}
    (success : ∀ environment, choice = .run environment → environment.commandRet = 0)
    (settled : ClearsSettled system (thread, choice))
    {cache : PromotionalCache Thread} {pc : ThreadPc EvictPc}
    (moved : ThreadStep (promotionalCode config) thread system.cache (system.threads thread)
      choice cache pc) :
    HitData cache (pc.underway.add (othersUnderway system.threads thread)) := by
  obtain ⟨writtenHeld, clearedFull, restDrained⟩ := sound.ofThread thread
  have hits := sound.hits
  have zones := sound.owned.zones
  have agrees := sound.map.split thread
  have small := sound.map.seeks thread
  have mine : ∀ zone, zone ∈ (system.threads thread).ownsFull config →
      IsFull system.cache.zoneState zone := fun zone member =>
    sound.owned.owner.mpr (.inr ⟨thread, member⟩)
  have pendingApart : ∀ caller i freeZones zone,
      system.threads thread = .evict caller (.clear i freeZones zone) →
      ∀ chunk ∈ (othersUnderway system.threads thread).pending, chunk.2.zone ≠ zone := by
    intro caller i freeZones zone here chunk member
    obtain ⟨other, _, pending⟩ := mem_others.mp member
    exact settled caller i freeZones zone here other chunk pending
  rw [underwayOf_split _ thread] at hits
  rw [tally_split _ _ thread] at zones
  generalize system.threads thread = here at *
  cases moved with
  | call | callEvict => exact hits.moveOn rfl rfl rfl rfl
  | wakeUp id =>
      obtain ⟨sameData, sameReaders, located⟩ :=
        CacheMap.wakeUp_locates system.cache.cacheMap thread id
      exact hits.mono sameData sameReaders located (fun _ _ stored => stored) hits.written
  | get ran =>
      exact ran.hitData (sound.owned.maxChunks ▸ fits) (success _ rfl) small zones agrees
        writtenHeld clearedFull hits
  | evict caller next ran =>
      exact (fgEvictStep_spec ran).hitData caller (success _ rfl)
        zones sound.map.agrees.smallKeys
        (fun i freeZones zone same => pendingApart caller i freeZones zone (same ▸ rfl))
        (fun chunk member => Multiset.mem_add.mpr (.inr (writtenHeld chunk member)))
        mine restDrained hits
  | evicted caller ran =>
      exact (fgEvictStep_spec ran).hitData caller (success _ rfl)
        zones sound.map.agrees.smallKeys
        (fun i freeZones zone same => pendingApart caller i freeZones zone (same ▸ rfl))
        (fun chunk member => Multiset.mem_add.mpr (.inr (writtenHeld chunk member)))
        mine restDrained hits

omit [Fintype Thread] in
theorem ThreadStep.fetched {thread : Thread} {cache after : PromotionalCache Thread}
    {choice : Choice} {pc next : ThreadPc EvictPc}
    (moved : ThreadStep (promotionalCode config) thread cache pc choice after next)
    {id : Nat} {data : Option Nat} (member : (id, data) ∈ next.lift GetPc.fetched) :
    (id, data) ∈ pc.lift GetPc.fetched ∨ data = none ∨
      ∃ location, (id, location) ∈ pc.reads ∧
        data = cache.disk location.zone location.chunkOffset := by
  cases moved with
  | call | callEvict | wakeUp | evict => cases member
  | evicted caller =>
      rw [ThreadPc.lift_afterEvict fun _ => rfl] at member
      cases member
  | get ran =>
      cases ran with
      | find other =>
          rw [ThreadPc.lift_afterFind (fun _ => rfl) rfl rfl] at member
          cases member
      | acquire other =>
          generalize (zsmGetActiveZone _ cache.zoneState).ret = ret at member
          cases ret <;> cases member
      | read other location seen source =>
          cases Multiset.mem_singleton.mp member
          rcases source with failed | read
          · exact .inr (.inl failed)
          · exact .inr (.inr ⟨location, Multiset.mem_singleton_self _, read⟩)
      | touch | release => exact .inl member
      | woken | countHit | write | writeFailed | countMiss => cases member
      | giveBack | record | insert | undoZone | undoMap => cases member

theorem HitsSound.step (fits : config.maxZoneChunks < 2 ^ 32)
    (sound : HitsSound config system) {action : Thread × Choice}
    (success : CommandsSucceed action) (settled : ClearsSettled system action)
    (taken : system.step (promotionalCode config) action = some next) :
    HitsSound config next := by
  have owned := sound.owned.step fits success taken
  have map : MapSound (2 ^ 32) next :=
    sound.map.step (promotionalCode_keepsMap config).here (Nat.le_refl _)
      (System.getsBelow_of_step taken) taken
  obtain ⟨thread, choice⟩ := action
  obtain ⟨cache, pc, rfl, moved⟩ := System.step_spec taken
  refine ⟨owned, map, ?_, ?_⟩
  · simp only [System.advance]
    rw [underwayOf_update]
    exact sound.hitData_step fits success settled moved
  · intro other id data member
    by_cases same : other = thread
    · subst same
      simp only [System.advance, Function.update_self] at member
      rcases moved.fetched member with before | failed | ⟨location, reading, read⟩
      · exact sound.fetched other id data before
      · exact .inl failed
      · right
        rw [read]
        exact (sound.hits.reading (id, location) (mem_tally.mpr ⟨other, reading⟩)).1
    · simp only [System.advance, Function.update_of_ne same] at member
      exact sound.fetched other id data member

omit [DecidableEq Thread] in
theorem HitsSound.init (begins : promotionalSystem config = some system) :
    HitsSound config system := by
  obtain ⟨_, _, emptyMap, _, idle⟩ := System.init_spec begins
  have nothing : ∀ {Item : Type} (weight : ThreadPc EvictPc → Multiset Item),
      weight .idle = 0 → tally weight system.threads = 0 := by
    intro Item weight zero
    exact tally_const_zero _ _ fun thread => by rw [idle thread, zero]
  refine ⟨ZonesOwned.init begins, MapSound.init begins, ?_, fun thread id data member => ?_⟩
  · have nobody : underwayOf system.threads = ⟨0, 0, 0, 0, 0⟩ := by
      simp only [underwayOf]
      rw [nothing _ rfl, nothing _ rfl, nothing _ rfl, nothing _ rfl, nothing _ rfl]
    rw [nobody]
    constructor <;> simp [emptyMap, LocatedListed, CacheMap.Locates, znCachemapInit, readersOf]
  · rw [idle thread] at member
    cases member

/-- In every interleaving in which each clear finds the zone's chunks inserted, a hit
reads the chunk of its identifier, which stays in place until the reader is done. -/
theorem hits_right (fits : config.maxZoneChunks < 2 ^ 32)
    (reached : PromotionalRun config
      (fun system action => CommandsSucceed action ∧ ClearsSettled system action) system) :
    HitsRight system := by
  have sound : HitsSound config system :=
    reached.invariant (fun _ begins => HitsSound.init begins)
      fun system action next sound permitted taken =>
        sound.step fits permitted.1 permitted.2 taken
  refine ⟨fun id location located => (sound.hits.mapped id location located).1, ?_,
    sound.fetched⟩
  intro thread id location member
  exact (sound.hits.reading (id, location) (mem_tally.mpr ⟨thread, member⟩)).1

end Run

/-! ## Deciding whether a clear is settled -/

instance [Fintype Thread] [DecidableEq Thread] (system : PromotionalSystem Thread)
    (action : Thread × Choice) : Decidable (ClearsSettled system action) :=
  match here : system.threads action.1 with
  | .evict _ (.clear _ _ zone) =>
      decidable_of_iff
        (∀ thread, ∀ chunk ∈ (system.threads thread).pending, chunk.2.zone ≠ zone)
        (by
          unfold ClearsSettled
          rw [here]
          exact ⟨fun apart _ _ _ _ same => by cases same; exact apart,
            fun settled => settled _ _ _ _ rfl⟩)
  | .idle | .get _ | .evict _ .start | .evict _ (.loop _ _) | .evict _ (.wait _ _ _)
  | .evict _ (.reset _ _ _) =>
      isTrue fun _ _ _ _ given => by
        rw [here] at given
        cases given

/-- A thread misses identifier 7, asks for it again and is about to read its chunk. -/
def missThenHit (worker : Thread) : List (Thread × Choice) :=
  (worker, .get 7) :: List.replicate 7 (worker, .run .smooth) ++
    [(worker, .get 7), (worker, .run .smooth)]

/-- A thread misses identifier 7 and another one evicts its zone.  The first misses 8, asks
for it again and is about to read its chunk. -/
def evictThenHit (worker evictor : Thread) : List (Thread × Choice) :=
  (worker, .get 7) :: List.replicate 7 (worker, .run .smooth) ++
    (evictor, .evict) :: List.replicate 6 (evictor, .run .smooth) ++
    (worker, .get 8) :: List.replicate 7 (worker, .run .smooth) ++
    [(worker, .get 8), (worker, .run .smooth)]

theorem hits_right_evictThenHit :
    ∃ system : PromotionalSystem (Fin 2),
      System.execute (promotionalCode oneChunkConfig) oneChunkConfig (promotionalInit 1)
        (evictThenHit 0 1) = some system ∧
      (system.cache.cacheMap.zoneMap 7).map ZoneMapResult.type = some .empty ∧
      system.threads 0 = .get (.read 8 ⟨0, 0, 0, false⟩) ∧ HitsRight system := by
  cases executed : System.execute (promotionalCode oneChunkConfig) oneChunkConfig
      (promotionalInit 1) (evictThenHit (0 : Fin 2) 1) with
  | none => cases executed
  | some system =>
      refine ⟨system, rfl, ?_, ?_, ?_⟩
      · cases Option.some.inj executed
        rfl
      · cases Option.some.inj executed
        rfl
      · refine @hits_right _ _ _ oneChunkConfig _ (by decide)
          (System.reach_of_execute executed fun start begins => ?_)
        cases Option.some.inj begins
        decide +kernel

/-- Thread 0 fills the only zone and records it.  Thread 1 evicts the zone: it clears
it, waits for nobody and resets it.  Then thread 0 maps its identifier to the chunk. -/
def earlyEviction (worker evictor : Thread) : List (Thread × Choice) :=
  (worker, .get 7) :: List.replicate 6 (worker, .run .smooth) ++
    (evictor, .evict) :: List.replicate 5 (evictor, .run .smooth) ++ [(worker, .run .smooth)]

theorem hits_wrong_after_earlyEviction :
    ∃ system : PromotionalSystem (Fin 2),
      PromotionalRun oneChunkConfig (fun _ action => CommandsSucceed action) system ∧
      ¬ HitsRight system := by
  cases executed : System.execute (promotionalCode oneChunkConfig) oneChunkConfig
      (promotionalInit 1) (earlyEviction (0 : Fin 2) 1) with
  | none => cases executed
  | some system =>
      refine ⟨system, System.reach_of_execute executed fun start _ =>
        AllowedAlong.of_forall _ start ?_, fun right => ?_⟩
      · simp [earlyEviction, CommandsSucceed, Environment.smooth]
      · have onDisk := right.mapped 7 ⟨0, 0, 0, false⟩ (by
          cases Option.some.inj executed
          exact ⟨⟨⟨0, 0, 0, false⟩, [], .loc⟩, rfl, rfl, rfl⟩)
        have erased : system.cache.disk 0 0 = none := by
          cases Option.some.inj executed
          rfl
        rw [erased] at onDisk
        cases onDisk

end ZNCache
