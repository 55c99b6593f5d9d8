import ZNCache.ChunkPlacement
import ZNCache.ChunkReaders
import ZNCache.EvictedChunks

/-!
# What a cache hit reads under the chunk policy

An evicted chunk stays on the disk until the GC resets its zone, so those who have found
it may read on.  As long as the GC moves no chunk and clears quiet zones only, a hit reads
the chunk of its identifier.
-/

set_option autoImplicit false

namespace ZNCache

open Tally Transition ZoneStateManager ZnPolicyChunk Duties

variable {Thread : Type}

/-! ## What the threads have under way -/

def ChunkEvictPc.resets : ChunkEvictPc → Multiset Nat
  | gcReset zone => {zone}
  | start | pop _ _ | mark _ _ _ | clear _ _ _ | gcStart | gcLoop _ | gcScan _ _ => 0
  | gcRead _ _ _ | gcWrite _ _ _ _ | gcInsert _ _ _ | gcClear _ | gcCount | leave => 0

def ThreadPc.resets : ThreadPc ChunkEvictPc → Multiset Nat
  | idle | get _ => 0
  | evict _ code => code.resets

def ThreadPc.chunks {Local : Type} (pc : ThreadPc Local) : Underway :=
  ⟨pc.reads, pc.pending, pc.written, 0, 0⟩

/-- A quiet zone has no readers left when it is cleared. -/
def ThreadPc.quietUnderway (pc : ThreadPc ChunkEvictPc) : Underway :=
  ⟨pc.reads, pc.pending, pc.written, pc.resets, pc.resets⟩

/-! ## Sections of `zn_cache_get` -/

section Get

variable {Policy Local : Type} {code : EvictionCode Thread Policy Local} {thread : Thread}
  {cache after : ZnCache Thread Policy} {environment : Environment} {pc : GetPc}
  {next : ThreadPc Local} {rest : Underway} {pairs : Multiset ZnPair} {writers : Multiset Nat}

theorem FindSpec.keepsHits {id : Nat} {result : FindResult} {map : CacheMap Thread}
    (found : FindSpec thread cache.cacheMap id result map) (hits : HitData cache rest) :
    HitData { cache with cacheMap := map }
      ((afterFind id result : ThreadPc Local).chunks.add rest) := by
  obtain ⟨sameData, located⟩ := found.locates
  cases found with
  | loc entry found isLoc =>
      change HitData _ (Underway.add ⟨{(id, entry.location)}, 0, 0, 0, 0⟩ rest)
      rw [Underway.add_reads]
      exact hits.addReader ⟨entry, found, isLoc, rfl⟩
  | wait | claim =>
      change HitData _ (Underway.add ⟨0, 0, 0, 0, 0⟩ rest)
      rw [Underway.add_nothing]
      exact hits.mono sameData rfl located (fun _ _ stored => stored) hits.written

/-- A section of `zn_cache_get` keeps what is stored, whatever the policy. -/
theorem GetStep.keepsHits [DecidableEq Thread]
    (taken : GetStep code thread cache environment pc after next)
    (fits : cache.zoneState.maxZoneChunks < 2 ^ 32) (success : environment.commandRet = 0)
    (small : ∀ id ∈ pc.seeks, id < 2 ^ 32)
    (sound : ZonesSound cache.zoneState (pc.holds + pairs))
    (agrees : CacheMapAgrees cache.cacheMap (pc.writes + writers))
    (writtenHeld : ∀ chunk ∈ rest.written, chunk.2 ∈ pairs)
    (clearedFull : ∀ zone ∈ rest.cleared, IsFull cache.zoneState zone)
    (hits : HitData cache ((ThreadPc.get pc : ThreadPc Local).chunks.add rest)) :
    HitData after (next.chunks.add rest) := by
  have occupied : ∀ zone chunk, Occupied cache.zoneState zone chunk →
      Occupied after.zoneState zone chunk := fun _ _ => taken.occupied success sound fits
  have apart : ∀ location, pc.holds = {location} → ∀ chunk ∈ rest.written,
      chunk.2.zone ≠ location.zone := by
    intro location holds chunk member same
    have heldNodup := sound.partition.heldNodup
    rw [holds, Multiset.singleton_add, Multiset.map_cons, Multiset.nodup_cons] at heldNodup
    exact heldNodup.1 (same ▸ Multiset.mem_map_of_mem ZnPair.zone (writtenHeld chunk member))
  have fresh : ∀ location, pc.holds = {location} →
      ¬ Occupied cache.zoneState location.zone location.chunkOffset := by
    intro location holds
    exact sound.partition.not_occupied (by simp [holds])
  have moveOn : ∀ {later : ZnCache Thread Policy} {there : ThreadPc Local},
      later.cacheMap = cache.cacheMap → later.disk = cache.disk →
      later.zoneState = cache.zoneState →
      there.chunks = (ThreadPc.get pc : ThreadPc Local).chunks →
      HitData later (there.chunks.add rest) := by
    intro later there sameMap sameDisk sameZones same
    rw [same]
    exact hits.same sameMap sameDisk sameZones
  cases taken with
  | find id =>
      change HitData cache (Underway.add ⟨0, 0, 0, 0, 0⟩ rest) at hits
      rw [Underway.add_nothing] at hits
      exact (znCachemapFind_spec thread cache.cacheMap
        (small id (by simp [GetPc.seeks]))).keepsHits hits
  | release id location data =>
      change HitData cache (Underway.add ⟨{(id, location)}, 0, 0, 0, 0⟩ rest) at hits
      change HitData _ (Underway.add ⟨0, 0, 0, 0, 0⟩ rest)
      rw [Underway.add_reads] at hits
      rw [Underway.add_nothing]
      exact hits.dropReader rfl
  | acquire id =>
      have same : (afterGetActiveZone id code.start
          (zsmGetActiveZone environment.commandRet cache.zoneState).ret).chunks =
          (ThreadPc.get (.acquire id) : ThreadPc Local).chunks := by
        cases (zsmGetActiveZone environment.commandRet cache.zoneState).ret <;> rfl
      rw [same]
      exact hits.keepZones occupied
  | write id location =>
      have fresh := fresh location rfl
      change HitData cache (Underway.add ⟨0, 0, 0, 0, 0⟩ rest) at hits
      change HitData _ (Underway.add ⟨0, 0, {(id, location)}, 0, 0⟩ rest)
      rw [Underway.add_nothing] at hits
      rw [Underway.add_written]
      refine (hits.writeChunk fresh (apart location rfl)).addWritten ?_
      simp [ZnCache.writeChunk]
  | writeFailed id location =>
      have fresh := fresh location rfl
      change HitData cache (Underway.add ⟨0, 0, 0, 0, 0⟩ rest) at hits
      change HitData _ (Underway.add ⟨0, 0, 0, 0, 0⟩ rest)
      rw [Underway.add_nothing] at hits ⊢
      exact hits.writeChunk fresh (apart location rfl)
  | giveBack id location =>
      have sound' : ZonesSound cache.zoneState (location ::ₘ pairs) := sound
      have here := (sound'.returnActiveZone_occupied fits).1
      have writing := (sound'.outstanding (Multiset.mem_cons_self _ _)).1
      have moved := hits.keepZones occupied
      change HitData _ (Underway.add ⟨0, 0, {(id, location)}, 0, 0⟩ rest) at moved
      change HitData _ (Underway.add ⟨0, {(id, location)}, 0, 0, 0⟩ rest)
      rw [Underway.add_written] at moved
      rw [Underway.add_pending]
      refine moved.settle rfl (success ▸ here) fun cleared => ?_
      have full := clearedFull location.zone cleared
      rw [IsFull, writing] at full
      cases full.2
  | insert id location answer inserted =>
      have agrees' : CacheMapAgrees cache.cacheMap (id ::ₘ writers) := agrees
      cases Option.some.inj (inserted.symm.trans (agrees'.insert location))
      change HitData cache (Underway.add ⟨0, {(id, location)}, 0, 0, 0⟩ rest) at hits
      change HitData _ (Underway.add ⟨0, 0, 0, 0, 0⟩ rest)
      rw [Underway.add_pending] at hits
      rw [Underway.add_nothing]
      exact hits.insert rfl
  | undoZone id location => exact hits.keepZones occupied
  | undoMap id answer failed =>
      have agrees' : CacheMapAgrees cache.cacheMap (id ::ₘ writers) := agrees
      obtain ⟨outcome, entry, ran, _, _, emptied, state⟩ := agrees'.fail
      cases Option.some.inj (failed.symm.trans ran)
      change HitData _ ((ThreadPc.get (.undoMap id) : ThreadPc Local).chunks.add rest)
      rw [state]
      refine hits.mono rfl rfl (fun other location located => ?_) (fun _ _ stored => stored)
        hits.written
      exact locates_setEntry (by simp [emptied]) located
  | woken | read | touch | countHit | countMiss | record => exact moveOn rfl rfl rfl rfl

theorem GetStep.fetched [DecidableEq Thread]
    (taken : GetStep code thread cache environment pc after next) {id : Nat}
    {data : Option Nat} (member : (id, data) ∈ next.lift GetPc.fetched) :
    (id, data) ∈ pc.fetched ∨ data = none ∨
      ∃ location, (id, location) ∈ pc.reads ∧
        data = cache.disk location.zone location.chunkOffset := by
  cases taken with
  | find other =>
      rw [ThreadPc.lift_afterFind (fun _ => rfl) rfl rfl] at member
      cases member
  | acquire other =>
      generalize (zsmGetActiveZone _ cache.zoneState).ret = ret at member
      cases ret <;> cases member
  | read other location seen source =>
      cases Multiset.mem_singleton.mp member
      rcases source with failed | read
      · exact .inr (.inl failed)
      · exact .inr (.inr ⟨location, Multiset.mem_singleton_self _, read⟩)
  | touch | release => exact .inl member
  | woken | countHit | write | writeFailed | countMiss => cases member
  | giveBack | record | insert | undoZone | undoMap => cases member

theorem ThreadPc.written_out {pc : ThreadPc ChunkEvictPc} {chunk : Nat × ZnPair}
    (member : chunk ∈ pc.written) : chunk.2 ∈ pc.out := by
  cases pc with
  | idle | evict => cases member
  | get pc =>
      cases pc with
      | countMiss | giveBack =>
          rw [Multiset.mem_singleton.mp member]
          exact Multiset.mem_singleton_self _
      | _ => cases member

theorem ThreadPc.resets_reclaimed {maxChunks : Nat} {pc : ThreadPc ChunkEvictPc} {zone : Nat}
    (member : zone ∈ pc.resets) : zone ∈ (pc.duties maxChunks).reclaimed := by
  cases pc with
  | idle | get => cases member
  | evict caller code =>
      cases code with
      | gcReset other =>
          cases Multiset.mem_singleton.mp member
          simp [ThreadPc.duties, ChunkEvictPc.duties, clears, reclaims]
      | _ => cases member

theorem GetStep.quietUnderway [DecidableEq Thread] {config : CacheConfig}
    {cache after : ChunkCache Thread} {next : ThreadPc ChunkEvictPc}
    (taken : GetStep (chunkCode config) thread cache environment pc after next) :
    next.quietUnderway = next.chunks := by
  cases taken with
  | find id => cases (znCachemapFind thread cache.cacheMap id).1 <;> rfl
  | acquire id => cases (zsmGetActiveZone environment.commandRet cache.zoneState).ret <;> rfl
  | woken | read | touch | release | countHit | write | writeFailed => rfl
  | countMiss | giveBack | record | insert | undoZone | undoMap => rfl

end Get

/-! ## Sections of the eviction and of the GC -/

section Evict

variable {config : CacheConfig} {thread : Thread} {cache after : ChunkCache Thread}
  {environment : Environment} {pc : ChunkEvictPc} {next : Option ChunkEvictPc}
  {rest : Underway} {pairs : Multiset ZnPair} {writers : Multiset Nat} {maxChunks : Nat}

theorem HitData.unlocate {Policy : Type} {cache after : ZnCache Thread Policy}
    {underway : Underway} (hits : HitData cache underway)
    (listed : LocatedListed after.cacheMap)
    (located : ∀ id location, after.cacheMap.Locates id location →
      cache.cacheMap.Locates id location)
    (sameReaders : after.cacheMap.activeReaders = cache.cacheMap.activeReaders)
    (sameDisk : after.disk = cache.disk) (sameZones : after.zoneState = cache.zoneState) :
    HitData after underway := by
  have stored : ∀ {location id}, Stored cache location id → Stored after location id := by
    intro location id
    unfold Stored
    rw [sameDisk, sameZones]
    exact fun given => given
  constructor
  case listed => exact listed
  case mapped =>
    exact fun id location here => stored (hits.mapped id location (located id location here))
  case written =>
    rw [sameDisk]
    exact hits.written
  case pending => exact fun chunk member => stored (hits.pending chunk member)
  case reading => exact fun chunk member => stored (hits.reading chunk member)
  case readers =>
    rw [sameReaders]
    exact hits.readers
  case unmapped =>
    exact fun zone member id location here =>
      hits.unmapped zone member id location (located id location here)
  case settled => exact hits.settled
  case unread => exact hits.unread
  case drainedCleared => exact hits.drainedCleared

theorem zsmMarkChunkInvalid_occupied (manager : ZoneStateManager) (pair : ZnPair)
    {zone chunk : Nat} (occupied : Occupied manager zone chunk) :
    Occupied (zsmMarkChunkInvalid manager pair) zone chunk := by
  by_cases same : zone = pair.zone
  · subst same
    simpa [Occupied, zsmMarkChunkInvalid] using occupied
  · simpa [Occupied, zsmMarkChunkInvalid, same] using occupied

theorem ChunkEvictStep.keepsHits
    (taken : ChunkEvictStep config thread cache environment pc after next)
    (caller : Option Nat) (success : environment.commandRet = 0)
    (sound : ZonesSound cache.zoneState pairs)
    (agrees : CacheMapAgrees cache.cacheMap writers)
    (knows : pc.Knows maxChunks cache.evictionPolicy)
    (unmoved : ∀ zone chunk, pc = .gcScan zone chunk →
      chunk < cache.evictionPolicy.maxZoneChunks →
      (cache.evictionPolicy.slot (zone, chunk)).inUse = false)
    (own : ∀ zone ∈ pc.duties.reclaimed, cache.zoneId zone = zone)
    (takenFull : ∀ zone ∈ pc.duties.reclaimed, IsFull cache.zoneState zone)
    (quiet : ∀ zone, pc = .gcClear zone → (∀ chunk ∈ rest.pending, chunk.2.zone ≠ zone) ∧
      cache.cacheMap.activeReaders zone = 0)
    (writtenHeld : ∀ chunk ∈ rest.written, chunk.2 ∈ pairs)
    (restDrained : ∀ zone ∈ rest.drained, zone ∈ rest.cleared)
    (hits : HitData cache ((ThreadPc.evict caller pc).quietUnderway.add rest)) :
    HitData after ((next.elim (afterEvict caller) (ThreadPc.evict caller)).quietUnderway.add
      rest) := by
  have nothing : (afterEvict caller : ThreadPc ChunkEvictPc).quietUnderway =
      ⟨0, 0, 0, 0, 0⟩ := by
    cases caller <;> rfl
  cases taken with
  | clear i nr pair answer cleared =>
      obtain ⟨_, listed, sameReaders, located⟩ := agrees.smallKeys.clearChunk hits.listed cleared
      exact hits.unlocate listed (fun id location here => (located id location here).1) sameReaders
        rfl rfl
  | mark i nr pair =>
      exact hits.keepZones fun _ _ => zsmMarkChunkInvalid_occupied _ _
  | gcAcquire zone chunk location inZone used handed =>
      rw [unmoved zone chunk rfl inZone] at used
      cases used
  | gcRead | gcWrite | gcInsert => exact knows.elim
  | gcClear zone answer cleared =>
      obtain ⟨settled, unread⟩ := quiet zone rfl
      rw [own zone (by simp [ChunkEvictPc.duties, reclaims])] at cleared
      change HitData cache (Underway.add ⟨0, 0, 0, 0, 0⟩ rest) at hits
      change HitData _ (Underway.add ⟨0, 0, 0, {zone}, {zone}⟩ rest)
      rw [Underway.add_nothing] at hits
      rw [Underway.add_drained]
      have activeReaders := (agrees.smallKeys.clearZone_state cleared).2.2
      refine (hits.clear agrees.smallKeys cleared settled).drain ?_ (Multiset.mem_cons_self _ _)
      rw [activeReaders, unread]
  | gcReset zone =>
      change HitData cache (Underway.add ⟨0, 0, 0, {zone}, {zone}⟩ rest) at hits
      change HitData _ (Underway.add ⟨0, 0, 0, 0, 0⟩ rest)
      have full := takenFull zone (by simp [ChunkEvictPc.duties, clears, reclaims])
      rw [Underway.add_drained] at hits
      rw [Underway.add_nothing, success, own zone (by simp [ChunkEvictPc.duties, clears, reclaims])]
      refine HitData.forget (hits.reset (Multiset.mem_cons_self _ _) ?_ (sound.evict full).2)
        ?_ ?_
      · intro chunk member same
        have writing := (sound.outstanding (writtenHeld chunk member)).1
        rw [same, full.2] at writing
        cases writing
      · exact fun other member => Multiset.mem_cons_of_mem member
      · exact fun other member => ⟨Multiset.mem_cons_of_mem member, restDrained other member⟩
  | turnedAway | leave =>
      change HitData _ ((afterEvict caller : ThreadPc ChunkEvictPc).quietUnderway.add rest)
      rw [nothing]
      exact hits.same rfl rfl rfl
  | lock | pop | popped | gcEnough | gcShort | gcDone | gcTake | gcSkip | gcScanned | gcCount =>
      exact hits.same rfl rfl rfl

end Evict

/-! ## Runs -/

section Run

variable [Fintype Thread] [DecidableEq Thread] {config : CacheConfig}
  {system next : ChunkSystem Thread}

/-- A step that disturbs nobody: no command fails, the eviction clears inserted chunks
only, and the GC moves no chunk and clears quiet zones only. -/
def QuietStep (system : ChunkSystem Thread) (action : Thread × Choice) : Prop :=
  CommandsSucceed action ∧ EvictsSettled system action ∧ ClearsQuiet system action

def quietUnderwayOf (threads : Thread → ThreadPc ChunkEvictPc) : Underway where
  reads := tally ThreadPc.reads threads
  pending := tally ThreadPc.pending threads
  written := tally ThreadPc.written threads
  cleared := tally ThreadPc.resets threads
  drained := tally ThreadPc.resets threads

def othersQuietUnderway (threads : Thread → ThreadPc ChunkEvictPc) (thread : Thread) :
    Underway where
  reads := others ThreadPc.reads threads thread
  pending := others ThreadPc.pending threads thread
  written := others ThreadPc.written threads thread
  cleared := others ThreadPc.resets threads thread
  drained := others ThreadPc.resets threads thread

theorem quietUnderwayOf_split (threads : Thread → ThreadPc ChunkEvictPc) (thread : Thread) :
    quietUnderwayOf threads =
      (threads thread).quietUnderway.add (othersQuietUnderway threads thread) := by
  simp only [quietUnderwayOf, Underway.add, ThreadPc.quietUnderway, othersQuietUnderway,
    ← tally_split]

theorem quietUnderwayOf_update (threads : Thread → ThreadPc ChunkEvictPc) (thread : Thread)
    (pc : ThreadPc ChunkEvictPc) :
    quietUnderwayOf (Function.update threads thread pc) =
      pc.quietUnderway.add (othersQuietUnderway threads thread) := by
  simp only [quietUnderwayOf, tally_update, Underway.add, ThreadPc.quietUnderway,
    othersQuietUnderway]

/-- Located chunks, the chunks of readers, and what readers got so far are those of the
identifiers asked for; a failed read gets nothing. -/
structure ChunkHitsRight (system : ChunkSystem Thread) : Prop where
  mapped : ∀ id location, system.cache.cacheMap.Locates id location →
    system.cache.disk location.zone location.chunkOffset = some id
  reading : ∀ thread id location, (id, location) ∈ (system.threads thread).reads →
    system.cache.disk location.zone location.chunkOffset = some id
  fetched : ∀ thread id data, (id, data) ∈ (system.threads thread).lift GetPc.fetched →
    data = none ∨ data = some id

structure QuietSound (config : CacheConfig) (system : ChunkSystem Thread) : Prop where
  evicts : EvictSound (2 ^ 31) config.maxZoneChunks system
  zones : MigrationLog.Sound config ⟨system, []⟩
  hits : HitData system.cache (quietUnderwayOf system.threads)
  fetched : ∀ thread id data, (id, data) ∈ (system.threads thread).lift GetPc.fetched →
    data = none ∨ data = some id

theorem QuietSound.others_facts (sound : QuietSound config system) (thread : Thread) :
    (∀ chunk ∈ (othersQuietUnderway system.threads thread).written,
      chunk.2 ∈ others ThreadPc.out system.threads thread +
        (([] : List ZnPair) : Multiset ZnPair)) ∧
    ∀ zone ∈ (othersQuietUnderway system.threads thread).cleared,
      IsFull system.cache.zoneState zone := by
  refine ⟨fun chunk member => ?_, fun zone member => ?_⟩
  · obtain ⟨other, apart, written⟩ := mem_others.mp member
    exact Multiset.mem_add.mpr (.inl (mem_others.mpr ⟨other, apart, ThreadPc.written_out written⟩))
  · obtain ⟨other, _, resets⟩ := mem_others.mp member
    refine (sound.zones.zones.full zone).mp (Multiset.mem_add.mpr (.inr ?_))
    exact Multiset.mem_add.mpr (.inr ((@mem_tally_part _ _ _ _ _ _ reclaimedPart _ _ _).mpr
      ⟨other, ThreadPc.resets_reclaimed resets⟩))

theorem QuietSound.evictHits (sound : QuietSound config system) {thread : Thread}
    {caller : Option Nat} {code : ChunkEvictPc} {environment : Environment}
    (here : system.threads thread = .evict caller code)
    (quiet : QuietStep system (thread, .run environment)) {cache : ChunkCache Thread}
    {later : Option ChunkEvictPc}
    (ran : ChunkEvictStep config thread system.cache environment code cache later) :
    HitData cache ((later.elim (afterEvict caller) (ThreadPc.evict caller)).quietUnderway.add
      (othersQuietUnderway system.threads thread)) := by
  obtain ⟨success, settled, quietly⟩ := quiet
  have hits := sound.hits
  have split := sound.zones.split thread
  have agrees := sound.evicts.map.split thread
  have knows := sound.evicts.knows thread
  rw [quietUnderwayOf_split _ thread] at hits
  simp only [here] at hits split agrees knows
  have zones := split.zones
  have reclaimed : ∀ zone ∈ code.duties.reclaimed, zone ∈
      ((ThreadPc.evict caller code).duties config.maxZoneChunks +
        others (ThreadPc.duties config.maxZoneChunks) system.threads thread).reclaimed :=
    fun zone member => Multiset.mem_add.mpr (.inl member)
  refine ran.keepsHits caller (success _ rfl) zones.zones agrees knows
    (fun zone chunk same => settled.2.2.1 caller zone chunk (same ▸ here))
    (fun zone member => zones.poolIds zone (.inr (reclaimed zone member)))
    (fun zone member => (zones.full zone).mp
      (Multiset.mem_add.mpr (.inr (Multiset.mem_add.mpr (.inr (reclaimed zone member))))))
    ?_ ?_ (fun _ member => member) hits
  · intro zone same
    subst same
    have own := zones.poolIds zone (.inr (reclaimed zone (by
      simp [ChunkEvictPc.duties, reclaims])))
    obtain ⟨unpending, unread⟩ := quietly caller zone here
    rw [ChunkCache.zoneId, own] at unread
    refine ⟨fun chunk member same => ?_, unread⟩
    obtain ⟨other, _, pending⟩ := mem_others.mp member
    apply unpending other chunk pending
    rw [ChunkCache.zoneId, own, same]
  · intro chunk member
    exact Multiset.mem_add.mpr (.inr ((sound.others_facts thread).1 chunk member))

theorem QuietSound.keepsHits (fits : config.maxZoneChunks < 2 ^ 32)
    (sound : QuietSound config system) {thread : Thread} {choice : Choice}
    (quiet : QuietStep system (thread, choice)) {cache : ChunkCache Thread}
    {pc : ThreadPc ChunkEvictPc}
    (moved : ThreadStep (chunkCode config) thread system.cache (system.threads thread) choice
      cache pc) :
    HitData cache (pc.quietUnderway.add (othersQuietUnderway system.threads thread)) := by
  obtain ⟨writtenHeld, clearedFull⟩ := sound.others_facts thread
  have hits := sound.hits
  have zones := (sound.zones.split thread).zones
  have agrees := sound.evicts.map.split thread
  have small : ∀ id ∈ (system.threads thread).seeks, id < 2 ^ 32 := fun id member =>
    (sound.evicts.map.seeks thread id member).trans (by decide)
  rw [quietUnderwayOf_split _ thread] at hits
  generalize here : system.threads thread = before at moved hits zones agrees small
  cases moved with
  | call | callEvict => exact hits.same rfl rfl rfl
  | wakeUp id =>
      obtain ⟨sameData, sameReaders, located⟩ :=
        CacheMap.wakeUp_locates system.cache.cacheMap thread id
      exact hits.mono sameData sameReaders located (fun _ _ stored => stored) hits.written
  | get ran =>
      rw [ran.quietUnderway]
      exact ran.keepsHits (zones.managerMax ▸ fits) (quiet.1 _ rfl) small zones.zones agrees
        writtenHeld clearedFull hits
  | evict caller next ran => exact sound.evictHits here quiet (chunkEvictStep_spec ran)
  | evicted caller ran => exact sound.evictHits here quiet (chunkEvictStep_spec ran)

theorem EvictSound.moves_nothing {bound maxChunks : Nat} (sound : EvictSound bound maxChunks system)
    {action : Thread × Choice} (taken : system.step (chunkCode config) action = some next) :
    MigrationLog.step config ⟨system, []⟩ action = some ⟨next, []⟩ := by
  have knows := sound.knows action.1
  have nothing : (system.threads action.1).moves action.2 = [] := by
    generalize system.threads action.1 = here at knows
    generalize action.2 = choice
    cases here with
    | idle | get => rfl
    | evict caller code =>
        cases code with
        | gcInsert => exact knows.elim
        | _ => cases choice <;> rfl
  rw [MigrationLog.step, taken, nothing]
  rfl

theorem QuietSound.step (fits : config.maxZoneChunks < 2 ^ 32)
    (positive : 0 < config.maxZoneChunks) (sound : QuietSound config system)
    {action : Thread × Choice} (quiet : QuietStep system action)
    (taken : system.step (chunkCode config) action = some next) : QuietSound config next := by
  have zones := sound.zones.step fits positive quiet.1 (sound.evicts.moves_nothing taken)
  obtain ⟨below, gcSettled, migrates, inserted⟩ := quiet.2.1
  have evicts := sound.evicts.step fits (by decide) below gcSettled migrates inserted taken
  obtain ⟨thread, choice⟩ := action
  obtain ⟨cache, pc, rfl, moved⟩ := System.step_spec taken
  refine ⟨evicts, zones, ?_, ?_⟩
  · simp only [System.advance]
    rw [quietUnderwayOf_update]
    exact sound.keepsHits fits quiet moved
  · intro other id data member
    by_cases same : other = thread
    · subst same
      simp only [System.advance, Function.update_self] at member
      have before := sound.fetched other id data
      have reading := fun location member => sound.hits.reading (id, location)
        (mem_tally.mpr ⟨other, member⟩)
      generalize system.threads other = here at moved before reading
      cases moved with
      | call | callEvict | wakeUp | evict => cases member
      | evicted caller =>
          rw [ThreadPc.lift_afterEvict fun _ => rfl] at member
          cases member
      | get ran =>
          rcases ran.fetched member with had | failed | ⟨location, reads, read⟩
          · exact before had
          · exact .inl failed
          · exact .inr (read.trans (reading location reads).1)
    · simp only [System.advance, Function.update_of_ne same] at member
      exact sound.fetched other id data member

omit [DecidableEq Thread] in
theorem QuietSound.init (someZone : 1 ≤ config.nrZones)
    (begins : chunkSystem config = some system) : QuietSound config system := by
  obtain ⟨_, _, emptyMap, _, idle⟩ := System.init_spec begins
  have nothing : ∀ {Item : Type} (weight : ThreadPc ChunkEvictPc → Multiset Item),
      weight .idle = 0 → tally weight system.threads = 0 := by
    intro Item weight zero
    exact tally_const_zero _ _ fun thread => by rw [idle thread, zero]
  refine ⟨EvictSound.init begins, MigrationLog.Sound.init someZone begins rfl, ?_,
    fun thread id data member => ?_⟩
  · have nobody : quietUnderwayOf system.threads = ⟨0, 0, 0, 0, 0⟩ := by
      simp only [quietUnderwayOf]
      rw [nothing _ rfl, nothing _ rfl, nothing _ rfl, nothing _ rfl]
    rw [nobody]
    constructor <;> simp [emptyMap, LocatedListed, CacheMap.Locates, znCachemapInit, readersOf]
  · rw [idle thread] at member
    cases member

end Run

/-! ## Deciding whether a step is quiet -/

instance [Fintype Thread] [DecidableEq Thread] (system : ChunkSystem Thread)
    (action : Thread × Choice) : Decidable (QuietStep system action) :=
  inferInstanceAs
    (Decidable (CommandsSucceed action ∧ EvictsSettled system action ∧ ClearsQuiet system action))

/-- A thread misses identifier 7 and finds it again.  Before it reads the chunk, another
evicts it. -/
def evictUnderReader (worker evictor : Thread) : List (Thread × Choice) :=
  (worker, .get 7) :: List.replicate 7 (worker, .run .smooth) ++
    [(worker, .get 7), (worker, .run .smooth)] ++
    (evictor, .evict) :: List.replicate 4 (evictor, .run .smooth) ++ [(worker, .run .smooth)]

end ZNCache
