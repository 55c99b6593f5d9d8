import ZNCache.SoloChunk

/-!
# Slots, tables and the disk

What one step of a single thread does to the slots of the policy, to the tables that list
the chunks of each zone and to the disk, while nothing fails and the GC moves no chunk.
The slots in use, the chunks listed and the identifiers on disk agree with one another.
-/

set_option autoImplicit false

namespace ZNCache

open Tally Transition ZnPolicyChunk Duties

/-! ## What a thread carries -/

/-- The chunk between the handing out of its location and its insert. -/
def ThreadPc.carried : ThreadPc ChunkEvictPc → Option (Nat × ZnPair)
  | get (.write id location) | get (.countMiss id location) => some (id, location)
  | get (.giveBack id location) | get (.record id location) => some (id, location)
  | get (.insert id location) => some (id, location)
  | _ => none

def ThreadPc.wrote : ThreadPc ChunkEvictPc → Option (Nat × ZnPair)
  | get (.countMiss id location) | get (.giveBack id location) => some (id, location)
  | get (.record id location) | get (.insert id location) => some (id, location)
  | _ => none

def ThreadPc.hits : ThreadPc ChunkEvictPc → Option Nat
  | get (.read id _) | get (.touch id _ _) | get (.release id _ _) => some id
  | get (.countHit id _) => some id
  | _ => none

def ThreadPc.calling : ThreadPc ChunkEvictPc → Option Nat
  | idle => none
  | get (.find id) | get (.asleep id) | get (.acquire id) | get (.undoMap id) => some id
  | get (.read id _) | get (.touch id _ _) | get (.release id _ _) => some id
  | get (.countHit id _) | get (.write id _) | get (.countMiss id _) => some id
  | get (.giveBack id _) | get (.record id _) | get (.insert id _) => some id
  | get (.undoZone id _) => some id
  | evict caller _ => caller

def ThreadPc.undoes : ThreadPc ChunkEvictPc → Bool
  | get (.undoZone _ _) | get (.undoMap _) => true
  | _ => false

theorem ThreadPc.carried_of_wrote {pc : ThreadPc ChunkEvictPc} {chunk : Nat × ZnPair}
    (written : pc.wrote = some chunk) : pc.carried = some chunk := by
  unfold ThreadPc.wrote at written
  split at written
  case h_5 => cases written
  all_goals exact written

theorem ThreadPc.carried_of_inserting {pc : ThreadPc ChunkEvictPc} {location : ZnPair}
    (inserts : pc.inserting = some location) : ∃ id, pc.carried = some (id, location) := by
  obtain ⟨id, rfl⟩ := ThreadPc.inserting_eq_some.mp inserts
  exact ⟨id, rfl⟩

theorem ThreadPc.not_inserting {pc : ThreadPc ChunkEvictPc} (plain : pc.carried = none) :
    pc.inserting = none := by
  cases inserts : pc.inserting with
  | none => rfl
  | some location =>
      obtain ⟨id, carried⟩ := ThreadPc.carried_of_inserting inserts
      rw [plain] at carried
      cases carried

/-- What a step of the thread does to the slots, the tables and the disk. -/
inductive IdMove (config : CacheConfig) (cache : ChunkCache Unit) (pc : ThreadPc ChunkEvictPc)
    (after : ChunkCache Unit) (next : ThreadPc ChunkEvictPc) : Prop
  | stay (data : after.cacheMap.dataMap = cache.cacheMap.dataMap)
      (slots : ∀ place, after.evictionPolicy.slot place = cache.evictionPolicy.slot place)
      (disk : after.disk = cache.disk)
      (carried : ∀ chunk, next.carried = some chunk → pc.carried = some chunk)
      (wrote : ∀ chunk, next.wrote = some chunk → pc.wrote = some chunk)
      (popped : next.popped = pc.popped)
      (hits : ∀ id, next.hits = some id → pc.hits = some id)
      (inserting : pc.inserting = none ∧ next.inserting = none)
  | hit (id : Nat) (location : ZnPair) (same : after.cacheMap.dataMap = cache.cacheMap.dataMap)
      (rest : after.evictionPolicy = cache.evictionPolicy ∧ after.disk = cache.disk)
      (listed : (cache.cacheMap.dataMap location.zone).lookup location.chunkOffset = some id)
      (here : pc = .get (.find id)) (there : next = .get (.read id location))
  | handOut (id : Nat) (location : ZnPair) (unnamed : location.id = 0)
      (inZones : location.zone < config.nrZones)
      (same : after.cacheMap = cache.cacheMap ∧ after.evictionPolicy = cache.evictionPolicy ∧
        after.disk = cache.disk)
      (here : pc = .get (.acquire id)) (there : next = .get (.write id location))
  | write (id : Nat) (location : ZnPair)
      (unlisted : ∀ other,
        (cache.cacheMap.dataMap location.zone).lookup location.chunkOffset ≠ some other)
      (same : after = cache.writeChunk location (some id))
      (here : pc = .get (.write id location)) (there : next = .get (.countMiss id location))
  | record (id : Nat) (location : ZnPair) (inZone : location.chunkOffset < config.maxZoneChunks)
      (slots : ∀ place, after.evictionPolicy.slot place =
        if place = (location.zone, location.chunkOffset) then
          ⟨location.zone, location.chunkOffset, location.id, true⟩
        else cache.evictionPolicy.slot place)
      (same : after.cacheMap = cache.cacheMap ∧ after.disk = cache.disk)
      (here : pc = .get (.record id location)) (there : next = .get (.insert id location))
  | insert (id : Nat) (location : ZnPair)
      (same : after = { cache with cacheMap := cache.cacheMap.located id location })
      (here : pc = .get (.insert id location)) (there : next = .idle)
  | pop (place : Slot)
      (slots : ∀ other, after.evictionPolicy.slot other = if other = place then
        { cache.evictionPolicy.slot place with inUse := false }
        else cache.evictionPolicy.slot other)
      (same : after.cacheMap = cache.cacheMap ∧ after.disk = cache.disk)
      (quiet : pc.popped = none ∧ pc.inserting = none)
      (popped : next.popped = some place) (plain : next.carried = none ∧ next.hits = none)
  | clear (place : Slot)
      (lookups : ∀ zone chunk, (after.cacheMap.dataMap zone).lookup chunk =
        if (zone, chunk) = place then none else (cache.cacheMap.dataMap zone).lookup chunk)
      (same : after.evictionPolicy = cache.evictionPolicy ∧ after.disk = cache.disk)
      (popped : pc.popped = some place) (quiet : pc.inserting = none)
      (done : next.popped = none) (plain : next.carried = none ∧ next.hits = none)
  | clearZone (zone : Nat) (unused : ∀ chunk < config.maxZoneChunks,
        (cache.evictionPolicy.slot (zone, chunk)).inUse = false)
      (same : after.evictionPolicy = cache.evictionPolicy ∧ after.disk = cache.disk)
      (data : after.cacheMap.dataMap = Function.update cache.cacheMap.dataMap zone ∅)
      (quiet : pc.popped = none ∧ next.popped = none ∧ pc.inserting = none)
      (plain : next.carried = none ∧ next.hits = none)
  | reset (zone : Nat)
      (unlisted : ∀ chunk id, (cache.cacheMap.dataMap zone).lookup chunk ≠ some id)
      (same : after.cacheMap = cache.cacheMap ∧ after.evictionPolicy = cache.evictionPolicy)
      (disk : ∀ other ≠ zone, after.disk other = cache.disk other)
      (quiet : pc.popped = none ∧ next.popped = none ∧ pc.inserting = none)
      (plain : next.carried = none ∧ next.hits = none)

section Moves

variable {config : CacheConfig} {cache after : ChunkCache Unit} {rest : Duties}
  {leaked : Multiset ZnPair} {others : Multiset Nat}

theorem ZonesSound.handed_unnamed {manager : ZoneStateManager} {held : Multiset ZnPair}
    (sound : ZonesSound manager held) :
    (zsmGetActiveZone 0 manager).ret ≠ .error ∧
      ∀ location, (zsmGetActiveZone 0 manager).ret = .success location →
        location.id = 0 ∧ location.zone < manager.numZones := by
  constructor
  · have answer := sound.partition.getActiveZone_spec sound.counts 0
    generalize zsmGetActiveZone 0 manager = outcome at answer
    cases answer with
    | evict | retry | success => simp
    | error _ _ _ _ failed => exact absurd (backendRet_zero _) failed
  · intro location handed
    have inHeld := (sound.handed handed).1.partition.heldIff location.zone
    have below := (inHeld.mp (by simp)).1
    rw [(zsmGetActiveZone_shape 0 manager).numZones] at below
    refine ⟨?_, below⟩
    have answer := sound.partition.getActiveZone_spec sound.counts 0
    generalize zsmGetActiveZone 0 manager = outcome at answer handed
    cases answer with
    | evict | retry | error => cases handed
    | success =>
        cases handed
        rfl

theorem CacheMapAgrees.claimed_of_listed {map : CacheMap Unit} {writers : Multiset Nat}
    (agrees : CacheMapAgrees map writers) {zone chunk id : Nat}
    (listed : (map.dataMap zone).lookup chunk = some id) (duties : Duties) :
    Claimed map duties (zone, chunk) := by
  obtain ⟨entry, found, isLoc, sameZone, sameChunk⟩ := agrees.listed zone chunk id listed
  exact ⟨id, entry.location, .inl ⟨entry, found, isLoc, rfl⟩, Prod.ext sameZone sameChunk⟩

theorem GetStep.idMove {pc : GetPc} {next : ThreadPc ChunkEvictPc}
    (taken : GetStep (chunkCode config) () cache .smooth pc after next)
    (zones : ZonesSound cache.zoneState (pc.holds + leaked))
    (numZones : cache.zoneState.numZones = config.nrZones)
    (custody : CacheCustody config.maxZoneChunks cache
      (pc.duties config.maxZoneChunks + rest))
    (agrees : CacheMapAgrees cache.cacheMap (pc.writes + others))
    (small : ∀ id ∈ pc.seeks, id < 2 ^ 32)
    (transfers : ∀ id location, pc = .write id location →
      next = .get (.countMiss id location))
    (inZone : ∀ id location, pc = .record id location →
      location.chunkOffset < config.maxZoneChunks) :
    IdMove config cache (.get pc) after next := by
  cases taken with
  | find id =>
      have found := znCachemapFind_spec () cache.cacheMap (small id (by simp [GetPc.seeks]))
      generalize znCachemapFind () cache.cacheMap id = answer at found
      obtain ⟨result, map⟩ := answer
      cases found with
      | loc entry found located =>
          have listed := custody.listed id entry.location ⟨entry, found, located, rfl⟩
          exact .hit id entry.location rfl ⟨rfl, rfl⟩ listed rfl rfl
      | wait | claim =>
          exact .stay rfl (fun _ => rfl) rfl (fun _ none => by cases none)
            (fun _ none => by cases none) rfl (fun _ none => by cases none) ⟨rfl, rfl⟩
  | acquire id =>
      rw [GetPc.holds, zero_add] at zones
      obtain ⟨noError, unnamed⟩ := zones.handed_unnamed
      rw [show Environment.smooth.commandRet = 0 from rfl] at *
      cases answer : (zsmGetActiveZone 0 cache.zoneState).ret with
      | success location =>
          obtain ⟨noId, inZones⟩ := unnamed location answer
          exact .handOut id location noId (numZones ▸ inZones) ⟨rfl, rfl, rfl⟩ rfl rfl
      | retry | error | evict =>
          exact .stay rfl (fun _ => rfl) rfl (fun _ none => by cases none)
            (fun _ none => by cases none) rfl (fun _ none => by cases none) ⟨rfl, rfl⟩
  | write id location =>
      refine .write id location (fun other listed => ?_) rfl rfl rfl
      have offset := custody.offsets location (by simp [GetPc.duties, takes])
      have below := custody.openBelow location.zone (.inr (by simp [GetPc.duties, takes]))
        location.chunkOffset (agrees.claimed_of_listed listed _)
      rw [← offset] at below
      exact Nat.lt_irrefl _ below
  | writeFailed id location => cases transfers id location rfl
  | record id location policy updated =>
      refine .record id location (inZone id location rfl) (fun place => ?_) ⟨rfl, rfl⟩ rfl rfl
      have after := znPolicyChunkUpdate_write updated
      rw [after]
      split
      · rw [slot_enterHeap, slot_recordChunk]
      · rw [slot_recordChunk]
  | insert id location answer inserted =>
      rw [GetPc.writes, Multiset.singleton_add] at agrees
      cases Option.some.inj (inserted.symm.trans (agrees.insert location))
      exact .insert id location rfl rfl rfl
  | touch id location data policy updated =>
      obtain ⟨_, pool, _, _⟩ := znPolicyChunkUpdate_read updated
      refine .stay rfl (fun place => ?_) rfl (fun _ none => by cases none)
        (fun _ none => by cases none) rfl (fun _ same => same) ⟨rfl, rfl⟩
      simp only [slot, pool]
  | undoMap id answer failed =>
      exact .stay (znCachemapFail_dataMap failed) (fun _ => rfl) rfl
        (fun _ none => by cases none) (fun _ none => by cases none) rfl
        (fun _ none => by cases none) ⟨rfl, rfl⟩
  | woken | read | release | countHit | countMiss | giveBack | undoZone =>
      exact .stay rfl (fun _ => rfl) rfl (by simp [ThreadPc.carried]) (by simp [ThreadPc.wrote])
        rfl (by simp [ThreadPc.hits]) ⟨rfl, rfl⟩

theorem afterEvictStep_plain (caller : Option Nat) (next : Option ChunkEvictPc) :
    (afterEvictStep caller next).carried = none ∧ (afterEvictStep caller next).wrote = none ∧
      (afterEvictStep caller next).hits = none ∧ (afterEvictStep caller next).inserting = none ∧
      (afterEvictStep caller next).popped = poppedAfter next := by
  cases next with
  | some code => exact ⟨rfl, rfl, rfl, rfl, rfl⟩
  | none => cases caller <;> exact ⟨rfl, rfl, rfl, rfl, rfl⟩

theorem ChunkEvictStep.idMove {pc : ChunkEvictPc} {next : Option ChunkEvictPc}
    {caller : Option Nat} (taken : ChunkEvictStep config () cache .smooth pc after next)
    (custody : CacheCustody config.maxZoneChunks cache (pc.duties + rest))
    (agrees : CacheMapAgrees cache.cacheMap others)
    (knows : pc.Knows config.maxZoneChunks cache.evictionPolicy) :
    IdMove config cache (.evict caller pc) after (afterEvictStep caller next) := by
  obtain ⟨carried, wrote, hits, inserting, popped⟩ := afterEvictStep_plain caller next
  have stay : after.cacheMap.dataMap = cache.cacheMap.dataMap →
      (∀ place, after.evictionPolicy.slot place = cache.evictionPolicy.slot place) →
      after.disk = cache.disk → poppedAfter next = pc.popped →
      IdMove config cache (.evict caller pc) after (afterEvictStep caller next) := by
    intro data slots disk kept
    exact .stay data slots disk (by simp [carried]) (by simp [wrote]) (popped.trans kept)
      (by simp [hits]) ⟨rfl, inserting⟩
  have own : ∀ zone, zone ∈ (pc.duties + rest).reclaimed → cache.zoneId zone = zone :=
    fun zone member => custody.poolIds zone (.inr member)
  cases taken with
  | pop i nr pair policy evicted =>
      obtain ⟨position, queue, left, rfl, _, _, _, slots, _⟩ := evictChunk_spec evicted
      exact .pop _ slots ⟨rfl, rfl⟩ ⟨rfl, rfl⟩ popped ⟨carried, hits⟩
  | clear i nr pair answer cleared =>
      obtain ⟨_, _, _, lookups⟩ := znCachemapClearChunk_state cleared
      exact .clear pair.place lookups ⟨rfl, rfl⟩ rfl rfl popped ⟨carried, hits⟩
  | gcClear zone answer cleared =>
      have data := (znCachemapClearZone_state cleared).2.2.1
      rw [own zone (by simp [ChunkEvictPc.duties, reclaims])] at data
      have unused := knows.2
      rw [NoneInUse, custody.policyMax] at unused
      exact .clearZone zone unused ⟨rfl, rfl⟩ data ⟨rfl, popped, rfl⟩ ⟨carried, hits⟩
  | gcReset zone =>
      have same := own zone (by simp [ChunkEvictPc.duties, reclaims, clears])
      refine .reset zone (fun chunk id listed => ?_) ⟨rfl, rfl⟩ (fun other apart => ?_)
        ⟨rfl, popped, rfl⟩ ⟨carried, hits⟩
      · exact custody.clearedEmpty zone (by simp [ChunkEvictPc.duties, reclaims, clears]) chunk
          (agrees.claimed_of_listed listed _)
      · simp only [ZnCache.evictZone, same]
        split
        · rfl
        · rw [Function.update_of_ne apart]
  | gcRead | gcWrite | gcInsert => exact knows.elim
  | turnedAway | lock | popped | gcEnough | gcShort | gcDone | gcTake | gcSkip | gcScanned =>
      exact stay rfl (fun _ => rfl) rfl rfl
  | mark | gcAcquire | gcCount | leave => exact stay rfl (fun _ => rfl) rfl rfl

theorem ThreadStep.idMove {choice : Choice} {pc next : ThreadPc ChunkEvictPc}
    {system : ChunkSystem Unit}
    (taken : ThreadStep (chunkCode config) () cache pc choice after next)
    (smooth : SmoothGets system ((), choice))
    (zones : ZonesSound cache.zoneState (pc.holds + leaked))
    (numZones : cache.zoneState.numZones = config.nrZones)
    (custody : CacheCustody config.maxZoneChunks cache
      (pc.duties config.maxZoneChunks + rest))
    (agrees : CacheMapAgrees cache.cacheMap (pc.writes + others))
    (small : ∀ id ∈ pc.seeks, id < 2 ^ 32)
    (transfers : ∀ id location, pc = .get (.write id location) →
      next = .get (.countMiss id location))
    (positive : 0 < config.maxZoneChunks)
    (knows : pc.Knows config.maxZoneChunks cache.evictionPolicy) :
    IdMove config cache pc after next := by
  cases taken with
  | callEvict | wakeUp => exact smooth.elim
  | call id =>
      exact .stay rfl (fun _ => rfl) rfl (fun _ none => by cases none)
        (fun _ none => by cases none) rfl (fun _ none => by cases none) ⟨rfl, rfl⟩
  | @get start environment _ _ ran =>
      obtain rfl : environment = .smooth := smooth
      refine ran.idMove zones numZones custody agrees small (fun id location same =>
        transfers id location (by rw [same])) fun id location same => ?_
      subst same
      exact knows positive
  | @evict caller _ _ environment _ ran =>
      obtain rfl : environment = .smooth := smooth
      exact (chunkEvictStep_spec ran).idMove custody agrees knows
  | @evicted caller _ environment _ ran =>
      obtain rfl : environment = .smooth := smooth
      exact (chunkEvictStep_spec ran).idMove custody agrees knows

end Moves

/-! ## What a step keeps -/

/-- No slot and no pair that has been handed out names an identifier. -/
structure IdsUnset (config : CacheConfig) (cache : ChunkCache Unit)
    (pc : ThreadPc ChunkEvictPc) : Prop where
  zeroIds : ∀ place, (cache.evictionPolicy.slot place).id = 0
  carried : ∀ chunk, pc.carried = some chunk → chunk.2.id = 0 ∧ chunk.2.zone < config.nrZones
  inPool : ∀ zone chunk, (cache.evictionPolicy.slot (zone, chunk)).inUse = true →
    zone < config.nrZones ∧ chunk < config.maxZoneChunks

/-- The chunks in use are those listed, but for one that is about to be inserted and one
that has been popped and is about to be cleared. -/
structure SlotsListed (cache : ChunkCache Unit) (pc : ThreadPc ChunkEvictPc) : Prop where
  listed : ∀ zone chunk, (cache.evictionPolicy.slot (zone, chunk)).inUse = true →
    (∃ id, (cache.cacheMap.dataMap zone).lookup chunk = some id) ∨
      ∃ location, pc.inserting = some location ∧ location.place = (zone, chunk)
  used : ∀ zone chunk id, (cache.cacheMap.dataMap zone).lookup chunk = some id →
    (cache.evictionPolicy.slot (zone, chunk)).inUse = true ∨ pc.popped = some (zone, chunk)
  inserting : ∀ location, pc.inserting = some location →
    (cache.evictionPolicy.slot location.place).inUse = true
  popped : ∀ place, pc.popped = some place →
    (cache.evictionPolicy.slot place).inUse = false

/-- The disk holds what the tables list and what is about to be inserted. -/
structure IdsOnDisk (cache : ChunkCache Unit) (pc : ThreadPc ChunkEvictPc) : Prop where
  onDisk : ∀ zone chunk id, (cache.cacheMap.dataMap zone).lookup chunk = some id →
    cache.disk zone chunk = some id
  wrote : ∀ chunk, pc.wrote = some chunk →
    cache.disk chunk.2.zone chunk.2.chunkOffset = some chunk.1

section Kept

variable {config : CacheConfig} {cache after : ChunkCache Unit} {pc next : ThreadPc ChunkEvictPc}

theorem IdsUnset.move (unset : IdsUnset config cache pc)
    (move : IdMove config cache pc after next) : IdsUnset config after next := by
  obtain ⟨zeroIds, carried, inPool⟩ := unset
  have none : next.carried = none → ∀ chunk, next.carried = some chunk →
      chunk.2.id = 0 ∧ chunk.2.zone < config.nrZones := by
    intro nothing chunk some
    rw [nothing] at some
    cases some
  cases move with
  | stay _ slots _ carries =>
      refine ⟨fun place => ?_, fun chunk there => carried chunk (carries chunk there),
        fun zone chunk => ?_⟩
      · rw [slots]
        exact zeroIds place
      · rw [slots]
        exact inPool zone chunk
  | hit id location _ rest _ _ there =>
      rw [← rest.1] at zeroIds inPool
      exact ⟨zeroIds, none (by rw [there]; rfl), inPool⟩
  | handOut id location unnamed inZones same _ there =>
      rw [← same.2.1] at zeroIds inPool
      refine ⟨zeroIds, fun chunk carries => ?_, inPool⟩
      rw [there] at carries
      cases carries
      exact ⟨unnamed, inZones⟩
  | write id location _ same here there =>
      subst same here there
      exact ⟨zeroIds, carried, inPool⟩
  | record id location inZone slots _ here there =>
      subst here there
      obtain ⟨unnamed, inZones⟩ := carried (id, location) rfl
      refine ⟨fun place => ?_, carried, fun zone chunk => ?_⟩
      · rw [slots]
        split
        · exact unnamed
        · exact zeroIds place
      · rw [slots]
        split
        next same =>
            cases same
            exact fun _ => ⟨inZones, inZone⟩
        next => exact inPool zone chunk
  | insert id location same _ there =>
      subst same
      exact ⟨zeroIds, none (by rw [there]; rfl), inPool⟩
  | pop place slots _ _ _ plain =>
      refine ⟨fun other => ?_, none plain.1, fun zone chunk => ?_⟩
      · rw [slots]
        split <;> exact zeroIds _
      · rw [slots]
        split
        next => simp
        next => exact inPool zone chunk
  | clear place _ same _ _ _ plain =>
      rw [← same.1] at zeroIds inPool
      exact ⟨zeroIds, none plain.1, inPool⟩
  | clearZone zone _ same _ _ plain =>
      rw [← same.1] at zeroIds inPool
      exact ⟨zeroIds, none plain.1, inPool⟩
  | reset zone _ same _ _ plain =>
      rw [← same.2] at zeroIds inPool
      exact ⟨zeroIds, none plain.1, inPool⟩

theorem IdMove.listed (move : IdMove config cache pc after next) {zone chunk id : Nat}
    (there : (after.cacheMap.dataMap zone).lookup chunk = some id) :
    (cache.cacheMap.dataMap zone).lookup chunk = some id ∨
      ∃ location, pc = .get (.insert id location) ∧ location.place = (zone, chunk) := by
  cases move with
  | stay data =>
      rw [data] at there
      exact .inl there
  | hit _ _ data =>
      rw [data] at there
      exact .inl there
  | handOut _ _ _ _ same | record _ _ _ _ same =>
      rw [same.1] at there
      exact .inl there
  | write _ _ _ same =>
      subst same
      exact .inl there
  | insert other location same here =>
      subst same here
      have lookup := CacheMap.located_lookup cache.cacheMap other location zone chunk
      rw [there] at lookup
      split at lookup
      next place =>
          cases lookup
          obtain ⟨rfl, rfl⟩ := place
          exact .inr ⟨location, rfl, rfl⟩
      next => exact .inl lookup.symm
  | pop _ _ same | reset _ _ same =>
      rw [same.1] at there
      exact .inl there
  | clear place lookups =>
      rw [lookups] at there
      split at there
      next => cases there
      next => exact .inl there
  | clearZone cleared _ _ data =>
      rw [data] at there
      by_cases here : zone = cleared
      · subst here
        simp at there
      · rw [Function.update_of_ne here] at there
        exact .inl there

theorem IdMove.disk (move : IdMove config cache pc after next) :
    (∀ zone chunk id, (after.cacheMap.dataMap zone).lookup chunk = some id →
      after.disk zone chunk = cache.disk zone chunk) ∧
    ∀ chunk, next.wrote = some chunk →
      pc.wrote = some chunk ∧ after.disk = cache.disk ∨
        after.disk chunk.2.zone chunk.2.chunkOffset = some chunk.1 := by
  have same : after.disk = cache.disk → ∀ zone chunk id,
      (after.cacheMap.dataMap zone).lookup chunk = some id →
        after.disk zone chunk = cache.disk zone chunk := fun same zone chunk _ _ => by rw [same]
  have none : next.carried = none → ∀ chunk, next.wrote = some chunk →
      pc.wrote = some chunk ∧ after.disk = cache.disk ∨
        after.disk chunk.2.zone chunk.2.chunkOffset = some chunk.1 := by
    intro nothing chunk there
    have carried := ThreadPc.carried_of_wrote there
    rw [nothing] at carried
    cases carried
  cases move with
  | stay _ _ disk _ writes =>
      exact ⟨same disk, fun chunk there => .inl ⟨writes chunk there, disk⟩⟩
  | hit _ _ _ rest _ _ there => exact ⟨same rest.2, none (by rw [there]; rfl)⟩
  | handOut id location _ _ rest _ there =>
      refine ⟨same rest.2.2, fun chunk writes => ?_⟩
      rw [there] at writes
      cases writes
  | write id location unlisted rest _ there =>
      subst rest
      have written := cache.writeChunk_disk location (some id)
      refine ⟨fun zone chunk other here => (written zone chunk).trans (if_neg fun place => ?_),
        fun chunk writes => .inr ?_⟩
      · obtain ⟨rfl, rfl⟩ := place
        exact unlisted other here
      · rw [there] at writes
        cases writes
        exact (written _ _).trans (if_pos ⟨rfl, rfl⟩)
  | record id location _ _ rest here there =>
      subst here there
      exact ⟨same rest.2, fun chunk writes => .inl ⟨writes, rest.2⟩⟩
  | insert id location rest _ there =>
      subst rest
      exact ⟨same rfl, none (by rw [there]; rfl)⟩
  | pop _ _ rest _ _ plain => exact ⟨same rest.2, none plain.1⟩
  | clear _ _ rest _ _ _ plain => exact ⟨same rest.2, none plain.1⟩
  | clearZone _ _ rest _ _ plain => exact ⟨same rest.2, none plain.1⟩
  | reset zone unlisted map rest _ plain =>
      refine ⟨fun other chunk id listed => ?_, none plain.1⟩
      rw [map.1] at listed
      have apart : other ≠ zone := fun here => unlisted chunk id (here ▸ listed)
      rw [rest other apart]

theorem IdsOnDisk.move (disk : IdsOnDisk cache pc) (move : IdMove config cache pc after next) :
    IdsOnDisk after next := by
  obtain ⟨kept, written⟩ := move.disk
  constructor
  · intro zone chunk id there
    rw [kept zone chunk id there]
    rcases move.listed there with before | ⟨location, here, place⟩
    · exact disk.onDisk zone chunk id before
    · obtain ⟨rfl, rfl⟩ := Prod.mk.inj place
      exact disk.wrote (id, location) (by rw [here]; rfl)
  · intro chunk writes
    rcases written chunk writes with ⟨before, same⟩ | there
    · rw [same]
      exact disk.wrote chunk before
    · exact there

namespace SlotsListed

theorem listed_of_quiet (slots : SlotsListed cache pc) (quiet : pc.inserting = none)
    {zone chunk : Nat} (inUse : (cache.evictionPolicy.slot (zone, chunk)).inUse = true) :
    ∃ id, (cache.cacheMap.dataMap zone).lookup chunk = some id := by
  rcases slots.listed zone chunk inUse with there | ⟨location, inserts, _⟩
  · exact there
  · rw [quiet] at inserts
    cases inserts

theorem used_of_quiet (slots : SlotsListed cache pc) (quiet : pc.popped = none)
    {zone chunk id : Nat} (there : (cache.cacheMap.dataMap zone).lookup chunk = some id) :
    (cache.evictionPolicy.slot (zone, chunk)).inUse = true := by
  rcases slots.used zone chunk id there with inUse | left
  · exact inUse
  · rw [quiet] at left
    cases left

theorem of_quiet
    (listed : ∀ zone chunk, (cache.evictionPolicy.slot (zone, chunk)).inUse = true →
      ∃ id, (cache.cacheMap.dataMap zone).lookup chunk = some id)
    (used : ∀ zone chunk id, (cache.cacheMap.dataMap zone).lookup chunk = some id →
      (cache.evictionPolicy.slot (zone, chunk)).inUse = true)
    (quiet : pc.inserting = none ∧ pc.popped = none) : SlotsListed cache pc where
  listed := fun zone chunk inUse => .inl (listed zone chunk inUse)
  used := fun zone chunk id there => .inl (used zone chunk id there)
  inserting := fun location inserts => by
    rw [quiet.1] at inserts
    cases inserts
  popped := fun place left => by
    rw [quiet.2] at left
    cases left

theorem stay (slots : SlotsListed cache pc)
    (data : after.cacheMap.dataMap = cache.cacheMap.dataMap)
    (same : ∀ place, after.evictionPolicy.slot place = cache.evictionPolicy.slot place)
    (kept : next.popped = pc.popped) (quiet : pc.inserting = none ∧ next.inserting = none) :
    SlotsListed after next := by
  refine ⟨fun zone chunk inUse => .inl ?_, fun zone chunk id there => ?_,
    fun location inserts => ?_, fun place left => ?_⟩
  · rw [same] at inUse
    rw [data]
    exact slots.listed_of_quiet quiet.1 inUse
  · rw [same, kept]
    rw [data] at there
    exact slots.used zone chunk id there
  · rw [quiet.2] at inserts
    cases inserts
  · rw [same]
    exact slots.popped place (kept ▸ left)

theorem record {id : Nat} {location : ZnPair}
    (slots : SlotsListed cache (.get (.record id location)))
    (recorded : ∀ place, after.evictionPolicy.slot place =
      if place = (location.zone, location.chunkOffset) then
        ⟨location.zone, location.chunkOffset, location.id, true⟩
      else cache.evictionPolicy.slot place)
    (same : after.cacheMap = cache.cacheMap) :
    SlotsListed after (.get (.insert id location)) := by
  refine ⟨fun zone chunk inUse => ?_, fun zone chunk other there => .inl ?_,
    fun place inserts => ?_, fun place left => by cases left⟩
  · rw [recorded] at inUse
    rw [same]
    split at inUse
    next here => exact .inr ⟨location, rfl, here.symm⟩
    next => exact .inl (slots.listed_of_quiet rfl inUse)
  · rw [same] at there
    rw [recorded]
    split
    next => rfl
    next => exact slots.used_of_quiet rfl there
  · cases inserts
    rw [recorded]
    exact congrArg ZnPair.inUse (if_pos rfl)

theorem insert {id : Nat} {location : ZnPair}
    (slots : SlotsListed cache (.get (.insert id location))) :
    SlotsListed { cache with cacheMap := cache.cacheMap.located id location } .idle := by
  have lookups := CacheMap.located_lookup cache.cacheMap id location
  refine of_quiet (fun zone chunk inUse => ?_) (fun zone chunk other there => ?_) ⟨rfl, rfl⟩
  · simp only [lookups]
    split
    next => exact ⟨id, rfl⟩
    next elsewhere =>
        rcases slots.listed zone chunk inUse with there | ⟨place, here, same⟩
        · exact there
        · cases here
          exact absurd (Prod.mk.inj same.symm) elsewhere
  · have lookup := lookups zone chunk
    rw [there] at lookup
    split at lookup
    next here =>
        obtain ⟨rfl, rfl⟩ := here
        exact slots.inserting location rfl
    next => exact slots.used_of_quiet rfl lookup.symm

theorem pop (slots : SlotsListed cache pc) {place : Slot}
    (taken : ∀ other, after.evictionPolicy.slot other = if other = place then
      { cache.evictionPolicy.slot place with inUse := false }
      else cache.evictionPolicy.slot other)
    (same : after.cacheMap = cache.cacheMap) (quiet : pc.popped = none ∧ pc.inserting = none)
    (left : next.popped = some place) (plain : next.inserting = none) :
    SlotsListed after next := by
  refine ⟨fun zone chunk inUse => .inl ?_, fun zone chunk id there => ?_,
    fun location inserts => ?_, fun other here => ?_⟩
  · rw [taken] at inUse
    rw [same]
    split at inUse
    next => cases inUse
    next => exact slots.listed_of_quiet quiet.2 inUse
  · rw [same] at there
    rw [taken, left]
    split
    next here => exact .inr (congrArg some here.symm)
    next => exact .inl (slots.used_of_quiet quiet.1 there)
  · rw [plain] at inserts
    cases inserts
  · rw [left] at here
    cases here
    rw [taken]
    exact congrArg ZnPair.inUse (if_pos rfl)

theorem clear (slots : SlotsListed cache pc) {place : Slot}
    (lookups : ∀ zone chunk, (after.cacheMap.dataMap zone).lookup chunk =
      if (zone, chunk) = place then none else (cache.cacheMap.dataMap zone).lookup chunk)
    (same : after.evictionPolicy = cache.evictionPolicy) (gone : pc.popped = some place)
    (quiet : pc.inserting = none) (plain : next.inserting = none ∧ next.popped = none) :
    SlotsListed after next := by
  refine of_quiet (fun zone chunk inUse => ?_) (fun zone chunk id there => ?_) plain
  · rw [same] at inUse
    simp only [lookups]
    split
    next here =>
        have free := slots.popped place gone
        rw [← here, inUse] at free
        cases free
    next => exact slots.listed_of_quiet quiet inUse
  · rw [lookups] at there
    rw [same]
    split at there
    next => cases there
    next elsewhere =>
        refine (slots.used zone chunk id there).resolve_right fun left => elsewhere ?_
        exact (Option.some.inj (gone.symm.trans left)).symm

theorem clearZone (slots : SlotsListed cache pc) {zone : Nat}
    (unused : ∀ chunk, (cache.evictionPolicy.slot (zone, chunk)).inUse = false)
    (data : after.cacheMap.dataMap = Function.update cache.cacheMap.dataMap zone ∅)
    (same : after.evictionPolicy = cache.evictionPolicy)
    (quiet : pc.inserting = none ∧ pc.popped = none)
    (plain : next.inserting = none ∧ next.popped = none) : SlotsListed after next := by
  refine of_quiet (fun other chunk inUse => ?_) (fun other chunk id there => ?_) plain
  · rw [same] at inUse
    by_cases here : other = zone
    · subst here
      rw [unused] at inUse
      cases inUse
    · rw [data, Function.update_of_ne here]
      exact slots.listed_of_quiet quiet.1 inUse
  · rw [data] at there
    rw [same]
    by_cases here : other = zone
    · subst here
      simp at there
    · rw [Function.update_of_ne here] at there
      exact slots.used_of_quiet quiet.2 there

theorem move (slots : SlotsListed cache pc) (unset : IdsUnset config cache pc)
    (move : IdMove config cache pc after next) : SlotsListed after next := by
  cases move with
  | stay data same _ _ _ kept _ quiet => exact slots.stay data same kept quiet
  | hit id location data rest _ here there =>
      subst here there
      exact slots.stay data (fun _ => by rw [rest.1]) rfl ⟨rfl, rfl⟩
  | handOut id location _ _ same here there =>
      subst here there
      exact slots.stay (by rw [same.1]) (fun _ => by rw [same.2.1]) rfl ⟨rfl, rfl⟩
  | write id location _ same here there =>
      subst same here there
      exact slots.stay rfl (fun _ => rfl) rfl ⟨rfl, rfl⟩
  | record id location _ recorded same here there =>
      subst here there
      exact slots.record recorded same.1
  | insert id location same here there =>
      subst same here there
      exact slots.insert
  | pop place taken same quiet left plain =>
      exact slots.pop taken same.1 quiet left (ThreadPc.not_inserting plain.1)
  | clear place lookups same gone quiet done plain =>
      exact slots.clear lookups same.1 gone quiet ⟨ThreadPc.not_inserting plain.1, done⟩
  | clearZone zone unused same data quiet plain =>
      refine slots.clearZone (fun chunk => ?_) data same.1 ⟨quiet.2.2, quiet.1⟩
        ⟨ThreadPc.not_inserting plain.1, quiet.2.1⟩
      by_contra used
      have inUse := Bool.of_not_eq_false used
      rw [unused chunk (unset.inPool zone chunk inUse).2] at inUse
      cases inUse
  | reset zone _ same _ quiet plain =>
      exact slots.stay (by rw [same.1]) (fun _ => by rw [same.2]) (quiet.2.1.trans quiet.1.symm)
        ⟨quiet.2.2, ThreadPc.not_inserting plain.1⟩

end SlotsListed

def HitListed (cache : ChunkCache Unit) (pc : ThreadPc ChunkEvictPc) : Prop :=
  ∀ id, pc.hits = some id →
    ∃ zone chunk, (cache.cacheMap.dataMap zone).lookup chunk = some id

theorem HitListed.move (hits : HitListed cache pc) (move : IdMove config cache pc after next) :
    HitListed after next := by
  intro id here
  cases move with
  | stay data _ _ _ _ _ before =>
      rw [data]
      exact hits id (before id here)
  | hit other location data _ listed _ there =>
      rw [there] at here
      cases here
      rw [data]
      exact ⟨location.zone, location.chunkOffset, listed⟩
  | handOut _ _ _ _ _ _ there | write _ _ _ _ _ there | record _ _ _ _ _ _ there =>
      rw [there] at here
      cases here
  | insert _ _ _ _ there =>
      rw [there] at here
      cases here
  | pop _ _ _ _ _ plain | clear _ _ _ _ _ _ plain | clearZone _ _ _ _ _ plain =>
      rw [plain.2] at here
      cases here
  | reset _ _ _ _ _ plain =>
      rw [plain.2] at here
      cases here

end Kept

end ZNCache
