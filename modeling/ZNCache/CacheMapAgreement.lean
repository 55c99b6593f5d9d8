import Mathlib.Algebra.Order.Group.Multiset
import Mathlib.Data.Multiset.UnionInter
import ZNCache.CacheMap

/-!
# Agreement of the two maps

`CacheMapAgrees map writers` says which entries are being written and by whom,
that the reverse table names located identifiers only, and that nobody sleeps on
an entry without a writer.  `LocatedListed map` is the other direction: what is
located is listed, so that clearing a zone reaches it.
-/

set_option autoImplicit false

namespace ZNCache

variable {Thread : Type}

structure CacheMapAgrees (map : CacheMap Thread) (writers : Multiset Nat) : Prop where
  keySmall : ∀ id entry, map.zoneMap id = some entry → id < 2 ^ 32
  writersNodup : writers.Nodup
  claimed : ∀ id, id ∈ writers ↔
    ∃ entry, map.zoneMap id = some entry ∧ entry.type = .cond
  listed : ∀ zone chunk id, (map.dataMap zone).lookup chunk = some id →
    ∃ entry, map.zoneMap id = some entry ∧ entry.type = .loc ∧
      entry.location.zone = zone ∧ entry.location.chunkOffset = chunk
  asleep : ∀ id entry, map.zoneMap id = some entry → entry.writeFinished ≠ [] →
    entry.type = .cond

def CacheMap.Locates (map : CacheMap Thread) (id : Nat) (location : ZnPair) : Prop :=
  ∃ entry, map.zoneMap id = some entry ∧ entry.type = .loc ∧ entry.location = location

def LocatedListed (map : CacheMap Thread) : Prop :=
  ∀ id location, map.Locates id location →
    (map.dataMap location.zone).lookup location.chunkOffset = some id

/-! ## Finding -/

/-- The identifier that a find makes its caller the writer of. -/
def FindResult.claims (id : Nat) : FindResult → Multiset Nat
  | .loc _ => 0
  | .cond => {id}
  | .wait => 0

inductive FindSpec (thread : Thread) (map : CacheMap Thread) (id : Nat) :
    FindResult → CacheMap Thread → Prop
  | loc (entry : ZoneMapResult Thread) (found : map.zoneMap id = some entry)
      (located : entry.type = .loc) :
      FindSpec thread map id (.loc entry.location)
        { map with
          activeReaders := Function.update map.activeReaders entry.location.zone
            (map.activeReaders entry.location.zone + 1) }
  | wait (entry : ZoneMapResult Thread) (found : map.zoneMap id = some entry)
      (busy : entry.type = .cond) :
      FindSpec thread map id .wait
        (map.setEntry id { entry with writeFinished := entry.writeFinished ++ [thread] })
  | claim (entry : ZoneMapResult Thread)
      (unclaimed : ∀ old, map.zoneMap id = some old → old.type = .empty)
      (busy : entry.type = .cond) :
      FindSpec thread map id .cond (map.setEntry id entry)

theorem znCachemapFind_spec (thread : Thread) (map : CacheMap Thread) {id : Nat}
    (small : id < 2 ^ 32) :
    FindSpec thread map id (znCachemapFind thread map id).1
      (znCachemapFind thread map id).2 := by
  unfold znCachemapFind
  rw [gintToPointer_of_u32 small]
  cases found : map.zoneMap id with
  | none =>
      simp only
      exact .claim _ (by simp [found]) rfl
  | some entry =>
      cases type : entry.type with
      | loc =>
          simp only [type]
          exact .loc entry found type
      | cond =>
          simp only [type]
          have busy : map.setEntry id ⟨entry.location, entry.writeFinished ++ [thread], .cond⟩ =
              map.setEntry id { entry with writeFinished := entry.writeFinished ++ [thread] } := by
            rw [← type]
          rw [busy]
          exact .wait entry found type
      | empty =>
          simp only [type]
          refine .claim _ ?_ rfl
          intro old oldFound
          cases Option.some.inj (found.symm.trans oldFound)
          exact type

section Agreement

variable {map : CacheMap Thread} {writers : Multiset Nat}

theorem CacheMapAgrees.init : CacheMapAgrees (znCachemapInit : CacheMap Thread) 0 := by
  constructor <;> simp [znCachemapInit]

theorem CacheMapAgrees.setReaders (agrees : CacheMapAgrees map writers)
    (readers : Nat → Int) : CacheMapAgrees { map with activeReaders := readers } writers :=
  ⟨agrees.keySmall, agrees.writersNodup, agrees.claimed, agrees.listed, agrees.asleep⟩

theorem CacheMapAgrees.setUnlocated (agrees : CacheMapAgrees map writers)
    {id : Nat} {entry : ZoneMapResult Thread} {writers' : Multiset Nat}
    (small : id < 2 ^ 32)
    (unlocated : ∀ old, map.zoneMap id = some old → old.type ≠ .loc)
    (nodup : writers'.Nodup) (own : id ∈ writers' ↔ entry.type = .cond)
    (sleepers : entry.writeFinished ≠ [] → entry.type = .cond)
    (rest : ∀ other, other ≠ id → (other ∈ writers' ↔ other ∈ writers)) :
    CacheMapAgrees (map.setEntry id entry) writers' := by
  constructor
  · intro other old found
    by_cases same : other = id
    · exact same ▸ small
    · exact agrees.keySmall other old (by simpa [same] using found)
  · exact nodup
  · intro other
    by_cases same : other = id
    · subst same
      simpa using own
    · rw [rest other same, agrees.claimed other]
      simp [same]
  · intro zone chunk other listed
    obtain ⟨old, found, located, inZone, atChunk⟩ := agrees.listed zone chunk other listed
    have apart : other ≠ id := by
      intro equal
      subst equal
      exact unlocated old found located
    exact ⟨old, by simpa [apart] using found, located, inZone, atChunk⟩
  · intro other old found asleep
    by_cases same : other = id
    · subst same
      rw [setEntry_zoneMap, Function.update_self, Option.some.injEq] at found
      subst found
      exact sleepers asleep
    · exact agrees.asleep other old (by simpa [same] using found) asleep

theorem FindSpec.agrees {thread : Thread} {id : Nat} {result : FindResult}
    {after : CacheMap Thread} (agrees : CacheMapAgrees map writers) (small : id < 2 ^ 32)
    (found : FindSpec thread map id result after) :
    CacheMapAgrees after (result.claims id + writers) := by
  cases found with
  | loc entry found located =>
      rw [FindResult.claims, zero_add]
      exact agrees.setReaders _
  | wait entry found busy =>
      rw [FindResult.claims, zero_add]
      have member : id ∈ writers := (agrees.claimed id).mpr ⟨entry, found, busy⟩
      refine agrees.setUnlocated small ?_ agrees.writersNodup ?_ (fun _ => busy)
        (fun _ _ => Iff.rfl)
      · intro old oldFound
        cases Option.some.inj (found.symm.trans oldFound)
        simp [busy]
      · simp [member, busy]
  | claim entry unclaimed busy =>
      rw [FindResult.claims, Multiset.singleton_add]
      have absent : id ∉ writers := by
        intro member
        obtain ⟨old, found, oldBusy⟩ := (agrees.claimed id).mp member
        rw [unclaimed old found] at oldBusy
        cases oldBusy
      refine agrees.setUnlocated small ?_ ?_ ?_ (fun _ => busy) ?_
      · intro old found
        simp [unclaimed old found]
      · exact Multiset.nodup_cons.mpr ⟨absent, agrees.writersNodup⟩
      · simp [busy]
      · intro other apart
        simp [apart]

theorem CacheMapAgrees.wakeUp [DecidableEq Thread] (agrees : CacheMapAgrees map writers)
    (thread : Thread) {id : Nat} (small : id < 2 ^ 32) :
    CacheMapAgrees (map.wakeUp thread id) writers := by
  unfold CacheMap.wakeUp
  rw [gintToPointer_of_u32 small]
  cases found : map.zoneMap id with
  | none => exact agrees
  | some entry =>
      by_cases located : entry.type = .loc
      · have nobody : entry.writeFinished = [] := by
          by_contra someone
          have busy := agrees.asleep id entry found someone
          simp [located] at busy
        have same : map.setEntry id
            { entry with writeFinished := entry.writeFinished.erase thread } = map := by
          simp only [nobody, List.erase_nil, CacheMap.setEntry]
          rw [← nobody, Function.update_eq_self_iff.mpr found.symm]
        simp only [same]
        exact agrees
      · refine agrees.setUnlocated small ?_ agrees.writersNodup ?_ ?_ (fun _ _ => Iff.rfl)
        · intro old oldFound
          cases Option.some.inj (found.symm.trans oldFound)
          exact located
        · rw [agrees.claimed id]
          simp [found]
        · intro someone
          refine agrees.asleep id entry found fun nobody => someone ?_
          simp [nobody]

/-! ## Inserting and failing -/

theorem CacheMapAgrees.writer_entry {id : Nat}
    (agrees : CacheMapAgrees map (id ::ₘ writers)) :
    id < 2 ^ 32 ∧ id ∉ writers ∧
      ∃ entry, map.zoneMap id = some entry ∧ entry.type = .cond := by
  obtain ⟨entry, found, busy⟩ := (agrees.claimed id).mp (by simp)
  exact ⟨agrees.keySmall id entry found, (Multiset.nodup_cons.mp agrees.writersNodup).1,
    entry, found, busy⟩

theorem CacheMapAgrees.located {id : Nat} (agrees : CacheMapAgrees map (id ::ₘ writers))
    (location : ZnPair) : CacheMapAgrees (map.located id location) writers := by
  obtain ⟨small, absent, entry, found, busy⟩ := agrees.writer_entry
  have zoneMap : ∀ other, (map.located id location).zoneMap other =
      if other = id then some ⟨location, [], .loc⟩ else map.zoneMap other :=
    fun other => Function.update_apply ..
  constructor
  · intro other old oldFound
    rw [zoneMap other] at oldFound
    split at oldFound
    next same => exact same ▸ small
    next => exact agrees.keySmall other old oldFound
  · exact (Multiset.nodup_cons.mp agrees.writersNodup).2
  · intro other
    rw [zoneMap other]
    by_cases same : other = id
    · subst same
      simp [absent]
    · have claimed := agrees.claimed other
      rw [Multiset.mem_cons] at claimed
      simpa [same] using claimed
  · intro zone chunk other listed
    rw [CacheMap.located_lookup] at listed
    rw [zoneMap other]
    split at listed
    next here =>
        cases Option.some.inj listed
        exact ⟨_, if_pos rfl, rfl, here.1.symm, here.2.symm⟩
    next =>
        obtain ⟨old, oldFound, located, rest⟩ := agrees.listed zone chunk other listed
        have apart : other ≠ id := by
          intro equal
          subst equal
          cases Option.some.inj (found.symm.trans oldFound)
          simp [busy] at located
        exact ⟨old, by rw [if_neg apart, oldFound], located, rest⟩
  · intro other old oldFound someone
    rw [zoneMap other] at oldFound
    split at oldFound
    next =>
        cases Option.some.inj oldFound
        exact absurd rfl someone
    next => exact agrees.asleep other old oldFound someone

theorem CacheMapAgrees.insert {id : Nat} (agrees : CacheMapAgrees map (id ::ₘ writers))
    (location : ZnPair) :
    znCachemapInsert map id location = some ⟨(), map.located id location, true⟩ := by
  obtain ⟨small, _, entry, found, busy⟩ := agrees.writer_entry
  rw [znCachemapInsert_found small found location]
  simp [busy]

theorem CacheMapAgrees.fail {id : Nat} (agrees : CacheMapAgrees map (id ::ₘ writers)) :
    ∃ outcome entry, znCachemapFail map id = some outcome ∧ outcome.asserts = true ∧
      CacheMapAgrees outcome.state writers ∧ entry.type = .empty ∧
      outcome.state = map.setEntry id entry := by
  obtain ⟨small, absent, entry, found, busy⟩ := agrees.writer_entry
  have nodup := (Multiset.nodup_cons.mp agrees.writersNodup).2
  refine ⟨⟨(), map.setEntry id { entry with writeFinished := [], type := .empty }, true⟩,
    { entry with writeFinished := [], type := .empty }, ?_, rfl, ?_, rfl, rfl⟩
  · simp [znCachemapFail, gintToPointer_of_u32 small, found, busy]
  · refine agrees.setUnlocated small ?_ nodup ?_ ?_ ?_
    · intro old oldFound
      cases Option.some.inj (found.symm.trans oldFound)
      simp [busy]
    · simp [absent]
    · simp
    · intro other apart
      simp [apart]

end Agreement

/-! ## Clearing -/

structure SmallKeys (map : CacheMap Thread) : Prop where
  keys : ∀ id entry, map.zoneMap id = some entry → id < 2 ^ 32
  values : ∀ zone chunk id, (map.dataMap zone).lookup chunk = some id → id < 2 ^ 32

section Clearing

variable {map : CacheMap Thread} {writers : Multiset Nat}

theorem CacheMapAgrees.smallKeys (agrees : CacheMapAgrees map writers) : SmallKeys map where
  keys := agrees.keySmall
  values := by
    intro zone chunk id listed
    obtain ⟨entry, found, _⟩ := agrees.listed zone chunk id listed
    exact agrees.keySmall id entry found

/-- An identifier whose key survives the way back through `int` is below `2 ^ 31`. -/
theorem SmallKeys.clearKey_found (smallKeys : SmallKeys map) {id : Nat}
    (small : id < 2 ^ 32) (found : map.zoneMap (clearKey id) ≠ none) : clearKey id = id := by
  rcases Nat.lt_or_ge id (2 ^ 31) with low | high
  · exact clearKey_low low
  · obtain ⟨entry, found⟩ := Option.ne_none_iff_exists'.mp found
    have bound := smallKeys.keys _ entry found
    have above := clearKey_high high small
    omega

/-- What `zn_cachemap_clear_zone` leaves when it gets through: the listed
identifiers are emptied and nothing is listed in the zone. -/
theorem SmallKeys.clearZone_state (smallKeys : SmallKeys map) {zone : Nat}
    {outcome : Outcome (CacheMap Thread) Unit}
    (cleared : znCachemapClearZone map zone = some outcome) :
    (∀ id, outcome.state.zoneMap id =
      if id ∈ (map.dataMap zone).values then (map.zoneMap id).map ZoneMapResult.emptied
      else map.zoneMap id) ∧
    outcome.state.dataMap = Function.update map.dataMap zone ∅ ∧
    outcome.state.activeReaders = map.activeReaders := by
  obtain ⟨keys, present, sameData, sameReaders⟩ := znCachemapClearZone_state cleared
  have sameKeys : (map.dataMap zone).values.map clearKey = (map.dataMap zone).values := by
    refine (List.map_congr_left fun value member => ?_).trans (List.map_id _)
    obtain ⟨chunk, listed⟩ := GHashTable.mem_values.mp member
    exact smallKeys.clearKey_found (smallKeys.values zone chunk value listed)
      (present value member)
  rw [sameKeys] at keys
  exact ⟨keys, sameData, sameReaders⟩

theorem SmallKeys.located (smallKeys : SmallKeys map) {id : Nat} (small : id < 2 ^ 32)
    (location : ZnPair) : SmallKeys (map.located id location) := by
  constructor
  · intro other entry found
    by_cases same : other = id
    · exact same ▸ small
    · exact smallKeys.keys other entry (by simpa [CacheMap.located, same] using found)
  · intro zone chunk other listed
    rw [CacheMap.located_lookup] at listed
    split at listed
    next => exact Option.some.inj listed ▸ small
    next => exact smallKeys.values zone chunk other listed

theorem SmallKeys.clearZone (smallKeys : SmallKeys map) {zone : Nat}
    {outcome : Outcome (CacheMap Thread) Unit}
    (cleared : znCachemapClearZone map zone = some outcome) : SmallKeys outcome.state := by
  obtain ⟨zoneMap, dataMap, _⟩ := smallKeys.clearZone_state cleared
  constructor
  · intro id entry found
    rw [zoneMap id] at found
    split at found
    next =>
        obtain ⟨old, oldFound, _⟩ := Option.map_eq_some_iff.mp found
        exact smallKeys.keys id old oldFound
    next => exact smallKeys.keys id entry found
  · intro other chunk id listed
    rw [dataMap] at listed
    by_cases same : other = zone
    · subst same
      simp at listed
    · rw [Function.update_of_ne same] at listed
      exact smallKeys.values other chunk id listed

theorem CacheMapAgrees.clearZone (agrees : CacheMapAgrees map writers) {zone : Nat}
    {outcome : Outcome (CacheMap Thread) Unit}
    (cleared : znCachemapClearZone map zone = some outcome) :
    CacheMapAgrees outcome.state writers := by
  obtain ⟨zoneMap, dataMap, _⟩ := agrees.smallKeys.clearZone_state cleared
  have inZone : ∀ id, id ∈ (map.dataMap zone).values → ∃ entry,
      map.zoneMap id = some entry ∧ entry.type = .loc ∧ entry.location.zone = zone := by
    intro id member
    obtain ⟨chunk, listed⟩ := GHashTable.mem_values.mp member
    obtain ⟨entry, found, located, here, _⟩ := agrees.listed zone chunk id listed
    exact ⟨entry, found, located, here⟩
  constructor
  · intro id entry found
    rw [zoneMap id] at found
    split at found
    next =>
        obtain ⟨old, oldFound, _⟩ := Option.map_eq_some_iff.mp found
        exact agrees.keySmall id old oldFound
    next => exact agrees.keySmall id entry found
  · exact agrees.writersNodup
  · intro id
    rw [agrees.claimed id, zoneMap id]
    split
    next member =>
        obtain ⟨old, found, located, _⟩ := inZone id member
        simp [found, located, ZoneMapResult.emptied]
    next => rfl
  · intro other chunk id listed
    rw [dataMap] at listed
    by_cases same : other = zone
    · subst same
      simp at listed
    · rw [Function.update_of_ne same] at listed
      obtain ⟨entry, found, located, there, atChunk⟩ := agrees.listed other chunk id listed
      have unlisted : id ∉ (map.dataMap zone).values := by
        intro member
        obtain ⟨old, oldFound, _, here⟩ := inZone id member
        cases Option.some.inj (found.symm.trans oldFound)
        exact same (there.symm.trans here)
      exact ⟨entry, by rw [zoneMap id, if_neg unlisted, found], located, there, atChunk⟩
  · intro id entry found someone
    rw [zoneMap id] at found
    split at found
    next member =>
        obtain ⟨old, oldFound, located, _⟩ := inZone id member
        rw [oldFound] at found
        cases Option.some.inj found
        have busy := agrees.asleep id old oldFound someone
        simp [located] at busy
    next => exact agrees.asleep id entry found someone

theorem CacheMapAgrees.values_nodup (agrees : CacheMapAgrees map writers) (zone : Nat) :
    (map.dataMap zone).values.Nodup := by
  refine List.Nodup.map_on ?_ (map.dataMap zone).nodupKeys.nodup
  intro given oneIn also twoIn same
  obtain ⟨one, first⟩ := given
  obtain ⟨two, second⟩ := also
  cases same
  obtain ⟨entry, found, _, _, atOne⟩ :=
    agrees.listed zone one first (AList.mem_lookup_iff.mpr oneIn)
  obtain ⟨entry', found', _, _, atTwo⟩ :=
    agrees.listed zone two first (AList.mem_lookup_iff.mpr twoIn)
  cases Option.some.inj (found.symm.trans found')
  rw [← atOne, ← atTwo]

theorem CacheMapAgrees.clearZone_asserts (agrees : CacheMapAgrees map writers) {zone : Nat}
    (low : ∀ id entry, map.zoneMap id = some entry → id < 2 ^ 31) :
    ∃ outcome, znCachemapClearZone map zone = some outcome ∧ outcome.asserts = true := by
  have lowValue : ∀ value ∈ (map.dataMap zone).values, clearKey value = value ∧
      ∃ entry, map.zoneMap value = some entry ∧ entry.type = .loc ∧
        entry.location.zone = zone := by
    intro value member
    obtain ⟨chunk, listed⟩ := GHashTable.mem_values.mp member
    obtain ⟨entry, found, located, here, _⟩ := agrees.listed zone chunk value listed
    exact ⟨clearKey_low (low value entry found), entry, found, located, here⟩
  have nodup : ((map.dataMap zone).values.map clearKey).Nodup := by
    have sameKeys : (map.dataMap zone).values.map clearKey = (map.dataMap zone).values :=
      (List.map_congr_left fun value member => (lowValue value member).1).trans (List.map_id' _)
    rw [sameKeys]
    exact agrees.values_nodup zone
  obtain ⟨zoneMap, run⟩ := clearEntries_asserts zone _ (map.zoneMap, true) nodup (by
    intro value member
    rw [(lowValue value member).1]
    exact (lowValue value member).2)
  exact ⟨_, by simp only [znCachemapClearZone, run]; rfl, rfl⟩

end Clearing

/-! ## Where identifiers are located -/

section Locating

variable {map after : CacheMap Thread} {writers : Multiset Nat}

theorem locates_setEntry {id other : Nat} {entry : ZoneMapResult Thread} {location : ZnPair}
    (unlocated : entry.type ≠ .loc) (located : (map.setEntry id entry).Locates other location) :
    map.Locates other location := by
  obtain ⟨found, foundEq, isLoc, place⟩ := located
  by_cases same : other = id
  · subst same
    rw [setEntry_zoneMap, Function.update_self, Option.some.injEq] at foundEq
    exact absurd (foundEq ▸ isLoc) unlocated
  · exact ⟨found, by simpa [same] using foundEq, isLoc, place⟩

theorem FindSpec.locates {thread : Thread} {id : Nat} {result : FindResult}
    (found : FindSpec thread map id result after) :
    after.dataMap = map.dataMap ∧
      ∀ other location, after.Locates other location → map.Locates other location := by
  cases found with
  | loc entry found located => exact ⟨rfl, fun _ _ located => located⟩
  | wait entry found busy =>
      refine ⟨rfl, fun _ _ located => locates_setEntry ?_ located⟩
      simp [busy]
  | claim entry unclaimed busy =>
      refine ⟨rfl, fun _ _ located => locates_setEntry ?_ located⟩
      simp [busy]

theorem CacheMap.wakeUp_locates [DecidableEq Thread] (map : CacheMap Thread)
    (thread : Thread) (id : Nat) :
    (map.wakeUp thread id).dataMap = map.dataMap ∧
      (map.wakeUp thread id).activeReaders = map.activeReaders ∧
      ∀ other location, (map.wakeUp thread id).Locates other location →
        map.Locates other location := by
  unfold CacheMap.wakeUp
  cases found : map.zoneMap (gintToPointer id) with
  | none => exact ⟨rfl, rfl, fun _ _ located => located⟩
  | some entry =>
      refine ⟨rfl, rfl, fun other location => ?_⟩
      intro given
      obtain ⟨old, oldFound, isLoc, place⟩ := given
      by_cases same : other = gintToPointer id
      · subst same
        rw [setEntry_zoneMap, Function.update_self, Option.some.injEq] at oldFound
        subst oldFound
        exact ⟨entry, found, isLoc, place⟩
      · exact ⟨old, by simpa [same] using oldFound, isLoc, place⟩

theorem CacheMap.located_locates {id other : Nat} {location place : ZnPair}
    (located : (map.located id location).Locates other place) :
    other = id ∧ place = location ∨ other ≠ id ∧ map.Locates other place := by
  obtain ⟨entry, found, isLoc, there⟩ := located
  by_cases same : other = id
  · subst same
    simp only [CacheMap.located, Function.update_self, Option.some.injEq] at found
    subst found
    exact .inl ⟨rfl, there.symm⟩
  · exact .inr ⟨same, entry, by simpa [CacheMap.located, same] using found, isLoc, there⟩

theorem SmallKeys.clearZone_locates (smallKeys : SmallKeys map) (listed : LocatedListed map)
    {zone : Nat} {outcome : Outcome (CacheMap Thread) Unit}
    (cleared : znCachemapClearZone map zone = some outcome) {id : Nat} {location : ZnPair}
    (located : outcome.state.Locates id location) :
    map.Locates id location ∧ location.zone ≠ zone := by
  obtain ⟨zoneMap, _, _⟩ := smallKeys.clearZone_state cleared
  obtain ⟨entry, found, isLoc, there⟩ := located
  rw [zoneMap id] at found
  split at found
  next =>
      obtain ⟨old, _, rfl⟩ := Option.map_eq_some_iff.mp found
      simp [ZoneMapResult.emptied] at isLoc
  next unlisted =>
      have before : map.Locates id location := ⟨entry, found, isLoc, there⟩
      refine ⟨before, ?_⟩
      intro same
      subst same
      exact unlisted (GHashTable.mem_values.mpr ⟨_, listed id location before⟩)

theorem SmallKeys.clearChunk (smallKeys : SmallKeys map) (listed : LocatedListed map)
    {location : ZnPair} {outcome : Outcome (CacheMap Thread) Unit}
    (cleared : znCachemapClearChunk map location = some outcome) :
    SmallKeys outcome.state ∧ LocatedListed outcome.state ∧
      outcome.state.activeReaders = map.activeReaders ∧
      ∀ id place, outcome.state.Locates id place → map.Locates id place ∧
        ¬ (place.zone = location.zone ∧ place.chunkOffset = location.chunkOffset) := by
  unfold znCachemapClearChunk at cleared
  dsimp only [guintToPointer_eq] at cleared
  generalize valueIs : ((map.dataMap location.zone).lookup location.chunkOffset).getD 0 = value
    at cleared
  cases found : map.zoneMap (clearKey value) with
  | none => simp [found] at cleared
  | some res =>
      rw [found] at cleared
      cases Option.some.inj cleared
      have small := smallKeys.keys _ res found
      have erased : ∀ zone chunk id,
          (Function.update map.dataMap location.zone
            ((map.dataMap location.zone).erase location.chunkOffset) zone).lookup chunk = some id →
          (map.dataMap zone).lookup chunk = some id := by
        intro zone chunk id listed
        by_cases sameZone : zone = location.zone
        · subst sameZone
          by_cases sameChunk : chunk = location.chunkOffset
          · subst sameChunk
            simp at listed
          · simpa [AList.lookup_erase_ne sameChunk] using listed
        · simpa [sameZone] using listed
      have located : ∀ id place,
          CacheMap.Locates { map.setEntry (clearKey value) res.emptied with
            dataMap := Function.update map.dataMap location.zone
              ((map.dataMap location.zone).erase location.chunkOffset) } id place →
          map.Locates id place ∧
            ¬ (place.zone = location.zone ∧ place.chunkOffset = location.chunkOffset) := by
        intro id place given
        obtain ⟨entry, foundEntry, isLoc, there⟩ := given
        have apart : id ≠ clearKey value := by
          intro equal
          subst equal
          simp only [setEntry_zoneMap, Function.update_self, Option.some.injEq] at foundEntry
          subst foundEntry
          cases isLoc
        have before : map.Locates id place :=
          ⟨entry, by simpa [apart] using foundEntry, isLoc, there⟩
        refine ⟨before, ?_⟩
        intro given
        obtain ⟨sameZone, sameChunk⟩ := given
        have here := listed id place before
        rw [sameZone, sameChunk] at here
        rw [here, Option.getD_some] at valueIs
        subst valueIs
        apply apart
        refine (smallKeys.clearKey_found (smallKeys.values _ _ _ here) ?_).symm
        simp [found]
      refine ⟨⟨?_, fun zone chunk id here => smallKeys.values zone chunk id (erased _ _ _ here)⟩,
        ?_, rfl, located⟩
      · intro id entry foundEntry
        by_cases same : id = clearKey value
        · exact same ▸ small
        · exact smallKeys.keys id entry (by simpa [same] using foundEntry)
      · intro id place here
        obtain ⟨before, elsewhere⟩ := located id place here
        have listedBefore := listed id place before
        by_cases sameZone : place.zone = location.zone
        · have chunkApart : place.chunkOffset ≠ location.chunkOffset :=
            fun same => elsewhere ⟨sameZone, same⟩
          rw [sameZone] at listedBefore ⊢
          simpa [AList.lookup_erase_ne chunkApart] using listedBefore
        · simpa [sameZone] using listedBefore

theorem SmallKeys.setEntry (smallKeys : SmallKeys map) (listed : LocatedListed map) {key : Nat}
    (small : key < 2 ^ 32) (entry : ZoneMapResult Thread) (unlocated : entry.type ≠ .loc) :
    SmallKeys (map.setEntry key entry) ∧ LocatedListed (map.setEntry key entry) := by
  refine ⟨⟨?_, smallKeys.values⟩, fun id location located =>
    listed id location (locates_setEntry unlocated located)⟩
  intro id old found
  by_cases same : id = key
  · exact same ▸ small
  · exact smallKeys.keys id old (by simpa [same] using found)

theorem SmallKeys.insert (smallKeys : SmallKeys map) {id : Nat} {location : ZnPair}
    {answer : Outcome (CacheMap Thread) Unit}
    (inserted : znCachemapInsert map id location = some answer) :
    id < 2 ^ 32 ∧ answer.state = map.located id location := by
  cases found : map.zoneMap id with
  | none => simp [znCachemapInsert, found] at inserted
  | some entry =>
      have small := smallKeys.keys id entry found
      cases Option.some.inj (inserted.symm.trans (znCachemapInsert_found small found location))
      exact ⟨small, rfl⟩

theorem SmallKeys.fail (smallKeys : SmallKeys map) (listed : LocatedListed map) {id : Nat}
    {answer : Outcome (CacheMap Thread) Unit} (failed : znCachemapFail map id = some answer) :
    SmallKeys answer.state ∧ LocatedListed answer.state ∧
      answer.state.activeReaders = map.activeReaders ∧
      ∀ other location, answer.state.Locates other location → map.Locates other location := by
  cases found : map.zoneMap (gintToPointer id) with
  | none => simp [znCachemapFail, found] at failed
  | some entry =>
      simp only [znCachemapFail, found, Option.some.injEq] at failed
      subst failed
      have small := smallKeys.keys _ entry found
      obtain ⟨keys, stillListed⟩ := smallKeys.setEntry listed small
        { entry with writeFinished := [], type := .empty } (by simp)
      exact ⟨keys, stillListed, rfl, fun _ _ => locates_setEntry (by simp)⟩

theorem SmallKeys.wakeUp [DecidableEq Thread] (smallKeys : SmallKeys map) (thread : Thread)
    (id : Nat) : SmallKeys (map.wakeUp thread id) := by
  unfold CacheMap.wakeUp
  cases found : map.zoneMap (gintToPointer id) with
  | none => exact smallKeys
  | some entry =>
      refine ⟨fun other old oldFound => ?_, smallKeys.values⟩
      by_cases same : other = gintToPointer id
      · exact same ▸ smallKeys.keys _ entry found
      · exact smallKeys.keys other old (by simpa [same] using oldFound)

/-! What stays located. -/

theorem locates_setUnlocated {id other : Nat} {entry : ZoneMapResult Thread} {location : ZnPair}
    (unlocated : ∀ old, map.zoneMap id = some old → old.type ≠ .loc)
    (located : map.Locates other location) : (map.setEntry id entry).Locates other location := by
  obtain ⟨old, found, isLoc, there⟩ := located
  have apart : other ≠ id := fun same => unlocated old (same ▸ found) isLoc
  exact ⟨old, by simpa [apart] using found, isLoc, there⟩

theorem FindSpec.keepsLocated {thread : Thread} {id other : Nat} {result : FindResult}
    {location : ZnPair} (found : FindSpec thread map id result after)
    (located : map.Locates other location) : after.Locates other location := by
  cases found with
  | loc => exact located
  | wait entry found busy =>
      refine locates_setUnlocated (fun old same => ?_) located
      cases Option.some.inj (found.symm.trans same)
      simp [busy]
  | claim entry unclaimed =>
      refine locates_setUnlocated (fun old same => ?_) located
      simp [unclaimed old same]

theorem CacheMap.wakeUp_keepsLocated [DecidableEq Thread] (thread : Thread) {id other : Nat}
    {location : ZnPair} (located : map.Locates other location) :
    (map.wakeUp thread id).Locates other location := by
  unfold CacheMap.wakeUp
  cases found : map.zoneMap (gintToPointer id) with
  | none => exact located
  | some entry =>
      obtain ⟨old, oldFound, isLoc, there⟩ := located
      by_cases same : other = gintToPointer id
      · subst same
        cases Option.some.inj (found.symm.trans oldFound)
        exact ⟨{ entry with writeFinished := entry.writeFinished.erase thread },
          by simp only [setEntry_zoneMap, Function.update_self], isLoc, there⟩
      · exact ⟨old, by simpa [same] using oldFound, isLoc, there⟩

theorem CacheMapAgrees.located_keeps {id other : Nat}
    (agrees : CacheMapAgrees map (id ::ₘ writers)) (location : ZnPair) {place : ZnPair}
    (located : map.Locates other place) : (map.located id location).Locates other place := by
  obtain ⟨_, _, entry, found, busy⟩ := agrees.writer_entry
  obtain ⟨old, oldFound, isLoc, there⟩ := located
  have apart : other ≠ id := by
    intro same
    subst same
    cases Option.some.inj (found.symm.trans oldFound)
    simp [busy] at isLoc
  exact ⟨old, by simpa [CacheMap.located, apart] using oldFound, isLoc, there⟩

theorem CacheMap.located_self (id : Nat) (location : ZnPair) :
    (map.located id location).Locates id location :=
  ⟨_, by simp only [CacheMap.located, Function.update_self]; rfl, rfl, rfl⟩

theorem CacheMapAgrees.fail_keeps {id other : Nat}
    (agrees : CacheMapAgrees map (id ::ₘ writers)) {answer : Outcome (CacheMap Thread) Unit}
    (failed : znCachemapFail map id = some answer) {location : ZnPair}
    (located : map.Locates other location) : answer.state.Locates other location := by
  obtain ⟨_, _, entry, found, busy⟩ := agrees.writer_entry
  obtain ⟨outcome, emptied, ran, _, _, _, state⟩ := agrees.fail
  cases Option.some.inj (failed.symm.trans ran)
  rw [state]
  refine locates_setUnlocated (fun old same => ?_) located
  cases Option.some.inj (found.symm.trans same)
  simp [busy]

theorem CacheMapAgrees.clearZone_keeps (agrees : CacheMapAgrees map writers) {zone id : Nat}
    {answer : Outcome (CacheMap Thread) Unit}
    (cleared : znCachemapClearZone map zone = some answer) {location : ZnPair}
    (elsewhere : location.zone ≠ zone) (located : map.Locates id location) :
    answer.state.Locates id location := by
  obtain ⟨zoneMap, _, _⟩ := agrees.smallKeys.clearZone_state cleared
  obtain ⟨entry, found, isLoc, there⟩ := located
  have unlisted : id ∉ (map.dataMap zone).values := by
    intro member
    obtain ⟨chunk, listed⟩ := GHashTable.mem_values.mp member
    obtain ⟨old, oldFound, _, here, _⟩ := agrees.listed zone chunk id listed
    cases Option.some.inj (found.symm.trans oldFound)
    exact elsewhere (there ▸ here)
  exact ⟨entry, by rw [zoneMap id, if_neg unlisted, found], isLoc, there⟩

theorem LocatedListed.clearChunk (listed : LocatedListed map) {id : Nat}
    {entry : ZoneMapResult Thread} {pair : ZnPair} (low : id < 2 ^ 31)
    (found : map.zoneMap id = some entry) (isLoc : entry.type = .loc)
    (sameZone : entry.location.zone = pair.zone)
    (sameChunk : entry.location.chunkOffset = pair.chunkOffset) :
    (map.dataMap pair.zone).lookup pair.chunkOffset = some id ∧
      znCachemapClearChunk map pair = some ⟨(),
        { map.setEntry id entry.emptied with
          dataMap := Function.update map.dataMap pair.zone
            ((map.dataMap pair.zone).erase pair.chunkOffset) }, true⟩ := by
  have here := listed id entry.location ⟨entry, found, isLoc, rfl⟩
  rw [sameZone, sameChunk] at here
  refine ⟨here, ?_⟩
  simp [znCachemapClearChunk, here, clearKey_low low, found, isLoc, sameZone, sameChunk]

/-- A clearing that gets through found the identifier of the chunk under its own key. -/
theorem CacheMapAgrees.clearChunk_low (agrees : CacheMapAgrees map writers) {id : Nat}
    {pair : ZnPair} {answer : Outcome (CacheMap Thread) Unit}
    (stored : (map.dataMap pair.zone).lookup pair.chunkOffset = some id) (small : id < 2 ^ 32)
    (cleared : znCachemapClearChunk map pair = some answer) : id < 2 ^ 31 := by
  by_contra high
  have above := clearKey_high (Nat.le_of_not_lt high) small
  simp only [znCachemapClearChunk, guintToPointer_eq, stored, Option.getD_some] at cleared
  cases found : map.zoneMap (clearKey id) with
  | none => simp [found] at cleared
  | some entry =>
      have below := agrees.keySmall _ entry found
      omega

theorem CacheMapAgrees.clearChunk (agrees : CacheMapAgrees map writers) {id : Nat}
    {entry : ZoneMapResult Thread} {pair : ZnPair}
    (found : map.zoneMap id = some entry) (isLoc : entry.type = .loc)
    (sameZone : entry.location.zone = pair.zone)
    (sameChunk : entry.location.chunkOffset = pair.chunkOffset) :
    CacheMapAgrees { map.setEntry id entry.emptied with
      dataMap := Function.update map.dataMap pair.zone
        ((map.dataMap pair.zone).erase pair.chunkOffset) } writers := by
  have nobody : entry.writeFinished = [] := by
    by_contra someone
    have busy := agrees.asleep id entry found someone
    simp [isLoc] at busy
  constructor
  · intro other old oldFound
    by_cases same : other = id
    · exact same ▸ agrees.keySmall id entry found
    · exact agrees.keySmall other old (by simpa [same] using oldFound)
  · exact agrees.writersNodup
  · intro other
    rw [agrees.claimed other]
    by_cases same : other = id
    · subst same
      simp [found, isLoc, ZoneMapResult.emptied]
    · simp [same]
  · intro zone chunk other listed
    have before : (map.dataMap zone).lookup chunk = some other ∧
        ¬ (zone = pair.zone ∧ chunk = pair.chunkOffset) := by
      by_cases inZone : zone = pair.zone
      · subst inZone
        by_cases atChunk : chunk = pair.chunkOffset
        · subst atChunk
          simp at listed
        · exact ⟨by simpa [AList.lookup_erase_ne atChunk] using listed,
            fun both => atChunk both.2⟩
      · exact ⟨by simpa [inZone] using listed, fun both => inZone both.1⟩
    obtain ⟨old, oldFound, oldLoc, inZone, atChunk⟩ := agrees.listed zone chunk other before.1
    have apart : other ≠ id := by
      intro equal
      subst equal
      cases Option.some.inj (found.symm.trans oldFound)
      exact before.2 ⟨inZone.symm.trans sameZone, atChunk.symm.trans sameChunk⟩
    exact ⟨old, by simpa [apart] using oldFound, oldLoc, inZone, atChunk⟩
  · intro other old oldFound someone
    by_cases same : other = id
    · subst same
      simp only [setEntry_zoneMap, Function.update_self, Option.some.injEq] at oldFound
      subst oldFound
      exact absurd nobody someone
    · exact agrees.asleep other old (by simpa [same] using oldFound) someone

end Locating

end ZNCache
