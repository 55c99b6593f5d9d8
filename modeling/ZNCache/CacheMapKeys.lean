import ZNCache.CacheMapAgreement

/-!
# The key of an identifier

`zn_cachemap_find` and `zn_cachemap_insert` widen the identifier without its sign;
the clearing functions read it back through a signed `int`.  The two ways lead to the
same key exactly below `2 ^ 31`, and `zn_cachemap_clear_zone` takes the second way for
every identifier of the zone.
-/

set_option autoImplicit false

namespace ZNCache

variable {Thread : Type}

def EntryEmptied (before after : CacheMap Thread) (key : Nat) : Prop :=
  ∃ entry, before.zoneMap key = some entry ∧
    after.zoneMap = Function.update before.zoneMap key (some entry.emptied)

/-- Clearing a chunk or its zone acts on the entry that `zn_cachemap_find` looks up for the
identifier stored in the chunk. -/
structure ClearsOwnEntry (map : CacheMap Thread) (id : Nat) (location : ZnPair) : Prop where
  chunk : ∃ answer, znCachemapClearChunk map location = some answer ∧
    EntryEmptied map answer.state (gintToPointer id)
  /-- The pass of the loop of `zn_cachemap_clear_zone` for the chunk. -/
  pass : ∀ value, (map.dataMap location.zone).lookup location.chunkOffset = some value →
    ∀ (entries : Nat → Option (ZoneMapResult Thread)) (asserts : Bool) entry,
      entries (gintToPointer id) = some entry →
        ∃ held, clearEntry location.zone (entries, asserts) value =
          some (Function.update entries (gintToPointer id) (some entry.emptied), held)
  zone : ∃ answer, znCachemapClearZone map location.zone = some answer ∧
    (∃ entry, answer.state.zoneMap (gintToPointer id) = some entry ∧ entry.type = .empty) ∧
      ∀ key, (∀ chunk value, (map.dataMap location.zone).lookup chunk = some value →
        clearKey value ≠ key) → answer.state.zoneMap key = map.zoneMap key
  alone : (∀ chunk value, (map.dataMap location.zone).lookup chunk = some value →
      chunk = location.chunkOffset) →
    ∃ answer, znCachemapClearZone map location.zone = some answer ∧
      EntryEmptied map answer.state (gintToPointer id)

/-- What the other chunks of the zone store leads `zn_cachemap_clear_zone` to an entry, be it
the one that is about to be made for `id`. -/
def OthersFound (map : CacheMap Thread) (id : Nat) (location : ZnPair) : Prop :=
  ∀ chunk value, chunk ≠ location.chunkOffset →
    (map.dataMap location.zone).lookup chunk = some value →
      clearKey value = id ∨ map.zoneMap (clearKey value) ≠ none

section Located

variable {map : CacheMap Thread} {id : Nat} {location : ZnPair}

theorem located_stored :
    ((map.located id location).dataMap location.zone).lookup location.chunkOffset = some id := by
  rw [CacheMap.located_lookup, if_pos ⟨rfl, rfl⟩]

theorem located_entry :
    (map.located id location).zoneMap id = some ⟨location, [], .loc⟩ := by
  simp [CacheMap.located]

/-- The loop over the zone finds all its entries if and only if it finds those of the other
chunks. -/
theorem located_present (low : id < 2 ^ 31) :
    (∀ value ∈ ((map.located id location).dataMap location.zone).values,
      (map.located id location).zoneMap (clearKey value) ≠ none) ↔
      OthersFound map id location := by
  have entry : ∀ key, (map.located id location).zoneMap key ≠ none ↔
      key = id ∨ map.zoneMap key ≠ none := by
    intro key
    by_cases same : key = id
    · simp [CacheMap.located, same]
    · simp [CacheMap.located, same]
  constructor
  · intro present chunk value apart listed
    rw [← entry]
    refine present value (GHashTable.mem_values.mpr ⟨chunk, ?_⟩)
    rw [CacheMap.located_lookup, if_neg fun both => apart both.2, listed]
  · intro found value member
    obtain ⟨chunk, listed⟩ := GHashTable.mem_values.mp member
    rw [entry]
    rw [CacheMap.located_lookup] at listed
    by_cases here : chunk = location.chunkOffset
    · rw [if_pos ⟨rfl, here⟩] at listed
      cases Option.some.inj listed
      exact .inl (clearKey_low low)
    · rw [if_neg fun both => here both.2] at listed
      exact found chunk value here listed

theorem clears_of_low (low : id < 2 ^ 31) (others : OthersFound map id location) :
    ClearsOwnEntry (map.located id location) id location := by
  have own : gintToPointer id = id := gintToPointer_of_u32 (by omega)
  have back : clearKey id = id := clearKey_low low
  have stored : ((map.located id location).dataMap location.zone).lookup location.chunkOffset =
      some id := located_stored
  have entry : (map.located id location).zoneMap id = some ⟨location, [], .loc⟩ := located_entry
  obtain ⟨outcome, cleared, _⟩ := znCachemapClearZone_total ((located_present low).mpr others)
  obtain ⟨keys, _, _, _⟩ := znCachemapClearZone_state cleared
  have emptied : outcome.state.zoneMap id = some ⟨location, [], .empty⟩ := by
    rw [keys id, if_pos (List.mem_map.mpr ⟨id, GHashTable.mem_values.mpr ⟨_, stored⟩, back⟩),
      entry]
    rfl
  constructor
  · refine ⟨⟨(), { (map.located id location).setEntry id ⟨location, [], .empty⟩ with
        dataMap := Function.update (map.located id location).dataMap location.zone
          (((map.located id location).dataMap location.zone).erase location.chunkOffset) },
      true⟩, ?_, ?_⟩
    · simp [znCachemapClearChunk, stored, back, entry, ZoneMapResult.emptied]
    · rw [own]
      exact ⟨_, entry, rfl⟩
  · intro value listed entries asserts old found
    cases Option.some.inj (stored.symm.trans listed)
    rw [own] at found ⊢
    refine ⟨asserts && decide (old.type = .loc) && decide (old.location.zone = location.zone), ?_⟩
    simp only [clearEntry, back, found]
  · refine ⟨outcome, cleared, ?_, ?_⟩
    · rw [own]
      exact ⟨_, emptied, rfl⟩
    · intro key apart
      rw [keys key, if_neg]
      intro member
      obtain ⟨value, listed, same⟩ := List.mem_map.mp member
      obtain ⟨chunk, at_⟩ := GHashTable.mem_values.mp listed
      exact apart chunk value at_ same
  · intro only
    refine ⟨outcome, cleared, ?_⟩
    rw [own]
    refine ⟨_, entry, funext fun key => ?_⟩
    rw [Function.update_apply]
    by_cases same : key = id
    · rw [if_pos same, same, emptied]
      rfl
    · rw [if_neg same, keys key, if_neg]
      intro member
      obtain ⟨value, listed, atKey⟩ := List.mem_map.mp member
      obtain ⟨chunk, there⟩ := GHashTable.mem_values.mp listed
      rw [only chunk value there, stored] at there
      cases Option.some.inj there
      exact same (atKey.symm.trans back)

/-- From `2 ^ 31` on the clearing functions look up another key. -/
theorem not_clears_of_high (high : 2 ^ 31 ≤ id) (small : id < 2 ^ 32) :
    ¬ ClearsOwnEntry (map.located id location) id location := by
  intro clears
  have own : gintToPointer id = id := gintToPointer_of_u32 small
  have apart : id ≠ clearKey id := by
    have above := clearKey_high high small
    omega
  obtain ⟨answer, cleared, old, found, emptied⟩ := clears.chunk
  rw [own] at found emptied
  have entry : (map.located id location).zoneMap id = some ⟨location, [], .loc⟩ := located_entry
  cases Option.some.inj (entry.symm.trans found)
  unfold znCachemapClearChunk at cleared
  simp only [guintToPointer_eq, located_stored, Option.getD_some] at cleared
  split at cleared
  next => cases cleared
  next res _ =>
      cases Option.some.inj cleared
      have stays := congrFun emptied id
      simp only [setEntry_zoneMap, Function.update_of_ne apart, Function.update_self, entry,
        Option.some.injEq] at stays
      simp [ZoneMapResult.emptied] at stays

/-- In a map whose entries agree with what its zones list, the condition on the other chunks
is on the identifiers that they store. -/
theorem CacheMapAgrees.othersFound_iff {writers : Multiset Nat}
    (agrees : CacheMapAgrees map writers) (small : id < 2 ^ 32) :
    OthersFound map id location ↔ ∀ chunk value, chunk ≠ location.chunkOffset →
      (map.dataMap location.zone).lookup chunk = some value → value < 2 ^ 31 := by
  constructor
  · intro found chunk value apart listed
    by_contra high
    have above := clearKey_high (Nat.le_of_not_lt high)
      (agrees.smallKeys.values _ chunk value listed)
    rcases found chunk value apart listed with same | present
    · omega
    · obtain ⟨entry, there⟩ := Option.ne_none_iff_exists'.mp present
      have bound := agrees.keySmall _ entry there
      omega
  · intro low chunk value apart listed
    obtain ⟨entry, there, _⟩ := agrees.listed _ chunk value listed
    rw [clearKey_low (low chunk value apart listed), there]
    exact .inr (Option.some_ne_none entry)

end Located

/-- After a lookup that claims an identifier and the insert of its chunk, both clearing
functions act on the very entry, and on no other, if and only if an `int` can hold the
identifier and the other chunks of the zone store none that leads nowhere. -/
theorem clears_ownEntry_iff (thread : Thread) (map : CacheMap Thread) {id : Nat}
    (small : id < 2 ^ 32) (location : ZnPair)
    (claimed : (znCachemapFind thread map id).1 = .cond) :
    (∃ answer, znCachemapInsert (znCachemapFind thread map id).2 id location = some answer ∧
      (ClearsOwnEntry answer.state id location ↔
        id < 2 ^ 31 ∧ OthersFound map id location)) ∧
    ∀ writers, CacheMapAgrees map writers →
      (OthersFound map id location ↔ ∀ chunk value, chunk ≠ location.chunkOffset →
        (map.dataMap location.zone).lookup chunk = some value → value < 2 ^ 31) := by
  refine ⟨?_, fun writers agrees => agrees.othersFound_iff small⟩
  have found := znCachemapFind_spec thread map small
  generalize znCachemapFind thread map id = answer at found claimed ⊢
  obtain ⟨result, after⟩ := answer
  cases found with
  | loc | wait => cases claimed
  | claim entry unclaimed busy =>
      have present : (map.setEntry id entry).zoneMap id = some entry := by simp
      have same : (map.setEntry id entry).located id location = map.located id location := by
        simp [CacheMap.located]
      refine ⟨_, znCachemapInsert_found small present location, ?_⟩
      rw [same]
      constructor
      · intro clears
        have low : id < 2 ^ 31 := by
          by_contra high
          exact not_clears_of_high (Nat.le_of_not_lt high) small clears
        obtain ⟨answer, cleared, _⟩ := clears.zone
        exact ⟨low, (located_present low).mp (znCachemapClearZone_state cleared).2.1⟩
      · exact fun both => clears_of_low both.1 both.2

/-- Identifier 7 is claimed and stored beside identifier 3. -/
theorem clears_ownEntry_seven :
    ∃ map : CacheMap (Fin 1), (map.dataMap 0).lookup 1 = some 3 ∧
      ∃ answer, znCachemapInsert (znCachemapFind 0 map 7).2 7 ⟨0, 0, 0, false⟩ = some answer ∧
        ClearsOwnEntry answer.state 7 ⟨0, 0, 0, false⟩ := by
  obtain ⟨⟨answer, inserted, agrees⟩, _⟩ := clears_ownEntry_iff (0 : Fin 1)
    ((znCachemapInit : CacheMap (Fin 1)).located 3 ⟨0, 1, 3, true⟩)
    (show 7 < 2 ^ 32 by decide) ⟨0, 0, 0, false⟩ rfl
  refine ⟨_, rfl, answer, inserted, agrees.mpr ⟨by decide, fun chunk value apart listed => ?_⟩⟩
  rw [CacheMap.located_lookup] at listed
  split at listed
  next =>
      cases Option.some.inj listed
      exact .inr (by decide)
  next => cases listed

/-- With identifier `2 ^ 31` neither clearing function finds an entry. -/
theorem clears_nothing_of_signBit :
    ∃ answer, znCachemapInsert (znCachemapFind (0 : Fin 1) znCachemapInit (2 ^ 31)).2 (2 ^ 31)
        ⟨0, 0, 0, false⟩ = some answer ∧
      (znCachemapClearChunk answer.state ⟨0, 0, 0, false⟩).isNone ∧
      (znCachemapClearZone answer.state 0).isNone ∧
      ¬ ClearsOwnEntry answer.state (2 ^ 31) ⟨0, 0, 0, false⟩ := by
  refine ⟨_, rfl, by decide, by decide, fun clears => ?_⟩
  obtain ⟨answer, cleared, _⟩ := clears.chunk
  cases cleared

end ZNCache
