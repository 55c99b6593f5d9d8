import ZNCache.SequentialGet

/-!
# Validating what was read

The loop of `zn_validate_read` compares byte by byte with a 32-bit index, which never
reaches a `chunk_sz` of `2 ^ 32` or more and starts over from 0 instead.
-/

set_option autoImplicit false

namespace ZNCache

/-- The `uint32_t` whose bytes these are, the least significant one first. -/
def u32OfBytes : List UInt8 → Nat
  | [] => 0
  | byte :: rest => byte.toNat + 256 * u32OfBytes rest

/-- For so many passes at most. -/
def validateLoop (chunkSz : Nat) (data compareBuffer : List UInt8) : Nat → Nat → Option Int
  | 0, i => if i < chunkSz then none else some 0
  | passes + 1, i =>
      if i < chunkSz then
        if data[i]? ≠ compareBuffer[i]? then some (-1)
        else validateLoop chunkSz data compareBuffer passes (u32 (i + 1))
      else some 0

def znValidateRead (chunkSz : Nat) (data : List UInt8) (id : Nat) (compareBuffer : List UInt8)
    (passes : Nat) : Option Int :=
  let readId := u32OfBytes (data.take 4)
  if readId ≠ id then some (-1) else validateLoop chunkSz data compareBuffer passes 4

/-- The validation ends, with 0 for what `zn_gen_write_buffer` builds and nothing else. -/
def ValidatesExactly (chunkSz id : Nat) (compareBuffer data : List UInt8) : Prop :=
  ∃ passes ret, znValidateRead chunkSz data id compareBuffer passes = some ret ∧
    (ret = 0 ↔ data = znGenWriteBuffer chunkSz id compareBuffer)

/-! ## The identifier -/

theorem u32OfBytes_u32Bytes {id : Nat} (small : id < 2 ^ 32) : u32OfBytes (u32Bytes id) = id := by
  simp only [u32Bytes, List.map_cons, List.map_nil, u32OfBytes, UInt8.toNat_ofNat',
    Nat.shiftRight_eq_div_pow]
  omega

theorem u32OfBytes_inj (bytes : List UInt8) :
    ∀ {others : List UInt8}, bytes.length = others.length →
      u32OfBytes bytes = u32OfBytes others → bytes = others := by
  induction bytes with
  | nil =>
      intro others length _
      exact (List.length_eq_zero_iff.mp length.symm).symm
  | cons byte bytes ih =>
      intro others length same
      cases others with
      | nil => cases length
      | cons other others =>
          have below := byte.toNat_lt
          have otherBelow := other.toNat_lt
          simp only [u32OfBytes] at same
          have head : byte = other := UInt8.toNat_inj.mp (by omega)
          have tail : bytes = others := ih (Nat.succ.inj length) (by omega)
          rw [head, tail]

section Contents

variable {chunkSz id : Nat} {compareBuffer data : List UInt8}

theorem readId_eq_iff (small : id < 2 ^ 32) (enough : 4 ≤ data.length) :
    u32OfBytes (data.take 4) = id ↔ data.take 4 = u32Bytes id := by
  have length : (data.take 4).length = (u32Bytes id).length := by
    rw [List.length_take, u32Bytes_length]
    omega
  constructor
  · intro same
    exact u32OfBytes_inj _ length (same.trans (u32OfBytes_u32Bytes small).symm)
  · intro same
    rw [same, u32OfBytes_u32Bytes small]

theorem eq_znGenWriteBuffer_iff (length : data.length = chunkSz)
    (compareLength : compareBuffer.length = chunkSz) :
    data = znGenWriteBuffer chunkSz id compareBuffer ↔
      data.take 4 = u32Bytes id ∧
        ∀ i, 4 ≤ i → i < chunkSz → data[i]? = compareBuffer[i]? := by
  have whole : compareBuffer.take chunkSz = compareBuffer :=
    List.take_of_length_le (by omega)
  rw [znGenWriteBuffer, whole]
  constructor
  · intro same
    refine ⟨?_, fun i above _ => ?_⟩
    · rw [same, List.take_left' (u32Bytes_length id)]
    · rw [same, List.getElem?_append_right (by rw [u32Bytes_length]; exact above),
        u32Bytes_length, List.getElem?_drop]
      congr 1
      omega
  · intro given
    obtain ⟨front, back⟩ := given
    rw [← List.take_append_drop 4 data, front]
    congr 1
    apply List.ext_getElem?
    intro i
    rw [List.getElem?_drop, List.getElem?_drop]
    rcases Nat.lt_or_ge (4 + i) chunkSz with inside | outside
    · exact back (4 + i) (Nat.le_add_right 4 i) inside
    · rw [List.getElem?_eq_none (by omega), List.getElem?_eq_none (by omega)]

/-! ## The loop -/

/-- Below `2 ^ 32` the index counts up to `chunk_sz`, by induction on what is left. -/
theorem validateLoop_counts (fits : chunkSz < 2 ^ 32) (left : Nat) :
    ∀ {i : Nat}, i + left = chunkSz →
      ∃ ret, validateLoop chunkSz data compareBuffer left i = some ret ∧
        (ret = 0 ↔ ∀ j, i ≤ j → j < chunkSz → data[j]? = compareBuffer[j]?) := by
  induction left with
  | zero =>
      intro i done
      refine ⟨0, if_neg (by omega), ?_⟩
      simp only [true_iff]
      intro j above below
      omega
  | succ left ih =>
      intro i more
      have below : i < chunkSz := by omega
      by_cases same : data[i]? = compareBuffer[i]?
      · have next : u32 (i + 1) = i + 1 := by exact_mod_cast u32_of_nat (by omega)
        obtain ⟨ret, returned, zero⟩ := @ih (i + 1) (by omega)
        refine ⟨ret, ?_, zero.trans ⟨fun rest j above inside => ?_, fun all j above =>
          all j (by omega)⟩⟩
        · rw [validateLoop, if_pos below, if_neg (not_not.mpr same), next]
          exact returned
        · rcases Nat.eq_or_lt_of_le above with rfl | above
          · exact same
          · exact rest j above inside
      · refine ⟨-1, ?_, ?_⟩
        · rw [validateLoop, if_pos below, if_pos same]
        · simp only [Int.reduceNeg, Int.neg_eq_zero, one_ne_zero, false_iff]
          exact fun all => same (all i (Nat.le_refl i) below)

/-- From `2 ^ 32` on the index stays below `chunk_sz`, so the loop never ends with 0. -/
theorem validateLoop_ne_zero (large : 2 ^ 32 ≤ chunkSz) (passes : Nat) :
    ∀ {i : Nat}, i < 2 ^ 32 → validateLoop chunkSz data compareBuffer passes i ≠ some 0 := by
  induction passes with
  | zero =>
      intro i inRange
      rw [validateLoop, if_pos (by omega)]
      exact fun same => nomatch same
  | succ passes ih =>
      intro i inRange
      rw [validateLoop, if_pos (by omega)]
      split
      next => exact fun same => by cases same
      next => exact ih (u32_lt _)

theorem validateLoop_forever (large : 2 ^ 32 ≤ chunkSz)
    (same : ∀ j < 2 ^ 32, data[j]? = compareBuffer[j]?) (passes : Nat) :
    ∀ {i : Nat}, i < 2 ^ 32 → validateLoop chunkSz data compareBuffer passes i = none := by
  induction passes with
  | zero =>
      intro i inRange
      rw [validateLoop, if_pos (by omega)]
  | succ passes ih =>
      intro i inRange
      rw [validateLoop, if_pos (by omega), if_neg (not_not.mpr (same i inRange))]
      exact ih (u32_lt _)

theorem validateLoop_finds (large : 2 ^ 32 ≤ chunkSz) (distance : Nat) :
    ∀ {i : Nat}, i < 2 ^ 32 →
      data[(i + distance) % 2 ^ 32]? ≠ compareBuffer[(i + distance) % 2 ^ 32]? →
      ∃ passes, validateLoop chunkSz data compareBuffer passes i = some (-1) := by
  induction distance with
  | zero =>
      intro i inRange differs
      rw [Nat.add_zero, Nat.mod_eq_of_lt inRange] at differs
      exact ⟨1, by rw [validateLoop, if_pos (by omega), if_pos differs]⟩
  | succ distance ih =>
      intro i inRange differs
      by_cases same : data[i]? = compareBuffer[i]?
      · have next : u32 (i + 1) = (i + 1) % 2 ^ 32 := by
          unfold u32
          omega
        have wraps : ((i + 1) % 2 ^ 32 + distance) % 2 ^ 32 = (i + (distance + 1)) % 2 ^ 32 := by
          omega
        obtain ⟨passes, found⟩ := @ih ((i + 1) % 2 ^ 32) (Nat.mod_lt _ (by decide))
          (wraps ▸ differs)
        refine ⟨passes + 1, ?_⟩
        rw [validateLoop, if_pos (by omega), if_neg (not_not.mpr same), next, found]
      · exact ⟨1, by rw [validateLoop, if_pos (by omega), if_pos same]⟩

/-! ## The validation -/

theorem znValidateRead_otherId {passes : Nat} (other : u32OfBytes (data.take 4) ≠ id) :
    znValidateRead chunkSz data id compareBuffer passes = some (-1) := if_pos other

theorem znValidateRead_sameId {passes : Nat} (same : u32OfBytes (data.take 4) = id) :
    znValidateRead chunkSz data id compareBuffer passes =
      validateLoop chunkSz data compareBuffer passes 4 := if_neg (not_not.mpr same)

theorem validatesExactly_small (room : 4 ≤ chunkSz) (fits : chunkSz < 2 ^ 32)
    (small : id < 2 ^ 32) (length : data.length = chunkSz)
    (compareLength : compareBuffer.length = chunkSz) :
    ValidatesExactly chunkSz id compareBuffer data := by
  have generated := @eq_znGenWriteBuffer_iff chunkSz id compareBuffer data length compareLength
  have identified := @readId_eq_iff id data small (length ▸ room)
  by_cases same : u32OfBytes (data.take 4) = id
  · obtain ⟨ret, returned, zero⟩ :=
      @validateLoop_counts chunkSz compareBuffer data fits (chunkSz - 4) 4 (by omega)
    refine ⟨chunkSz - 4, ret, (znValidateRead_sameId same).trans returned, ?_⟩
    rw [zero, generated, ← identified]
    exact ⟨fun all => ⟨same, all⟩, And.right⟩
  · refine ⟨0, -1, znValidateRead_otherId same, ?_⟩
    rw [generated, ← identified]
    simp [same]

theorem validatesExactly_large (room : 4 ≤ chunkSz) (large : 2 ^ 32 ≤ chunkSz)
    (small : id < 2 ^ 32) (length : data.length = chunkSz)
    (compareLength : compareBuffer.length = chunkSz) :
    ValidatesExactly chunkSz id compareBuffer data ↔
      data ≠ znGenWriteBuffer chunkSz id compareBuffer ∧
        (u32OfBytes (data.take 4) ≠ id ∨ ∃ i < 2 ^ 32, data[i]? ≠ compareBuffer[i]?) := by
  have generated := @eq_znGenWriteBuffer_iff chunkSz id compareBuffer data length compareLength
  have identified := @readId_eq_iff id data small (length ▸ room)
  by_cases same : u32OfBytes (data.take 4) = id
  · constructor
    · intro validates
      obtain ⟨passes, ret, returned, zero⟩ := validates
      rw [znValidateRead_sameId same] at returned
      constructor
      · intro isGenerated
        have isZero := zero.mpr isGenerated
        subst isZero
        exact validateLoop_ne_zero large passes (by decide) returned
      · by_contra not
        rw [not_or] at not
        have agree : ∀ j < 2 ^ 32, data[j]? = compareBuffer[j]? := by
          intro j below
          by_contra differs
          exact not.2 ⟨j, below, differs⟩
        rw [validateLoop_forever large agree passes (by decide)] at returned
        cases returned
    · intro given
      obtain ⟨notGenerated, either⟩ := given
      obtain ⟨i, below, differs⟩ := either.resolve_left (not_not.mpr same)
      have around : (4 + (i + 2 ^ 32 - 4)) % 2 ^ 32 = i := by omega
      obtain ⟨passes, found⟩ := @validateLoop_finds chunkSz compareBuffer data large
        (i + 2 ^ 32 - 4) 4 (by decide) (around ▸ differs)
      refine ⟨passes, -1, (znValidateRead_sameId same).trans found, ?_⟩
      simp [notGenerated]
  · have notGenerated : data ≠ znGenWriteBuffer chunkSz id compareBuffer := fun isGenerated =>
      same (identified.mpr (generated.mp isGenerated).1)
    refine ⟨fun _ => ⟨notGenerated, .inl same⟩, fun _ => ⟨0, -1, znValidateRead_otherId same, ?_⟩⟩
    simp [notGenerated]

/-- The validation decides the generated contents if and only if `chunk_sz` is below `2 ^ 32`,
or the data are not the generated ones and differ from the identifier in their first four
bytes or from the buffer in their first `2 ^ 32`; against another identifier generated
contents always fail. -/
theorem validateRead_exact_iff (room : 4 ≤ chunkSz) (small : id < 2 ^ 32)
    (length : data.length = chunkSz) (compareLength : compareBuffer.length = chunkSz) :
    (ValidatesExactly chunkSz id compareBuffer data ↔
      chunkSz < 2 ^ 32 ∨ data ≠ znGenWriteBuffer chunkSz id compareBuffer ∧
        (u32OfBytes (data.take 4) ≠ id ∨ ∃ i < 2 ^ 32, data[i]? ≠ compareBuffer[i]?)) ∧
      ∀ other < 2 ^ 32, other ≠ id → ∀ passes,
        znValidateRead chunkSz (znGenWriteBuffer chunkSz id compareBuffer) other compareBuffer
          passes = some (-1) := by
  constructor
  · rcases Nat.lt_or_ge chunkSz (2 ^ 32) with fits | large
    · exact ⟨fun _ => .inl fits, fun _ => validatesExactly_small room fits small length
        compareLength⟩
    · rw [validatesExactly_large room large small length compareLength,
        or_iff_right (Nat.not_lt.mpr large)]
  · intro other otherSmall apart passes
    apply znValidateRead_otherId
    rw [znGenWriteBuffer, List.take_left' (u32Bytes_length id), u32OfBytes_u32Bytes small]
    exact Ne.symm apart

theorem validateRead_exact_iff_twoBytes :
    ValidatesExactly 6 7 [0, 0, 0, 0, 5, 9] [7, 0, 0, 0, 5, 9] :=
  (@validateRead_exact_iff 6 7 [0, 0, 0, 0, 5, 9] [7, 0, 0, 0, 5, 9] (by decide) (by decide) rfl
    rfl).1.mpr (.inl (by decide))

end Contents

/-- The loop never ends on a generated chunk of `2 ^ 32` zeros. -/
theorem validateRead_neverEnds :
    ¬ ValidatesExactly (2 ^ 32) 0 (List.replicate (2 ^ 32) 0)
      (znGenWriteBuffer (2 ^ 32) 0 (List.replicate (2 ^ 32) 0)) := by
  intro validates
  have compareLength : (List.replicate (2 ^ 32) (0 : UInt8)).length = 2 ^ 32 :=
    List.length_replicate
  have length : (znGenWriteBuffer (2 ^ 32) 0 (List.replicate (2 ^ 32) (0 : UInt8))).length =
      2 ^ 32 := znGenWriteBuffer_length (by decide) (Nat.le_of_eq compareLength.symm)
  exact ((validatesExactly_large (by decide) (by decide) (by decide) length
    compareLength).mp validates).1 rfl

end ZNCache
