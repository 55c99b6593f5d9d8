import Mathlib.Data.List.Basic

/-!
# A device of bytes

Reads and writes of whole byte ranges.  A transfer that is cut into pieces has the effect
of one transfer of the whole range.
-/

set_option autoImplicit false

namespace ByteDevice

abbrev Device := Nat → UInt8

def pread (device : Device) (count offset : Nat) : List UInt8 :=
  (List.range count).map fun index => device (offset + index)

def pwrite (device : Device) (buffer : List UInt8) (offset : Nat) : Device := fun place =>
  if offset ≤ place then (buffer[place - offset]?).getD (device place) else device place

variable {device : Device} {buffer rest : List UInt8} {count more offset place : Nat}

@[simp] theorem pread_length : (pread device count offset).length = count := by
  simp [pread]

theorem pread_getElem? (below : place < count) :
    (pread device count offset)[place]? = some (device (offset + place)) := by
  simp [pread, below]

theorem pread_add : pread device (count + more) offset =
    pread device count offset ++ pread device more (offset + count) := by
  simp [pread, List.range_add, Nat.add_assoc, Function.comp_def]

theorem pwrite_inside (here : offset ≤ place) (inside : place < offset + buffer.length) :
    pwrite device buffer offset place = buffer[place - offset] := by
  have below : place - offset < buffer.length := by omega
  simp [pwrite, here, List.getElem?_eq_getElem below]

theorem pwrite_outside (outside : place < offset ∨ offset + buffer.length ≤ place) :
    pwrite device buffer offset place = device place := by
  unfold pwrite
  split
  next here =>
      rw [List.getElem?_eq_none (by omega)]
      rfl
  next => rfl

@[simp] theorem pwrite_nil : pwrite device [] offset = device := by
  funext place
  apply pwrite_outside
  rw [List.length_nil]
  omega

theorem pwrite_append :
    pwrite (pwrite device buffer offset) rest (offset + buffer.length) =
      pwrite device (buffer ++ rest) offset := by
  funext place
  rcases Nat.lt_or_ge place (offset + buffer.length) with before | after
  · rw [pwrite_outside (.inl before)]
    rcases Nat.lt_or_ge place offset with outside | inside
    · rw [pwrite_outside (.inl outside), pwrite_outside (.inl outside)]
    · rw [pwrite_inside inside before, pwrite_inside inside (by rw [List.length_append]; omega),
        List.getElem_append_left]
  · rcases Nat.lt_or_ge place (offset + buffer.length + rest.length) with inside | outside
    · rw [pwrite_inside after inside,
        pwrite_inside (by omega) (by rw [List.length_append]; omega),
        List.getElem_append_right (by omega)]
      congr 1
      omega
    · rw [pwrite_outside (.inr outside), pwrite_outside (.inr after),
        pwrite_outside (.inr (by rw [List.length_append]; omega))]

theorem pread_pwrite : pread (pwrite device buffer offset) buffer.length offset = buffer := by
  apply List.ext_getElem?
  intro index
  rcases Nat.lt_or_ge index buffer.length with inside | outside
  · rw [pread_getElem? inside, pwrite_inside (by omega) (by omega), List.getElem?_eq_getElem inside]
    congr 2
    omega
  · rw [List.getElem?_eq_none outside, List.getElem?_eq_none (by simpa using outside)]

/-- A device with these bytes in the range and no others outside it is what the write leaves. -/
theorem eq_pwrite {after : Device} (bytes : pread after buffer.length offset = buffer)
    (outside : ∀ place, place < offset ∨ offset + buffer.length ≤ place →
      after place = device place) : after = pwrite device buffer offset := by
  funext place
  rcases Nat.lt_or_ge place offset with before | from'
  · rw [pwrite_outside (.inl before), outside place (.inl before)]
  · rcases Nat.lt_or_ge place (offset + buffer.length) with inside | beyond
    · have here := @pread_getElem? after buffer.length offset (place - offset) (by omega)
      rw [bytes, Nat.add_sub_cancel' from'] at here
      rw [pwrite_inside from' inside]
      exact ((List.getElem_eq_iff _).mpr here).symm
    · rw [pwrite_outside (.inr beyond), outside place (.inr beyond)]

theorem pread_pwrite_inside {start : Nat} (inside : start + count ≤ buffer.length) :
    pread (pwrite device buffer offset) count (offset + start) =
      (buffer.drop start).take count := by
  apply List.ext_getElem?
  intro index
  rcases Nat.lt_or_ge index count with below | above
  · rw [pread_getElem? below, pwrite_inside (by omega) (by omega), List.getElem?_take_of_lt below,
      List.getElem?_drop, List.getElem?_eq_getElem (by omega)]
    congr 2
    omega
  · rw [List.getElem?_eq_none (by simpa using above),
      List.getElem?_eq_none (Nat.le_trans (List.length_take_le _ _) above)]

theorem pread_congr {other : Device}
    (same : ∀ place, offset ≤ place → place < offset + count → other place = device place) :
    pread other count offset = pread device count offset := by
  apply List.map_congr_left
  intro index member
  have below := List.mem_range.mp member
  exact same _ (by omega) (by omega)

theorem pread_pwrite_apart {start : Nat}
    (apart : start + count ≤ offset ∨ offset + buffer.length ≤ start) :
    pread (pwrite device buffer offset) count start = pread device count start := by
  apply pread_congr
  intro place above below
  apply pwrite_outside
  omega

end ByteDevice
