import Mathlib.Algebra.Ring.Int.Defs
import Mathlib.Algebra.Ring.Nat
import Mathlib.Tactic.Common

/-!
# Machine integers, casts and call outcomes

Counters the code keeps in `uint32_t` are naturals that every operation brings
back below `2 ^ 32`; pointers are 64-bit naturals.  Assertions are compiled out
by default, so a call always runs to its end and only reports whether every
`assert` it met held.
-/

set_option autoImplicit false

namespace ZNCache

/-- Conversion of a C integer to `uint32_t`. -/
def u32 (value : Int) : Nat := (value % 2 ^ 32).toNat

theorem u32_lt (value : Int) : u32 value < 2 ^ 32 := by
  unfold u32
  omega

theorem u32_of_nat {value : Nat} (small : value < 2 ^ 32) : u32 value = value := by
  unfold u32
  omega

/-- `GINT_TO_POINTER` on a C integer: a cast through `glong`. -/
def gintToPointer (value : Int) : Nat := (value % 2 ^ 64).toNat

/-- `GUINT_TO_POINTER` on a `uint32_t`: widened through `gulong`, value kept. -/
def guintToPointer (value : Nat) : Nat := value

/-- `GPOINTER_TO_INT`: the low 32 bits, read as a signed number. -/
def gpointerToInt (pointer : Nat) : Int :=
  if pointer % 2 ^ 32 < 2 ^ 31 then (pointer % 2 ^ 32 : Nat)
  else (pointer % 2 ^ 32 : Nat) - 2 ^ 32

theorem gintToPointer_of_u32 {value : Nat} (small : value < 2 ^ 32) :
    gintToPointer value = value := by
  unfold gintToPointer
  omega

@[simp] theorem guintToPointer_eq (value : Nat) : guintToPointer value = value := rfl

def clearKey (pointer : Nat) : Nat := gintToPointer (gpointerToInt pointer)

theorem clearKey_low {value : Nat} (low : value < 2 ^ 31) : clearKey value = value := by
  unfold clearKey gintToPointer gpointerToInt
  split <;> omega

theorem clearKey_high {value : Nat} (high : 2 ^ 31 ≤ value) (small : value < 2 ^ 32) :
    2 ^ 32 ≤ clearKey value := by
  unfold clearKey gintToPointer gpointerToInt
  split <;> omega

/-- What a call leaves behind: its result, the state after it, and whether every
assertion it evaluated held. -/
structure Outcome (State Result : Type) where
  ret : Result
  state : State
  asserts : Bool

/-- `THRESH - free` for a threshold macro: an `int` constant is converted to
`uint32_t`, a constant above `INT_MAX` is a `long`. -/
def threshMinus (thresh free : Nat) : Int :=
  if thresh < 2 ^ 31 then u32 (thresh - free) else thresh - free

end ZNCache
