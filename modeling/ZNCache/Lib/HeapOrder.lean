import Mathlib.Logic.Equiv.Basic
import Mathlib.Order.Lattice

/-!
# Binary heap order with one hole

Positions below `size` form a binary tree in which the parent of `child` is
`(child - 1) / 2`.  While an element rises or sinks, the order fails at its position
only, against its parent or against its children.
-/

set_option autoImplicit false

namespace HeapOrder

variable {Priority : Type*} [LinearOrder Priority]

def parent (child : Nat) : Nat := (child - 1) / 2

def Ordered (size : Nat) (priority : Nat → Priority) : Prop :=
  ∀ child, 0 < child → child < size → priority (parent child) ≤ priority child

/-- The order may fail between the hole and its parent. -/
structure RisingAt (size hole : Nat) (priority : Nat → Priority) : Prop where
  except : ∀ child, 0 < child → child < size → child ≠ hole →
    priority (parent child) ≤ priority child
  grand : 0 < hole → ∀ child, 0 < child → child < size → parent child = hole →
    priority (parent hole) ≤ priority child

/-- The order may fail between the hole and its children. -/
structure SinkingAt (size hole : Nat) (priority : Nat → Priority) : Prop where
  except : ∀ child, 0 < child → child < size → parent child ≠ hole →
    priority (parent child) ≤ priority child
  grand : 0 < hole → ∀ child, 0 < child → child < size → parent child = hole →
    priority (parent hole) ≤ priority child

section Order

variable {size hole : Nat} {priority changed : Nat → Priority}

theorem parent_lt {child : Nat} (positive : 0 < child) : parent child < child := by
  unfold parent
  omega

theorem Ordered.root_le (ordered : Ordered size priority) :
    ∀ position < size, priority 0 ≤ priority position := by
  intro position
  induction position using Nat.strongRecOn with
  | ind position ih =>
      intro below
      rcases Nat.eq_zero_or_pos position with rfl | positive
      · exact le_refl _
      · have above := parent_lt positive
        exact (ih (parent position) above (by omega)).trans (ordered position positive below)

theorem Ordered.grand_le (ordered : Ordered size priority) {child : Nat} (positive : 0 < child)
    (below : child < size) (above : 0 < parent child) :
    priority (parent (parent child)) ≤ priority child := by
  have between := parent_lt positive
  exact (ordered (parent child) above (by omega)).trans (ordered child positive below)

/-! ## Entering and leaving -/

/-- An element whose priority fell rises. -/
theorem Ordered.rising (ordered : Ordered size priority)
    (same : ∀ position < size, position ≠ hole → changed position = priority position)
    (fell : changed hole ≤ priority hole) (inside : hole < size) :
    RisingAt size hole changed := by
  constructor
  · intro child positive below apart
    have above := parent_lt positive
    rw [same child below apart]
    by_cases onHole : parent child = hole
    · rw [onHole]
      exact fell.trans (onHole ▸ ordered child positive below)
    · rw [same _ (by omega) onHole]
      exact ordered child positive below
  · intro positive child childPositive below equal
    subst equal
    have above := parent_lt childPositive
    have top := parent_lt positive
    rw [same child below (by omega), same _ (by omega) (by omega)]
    exact ordered.grand_le childPositive below positive

/-- An element whose priority grew sinks. -/
theorem Ordered.sinking (ordered : Ordered size priority)
    (same : ∀ position < size, position ≠ hole → changed position = priority position)
    (grew : priority hole ≤ changed hole) :
    SinkingAt size hole changed := by
  constructor
  · intro child positive below apart
    have above := parent_lt positive
    rw [same _ (by omega) apart]
    by_cases onHole : child = hole
    · subst onHole
      exact (ordered child positive below).trans grew
    · rw [same child below onHole]
      exact ordered child positive below
  · intro positive child childPositive below equal
    subst equal
    have above := parent_lt childPositive
    have top := parent_lt positive
    rw [same child below (by omega), same _ (by omega) (by omega)]
    exact ordered.grand_le childPositive below positive

/-- A new last element rises. -/
theorem Ordered.append (ordered : Ordered size priority)
    (same : ∀ position < size, changed position = priority position) :
    RisingAt (size + 1) size changed := by
  constructor
  · intro child positive below apart
    have above := parent_lt positive
    rw [same child (by omega), same _ (by omega)]
    exact ordered child positive (by omega)
  · intro positive child childPositive below onHole
    have above := parent_lt childPositive
    omega

/-- The last element, moved to the root, sinks. -/
theorem Ordered.moveLast (ordered : Ordered (size + 1) priority)
    (same : ∀ position < size, position ≠ 0 → changed position = priority position) :
    SinkingAt size 0 changed := by
  constructor
  · intro child positive below apart
    have above := parent_lt positive
    rw [same child below (by omega), same _ (by omega) apart]
    exact ordered child positive (by omega)
  · exact fun positive => absurd positive (Nat.lt_irrefl 0)

theorem RisingAt.finish (rising : RisingAt size hole priority)
    (stops : 0 < hole → priority (parent hole) ≤ priority hole) : Ordered size priority := by
  intro child positive below
  by_cases onHole : child = hole
  · subst onHole
    exact stops positive
  · exact rising.except child positive below onHole

theorem SinkingAt.finish (sinking : SinkingAt size hole priority)
    (stops : ∀ child, 0 < child → child < size → parent child = hole →
      priority hole ≤ priority child) : Ordered size priority := by
  intro child positive below
  by_cases onHole : parent child = hole
  · rw [onHole]
    exact stops child positive below onHole
  · exact sinking.except child positive below onHole

/-! ## One exchange -/

omit [LinearOrder Priority] in
theorem swap_left (i j : Nat) : (priority ∘ Equiv.swap i j) i = priority j := by simp

omit [LinearOrder Priority] in
theorem swap_right (i j : Nat) : (priority ∘ Equiv.swap i j) j = priority i := by simp

omit [LinearOrder Priority] in
theorem swap_apart {i j position : Nat} (notLeft : position ≠ i) (notRight : position ≠ j) :
    (priority ∘ Equiv.swap i j) position = priority position := by
  simp [Equiv.swap_apply_of_ne_of_ne notLeft notRight]

theorem RisingAt.move (rising : RisingAt size hole priority) (positive : 0 < hole)
    (inside : hole < size) (before : priority hole < priority (parent hole)) :
    RisingAt size (parent hole) (priority ∘ Equiv.swap hole (parent hole)) := by
  have up := parent_lt positive
  constructor
  · intro child childPositive below apart
    have above := parent_lt childPositive
    by_cases onHole : child = hole
    · subst onHole
      rw [swap_left, swap_right]
      exact before.le
    · have own := rising.except child childPositive below onHole
      rw [swap_apart onHole apart]
      by_cases under : parent child = hole
      · rw [under, swap_left]
        exact rising.grand positive child childPositive below under
      · by_cases sibling : parent child = parent hole
        · rw [sibling, swap_right]
          exact before.le.trans (sibling ▸ own)
        · rw [swap_apart under sibling]
          exact own
  · intro parentPositive child childPositive below under
    have top := parent_lt parentPositive
    have above := parent_lt childPositive
    have order := rising.except (parent hole) parentPositive (by omega) (by omega)
    rw [swap_apart (by omega) (by omega)]
    by_cases onHole : child = hole
    · subst onHole
      rw [swap_left]
      exact order
    · rw [swap_apart onHole (by omega)]
      exact order.trans (under ▸ rising.except child childPositive below onHole)

theorem SinkingAt.move (sinking : SinkingAt size hole priority) {least : Nat}
    (positive : 0 < least) (inside : least < size) (under : parent least = hole)
    (before : priority least < priority hole)
    (first : ∀ child, 0 < child → child < size → parent child = hole →
      priority least ≤ priority child) :
    SinkingAt size least (priority ∘ Equiv.swap hole least) := by
  have down := parent_lt positive
  constructor
  · intro child childPositive below apart
    have above := parent_lt childPositive
    by_cases onHole : parent child = hole
    · rw [onHole, swap_left]
      by_cases same : child = least
      · subst same
        rw [swap_right]
        exact before.le
      · rw [swap_apart (by omega) same]
        exact first child childPositive below onHole
    · have own := sinking.except child childPositive below onHole
      rw [swap_apart onHole apart]
      by_cases same : child = hole
      · subst same
        rw [swap_left]
        exact sinking.grand childPositive least positive inside under
      · have other : child ≠ least := fun equal => onHole (equal ▸ under)
        rw [swap_apart same other]
        exact own
  · intro _ child childPositive below onLeast
    have above := parent_lt childPositive
    rw [under, swap_left, swap_apart (by omega) (by omega)]
    have own := sinking.except child childPositive below (by omega)
    rwa [onLeast] at own

end Order

end HeapOrder
