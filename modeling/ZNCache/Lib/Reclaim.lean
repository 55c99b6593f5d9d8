import Mathlib

/-!
# Emptying containers into spare ones

Containers are reclaimed one after the other, the least loaded first.  Each piece of the
load takes a spare container of its own, of which at most `room` may be in use at once,
and the emptied container becomes a spare one.  The reclaiming stops at `low` spare
containers or when none is left to empty.
-/

set_option autoImplicit false

namespace Reclaim

variable {Item : Type*}

def total (load : Item → Nat) (items : List Item) : Nat := (items.map load).sum

def idle (load : Item → Nat) (items : List Item) : Nat := items.countP fun item => load item = 0

/-- Reclaiming gets through and leaves a spare container that may be used: either the
empty ones suffice, or there is a spare container for every piece and one more. -/
def Succeeds (low room : Nat) (load : Item → Nat) (movable : Item → Prop) (items : List Item)
    (spare used : Nat) : Prop :=
  (low ≤ spare + idle load items ∧ used < room) ∨
    (∀ item ∈ items, movable item) ∧ total load items < spare + items.length ∧
      used + total load items < room

variable {low room spare used : Nat} {load : Item → Nat} {movable : Item → Prop}
  {items rest : List Item} {item : Item}

theorem succeeds_perm (same : items.Perm rest) :
    Succeeds low room load movable items spare used ↔
      Succeeds low room load movable rest spare used := by
  have sameTotal : total load items = total load rest := (same.map load).sum_eq
  have sameIdle : idle load items = idle load rest := same.countP_eq _
  simp only [Succeeds, sameTotal, sameIdle, same.length_eq, same.mem_iff]

theorem succeeds_congr {load' : Item → Nat} {movable' : Item → Prop}
    (sameLoad : ∀ item ∈ items, load item = load' item)
    (sameMovable : ∀ item ∈ items, movable item ↔ movable' item) :
    Succeeds low room load movable items spare used ↔
      Succeeds low room load' movable' items spare used := by
  have sameTotal : total load items = total load' items :=
    congrArg List.sum (List.map_congr_left sameLoad)
  have sameIdle : idle load items = idle load' items := by
    apply List.countP_congr
    intro item member
    simp [sameLoad item member]
  have sameAll : (∀ item ∈ items, movable item) ↔ ∀ item ∈ items, movable' item :=
    forall₂_congr sameMovable
  simp only [Succeeds, sameTotal, sameIdle, sameAll]

theorem succeeds_of_enough (enough : low ≤ spare) :
    Succeeds low room load movable items spare used ↔ used < room := by
  constructor
  · intro either
    rcases either with ⟨_, fits⟩ | ⟨_, _, fits⟩
    · exact fits
    · omega
  · exact fun fits => .inl ⟨by omega, fits⟩

theorem succeeds_nil (short : spare < low) :
    Succeeds low room load movable [] spare used ↔ 0 < spare ∧ used < room := by
  simp only [Succeeds, total, idle, List.map_nil, List.sum_nil, List.countP_nil, List.length_nil]
  constructor
  · intro either
    rcases either with ⟨enough, _⟩ | ⟨_, some, fits⟩
    · omega
    · exact ⟨some, fits⟩
  · intro given
    obtain ⟨some, fits⟩ := given
    exact .inr ⟨by simp, some, fits⟩

theorem length_le_total (loaded : ∀ item ∈ items, 0 < load item) :
    items.length ≤ total load items := by
  induction items with
  | nil => exact Nat.le_refl 0
  | cons item rest ih =>
      have later := ih fun other member => loaded other (List.mem_cons_of_mem _ member)
      have first := loaded item List.mem_cons_self
      simp only [total, List.map_cons, List.sum_cons, List.length_cons] at later ⊢
      omega

theorem idle_eq_zero (loaded : ∀ item ∈ items, 0 < load item) : idle load items = 0 := by
  apply List.countP_eq_zero.mpr
  intro item member
  have positive := loaded item member
  simpa using Nat.pos_iff_ne_zero.mp positive

/-- One container is reclaimed: its load moves out and it becomes a spare one. -/
theorem succeeds_cons (short : spare < low) (least : ∀ other ∈ rest, load item ≤ load other)
    (empty : load item = 0 → movable item) :
    Succeeds low room load movable (item :: rest) spare used ↔
      (movable item ∧ load item ≤ spare ∧ used + load item ≤ room) ∧
        Succeeds low room load movable rest (spare - load item + 1) (used + load item) := by
  have moreTotal : total load (item :: rest) = load item + total load rest := by simp [total]
  rcases Nat.eq_zero_or_pos (load item) with none | some
  · have oneIdle : idle load (item :: rest) = idle load rest + 1 := by simp [idle, none]
    simp only [Succeeds, moreTotal, oneIdle, none, List.forall_mem_cons, empty none, true_and,
      List.length_cons]
    constructor
    · intro either
      rcases either with ⟨enough, fits⟩ | ⟨all, more, fits⟩
      · exact ⟨by omega, .inl ⟨by omega, fits⟩⟩
      · exact ⟨by omega, .inr ⟨all, by omega, by omega⟩⟩
    · intro given
      obtain ⟨_, ⟨enough, fits⟩ | ⟨all, more, fits⟩⟩ := given
      · exact .inl ⟨by omega, fits⟩
      · exact .inr ⟨all, by omega, by omega⟩
  · have loaded : ∀ other ∈ rest, 0 < load other := fun other member =>
      Nat.lt_of_lt_of_le some (least other member)
    have noIdle := idle_eq_zero loaded
    have pieces := length_le_total loaded
    have stillNone : idle load (item :: rest) = 0 :=
      idle_eq_zero (List.forall_mem_cons.mpr ⟨some, loaded⟩)
    simp only [Succeeds, moreTotal, noIdle, stillNone, List.forall_mem_cons, List.length_cons]
    constructor
    · intro either
      rcases either with ⟨enough, _⟩ | ⟨⟨first, all⟩, more, fits⟩
      · omega
      · exact ⟨⟨first, by omega, by omega⟩, .inr ⟨all, by omega, by omega⟩⟩
    · intro given
      obtain ⟨⟨first, room, _⟩, ⟨enough, _⟩ | ⟨all, more, fits⟩⟩ := given
      · omega
      · exact .inr ⟨⟨first, all⟩, by omega, by omega⟩

end Reclaim
