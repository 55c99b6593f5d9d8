import Mathlib.Algebra.BigOperators.Group.Finset.Piecewise
import Mathlib.Algebra.Order.BigOperators.Group.Finset
import Mathlib.Algebra.BigOperators.Group.Multiset.Basic
import Mathlib.Algebra.BigOperators.Group.Finset.Basic
import Mathlib.Data.Multiset.AddSub

/-!
# Tallies over threads

`tally weight threads` adds up what the threads hold.  One thread's step changes
its own summand only: the sum splits into that summand and the others' share,
which the step leaves alone.
-/

set_option autoImplicit false

namespace Tally

variable {Thread Local Amount : Type*} [Fintype Thread] [DecidableEq Thread]

section Sum

variable [AddCommMonoid Amount]

def tally (weight : Local → Amount) (threads : Thread → Local) : Amount :=
  ∑ thread, weight (threads thread)

def others (weight : Local → Amount) (threads : Thread → Local)
    (thread : Thread) : Amount :=
  ∑ other ∈ Finset.univ.erase thread, weight (threads other)

theorem tally_split (weight : Local → Amount) (threads : Thread → Local)
    (thread : Thread) :
    tally weight threads = weight (threads thread) + others weight threads thread :=
  (Finset.add_sum_erase Finset.univ (fun other => weight (threads other))
    (Finset.mem_univ thread)).symm

theorem tally_update (weight : Local → Amount) (threads : Thread → Local)
    (thread : Thread) (local' : Local) :
    tally weight (Function.update threads thread local') =
      weight local' + others weight threads thread := by
  rw [tally_split weight _ thread, Function.update_self]
  congr 1
  refine Finset.sum_congr rfl fun other member => ?_
  rw [Function.update_of_ne (Finset.ne_of_mem_erase member)]

theorem tally_update_same {weight : Local → Amount} {threads : Thread → Local}
    {thread : Thread} {local' : Local} (same : weight local' = weight (threads thread)) :
    tally weight (Function.update threads thread local') = tally weight threads := by
  rw [tally_update, same, ← tally_split]

omit [DecidableEq Thread] in
theorem tally_const_zero (weight : Local → Amount) (threads : Thread → Local)
    (zero : ∀ thread, weight (threads thread) = 0) : tally weight threads = 0 :=
  Finset.sum_eq_zero fun thread _ => zero thread

theorem others_hom {Part : Type*} [AddCommMonoid Part] (part : Amount →+ Part)
    (weight : Local → Amount) (threads : Thread → Local) (thread : Thread) :
    part (others weight threads thread) =
      others (fun here => part (weight here)) threads thread :=
  map_sum part _ _

end Sum

section Count

variable {weight : Local → Nat} {threads : Thread → Local} {thread : Thread} {local' : Local}

theorem tally_update_lt (less : weight local' < weight (threads thread)) :
    tally weight (Function.update threads thread local') < tally weight threads := by
  rw [tally_update, tally_split weight threads thread]
  exact Nat.add_lt_add_right less _

theorem tally_update_le (less : weight local' ≤ weight (threads thread)) :
    tally weight (Function.update threads thread local') ≤ tally weight threads := by
  rw [tally_update, tally_split weight threads thread]
  exact Nat.add_le_add_right less _

end Count

section Membership

variable {Item : Type*}

omit [DecidableEq Thread] in
theorem mem_tally {weight : Local → Multiset Item} {threads : Thread → Local}
    {item : Item} :
    item ∈ tally weight threads ↔ ∃ thread, item ∈ weight (threads thread) := by
  simp [tally, Multiset.mem_sum]

theorem mem_others {weight : Local → Multiset Item} {threads : Thread → Local}
    {thread : Thread} {item : Item} :
    item ∈ others weight threads thread ↔
      ∃ other, other ≠ thread ∧ item ∈ weight (threads other) := by
  simp [others, Multiset.mem_sum]

omit [DecidableEq Thread] in
theorem mem_tally_part [AddCommMonoid Amount] {part : Amount →+ Multiset Item}
    {weight : Local → Amount} {threads : Thread → Local} {item : Item} :
    item ∈ part (tally weight threads) ↔ ∃ thread, item ∈ part (weight (threads thread)) := by
  rw [tally, map_sum]
  simp [Multiset.mem_sum]

theorem mem_others_part [AddCommMonoid Amount] {part : Amount →+ Multiset Item}
    {weight : Local → Amount} {threads : Thread → Local} {thread : Thread} {item : Item} :
    item ∈ part (others weight threads thread) ↔
      ∃ other, other ≠ thread ∧ item ∈ part (weight (threads other)) := by
  rw [others_hom]
  exact mem_others

/-- In a tally without repeats, an item belongs to one thread only. -/
theorem tally_unique {weight : Local → Multiset Item} {threads : Thread → Local}
    (nodup : (tally weight threads).Nodup) {first second : Thread} {item : Item}
    (mine : item ∈ weight (threads first))
    (yours : item ∈ weight (threads second)) : first = second := by
  by_contra different
  rw [tally_split weight threads first, Multiset.nodup_add] at nodup
  exact Multiset.disjoint_left.mp nodup.2.2 mine
    (mem_others.mpr ⟨second, Ne.symm different, yours⟩)

end Membership

end Tally
