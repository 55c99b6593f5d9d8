import Mathlib.Data.List.Range

/-!
# Loops that may stop without a result

The body of a `for` loop is a partial function of the index and the state.  What
one pass carries from an index to the next one, the loop carries to its bound.  Code
that is cut into sections runs from one to the next until it leaves.
-/

set_option autoImplicit false

namespace Loop

variable {State : Type*}

/-- The loop rule, with the index as a parameter of the invariant. -/
theorem range_invariant {body : State → Nat → Option State} {holds : Nat → State → Prop}
    (bound : Nat) :
    ∀ {first last : State},
      (∀ index state next, index < bound → holds index state →
        body state index = some next → holds (index + 1) next) →
      (List.range bound).foldlM body first = some last → holds 0 first → holds bound last := by
  induction bound with
  | zero =>
      intro first last _ ran start
      cases Option.some.inj ran
      exact start
  | succ bound ih =>
      intro first last kept ran start
      rw [List.range_succ, List.foldlM_append] at ran
      obtain ⟨middle, before, final⟩ := Option.bind_eq_some_iff.mp ran
      have reached : holds bound middle :=
        ih (fun index state next below => kept index state next (Nat.lt_succ_of_lt below))
          before start
      refine kept bound middle last (Nat.lt_succ_self bound) reached ?_
      simpa using final

/-! ## Code cut into sections -/

section Sections

variable {Local : Type*} {step : State → Local → Option (State × Option Local)}

/-- Run from the section `here` with nothing in between, the code leaves `last` behind. -/
inductive Ends (step : State → Local → Option (State × Option Local)) :
    State → Local → State → Prop
  | leave {state last : State} {here : Local} (ran : step state here = some (last, none)) :
      Ends step state here last
  | pass {state middle last : State} {here next : Local}
      (ran : step state here = some (middle, some next)) (rest : Ends step middle next last) :
      Ends step state here last

/-- The code ends, in a state that meets the postcondition. -/
def EndsWith (step : State → Local → Option (State × Option Local)) (post : State → Prop)
    (state : State) (here : Local) : Prop :=
  ∃ last, Ends step state here last ∧ post last

variable {post : State → Prop} {state middle : State} {here next : Local}

theorem endsWith_leave (ran : step state here = some (middle, none)) :
    EndsWith step post state here ↔ post middle := by
  constructor
  · intro given
    obtain ⟨last, ends, holds⟩ := given
    cases ends with
    | leave left =>
        cases Option.some.inj (ran.symm.trans left)
        exact holds
    | pass passed => cases Option.some.inj (ran.symm.trans passed)
  · exact fun holds => ⟨middle, .leave ran, holds⟩

theorem endsWith_pass (ran : step state here = some (middle, some next)) :
    EndsWith step post state here ↔ EndsWith step post middle next := by
  constructor
  · intro given
    obtain ⟨last, ends, holds⟩ := given
    cases ends with
    | leave left => cases Option.some.inj (ran.symm.trans left)
    | pass passed rest =>
        cases Option.some.inj (ran.symm.trans passed)
        exact ⟨last, rest, holds⟩
  · intro given
    obtain ⟨last, rest, holds⟩ := given
    exact ⟨last, .pass ran rest, holds⟩

theorem not_endsWith_stuck (stuck : step state here = none) :
    ¬ EndsWith step post state here := by
  intro given
  obtain ⟨last, ends, _⟩ := given
  cases ends with
  | leave left => cases stuck.symm.trans left
  | pass passed => cases stuck.symm.trans passed

end Sections

end Loop
