import ZNCache.Lib.Transition

/-!
# Simulation and possible progress

A run of one transition system is followed by a run of another when each of its
steps is matched by a list of the other's.  A state can be brought to a goal when
some continuation of its run ends there; a measure that can always be lowered
gives such a continuation.
-/

set_option autoImplicit false

namespace Transition

variable {State Action Abstract AbstractAction : Type*}

/-! ## Simulation -/

section Simulation

variable {step : State → Action → Option State} {allowed : State → Action → Prop}
  {initial : State → Prop}
variable {abstractStep : Abstract → AbstractAction → Option Abstract}
  {abstractAllowed : Abstract → AbstractAction → Prop} {abstractInitial : Abstract → Prop}

/-- The abstract system follows: some allowed run of it leads to a related state. -/
def Follows (abstractStep : Abstract → AbstractAction → Option Abstract)
    (abstractAllowed : Abstract → AbstractAction → Prop) (related : Abstract → Prop)
    (before : Abstract) : Prop :=
  ∃ actions after, AllowedAlong abstractStep abstractAllowed before actions ∧
    runActions abstractStep before actions = some after ∧ related after

theorem Follows.stay {related : Abstract → Prop} {before : Abstract} (here : related before) :
    Follows abstractStep abstractAllowed related before :=
  ⟨[], before, trivial, rfl, here⟩

theorem Follows.one {related : Abstract → Prop} {before after : Abstract}
    {action : AbstractAction} (permitted : abstractAllowed before action)
    (taken : abstractStep before action = some after) (there : related after) :
    Follows abstractStep abstractAllowed related before :=
  ⟨[action], after, ⟨permitted, fun _ _ => trivial⟩, runActions_cons taken rfl, there⟩

/-- A run whose every step is followed has a related abstract run. -/
theorem Reach.simulated {related : State → Abstract → Prop}
    (start : ∀ state, initial state → ∃ abstract, abstractInitial abstract ∧
      related state abstract)
    (followed : ∀ state abstract action next, Reach step allowed initial state →
      related state abstract → allowed state action → step state action = some next →
      Follows abstractStep abstractAllowed (related next) abstract)
    {state : State} (reached : Reach step allowed initial state) :
    ∃ abstract, Reach abstractStep abstractAllowed abstractInitial abstract ∧
      related state abstract := by
  induction reached with
  | start begins =>
      obtain ⟨abstract, abstractBegins, here⟩ := start _ begins
      exact ⟨abstract, .start abstractBegins, here⟩
  | step action before guard taken ih =>
      obtain ⟨abstract, abstractReached, here⟩ := ih
      obtain ⟨actions, after, permitted, ran, there⟩ :=
        followed _ abstract action _ before here guard taken
      exact ⟨after, Reach.of_runActions actions abstractReached permitted ran, there⟩

end Simulation

/-! ## Possible progress -/

section Progress

variable {step : State → Action → Option State} {allowed : State → Action → Prop}

/-- Some allowed continuation ends in a state that meets the goal. -/
def CanReach (step : State → Action → Option State) (allowed : State → Action → Prop)
    (goal : State → Prop) (state : State) : Prop :=
  ∃ actions last, AllowedAlong step allowed state actions ∧
    runActions step state actions = some last ∧ goal last

theorem CanReach.here {goal : State → Prop} {state : State} (met : goal state) :
    CanReach step allowed goal state :=
  ⟨[], state, trivial, rfl, met⟩

theorem CanReach.cons {goal : State → Prop} {state next : State} {action : Action}
    (permitted : allowed state action) (taken : step state action = some next)
    (later : CanReach step allowed goal next) : CanReach step allowed goal state := by
  obtain ⟨actions, last, along, run, met⟩ := later
  refine ⟨action :: actions, last, ⟨permitted, fun other same => ?_⟩, ?_, met⟩
  · cases Option.some.inj (taken.symm.trans same)
    exact along
  · exact runActions_cons taken run

theorem CanReach.trans {between goal : State → Prop} {state : State}
    (first : CanReach step allowed between state)
    (second : ∀ middle, between middle → CanReach step allowed goal middle) :
    CanReach step allowed goal state := by
  obtain ⟨actions, middle, along, run, met⟩ := first
  have later := second middle met
  clear met
  induction actions generalizing state with
  | nil =>
      cases Option.some.inj run
      exact later
  | cons action rest ih =>
      obtain ⟨next, taken, run⟩ := runActions_inv run
      exact .cons along.1 taken (ih (along.2 next taken) run)

theorem CanReach.keep {goal holds : State → Prop} {state : State}
    (kept : ∀ state action next, holds state → allowed state action →
      step state action = some next → holds next)
    (begins : holds state) (reaches : CanReach step allowed goal state) :
    CanReach step allowed (fun last => holds last ∧ goal last) state := by
  obtain ⟨actions, last, along, run, met⟩ := reaches
  exact ⟨actions, last, along, run, along.invariant kept begins run, met⟩

theorem CanReach.lift {Part PartAction : Type*} {partStep : Part → PartAction → Option Part}
    {partAllowed : Part → PartAction → Prop} {goal : Part → Prop} (part : State → Part)
    (follows : ∀ state action next, partAllowed (part state) action →
      partStep (part state) action = some next →
      ∃ wholeAction whole, allowed state wholeAction ∧ step state wholeAction = some whole ∧
        part whole = next)
    {state : State} (reaches : CanReach partStep partAllowed goal (part state)) :
    CanReach step allowed (fun last => goal (part last)) state := by
  obtain ⟨actions, last, along, run, met⟩ := reaches
  induction actions generalizing state with
  | nil =>
      cases Option.some.inj run
      exact .here met
  | cons action rest ih =>
      obtain ⟨next, taken, run⟩ := runActions_inv run
      obtain ⟨wholeAction, whole, permitted, moved, rfl⟩ := follows state action next along.1 taken
      exact .cons permitted moved (ih (along.2 _ taken) run)

/-- The progress rule: where the goal is not met yet, the measure can be lowered. -/
theorem CanReach.of_measure {goal holds : State → Prop} (measure : State → Nat)
    (progress : ∀ state, holds state → ¬ goal state →
      CanReach step allowed (fun next => holds next ∧ measure next < measure state) state)
    {state : State} (begins : holds state) : CanReach step allowed goal state := by
  induction bound : measure state using Nat.strongRecOn generalizing state with
  | ind bound ih =>
      by_cases met : goal state
      · exact .here met
      · refine (progress state begins met).trans fun next lowered => ?_
        exact ih (measure next) (bound ▸ lowered.2) lowered.1 rfl

end Progress

end Transition
