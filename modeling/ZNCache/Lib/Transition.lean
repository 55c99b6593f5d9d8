import Mathlib.Data.List.Basic

/-!
# Guarded transition systems

`step` is a partial deterministic step function over labelled actions, and
`allowed` restricts which steps a run may take.  Invariants of every reachable
state follow from what one allowed step preserves.
-/

set_option autoImplicit false

namespace Transition

variable {State Action : Type*}

/-- Executes the actions in order; `none` as soon as one of them is disabled. -/
def runActions (step : State → Action → Option State) :
    State → List Action → Option State
  | state, [] => some state
  | state, action :: rest =>
      match step state action with
      | none => none
      | some next => runActions step next rest

theorem runActions_cons {step : State → Action → Option State} {first next last : State}
    {action : Action} {rest : List Action} (taken : step first action = some next)
    (run : runActions step next rest = some last) :
    runActions step first (action :: rest) = some last := by
  simp only [runActions, taken]
  exact run

theorem runActions_inv {step : State → Action → Option State} {first last : State}
    {action : Action} {rest : List Action}
    (run : runActions step first (action :: rest) = some last) :
    ∃ next, step first action = some next ∧ runActions step next rest = some last := by
  simp only [runActions] at run
  cases taken : step first action with
  | none => simp [taken] at run
  | some next =>
      rw [taken] at run
      exact ⟨next, rfl, run⟩

theorem runActions_append {step : State → Action → Option State} {middle last : State}
    {before rest : List Action} {first : State}
    (start : runActions step first before = some middle)
    (run : runActions step middle rest = some last) :
    runActions step first (before ++ rest) = some last := by
  induction before generalizing first with
  | nil =>
      cases Option.some.inj start
      exact run
  | cons action before ih =>
      obtain ⟨next, taken, rest⟩ := runActions_inv start
      exact runActions_cons taken (ih rest)

theorem runActions_split {step : State → Action → Option State} {last : State}
    {before rest : List Action} {first : State}
    (run : runActions step first (before ++ rest) = some last) :
    ∃ middle, runActions step first before = some middle ∧
      runActions step middle rest = some last := by
  induction before generalizing first with
  | nil => exact ⟨first, rfl, run⟩
  | cons action before ih =>
      obtain ⟨next, taken, run⟩ := runActions_inv run
      obtain ⟨middle, start, run⟩ := ih run
      exact ⟨middle, runActions_cons taken start, run⟩

/-- The states that allowed steps reach from one that satisfies `initial`. -/
inductive Reach (step : State → Action → Option State)
    (allowed : State → Action → Prop) (initial : State → Prop) : State → Prop
  | start {state : State} (begins : initial state) :
      Reach step allowed initial state
  | step {state next : State} (action : Action)
      (before : Reach step allowed initial state)
      (guard : allowed state action) (taken : step state action = some next) :
      Reach step allowed initial next

section Reach

variable {step : State → Action → Option State}
variable {allowed : State → Action → Prop} {initial : State → Prop}

/-- The invariant rule: true at the start and kept by every allowed step. -/
theorem Reach.invariant {holds : State → Prop}
    (start : ∀ state, initial state → holds state)
    (kept : ∀ state action next, holds state → allowed state action →
      step state action = some next → holds next)
    {state : State} (reached : Reach step allowed initial state) :
    holds state := by
  induction reached with
  | start begins => exact start _ begins
  | step action _ guard taken ih => exact kept _ action _ ih guard taken

theorem Reach.mono {weaker : State → Action → Prop}
    (implies : ∀ state action, allowed state action → weaker state action)
    {state : State} (reached : Reach step allowed initial state) :
    Reach step weaker initial state := by
  induction reached with
  | start begins => exact Reach.start begins
  | step action _ guard taken ih =>
      exact Reach.step action ih (implies _ action guard) taken

/-- Each action is allowed in the state in which it is executed. -/
def AllowedAlong (step : State → Action → Option State) (allowed : State → Action → Prop) :
    State → List Action → Prop
  | _, [] => True
  | state, action :: rest =>
      allowed state action ∧
        ∀ next, step state action = some next → AllowedAlong step allowed next rest

/-- Whether a given run keeps to its guard can be computed. -/
instance decidableAllowedAlong [∀ state action, Decidable (allowed state action)] :
    ∀ (actions : List Action) (state : State), Decidable (AllowedAlong step allowed state actions)
  | [], _ => isTrue trivial
  | action :: rest, state =>
      match taken : step state action with
      | none => decidable_of_iff (allowed state action) (by simp [AllowedAlong, taken])
      | some next =>
          have := decidableAllowedAlong rest next
          decidable_of_iff (allowed state action ∧ AllowedAlong step allowed next rest)
            (by simp [AllowedAlong, taken])

theorem AllowedAlong.of_forall (actions : List Action) :
    ∀ (state : State), (∀ action ∈ actions, ∀ state, allowed state action) →
      AllowedAlong step allowed state actions := by
  induction actions with
  | nil => exact fun _ _ => trivial
  | cons action rest ih =>
      intro state permitted
      exact ⟨permitted action (by simp) state, fun next _ =>
        ih next fun later member => permitted later (by simp [member])⟩

theorem AllowedAlong.of_prefix {before : List Action} :
    ∀ {actions : List Action} {state : State}, before <+: actions →
      AllowedAlong step allowed state actions → AllowedAlong step allowed state before := by
  induction before with
  | nil => exact fun _ _ => trivial
  | cons action before ih =>
      intro actions state part permitted
      obtain ⟨rest, rfl⟩ := part
      exact ⟨permitted.1, fun next taken => ih ⟨rest, rfl⟩ (permitted.2 next taken)⟩

theorem AllowedAlong.of_suffix {before rest : List Action} {middle : State} :
    ∀ {state : State}, AllowedAlong step allowed state (before ++ rest) →
      runActions step state before = some middle →
      AllowedAlong step allowed middle rest := by
  induction before with
  | nil =>
      intro state along run
      cases Option.some.inj run
      exact along
  | cons action before ih =>
      intro state along run
      obtain ⟨next, taken, run⟩ := runActions_inv run
      exact ih (along.2 next taken) run

theorem AllowedAlong.append_of_forall {before rest : List Action} :
    ∀ {state : State}, AllowedAlong step allowed state before →
      (∀ action ∈ rest, ∀ state, allowed state action) →
      AllowedAlong step allowed state (before ++ rest) := by
  induction before with
  | nil => exact fun _ permitted => .of_forall rest _ permitted
  | cons action before ih =>
      intro state along permitted
      exact ⟨along.1, fun next taken => ih (along.2 next taken) permitted⟩

/-- An executed action list whose actions are allowed along the way is a run. -/
theorem Reach.of_runActions (actions : List Action) :
    ∀ {first last : State}, Reach step allowed initial first →
      AllowedAlong step allowed first actions → runActions step first actions = some last →
      Reach step allowed initial last := by
  induction actions with
  | nil =>
      intro first last before _ run
      cases Option.some.inj run
      exact before
  | cons action rest ih =>
      intro first last before permitted run
      obtain ⟨next, taken, run⟩ := runActions_inv run
      exact ih (Reach.step action before permitted.1 taken) (permitted.2 next taken) run

theorem runActions_invariant {holds : State → Prop} {first last : State} {actions : List Action}
    (kept : ∀ state action next, holds state → step state action = some next → holds next)
    (begins : holds first) (run : runActions step first actions = some last) : holds last := by
  have free : AllowedAlong step (fun _ _ => True) first actions :=
    .of_forall actions first fun _ _ _ => trivial
  exact (Reach.of_runActions actions (.start begins) free run).invariant (fun _ here => here)
    fun state action next here _ => kept state action next here

theorem AllowedAlong.invariant {holds : State → Prop} {first last : State}
    {actions : List Action} (along : AllowedAlong step allowed first actions)
    (kept : ∀ state action next, holds state → allowed state action →
      step state action = some next → holds next)
    (begins : holds first) (run : runActions step first actions = some last) : holds last :=
  (Reach.of_runActions actions (.start begins) along run).invariant (fun _ here => here) kept

end Reach

end Transition
