import ZNCache.Lib.Transition

/-!
# Transfers in pieces, each tried several times

A loop moves `whole` units in pieces.  A piece that is not moved as a whole is tried again
at the same place, and after so many tries the loop gives up.  What a try does to the world
is a parameter.
-/

set_option autoImplicit false

namespace RetryLoop

open Transition

variable {World : Type*}

/-- How one transfer turns out: an error, or a transfer of so many units at most. -/
inductive Transfer
  | fails
  | moves (limit : Nat)
  deriving DecidableEq, Repr

namespace Transfer

def moved (transfer : Transfer) (count : Nat) : Nat :=
  match transfer with
  | fails => 0
  | moves limit => min limit count

/-- What the transfer returns: its units, or minus one. -/
def ret (transfer : Transfer) (count : Nat) : Int :=
  match transfer with
  | fails => -1
  | moves limit => (min limit count : Nat)

theorem moved_le (transfer : Transfer) (count : Nat) : transfer.moved count ≤ count := by
  cases transfer with
  | fails => exact Nat.zero_le _
  | moves limit => exact Nat.min_le_right _ _

theorem moved_of_ret {transfer : Transfer} {count : Nat} (whole : transfer.ret count = count) :
    transfer.moved count = count := by
  cases transfer with
  | fails =>
      simp only [ret] at whole
      omega
  | moves limit => exact Int.ofNat.inj whole

end Transfer

/-- The length of the whole, the length of the piece at each place, and the tries of each. -/
structure Plan where
  whole : Nat
  piece : Nat → Nat
  retries : Nat

/-- About to try the piece at `total` after so many failed tries, or at the end. -/
inductive LoopPc
  | issue (total attempts : Nat)
  | done
  | gaveUp
  deriving DecidableEq, Repr

structure Looping (World : Type*) where
  pc : LoopPc
  world : World

namespace Plan

def head (plan : Plan) (total : Nat) : LoopPc :=
  if total < plan.whole then .issue total 0 else .done

def after (plan : Plan) (total attempts : Nat) (transfer : Transfer) : LoopPc :=
  if transfer.ret (plan.piece total) = plan.piece total then plan.head (total + plan.piece total)
  else if plan.retries ≤ attempts + 1 then .gaveUp
  else .issue total (attempts + 1)

def step (plan : Plan) (effect : World → Nat → Transfer → World) (loop : Looping World)
    (transfer : Transfer) : Option (Looping World) :=
  match loop.pc with
  | .issue total attempts =>
      some ⟨plan.after total attempts transfer, effect loop.world total transfer⟩
  | .done => none
  | .gaveUp => none

def Within (plan : Plan) : Prop :=
  ∀ total, total < plan.whole → total + plan.piece total ≤ plan.whole

structure Progresses (plan : Plan) : Prop where
  positive : ∀ total, total < plan.whole → 0 < plan.piece total
  retries : 0 < plan.retries

variable {plan : Plan} {effect : World → Nat → Transfer → World} {loop next last : Looping World}

theorem step_spec {transfer : Transfer} (taken : plan.step effect loop transfer = some next) :
    ∃ total attempts, loop.pc = .issue total attempts ∧
      next.world = effect loop.world total transfer ∧
      ((transfer.ret (plan.piece total) = plan.piece total ∧
          next.pc = plan.head (total + plan.piece total)) ∨
        transfer.ret (plan.piece total) ≠ plan.piece total ∧
          ((plan.retries ≤ attempts + 1 ∧ next.pc = .gaveUp) ∨
            attempts + 1 < plan.retries ∧ next.pc = .issue total (attempts + 1))) := by
  unfold step at taken
  split at taken
  next total attempts here =>
      cases Option.some.inj taken
      refine ⟨total, attempts, here, rfl, ?_⟩
      by_cases full : transfer.ret (plan.piece total) = plan.piece total
      · exact .inl ⟨full, if_pos full⟩
      · refine .inr ⟨full, ?_⟩
        rcases Nat.lt_or_ge (attempts + 1) plan.retries with more | spent
        · exact .inr ⟨more, (if_neg full).trans (if_neg (Nat.not_le.mpr more))⟩
        · exact .inl ⟨spent, (if_neg full).trans (if_pos spent)⟩
  next => cases taken
  next => cases taken

/-! ## Invariants -/

structure Keeps (plan : Plan) (effect : World → Nat → Transfer → World)
    (holds : Nat → World → Prop) : Prop where
  full : ∀ (total : Nat) (world : World) (transfer : Transfer), total < plan.whole →
    transfer.ret (plan.piece total) = plan.piece total → holds total world →
    holds (total + plan.piece total) (effect world total transfer)
  retried : ∀ (total : Nat) (world : World) (transfer : Transfer), total < plan.whole →
    transfer.ret (plan.piece total) ≠ plan.piece total → holds total world →
    holds total (effect world total transfer)

def At (plan : Plan) (holds : Nat → World → Prop) (loop : Looping World) : Prop :=
  match loop.pc with
  | .issue total _ => total < plan.whole ∧ holds total loop.world
  | .done => holds plan.whole loop.world
  | .gaveUp => ∃ total, total < plan.whole ∧ holds total loop.world

theorem at_head {holds : Nat → World → Prop} {total : Nat} {world : World}
    (within : total ≤ plan.whole) (here : holds total world) :
    plan.At holds ⟨plan.head total, world⟩ := by
  unfold head
  split
  next more => exact ⟨more, here⟩
  next done =>
      have same : total = plan.whole := Nat.le_antisymm within (Nat.not_lt.mp done)
      subst same
      exact here

theorem at_step (within : plan.Within) {holds : Nat → World → Prop}
    (keeps : plan.Keeps effect holds) {transfer : Transfer} (here : plan.At holds loop)
    (taken : plan.step effect loop transfer = some next) : plan.At holds next := by
  obtain ⟨total, attempts, pc, world, full | ⟨notFull, spent | more⟩⟩ := step_spec taken
  · simp only [At, pc] at here
    obtain ⟨nextPc, nextWorld⟩ := next
    cases full.2
    cases world
    exact at_head (within total here.1) (keeps.full total _ transfer here.1 full.1 here.2)
  · simp only [At, pc] at here
    simp only [At, spent.2, world]
    exact ⟨total, here.1, keeps.retried total _ transfer here.1 notFull here.2⟩
  · simp only [At, pc] at here
    simp only [At, more.2, world]
    exact ⟨here.1, keeps.retried total _ transfer here.1 notFull here.2⟩

theorem at_run (within : plan.Within) {holds : Nat → World → Prop}
    (keeps : plan.Keeps effect holds) {transfers : List Transfer} (here : plan.At holds loop)
    (ran : runActions (plan.step effect) loop transfers = some last) : plan.At holds last :=
  runActions_invariant (fun _ _ _ => at_step within keeps) here ran

/-! ## Termination -/

def left (plan : Plan) : LoopPc → Nat
  | .issue total attempts => plan.retries * (plan.whole - total) - attempts
  | .done => 0
  | .gaveUp => 0

def Proper (plan : Plan) : LoopPc → Prop
  | .issue total attempts => total < plan.whole ∧ attempts < plan.retries
  | .done => True
  | .gaveUp => True

theorem proper_head (progresses : plan.Progresses) (total : Nat) : plan.Proper (plan.head total) := by
  unfold head
  split
  next more => exact ⟨more, progresses.retries⟩
  next => exact trivial

theorem left_head_le (total : Nat) :
    plan.left (plan.head total) ≤ plan.retries * (plan.whole - total) := by
  unfold head
  split
  next => exact Nat.sub_le _ _
  next => exact Nat.zero_le _

theorem proper_step (progresses : plan.Progresses) {transfer : Transfer} (proper : plan.Proper loop.pc)
    (taken : plan.step effect loop transfer = some next) :
    plan.Proper next.pc ∧ plan.left next.pc < plan.left loop.pc := by
  obtain ⟨total, attempts, pc, _, full | ⟨_, spent | more⟩⟩ := step_spec taken
  · rw [pc] at proper ⊢
    obtain ⟨within, tries⟩ := proper
    rw [full.2]
    refine ⟨proper_head progresses _, Nat.lt_of_le_of_lt (left_head_le _) ?_⟩
    have positive := progresses.positive total within
    have fewer : plan.retries * (plan.whole - (total + plan.piece total) + 1) ≤
        plan.retries * (plan.whole - total) := Nat.mul_le_mul_left _ (by omega)
    rw [Nat.mul_add, Nat.mul_one] at fewer
    simp only [left]
    omega
  · rw [pc] at proper ⊢
    obtain ⟨within, tries⟩ := proper
    rw [spent.2]
    refine ⟨trivial, ?_⟩
    have one : plan.retries * 1 ≤ plan.retries * (plan.whole - total) :=
      Nat.mul_le_mul_left _ (by omega)
    simp only [left]
    omega
  · rw [pc] at proper ⊢
    obtain ⟨within, tries⟩ := proper
    rw [more.2]
    refine ⟨⟨within, more.1⟩, ?_⟩
    have one : plan.retries * 1 ≤ plan.retries * (plan.whole - total) :=
      Nat.mul_le_mul_left _ (by omega)
    simp only [left]
    omega

/-- However the transfers turn out, the loop ends: it cannot go on for longer than the tries
that are left. -/
theorem ends (progresses : plan.Progresses) (outcome : Nat → Transfer) (bound : Nat) :
    ∀ {loop : Looping World} {first : Nat}, plan.Proper loop.pc → plan.left loop.pc ≤ bound →
      ∃ count last, runActions (plan.step effect) loop
        ((List.range' first count).map outcome) = some last ∧
        (last.pc = .done ∨ last.pc = .gaveUp) := by
  induction bound with
  | zero =>
      intro loop first proper few
      cases pc : loop.pc with
      | issue total attempts =>
          rw [pc] at proper few
          have one : plan.retries * 1 ≤ plan.retries * (plan.whole - total) :=
            Nat.mul_le_mul_left _ (by have := proper.1; omega)
          have tries := proper.2
          simp only [left] at few
          omega
      | done => exact ⟨0, loop, rfl, .inl pc⟩
      | gaveUp => exact ⟨0, loop, rfl, .inr pc⟩
  | succ bound ih =>
      intro loop first proper few
      cases pc : loop.pc with
      | issue total attempts =>
          have taken : plan.step effect loop (outcome first) =
              some ⟨plan.after total attempts (outcome first),
                effect loop.world total (outcome first)⟩ := by
            simp only [step, pc]
          obtain ⟨properNext, fewer⟩ := proper_step progresses proper taken
          obtain ⟨count, last, ran, ended⟩ := @ih _ (first + 1) properNext (by omega)
          refine ⟨count + 1, last, ?_, ended⟩
          rw [List.range'_succ, List.map_cons]
          exact runActions_cons taken ran
      | done => exact ⟨0, loop, rfl, .inl pc⟩
      | gaveUp => exact ⟨0, loop, rfl, .inr pc⟩

end Plan

end RetryLoop
