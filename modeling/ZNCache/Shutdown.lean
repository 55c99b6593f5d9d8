import Mathlib.Data.Fintype.Card
import ZNCache.Lib.Tally
import ZNCache.Lib.Transition

/-!
# Shutting the program down

`main` pushes a task for each worker, starts the evictor and runs its main loop.  The
worker that completes the count quits the loop.  Quitting clears the loop's running
flag, which entering the loop sets.
-/

set_option autoImplicit false

namespace ZNCache

open Tally Transition

/-- Where `main` stands from its first `g_thread_pool_push` on. -/
inductive MainPc
  | push (worker : Nat)
  | startEvictor
  | enterLoop
  | inLoop
  | freePool
  | joinEvictor
  | finished
  deriving DecidableEq, Repr

/-- Where a worker stands in `task_function`, named by what it does next. -/
inductive WorkerPc
  | unpushed
  | queued
  | next
  | get
  | count
  | quit
  | setDone
  | unlock
  | returned
  deriving DecidableEq, Repr

/-- Where the evictor stands in `evict_task`. -/
inductive EvictorPc
  | unstarted
  | check
  | work
  | finished
  deriving DecidableEq, Repr

inductive Actor (nrThreads : Nat)
  | main
  | worker (worker : Fin nrThreads)
  | evictor

structure Program (nrThreads : Nat) where
  main : MainPc
  workers : Fin nrThreads → WorkerPc
  evictor : EvictorPc
  workloadIndex : Nat
  threadCounterLock : Option (Fin nrThreads)
  nrThreadsCompleted : Nat
  done : Bool
  loopRunning : Bool

variable {nrThreads : Nat}

namespace Program

def init : Program nrThreads where
  main := .push 0
  workers := fun _ => .unpushed
  evictor := .unstarted
  workloadIndex := 0
  threadCounterLock := none
  nrThreadsCompleted := 0
  done := false
  loopRunning := false

def goTo (program : Program nrThreads) (worker : Fin nrThreads) (pc : WorkerPc) :
    Program nrThreads :=
  { program with workers := Function.update program.workers worker pc }

def mainStep (program : Program nrThreads) : Option (Program nrThreads) :=
  match program.main with
  | .push worker =>
      if inPool : worker < nrThreads then
        if program.workers ⟨worker, inPool⟩ = .unpushed then
          some { program.goTo ⟨worker, inPool⟩ .queued with main := .push (worker + 1) }
        else none
      else some { program with main := .startEvictor }
  | .startEvictor => some { program with main := .enterLoop, evictor := .check }
  | .enterLoop => some { program with main := .inLoop, loopRunning := true }
  | .inLoop =>
      if program.loopRunning then some program -- one iteration of the context
      else some { program with main := .freePool }
  | .freePool =>
      if ∀ worker, program.workers worker = .returned then
        some { program with main := .joinEvictor }
      else none
  | .joinEvictor =>
      if program.evictor = .finished then some { program with main := .finished } else none
  | .finished => none

/-- `returnsData` tells whether the call of `zn_cache_get` returns data or NULL. -/
def workerStep (workloadMax : Nat) (returnsData : Bool) (program : Program nrThreads)
    (worker : Fin nrThreads) : Option (Program nrThreads) :=
  match program.workers worker with
  | .unpushed => none
  | .queued => some (program.goTo worker .next)
  | .next =>
      if workloadMax ≤ program.workloadIndex then some (program.goTo worker .count)
      else some { program.goTo worker .get with workloadIndex := program.workloadIndex + 1 }
  | .get =>
      -- on NULL the worker returns from its loop at once and is not counted
      if returnsData then some (program.goTo worker .next)
      else some (program.goTo worker .returned)
  | .count =>
      if program.threadCounterLock = none then
        let completed := program.nrThreadsCompleted + 1
        some { program.goTo worker (if completed = nrThreads then .quit else .unlock) with
          threadCounterLock := some worker
          nrThreadsCompleted := completed }
      else none
  | .quit => some { program.goTo worker .setDone with loopRunning := false }
  | .setDone => some { program.goTo worker .unlock with done := true }
  | .unlock => some { program.goTo worker .returned with threadCounterLock := none }
  | .returned => none

def evictorStep (program : Program nrThreads) : Option (Program nrThreads) :=
  match program.evictor with
  | .unstarted => none
  | .check => some { program with evictor := if program.done then .finished else .work }
  | .work => some { program with evictor := .check } -- sleeps or runs zn_fg_evict
  | .finished => none

def step (workloadMax : Nat) (program : Program nrThreads) (action : Actor nrThreads × Bool) :
    Option (Program nrThreads) :=
  match action.1 with
  | .main => program.mainStep
  | .worker worker => program.workerStep workloadMax action.2 worker
  | .evictor => program.evictorStep

end Program

def MainPc.entered : MainPc → Bool
  | push _ | startEvictor | enterLoop => false
  | inLoop | freePool | joinEvictor | finished => true

def WorkerPc.counted : WorkerPc → Nat
  | unpushed | queued | next | get | count => 0
  | quit | setDone | unlock | returned => 1

namespace Program

def AllReturned (program : Program nrThreads) : Prop :=
  ∀ worker, program.workers worker = .returned

instance (program : Program nrThreads) : Decidable program.AllReturned :=
  inferInstanceAs (Decidable (∀ worker, program.workers worker = .returned))

def Missed (program : Program nrThreads) : Prop :=
  program.AllReturned ∧
    (program.main.entered = false ∨ program.main = .inLoop ∧ program.loopRunning = true)

/-- Every call of `zn_cache_get` returns data, and the loop is quit once it was entered. -/
structure Orderly (program : Program nrThreads) (action : Actor nrThreads × Bool) : Prop where
  data : ∀ worker, action.1 = .worker worker → program.workers worker = .get → action.2 = true
  entered : ∀ worker, action.1 = .worker worker → program.workers worker = .quit →
    program.main.entered = true

instance (program : Program nrThreads) :
    (action : Actor nrThreads × Bool) → Decidable (program.Orderly action)
  | (.main, _) | (.evictor, _) =>
      isTrue ⟨fun _ same => (by cases same), fun _ same => (by cases same)⟩
  | (.worker worker, returnsData) =>
      decidable_of_iff ((program.workers worker = .get → returnsData = true) ∧
          (program.workers worker = .quit → program.main.entered = true))
        ⟨fun both => ⟨fun _ same => by cases same; exact both.1,
            fun _ same => by cases same; exact both.2⟩,
          fun orderly => ⟨orderly.data worker rfl, orderly.entered worker rfl⟩⟩

structure Counting (program : Program nrThreads) : Prop where
  counted : program.nrThreadsCompleted = tally WorkerPc.counted program.workers
  atEnd : program.nrThreadsCompleted = nrThreads → program.done = true ∨
    ∃ worker, program.workers worker = .quit ∨ program.workers worker = .setDone
  stopped : (program.done = true ∨ ∃ worker, program.workers worker = .setDone) →
    program.main.entered = true ∧ program.loopRunning = false

theorem Counting.init (some : 1 ≤ nrThreads) : (init : Program nrThreads).Counting where
  counted := (tally_const_zero _ _ fun _ => rfl).symm
  atEnd := fun none => absurd (none.symm.trans_le (Nat.zero_le 0)) (Nat.not_le_of_lt some)
  stopped := by
    intro either
    rcases either with done | ⟨worker, here⟩
    · cases done
    · cases here

section Steps

variable {program after : Program nrThreads} {worker : Fin nrThreads}

theorem Counting.move (counting : program.Counting) {pc : WorkerPc}
    (workers : after.workers = Function.update program.workers worker pc)
    (sameCount : pc.counted = (program.workers worker).counted)
    (notEnding : program.workers worker ≠ .quit ∧ program.workers worker ≠ .setDone)
    (notDone : pc ≠ .setDone)
    (completed : after.nrThreadsCompleted = program.nrThreadsCompleted)
    (done : after.done = program.done) (running : after.loopRunning = program.loopRunning)
    (entered : after.main.entered = program.main.entered) : after.Counting := by
  constructor
  · rw [completed, workers, tally_update_same sameCount]
    exact counting.counted
  · intro all
    rw [completed] at all
    rw [done, workers]
    refine (counting.atEnd all).imp id ?_
    intro given
    obtain ⟨other, ending⟩ := given
    have apart : other ≠ worker := by
      intro equal
      subst equal
      rcases ending with quitting | setting
      · exact notEnding.1 quitting
      · exact notEnding.2 setting
    exact ⟨other, by simpa [apart] using ending⟩
  · intro ending
    rw [entered, running]
    apply counting.stopped
    rw [done, workers] at ending
    refine ending.imp id ?_
    intro given
    obtain ⟨other, setting⟩ := given
    by_cases same : other = worker
    · subst same
      exact absurd (by simpa using setting) notDone
    · exact ⟨other, by simpa [same] using setting⟩

theorem Counting.count (counting : program.Counting)
    (here : program.workers worker = .count) (holder : Option (Fin nrThreads)) :
    Counting { program.goTo worker
        (if program.nrThreadsCompleted + 1 = nrThreads then .quit else .unlock) with
      threadCounterLock := holder
      nrThreadsCompleted := program.nrThreadsCompleted + 1 } := by
  constructor
  · simp only [goTo]
    rw [tally_update, counting.counted, tally_split _ _ worker, here, WorkerPc.counted,
      Nat.zero_add, Nat.add_comm]
    congr 1
    split <;> rfl
  · intro all
    right
    refine ⟨worker, .inl ?_⟩
    simp only [goTo, Function.update_self]
    exact if_pos all
  · intro ending
    apply counting.stopped
    refine ending.imp id ?_
    intro given
    obtain ⟨other, setting⟩ := given
    by_cases same : other = worker
    · subst same
      simp only [goTo, Function.update_self] at setting
      split at setting <;> cases setting
    · exact ⟨other, by simpa [goTo, same] using setting⟩

theorem Counting.quit (counting : program.Counting)
    (here : program.workers worker = .quit) (entered : program.main.entered = true) :
    Counting { program.goTo worker .setDone with loopRunning := false } := by
  constructor
  · simp only [goTo]
    rw [tally_update, counting.counted, tally_split _ _ worker, here]
    rfl
  · intro _
    right
    exact ⟨worker, .inr (by simp [goTo])⟩
  · intro _
    exact ⟨entered, rfl⟩

theorem Counting.setDone (counting : program.Counting)
    (here : program.workers worker = .setDone) :
    Counting { program.goTo worker .unlock with done := true } := by
  constructor
  · simp only [goTo]
    rw [tally_update, counting.counted, tally_split _ _ worker, here]
    rfl
  · exact fun _ => .inl rfl
  · intro _
    exact counting.stopped (.inr ⟨worker, here⟩)

theorem Counting.workerStep (counting : program.Counting) {workloadMax : Nat}
    {returnsData : Bool}
    (data : program.workers worker = .get → returnsData = true)
    (entered : program.workers worker = .quit → program.main.entered = true)
    (taken : program.workerStep workloadMax returnsData worker = some after) :
    after.Counting := by
  unfold Program.workerStep at taken
  cases here : program.workers worker with
  | unpushed | returned => simp [here] at taken
  | queued =>
      simp only [here, Option.some.injEq] at taken
      subst taken
      apply counting.move rfl <;> simp [here, WorkerPc.counted, goTo]
  | next =>
      simp only [here] at taken
      split at taken
      · cases Option.some.inj taken
        apply counting.move rfl <;> simp [here, WorkerPc.counted, goTo]
      · cases Option.some.inj taken
        apply counting.move rfl <;> simp [here, WorkerPc.counted, goTo]
  | get =>
      simp only [here, data here, if_true, Option.some.injEq] at taken
      subst taken
      apply counting.move rfl <;> simp [here, WorkerPc.counted, goTo]
  | count =>
      simp only [here] at taken
      split at taken
      · cases Option.some.inj taken
        exact counting.count here _
      · cases taken
  | quit =>
      simp only [here, Option.some.injEq] at taken
      subst taken
      exact counting.quit here (entered here)
  | setDone =>
      simp only [here, Option.some.injEq] at taken
      subst taken
      exact counting.setDone here
  | unlock =>
      simp only [here, Option.some.injEq] at taken
      subst taken
      apply counting.move rfl <;> simp [here, WorkerPc.counted, goTo]

theorem Counting.mainStep (counting : program.Counting)
    (taken : program.mainStep = some after) : after.Counting := by
  have unchanged : ∀ next : Program nrThreads, next.workers = program.workers →
      next.nrThreadsCompleted = program.nrThreadsCompleted → next.done = program.done →
      next.loopRunning = program.loopRunning →
      (program.main.entered = true → next.main.entered = true) → next.Counting := by
    intro next workers completed done running entered
    constructor
    · rw [completed, workers]
      exact counting.counted
    · rw [completed, done, workers]
      exact counting.atEnd
    · rw [done, workers, running]
      exact fun ending => ⟨entered (counting.stopped ending).1, (counting.stopped ending).2⟩
  unfold Program.mainStep at taken
  cases here : program.main with
  | push next =>
      simp only [here] at taken
      split at taken
      next inPool =>
          split at taken
          next unpushed =>
              cases Option.some.inj taken
              apply counting.move rfl <;> simp [here, unpushed, WorkerPc.counted, goTo,
                MainPc.entered]
          next => cases taken
      next =>
          cases Option.some.inj taken
          exact unchanged _ rfl rfl rfl rfl (by simp [here, MainPc.entered])
  | startEvictor =>
      simp only [here, Option.some.injEq] at taken
      subst taken
      exact unchanged _ rfl rfl rfl rfl (by simp [here, MainPc.entered])
  | enterLoop =>
      simp only [here, Option.some.injEq] at taken
      subst taken
      refine ⟨counting.counted, counting.atEnd, fun ending => ?_⟩
      have entered := (counting.stopped ending).1
      simp [here, MainPc.entered] at entered
  | inLoop =>
      simp only [here] at taken
      split at taken
      · cases Option.some.inj taken
        exact counting
      · cases Option.some.inj taken
        exact unchanged _ rfl rfl rfl rfl fun _ => rfl
  | freePool | joinEvictor =>
      simp only [here] at taken
      split at taken
      · cases Option.some.inj taken
        exact unchanged _ rfl rfl rfl rfl fun _ => rfl
      · cases taken
  | finished => simp [here] at taken

theorem Counting.evictorStep (counting : program.Counting)
    (taken : program.evictorStep = some after) : after.Counting := by
  unfold Program.evictorStep at taken
  cases here : program.evictor with
  | unstarted | finished => simp [here] at taken
  | check | work =>
      simp only [here, Option.some.injEq] at taken
      subst taken
      exact ⟨counting.counted, counting.atEnd, counting.stopped⟩

theorem Counting.step (counting : program.Counting) {workloadMax : Nat}
    {action : Actor nrThreads × Bool} (orderly : program.Orderly action)
    (taken : program.step workloadMax action = some after) : after.Counting := by
  obtain ⟨actor, returnsData⟩ := action
  cases actor with
  | main => exact counting.mainStep taken
  | worker worker =>
      exact counting.workerStep (orderly.data worker rfl) (orderly.entered worker rfl) taken
  | evictor => exact counting.evictorStep taken

/-- Once all workers have returned they have all been counted. -/
theorem Counting.completed (counting : program.Counting) (all : program.AllReturned) :
    program.nrThreadsCompleted = nrThreads ∧ program.done = true ∧
      program.main.entered = true ∧ program.loopRunning = false := by
  have completed : program.nrThreadsCompleted = nrThreads := by
    rw [counting.counted, tally]
    simp [all _, WorkerPc.counted]
  have done : program.done = true := by
    rcases counting.atEnd completed with done | ⟨worker, ending⟩
    · exact done
    · rw [all worker] at ending
      rcases ending with quitting | setting
      · cases quitting
      · cases setting
  exact ⟨completed, done, counting.stopped (.inl done)⟩

/-- A missed shutdown is never made up for: `main` stays in its loop. -/
theorem Missed.step (missed : program.Missed) {workloadMax : Nat}
    {action : Actor nrThreads × Bool} (taken : program.step workloadMax action = some after) :
    after.Missed := by
  obtain ⟨all, waiting⟩ := missed
  obtain ⟨actor, returnsData⟩ := action
  cases actor with
  | worker worker =>
      simp [Program.step, Program.workerStep, all worker] at taken
  | evictor =>
      have same : after.workers = program.workers ∧ after.main = program.main ∧
          after.loopRunning = program.loopRunning := by
        simp only [Program.step, Program.evictorStep] at taken
        split at taken
        · cases taken
        · cases Option.some.inj taken
          exact ⟨rfl, rfl, rfl⟩
        · cases Option.some.inj taken
          exact ⟨rfl, rfl, rfl⟩
        · cases taken
      simpa only [Missed, AllReturned, same.1, same.2.1, same.2.2] using ⟨all, waiting⟩
  | main =>
      simp only [Program.step, Program.mainStep] at taken
      rcases waiting with before | ⟨inside, running⟩
      · cases here : program.main with
        | push next =>
            simp only [here, all _] at taken
            split at taken
            · simp at taken
            · cases Option.some.inj taken
              exact ⟨all, .inl rfl⟩
        | startEvictor =>
            simp only [here, Option.some.injEq] at taken
            subst taken
            exact ⟨all, .inl rfl⟩
        | enterLoop =>
            simp only [here, Option.some.injEq] at taken
            subst taken
            exact ⟨all, .inr ⟨rfl, rfl⟩⟩
        | inLoop | freePool | joinEvictor | finished => simp [here, MainPc.entered] at before
      · simp only [inside, running, if_true, Option.some.injEq] at taken
        subst taken
        exact ⟨all, .inr ⟨inside, running⟩⟩

end Steps

/-- From a missed shutdown no run gets past the main loop. -/
theorem Missed.forever {workloadMax : Nat} {first last : Program nrThreads}
    (missed : first.Missed)
    (reached : Reach (Program.step workloadMax) (fun _ _ => True) (· = first) last) :
    last.Missed :=
  reached.invariant (fun _ begins => begins ▸ missed) fun _ _ _ missed _ taken =>
    missed.step taken

/-- The shutdown is not missed, and once every worker has returned it has been ordered. -/
def ShutsDown (program : Program nrThreads) : Prop :=
  ¬ program.Missed ∧
    (program.AllReturned →
      program.done = true ∧ program.nrThreadsCompleted = nrThreads)

end Program

/-- In every interleaving in which no call returns NULL and the last worker finds the loop
entered, the shutdown is not missed. -/
theorem shutdown_notMissed (some : 1 ≤ nrThreads) {workloadMax : Nat}
    {program : Program nrThreads}
    (reached : Reach (Program.step workloadMax) Program.Orderly (· = Program.init) program) :
    program.ShutsDown := by
  have counting : program.Counting :=
    reached.invariant (fun _ begins => begins ▸ Program.Counting.init some)
      fun _ _ _ counting orderly taken => counting.step orderly taken
  constructor
  · intro given
    obtain ⟨all, before | ⟨_, running⟩⟩ := given
    · have entered := (counting.completed all).2.2.1
      rw [before] at entered
      cases entered
    · have stopped := (counting.completed all).2.2.2
      rw [running] at stopped
      cases stopped
  · intro all
    obtain ⟨completed, done, _⟩ := counting.completed all
    exact ⟨done, completed⟩

/-- Two workers serve three queries between them.  The second one is counted first, and
`main` ends when the evictor has. -/
def orderlyShutdown (first second : Fin nrThreads) : List (Actor nrThreads × Bool) :=
  List.replicate 5 (.main, true) ++ List.replicate 2 (.worker first, true) ++
    List.replicate 2 (.worker second, true) ++ List.replicate 2 (.worker first, true) ++
    List.replicate 4 (.worker second, true) ++ List.replicate 6 (.worker first, true) ++
    [(.main, true), (.main, true), (.evictor, true), (.main, true)]

theorem shutdown_notMissed_orderly :
    ∃ program : Program 2,
      runActions (Program.step 3) Program.init (orderlyShutdown 0 1) = some program ∧
      program.workloadIndex = 3 ∧ program.main = .finished ∧ program.AllReturned ∧
      program.ShutsDown := by
  cases executed : runActions (Program.step 3) Program.init
      (orderlyShutdown (0 : Fin 2) 1) with
  | none => cases executed
  | some program =>
      refine ⟨program, rfl, ?_, ?_, ?_, ?_⟩
      · cases Option.some.inj executed
        rfl
      · cases Option.some.inj executed
        rfl
      · cases Option.some.inj executed
        decide +kernel
      · refine shutdown_notMissed (Nat.le_succ 1)
          (Reach.of_runActions (orderlyShutdown 0 1) (Reach.start rfl) ?_ executed)
        decide +kernel

/-- One worker with an empty workload returns before `main` enters its loop. -/
def earlyQuit : List (Actor 1 × Bool) :=
  (.main, true) :: List.replicate 6 (.worker 0, true) ++ List.replicate 3 (.main, true)

/-- One worker's first call returns NULL while `main` is in its loop. -/
def failedGet : List (Actor 1 × Bool) :=
  List.replicate 4 (.main, true) ++ [(.worker 0, true), (.worker 0, true), (.worker 0, false)]

/-- The early quit is undone by `main`, and the failed worker never quits. -/
theorem shutdown_missed :
    (∃ program : Program 1,
      Reach (Program.step 0) (fun _ _ => True) (· = Program.init) program ∧
      program.done = true ∧ ¬ program.ShutsDown) ∧
    ∃ program : Program 1,
      Reach (Program.step 1) (fun _ _ => True) (· = Program.init) program ∧
      program.AllReturned ∧ program.done = false ∧ ¬ program.ShutsDown := by
  constructor
  · cases executed : runActions (Program.step 0) Program.init earlyQuit with
    | none => cases executed
    | some program =>
        refine ⟨program, Reach.of_runActions earlyQuit (Reach.start rfl)
          (AllowedAlong.of_forall _ _ fun _ _ _ => trivial) executed, ?_, fun shuts => ?_⟩
        · cases Option.some.inj executed
          rfl
        · apply shuts.1
          cases Option.some.inj executed
          exact ⟨by decide +kernel, .inr ⟨rfl, rfl⟩⟩
  · cases executed : runActions (Program.step 1) Program.init failedGet with
    | none => cases executed
    | some program =>
        refine ⟨program, Reach.of_runActions failedGet (Reach.start rfl)
          (AllowedAlong.of_forall _ _ fun _ _ _ => trivial) executed, ?_, ?_, fun shuts => ?_⟩
        · cases Option.some.inj executed
          decide +kernel
        · cases Option.some.inj executed
          rfl
        · apply shuts.1
          cases Option.some.inj executed
          exact ⟨by decide +kernel, .inr ⟨rfl, rfl⟩⟩

end ZNCache
