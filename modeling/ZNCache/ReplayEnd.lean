import ZNCache.Completion
import ZNCache.Replay

/-!
# The end of a replay

Once nothing fails any more, the workers can all be brought to their ends.  If nothing
failed before, each of them is counted, the last one sets `*done`, and `evict_task` ends.
A worker that was given NULL is never counted, and `evict_task` goes on for ever then.
-/

set_option autoImplicit false

namespace ZNCache

open Tally Transition

variable {Thread Policy Local : Type}

/-! ## Workers and their count -/

namespace TaskPc

/-- What a worker has left of its own program. -/
def toGo : TaskPc → Nat
  | take | serve _ => 2
  | count => 1
  | finished | gaveUp | checkDone | checkZones | ended => 0

/-- What `evict_task` has left once `*done` is set. -/
def toEnd : TaskPc → Nat
  | checkZones => 2
  | checkDone => 1
  | take | serve _ | count | finished | gaveUp | ended => 0

theorem completed_le (task : TaskPc) : task.completed ≤ task.works := by
  cases task with
  | finished | checkDone | checkZones | ended => exact Nat.le_refl _
  | take | serve | count | gaveUp => exact Nat.zero_le _

theorem returned_same (task : TaskPc) (returned : List GetReturn) :
    (task.returned returned).works = task.works ∧
      (task.returned returned).completed = task.completed ∧
      (task.returned returned).toEnd = task.toEnd ∧
      (task.returned returned).toGo ≤ task.toGo ∧
      (task.returned returned = .ended → task = .ended) := by
  unfold TaskPc.returned
  split
  next => exact ⟨rfl, rfl, rfl, Nat.zero_le _, TaskPc.noConfusion⟩
  next => exact ⟨rfl, rfl, rfl, Nat.le_refl _, TaskPc.noConfusion⟩
  next => exact ⟨rfl, rfl, rfl, Nat.le_refl _, id⟩

end TaskPc

namespace Replay

section Count

variable [Fintype Thread] {replay next : Replay Thread Policy Local}

structure Tallied (replay : Replay Thread Policy Local) : Prop where
  workers : replay.nrThreads = tally TaskPc.works replay.tasks
  completed : replay.nrThreadsCompleted = tally TaskPc.completed replay.tasks
  done : replay.done = true ↔
    0 < replay.nrThreadsCompleted ∧ replay.nrThreadsCompleted = replay.nrThreads
  ended : ∀ thread, replay.tasks thread = .ended → replay.done = true

theorem Tallied.start (system : System Thread Policy Local) (workload : List Nat)
    (evicts : Thread → Bool) : Tallied (start system workload evicts) := by
  have task : ∀ thread, (Replay.start system workload evicts).tasks thread =
      if evicts thread then .checkDone else .take := fun _ => rfl
  refine ⟨Finset.sum_congr rfl fun thread _ => ?_, ?_, by simp [Replay.start], fun thread given => ?_⟩
  · rw [task]
    cases evicts thread <;> rfl
  · refine (tally_const_zero _ _ fun thread => ?_).symm
    rw [task]
    cases evicts thread <;> rfl
  · rw [task] at given
    split at given <;> cases given

/-- Once `*done` is set, every worker has been counted. -/
theorem Tallied.finished (tallied : Tallied replay) (done : replay.done = true)
    {thread : Thread} (works : (replay.tasks thread).works = 1) :
    replay.tasks thread = .finished := by
  have same : tally TaskPc.completed replay.tasks = tally TaskPc.works replay.tasks := by
    rw [← tallied.completed, ← tallied.workers]
    exact (tallied.done.mp done).2
  have each := (Finset.sum_eq_sum_iff_of_le fun thread _ =>
    (replay.tasks thread).completed_le).mp same thread (Finset.mem_univ thread)
  rw [works] at each
  cases here : replay.tasks thread with
  | finished => rfl
  | take | serve | count | gaveUp | checkDone | checkZones | ended =>
      rw [here] at each
      cases each

theorem Tallied.notDone (tallied : Tallied replay) {thread : Thread}
    (works : (replay.tasks thread).works = 1) (apart : replay.tasks thread ≠ .finished) :
    replay.done = false := by
  rw [Bool.eq_false_iff]
  exact fun done => apart (tallied.finished done works)

theorem Tallied.allCounted (tallied : Tallied replay) (some : 1 ≤ replay.nrThreads)
    (finished : ∀ thread, (replay.tasks thread).works = 1 → replay.tasks thread = .finished) :
    replay.done = true := by
  have same : tally TaskPc.completed replay.tasks = tally TaskPc.works replay.tasks := by
    refine Finset.sum_congr rfl fun thread _ => ?_
    cases here : replay.tasks thread with
    | finished | checkDone | checkZones | ended => rfl
    | take | serve | count | gaveUp =>
        have counted := finished thread (by rw [here]; rfl)
        rw [here] at counted
        cases counted
  rw [tallied.done, tallied.completed, same, ← tallied.workers]
  exact ⟨some, rfl⟩

variable [DecidableEq Thread] {code : EvictionCode Thread Policy Local} {config : CacheConfig}
  {ioSize : Nat} {thread : Thread} {action : TaskAction}

theorem Tallied.move (tallied : Tallied replay) {task : TaskPc}
    (tasks : next.tasks = Function.update replay.tasks thread task)
    (counts : next.nrThreads = replay.nrThreads ∧
      next.nrThreadsCompleted = replay.nrThreadsCompleted ∧ next.done = replay.done)
    (works : task.works = (replay.tasks thread).works)
    (completed : task.completed = (replay.tasks thread).completed)
    (ended : task = .ended → replay.done = true) : Tallied next := by
  obtain ⟨sameThreads, sameCompleted, sameDone⟩ := counts
  constructor
  · rw [sameThreads, tasks, tally_update_same works]
    exact tallied.workers
  · rw [sameCompleted, tasks, tally_update_same completed]
    exact tallied.completed
  · rw [sameDone, sameCompleted, sameThreads]
    exact tallied.done
  · intro other given
    rw [tasks] at given
    rw [sameDone]
    by_cases mine : other = thread
    · subst mine
      exact ended (by simpa using given)
    · exact tallied.ended other (by simpa [mine] using given)

theorem Tallied.count (tallied : Tallied replay) (here : replay.tasks thread = .count) :
    Tallied { replay.goTo thread .finished with
      nrThreadsCompleted := replay.nrThreadsCompleted + 1
      done := replay.done || decide (replay.nrThreadsCompleted + 1 = replay.nrThreads) } := by
  have notDone := tallied.notDone (by rw [here]; rfl) (by rw [here]; exact TaskPc.noConfusion)
  constructor
  · dsimp only [Replay.goTo]
    rw [tally_update, tallied.workers, tally_split _ _ thread, here]
    rfl
  · dsimp only [Replay.goTo]
    rw [tally_update, tallied.completed, tally_split _ _ thread, here]
    simp only [TaskPc.completed]
    omega
  · simp [notDone, Replay.goTo]
  · intro other given
    by_cases mine : other = thread
    · subst mine
      simp [Replay.goTo] at given
    · have ended := tallied.ended other (by simpa [Replay.goTo, mine] using given)
      rw [notDone] at ended
      cases ended

theorem Tallied.step (tallied : Tallied replay)
    (taken : Step code config ioSize replay thread action next) : Tallied next := by
  have onward : ∀ (choice : Choice) (log : RatioLog Thread Policy Local),
      Tallied (replay.onward (thread, choice) log) := by
    intro choice log
    obtain ⟨works, completed, _, _, ended⟩ :=
      (replay.tasks thread).returned_same (replay.log.nowReturns (thread, choice))
    exact tallied.move rfl ⟨rfl, rfl, rfl⟩ works completed
      fun given => tallied.ended thread (ended given)
  cases taken with
  | leave here | take here | goOn here | sleep here | evict here =>
      exact tallied.move rfl ⟨rfl, rfl, rfl⟩ (by rw [here]; rfl) (by rw [here]; rfl)
        TaskPc.noConfusion
  | count here => exact tallied.count here
  | finish here idle done =>
      exact tallied.move rfl ⟨rfl, rfl, rfl⟩ (by rw [here]; rfl) (by rw [here]; rfl)
        fun _ => done
  | wakeUp | run => exact onward _ _

theorem Tallied.of_reach {workload : List Nat}
    {allowed : Replay Thread Policy Local → Thread × TaskAction → Prop} {policy : Policy}
    (reached : Reach (Replay.step code config ioSize) allowed
      (Initial config policy workload) replay) : Tallied replay := by
  refine reached.invariant (fun state begins => ?_)
    fun _ action _ tallied _ taken => tallied.step (step_spec taken)
  obtain ⟨system, evicts, _, rfl⟩ := begins
  exact Tallied.start system workload evicts

omit [DecidableEq Thread] in
/-- A worker that was given NULL keeps `*done` from being set. -/
theorem Tallied.gaveUp (tallied : Tallied replay) (here : replay.tasks thread = .gaveUp) :
    replay.done = false ∧ ∀ other, replay.tasks other ≠ .ended := by
  have notDone := tallied.notDone (by rw [here]; rfl) (by rw [here]; exact TaskPc.noConfusion)
  refine ⟨notDone, fun other given => ?_⟩
  have ended := tallied.ended other given
  rw [notDone] at ended
  cases ended

end Count

end Replay

/-! ## Calls that return data -/

/-- Nothing that the call has met so far makes it return NULL. -/
def GetPc.Promising (buffered : Bool) : GetPc → Prop
  | touch _ _ _ | release _ _ _ | countHit _ _ => buffered = true
  | undoZone _ _ | undoMap _ => False
  | find _ | asleep _ | read _ _ | acquire _ | write _ _ => True
  | countMiss _ _ | giveBack _ _ | record _ _ | insert _ _ => True

def ThreadPc.Promising (buffered : Bool) : ThreadPc Local → Prop
  | get pc => pc.Promising buffered
  | idle | evict _ _ => True

/-- Sizes and offsets are what `zn_read_from_disk` asks for. -/
structure Aligned (config : CacheConfig) (ioSize : Nat) : Prop where
  chunkSz : config.chunkSz % directAlignment = 0
  zoneSize : config.zoneSize % directAlignment = 0
  ioSize : ioSize % directAlignment = 0

theorem Aligned.readsBuffer {config : CacheConfig} {ioSize : Nat} (aligned : Aligned config ioSize)
    (location : ZnPair) {environment : Environment} (transfers : environment.transfers = true) :
    ReadsBuffer config ioSize location environment := by
  refine ⟨aligned.chunkSz, aligned.ioSize, ?_, transfers⟩
  have zones := Nat.dvd_of_mod_eq_zero aligned.zoneSize
  have chunks := Nat.dvd_of_mod_eq_zero aligned.chunkSz
  have words : directAlignment ∣ 2 ^ 64 := by decide
  apply Nat.mod_eq_zero_of_dvd
  rw [chunkPointer, Nat.dvd_mod_iff words]
  exact Nat.dvd_add (zones.mul_right _) (chunks.mul_left _)

namespace RatioLog

structure Unfailed (log : RatioLog Thread Policy Local) : Prop where
  promising : ∀ thread, (log.system.threads thread).Promising (log.buffered thread)
  returns : ∀ ret ∈ log.returns, ret ≠ .null

variable [DecidableEq Thread] {config : CacheConfig} {ioSize : Nat}
  {log next : RatioLog Thread ZnPolicyPromotional EvictPc}

theorem promising_afterFind (id : Nat) (found : FindResult) (buffered : Bool) :
    (afterFind id found : ThreadPc Local).Promising buffered := by
  cases found <;> trivial

theorem promising_afterEvict (caller : Option Nat) (buffered : Bool) :
    (afterEvict caller : ThreadPc Local).Promising buffered := by
  cases caller <;> trivial

theorem promising_afterGetActiveZone (id : Nat) (start : Local) {ret : GetActiveZone}
    (noError : ret ≠ .error) (buffered : Bool) :
    (afterGetActiveZone id start ret).Promising buffered := by
  cases ret with
  | error => exact absurd rfl noError
  | success | retry | evict => trivial

/-- `zsm_get_active_zone` reports no error while zones can be opened. -/
theorem getActiveZone_noError {manager : ZoneStateManager} {held : Multiset ZnPair}
    (sound : ZonesSound manager held) : (zsmGetActiveZone 0 manager).ret ≠ .error := by
  have answer := sound.partition.getActiveZone_spec sound.counts 0
  generalize zsmGetActiveZone 0 manager = outcome at answer ⊢
  cases answer with
  | error _ _ _ _ failed => exact absurd (backendRet_zero _) failed
  | evict | retry | success => exact GetActiveZone.noConfusion

theorem Unfailed.getStep {thread : Thread} {here : GetPc} {environment : Environment}
    {cache : PromotionalCache Thread} {pc : ThreadPc EvictPc} {held : Multiset ZnPair}
    (unfailed : log.Unfailed) (at' : log.system.threads thread = .get here)
    (aligned : Aligned config ioSize) (zones : ZonesSound log.system.cache.zoneState held)
    (command : environment.commandRet = 0) (transfers : environment.transfers = true)
    (ran : GetStep (promotionalCode config) thread log.system.cache environment here cache pc) :
    pc.Promising (log.nowBuffered config ioSize (thread, .run environment)) ∧
      ∀ ret ∈ log.nowReturns (thread, .run environment), ret ≠ .null := by
  have promising := unfailed.promising thread
  rw [at'] at promising
  have silent : (∀ id data, here ≠ .countHit id data) → (∀ id location, here ≠ .insert id location) →
      (∀ id, here ≠ .undoMap id) →
      ∀ ret ∈ log.nowReturns (thread, .run environment), ret ≠ .null := by
    intro notHit notInsert notUndo ret member
    cases here with
    | countHit => exact absurd rfl (notHit _ _)
    | insert => exact absurd rfl (notInsert _ _)
    | undoMap => exact absurd rfl (notUndo _)
    | find | asleep | read | touch | release | acquire | write | countMiss | giveBack | record
    | undoZone => simp [nowReturns, at'] at member
  have kept : (∀ id location, here ≠ .read id location) →
      log.nowBuffered config ioSize (thread, .run environment) = log.buffered thread := by
    intro notRead
    have none : log.reading (thread, .run environment) = none := by
      cases here with
      | read => exact absurd rfl (notRead _ _)
      | find | asleep | touch | release | countHit | acquire | write | countMiss | giveBack
      | record | insert | undoZone | undoMap => simp [reading, at']
    exact (not_reading config ioSize none).2
  cases ran with
  | undoZone | undoMap => exact promising.elim
  | writeFailed id location fails =>
      rw [transfers] at fails
      cases fails
  | countHit id data =>
      refine ⟨trivial, fun ret member => ?_⟩
      have buffered : log.buffered thread = true := promising
      simp only [nowReturns, at', buffered, if_true, List.mem_singleton] at member
      rw [member]
      exact GetReturn.noConfusion
  | insert id =>
      refine ⟨trivial, fun ret member => ?_⟩
      simp only [nowReturns, at', List.mem_singleton] at member
      rw [member]
      exact GetReturn.noConfusion
  | read id location =>
      refine ⟨?_, silent (by simp) (by simp) (by simp)⟩
      have served : ReadsServed config ioSize log (thread, .run environment) := by
        intro read member
        simp only [reading, at', Option.mem_some_iff] at member
        subst member
        exact aligned.readsBuffer location transfers
      have reads : log.reading (thread, .run environment) = some (location, environment) := by
        simp [reading, at']
      simp only [ThreadPc.Promising, GetPc.Promising, nowBuffered, reads, served, decide_true]
  | touch | release =>
      rw [kept (by simp)]
      exact ⟨promising, silent (by simp) (by simp) (by simp)⟩
  | find id => exact ⟨promising_afterFind _ _ _, silent (by simp) (by simp) (by simp)⟩
  | acquire id =>
      rw [command]
      exact ⟨promising_afterGetActiveZone _ _ (getActiveZone_noError zones) _,
        silent (by simp) (by simp) (by simp)⟩
  | woken | write | countMiss | giveBack | record =>
      exact ⟨trivial, silent (by simp) (by simp) (by simp)⟩

theorem Unfailed.step {action : Thread × Choice} {held : Multiset ZnPair}
    (unfailed : log.Unfailed) (aligned : Aligned config ioSize)
    (zones : ZonesSound log.system.cache.zoneState held)
    (faultless : ∀ environment, action.2 = .run environment →
      environment.commandRet = 0 ∧ environment.transfers = true)
    (taken : log.step (promotionalCode config) config ioSize action = some next) :
    next.Unfailed := by
  obtain ⟨thread, choice⟩ := action
  obtain ⟨system, stepped, rfl⟩ := Option.map_eq_some_iff.mp taken
  obtain ⟨cache, pc, rfl, moved⟩ := System.step_spec stepped
  have own : pc.Promising (log.nowBuffered config ioSize (thread, choice)) ∧
      ∀ ret ∈ log.nowReturns (thread, choice), ret ≠ .null := by
    generalize at' : log.system.threads thread = here at moved
    cases moved with
    | get ran =>
        obtain ⟨command, transfers⟩ := faultless _ rfl
        exact unfailed.getStep at' aligned zones command transfers ran
    | call | callEvict | wakeUp => exact ⟨trivial, by simp [nowReturns, at']⟩
    | evict => exact ⟨trivial, by simp [nowReturns, at']⟩
    | evicted caller => exact ⟨promising_afterEvict _ _, by simp [nowReturns, at']⟩
  constructor
  · intro other
    by_cases mine : other = thread
    · subst mine
      simpa [System.advance] using own.1
    · simpa [System.advance, mine] using unfailed.promising other
  · intro ret member
    rcases List.mem_append.mp member with before | now
    · exact unfailed.returns ret before
    · exact own.2 ret now

end RatioLog

/-! ## The end -/

namespace Replay

section Finish

variable [Fintype Thread] [DecidableEq Thread] {config : CacheConfig} {ioSize : Nat}
  {workload : List Nat} {replay next : Replay Thread ZnPolicyPromotional EvictPc}
  {thread : Thread} {action : TaskAction}

/-- The libzbd commands succeed; chunk transfers may fail. -/
def Succeeds (_ : Replay Thread Policy Local) (action : Thread × TaskAction) : Prop :=
  ∀ environment, action.2 = .run environment → environment.commandRet = 0

def Faultless (_ : Replay Thread Policy Local) (action : Thread × TaskAction) : Prop :=
  ∀ environment, action.2 = .run environment →
    environment.commandRet = 0 ∧ environment.transfers = true

/-- Nothing fails and nothing is in the way. -/
def Smooth (_ : Replay Thread Policy Local) (action : Thread × TaskAction) : Prop :=
  ∀ environment, action.2 = .run environment → environment = .smooth

omit [Fintype Thread] [DecidableEq Thread] in
theorem Smooth.faultless {replay : Replay Thread Policy Local} {action : Thread × TaskAction}
    (smooth : Smooth replay action) : Faultless replay action := by
  intro environment same
  rw [smooth environment same]
  exact ⟨rfl, rfl⟩

omit [Fintype Thread] [DecidableEq Thread] in
theorem Faultless.succeeds {replay : Replay Thread Policy Local} {action : Thread × TaskAction}
    (faultless : Faultless replay action) : Succeeds replay action :=
  fun environment same => (faultless environment same).1

structure Sound (config : CacheConfig) (workload : List Nat)
    (replay : Replay Thread ZnPolicyPromotional EvictPc) : Prop where
  serving : Serving workload replay
  tallied : Tallied replay
  recoverable : Recoverable config replay.log.system

omit [Fintype Thread] in
theorem Step.log {code : EvictionCode Thread Policy Local}
    {replay next : Replay Thread Policy Local}
    (taken : Step code config ioSize replay thread action next) :
    next.log = replay.log ∨
      ∃ choice, replay.log.step code config ioSize (thread, choice) = some next.log ∧
        (∀ id, choice = .get id → id ∈ replay.reader.workloadBuffer) ∧
        ∀ environment, choice = .run environment → action = .run environment := by
  cases taken with
  | leave | count | finish | goOn | sleep => exact .inl rfl
  | take here query reader id log queried found called =>
      refine .inr ⟨.get id, called, fun other same => ?_, fun _ same => ?_⟩
      · cases same
        rw [(ZnReader.takeQuery_index queried).2.2.2.1] at found
        exact List.mem_of_getElem? found
      · cases same
  | evict here log called =>
      exact .inr ⟨.evict, called, fun _ same => (by cases same), fun _ same => (by cases same)⟩
  | wakeUp log moved =>
      exact .inr ⟨.wakeUp, moved, fun _ same => (by cases same), fun _ same => (by cases same)⟩
  | run environment log moved =>
      refine .inr ⟨.run environment, moved, fun _ same => (by cases same), fun other same => ?_⟩
      cases same
      rfl

theorem Sound.step (fits : config.maxZoneChunks < 2 ^ 32) (short : workload.length < 2 ^ 64)
    (low : ∀ id ∈ workload, id < 2 ^ 31) (sound : Sound config workload replay)
    {action : Thread × TaskAction} (success : Succeeds replay action)
    (taken : replay.step (promotionalCode config) config ioSize action = some next) :
    Sound config workload next := by
  obtain ⟨thread, action⟩ := action
  refine ⟨sound.serving.step (RatioLog.keepsRatio_promotional config) short taken,
    sound.tallied.step (step_spec taken), ?_⟩
  rcases (step_spec taken).log with same | ⟨choice, moved, requested, ran⟩
  · rw [same]
    exact sound.recoverable
  · obtain ⟨system, stepped, same⟩ := Option.map_eq_some_iff.mp moved
    have recovered : Recoverable config system := by
      refine sound.recoverable.step fits (fun environment same => ?_) (fun id same => ?_) stepped
      · exact success environment (ran environment same)
      · apply low
        rw [← sound.serving.buffer]
        exact requested id same
    rw [← same]
    exact recovered

/-- What the workers have left: the queries that nobody has taken, and their own ways out. -/
def workersLeft (workload : List Nat) (replay : Replay Thread Policy Local) : Nat :=
  workload.length - replay.reader.workloadIndex + tally TaskPc.toGo replay.tasks

def evictorsLeft (replay : Replay Thread Policy Local) : Nat := tally TaskPc.toEnd replay.tasks

/-- No step gives the workers more to do, and what they do outside of their calls leaves
less. -/
theorem Step.workersLess {code : EvictionCode Thread Policy Local}
    {replay next : Replay Thread Policy Local} (serving : Serving workload replay)
    (short : workload.length < 2 ^ 64)
    (taken : Step code config ioSize replay thread action next) :
    workersLeft workload next ≤ workersLeft workload replay ∧
      (action = .takeQuery ∨ action = .countDone →
        workersLeft workload next < workersLeft workload replay) := by
  have onward : ∀ choice log,
      workersLeft workload (replay.onward (thread, choice) log) ≤
        workersLeft workload replay := by
    intro choice log
    obtain ⟨_, _, _, less, _⟩ :=
      (replay.tasks thread).returned_same (replay.log.nowReturns (thread, choice))
    exact Nat.add_le_add_left (tally_update_le less) _
  have elsewhere : ∀ task : TaskPc, task.toGo < (replay.tasks thread).toGo →
      workersLeft workload (replay.goTo thread task) < workersLeft workload replay :=
    fun task less => Nat.add_lt_add_left (tally_update_lt less) _
  cases taken with
  | leave here none =>
      have less := elsewhere .count (by rw [here]; decide)
      exact ⟨less.le, fun _ => less⟩
  | take here query reader id log queried found called =>
      obtain ⟨more, _, index, _⟩ := ZnReader.takeQuery_index queried
      rw [serving.max] at more
      have position : reader.workloadIndex = replay.reader.workloadIndex + 1 :=
        index.trans (Nat.mod_eq_of_lt (by omega))
      have same : (TaskPc.serve query.wi).toGo = (replay.tasks thread).toGo := by rw [here]; rfl
      have less : workload.length - reader.workloadIndex +
          tally TaskPc.toGo (Function.update replay.tasks thread (.serve query.wi)) <
          workersLeft workload replay := by
        rw [tally_update_same same, position]
        exact Nat.add_lt_add_right (by omega) _
      exact ⟨less.le, fun _ => less⟩
  | count here =>
      have less := elsewhere .finished (by rw [here]; decide)
      exact ⟨less.le, fun _ => less⟩
  | finish here | goOn here | sleep here | evict here =>
      exact ⟨Nat.add_le_add_left (tally_update_le (by rw [here]; exact Nat.le_refl 0)) _, by simp⟩
  | wakeUp | run => exact ⟨onward _ _, by simp⟩

omit [Fintype Thread] in
theorem Step.nrThreads {code : EvictionCode Thread Policy Local}
    {replay next : Replay Thread Policy Local}
    (taken : Step code config ioSize replay thread action next) :
    next.nrThreads = replay.nrThreads := by
  cases taken <;> rfl

/-- Once `*done` is set, it stays so, and `evict_task` has ever less to do. -/
theorem Step.evictorsLess {code : EvictionCode Thread Policy Local}
    {replay next : Replay Thread Policy Local} (done : replay.done = true)
    (taken : Step code config ioSize replay thread action next) :
    next.done = true ∧ evictorsLeft next ≤ evictorsLeft replay ∧
      (action = .checkDone ∨ action = .checkZones →
        evictorsLeft next < evictorsLeft replay) := by
  have onward : ∀ choice log,
      evictorsLeft (replay.onward (thread, choice) log) ≤ evictorsLeft replay := by
    intro choice log
    obtain ⟨_, _, same, _, _⟩ :=
      (replay.tasks thread).returned_same (replay.log.nowReturns (thread, choice))
    exact tally_update_le same.le
  have elsewhere : ∀ task : TaskPc, task.toEnd < (replay.tasks thread).toEnd →
      tally TaskPc.toEnd (Function.update replay.tasks thread task) < evictorsLeft replay :=
    fun task less => tally_update_lt less
  cases taken with
  | leave here | take here =>
      exact ⟨done, tally_update_le (by rw [here]; exact Nat.le_refl 0), by simp⟩
  | count here =>
      exact ⟨by simp [done], tally_update_le (by rw [here]; exact Nat.le_refl 0), by simp⟩
  | finish here =>
      have less := elsewhere .ended (by rw [here]; decide)
      exact ⟨done, less.le, fun _ => less⟩
  | sleep here | evict here =>
      have less := elsewhere .checkDone (by rw [here]; decide)
      exact ⟨done, less.le, fun _ => less⟩
  | goOn here idle notDone =>
      rw [done] at notDone
      cases notDone
  | wakeUp | run => exact ⟨done, onward _ _, by simp⟩

def AllIdle (replay : Replay Thread Policy Local) : Prop :=
  ∀ thread, replay.log.system.threads thread = .idle

theorem Sound.toIdle (fits : config.maxZoneChunks < 2 ^ 32) (someZone : 1 ≤ config.nrZones)
    (mark : 1 ≤ config.evictLowThreshZones) (sound : Sound config workload replay)
    (ioSize : Nat) :
    CanReach (Replay.step (promotionalCode config) config ioSize) Smooth AllIdle replay := by
  refine CanReach.lift (fun whole : Replay Thread ZnPolicyPromotional EvictPc =>
    whole.log.system) ?_ (sound.recoverable.finishes fits someZone mark)
  intro state action next runs taken
  obtain ⟨thread, rfl⟩ := runs
  refine ⟨(thread, .run .smooth), state.onward (thread, .run .smooth) ⟨next, Function.update
    state.log.buffered thread (state.log.nowBuffered config ioSize (thread, .run .smooth)),
    state.log.returns ++ state.log.nowReturns (thread, .run .smooth)⟩, ?_, ?_, rfl⟩
  · intro environment same
    cases same
    rfl
  · change Option.map _ (state.log.step _ _ _ _) = _
    rw [RatioLog.step, taken]
    rfl

theorem Sound.looks (low : ∀ id ∈ workload, id < 2 ^ 31) (sound : Sound config workload replay)
    (idle : AllIdle replay) (busy : (replay.tasks thread).toGo ≠ 0) :
    ∃ action next, (action = .takeQuery ∨ action = .countDone) ∧
      replay.step (promotionalCode config) config ioSize (thread, action) = some next := by
  cases here : replay.tasks thread with
  | finished | gaveUp | checkDone | checkZones | ended => exact absurd (by rw [here]; rfl) busy
  | serve wi =>
      have seat := sound.serving.inCall.mpr ⟨wi, here⟩
      rw [idle thread] at seat
      cases seat
  | count =>
      refine ⟨.countDone, ?_⟩
      simp only [Replay.step, here]
      exact ⟨_, .inr trivial, rfl⟩
  | take =>
      refine ⟨.takeQuery, ?_⟩
      cases queried : replay.reader.takeQuery with
      | none =>
          simp only [Replay.step, here, queried]
          exact ⟨_, .inl trivial, rfl⟩
      | some answer =>
          obtain ⟨query, reader⟩ := answer
          obtain ⟨more, position, _, sameBuffer, _⟩ := ZnReader.takeQuery_index queried
          rw [sound.serving.max] at more
          have found : reader.workloadBuffer[query.wi]? =
              some (workload[replay.reader.workloadIndex]) := by
            rw [sameBuffer, position, sound.serving.buffer]
            exact List.getElem?_eq_getElem more
          have small := low _ (List.getElem_mem more)
          have called : ∃ log, replay.log.step (promotionalCode config) config ioSize
              (thread, .get (workload[replay.reader.workloadIndex])) = some log := by
            rw [RatioLog.step, System.step, idle thread]
            simp only
            rw [if_pos (small.trans (by decide))]
            exact ⟨_, rfl⟩
          obtain ⟨log, called⟩ := called
          simp only [Replay.step, here, queried, found, called, Option.map_some]
          exact ⟨_, .inl trivial, rfl⟩

/-- The workers can all be brought to their ends: the queries that are left are taken and
answered. -/
theorem Sound.workersEnd (fits : config.maxZoneChunks < 2 ^ 32) (someZone : 1 ≤ config.nrZones)
    (mark : 1 ≤ config.evictLowThreshZones) (short : workload.length < 2 ^ 64)
    (low : ∀ id ∈ workload, id < 2 ^ 31) (sound : Sound config workload replay) :
    CanReach (Replay.step (promotionalCode config) config ioSize) Smooth
      (fun last : Replay Thread ZnPolicyPromotional EvictPc =>
        AllIdle last ∧ ∀ thread, (last.tasks thread).toGo = 0) replay := by
  have soundStep : ∀ (state : Replay Thread ZnPolicyPromotional EvictPc) action next,
      Sound config workload state → Smooth state action →
      state.step (promotionalCode config) config ioSize action = some next →
      Sound config workload next :=
    fun _ _ _ sound smooth taken => sound.step fits short low smooth.faultless.succeeds taken
  have lowered : ∀ state : Replay Thread ZnPolicyPromotional EvictPc,
      Sound config workload state ∧ AllIdle state →
      ¬ (AllIdle state ∧ ∀ thread, (state.tasks thread).toGo = 0) →
      CanReach (Replay.step (promotionalCode config) config ioSize) Smooth
        (fun next => (Sound config workload next ∧ AllIdle next) ∧
          workersLeft workload next < workersLeft workload state) state := by
    intro state settled unfinished
    obtain ⟨sound, idle⟩ := settled
    obtain ⟨thread, busy⟩ : ∃ thread, (state.tasks thread).toGo ≠ 0 := by
      by_contra none
      exact unfinished ⟨idle, fun thread => not_not.mp fun busy => none ⟨thread, busy⟩⟩
    obtain ⟨action, next, kind, taken⟩ := @Sound.looks _ _ _ _ ioSize _ _ thread low sound idle
      busy
    have free : Smooth state (thread, action) := by
      intro environment same
      rcases kind with rfl | rfl <;> cases same
    have less := ((step_spec taken).workersLess sound.serving short).2 kind
    have soundNext := soundStep state _ next sound free taken
    have noMore : ∀ (middle : Replay Thread ZnPolicyPromotional EvictPc) action last,
        Sound config workload middle ∧ workersLeft workload middle ≤ workersLeft workload next →
        Smooth middle action →
        middle.step (promotionalCode config) config ioSize action = some last →
        Sound config workload last ∧ workersLeft workload last ≤ workersLeft workload next :=
      fun _ _ _ kept smooth taken => ⟨soundStep _ _ _ kept.1 smooth taken,
        ((step_spec taken).workersLess kept.1.serving short).1.trans kept.2⟩
    have returned := (soundNext.toIdle fits someZone mark ioSize).keep noMore
      ⟨soundNext, Nat.le_refl _⟩
    exact .cons free taken (returned.trans fun last given =>
      .here ⟨⟨given.1.1, given.2⟩, given.1.2.trans_lt less⟩)
  refine ((sound.toIdle fits someZone mark ioSize).keep soundStep sound).trans
    fun middle given => ?_
  exact CanReach.of_measure (workersLeft workload) lowered given

theorem threshMinus_pos {config : CacheConfig} {freeZones : Nat}
    (marks : config.evictHighThreshZones < config.evictLowThreshZones)
    (low : freeZones ≤ config.evictHighThreshZones) :
    0 < threshMinus config.evictLowThreshZones freeZones := by
  unfold threshMinus u32
  split <;> omega

/-- Once `*done` is set, `evict_task` can be brought to its end. -/
theorem Sound.evictorsEnd (fits : config.maxZoneChunks < 2 ^ 32) (someZone : 1 ≤ config.nrZones)
    (marks : config.evictHighThreshZones < config.evictLowThreshZones) (short : workload.length < 2 ^ 64)
    (low : ∀ id ∈ workload, id < 2 ^ 31) (sound : Sound config workload replay)
    (idle : AllIdle replay) (done : replay.done = true) :
    CanReach (Replay.step (promotionalCode config) config ioSize) Smooth
      (fun last : Replay Thread ZnPolicyPromotional EvictPc =>
        last.done = true ∧ ∀ thread, (last.tasks thread).toEnd = 0) replay := by
  have lowered : ∀ state : Replay Thread ZnPolicyPromotional EvictPc,
      (Sound config workload state ∧ state.done = true) ∧ AllIdle state →
      ¬ (state.done = true ∧ ∀ thread, (state.tasks thread).toEnd = 0) →
      CanReach (Replay.step (promotionalCode config) config ioSize) Smooth
        (fun next => ((Sound config workload next ∧ next.done = true) ∧ AllIdle next) ∧
          evictorsLeft next < evictorsLeft state) state := by
    intro state settled unfinished
    obtain ⟨⟨sound, done⟩, idle⟩ := settled
    obtain ⟨thread, busy⟩ : ∃ thread, (state.tasks thread).toEnd ≠ 0 := by
      by_contra none
      exact unfinished ⟨done, fun thread => not_not.mp fun busy => none ⟨thread, busy⟩⟩
    obtain ⟨action, next, kind, taken⟩ : ∃ action next,
        (action = .checkDone ∨ action = .checkZones) ∧
        state.step (promotionalCode config) config ioSize (thread, action) = some next := by
      cases here : state.tasks thread with
      | take | serve | count | finished | gaveUp | ended =>
          exact absurd (by rw [here]; rfl) busy
      | checkDone =>
          refine ⟨.checkDone, state.goTo thread .ended, .inl rfl, ?_⟩
          simp [Replay.step, here, idle thread, done]
      | checkZones =>
          refine ⟨.checkZones, ?_⟩
          simp only [Replay.step, here, RatioLog.step, System.step, idle thread, Option.map_some]
          split
          next => exact ⟨_, .inr trivial, rfl⟩
          next few =>
              rw [if_pos (threshMinus_pos marks (Nat.le_of_not_lt few))]
              exact ⟨_, .inr trivial, rfl⟩
    have free : Smooth state (thread, action) := by
      intro environment same
      rcases kind with rfl | rfl <;> cases same
    obtain ⟨doneNext, _, less⟩ := (step_spec taken).evictorsLess done
    have soundNext := sound.step fits short low free.faultless.succeeds taken
    have noMore : ∀ (middle : Replay Thread ZnPolicyPromotional EvictPc) action last,
        (Sound config workload middle ∧ middle.done = true) ∧
          evictorsLeft middle ≤ evictorsLeft next →
        Smooth middle action →
        middle.step (promotionalCode config) config ioSize action = some last →
        (Sound config workload last ∧ last.done = true) ∧
          evictorsLeft last ≤ evictorsLeft next := by
      intro middle action last kept smooth taken
      obtain ⟨stays, fewer, _⟩ := (step_spec taken).evictorsLess kept.1.2
      exact ⟨⟨kept.1.1.step fits short low smooth.faultless.succeeds taken, stays⟩,
        fewer.trans kept.2⟩
    have returned := (soundNext.toIdle fits someZone (by omega) ioSize).keep noMore
      ⟨⟨soundNext, doneNext⟩, Nat.le_refl _⟩
    exact .cons free taken (returned.trans fun last given =>
      .here ⟨⟨given.1.1, given.2⟩, given.1.2.trans_lt (less kind)⟩)
  exact CanReach.of_measure evictorsLeft lowered ⟨⟨sound, done⟩, idle⟩

/-- What lets a replay come to a good end: no call has failed, and there is a worker. -/
structure Unfailed (config : CacheConfig) (workload : List Nat)
    (replay : Replay Thread ZnPolicyPromotional EvictPc) : Prop where
  sound : Sound config workload replay
  calls : replay.log.Unfailed
  worker : 1 ≤ replay.nrThreads

theorem Unfailed.step (fits : config.maxZoneChunks < 2 ^ 32) (aligned : Aligned config ioSize)
    (short : workload.length < 2 ^ 64) (low : ∀ id ∈ workload, id < 2 ^ 31)
    (unfailed : Unfailed config workload replay) {action : Thread × TaskAction}
    (faultless : Faultless replay action)
    (taken : replay.step (promotionalCode config) config ioSize action = some next) :
    Unfailed config workload next := by
  obtain ⟨thread, action⟩ := action
  refine ⟨unfailed.sound.step fits short low faultless.succeeds taken, ?_, ?_⟩
  · rcases (step_spec taken).log with same | ⟨choice, moved, _, ran⟩
    · rw [same]
      exact unfailed.calls
    · exact unfailed.calls.step aligned unfailed.sound.recoverable.owned.zones
        (fun environment same => faultless environment (ran environment same)) moved
  · rw [(step_spec taken).nrThreads]
    exact unfailed.worker

omit [DecidableEq Thread] in
theorem Unfailed.notGaveUp (unfailed : Unfailed config workload replay) (thread : Thread) :
    replay.tasks thread ≠ .gaveUp := by
  intro here
  have nulls := unfailed.sound.serving.nulls
  have none : replay.log.returns.count .null = 0 :=
    List.count_eq_zero_of_not_mem fun member => unfailed.calls.returns _ member rfl
  rw [none] at nulls
  have zero := (Finset.sum_eq_zero_iff.mp nulls.symm) thread (Finset.mem_univ thread)
  rw [here] at zero
  cases zero

/-- All threads have come to their ends and each query of the workload was answered, none
with NULL. -/
structure Ended (workload : List Nat) (replay : Replay Thread Policy Local) : Prop where
  done : replay.done = true
  tasks : ∀ thread, replay.tasks thread = .finished ∨ replay.tasks thread = .ended
  places : (replay.answers.map Answer.wi : Multiset Nat) = Multiset.range workload.length
  answered : ∀ answer ∈ replay.answers,
    workload[answer.wi]? = some answer.id ∧ answer.ret ≠ .null

omit [DecidableEq Thread] in
theorem Unfailed.ended (unfailed : Unfailed config workload replay) (done : replay.done = true)
    (evictors : ∀ thread, (replay.tasks thread).toEnd = 0) : Ended workload replay := by
  have tasks : ∀ thread, replay.tasks thread = .finished ∨ replay.tasks thread = .ended := by
    intro thread
    have counted := @Tallied.finished _ _ _ _ _ unfailed.sound.tallied done thread
    have noEvictor := evictors thread
    cases here : replay.tasks thread with
    | take | serve | count | gaveUp =>
        rw [here] at counted
        exact absurd (counted rfl) TaskPc.noConfusion
    | checkDone | checkZones => simp [here, TaskPc.toEnd] at noEvictor
    | finished => exact .inl rfl
    | ended => exact .inr rfl
  obtain ⟨thread, finished⟩ : ∃ thread, replay.tasks thread = .finished := by
    by_contra none
    have zero : tally TaskPc.works replay.tasks = 0 := by
      apply tally_const_zero
      intro thread
      rw [(tasks thread).resolve_left fun here => none ⟨thread, here⟩]
      rfl
    have workers := unfailed.sound.tallied.workers
    have worker := unfailed.worker
    omega
  have served := unfailed.sound.serving.served
  have gone : replay.WorkersOver := by
    intro other
    rcases tasks other with here | here <;> rw [here] <;> rfl
  refine ⟨done, tasks, (served.whole gone ⟨thread, .inr finished⟩).2, fun answer member =>
    ⟨served.answered answer member, unfailed.calls.returns _ ?_⟩⟩
  rw [← unfailed.sound.serving.returns]
  exact List.mem_map_of_mem member

end Finish

/-- A worker misses while `evict_task` looks at the zones, and a second worker sleeps beside
it. -/
def besideEvictor (first second evictor : Thread) : List (Thread × TaskAction) :=
  [(first, .takeQuery), (second, .takeQuery), (evictor, .checkDone), (first, .run .smooth),
    (second, .run .smooth)]

end Replay

end ZNCache
