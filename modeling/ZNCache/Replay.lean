import ZNCache.HitRatio
import ZNCache.Lib.Tally

/-!
# Replaying a workload

The worker loop of `task_function` and the loop of `evict_task` over one cache.  A worker
takes the next query under the reader's lock and leaves its loop at the end of the
workload, where it is counted, or at once when `zn_cache_get` returns NULL, and then it is
not.  The worker that completes the count sets `*done`, at which `evict_task` ends.
-/

set_option autoImplicit false

namespace ZNCache

open Tally Transition

variable {Thread Policy Local : Type}

/-! ## The reader -/

/-- `PRINT_THRESH_PERCENT`. -/
def printThreshPercent : Nat := 1

structure ZnReader where
  workloadIndex : Nat
  workloadBuffer : List Nat
  workloadMax : Nat
  threshPerc : Nat

structure Query where
  wi : Nat
  percent : Nat
  print : Bool
  deriving DecidableEq, Repr

namespace ZnReader

def init (workload : List Nat) : ZnReader where
  workloadIndex := 0
  workloadBuffer := workload
  workloadMax := workload.length
  threshPerc := 0

/-- The locked section of the worker loop; `none` when every query was taken. -/
def takeQuery (reader : ZnReader) : Option (Query × ZnReader) :=
  if reader.workloadMax ≤ reader.workloadIndex then none
  else
    let wi := reader.workloadIndex
    let percent := wi * 100 % 2 ^ 64 / reader.workloadMax
    let print := decide (reader.threshPerc ≤ percent)
    some (⟨wi, percent, print⟩, { reader with
      workloadIndex := (wi + 1) % 2 ^ 64
      threshPerc :=
        if print then (reader.threshPerc + printThreshPercent) % 2 ^ 64
        else reader.threshPerc })

/-- The reader and the percentages reported so far: up to 100 lines, no percentage twice. -/
structure Reports (reader : ZnReader) (lines : List Nat) : Prop where
  within : reader.workloadIndex ≤ reader.workloadMax
  thresh : reader.threshPerc = lines.length
  count : lines.length = if reader.workloadIndex = 0 then 0
    else min reader.workloadIndex ((reader.workloadIndex - 1) * 100 / reader.workloadMax + 1)
  below : ∀ line ∈ lines, line < lines.length ∨
    reader.workloadMax < 100 ∧ line < reader.workloadIndex * 100 / reader.workloadMax
  once : lines.Nodup

theorem Reports.init (workload : List Nat) : (init workload).Reports [] where
  within := Nat.zero_le _
  thresh := rfl
  count := rfl
  below := by simp
  once := List.nodup_nil

section Take

variable {reader after : ZnReader} {query : Query} {lines : List Nat}

theorem takeQuery_spec (fits : reader.workloadMax * 100 < 2 ^ 64)
    (taken : reader.takeQuery = some (query, after)) (low : reader.threshPerc ≤ 100) :
    reader.workloadIndex < reader.workloadMax ∧ query.wi = reader.workloadIndex ∧
      query.percent = reader.workloadIndex * 100 / reader.workloadMax ∧
      query.print = decide (reader.threshPerc ≤ query.percent) ∧
      after = { reader with
        workloadIndex := reader.workloadIndex + 1
        threshPerc := reader.threshPerc + if query.print then 1 else 0 } := by
  unfold takeQuery at taken
  split at taken
  next => cases taken
  next more =>
      have below : reader.workloadIndex < reader.workloadMax := Nat.lt_of_not_le more
      have index : (reader.workloadIndex + 1) % 2 ^ 64 = reader.workloadIndex + 1 :=
        Nat.mod_eq_of_lt (by omega)
      have scaled : reader.workloadIndex * 100 % 2 ^ 64 = reader.workloadIndex * 100 :=
        Nat.mod_eq_of_lt (by omega)
      have step : (reader.threshPerc + printThreshPercent) % 2 ^ 64 = reader.threshPerc + 1 :=
        Nat.mod_eq_of_lt (by simp only [printThreshPercent]; omega)
      obtain ⟨rfl, rfl⟩ := Prod.mk.inj (Option.some.inj taken)
      refine ⟨below, rfl, ?_, rfl, ?_⟩
      · simp only [scaled]
      · simp only [scaled, index, step]
        congr 1
        split
        next => rfl
        next => rfl

theorem takeQuery_index (taken : reader.takeQuery = some (query, after)) :
    reader.workloadIndex < reader.workloadMax ∧ query.wi = reader.workloadIndex ∧
      after.workloadIndex = (reader.workloadIndex + 1) % 2 ^ 64 ∧
      after.workloadBuffer = reader.workloadBuffer ∧ after.workloadMax = reader.workloadMax := by
  unfold takeQuery at taken
  split at taken
  next => cases taken
  next more =>
      obtain ⟨rfl, rfl⟩ := Prod.mk.inj (Option.some.inj taken)
      exact ⟨Nat.lt_of_not_le more, rfl, rfl, rfl, rfl⟩

theorem takeQuery_none (none : reader.takeQuery = none) :
    reader.workloadMax ≤ reader.workloadIndex := by
  unfold takeQuery at none
  split at none
  next full => exact full
  next => cases none

/-- The percentage of a position grows by one at most from 100 queries on, and by one at
least below. -/
theorem percent_succ {index length : Nat} (some : 0 < length) :
    (100 ≤ length → (index + 1) * 100 / length ≤ index * 100 / length + 1) ∧
      (length < 100 → index * 100 / length + 1 ≤ (index + 1) * 100 / length) := by
  have next : index * 100 / length + 1 = (index * 100 + length) / length :=
    (Nat.add_div_right _ some).symm
  rw [next, Nat.succ_mul]
  constructor
  · exact fun long => Nat.div_le_div_right (by omega)
  · exact fun short => Nat.div_le_div_right (by omega)

theorem percent_ge {index length : Nat} (some : 0 < length) (short : length ≤ 100) :
    index ≤ index * 100 / length :=
  (Nat.le_div_iff_mul_le some).mpr (Nat.mul_le_mul_left _ short)

theorem percent_le {index length : Nat} (long : 100 ≤ length) : index * 100 / length ≤ index :=
  Nat.div_le_of_le_mul (by
    rw [Nat.mul_comm length]
    exact Nat.mul_le_mul_left _ long)

/-- A line is added exactly when the count falls behind. -/
theorem lines_next {index length lines : Nat} (some : 0 < length)
    (count : lines = if index = 0 then 0 else min index ((index - 1) * 100 / length + 1)) :
    (if lines ≤ index * 100 / length then lines + 1 else lines) =
      min (index + 1) (index * 100 / length + 1) := by
  cases index with
  | zero => simp [count]
  | succ before =>
      rw [if_neg (Nat.succ_ne_zero before), Nat.add_sub_cancel] at count
      obtain ⟨long, short⟩ := @percent_succ before _ some
      have few := @percent_le (before + 1) length
      have many := @percent_ge (before + 1) _ some
      have manyBefore := @percent_ge before _ some
      have inOrder : before * 100 / length ≤ (before + 1) * 100 / length :=
        Nat.div_le_div_right (Nat.mul_le_mul_right _ (Nat.le_succ _))
      generalize (before + 1) * 100 / length = now at *
      generalize before * 100 / length = last at *
      by_cases behind : lines ≤ now
      · rw [if_pos behind]
        omega
      · rw [if_neg behind]
        omega

theorem Reports.low (reports : reader.Reports lines) :
    lines.length ≤ min reader.workloadIndex 100 := by
  obtain ⟨within, _, count, _, _⟩ := reports
  rw [count]
  split
  next => omega
  next started =>
      have last : (reader.workloadIndex - 1) * 100 / reader.workloadMax < 100 :=
        Nat.div_lt_of_lt_mul (by omega)
      omega

theorem Reports.takeQuery (reports : reader.Reports lines)
    (fits : reader.workloadMax * 100 < 2 ^ 64)
    (taken : reader.takeQuery = some (query, after)) :
    after.Reports (if query.print then lines ++ [query.percent] else lines) := by
  have room : 0 < reader.workloadMax := by
    by_contra none
    unfold ZnReader.takeQuery at taken
    rw [if_pos (by omega)] at taken
    cases taken
  have low := (Nat.le_min.mp reports.low).2
  obtain ⟨more, _, percent, print, rfl⟩ := takeQuery_spec fits taken (reports.thresh ▸ low)
  obtain ⟨within, thresh, count, below, once⟩ := reports
  have next := lines_next room count
  have grows := (@percent_succ reader.workloadIndex _ room).2
  have few := @percent_le reader.workloadIndex reader.workloadMax
  have earlier : ∀ line ∈ lines, line < lines.length ∨ reader.workloadMax < 100 ∧
      line < (reader.workloadIndex + 1) * 100 / reader.workloadMax := by
    intro line member
    refine (below line member).imp_right fun given => ⟨given.1, ?_⟩
    exact given.2.trans (Nat.lt_of_succ_le (grows given.1))
  rw [thresh] at print
  rw [percent] at print ⊢
  by_cases prints : lines.length ≤ reader.workloadIndex * 100 / reader.workloadMax
  · rw [decide_eq_true prints] at print
    simp only [print, if_true]
    rw [if_pos prints] at next
    refine ⟨more, by simp [thresh], by simpa using next, ?_, ?_⟩
    · intro line member
      rw [List.length_append, List.length_singleton]
      rcases List.mem_append.mp member with old | new
      · exact (earlier line old).imp_left Nat.lt_succ_of_lt
      · obtain rfl := List.mem_singleton.mp new
        by_cases short : reader.workloadMax < 100
        · exact .inr ⟨short, Nat.lt_of_succ_le (grows short)⟩
        · exact .inl (by omega)
    · refine List.nodup_append.mpr ⟨once, List.nodup_singleton _, ?_⟩
      intro line old other new same
      obtain rfl := List.mem_singleton.mp new
      rcases below line old with under | ⟨_, under⟩
      · omega
      · omega
  · rw [decide_eq_false prints] at print
    simp only [print, Bool.false_eq_true, if_false, Nat.add_zero]
    rw [if_neg prints] at next
    exact ⟨more, thresh, by simpa using next, earlier, once⟩

theorem Reports.whole (reports : reader.Reports lines)
    (all : reader.workloadIndex = reader.workloadMax) : lines.length =
      min reader.workloadMax 100 := by
  have count := reports.count
  rw [all] at count
  rcases Nat.eq_zero_or_pos reader.workloadMax with none | some
  · simp [count, none]
  · rw [if_neg (Nat.ne_of_gt some)] at count
    have ahead := @percent_ge (reader.workloadMax - 1) _ some
    have below : (reader.workloadMax - 1) * 100 / reader.workloadMax < 100 :=
      Nat.div_lt_of_lt_mul (by omega)
    by_cases long : 100 ≤ reader.workloadMax
    · have last : 99 ≤ (reader.workloadMax - 1) * 100 / reader.workloadMax :=
        (Nat.le_div_iff_mul_le some).mpr (by omega)
      omega
    · omega

end Take

end ZnReader

/-! ## The loops -/

/-- Where a thread stands in `task_function`, or in `evict_task` from `checkDone` on. -/
inductive TaskPc
  | take
  | serve (wi : Nat)
  | count
  | finished
  | gaveUp
  | checkDone
  | checkZones
  | ended
  deriving DecidableEq, Repr

namespace TaskPc

def returned : TaskPc → List GetReturn → TaskPc
  | serve _, [.null] => gaveUp
  | serve _, _ :: _ => take
  | task, _ => task

def gaveUps : TaskPc → Nat
  | gaveUp => 1
  | take | serve _ | count | finished | checkDone | checkZones | ended => 0

def active : TaskPc → Nat
  | take | serve _ => 1
  | count | finished | gaveUp | checkDone | checkZones | ended => 0

def works : TaskPc → Nat
  | take | serve _ | count | finished | gaveUp => 1
  | checkDone | checkZones | ended => 0

def completed : TaskPc → Nat
  | finished => 1
  | take | serve _ | count | gaveUp | checkDone | checkZones | ended => 0

def serving : TaskPc → Multiset Nat
  | serve wi => {wi}
  | take | count | finished | gaveUp | checkDone | checkZones | ended => 0

def asks (workload : List Nat) : TaskPc → Option Nat
  | serve wi => workload[wi]?
  | take | count | finished | gaveUp | checkDone | checkZones | ended => none

end TaskPc

inductive TaskAction
  | takeQuery
  | countDone
  | checkDone
  | checkZones
  | wakeUp
  | run (environment : Environment)

def GetPc.id : GetPc → Nat
  | find id | asleep id | read id _ | touch id _ _ | release id _ _ | countHit id _ => id
  | acquire id | write id _ | countMiss id _ | giveBack id _ | record id _ | insert id _ => id
  | undoZone id _ | undoMap id => id

def ThreadPc.callId : ThreadPc Local → Option Nat
  | idle => none
  | get pc => some pc.id
  | evict caller _ => caller

/-- What a call returned that was made for the query at `wi`. -/
structure Answer where
  wi : Nat
  id : Nat
  ret : GetReturn
  deriving DecidableEq, Repr

/-- The cache with its reader, the threads of the program and what they share, and a record
of the identifiers requested, of the answers to them and of the percentages reported. -/
structure Replay (Thread Policy Local : Type) where
  log : RatioLog Thread Policy Local
  reader : ZnReader
  tasks : Thread → TaskPc
  nrThreads : Nat
  nrThreadsCompleted : Nat
  done : Bool
  requested : List Nat
  answers : List Answer
  /-- A line is listed when it is decided on; its `printf` comes after the unlock. -/
  lines : List Nat

namespace Replay

def start [Fintype Thread] (system : System Thread Policy Local) (workload : List Nat)
    (evicts : Thread → Bool) : Replay Thread Policy Local where
  log := RatioLog.start system
  reader := ZnReader.init workload
  tasks := fun thread => if evicts thread then .checkDone else .take
  nrThreads := tally (fun evicts => if evicts then 0 else 1) evicts
  nrThreadsCompleted := 0
  done := false
  requested := []
  answers := []
  lines := []

variable [DecidableEq Thread]

def nowAnswers (replay : Replay Thread Policy Local) (action : Thread × Choice) : List Answer :=
  match replay.tasks action.1, (replay.log.system.threads action.1).callId with
  | .serve wi, some id => (replay.log.nowReturns action).map fun ret => ⟨wi, id, ret⟩
  | _, _ => []

/-- The thread's step in its call leaves this log, and maybe the call is over. -/
def onward (replay : Replay Thread Policy Local) (action : Thread × Choice)
    (log : RatioLog Thread Policy Local) : Replay Thread Policy Local :=
  { replay with
    log := log
    tasks := Function.update replay.tasks action.1
      ((replay.tasks action.1).returned (replay.log.nowReturns action))
    answers := replay.answers ++ replay.nowAnswers action }

def goTo (replay : Replay Thread Policy Local) (thread : Thread) (task : TaskPc) :
    Replay Thread Policy Local :=
  { replay with tasks := Function.update replay.tasks thread task }

def step (code : EvictionCode Thread Policy Local) (config : CacheConfig) (ioSize : Nat)
    (replay : Replay Thread Policy Local) (action : Thread × TaskAction) :
    Option (Replay Thread Policy Local) :=
  match action.2, replay.tasks action.1 with
  | .takeQuery, .take =>
      match replay.reader.takeQuery with
      | none => some (replay.goTo action.1 .count)
      | some (query, reader) =>
          -- `workload_buffer[wi]`
          match reader.workloadBuffer[query.wi]? with
          | none => none
          | some id =>
              (replay.log.step code config ioSize (action.1, .get id)).map fun log =>
                { replay.goTo action.1 (.serve query.wi) with
                  log := log
                  reader := reader
                  requested := replay.requested ++ [id]
                  lines := if query.print then replay.lines ++ [query.percent]
                    else replay.lines }
  | .countDone, .count =>
      some { replay.goTo action.1 .finished with
        nrThreadsCompleted := replay.nrThreadsCompleted + 1
        done := replay.done || decide (replay.nrThreadsCompleted + 1 = replay.nrThreads) }
  | .checkDone, .checkDone =>
      match replay.log.system.threads action.1 with
      | .idle => some (replay.goTo action.1 (if replay.done then .ended else .checkZones))
      | _ => none -- still in `zn_fg_evict`
  | .checkZones, .checkZones =>
      let freeZones := zsmGetNumFreeZones replay.log.system.cache.zoneState
      -- above the high mark `evict_task` sleeps and starts over
      if config.evictHighThreshZones < freeZones then some (replay.goTo action.1 .checkDone)
      else if 0 < threshMinus config.evictLowThreshZones freeZones then
        (replay.log.step code config ioSize (action.1, .evict)).map fun log =>
          { replay.goTo action.1 .checkDone with log := log }
      else none -- the assertion
  | .wakeUp, _ =>
      (replay.log.step code config ioSize (action.1, .wakeUp)).map
        (replay.onward (action.1, .wakeUp))
  | .run environment, _ =>
      (replay.log.step code config ioSize (action.1, .run environment)).map
        (replay.onward (action.1, .run environment))
  | _, _ => none

def Initial [Fintype Thread] (config : CacheConfig) (policy : Policy) (workload : List Nat)
    (replay : Replay Thread Policy Local) : Prop :=
  ∃ system evicts, System.init config policy = some system ∧
    replay = start system workload evicts

def WorkersOver (replay : Replay Thread Policy Local) : Prop :=
  ∀ thread, (replay.tasks thread).active = 0

inductive Step (code : EvictionCode Thread Policy Local) (config : CacheConfig) (ioSize : Nat)
    (replay : Replay Thread Policy Local) (thread : Thread) :
    TaskAction → Replay Thread Policy Local → Prop
  | leave (here : replay.tasks thread = .take)
      (none : replay.reader.takeQuery = none) :
      Step code config ioSize replay thread .takeQuery (replay.goTo thread .count)
  | take (here : replay.tasks thread = .take) (query : Query) (reader : ZnReader) (id : Nat)
      (log : RatioLog Thread Policy Local)
      (taken : replay.reader.takeQuery = some (query, reader))
      (found : reader.workloadBuffer[query.wi]? = some id)
      (called : replay.log.step code config ioSize (thread, .get id) = some log) :
      Step code config ioSize replay thread .takeQuery
        { replay.goTo thread (.serve query.wi) with
          log := log
          reader := reader
          requested := replay.requested ++ [id]
          lines := if query.print then replay.lines ++ [query.percent] else replay.lines }
  | count (here : replay.tasks thread = .count) :
      Step code config ioSize replay thread .countDone
        { replay.goTo thread .finished with
          nrThreadsCompleted := replay.nrThreadsCompleted + 1
          done := replay.done || decide (replay.nrThreadsCompleted + 1 = replay.nrThreads) }
  | finish (here : replay.tasks thread = .checkDone)
      (idle : replay.log.system.threads thread = .idle) (done : replay.done = true) :
      Step code config ioSize replay thread .checkDone (replay.goTo thread .ended)
  | goOn (here : replay.tasks thread = .checkDone)
      (idle : replay.log.system.threads thread = .idle) (notDone : replay.done = false) :
      Step code config ioSize replay thread .checkDone (replay.goTo thread .checkZones)
  | sleep (here : replay.tasks thread = .checkZones) :
      Step code config ioSize replay thread .checkZones (replay.goTo thread .checkDone)
  | evict (here : replay.tasks thread = .checkZones) (log : RatioLog Thread Policy Local)
      (called : replay.log.step code config ioSize (thread, .evict) = some log) :
      Step code config ioSize replay thread .checkZones
        { replay.goTo thread .checkDone with log := log }
  | wakeUp (log : RatioLog Thread Policy Local)
      (moved : replay.log.step code config ioSize (thread, .wakeUp) = some log) :
      Step code config ioSize replay thread .wakeUp (replay.onward (thread, .wakeUp) log)
  | run (environment : Environment) (log : RatioLog Thread Policy Local)
      (moved : replay.log.step code config ioSize (thread, .run environment) = some log) :
      Step code config ioSize replay thread (.run environment)
        (replay.onward (thread, .run environment) log)

theorem step_spec {code : EvictionCode Thread Policy Local} {config : CacheConfig}
    {ioSize : Nat} {replay next : Replay Thread Policy Local} {thread : Thread}
    {action : TaskAction} (taken : replay.step code config ioSize (thread, action) = some next) :
    Step code config ioSize replay thread action next := by
  cases action with
  | takeQuery =>
      cases here : replay.tasks thread with
      | serve | count | finished | gaveUp | checkDone | checkZones | ended =>
          simp [step, here] at taken
      | take =>
          simp only [step, here] at taken
          split at taken
          next none =>
              cases Option.some.inj taken
              exact .leave here none
          next query reader some =>
              split at taken
              next => cases taken
              next id found =>
                  obtain ⟨log, called, rfl⟩ := Option.map_eq_some_iff.mp taken
                  exact .take here query reader id log some found called
  | countDone =>
      cases here : replay.tasks thread with
      | take | serve | finished | gaveUp | checkDone | checkZones | ended =>
          simp [step, here] at taken
      | count =>
          simp only [step, here] at taken
          cases Option.some.inj taken
          exact .count here
  | checkDone =>
      cases here : replay.tasks thread with
      | take | serve | count | finished | gaveUp | checkZones | ended =>
          simp [step, here] at taken
      | checkDone =>
          simp only [step, here] at taken
          split at taken
          next idle =>
              cases Option.some.inj taken
              cases done : replay.done with
              | true => exact .finish here idle done
              | false => exact .goOn here idle done
          next => cases taken
  | checkZones =>
      cases here : replay.tasks thread with
      | take | serve | count | finished | gaveUp | checkDone | ended =>
          simp [step, here] at taken
      | checkZones =>
          simp only [step, here] at taken
          split at taken
          next =>
              cases Option.some.inj taken
              exact .sleep here
          next =>
              split at taken
              next =>
                  obtain ⟨log, called, rfl⟩ := Option.map_eq_some_iff.mp taken
                  exact .evict here log called
              next => cases taken
  | wakeUp =>
      obtain ⟨log, moved, rfl⟩ := Option.map_eq_some_iff.mp taken
      exact .wakeUp log moved
  | run environment =>
      obtain ⟨log, moved, rfl⟩ := Option.map_eq_some_iff.mp taken
      exact .run environment log moved

end Replay

/-! ## A call and its return -/

section Returns

variable [DecidableEq Thread] {code : EvictionCode Thread Policy Local}
  {log : RatioLog Thread Policy Local} {thread : Thread} {choice : Choice}
  {cache : ZnCache Thread Policy} {pc : ThreadPc Local}

structure Returns (before after : ZnCache Thread Policy) (here there : ThreadPc Local)
    (returned : List GetReturn) : Prop where
  calls : returned = [] ∧ there.callId = here.callId ∨
    ∃ id ret, here.callId = some id ∧ there.callId = none ∧ returned = [ret]
  atLeast : before.hits + returned.count .cached ≤ after.hits
  atMost : after.hits ≤ before.hits + returned.count .cached + returned.count .null

omit [DecidableEq Thread] in
theorem Returns.none {before after : ZnCache Thread Policy} {here there : ThreadPc Local}
    {returned : List GetReturn} (nothing : returned = [])
    (same : there.callId = here.callId) (hits : after.hits = before.hits) :
    Returns before after here there returned := by
  subst nothing
  exact ⟨.inl ⟨rfl, same⟩, by simp [hits], by simp [hits]⟩

theorem callId_afterFind (id : Nat) (found : FindResult) :
    (afterFind id found : ThreadPc Local).callId = some id := by
  cases found <;> rfl

theorem callId_afterGetActiveZone (id : Nat) (start : Local) (ret : GetActiveZone) :
    (afterGetActiveZone id start ret).callId = some id := by
  cases ret <;> rfl

theorem callId_afterEvict (caller : Option Nat) :
    (afterEvict caller : ThreadPc Local).callId = caller := by
  cases caller <;> rfl

theorem inCall_eq_callId (pc : ThreadPc Local) : pc.inCall = pc.callId.isSome := by
  cases pc <;> rfl

theorem returns_get {environment : Environment} {here : GetPc}
    (at' : log.system.threads thread = .get here)
    (ran : GetStep code thread log.system.cache environment here cache pc) :
    Returns log.system.cache cache (.get here) pc
      (log.nowReturns (thread, .run environment)) := by
  cases ran with
  | countHit id data =>
      cases read : log.buffered thread with
      | true =>
          exact ⟨.inr ⟨id, .cached, rfl, rfl, by simp [RatioLog.nowReturns, at', read]⟩,
            by simp [RatioLog.nowReturns, at', read], by simp [RatioLog.nowReturns, at', read]⟩
      | false =>
          exact ⟨.inr ⟨id, .null, rfl, rfl, by simp [RatioLog.nowReturns, at', read]⟩,
            by simp [RatioLog.nowReturns, at', read], by simp [RatioLog.nowReturns, at', read]⟩
  | insert id =>
      exact ⟨.inr ⟨id, .generated, rfl, rfl, by simp [RatioLog.nowReturns, at']⟩,
        by simp [RatioLog.nowReturns, at'], by simp [RatioLog.nowReturns, at']⟩
  | undoMap id =>
      exact ⟨.inr ⟨id, .null, rfl, rfl, by simp [RatioLog.nowReturns, at']⟩,
        by simp [RatioLog.nowReturns, at'], by simp [RatioLog.nowReturns, at']⟩
  | find id =>
      exact .none (by simp [RatioLog.nowReturns, at']) (callId_afterFind _ _) rfl
  | acquire id =>
      exact .none (by simp [RatioLog.nowReturns, at']) (callId_afterGetActiveZone _ _ _) rfl
  | woken | read | touch | release | write | writeFailed =>
      exact .none (by simp [RatioLog.nowReturns, at']) rfl rfl
  | countMiss | giveBack | record | undoZone =>
      exact .none (by simp [RatioLog.nowReturns, at']) rfl rfl

theorem ThreadStep.returns (keeps : RatioLog.KeepsRatio code)
    (taken : ThreadStep code thread log.system.cache (log.system.threads thread) choice cache pc)
    (notGet : ∀ id, choice ≠ .get id) :
    Returns log.system.cache cache (log.system.threads thread) pc
      (log.nowReturns (thread, choice)) := by
  generalize at' : log.system.threads thread = here at taken
  cases taken with
  | call id small => exact absurd rfl (notGet id)
  | get ran => exact returns_get at' ran
  | callEvict | wakeUp => exact .none (by simp [RatioLog.nowReturns, at']) rfl rfl
  | evict caller next ran =>
      exact .none (by simp [RatioLog.nowReturns, at']) rfl (keeps ran).1
  | evicted caller ran =>
      exact .none (by simp [RatioLog.nowReturns, at']) (callId_afterEvict caller) (keeps ran).1

end Returns

namespace Replay

section Serving

variable [Fintype Thread] {workload : List Nat} {replay next : Replay Thread Policy Local}

structure Serving (workload : List Nat) (replay : Replay Thread Policy Local) : Prop where
  buffer : replay.reader.workloadBuffer = workload
  max : replay.reader.workloadMax = workload.length
  within : replay.reader.workloadIndex ≤ workload.length
  requested : replay.requested = workload.take replay.reader.workloadIndex
  asks : ∀ thread, (replay.log.system.threads thread).callId =
    (replay.tasks thread).asks workload
  left : ∀ thread, replay.tasks thread = .count ∨ replay.tasks thread = .finished →
    replay.reader.workloadIndex = workload.length
  places : (replay.answers.map Answer.wi : Multiset Nat) +
    tally TaskPc.serving replay.tasks = Multiset.range replay.reader.workloadIndex
  answered : ∀ answer ∈ replay.answers, workload[answer.wi]? = some answer.id
  returns : replay.answers.map Answer.ret = replay.log.returns
  nulls : replay.log.returns.count .null = tally TaskPc.gaveUps replay.tasks
  atLeast : replay.log.returns.count .cached ≤ replay.log.system.cache.hits
  atMost : replay.log.system.cache.hits ≤
    replay.log.returns.count .cached + replay.log.returns.count .null
  counted : ∃ nulls, replay.log.Counted nulls

theorem Serving.start {config : CacheConfig} {policy : Policy}
    {system : System Thread Policy Local} (begins : System.init config policy = some system)
    (workload : List Nat) (evicts : Thread → Bool) :
    Serving workload (start system workload evicts) := by
  have idle := (System.init_spec begins).2.2.2.2
  have counted := RatioLog.Counted.start begins
  have noHits : system.cache.hits = 0 := by
    have hits := counted.hits
    simp only [RatioLog.start, List.count_nil] at hits
    omega
  have task : ∀ thread, (Replay.start system workload evicts).tasks thread = .take ∨
      (Replay.start system workload evicts).tasks thread = .checkDone := by
    intro thread
    simp only [Replay.start]
    cases evicts thread
    · exact .inl rfl
    · exact .inr rfl
  constructor
  case buffer | max | requested | returns => rfl
  case within => exact Nat.zero_le _
  case answered => exact fun _ member => absurd member List.not_mem_nil
  case counted => exact ⟨0, counted⟩
  case asks =>
    intro thread
    rcases task thread with here | here
    all_goals
      rw [here]
      simp [Replay.start, RatioLog.start, idle, ThreadPc.callId, TaskPc.asks]
  case left =>
    intro thread given
    rcases task thread with here | here <;> simp [here] at given
  case places =>
    rw [tally_const_zero]
    · rfl
    · intro thread
      rcases task thread with here | here <;> rw [here] <;> rfl
  case nulls =>
    rw [tally_const_zero]
    · rfl
    · intro thread
      rcases task thread with here | here <;> rw [here] <;> rfl
  case atLeast => simp [Replay.start, RatioLog.start]
  case atMost => simp [Replay.start, RatioLog.start, noHits]

theorem Serving.taken (serving : Serving workload replay) {thread : Thread} {wi : Nat}
    (here : replay.tasks thread = .serve wi) : wi < replay.reader.workloadIndex := by
  rw [← Multiset.mem_range, ← serving.places]
  refine Multiset.mem_add.mpr (.inr (mem_tally.mpr ⟨thread, ?_⟩))
  rw [here]
  exact Multiset.mem_singleton_self wi

theorem Serving.inCall (serving : Serving workload replay) {thread : Thread} :
    (replay.log.system.threads thread).inCall = true ↔ ∃ wi, replay.tasks thread = .serve wi := by
  rw [inCall_eq_callId, serving.asks thread]
  cases here : replay.tasks thread with
  | serve wi =>
      have below := (serving.taken here).trans_le serving.within
      simp [TaskPc.asks, below]
  | take | count | finished | gaveUp | checkDone | checkZones | ended => simp [TaskPc.asks]

variable [DecidableEq Thread] {code : EvictionCode Thread Policy Local} {config : CacheConfig}
  {ioSize : Nat} {thread : Thread}

omit [Fintype Thread] in
theorem log_step {log later : RatioLog Thread Policy Local} {choice : Choice}
    (moved : log.step code config ioSize (thread, choice) = some later) :
    ∃ cache pc, later.system = log.system.advance thread cache pc ∧
      later.returns = log.returns ++ log.nowReturns (thread, choice) ∧
      ThreadStep code thread log.system.cache (log.system.threads thread) choice cache pc := by
  obtain ⟨system, stepped, rfl⟩ := Option.map_eq_some_iff.mp moved
  obtain ⟨cache, pc, same, taken⟩ := System.step_spec stepped
  exact ⟨cache, pc, same, rfl, taken⟩

theorem Serving.goTo (serving : Serving workload replay) {task : TaskPc}
    (asks : task.asks workload = (replay.tasks thread).asks workload)
    (same : task.serving = (replay.tasks thread).serving)
    (gaveUps : task.gaveUps = (replay.tasks thread).gaveUps)
    (left : task = .count ∨ task = .finished →
      replay.reader.workloadIndex = workload.length) :
    Serving workload (replay.goTo thread task) := by
  refine { serving with asks := ?_, left := ?_, places := ?_, nulls := ?_ }
  · intro other
    by_cases mine : other = thread
    · subst mine
      simpa [Replay.goTo, asks] using serving.asks other
    · simpa [Replay.goTo, mine] using serving.asks other
  · intro other given
    by_cases mine : other = thread
    · subst mine
      exact left (by simpa [Replay.goTo] using given)
    · exact serving.left other (by simpa [Replay.goTo, mine] using given)
  · simp only [Replay.goTo]
    rw [tally_update_same same]
    exact serving.places
  · simp only [Replay.goTo]
    rw [tally_update_same gaveUps]
    exact serving.nulls

omit [DecidableEq Thread] in
theorem Serving.setCount (serving : Serving workload replay) (completed : Nat) (done : Bool) :
    Serving workload { replay with nrThreadsCompleted := completed, done := done } :=
  { serving with }

/-- The thread goes on in its call; when that returns, its query is answered. -/
theorem Serving.move (serving : Serving workload replay)
    (keeps : RatioLog.KeepsRatio code) {choice : Choice} {log : RatioLog Thread Policy Local}
    (moved : replay.log.step code config ioSize (thread, choice) = some log)
    (notGet : ∀ id, choice ≠ .get id) :
    Serving workload (replay.onward (thread, choice) log) := by
  obtain ⟨nulls, counted⟩ := serving.counted
  have countedNext := counted.step keeps moved
  obtain ⟨cache, pc, sameSystem, returns, taken⟩ := log_step moved
  obtain ⟨calls, atLeast, atMost⟩ := taken.returns keeps notGet
  have low := serving.atLeast
  have high := serving.atMost
  have asked := serving.asks thread
  have hits : log.returns.count .cached ≤ log.system.cache.hits ∧
      log.system.cache.hits ≤ log.returns.count .cached + log.returns.count .null := by
    rw [sameSystem, returns, List.count_append, List.count_append]
    simp only [System.advance]
    omega
  have others : ∀ other, other ≠ thread → log.system.threads other =
      replay.log.system.threads other := by
    intro other apart
    rw [sameSystem]
    exact Function.update_of_ne apart _ _
  have mine : log.system.threads thread = pc := by
    rw [sameSystem]
    exact Function.update_self _ _ _
  rcases calls with ⟨nothing, sameId⟩ | ⟨id, ret, called, gone, returned⟩
  · have stays : (replay.tasks thread).returned [] = replay.tasks thread := by
      cases replay.tasks thread <;> rfl
    have silent : replay.nowAnswers (thread, choice) = [] := by
      unfold nowAnswers
      split
      · simp [nothing]
      · rfl
    rw [nothing, List.append_nil] at returns
    have same : replay.onward (thread, choice) log = { replay with log := log } := by
      simp [onward, nothing, stays, silent]
    rw [same]
    refine { serving with
      asks := fun other => ?_
      returns := serving.returns.trans returns.symm
      nulls := by rw [returns]; exact serving.nulls
      atLeast := hits.1
      atMost := hits.2
      counted := ⟨_, countedNext⟩ }
    by_cases own : other = thread
    · subst own
      dsimp only
      rw [mine, sameId, asked]
    · dsimp only
      rw [others other own, serving.asks other]
  · obtain ⟨wi, here⟩ : ∃ wi, replay.tasks thread = .serve wi := by
      rw [← serving.inCall, inCall_eq_callId, called]
      rfl
    rw [here, called] at asked
    have answer : replay.nowAnswers (thread, choice) = [⟨wi, id, ret⟩] := by
      simp [nowAnswers, here, called, returned]
    have free : ((TaskPc.serve wi).returned [ret]).asks workload = none ∧
        ((TaskPc.serve wi).returned [ret]).serving = 0 ∧
        ((TaskPc.serve wi).returned [ret]).gaveUps = [ret].count .null ∧
        (TaskPc.serve wi).returned [ret] ≠ .count ∧
        (TaskPc.serve wi).returned [ret] ≠ .finished := by
      cases ret <;> simp [TaskPc.returned, TaskPc.asks, TaskPc.serving, TaskPc.gaveUps]
    have places := serving.places
    have nullsBefore := serving.nulls
    rw [tally_split _ _ thread, here] at places nullsBefore
    have tasks : (replay.onward (thread, choice) log).tasks =
        Function.update replay.tasks thread ((TaskPc.serve wi).returned [ret]) := by
      rw [onward, here, returned]
    have answers : (replay.onward (thread, choice) log).answers =
        replay.answers ++ [⟨wi, id, ret⟩] := by
      rw [onward, answer]
    refine ⟨serving.buffer, serving.max, serving.within, serving.requested, fun other => ?_,
      fun other given => ?_, ?_, fun given member => ?_, ?_, ?_, hits.1, hits.2, _, countedNext⟩
    · rw [tasks]
      by_cases own : other = thread
      · subst own
        rw [Function.update_self, free.1]
        exact (congrArg ThreadPc.callId mine).trans gone
      · rw [Function.update_of_ne own]
        exact (congrArg ThreadPc.callId (others other own)).trans (serving.asks other)
    · rw [tasks] at given
      by_cases own : other = thread
      · subst own
        rw [Function.update_self] at given
        exact (given.elim free.2.2.2.1 free.2.2.2.2).elim
      · rw [Function.update_of_ne own] at given
        exact serving.left other given
    · rw [tasks, answers, tally_update, free.2.1, zero_add, List.map_append, ← Multiset.coe_add,
        add_assoc]
      exact places
    · rw [answers] at member
      rcases List.mem_append.mp member with before | new
      · exact serving.answered given before
      · rw [List.mem_singleton.mp new]
        exact asked.symm
    · rw [answers, List.map_append, serving.returns]
      exact (congrArg (replay.log.returns ++ ·) returned.symm).trans returns.symm
    · have total : (replay.onward (thread, choice) log).log.returns =
          replay.log.returns ++ [ret] := by rw [← returned]; exact returns
      rw [total, tasks, tally_update, free.2.2.1, List.count_append, nullsBefore]
      simp only [TaskPc.gaveUps]
      omega

/-- A worker takes the next query and calls `zn_cache_get` with it. -/
theorem Serving.take (serving : Serving workload replay) (keeps : RatioLog.KeepsRatio code)
    (fits : workload.length < 2 ^ 64) {query : Query} {reader : ZnReader} {id : Nat}
    {log : RatioLog Thread Policy Local} (here : replay.tasks thread = .take)
    (taken : replay.reader.takeQuery = some (query, reader))
    (found : reader.workloadBuffer[query.wi]? = some id)
    (called : replay.log.step code config ioSize (thread, .get id) = some log) (lines : List Nat) :
    Serving workload
      { replay.goTo thread (.serve query.wi) with
        log := log
        reader := reader
        requested := replay.requested ++ [id]
        lines := lines } := by
  obtain ⟨more, position, index, sameBuffer, sameMax⟩ := ZnReader.takeQuery_index taken
  rw [serving.max] at more
  have next : reader.workloadIndex = replay.reader.workloadIndex + 1 :=
    index.trans (Nat.mod_eq_of_lt (by omega))
  rw [position, sameBuffer, serving.buffer] at found
  obtain ⟨nulls, counted⟩ := serving.counted
  have countedNext := counted.step keeps called
  obtain ⟨cache, pc, sameSystem, returns, moved⟩ := log_step called
  have places := serving.places
  have nullsBefore := serving.nulls
  rw [tally_split _ _ thread, here] at places nullsBefore
  generalize idle : replay.log.system.threads thread = before at moved
  cases moved with
  | call _ small =>
      have none : replay.log.nowReturns (thread, .get id) = [] := by
        simp [RatioLog.nowReturns, idle]
      rw [none, List.append_nil] at returns
      refine ⟨sameBuffer.trans serving.buffer, sameMax.trans serving.max, by rw [next]; exact more,
        ?_, fun other => ?_, fun other given => ?_, ?_, serving.answered,
        serving.returns.trans returns.symm, ?_, ?_, ?_, _, countedNext⟩
      · rw [next, serving.requested, List.take_add_one, found]
        rfl
      · dsimp only
        rw [sameSystem]
        by_cases mine : other = thread
        · subst mine
          simp only [System.advance, Replay.goTo, Function.update_self, TaskPc.asks, position,
            found]
          rfl
        · simp only [System.advance, Replay.goTo, Function.update_of_ne mine]
          exact serving.asks other
      · by_cases mine : other = thread
        · subst mine
          simp [Replay.goTo] at given
        · simp only [Replay.goTo, Function.update_of_ne mine] at given
          have full := serving.left other given
          omega
      · dsimp only [Replay.goTo]
        rw [tally_update, next, Multiset.range_succ, ← places, position]
        simp only [TaskPc.serving, ← Multiset.singleton_add, zero_add]
        exact add_left_comm _ _ _
      · dsimp only [Replay.goTo]
        rw [returns, tally_update]
        exact nullsBefore
      · dsimp only
        rw [sameSystem, returns]
        exact serving.atLeast
      · dsimp only
        rw [sameSystem, returns]
        exact serving.atMost

theorem Serving.step (serving : Serving workload replay) (keeps : RatioLog.KeepsRatio code)
    (fits : workload.length < 2 ^ 64) {action : Thread × TaskAction}
    (taken : replay.step code config ioSize action = some next) : Serving workload next := by
  obtain ⟨thread, action⟩ := action
  cases step_spec taken with
  | leave here none =>
      have full := ZnReader.takeQuery_none none
      have within := serving.within
      rw [serving.max] at full
      exact serving.goTo (by rw [here]; rfl) (by rw [here]; rfl) (by rw [here]; rfl)
        fun _ => by omega
  | take here query reader id log queried found called =>
      exact serving.take keeps fits here queried found called _
  | count here =>
      have moved : Serving workload (replay.goTo thread .finished) :=
        serving.goTo (by rw [here]; rfl) (by rw [here]; rfl) (by rw [here]; rfl)
          fun _ => serving.left thread (.inl here)
      exact moved.setCount _ _
  | finish here | goOn here | sleep here =>
      exact serving.goTo (by rw [here]; rfl) (by rw [here]; rfl) (by rw [here]; rfl) (by simp)
  | evict here log called =>
      have moved := serving.move keeps called fun id => Choice.noConfusion
      have stays : (replay.tasks thread).returned (replay.log.nowReturns (thread, .evict)) =
          replay.tasks thread := by
        rw [here]
        rfl
      have silent : replay.nowAnswers (thread, .evict) = [] := by
        simp [nowAnswers, here]
      have same : replay.onward (thread, .evict) log = { replay with log := log } := by
        simp [Replay.onward, stays, silent]
      rw [same] at moved
      have gone : Serving workload ({ replay with log := log }.goTo thread .checkDone) :=
        moved.goTo (by dsimp only; rw [here]; rfl) (by dsimp only; rw [here]; rfl)
          (by dsimp only; rw [here]; rfl) (by simp)
      exact gone
  | wakeUp log moved => exact serving.move keeps moved fun id => Choice.noConfusion
  | run environment log moved => exact serving.move keeps moved fun id => Choice.noConfusion

theorem Serving.of_reach (keeps : RatioLog.KeepsRatio code) (fits : workload.length < 2 ^ 64)
    {allowed : Replay Thread Policy Local → Thread × TaskAction → Prop} {policy : Policy}
    (reached : Reach (Replay.step code config ioSize) allowed
      (Initial config policy workload) replay) : Serving workload replay := by
  refine reached.invariant (fun state begins => ?_) fun _ _ _ serving _ taken =>
    serving.step keeps fits taken
  obtain ⟨system, evicts, begun, rfl⟩ := begins
  exact Serving.start begun workload evicts

/-- What a maintainer reads off a run.  The queries are taken in the workload's order.  Each
query taken has one call of `zn_cache_get` made for it, with the identifier that the
workload has there: the call is in progress, or has answered.  When the workers have left,
one of them at the end of the workload, each query of the workload has one answer; each
worker that gave up has the NULL of one; and when none gave up, the hit ratio counts the
answers. -/
structure Served (workload : List Nat) (replay : Replay Thread Policy Local) : Prop where
  requested : replay.requested = workload.take replay.reader.workloadIndex
  places : (replay.answers.map Answer.wi : Multiset Nat) +
    tally TaskPc.serving replay.tasks = Multiset.range replay.requested.length
  asks : ∀ thread wi, replay.tasks thread = .serve wi → ∃ id, workload[wi]? = some id ∧
    (replay.log.system.threads thread).callId = some id
  answered : ∀ answer ∈ replay.answers, workload[answer.wi]? = some answer.id
  nulls : (replay.answers.map Answer.ret).count .null = tally TaskPc.gaveUps replay.tasks
  whole : replay.WorkersOver →
    (∃ thread, replay.tasks thread = .count ∨ replay.tasks thread = .finished) →
      replay.requested = workload ∧
      (replay.answers.map Answer.wi : Multiset Nat) = Multiset.range workload.length
  counted : replay.WorkersOver → (∀ thread, replay.tasks thread ≠ .gaveUp) →
    replay.log.system.cache.hits = (replay.answers.map Answer.ret).count .cached ∧
      replay.log.system.cache.hits + replay.log.system.cache.misses = replay.answers.length

omit [DecidableEq Thread] in
theorem Serving.served (serving : Serving workload replay) : Served workload replay := by
  have length : replay.requested.length = replay.reader.workloadIndex := by
    rw [serving.requested, List.length_take]
    exact Nat.min_eq_left serving.within
  have places := serving.places
  rw [← length] at places
  have nulls := serving.nulls
  rw [← serving.returns] at nulls
  refine ⟨serving.requested, places, fun thread wi here => ?_, serving.answered, nulls,
    fun gone some => ?_, fun gone noNull => ?_⟩
  · have below := (serving.taken here).trans_le serving.within
    refine ⟨workload[wi], List.getElem?_eq_getElem below, ?_⟩
    rw [serving.asks thread, here, TaskPc.asks, List.getElem?_eq_getElem below]
  · obtain ⟨thread, here⟩ := some
    have full := serving.left thread here
    have noCalls : tally TaskPc.serving replay.tasks = 0 := by
      apply tally_const_zero
      intro other
      have outside := gone other
      cases task : replay.tasks other with
      | take | serve => simp [task, TaskPc.active] at outside
      | count | finished | gaveUp | checkDone | checkZones | ended => rfl
    rw [noCalls, add_zero, length, full] at places
    exact ⟨by rw [serving.requested, full, List.take_length], places⟩
  · have noNulls : replay.log.returns.count .null = 0 := by
      rw [serving.nulls]
      apply tally_const_zero
      intro thread
      cases here : replay.tasks thread with
      | gaveUp => exact absurd here (noNull thread)
      | take | serve | count | finished | checkDone | checkZones | ended => rfl
    have quiet : ∀ thread, (replay.log.system.threads thread).inCall = false := by
      intro thread
      rw [Bool.eq_false_iff]
      intro inside
      obtain ⟨wi, here⟩ := serving.inCall.mp inside
      have outside := gone thread
      simp [here, TaskPc.active] at outside
    obtain ⟨_, counted⟩ := serving.counted
    have noMisses : replay.log.pendingMisses = 0 :=
      tally_const_zero _ _ fun thread => (RatioLog.ThreadPc.idle_weights (quiet thread) true).2
    have misses := counted.misses
    have atLeast := serving.atLeast
    have atMost := serving.atMost
    have parts := RatioLog.countP_buffers replay.log.returns
    have all : replay.log.returns.length = replay.log.returns.countP (· ≠ .null) +
        replay.log.returns.count .null := by
      rw [List.length_eq_countP_add_countP fun ret => decide (ret ≠ .null), List.count]
      refine congrArg (_ + ·) (List.countP_congr fun ret _ => ?_)
      simp
    have answers : replay.answers.length = replay.log.returns.length := by
      rw [← serving.returns, List.length_map]
    rw [serving.returns]
    omega

/-- Under either policy and in every interleaving of workers and evictors, the workload is
served as `Served` says. -/
theorem replay_serves_workload (fits : workload.length < 2 ^ 64) (config : CacheConfig)
    (ioSize : Nat) :
    (∀ replay : Replay Thread ZnPolicyPromotional EvictPc,
        Reach (Replay.step (promotionalCode config) config ioSize) (fun _ _ => True)
          (Initial config (promotionalInit config.maxZoneChunks) workload) replay →
        Served workload replay) ∧
      ∀ replay : Replay Thread (ZnPolicyChunk Thread) ChunkEvictPc,
        Reach (Replay.step (chunkCode config) config ioSize) (fun _ _ => True)
          (Initial config (chunkInit config.nrZones config.maxZoneChunks) workload) replay →
        Served workload replay := by
  constructor
  · intro replay reached
    exact (Serving.of_reach (RatioLog.keepsRatio_promotional config) fits reached).served
  · intro replay reached
    exact (Serving.of_reach (RatioLog.keepsRatio_chunk config) fits reached).served

end Serving

/-- Two workers replay a workload that asks for one identifier twice.  The second sleeps
while the first writes it, and finds it then. -/
def twoWorkers (first second : Thread) : List (Thread × TaskAction) :=
  [(first, .takeQuery), (second, .takeQuery), (first, .run .smooth), (second, .run .smooth)] ++
    List.replicate 6 (first, .run .smooth) ++ List.replicate 6 (second, .run .smooth) ++
    [(first, .takeQuery), (second, .takeQuery)]

theorem replay_serves_workload_twoWorkers :
    ∃ first : PromotionalSystem (Fin 2), promotionalSystem oneChunkConfig = some first ∧
      ∃ replay, runActions (Replay.step (promotionalCode oneChunkConfig) oneChunkConfig 4096)
          (Replay.start first [7, 7] fun _ => false) (twoWorkers 0 1) = some replay ∧
        replay.answers = [⟨0, 7, .generated⟩, ⟨1, 7, .cached⟩] ∧
        replay.log.system.cache.hits + replay.log.system.cache.misses = 2 := by
  obtain ⟨first, replay, begins, ran, left, answers⟩ :
      ∃ (first : PromotionalSystem (Fin 2)) (replay : Replay (Fin 2) ZnPolicyPromotional EvictPc),
        promotionalSystem oneChunkConfig = some first ∧
        runActions (Replay.step (promotionalCode oneChunkConfig) oneChunkConfig 4096)
          (Replay.start first [7, 7] fun _ => false) (twoWorkers 0 1) = some replay ∧
        (∀ thread, replay.tasks thread = .count) ∧
        replay.answers = [⟨0, 7, .generated⟩, ⟨1, 7, .cached⟩] :=
    ⟨_, _, rfl, rfl, by decide, rfl⟩
  have served : Served [7, 7] replay := by
    refine (@replay_serves_workload (Fin 2) _ [7, 7] _ (by decide) oneChunkConfig 4096).1 replay ?_
    exact Reach.of_runActions (twoWorkers 0 1) (.start ⟨first, _, begins, rfl⟩)
      (AllowedAlong.of_forall _ _ fun _ _ _ => trivial) ran
  refine ⟨first, begins, replay, ran, answers, ?_⟩
  rw [(served.counted (fun thread => by rw [left thread]; rfl)
    fun thread => by simp [left thread]).2, answers]
  rfl

/-! ## Progress reports -/

section Reports

variable [Fintype Thread] [DecidableEq Thread] {code : EvictionCode Thread Policy Local}
  {config : CacheConfig} {ioSize : Nat} {workload : List Nat}
  {replay : Replay Thread Policy Local}

theorem reports_of_reach (fits : workload.length * 100 < 2 ^ 64) {policy : Policy}
    (reached : Reach (Replay.step code config ioSize) (fun _ _ => True)
      (Initial config policy workload) replay) :
    replay.reader.Reports replay.lines ∧ replay.reader.workloadMax = workload.length := by
  induction reached with
  | start begins =>
      obtain ⟨system, evicts, _, rfl⟩ := begins
      exact ⟨ZnReader.Reports.init workload, rfl⟩
  | step action _ _ taken kept =>
      obtain ⟨thread, action⟩ := action
      cases step_spec taken with
      | take here query reader id log queried found called =>
          refine ⟨kept.1.takeQuery (by rw [kept.2]; exact fits) queried, ?_⟩
          exact (ZnReader.takeQuery_index queried).2.2.2.2.trans kept.2
      | leave | count | finish | goOn | sleep | evict | wakeUp | run => exact kept

/-- No percentage is reported twice, and a workload that was taken to its end had 100 lines,
or one for each query of a shorter one. -/
theorem replay_prints_progress (fits : workload.length * 100 < 2 ^ 64) {policy : Policy}
    (reached : Reach (Replay.step code config ioSize) (fun _ _ => True)
      (Initial config policy workload) replay) :
    replay.lines.Nodup ∧ replay.lines.length ≤ min replay.reader.workloadIndex 100 ∧
      (replay.reader.workloadIndex = workload.length →
        replay.lines.length = min workload.length 100) := by
  obtain ⟨reports, max⟩ := reports_of_reach fits reached
  refine ⟨reports.once, reports.low, fun all => ?_⟩
  rw [← max]
  exact reports.whole (all.trans max.symm)

end Reports

theorem replay_prints_progress_twoWorkers :
    ∃ first : PromotionalSystem (Fin 2), promotionalSystem oneChunkConfig = some first ∧
      ∃ replay, runActions (Replay.step (promotionalCode oneChunkConfig) oneChunkConfig 4096)
          (Replay.start first [7, 7] fun _ => false) (twoWorkers 0 1) = some replay ∧
        replay.lines.Nodup ∧ replay.lines.length = 2 := by
  obtain ⟨first, replay, begins, ran, all⟩ :
      ∃ (first : PromotionalSystem (Fin 2)) (replay : Replay (Fin 2) ZnPolicyPromotional EvictPc),
        promotionalSystem oneChunkConfig = some first ∧
        runActions (Replay.step (promotionalCode oneChunkConfig) oneChunkConfig 4096)
          (Replay.start first [7, 7] fun _ => false) (twoWorkers 0 1) = some replay ∧
        replay.reader.workloadIndex = 2 :=
    ⟨_, _, rfl, rfl, rfl⟩
  obtain ⟨once, _, lines⟩ := @replay_prints_progress (Fin 2) _ _ _ _ (promotionalCode oneChunkConfig)
    oneChunkConfig 4096 [7, 7] replay (by decide) (promotionalInit 1)
    (Reach.of_runActions (twoWorkers 0 1) (.start ⟨first, _, begins, rfl⟩)
      (AllowedAlong.of_forall _ _ fun _ _ _ => trivial) ran)
  exact ⟨first, begins, replay, ran, once, lines all⟩

end Replay

end ZNCache
