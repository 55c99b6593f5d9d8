import Mathlib.Algebra.Field.Rat
import Mathlib.Algebra.Order.Ring.Rat
import Mathlib.Algebra.BigOperators.Group.List.Basic
import Mathlib.Data.Fintype.Basic
import ZNCache.Lib.Transition
import ZNCache.Machine

/-!
# The profiler

`zn_profiler_update_metric` adds to a metric in one locked section.  The periodic
report reads a metric in one section, prints what it read, and resets the metric in
another.  Values are exact numbers; the count is a `uint32_t`.
-/

set_option autoImplicit false

namespace ZNCache

open Transition

inductive ZnProfilerTag
  | getLatency
  | cacheUsedMib
  | cacheHitratio
  | readLatency
  | writeLatency
  | cacheFreeZones
  | hitLatency
  | missLatency
  | cacheThroughput
  | cacheHitThroughput
  | cacheMissThroughput
  deriving DecidableEq, Repr

inductive ZnProfilerType
  | avg
  | set
  | overTime
  deriving DecidableEq, Repr

namespace ZnProfilerTag

/-- `zn_profiler_metric_names`. -/
def metricName : ZnProfilerTag → String
  | getLatency => "GETLATENCY"
  | cacheUsedMib => "CACHE_USED_MIB"
  | cacheHitratio => "HITRATIO"
  | readLatency => "READLATENCY"
  | writeLatency => "WRITELATENCY"
  | cacheFreeZones => "FREEZONES"
  | hitLatency => "CACHEHITLATENCY"
  | missLatency => "CACHEMISSLATENCY"
  | cacheThroughput => "CACHETHROUGHPUT"
  | cacheHitThroughput => "CACHEHITTHROUGHPUT"
  | cacheMissThroughput => "CACHEMISSTHROUGHPUT"

/-- `zn_profiler_metric_types`. -/
def metricType : ZnProfilerTag → ZnProfilerType
  | getLatency | readLatency | writeLatency | hitLatency | missLatency => .avg
  | cacheUsedMib | cacheHitratio | cacheFreeZones => .set
  | cacheThroughput | cacheHitThroughput | cacheMissThroughput => .overTime

end ZnProfilerTag

/-- The metrics in the order of their tags, which the report follows. -/
def profilingMetrics : List ZnProfilerTag :=
  [.getLatency, .cacheUsedMib, .cacheHitratio, .readLatency, .writeLatency, .cacheFreeZones,
    .hitLatency, .missLatency, .cacheThroughput, .cacheHitThroughput, .cacheMissThroughput]

variable {Thread Value : Type}

structure ZnProfilerMetrics (Value : Type) where
  count : Nat
  value : Value
  type : ZnProfilerType

/-- The metrics and the lines printed to the file, without their timestamps. -/
structure ZnProfiler (Value : Type) where
  metrics : ZnProfilerTag → ZnProfilerMetrics Value
  fp : List (String × Value)

namespace ZnProfiler

def setMetric (profiler : ZnProfiler Value) (metric : ZnProfilerTag)
    (entry : ZnProfilerMetrics Value) : ZnProfiler Value :=
  { profiler with metrics := Function.update profiler.metrics metric entry }

end ZnProfiler

/-- Where a thread stands in `zn_profiler_write_all_and_reset`, with the metrics of the
passes that are left. -/
inductive ReportPc (Value : Type)
  | idle
  | read (metric : ZnProfilerTag) (rest : List ZnProfilerTag)
  | print (metric : ZnProfilerTag) (val : Value) (rest : List ZnProfilerTag)
  | reset (metric : ZnProfilerTag) (rest : List ZnProfilerTag)

def nextMetric : List ZnProfilerTag → ReportPc Value
  | [] => .idle
  | metric :: rest => .read metric rest

def ReportPc.Between (metric : ZnProfilerTag) : ReportPc Value → Prop
  | .print other _ _ | .reset other _ => other = metric
  | .idle | .read _ _ => False

instance (metric : ZnProfilerTag) :
    (pc : ReportPc Value) → Decidable (pc.Between metric)
  | .print other _ _ | .reset other _ => inferInstanceAs (Decidable (other = metric))
  | .idle | .read _ _ => isFalse id

theorem not_between_nextMetric {metric : ZnProfilerTag} (rest : List ZnProfilerTag) :
    ¬ (nextMetric rest : ReportPc Value).Between metric := by
  cases rest <;> exact id

inductive ProfilerAction (Value : Type)
  | update (metric : ZnProfilerTag) (value : Value)
  | set (metric : ZnProfilerTag) (value : Value)
  | writeAllAndReset
  | run

/-- The profiler, its threads, and the history of what was passed to
`zn_profiler_update_metric` and of the raw totals that reports read. -/
structure Profiling (Thread Value : Type) where
  profiler : ZnProfiler Value
  threads : Thread → ReportPc Value
  updates : List (ZnProfilerTag × Value)
  reports : List (ZnProfilerTag × ZnProfilerMetrics Value)

namespace Profiling

variable [DecidableEq Thread]

def goTo (system : Profiling Thread Value) (thread : Thread) (pc : ReportPc Value) :
    Profiling Thread Value :=
  { system with threads := Function.update system.threads thread pc }

section GoTo

variable (system : Profiling Thread Value) (thread : Thread) (pc : ReportPc Value)

@[simp] theorem goTo_profiler : (system.goTo thread pc).profiler = system.profiler := rfl
@[simp] theorem goTo_updates : (system.goTo thread pc).updates = system.updates := rfl
@[simp] theorem goTo_reports : (system.goTo thread pc).reports = system.reports := rfl
@[simp] theorem goTo_threads :
    (system.goTo thread pc).threads = Function.update system.threads thread pc := rfl

end GoTo

theorem between_goTo {metric : ZnProfilerTag} {system : Profiling Thread Value} 
    {thread : Thread} {pc : ReportPc Value}
    (stays : pc.Between metric ↔ (system.threads thread).Between metric) (other : Thread) :
    ((system.goTo thread pc).threads other).Between metric ↔
      (system.threads other).Between metric := by
  by_cases same : other = thread
  · subst same
    simpa using stays
  · simp [same]

end Profiling

variable [Field Value]

def znProfilerInit : ZnProfiler Value where
  metrics := fun metric => ⟨0, 0, metric.metricType⟩
  fp := []

def znProfilerResetMetric (profiler : ZnProfiler Value) (metric : ZnProfilerTag) :
    ZnProfiler Value :=
  profiler.setMetric metric { profiler.metrics metric with value := 0, count := 0 }

def znProfilerUpdateMetric (profiler : ZnProfiler Value) (metric : ZnProfilerTag)
    (value : Value) : ZnProfiler Value :=
  let entry := profiler.metrics metric
  profiler.setMetric metric
    { entry with value := entry.value + value, count := u32 (entry.count + 1) }

def znProfilerSetMetric (profiler : ZnProfiler Value) (metric : ZnProfilerTag)
    (value : Value) : ZnProfiler Value :=
  profiler.setMetric metric { profiler.metrics metric with value := value }

def reportedValue (intervalSec : Nat) (entry : ZnProfilerMetrics Value) : Value :=
  match entry.type with
  | .avg => if entry.count = 0 then 0 else entry.value / entry.count
  | .overTime => entry.value / intervalSec
  | .set => entry.value

namespace Profiling

def init : Profiling Thread Value := ⟨znProfilerInit, fun _ => .idle, [], []⟩

variable [DecidableEq Thread]

def step (intervalSec : Nat) (system : Profiling Thread Value)
    (action : Thread × ProfilerAction Value) : Option (Profiling Thread Value) :=
  match system.threads action.1, action.2 with
  | .idle, .update metric value =>
      some { system with
        profiler := znProfilerUpdateMetric system.profiler metric value
        updates := system.updates ++ [(metric, value)] }
  | .idle, .set metric value =>
      some { system with profiler := znProfilerSetMetric system.profiler metric value }
  | .idle, .writeAllAndReset => some (system.goTo action.1 (nextMetric profilingMetrics))
  | .read metric rest, .run =>
      let entry := system.profiler.metrics metric
      some { system.goTo action.1 (.print metric (reportedValue intervalSec entry) rest) with
        reports := system.reports ++ [(metric, entry)] }
  | .print metric val rest, .run =>
      some { system.goTo action.1 (.reset metric rest) with
        profiler := { system.profiler with
          fp := system.profiler.fp ++ [(metric.metricName, val)] } }
  | .reset metric rest, .run =>
      some { system.goTo action.1 (nextMetric rest) with
        profiler := znProfilerResetMetric system.profiler metric }
  | _, _ => none

end Profiling

/-! ## What was submitted and what was reported -/

def concerning {Item : Type} (metric : ZnProfilerTag) (history : List (ZnProfilerTag × Item)) :
    List Item :=
  (history.filter fun event => event.1 = metric).map Prod.snd

section Concerning

variable {Item : Type} {metric other : ZnProfilerTag}
  (history : List (ZnProfilerTag × Item)) (item : Item)

@[simp] theorem concerning_append_self :
    concerning metric (history ++ [(metric, item)]) = concerning metric history ++ [item] := by
  simp [concerning]

theorem concerning_append_ne (apart : other ≠ metric) :
    concerning metric (history ++ [(other, item)]) = concerning metric history := by
  simp [concerning, apart]

end Concerning

/-- What reports have read of a metric and what it holds add up to what was submitted. -/
structure Accounted (reported held : Value) (reportedCount heldCount : Nat)
    (submitted : List Value) : Prop where
  total : reported + held = submitted.sum
  count : reportedCount + heldCount = submitted.length

namespace Profiling

variable (metric : ZnProfilerTag) (system : Profiling Thread Value)

def reportedTotal : Value := ((concerning metric system.reports).map ZnProfilerMetrics.value).sum

def reportedCount : Nat := ((concerning metric system.reports).map ZnProfilerMetrics.count).sum

/-- Whenever no report is between its read and its reset of the metric, every update of it
is in one report or still to be reported. -/
def Conserves : Prop :=
  (∀ thread, ¬ (system.threads thread).Between metric) →
    Accounted (system.reportedTotal metric) (system.profiler.metrics metric).value
      (system.reportedCount metric) (system.profiler.metrics metric).count
      (concerning metric system.updates)

def NeverSet (action : Thread × ProfilerAction Value) : Prop :=
  ∀ value, action.2 ≠ .set metric value

/-- Nothing updates or reads the metric while a report is between its read and its reset
of it, and no count wraps around. -/
structure Uninterrupted (action : Thread × ProfilerAction Value) : Prop where
  update : ∀ value, action.2 = .update metric value →
    (∀ thread, ¬ (system.threads thread).Between metric) ∧
      (system.profiler.metrics metric).count + 1 < 2 ^ 32
  read : ∀ rest, system.threads action.1 = .read metric rest →
    ∀ thread, ¬ (system.threads thread).Between metric

instance (metric : ZnProfilerTag) :
    (action : Thread × ProfilerAction Value) → Decidable (NeverSet metric action)
  | (_, .set other value) =>
      decidable_of_iff (other ≠ metric)
        ⟨fun apart _ same => by cases same; exact apart rfl,
          fun never same => never value (by rw [same])⟩
  | (_, .update _ _) | (_, .writeAllAndReset) | (_, .run) =>
      isTrue fun _ same => by cases same

section Decide

variable [Fintype Thread] (metric : ZnProfilerTag) (system : Profiling Thread Value)

def decideUpdate : (action : Thread × ProfilerAction Value) →
    Decidable (∀ value, action.2 = .update metric value →
      (∀ thread, ¬ (system.threads thread).Between metric) ∧
        (system.profiler.metrics metric).count + 1 < 2 ^ 32)
  | (_, .update other value) =>
      decidable_of_iff (other = metric →
          (∀ thread, ¬ (system.threads thread).Between metric) ∧
            (system.profiler.metrics metric).count + 1 < 2 ^ 32)
        ⟨fun alone _ same => by cases same; exact alone rfl,
          fun alone same => alone value (by rw [same])⟩
  | (_, .set _ _) | (_, .writeAllAndReset) | (_, .run) => isTrue fun _ same => by cases same

def decideRead (pc : ReportPc Value) :
    Decidable (∀ rest, pc = .read metric rest →
      ∀ thread, ¬ (system.threads thread).Between metric) :=
  match pc with
  | .read other rest =>
      decidable_of_iff (other = metric → ∀ thread, ¬ (system.threads thread).Between metric)
        ⟨fun alone _ same => by cases same; exact alone rfl,
          fun alone same => alone rest (by rw [same])⟩
  | .idle | .print _ _ _ | .reset _ _ => isTrue fun _ same => by cases same

instance (action : Thread × ProfilerAction Value) :
    Decidable (system.Uninterrupted metric action) :=
  have := decideUpdate metric system action
  have := decideRead metric system (system.threads action.1)
  decidable_of_iff (_ ∧ _) ⟨fun both => ⟨both.1, both.2⟩, fun alone => ⟨alone.update, alone.read⟩⟩

end Decide

/-- Between the read and the reset, what the metric holds has been reported already. -/
structure Balanced : Prop where
  quiet : system.Conserves metric
  between : (∃ thread, (system.threads thread).Between metric) →
    Accounted (system.reportedTotal metric) 0 (system.reportedCount metric) 0
      (concerning metric system.updates)

section Steps

variable {metric : ZnProfilerTag} {system : Profiling Thread Value}

theorem Balanced.init : (init : Profiling Thread Value).Balanced metric := by
  constructor
  · intro _
    constructor <;> simp [Profiling.init, reportedTotal, reportedCount, concerning, znProfilerInit]
  · intro given
    obtain ⟨thread, between⟩ := given
    exact between.elim

theorem Balanced.congr (balanced : system.Balanced metric) {after : Profiling Thread Value}
    (sameBetween : ∀ thread, (after.threads thread).Between metric ↔
      (system.threads thread).Between metric)
    (entry : after.profiler.metrics metric = system.profiler.metrics metric)
    (updates : concerning metric after.updates = concerning metric system.updates)
    (reports : concerning metric after.reports = concerning metric system.reports) :
    after.Balanced metric := by
  constructor
  · intro nobody
    have before := balanced.quiet fun other between =>
      nobody other ((sameBetween other).mpr between)
    simpa only [reportedTotal, reportedCount, entry, updates, reports] using before
  · intro given
    obtain ⟨other, between⟩ := given
    have before := balanced.between ⟨other, (sameBetween other).mp between⟩
    simpa only [reportedTotal, reportedCount, updates, reports] using before

theorem Balanced.update (balanced : system.Balanced metric) (value : Value)
    (nobody : ∀ thread, ¬ (system.threads thread).Between metric)
    (noWrap : (system.profiler.metrics metric).count + 1 < 2 ^ 32) :
    Balanced metric { system with
      profiler := znProfilerUpdateMetric system.profiler metric value
      updates := system.updates ++ [(metric, value)] } := by
  obtain ⟨total, count⟩ := balanced.quiet nobody
  constructor
  · intro _
    constructor
    · simp only [reportedTotal, znProfilerUpdateMetric, ZnProfiler.setMetric,
        Function.update_self, concerning_append_self, List.sum_append,
        List.sum_singleton] at total ⊢
      rw [← total, add_assoc]
    · have stored : u32 ((system.profiler.metrics metric).count + 1) =
          (system.profiler.metrics metric).count + 1 := by
        rw [← Nat.cast_succ]
        exact u32_of_nat noWrap
      simp only [reportedCount, znProfilerUpdateMetric, ZnProfiler.setMetric,
        Function.update_self, concerning_append_self, List.length_append,
        List.length_singleton, stored] at count ⊢
      omega
  · intro given
    obtain ⟨thread, between⟩ := given
    exact absurd between (nobody thread)

variable [DecidableEq Thread]

theorem Balanced.read (balanced : system.Balanced metric) (thread : Thread)
    (rest : List ZnProfilerTag) (val : Value)
    (nobody : ∀ thread, ¬ (system.threads thread).Between metric) :
    Balanced metric { system.goTo thread (.print metric val rest) with
      reports := system.reports ++ [(metric, system.profiler.metrics metric)] } := by
  obtain ⟨total, count⟩ := balanced.quiet nobody
  constructor
  · intro none
    exact absurd (by simp [ReportPc.Between]) (none thread)
  · intro _
    constructor
    · simpa [reportedTotal] using total
    · simpa [reportedCount] using count

/-- The reset drops what the metric held when it was read. -/
theorem Balanced.reset (balanced : system.Balanced metric) (thread : Thread)
    (pc : ReportPc Value) (between : (system.threads thread).Between metric) :
    Balanced metric { system.goTo thread pc with
      profiler := znProfilerResetMetric system.profiler metric } := by
  have accounted := balanced.between ⟨thread, between⟩
  constructor
  · intro _
    simpa [znProfilerResetMetric, ZnProfiler.setMetric, reportedTotal, reportedCount]
      using accounted
  · exact fun _ => accounted

theorem Balanced.step {intervalSec : Nat} {action : Thread × ProfilerAction Value}
    {after : Profiling Thread Value} (balanced : system.Balanced metric)
    (neverSet : NeverSet metric action) (alone : system.Uninterrupted metric action)
    (taken : system.step intervalSec action = some after) : after.Balanced metric := by
  obtain ⟨thread, action⟩ := action
  unfold Profiling.step at taken
  dsimp only at taken
  split at taken
  next other value here =>
      cases Option.some.inj taken
      by_cases same : other = metric
      · subst same
        obtain ⟨nobody, noWrap⟩ := alone.update value rfl
        exact balanced.update value nobody noWrap
      · refine balanced.congr (fun _ => Iff.rfl) ?_ (concerning_append_ne _ _ same) rfl
        exact Function.update_of_ne (Ne.symm same) _ _
  next other value here =>
      cases Option.some.inj taken
      have apart : other ≠ metric := fun same => neverSet value (by rw [same])
      refine balanced.congr (fun _ => Iff.rfl) ?_ rfl rfl
      exact Function.update_of_ne (Ne.symm apart) _ _
  next here =>
      cases Option.some.inj taken
      refine balanced.congr (between_goTo ?_) rfl rfl rfl
      rw [here]
      exact ⟨(not_between_nextMetric _ ·), fun between => between.elim⟩
  next other rest here =>
      cases Option.some.inj taken
      by_cases same : other = metric
      · subst same
        exact balanced.read thread rest _ (alone.read rest here)
      · refine balanced.congr (between_goTo ?_) rfl rfl (concerning_append_ne _ _ same)
        rw [here]
        exact ⟨same, fun between => between.elim⟩
  next other val rest here =>
      cases Option.some.inj taken
      refine balanced.congr (between_goTo ?_) rfl rfl rfl
      rw [here]
      rfl
  next other rest here =>
      cases Option.some.inj taken
      by_cases same : other = metric
      · subst same
        exact balanced.reset thread _ (by rw [here]; rfl)
      · refine balanced.congr (between_goTo ?_) ?_ rfl rfl
        · rw [here]
          exact ⟨fun between => absurd between (not_between_nextMetric _),
            fun between => absurd between same⟩
        · exact Function.update_of_ne (Ne.symm same) _ _
  next => cases taken

end Steps

end Profiling

variable [DecidableEq Thread]

/-- In every interleaving in which nothing comes between a report's read and its reset of an
accumulated metric, its reports and its total account for every update of it. -/
theorem profiler_conserves {metric : ZnProfilerTag} {intervalSec : Nat}
    {system : Profiling Thread Value}
    (reached : Reach (Profiling.step intervalSec)
      (fun system action => Profiling.NeverSet metric action ∧
        system.Uninterrupted metric action) (· = Profiling.init) system) :
    system.Conserves metric :=
  Profiling.Balanced.quiet (reached.invariant
    (fun _ begins => begins ▸ Profiling.Balanced.init)
    fun _ _ _ balanced permitted taken => balanced.step permitted.1 permitted.2 taken)

/-- A thread updates the first metric, another reports it, and the first updates it again. -/
def updateReportUpdate : List (Fin 2 × ProfilerAction ℚ) :=
  [(0, .update .getLatency 3), (1, .writeAllAndReset), (1, .run), (1, .run), (1, .run),
    (0, .update .getLatency 4)]

theorem profiler_conserves_updateReportUpdate :
    ∃ system : Profiling (Fin 2) ℚ,
      runActions (Profiling.step 10) Profiling.init updateReportUpdate = some system ∧
      system.threads 1 = .read .cacheUsedMib profilingMetrics.tail.tail ∧
      system.reportedTotal .getLatency = 3 ∧
      (system.profiler.metrics .getLatency).value = 4 ∧ system.Conserves .getLatency := by
  cases executed : runActions (Profiling.step 10)
      (Profiling.init : Profiling (Fin 2) ℚ) updateReportUpdate with
  | none => cases executed
  | some system =>
      have conserves : system.Conserves .getLatency :=
        profiler_conserves (Reach.of_runActions updateReportUpdate (Reach.start rfl)
          (by decide +kernel) executed)
      cases Option.some.inj executed
      refine ⟨_, rfl, rfl, ?_, ?_, conserves⟩
      · decide +kernel
      · decide +kernel

/-- A thread reports the first metric; an update falls between its read and its reset. -/
def updateLost : List (Fin 2 × ProfilerAction ℚ) :=
  [(1, .writeAllAndReset), (1, .run), (0, .update .getLatency 5), (1, .run), (1, .run)]

theorem profiler_loses_update :
    ∃ system : Profiling (Fin 2) ℚ,
      Reach (Profiling.step 10) (fun _ action => Profiling.NeverSet .getLatency action)
        (· = Profiling.init) system ∧
      ¬ system.Conserves .getLatency := by
  cases executed : runActions (Profiling.step 10)
      (Profiling.init : Profiling (Fin 2) ℚ) updateLost with
  | none => cases executed
  | some system =>
      refine ⟨system, Reach.of_runActions updateLost (Reach.start rfl)
        (AllowedAlong.of_forall _ _ ?_) executed, fun conserves => ?_⟩
      · simp [updateLost, Profiling.NeverSet]
      · cases Option.some.inj executed
        have accounted := (conserves (by decide)).count
        exact absurd accounted (by decide)

end ZNCache
