import ZNCache.ChunkEviction
import ZNCache.Lib.Tally
import ZNCache.SequentialGet
import ZNCache.WorkerSteps

/-!
# What the hit ratio counts

A miss is counted once its chunk is written, a hit whether or not its chunk was read: the
read's NULL is returned after `ratio.hits` has gone up.
-/

set_option autoImplicit false

namespace ZNCache

open Tally Transition

variable {Thread Policy Local : Type}

/-- What a call returned: NULL, the buffer read from a cached chunk, or the one that it
generated and wrote. -/
inductive GetReturn
  | null
  | cached
  | generated
  deriving DecidableEq, Repr

/-- `zn_read_from_disk` returns a buffer: the sizes and the offset are aligned, and the
transfers of the chunk succeed. -/
def ReadsBuffer (config : CacheConfig) (ioSize : Nat) (location : ZnPair)
    (environment : Environment) : Prop :=
  config.chunkSz % directAlignment = 0 ∧ ioSize % directAlignment = 0 ∧
    chunkPointer config.zoneSize config.chunkSz location.chunkOffset location.zone %
      directAlignment = 0 ∧
    environment.transfers = true

instance (config : CacheConfig) (ioSize : Nat) (location : ZnPair) (environment : Environment) :
    Decidable (ReadsBuffer config ioSize location environment) :=
  inferInstanceAs (Decidable (_ ∧ _ ∧ _ ∧ _))

def ThreadPc.inCall : ThreadPc Local → Bool
  | idle => false
  | get _ => true
  | evict caller _ => caller.isSome

def ThreadPc.countedMiss : ThreadPc Local → Nat
  | get (.giveBack _ _) | get (.record _ _) | get (.insert _ _) => 1
  | _ => 0

/-- A hit that was not counted yet and will return NULL, for the read gave no buffer. -/
def ThreadPc.nullHit : ThreadPc Local → Bool → Nat
  | get (.touch _ _ _), false | get (.release _ _ _), false | get (.countHit _ _), false => 1
  | _, _ => 0

/-- A system, whether each thread's last chunk read returned a buffer, and what the calls
returned that are over. -/
structure RatioLog (Thread Policy Local : Type) where
  system : System Thread Policy Local
  buffered : Thread → Bool
  returns : List GetReturn

namespace RatioLog

def start (system : System Thread Policy Local) : RatioLog Thread Policy Local :=
  ⟨system, fun _ => false, []⟩

section Log

variable [DecidableEq Thread]

def reading (log : RatioLog Thread Policy Local) (action : Thread × Choice) :
    Option (ZnPair × Environment) :=
  match log.system.threads action.1, action.2 with
  | .get (.read _ location), .run environment => some (location, environment)
  | _, _ => none

def ReadsServed (config : CacheConfig) (ioSize : Nat) (log : RatioLog Thread Policy Local)
    (action : Thread × Choice) : Prop :=
  ∀ read ∈ log.reading action, ReadsBuffer config ioSize read.1 read.2

instance (config : CacheConfig) (ioSize : Nat) (log : RatioLog Thread Policy Local)
    (action : Thread × Choice) : Decidable (ReadsServed config ioSize log action) :=
  inferInstanceAs (Decidable (∀ read ∈ _, _))

def nowBuffered (config : CacheConfig) (ioSize : Nat) (log : RatioLog Thread Policy Local)
    (action : Thread × Choice) : Bool :=
  match log.reading action with
  | some _ => decide (ReadsServed config ioSize log action)
  | none => log.buffered action.1

def nowReturns (log : RatioLog Thread Policy Local) (action : Thread × Choice) :
    List GetReturn :=
  match log.system.threads action.1, action.2 with
  | .get (.countHit _ _), .run _ => [if log.buffered action.1 then .cached else .null]
  | .get (.insert _ _), .run _ => [.generated]
  | .get (.undoMap _), .run _ => [.null]
  | _, _ => []

def step (code : EvictionCode Thread Policy Local) (config : CacheConfig) (ioSize : Nat)
    (log : RatioLog Thread Policy Local) (action : Thread × Choice) :
    Option (RatioLog Thread Policy Local) :=
  (log.system.step code action).map fun next =>
    ⟨next, Function.update log.buffered action.1 (log.nowBuffered config ioSize action),
      log.returns ++ log.nowReturns action⟩

end Log

def Quiet (log : RatioLog Thread Policy Local) : Prop :=
  ∀ thread, (log.system.threads thread).inCall = false

instance [Fintype Thread] (log : RatioLog Thread Policy Local) : Decidable log.Quiet :=
  inferInstanceAs (Decidable (∀ _, _ = false))

/-- The counters add up to the calls that returned a buffer, and the hits are those of them
that were served from a cached chunk. -/
def Exact (log : RatioLog Thread Policy Local) : Prop :=
  log.system.cache.hits + log.system.cache.misses = log.returns.countP (· ≠ .null) ∧
    log.system.cache.hits = log.returns.count .cached

instance (log : RatioLog Thread Policy Local) : Decidable log.Exact :=
  inferInstanceAs (Decidable (_ ∧ _))

/-! ## One step -/

section Code

variable [DecidableEq Thread]

def KeepsRatio (code : EvictionCode Thread Policy Local) : Prop :=
  ∀ {thread : Thread} {cache after : ZnCache Thread Policy} {pc : Local}
    {environment : Environment} {next : Option Local},
    code.evictStep thread cache pc environment = some (after, next) →
      after.hits = cache.hits ∧ after.misses = cache.misses

omit [DecidableEq Thread] in
theorem keepsRatio_promotional (config : CacheConfig) :
    KeepsRatio (promotionalCode config : EvictionCode Thread _ _) := by
  intro thread cache after pc environment next ran
  cases fgEvictStep_spec ran <;> exact ⟨rfl, rfl⟩

theorem keepsRatio_chunk (config : CacheConfig) :
    KeepsRatio (chunkCode config : EvictionCode Thread _ _) := by
  intro thread cache after pc environment next ran
  cases chunkEvictStep_spec ran <;> exact ⟨rfl, rfl⟩

end Code

/-- What a thread's step adds to the counters is what it adds to the returns and to the calls
that are under way, apart from a read that returns NULL. -/
structure StepCounts (before after : ZnCache Thread Policy) (here there : ThreadPc Local)
    (buffered nowBuffered : Bool) (returned : List GetReturn) (nulls : Nat) : Prop where
  hits : after.hits + there.nullHit nowBuffered =
    before.hits + here.nullHit buffered + returned.count .cached + nulls
  misses : after.misses + here.countedMiss =
    before.misses + there.countedMiss + returned.count .generated

theorem StepCounts.same {cache after : ZnCache Thread Policy} {here there : ThreadPc Local}
    {buffered : Bool} {returned : List GetReturn} (returns : returned = [])
    (hits : after.hits = cache.hits) (misses : after.misses = cache.misses)
    (pending : there.nullHit buffered = here.nullHit buffered)
    (counted : there.countedMiss = here.countedMiss) :
    StepCounts cache after here there buffered buffered returned 0 := by
  subst returns
  constructor
  · rw [hits, pending, List.count_nil]
    rfl
  · rw [misses, counted, List.count_nil, Nat.add_zero]

section Step

@[simp] theorem nullHit_afterFind (id : Nat) (found : FindResult) (buffered : Bool) :
    (afterFind id found : ThreadPc Local).nullHit buffered = 0 := by
  cases found <;> rfl

@[simp] theorem countedMiss_afterFind (id : Nat) (found : FindResult) :
    (afterFind id found : ThreadPc Local).countedMiss = 0 := by
  cases found <;> rfl

@[simp] theorem nullHit_afterGetActiveZone (id : Nat) (code : Local) (ret : GetActiveZone)
    (buffered : Bool) : (afterGetActiveZone id code ret).nullHit buffered = 0 := by
  cases ret <;> rfl

@[simp] theorem countedMiss_afterGetActiveZone (id : Nat) (code : Local) (ret : GetActiveZone) :
    (afterGetActiveZone id code ret).countedMiss = 0 := by
  cases ret <;> rfl

@[simp] theorem nullHit_afterEvict (caller : Option Nat) (buffered : Bool) :
    (afterEvict caller : ThreadPc Local).nullHit buffered = 0 := by
  cases caller <;> rfl

@[simp] theorem countedMiss_afterEvict (caller : Option Nat) :
    (afterEvict caller : ThreadPc Local).countedMiss = 0 := by
  cases caller <;> rfl

variable {config : CacheConfig} {ioSize : Nat} {log : RatioLog Thread Policy Local}
  {action : Thread × Choice}

def nullReads (config : CacheConfig) (ioSize : Nat) (log : RatioLog Thread Policy Local)
    (action : Thread × Choice) : Nat :=
  if ReadsServed config ioSize log action then 0 else 1

theorem nullReads_eq_zero :
    nullReads config ioSize log action = 0 ↔ ReadsServed config ioSize log action := by
  unfold nullReads
  split <;> simp_all

theorem not_reading (config : CacheConfig) (ioSize : Nat)
    (none : log.reading action = none) :
    nullReads config ioSize log action = 0 ∧
      log.nowBuffered config ioSize action = log.buffered action.1 := by
  simp [nullReads, ReadsServed, nowBuffered, none]

variable [DecidableEq Thread] {code : EvictionCode Thread Policy Local} {thread : Thread}
  {choice : Choice} {cache : ZnCache Thread Policy} {pc : ThreadPc Local}

omit [DecidableEq Thread] in
theorem stepCounts_read {environment : Environment} {id : Nat} {location : ZnPair}
    (data : Option Nat) (at' : log.system.threads thread = .get (.read id location)) :
    StepCounts log.system.cache log.system.cache (.get (.read id location) : ThreadPc Local)
      (.get (.touch id location data)) (log.buffered thread)
      (log.nowBuffered config ioSize (thread, .run environment))
      (log.nowReturns (thread, .run environment))
      (nullReads config ioSize log (thread, .run environment)) := by
  have reads : log.reading (thread, .run environment) = some (location, environment) := by
    simp [reading, at']
  have nothing : log.nowReturns (thread, .run environment) = [] := by
    simp [nowReturns, at']
  rw [nothing]
  refine ⟨?_, rfl⟩
  by_cases served : ReadsServed config ioSize log (thread, .run environment)
  · simp [nowBuffered, reads, nullReads, served, ThreadPc.nullHit]
  · simp [nowBuffered, reads, nullReads, served, ThreadPc.nullHit]

theorem stepCounts_get {environment : Environment} {here : GetPc}
    (at' : log.system.threads thread = .get here)
    (ran : GetStep code thread log.system.cache environment here cache pc) :
    StepCounts log.system.cache cache (.get here) pc (log.buffered thread)
      (log.nowBuffered config ioSize (thread, .run environment))
      (log.nowReturns (thread, .run environment))
      (nullReads config ioSize log (thread, .run environment)) := by
  by_cases reads : ∃ id location, here = .read id location
  · obtain ⟨id, location, rfl⟩ := reads
    cases ran with
    | read _ _ data seen => exact stepCounts_read data at'
  · have none : log.reading (thread, .run environment) = none := by
      cases here with
      | read id location => exact absurd ⟨id, location, rfl⟩ reads
      | _ => simp [reading, at']
    obtain ⟨noNull, sameBuffered⟩ := not_reading config ioSize none
    rw [noNull, sameBuffered]
    cases ran with
    | read id location => exact absurd ⟨id, location, rfl⟩ reads
    | countHit id data =>
        cases read : log.buffered thread with
        | true => exact ⟨by simp [nowReturns, at', read, ThreadPc.nullHit], by
            simp [nowReturns, at', read, ThreadPc.countedMiss]⟩
        | false => exact ⟨by simp [nowReturns, at', read, ThreadPc.nullHit], by
            simp [nowReturns, at', read, ThreadPc.countedMiss]⟩
    | countMiss id location =>
        have returns : log.nowReturns (thread, .run environment) = [] := by
          simp [nowReturns, at']
        exact ⟨by simp [returns, ThreadPc.nullHit], by simp [returns, ThreadPc.countedMiss]⟩
    | insert id location answer inserted =>
        have returns : log.nowReturns (thread, .run environment) = [.generated] := by
          simp [nowReturns, at']
        exact ⟨by simp [returns, ThreadPc.nullHit], by simp [returns, ThreadPc.countedMiss]⟩
    | undoMap id answer failed =>
        have returns : log.nowReturns (thread, .run environment) = [.null] := by
          simp [nowReturns, at']
        exact ⟨by simp [returns, ThreadPc.nullHit], by simp [returns, ThreadPc.countedMiss]⟩
    | find id =>
        exact .same (by simp [nowReturns, at']) rfl rfl (nullHit_afterFind _ _ _)
          (countedMiss_afterFind _ _)
    | acquire id =>
        exact .same (by simp [nowReturns, at']) rfl rfl (nullHit_afterGetActiveZone _ _ _ _)
          (countedMiss_afterGetActiveZone _ _ _)
    | touch id location data policy updated =>
        exact .same (by simp [nowReturns, at']) rfl rfl
          (by cases log.buffered thread <;> rfl) rfl
    | release id location data =>
        exact .same (by simp [nowReturns, at']) rfl rfl
          (by cases log.buffered thread <;> rfl) rfl
    | woken | write | writeFailed | giveBack | record | undoZone =>
        exact .same (by simp [nowReturns, at']) rfl rfl rfl rfl

theorem stepCounts (keeps : KeepsRatio code)
    (taken : ThreadStep code thread log.system.cache (log.system.threads thread) choice cache pc) :
    StepCounts log.system.cache cache (log.system.threads thread) pc (log.buffered thread)
      (log.nowBuffered config ioSize (thread, choice)) (log.nowReturns (thread, choice))
      (nullReads config ioSize log (thread, choice)) := by
  generalize at' : log.system.threads thread = here at taken
  cases taken with
  | get ran => exact stepCounts_get at' ran
  | call id small =>
      have none : log.reading (thread, .get id) = none := by simp [reading, at']
      obtain ⟨noNull, sameBuffered⟩ := not_reading config ioSize none
      rw [noNull, sameBuffered]
      exact .same (by simp [nowReturns, at']) rfl rfl rfl rfl
  | callEvict =>
      have none : log.reading (thread, .evict) = none := by simp [reading, at']
      obtain ⟨noNull, sameBuffered⟩ := not_reading config ioSize none
      rw [noNull, sameBuffered]
      exact .same (by simp [nowReturns, at']) rfl rfl rfl rfl
  | wakeUp id =>
      have none : log.reading (thread, .wakeUp) = none := by simp [reading, at']
      obtain ⟨noNull, sameBuffered⟩ := not_reading config ioSize none
      rw [noNull, sameBuffered]
      exact .same (by simp [nowReturns, at']) rfl rfl rfl rfl
  | @evict caller pc next environment _ ran =>
      have none : log.reading (thread, .run environment) = none := by simp [reading, at']
      obtain ⟨noNull, sameBuffered⟩ := not_reading config ioSize none
      rw [noNull, sameBuffered]
      exact .same (by simp [nowReturns, at']) (keeps ran).1 (keeps ran).2 rfl rfl
  | @evicted caller pc environment _ ran =>
      have none : log.reading (thread, .run environment) = none := by simp [reading, at']
      obtain ⟨noNull, sameBuffered⟩ := not_reading config ioSize none
      rw [noNull, sameBuffered]
      exact .same (by simp [nowReturns, at']) (keeps ran).1 (keeps ran).2
        (nullHit_afterEvict _ _) (countedMiss_afterEvict _)

end Step

/-! ## Runs -/

section Run

variable [Fintype Thread] [DecidableEq Thread] {code : EvictionCode Thread Policy Local}
  {config : CacheConfig} {ioSize : Nat} {log next last : RatioLog Thread Policy Local}

def pendingNulls (log : RatioLog Thread Policy Local) : Nat :=
  tally (fun seat : ThreadPc Local × Bool => seat.1.nullHit seat.2)
    fun thread => (log.system.threads thread, log.buffered thread)

def pendingMisses (log : RatioLog Thread Policy Local) : Nat :=
  tally ThreadPc.countedMiss log.system.threads

structure Counted (log : RatioLog Thread Policy Local) (nulls : Nat) : Prop where
  hits : log.system.cache.hits + log.pendingNulls = log.returns.count .cached + nulls
  misses : log.system.cache.misses = log.returns.count .generated + log.pendingMisses

theorem Counted.step (keeps : KeepsRatio code) {nulls : Nat} (counted : Counted log nulls)
    {action : Thread × Choice} (taken : log.step code config ioSize action = some next) :
    Counted next (nulls + nullReads config ioSize log action) := by
  obtain ⟨system, moved, rfl⟩ := Option.map_eq_some_iff.mp taken
  obtain ⟨thread, choice⟩ := action
  obtain ⟨cache, pc, rfl, stepped⟩ := System.step_spec moved
  obtain ⟨hits, misses⟩ := @stepCounts _ _ _ config ioSize log _ code thread choice cache pc
    keeps stepped
  obtain ⟨hitsBefore, missesBefore⟩ := counted
  have seats : (fun other => (Function.update log.system.threads thread pc other,
      Function.update log.buffered thread (log.nowBuffered config ioSize (thread, choice))
        other)) = Function.update (fun other => (log.system.threads other, log.buffered other))
          thread (pc, log.nowBuffered config ioSize (thread, choice)) := by
    funext other
    by_cases same : other = thread
    · subst same
      simp
    · simp [same]
  constructor
  · rw [pendingNulls, tally_split _ _ thread] at hitsBefore
    dsimp only [System.advance, pendingNulls]
    rw [seats, tally_update, List.count_append]
    dsimp only at hits hitsBefore ⊢
    omega
  · rw [pendingMisses, tally_split _ _ thread] at missesBefore
    dsimp only [System.advance, pendingMisses]
    rw [tally_update, List.count_append]
    omega

/-- By induction on the actions: no read returned NULL if and only if each was served. -/
theorem Counted.run (keeps : KeepsRatio code) (actions : List (Thread × Choice)) :
    ∀ {log : RatioLog Thread Policy Local} {nulls : Nat}, Counted log nulls →
      runActions (RatioLog.step code config ioSize) log actions = some last →
      ∃ more, Counted last (nulls + more) ∧
        (more = 0 ↔ AllowedAlong (RatioLog.step code config ioSize) (ReadsServed config ioSize) log
          actions) := by
  induction actions with
  | nil =>
      intro log nulls counted ran
      cases Option.some.inj ran
      exact ⟨0, counted, by simp [AllowedAlong]⟩
  | cons action actions ih =>
      intro log nulls counted ran
      obtain ⟨next, taken, ran⟩ := runActions_inv ran
      obtain ⟨more, countedLast, served⟩ := ih (counted.step keeps taken) ran
      refine ⟨nullReads config ioSize log action + more, ?_, ?_⟩
      · rwa [← Nat.add_assoc]
      · rw [Nat.add_eq_zero_iff, nullReads_eq_zero, served]
        simp [AllowedAlong, taken]

theorem ThreadPc.idle_weights {pc : ThreadPc Local} (idle : pc.inCall = false)
    (buffered : Bool) : pc.nullHit buffered = 0 ∧ pc.countedMiss = 0 := by
  cases pc with
  | idle => exact ⟨rfl, rfl⟩
  | get => cases idle
  | evict => exact ⟨rfl, rfl⟩

theorem countP_buffers (returns : List GetReturn) :
    returns.countP (· ≠ .null) = returns.count .cached + returns.count .generated := by
  induction returns with
  | nil => rfl
  | cons first returns ih =>
      rw [List.countP_cons, List.count_cons, List.count_cons, ih]
      cases first with
      | null => simp
      | cached => simp; omega
      | generated => simp; omega

omit [DecidableEq Thread] in
theorem Counted.exact_iff {nulls : Nat} (counted : Counted log nulls) (quiet : log.Quiet) :
    log.Exact ↔ nulls = 0 := by
  have noNulls : log.pendingNulls = 0 :=
    tally_const_zero _ _ fun thread => (ThreadPc.idle_weights (quiet thread) _).1
  have noMisses : log.pendingMisses = 0 :=
    tally_const_zero _ _ fun thread => (ThreadPc.idle_weights (quiet thread) true).2
  obtain ⟨hits, misses⟩ := counted
  rw [noNulls] at hits
  rw [noMisses] at misses
  rw [Exact, countP_buffers]
  omega

omit [DecidableEq Thread] in
theorem Counted.start {policy : Policy} {first : System Thread Policy Local}
    (begins : System.init config policy = some first) : Counted (start first) 0 := by
  obtain ⟨cache, built, rfl⟩ := Option.map_eq_some_iff.mp begins
  have zero : cache.hits = 0 ∧ cache.misses = 0 := by
    unfold znInitCache at built
    split at built
    next =>
        cases Option.some.inj built
        exact ⟨rfl, rfl⟩
    next => cases built
  constructor
  · rw [pendingNulls, tally_const_zero]
    · exact zero.1
    · exact fun _ => rfl
  · rw [pendingMisses, tally_const_zero]
    · exact zero.2
    · exact fun _ => rfl

/-- With no call in progress, the counters are those of the calls that returned a buffer if
and only if each chunk read so far returned one. -/
theorem exact_iff (keeps : KeepsRatio code) {policy : Policy} {first : System Thread Policy Local}
    {actions : List (Thread × Choice)} (begins : System.init config policy = some first)
    (ran : runActions (step code config ioSize) (RatioLog.start first) actions = some last)
    (quiet : last.Quiet) :
    last.Exact ↔ AllowedAlong (step code config ioSize) (ReadsServed config ioSize)
      (RatioLog.start first) actions := by
  obtain ⟨nulls, counted, served⟩ := (Counted.start begins).run keeps actions ran
  rw [counted.exact_iff quiet, Nat.zero_add, served]

end Run

def missThenHit (environment : Environment) : List (Unit × Choice) :=
  ((), .get 7) :: List.replicate 7 ((), .run .smooth) ++
    ((), .get 7) :: ((), .run .smooth) :: ((), .run environment) ::
      List.replicate 3 ((), .run .smooth)

end RatioLog

end ZNCache
