import ZNCache.ZoneStateManagerRuns

/-!
# The invalid chunks of a zone

`zsm_evict` returns before it empties the queue of invalid chunks when the reset
succeeds, and empties it when the reset fails.  The queue therefore tells the chunks
that were marked since the last reset only as long as no marked zone is evicted.
-/

set_option autoImplicit false

namespace ZNCache

open ZoneStateManager Transition

/-! ## One call -/

def wipedZone (manager : ZoneStateManager) (zone : Nat) : ZoneStateManager :=
  { manager.setZone zone
      { manager.state zone with state := .free, chunkOffset := 0, invalid := [] } with
    free := manager.free ++ [zone] }

/-- The result code tells whether the reset succeeded, and the state is wiped or
untouched accordingly. -/
def EvictsFaithfully (resetRet : Int) (manager : ZoneStateManager) (zone : Nat) : Prop :=
  let answer := zsmEvict resetRet manager zone
  (backendRet manager resetRet = 0 → answer.ret = 0 ∧ answer.state = wipedZone manager zone) ∧
    (backendRet manager resetRet ≠ 0 → answer.ret ≠ 0 ∧ answer.state = manager)

section OneCall

variable {resetRet : Int} {manager : ZoneStateManager} {zone : Nat}

theorem zsmEvict_state_of_done (full : (manager.state zone).state = .full)
    (done : backendRet manager resetRet = 0) :
    (zsmEvict resetRet manager zone).state = freed manager zone := by
  have evicted := zsmEvict_spec resetRet manager zone
  generalize (zsmEvict resetRet manager zone).state = state at evicted ⊢
  cases evicted with
  | alreadyFree free => simp [full] at free
  | reset => rfl
  | failed _ failure => exact absurd done failure

/-- A successful reset leaves the queue of invalid chunks as it was. -/
theorem freed_eq_wipedZone_iff :
    freed manager zone = wipedZone manager zone ↔ (manager.state zone).invalid = [] := by
  constructor
  · intro same
    have entry := congrArg (fun after => (after.state zone).invalid) same
    simpa [freed, wipedZone, returnedZone] using entry
  · intro none
    simp [freed, wipedZone, returnedZone, none]

theorem evictsFaithfully_iff (full : (manager.state zone).state = .full) :
    EvictsFaithfully resetRet manager zone ↔
      backendRet manager resetRet = 0 ∧ (manager.state zone).invalid = [] := by
  by_cases done : backendRet manager resetRet = 0
  · simp [EvictsFaithfully, done, zsmEvict_ret, zsmEvict_state_of_done full done,
      freed_eq_wipedZone_iff]
  · simp [EvictsFaithfully, done, zsmEvict_ret]

end OneCall

/-! ## Runs -/

/-- A manager, the pairs that callers hold, and the chunks of each zone that were marked
since the zone was last reset. -/
structure MarkLog where
  handout : Handout
  marked : Nat → List Nat

namespace MarkLog

def logged (log : MarkLog) : ZsmCall → Nat → List Nat
  | .evict resetRet zone =>
      if backendRet log.handout.manager resetRet = 0 then Function.update log.marked zone []
      else log.marked
  | .markChunkInvalid location =>
      Function.update log.marked location.zone
        (log.marked location.zone ++ [location.chunkOffset])
  | _ => log.marked

def step (log : MarkLog) (call : ZsmCall) : Option MarkLog :=
  (log.handout.step call).map fun handout => ⟨handout, log.logged call⟩

def init (numZones zoneCap zoneSize chunkSize maxNrActiveZones : Nat)
    (backendType : ZnBackend) : MarkLog where
  handout := Handout.init numZones zoneCap zoneSize chunkSize maxNrActiveZones backendType
  marked := fun _ => []

def Exact (log : MarkLog) : Prop :=
  ∀ zone, (log.handout.manager.state zone).invalid = log.marked zone

def EvictsUnmarked (log : MarkLog) : ZsmCall → Prop
  | .evict _ zone => (log.handout.manager.state zone).invalid = []
  | _ => True

/-- What callers of `zsm_mark_chunk_invalid` owe: each chunk of a zone is marked once
between two resets. -/
def MarksOnce (log : MarkLog) : ZsmCall → Prop
  | .markChunkInvalid location =>
      location.chunkOffset < log.handout.manager.maxZoneChunks ∧
        location.chunkOffset ∉ log.marked location.zone
  | _ => True

def MarksInZone (log : MarkLog) : ZsmCall → Prop
  | .markChunkInvalid location => location.chunkOffset < log.handout.manager.maxZoneChunks
  | _ => True

/-- The queues of invalid chunks are the marks since the last reset, without repeats, and no
longer than the zones. -/
structure Listed (log : MarkLog) : Prop where
  exact : Exact log
  once : ∀ zone, (log.handout.manager.state zone).invalid.Nodup
  fits : ∀ zone, (log.handout.manager.state zone).invalid.length ≤
    log.handout.manager.maxZoneChunks

section Step

variable {log next : MarkLog}

/-- Only evictions and marks touch the queues of invalid chunks. -/
theorem step_invalid {call : ZsmCall} {handout : Handout}
    (taken : log.handout.step call = some handout) (zone : Nat) :
    (handout.manager.state zone).invalid =
      match call with
      | .evict resetRet evicted =>
          if zone = evicted ∧ backendRet log.handout.manager resetRet ≠ 0 then []
          else (log.handout.manager.state zone).invalid
      | .markChunkInvalid location =>
          if zone = location.zone then
            (log.handout.manager.state zone).invalid ++ [location.chunkOffset]
          else (log.handout.manager.state zone).invalid
      | _ => (log.handout.manager.state zone).invalid := by
  cases Handout.step_spec taken with
  | refused => rfl
  | dropped => rfl
  | resumed openRet popped =>
      by_cases same : zone = popped
      · simp [handedOut, same]
      · simp [handedOut, same]
  | opened openRet popped =>
      by_cases same : zone = popped
      · simp [handedOut, same]
      · simp [handedOut, same]
  | returned finishRet pair ret manager member spec =>
      cases spec with
      | reopened | alreadyFull | finished | failed =>
          by_cases same : zone = pair.zone
          · simp [returnedZone, same]
          · simp [returnedZone, same]
  | failedToWrite pair =>
      by_cases same : zone = pair.zone
      · simp [zsmFailedToWrite, same]
      · simp [zsmFailedToWrite, same]
  | evicted resetRet evicted manager inRange full spec =>
      cases spec with
      | alreadyFree free => simp [full] at free
      | reset notFree done =>
          by_cases same : zone = evicted
          · simp [freed, returnedZone, same, done]
          · simp [freed, returnedZone, same]
      | failed notFree failure =>
          by_cases same : zone = evicted
          · simp [same, failure]
          · simp [same]
  | marked location =>
      by_cases same : zone = location.zone
      · simp [zsmMarkChunkInvalid, same]
      · simp [zsmMarkChunkInvalid, same]

theorem Exact.step (exact : Exact log) {call : ZsmCall} (unmarked : log.EvictsUnmarked call)
    (taken : log.step call = some next) : Exact next := by
  obtain ⟨handout, moved, rfl⟩ := Option.map_eq_some_iff.mp taken
  intro zone
  have invalid := step_invalid moved zone
  cases call with
  | evict resetRet evicted =>
      have nothing : (log.handout.manager.state evicted).invalid = [] := unmarked
      have before := exact zone
      simp only [logged] at invalid ⊢
      by_cases same : zone = evicted
      · subst same
        rw [nothing] at before
        split <;> simp [invalid, nothing, ← before]
      · split <;> simp [invalid, same, before]
  | markChunkInvalid location =>
      simp only [logged] at invalid ⊢
      by_cases same : zone = location.zone
      · subst same
        simp [invalid, exact location.zone]
      · simp [invalid, same, exact zone]
  | getActiveZone | returnActiveZone | failedToWrite =>
      exact invalid.trans (exact zone)

/-- An eviction of a zone with a marked chunk leaves the queue or the marks behind. -/
theorem Exact.not_step (exact : Exact log) {resetRet : Int} {zone : Nat}
    (marked : (log.handout.manager.state zone).invalid ≠ [])
    (taken : log.step (.evict resetRet zone) = some next) : ¬ Exact next := by
  obtain ⟨handout, moved, rfl⟩ := Option.map_eq_some_iff.mp taken
  intro later
  have invalid := step_invalid moved zone
  have after := later zone
  have before := exact zone
  by_cases done : backendRet log.handout.manager resetRet = 0
  · simp only [logged, done, if_true, Function.update_self] at after
    simp only [done, ne_eq, not_true_eq_false, and_false, if_false] at invalid
    exact marked (invalid.symm.trans after)
  · simp only [logged, done, if_false] at after
    simp only [done, ne_eq, not_false_eq_true, and_true, if_true] at invalid
    exact marked (before.trans (after.symm.trans invalid))

structure MarksSound (log : MarkLog) : Prop where
  once : ∀ zone, (log.marked zone).Nodup
  inZone : ∀ zone, ∀ chunk ∈ log.marked zone, chunk < log.handout.manager.maxZoneChunks

theorem step_maxZoneChunks {call : ZsmCall} {handout after : Handout}
    (taken : handout.step call = some after) :
    after.manager.maxZoneChunks = handout.manager.maxZoneChunks := by
  cases Handout.step_spec taken with
  | returned finishRet pair ret manager member spec => exact spec.shape.maxZoneChunks
  | evicted resetRet zone manager inRange full spec => exact spec.shape.maxZoneChunks
  | refused | dropped | resumed | opened | failedToWrite | marked => rfl

theorem MarksSound.step (sound : MarksSound log) {call : ZsmCall} (once : log.MarksOnce call)
    (taken : log.step call = some next) : MarksSound next := by
  obtain ⟨handout, moved, rfl⟩ := Option.map_eq_some_iff.mp taken
  have sameMax := step_maxZoneChunks moved
  cases call with
  | evict resetRet evicted =>
      simp only [logged]
      split
      · constructor
        · intro zone
          by_cases same : zone = evicted
          · simp [same]
          · simpa [same] using sound.once zone
        · intro zone chunk member
          by_cases same : zone = evicted
          · simp [same] at member
          · rw [sameMax]
            exact sound.inZone zone chunk (by simpa [same] using member)
      · exact ⟨sound.once, fun zone chunk member => sameMax ▸ sound.inZone zone chunk member⟩
  | markChunkInvalid location =>
      obtain ⟨below, absent⟩ := once
      simp only [logged]
      constructor
      · intro zone
        by_cases same : zone = location.zone
        · subst same
          simpa [List.nodup_append] using ⟨sound.once _, fun other member => by
            intro equal
            subst equal
            exact absent member⟩
        · simpa [same] using sound.once zone
      · intro zone chunk member
        rw [sameMax]
        by_cases same : zone = location.zone
        · subst same
          simp only [Function.update_self, List.mem_append, List.mem_singleton] at member
          rcases member with before | rfl
          · exact sound.inZone _ chunk before
          · exact below
        · exact sound.inZone zone chunk (by simpa [same] using member)
  | getActiveZone | returnActiveZone | failedToWrite =>
      exact ⟨sound.once, fun zone chunk member => sameMax ▸ sound.inZone zone chunk member⟩

theorem MarksSound.length_le (sound : MarksSound log) (zone : Nat) :
    (log.marked zone).length ≤ log.handout.manager.maxZoneChunks := by
  have inside : (log.marked zone).toFinset ⊆ Finset.range log.handout.manager.maxZoneChunks := by
    intro chunk member
    exact Finset.mem_range.mpr (sound.inZone zone chunk (List.mem_toFinset.mp member))
  have atMost := Finset.card_le_card inside
  rwa [List.toFinset_card_of_nodup (sound.once zone), Finset.card_range] at atMost

theorem Exact.listed (exact : Exact log) (sound : MarksSound log) : Listed log where
  exact := exact
  once := fun zone => (exact zone).symm ▸ sound.once zone
  fits := fun zone => (exact zone).symm ▸ sound.length_le zone

/-- From a state whose queues are the marks, a call that breaks the rules for evictions or
marks breaks the queues. -/
theorem Listed.step_iff (listed : Listed log) (sound : MarksSound log) {call : ZsmCall}
    (inZone : log.MarksInZone call) (taken : log.step call = some next) :
    Listed next ↔ log.EvictsUnmarked call ∧ log.MarksOnce call := by
  constructor
  · intro later
    cases call with
    | evict resetRet zone =>
        refine ⟨?_, trivial⟩
        by_contra marked
        exact listed.exact.not_step marked taken later.exact
    | markChunkInvalid location =>
        refine ⟨trivial, inZone, fun already => ?_⟩
        obtain ⟨handout, moved, rfl⟩ := Option.map_eq_some_iff.mp taken
        have invalid := step_invalid moved location.zone
        simp only [if_true] at invalid
        have nodup := later.once location.zone
        rw [invalid, List.nodup_append] at nodup
        rw [← listed.exact location.zone] at already
        exact nodup.2.2 _ already _ (List.mem_singleton_self _) rfl
    | getActiveZone | returnActiveZone | failedToWrite => exact ⟨trivial, trivial⟩
  · intro rules
    exact (listed.exact.step rules.1 taken).listed (sound.step rules.2 taken)

end Step

abbrev Run (allowed : MarkLog → ZsmCall → Prop) (start log : MarkLog) : Prop :=
  Reach step allowed (· = start) log

theorem exact_of_run {start log : MarkLog} (begins : Exact start)
    (run : Run EvictsUnmarked start log) : Exact log :=
  run.invariant (fun _ same => same ▸ begins)
    fun _ _ _ exact unmarked taken => exact.step unmarked taken

theorem marksSound_of_run {start log : MarkLog} (begins : MarksSound start)
    (run : Run MarksOnce start log) : MarksSound log :=
  run.invariant (fun _ same => same ▸ begins)
    fun _ _ _ sound once taken => sound.step once taken

end MarkLog

open MarkLog

/-- A call reports and completes the reset exactly when the reset succeeds and no chunk of
the zone is marked.  In a run, the queues are the marks since the last resets as long as
no zone with a marked chunk is evicted, and no longer; they are without repeats and no
longer than the zones as long as, moreover, no chunk is marked twice between two resets. -/
theorem zsmEvict_faithful (numZones zoneCap zoneSize chunkSize maxNrActiveZones : Nat)
    (backendType : ZnBackend) :
    (∀ resetRet manager zone, (manager.state zone).state = .full →
      (EvictsFaithfully resetRet manager zone ↔
        backendRet manager resetRet = 0 ∧ (manager.state zone).invalid = [])) ∧
    (∀ log, Run EvictsUnmarked
        (init numZones zoneCap zoneSize chunkSize maxNrActiveZones backendType) log →
      Exact log ∧ ∀ resetRet zone next, log.step (.evict resetRet zone) = some next →
        (Exact next ↔ (log.handout.manager.state zone).invalid = [])) ∧
    ∀ log, Run (fun log call => log.EvictsUnmarked call ∧ log.MarksOnce call)
        (init numZones zoneCap zoneSize chunkSize maxNrActiveZones backendType) log →
      Listed log ∧ ∀ call next, log.MarksInZone call → log.step call = some next →
        (Listed next ↔ log.EvictsUnmarked call ∧ log.MarksOnce call) := by
  have begins : Exact (init numZones zoneCap zoneSize chunkSize maxNrActiveZones backendType) :=
    fun _ => rfl
  refine ⟨fun _ _ _ => evictsFaithfully_iff, fun log run => ?_, fun log run => ?_⟩
  · have exact := exact_of_run begins run
    refine ⟨exact, fun resetRet zone next taken => ⟨fun later => ?_, fun nothing => ?_⟩⟩
    · by_contra marked
      exact exact.not_step marked taken later
    · have unmarked : log.EvictsUnmarked (.evict resetRet zone) := nothing
      exact exact.step unmarked taken
  · have exact := exact_of_run begins (run.mono fun _ _ both => both.1)
    have sound : MarksSound log := by
      apply marksSound_of_run _ (run.mono fun _ _ both => both.2)
      exact ⟨fun _ => List.nodup_nil, fun _ _ member => absurd member List.not_mem_nil⟩
    have listed := exact.listed sound
    exact ⟨listed, fun call next inZone taken => listed.step_iff sound inZone taken⟩

def oneChunkWritten : List ZsmCall :=
  [.getActiveZone 0, .returnActiveZone 0 ⟨0, 0, 0, false⟩]

/-- The zone is reset faithfully before its chunk is marked, and lists the chunk once after. -/
theorem zsmEvict_faithful_unmarked :
    (∃ log, runActions MarkLog.step (init 1 4 4 4 1 .zns) oneChunkWritten = some log ∧
      EvictsFaithfully 0 log.handout.manager 0 ∧
      ∃ next, log.step (.evict 0 0) = some next ∧ Exact next) ∧
    ∃ log, runActions MarkLog.step (init 1 4 4 4 1 .zns)
        (oneChunkWritten ++ [.markChunkInvalid ⟨0, 0, 0, false⟩]) = some log ∧
      log.marked 0 = [0] ∧ Listed log := by
  obtain ⟨perCall, runs, orderly⟩ := zsmEvict_faithful 1 4 4 4 1 .zns
  constructor
  · obtain ⟨log, ran, full, unmarked, next, taken⟩ :
        ∃ log, runActions MarkLog.step (init 1 4 4 4 1 .zns) oneChunkWritten = some log ∧
          (log.handout.manager.state 0).state = .full ∧
          (log.handout.manager.state 0).invalid = [] ∧
          ∃ next, log.step (.evict 0 0) = some next :=
      ⟨_, rfl, rfl, rfl, _, rfl⟩
    have reached : Run EvictsUnmarked (init 1 4 4 4 1 .zns) log :=
      Reach.of_runActions oneChunkWritten (Reach.start rfl)
        ⟨trivial, fun _ _ => ⟨trivial, fun _ _ => trivial⟩⟩ ran
    exact ⟨log, ran, (perCall 0 _ 0 full).mpr ⟨backendRet_zero _, unmarked⟩, next, taken,
      ((runs log reached).2 0 0 next taken).mpr unmarked⟩
  · obtain ⟨before, written⟩ : ∃ before, runActions MarkLog.step (init 1 4 4 4 1 .zns)
        oneChunkWritten = some before := ⟨_, rfl⟩
    have reached : Run (fun log call => log.EvictsUnmarked call ∧ log.MarksOnce call)
        (init 1 4 4 4 1 .zns) before :=
      Reach.of_runActions oneChunkWritten (Reach.start rfl)
        ⟨⟨trivial, trivial⟩, fun _ _ => ⟨⟨trivial, trivial⟩, fun _ _ => trivial⟩⟩ written
    cases Option.some.inj written
    refine ⟨_, rfl, rfl, (orderly _ (reached.step (.markChunkInvalid ⟨0, 0, 0, false⟩)
      ⟨trivial, ?_, ?_⟩ rfl)).1⟩
    · decide
    · decide

/-- A chunk marked before a successful reset is still listed after it. -/
theorem zsmEvict_keeps_marks :
    ∃ log, runActions MarkLog.step (init 1 4 4 4 1 .zns)
        (oneChunkWritten ++ [.markChunkInvalid ⟨0, 0, 0, false⟩]) = some log ∧
      (log.handout.manager.state 0).state = .full ∧
      ¬ EvictsFaithfully 0 log.handout.manager 0 ∧
      ∃ next, log.step (.evict 0 0) = some next ∧ ¬ Exact next := by
  refine ⟨_, rfl, rfl, fun faithful => ?_, _, rfl, fun exact => ?_⟩
  · have wiped := congrArg (fun after => (after.state 0).invalid) (faithful.1 rfl).2
    exact absurd wiped (by decide)
  · exact absurd (exact 0) (by decide)

end ZNCache
