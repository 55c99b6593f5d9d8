import ZNCache.ZoneStateManagerRuns

/-!
# What `zsm_get_active_zone` answers

The answers against the states of the zones, and the locations it hands out against
the capacity of a zone, in every run of the manager in which the libzbd commands
succeed.
-/

set_option autoImplicit false

namespace ZNCache

open ZoneStateManager Transition

namespace Handout

structure Counted (handout : Handout) : Prop where
  partition : ZonePartition handout.manager handout.outstanding
  entries : ZoneEntries handout.manager
  small : handout.manager.numZones < 2 ^ 32

theorem Counted.init {numZones : Nat} (small : numZones < 2 ^ 32)
    (zoneCap zoneSize chunkSize maxNrActiveZones : Nat) (backendType : ZnBackend) :
    Counted (init numZones zoneCap zoneSize chunkSize maxNrActiveZones backendType) where
  partition := ZonePartition.init _ _ _ _ _ _
  entries := by constructor <;> simp [Handout.init, zsmInit]
  small := small

variable {handout after : Handout}

theorem Counted.answer (counted : Counted handout) :
    GetActiveZoneSpec 0 handout.manager (zsmGetActiveZone 0 handout.manager) ∧
      (zsmGetActiveZone 0 handout.manager).ret ≠ .error := by
  have answer := counted.partition.getActiveZone_spec counted.small 0
  refine ⟨answer, ?_⟩
  generalize zsmGetActiveZone 0 handout.manager = outcome at answer
  cases answer with
  | evict | retry | success => exact GetActiveZone.noConfusion
  | error _ _ _ _ failed => exact absurd (backendRet_zero _) failed

theorem Counted.getActiveZone (counted : Counted handout)
    (taken : handout.step (.getActiveZone 0) = some after) : Counted after := by
  obtain ⟨answer, noError⟩ := counted.answer
  simp only [step, call] at taken
  generalize zsmGetActiveZone 0 handout.manager = outcome at answer noError taken
  cases answer with
  | evict | retry =>
      cases Option.some.inj taken
      exact counted
  | error => exact absurd rfl noError
  | success zone offset active free drawn =>
      cases Option.some.inj taken
      refine ⟨counted.partition.handOut counted.entries counted.small drawn,
        drawn.zoneEntries counted.entries fun someActive => ?_, counted.small⟩
      cases drawn with
      | activeQueue head => exact ((counted.partition.activeIff zone).mp (by simp [head])).2
      | freeQueue noActive => exact absurd noActive someActive

theorem Counted.step (counted : Counted handout) {call : ZsmCall}
    (success : call.commandRet = 0) (taken : handout.step call = some after) :
    Counted after := by
  obtain ⟨partition, entries, small⟩ := counted
  cases call with
  | getActiveZone openRet =>
      cases success
      exact Counted.getActiveZone ⟨partition, entries, small⟩ taken
  | returnActiveZone finishRet pair =>
      cases success
      cases step_spec taken with
      | returned _ _ ret manager member spec =>
          rw [← Multiset.cons_erase member] at partition
          have writing := ((partition.heldIff pair.zone).mp (by simp)).2
          have done := backendRet_zero handout.manager
          refine ⟨spec.partition partition done, spec.zoneEntries entries writing done, ?_⟩
          rw [spec.shape.numZones]
          exact small
  | failedToWrite pair =>
      cases step_spec taken with
      | failedToWrite _ member =>
          rw [← Multiset.cons_erase member] at partition
          have writing := ((partition.heldIff pair.zone).mp (by simp)).2
          refine ⟨partition.putBack _, ZoneEntries.congr (entries.setZone pair.zone
            (returnedZone (handout.manager.state pair.zone) .active _) (entries.zoneId _)
            (entries.offsetSmall _) fun _ => entries.offsetRoom _ (.inr writing)) rfl rfl, small⟩
  | evict resetRet zone =>
      cases success
      cases step_spec taken with
      | evicted _ _ manager inRange full spec =>
          refine ⟨spec.partition partition inRange full (backendRet_zero _),
            spec.zoneEntries entries, ?_⟩
          rw [spec.shape.numZones]
          exact small
  | markChunkInvalid location =>
      cases step_spec taken with
      | marked _ inRange =>
          exact ⟨partition.setInvalid _ _, entries.setZone _ _ (entries.zoneId _)
            (entries.offsetSmall _) (entries.offsetRoom _), small⟩

theorem step_shape {call : ZsmCall} (taken : handout.step call = some after) :
    SameShape handout.manager after.manager := by
  cases step_spec taken with
  | refused | dropped | resumed | opened | failedToWrite | marked => exact ⟨rfl, rfl, rfl, rfl⟩
  | returned _ _ _ _ _ spec => exact spec.shape
  | evicted _ _ _ _ _ spec => exact spec.shape

section Runs

variable {numZones zoneCap zoneSize chunkSize maxNrActiveZones : Nat} {backendType : ZnBackend}

theorem Run.counted (small : numZones < 2 ^ 32)
    (run : Run (init numZones zoneCap zoneSize chunkSize maxNrActiveZones backendType) handout) :
    Counted handout ∧
      SameShape (zsmInit numZones zoneCap zoneSize chunkSize maxNrActiveZones backendType)
        handout.manager := by
  induction run with
  | start begins =>
      cases begins
      exact ⟨Counted.init small _ _ _ _ _, rfl, rfl, rfl, rfl⟩
  | step call _ success taken ih =>
      exact ⟨ih.1.step success taken, ih.2.trans (step_shape taken)⟩

/-! ## The answers -/

theorem Counted.allFull_iff (counted : Counted handout) :
    (∀ zone < handout.manager.numZones, (handout.manager.state zone).state = .full) ↔
      handout.manager.active = [] ∧ handout.manager.free = [] ∧ handout.outstanding = 0 := by
  obtain ⟨partition, _, _⟩ := counted
  constructor
  · intro full
    have other : ∀ zone condition, condition ≠ .full →
        ¬ (zone < handout.manager.numZones ∧ (handout.manager.state zone).state = condition) := by
      intro zone condition notFull given
      obtain ⟨below, here⟩ := given
      exact notFull (here.symm.trans (full zone below))
    refine ⟨List.eq_nil_iff_forall_not_mem.mpr fun zone member => ?_,
      List.eq_nil_iff_forall_not_mem.mpr fun zone member => ?_,
      Multiset.eq_zero_of_forall_notMem fun pair member => ?_⟩
    · exact other zone .active (by decide) ((partition.activeIff zone).mp member)
    · exact other zone .free (by decide) ((partition.freeIff zone).mp member)
    · exact other pair.zone .writeOccuring (by decide)
        ((partition.heldIff pair.zone).mp (Multiset.mem_map_of_mem ZnPair.zone member))
  · intro given zone below
    obtain ⟨noActive, noFree, noneHeld⟩ := given
    rw [noneHeld] at partition
    exact (partition.allFull noActive noFree below).2

theorem Counted.evict_iff (counted : Counted handout) :
    ((zsmGetActiveZone 0 handout.manager).ret = .evict ↔
        handout.manager.active = [] ∧ handout.manager.free = [] ∧ handout.outstanding = 0) ∧
      ((zsmGetActiveZone 0 handout.manager).ret = .evict →
        (zsmGetActiveZone 0 handout.manager).state = handout.manager) := by
  have inPlay := counted.partition.activeZones_eq counted.small
  obtain ⟨answer, noError⟩ := counted.answer
  generalize zsmGetActiveZone 0 handout.manager = outcome at answer noError
  cases answer with
  | evict noActive noFree noWriter =>
      have noneHeld : handout.outstanding = 0 := by
        rw [← Multiset.card_eq_zero]
        omega
      exact ⟨iff_of_true rfl ⟨noActive, noFree, noneHeld⟩, fun _ => rfl⟩
  | error => exact absurd rfl noError
  | retry noActive _ busy =>
      refine ⟨iff_of_false GetActiveZone.noConfusion ?_, fun _ => rfl⟩
      intro also
      obtain ⟨_, noFree, noneHeld⟩ := also
      rw [noActive, noneHeld] at inPlay
      exact busy ⟨inPlay, noFree⟩
  | success zone offset active free drawn =>
      refine ⟨iff_of_false GetActiveZone.noConfusion ?_, GetActiveZone.noConfusion⟩
      intro also
      obtain ⟨noActive, noFree, _⟩ := also
      cases drawn with
      | activeQueue head => simp [noActive] at head
      | freeQueue _ _ head => simp [noFree] at head

/-- A caller is told to wait only for a pair that will be given back. -/
theorem Counted.retry_waits (counted : Counted handout)
    (someActive : 1 ≤ handout.manager.maxNrActiveZones)
    (told : (zsmGetActiveZone 0 handout.manager).ret = .retry) :
    handout.outstanding ≠ 0 ∧ (zsmGetActiveZone 0 handout.manager).state = handout.manager := by
  have inPlay := counted.partition.activeZones_eq counted.small
  have answer := counted.answer.1
  generalize zsmGetActiveZone 0 handout.manager = outcome at answer told
  cases answer with
  | evict | error | success => cases told
  | retry noActive blocked busy =>
      refine ⟨fun noneHeld => ?_, rfl⟩
      rw [noActive, noneHeld, List.length_nil, Multiset.card_zero] at inPlay
      rcases blocked with noFree | full
      · exact busy ⟨inPlay, noFree⟩
      · omega

theorem Counted.success_iff (counted : Counted handout) :
    (∃ pair, (zsmGetActiveZone 0 handout.manager).ret = .success pair) ↔
      handout.manager.active ≠ [] ∨ handout.manager.free ≠ [] ∧
        handout.manager.activeZones < handout.manager.maxNrActiveZones := by
  obtain ⟨answer, noError⟩ := counted.answer
  generalize zsmGetActiveZone 0 handout.manager = outcome at answer noError
  cases answer with
  | evict noActive noFree => simp [noActive, noFree]
  | error => exact absurd rfl noError
  | retry noActive blocked =>
      have noRoom : handout.manager.free ≠ [] →
          ¬ handout.manager.activeZones < handout.manager.maxNrActiveZones :=
        fun someFree => Nat.not_lt.mpr (blocked.resolve_left someFree)
      simpa [noActive] using noRoom
  | success zone offset active free drawn =>
      refine iff_of_true ⟨_, rfl⟩ ?_
      cases drawn with
      | activeQueue head => exact .inl (by simp [head])
      | freeQueue _ _ head _ room => exact .inr ⟨by simp [head], room⟩

/-- An answer says what a caller can wait for, and changes nothing unless it hands out a
zone. -/
theorem getActiveZone_answers (small : numZones < 2 ^ 32) (someActive : 1 ≤ maxNrActiveZones)
    (run : Run (init numZones zoneCap zoneSize chunkSize maxNrActiveZones backendType) handout) :
    ((zsmGetActiveZone 0 handout.manager).ret = .evict ↔
        ∀ zone < numZones, (handout.manager.state zone).state = .full) ∧
      ((zsmGetActiveZone 0 handout.manager).ret = .retry → handout.outstanding ≠ 0) ∧
      ((∃ pair, (zsmGetActiveZone 0 handout.manager).ret = .success pair) ↔
        (∃ zone < numZones, (handout.manager.state zone).state = .active) ∨
          (∃ zone < numZones, (handout.manager.state zone).state = .free) ∧
            ((Finset.range numZones).filter fun zone =>
              (handout.manager.state zone).state = .active ∨
                (handout.manager.state zone).state = .writeOccuring).card < maxNrActiveZones) ∧
      (zsmGetActiveZone 0 handout.manager).ret ≠ .error ∧
      ((zsmGetActiveZone 0 handout.manager).ret = .evict ∨
        (zsmGetActiveZone 0 handout.manager).ret = .retry →
        (zsmGetActiveZone 0 handout.manager).state = handout.manager) := by
  obtain ⟨counted, shape⟩ := run.counted small
  have sameZones : handout.manager.numZones = numZones := shape.numZones
  have sameMax : handout.manager.maxNrActiveZones = maxNrActiveZones := shape.maxNrActiveZones
  have inPlay := counted.partition.activeZones_eq counted.small
  have success := counted.success_iff
  rw [inPlay, ← counted.partition.inPlay_card, sameZones, sameMax] at success
  have someOf : ∀ queue condition,
      (∀ zone, zone ∈ queue ↔ zone < numZones ∧ (handout.manager.state zone).state = condition) →
      (queue ≠ [] ↔ ∃ zone < numZones, (handout.manager.state zone).state = condition) := by
    intro queue condition lists
    rw [← exists_congr lists]
    constructor
    · exact List.exists_mem_of_ne_nil queue
    · intro given
      obtain ⟨_, member⟩ := given
      exact List.ne_nil_of_mem member
  rw [someOf _ .active (sameZones ▸ counted.partition.activeIff),
    someOf _ .free (sameZones ▸ counted.partition.freeIff)] at success
  have allFull := counted.allFull_iff
  rw [sameZones] at allFull
  obtain ⟨evicts, sameEvict⟩ := counted.evict_iff
  have waits := counted.retry_waits (sameMax ▸ someActive)
  refine ⟨evicts.trans allFull.symm, fun told => (waits told).1, success, counted.answer.2, ?_⟩
  intro either
  rcases either with told | told
  · exact sameEvict told
  · exact (waits told).2

/-- With one of two zones handed out and no other to be opened, the caller waits. -/
theorem getActiveZone_answers_waits :
    ∃ handout, runActions step (init 2 8 8 4 1 .zns) [.getActiveZone 0] = some handout ∧
      (zsmGetActiveZone 0 handout.manager).ret = .retry ∧ handout.outstanding ≠ 0 := by
  cases ran : runActions step (init 2 8 8 4 1 .zns) [.getActiveZone 0] with
  | none => cases ran
  | some handout =>
      have reached : Run (init 2 8 8 4 1 .zns) handout :=
        Reach.of_runActions [.getActiveZone 0] (Reach.start rfl) ⟨rfl, fun _ _ => trivial⟩ ran
      obtain ⟨_, waits, _⟩ := getActiveZone_answers (by decide) (by decide) reached
      have told : (zsmGetActiveZone 0 handout.manager).ret = .retry := by
        cases Option.some.inj ran
        rfl
      exact ⟨handout, rfl, told, waits told⟩

/-! ## The locations -/

/-- Every location that the call hands out lies within the capacity of its zone. -/
def HandsFitting (chunkSize zoneCap : Nat) (handout : Handout) : Prop :=
  ∀ pair, (zsmGetActiveZone 0 handout.manager).ret = .success pair →
    (pair.chunkOffset + 1) * chunkSize ≤ zoneCap

theorem Counted.handsFitting (counted : Counted handout)
    (someChunk : 0 < handout.manager.maxZoneChunks)
    (holds : handout.manager.maxZoneChunks * chunkSize ≤ zoneCap) :
    HandsFitting chunkSize zoneCap handout := by
  intro pair handed
  have answer := counted.answer.1
  generalize zsmGetActiveZone 0 handout.manager = outcome at answer handed
  cases answer with
  | evict | retry | error => cases handed
  | success zone offset active free drawn =>
      cases GetActiveZone.success.inj handed
      have room : offset < handout.manager.maxZoneChunks := by
        cases drawn with
        | activeQueue head _ resumed =>
            have isActive := ((counted.partition.activeIff zone).mp (by simp [head])).2
            rw [resumed]
            exact counted.entries.offsetRoom zone (.inl isActive) someChunk
        | freeQueue _ _ _ restart => rwa [restart]
      exact (Nat.mul_le_mul_right chunkSize room).trans holds

/-- Before a zone of no chunks is found full its first chunk has been handed out. -/
theorem init_handsFirst (someZone : 1 ≤ numZones) (someActive : 1 ≤ maxNrActiveZones) :
    (zsmGetActiveZone 0 (init numZones zoneCap zoneSize chunkSize maxNrActiveZones
      backendType).manager).ret = .success ⟨0, 0, 0, false⟩ := by
  obtain ⟨others, rfl⟩ := Nat.exists_eq_add_of_le' someZone
  let manager := zsmInit (others + 1) zoneCap zoneSize chunkSize maxNrActiveZones backendType
  have head : manager.free = 0 :: (List.range others).map Nat.succ := List.range_succ_eq_map
  have opened := @zsmGetActiveZone_opened 0 manager _ _ rfl head someActive (backendRet_zero _)
  exact congrArg Outcome.ret opened

theorem Counted.handsNothing (counted : Counted handout)
    (none : handout.manager.numZones = 0 ∨ handout.manager.maxNrActiveZones = 0) (pair : ZnPair) :
    (zsmGetActiveZone 0 handout.manager).ret ≠ .success pair := by
  intro handed
  rcases counted.success_iff.mp ⟨pair, handed⟩ with someActive | ⟨someFree, room⟩
  · have within := counted.partition.within
    have total := counted.partition.total_le
    have positive := List.length_pos_of_ne_nil someActive
    omega
  · obtain ⟨zone, member⟩ := List.exists_mem_of_ne_nil _ someFree
    have below := ((counted.partition.freeIff zone).mp member).1
    omega

/-- A chunk fits into a zone, or no zone can be handed out. -/
theorem handsFitting_iff (small : numZones < 2 ^ 32) (someSize : 1 ≤ chunkSize) :
    (∀ handout, Run (init numZones zoneCap zoneSize chunkSize maxNrActiveZones backendType)
        handout → HandsFitting chunkSize zoneCap handout) ↔
      chunkSize ≤ zoneCap ∨ numZones = 0 ∨ maxNrActiveZones = 0 := by
  constructor
  · intro fits
    by_contra not
    have first := @init_handsFirst numZones zoneCap zoneSize chunkSize maxNrActiveZones
      backendType (by omega) (by omega)
    have within := fits _ (Reach.start rfl) _ first
    rw [Nat.zero_add, Nat.one_mul] at within
    exact not (.inl within)
  · intro holds handout run
    obtain ⟨counted, shape⟩ := run.counted small
    have sameChunks : handout.manager.maxZoneChunks = zoneCap / chunkSize := shape.maxZoneChunks
    have sameZones : handout.manager.numZones = numZones := shape.numZones
    have sameMax : handout.manager.maxNrActiveZones = maxNrActiveZones := shape.maxNrActiveZones
    rcases holds with fits | none
    · apply counted.handsFitting
      · rw [sameChunks]
        exact Nat.div_pos fits someSize
      · rw [sameChunks]
        exact Nat.div_mul_le_self zoneCap chunkSize
    · rw [← sameZones, ← sameMax] at none
      exact fun pair handed => absurd handed (counted.handsNothing none pair)

/-- A chunk of 8 bytes is handed out in zones that hold 4, and to return it for a failed
write fails the assertion of `zsm_failed_to_write`. -/
theorem handsFitting_smallZones :
    ¬ (∀ handout, Run (init 1 4 4 8 1 .zns) handout → HandsFitting 8 4 handout) ∧
      ∃ handout, Run (init 1 4 4 8 1 .zns) handout ∧
        ⟨0, 0, 0, false⟩ ∈ handout.outstanding ∧
        (zsmFailedToWrite handout.manager ⟨0, 0, 0, false⟩).asserts = false := by
  constructor
  · intro fits
    have within := fits _ (Reach.start rfl) ⟨0, 0, 0, false⟩ rfl
    revert within
    decide
  · cases taken : (init 1 4 4 8 1 .zns).step (.getActiveZone 0) with
    | none => cases taken
    | some handout =>
        refine ⟨handout, Reach.step (.getActiveZone 0) (Reach.start rfl) rfl taken, ?_, ?_⟩
        · cases Option.some.inj taken
          decide
        · cases Option.some.inj taken
          rfl

/-- Two chunks of 4 bytes fit into a zone of 10: once the first was written, the next one to
be handed out is the last of its zone, and ends within it. -/
theorem handsFitting_roundedDown :
    ∃ handout pair, runActions step (init 2 10 16 4 1 .zns)
        [.getActiveZone 0, .returnActiveZone 0 ⟨0, 0, 0, false⟩] = some handout ∧
      (zsmGetActiveZone 0 handout.manager).ret = .success pair ∧ pair.chunkOffset = 1 ∧
      (pair.chunkOffset + 1) * 4 ≤ 10 := by
  cases ran : runActions step (init 2 10 16 4 1 .zns)
      [.getActiveZone 0, .returnActiveZone 0 ⟨0, 0, 0, false⟩] with
  | none => cases ran
  | some handout =>
      have reached : Run (init 2 10 16 4 1 .zns) handout :=
        Reach.of_runActions _ (Reach.start rfl) (by decide) ran
      have fits := (handsFitting_iff (by decide) (by decide)).mpr (.inl (by decide)) _ reached
      obtain ⟨pair, handed, last⟩ : ∃ pair,
          (zsmGetActiveZone 0 handout.manager).ret = .success pair ∧ pair.chunkOffset = 1 := by
        cases Option.some.inj ran
        exact ⟨⟨0, 1, 0, false⟩, rfl, rfl⟩
      exact ⟨handout, pair, rfl, handed, last, fits pair handed⟩

end Runs

end Handout

end ZNCache
