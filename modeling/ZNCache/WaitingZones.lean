import ZNCache.Placement

/-!
# Zones that wait for their next chunk

What every run of the manager keeps, whatever the libzbd commands return: no zone is queued
or handed out twice, and a zone in the active queue stays at its offset until it is handed
out again, which it is when its turn comes.
-/

set_option autoImplicit false

namespace ZNCache

open ZoneStateManager Transition PlacementLog

namespace Handout

structure Uncrossed (handout : Handout) : Prop extends KeptOnce handout where
  small : handout.manager.numZones < 2 ^ 32
  held : ∀ pair ∈ handout.outstanding,
    pair.chunkOffset = (handout.manager.state pair.zone).chunkOffset
  writes : handout.manager.writesOccurring = handout.outstanding.card

theorem Uncrossed.init {numZones zoneCap zoneSize chunkSize maxNrActiveZones : Nat}
    {backendType : ZnBackend} (small : numZones < 2 ^ 32) :
    Uncrossed (init numZones zoneCap zoneSize chunkSize maxNrActiveZones backendType) where
  toKeptOnce := KeptOnce.init
  small := small
  held := fun _ member => absurd member (Multiset.notMem_zero _)
  writes := rfl

section Step

variable {handout next : Handout}

theorem Uncrossed.handOut (uncrossed : Uncrossed handout) {zone offset : Nat}
    {active free : List Nat}
    (drawn : (handout.manager.free : Multiset Nat) + handout.manager.active =
      zone ::ₘ ((free : Multiset Nat) + active)) :
    Uncrossed ⟨handedOut handout.manager zone offset active free,
      ⟨(handout.manager.state zone).zoneId, offset, 0, false⟩ ::ₘ handout.outstanding⟩ := by
  rw [uncrossed.zoneIds zone]
  obtain ⟨_, notHeld⟩ := uncrossed.apart_of_drawn drawn
  refine ⟨uncrossed.toKeptOnce.handOut drawn, uncrossed.small, ?_, ?_⟩
  · intro pair member
    rcases Multiset.mem_cons.mp member with rfl | inHeld
    · simp [handedOut]
    · have apart : pair.zone ≠ zone := notHeld pair inHeld
      simpa [handedOut, apart] using uncrossed.held pair inHeld
  · simp [handedOut, uncrossed.writes]

theorem Uncrossed.giveBack (uncrossed : Uncrossed handout) {pair : ZnPair}
    (member : pair ∈ handout.outstanding) {manager : ZoneStateManager}
    (keeps : KeptOnce ⟨manager, handout.outstanding.erase pair⟩)
    (sameNumZones : manager.numZones = handout.manager.numZones)
    (others : ∀ zone, zone ≠ pair.zone → manager.state zone = handout.manager.state zone)
    (writes : manager.writesOccurring = handout.manager.writesOccurring - 1) :
    Uncrossed ⟨manager, handout.outstanding.erase pair⟩ := by
  obtain ⟨_, _, notHeld⟩ := uncrossed.apart_of_held member
  refine ⟨keeps, sameNumZones ▸ uncrossed.small, ?_, ?_⟩
  · intro other inHeld
    rw [others other.zone (notHeld other inHeld)]
    exact uncrossed.held other (Multiset.mem_of_mem_erase inHeld)
  · have positive := Multiset.card_pos_iff_exists_mem.mpr ⟨pair, member⟩
    rw [writes, uncrossed.writes, Multiset.card_erase_of_mem member, Nat.pred_eq_sub_one]
    omega

theorem Uncrossed.returned (uncrossed : Uncrossed handout) {pair : ZnPair}
    (member : pair ∈ handout.outstanding) {finishRet ret : Int} {manager : ZoneStateManager}
    (spec : ReturnSpec finishRet handout.manager pair.zone ret manager) :
    Uncrossed ⟨manager, handout.outstanding.erase pair⟩ := by
  cases spec with
  | reopened offset =>
      exact uncrossed.giveBack member (uncrossed.toKeptOnce.reopen member) rfl
        (fun zone apart => by simp [apart]) rfl
  | alreadyFull last full =>
      have inKept : pair.zone ∈ kept handout := mem_kept.mpr (.inr ⟨pair, member, rfl⟩)
      exact absurd full (uncrossed.notFull pair.zone inKept)
  | finished =>
      exact uncrossed.giveBack member (uncrossed.toKeptOnce.leave member rfl) rfl
        (fun zone apart => by simp [apart]) rfl
  | failed =>
      exact uncrossed.giveBack member (uncrossed.toKeptOnce.leave member rfl) rfl
        (fun zone apart => by simp [apart]) rfl

theorem Uncrossed.setInvalid (uncrossed : Uncrossed handout) (zone : Nat)
    (invalid : List Nat) :
    Uncrossed ⟨handout.manager.setZone zone { handout.manager.state zone with invalid := invalid },
      handout.outstanding⟩ := by
  refine ⟨uncrossed.toKeptOnce.setInvalid zone invalid, uncrossed.small, ?_, uncrossed.writes⟩
  intro pair member
  have offset := uncrossed.held pair member
  by_cases same : pair.zone = zone
  · simpa [same] using offset
  · simpa [same] using offset

theorem Uncrossed.step (uncrossed : Uncrossed handout) {call : ZsmCall}
    (taken : handout.step call = some next) : Uncrossed next := by
  cases Handout.step_spec taken with
  | refused => exact uncrossed
  | dropped openRet zone rest nothing head =>
      exact ⟨uncrossed.toKeptOnce.drop head, uncrossed.small, uncrossed.held, uncrossed.writes⟩
  | resumed openRet zone active handed head =>
      apply uncrossed.handOut
      rw [head, ← Multiset.cons_coe, Multiset.add_cons]
  | opened openRet zone rest handed noActive head =>
      apply uncrossed.handOut
      rw [head, noActive, ← Multiset.cons_coe, Multiset.cons_add]
  | returned finishRet pair ret manager member spec => exact uncrossed.returned member spec
  | failedToWrite pair member =>
      exact uncrossed.giveBack member (uncrossed.toKeptOnce.reopen member) rfl
        (fun zone apart => by simp [zsmFailedToWrite_state, apart]) rfl
  | evicted resetRet zone manager inRange full spec =>
      cases spec with
      | alreadyFree free => simp [full] at free
      | reset =>
          refine ⟨uncrossed.toKeptOnce.reset inRange full, uncrossed.small, ?_, uncrossed.writes⟩
          intro pair member
          have apart : pair.zone ≠ zone :=
            (uncrossed.apart_of_full full).2.2 pair member
          simpa [freed, apart] using uncrossed.held pair member
      | failed => exact uncrossed.setInvalid zone []
  | marked location => exact uncrossed.setInvalid location.zone _

theorem Uncrossed.run (uncrossed : Uncrossed handout) {calls : List ZsmCall}
    (ran : runActions Handout.step handout calls = some next) : Uncrossed next :=
  runActions_invariant (fun _ _ _ before taken => before.step taken) uncrossed ran

/-! ## Waiting -/

def NotHanding (zone : Nat) (handout : Handout) (call : ZsmCall) : Prop :=
  ∀ openRet pair, call = .getActiveZone openRet →
    (zsmGetActiveZone openRet handout.manager).ret = .success pair → pair.zone ≠ zone

/-- The zone is in the active queue at the offset. -/
structure Waits (zone offset : Nat) (handout : Handout) : Prop extends Uncrossed handout where
  queued : zone ∈ handout.manager.active
  offset : (handout.manager.state zone).chunkOffset = offset

variable {zone offset : Nat}

theorem Waits.step (waits : Waits zone offset handout) {call : ZsmCall}
    (notHanding : NotHanding zone handout call) (taken : handout.step call = some next) :
    Waits zone offset next := by
  have uncrossed := waits.toUncrossed.step taken
  obtain ⟨before, queued, here⟩ := waits
  cases Handout.step_spec taken with
  | refused => exact ⟨uncrossed, queued, here⟩
  | dropped => exact ⟨uncrossed, queued, here⟩
  | resumed openRet other active handed head =>
      have apart : other ≠ zone := fun same =>
        notHanding openRet _ rfl handed ((before.zoneIds other).trans same)
      rw [head] at queued
      refine ⟨uncrossed, (List.mem_cons.mp queued).resolve_left (Ne.symm apart), ?_⟩
      simpa [handedOut, apart.symm] using here
  | opened openRet other rest handed noActive =>
      rw [noActive] at queued
      cases queued
  | returned finishRet pair ret manager member spec =>
      have apart : zone ≠ pair.zone := fun same =>
        (before.apart_of_held member).2.1 (same ▸ queued)
      refine ⟨uncrossed, ?_, ?_⟩
      · cases spec with
        | reopened => exact List.mem_append_left _ queued
        | alreadyFull => exact queued
        | finished => exact queued
        | failed => exact queued
      · cases spec with
        | reopened => simpa [apart] using here
        | alreadyFull => simpa [apart] using here
        | finished => simpa [apart] using here
        | failed => simpa [apart] using here
  | failedToWrite pair member =>
      have apart : zone ≠ pair.zone := fun same =>
        (before.apart_of_held member).2.1 (same ▸ queued)
      refine ⟨uncrossed, List.mem_append_left _ queued, ?_⟩
      simpa [zsmFailedToWrite_state, apart] using here
  | evicted resetRet other manager inRange full spec =>
      have apart : zone ≠ other := fun same =>
        (before.apart_of_full full).2.1 (same ▸ queued)
      refine ⟨uncrossed, ?_, ?_⟩
      · cases spec with
        | alreadyFree => exact queued
        | reset => exact queued
        | failed => exact queued
      · cases spec with
        | alreadyFree => exact here
        | reset => simpa [freed, apart] using here
        | failed => simpa [apart] using here
  | marked location =>
      refine ⟨uncrossed, queued, ?_⟩
      by_cases same : zone = location.zone
      · subst same
        simpa [zsmMarkChunkInvalid] using here
      · simpa [zsmMarkChunkInvalid, same] using here

theorem Waits.run (waits : Waits zone offset handout) {calls : List ZsmCall}
    (ran : runActions Handout.step handout calls = some next)
    (along : AllowedAlong Handout.step (NotHanding zone) handout calls) :
    Waits zone offset next :=
  along.invariant (fun _ _ _ before notHanding taken => before.step notHanding taken) waits ran

theorem Waits.handed (waits : Waits zone offset handout) {openRet : Int} {pair : ZnPair}
    (handed : (zsmGetActiveZone openRet handout.manager).ret = .success pair)
    (same : pair.zone = zone) : pair.chunkOffset = offset := by
  have answer := zsmGetActiveZone_answer openRet handout.manager
  rw [handed] at answer
  generalize (zsmGetActiveZone openRet handout.manager).state = after at answer
  cases answer with
  | refused _ nothing => simp [GetActiveZone.hands] at nothing
  | dropped _ nothing => simp [GetActiveZone.hands] at nothing
  | resumed other active head =>
      have own : other = zone := (waits.zoneIds other).symm.trans same
      subst own
      exact waits.offset
  | opened other rest noActive =>
      have queued := waits.queued
      rw [noActive] at queued
      cases queued

theorem Uncrossed.pops (uncrossed : Uncrossed handout) {rest : List Nat}
    (head : handout.manager.active = zone :: rest) :
    zsmGetActiveZone 0 handout.manager = popActive handout.manager := by
  have bound : handout.manager.active.length + handout.outstanding.card ≤
      handout.manager.numZones := by
    have card := Multiset.card_le_card (Multiset.le_iff_subset uncrossed.once |>.mpr
      fun zone member => Multiset.mem_range.mpr (uncrossed.inRange zone member))
    simp only [kept, Multiset.card_add, Multiset.coe_card, Multiset.card_map,
      Multiset.card_range] at card
    omega
  have some : ¬ (handout.manager.activeZones = 0 ∧ handout.manager.free.length = 0) := by
    intro none
    have total := none.1
    have small := uncrossed.small
    rw [activeZones, uncrossed.writes, head] at total
    rw [head] at bound
    simp only [List.length_cons] at total bound
    unfold u32 at total
    omega
  simp only [zsmGetActiveZone]
  rw [if_neg some, if_neg (by simp [head])]

/-- By induction on the zones in front of it: a zone that waits is handed out when those
are. -/
theorem Waits.comes (front : List Nat) :
    ∀ {handout : Handout} {rest : List Nat}, Waits zone offset handout →
      handout.manager.active = front ++ zone :: rest →
      ∃ calls last pair, runActions Handout.step handout calls = some last ∧
        AllowedAlong Handout.step (NotHanding zone) handout calls ∧
        (zsmGetActiveZone 0 last.manager).ret = .success pair ∧ pair.zone = zone := by
  induction front with
  | nil =>
      intro handout rest waits head
      have popped := waits.pops head
      rw [popActive_cons head] at popped
      exact ⟨[], handout, _, rfl, trivial, by rw [popped], waits.zoneIds zone⟩
  | cons first front ih =>
      intro handout rest waits head
      have popped := waits.pops head
      rw [popActive_cons head] at popped
      have apart : first ≠ zone := by
        have nodup : handout.manager.active.Nodup := by
          have once := waits.once
          rw [kept, Multiset.nodup_add, Multiset.nodup_add] at once
          exact Multiset.coe_nodup.mp once.1.2.1
        rw [head, List.cons_append, List.nodup_cons] at nodup
        intro same
        exact nodup.1 (by simp [same])
      have notHanding : NotHanding zone handout (.getActiveZone 0) := by
        intro openRet pair called handed
        cases called
        rw [popped] at handed
        cases handed
        exact fun same => apart ((waits.zoneIds first).symm.trans same)
      have taken : handout.step (.getActiveZone 0) = some
          ⟨handedOut handout.manager first (handout.manager.state first).chunkOffset
              (front ++ zone :: rest) handout.manager.free,
            ⟨(handout.manager.state first).zoneId, (handout.manager.state first).chunkOffset, 0,
              false⟩ ::ₘ handout.outstanding⟩ := by
        simp only [Handout.step, Handout.call, popped]
        rfl
      obtain ⟨calls, last, pair, ran, along, handed, same⟩ :=
        ih (waits.step notHanding taken) rfl
      refine ⟨.getActiveZone 0 :: calls, last, pair, runActions_cons taken ran,
        ⟨notHanding, fun next stepped => ?_⟩, handed, same⟩
      cases Option.some.inj (taken.symm.trans stepped)
      exact along

/-- The zone of a pair whose write failed waits at the pair's offset. -/
theorem Uncrossed.waits (uncrossed : Uncrossed handout) {pair : ZnPair}
    (member : pair ∈ handout.outstanding) {failed : Handout}
    (taken : handout.step (.failedToWrite pair) = some failed) :
    Waits pair.zone pair.chunkOffset failed := by
  have after := uncrossed.step taken
  cases Handout.step_spec taken with
  | failedToWrite =>
      refine ⟨after, ?_, ?_⟩
      · simp [zsmFailedToWrite_state]
      · simpa [zsmFailedToWrite_state, returnedZone] using (uncrossed.held pair member).symm

end Step

end Handout

end ZNCache
