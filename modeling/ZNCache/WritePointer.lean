import ZNCache.ChunkTransfer
import ZNCache.WaitingZones

/-!
# Writes at the write pointer

A zone of the device takes a `pwrite` at its write pointer only and moves the pointer by the
bytes that were written.  `zn_write_out` tries a piece again from the start of the piece, and
a chunk whose write failed is written again from the start of the chunk.
-/

set_option autoImplicit false

namespace ZNCache

open RetryLoop Transition ZoneStateManager

namespace ChunkTransfer

/-- Elsewhere than at its write pointer the zone refuses. -/
def zoneAnswer (pointer offset : Nat) (transfer : Transfer) : Transfer :=
  if offset = pointer then transfer else .fails

def movePointer (plan : Plan) (pointer total : Nat) (transfer : Transfer) : Nat :=
  pointer + transfer.moved (plan.piece total)

/-- One `pwrite` of `zn_write_out`; the world of the loop is the write pointer of the zone. -/
def zoneStep (plan : Plan) (wpStart : Nat) (loop : Looping Nat) (transfer : Transfer) :
    Option (Looping Nat) :=
  match loop.pc with
  | .issue total _ =>
      plan.step (movePointer plan) loop
        (zoneAnswer loop.world (pieceOffset wpStart total) transfer)
  | .done => none
  | .gaveUp => none

def StartsAtPointer (wpStart : Nat) (loop : Looping Nat) (_ : Transfer) : Prop :=
  match loop.pc with
  | .issue total _ => pieceOffset wpStart total = loop.world
  | .done => True
  | .gaveUp => True

/-- The `pwrite` writes its whole piece, or nothing of it; and nothing only if it is not the
last try of a piece after the first. -/
def LeavesNoPart (plan : Plan) (loop : Looping Nat) (transfer : Transfer) : Prop :=
  match loop.pc with
  | .issue total attempts =>
      transfer.ret (plan.piece total) = plan.piece total ∨
        transfer.moved (plan.piece total) = 0 ∧ (total = 0 ∨ attempts + 1 < plan.retries)
  | .done => True
  | .gaveUp => True

/-- The bytes before the piece are written and no others of the chunk; after giving up, none
are. -/
def OnTrack (plan : Plan) (wp : Nat) (loop : Looping Nat) : Prop :=
  match loop.pc with
  | .issue total _ => total < plan.whole ∧ loop.world = wp + total
  | .done => True
  | .gaveUp => loop.world = wp

section Loop

variable {plan : Plan} {wp : Nat} {loop next last : Looping Nat} {transfer : Transfer}

theorem onTrack_head (total : Nat) : OnTrack plan wp ⟨plan.head total, wp + total⟩ := by
  unfold Plan.head
  split
  next more => exact ⟨more, rfl⟩
  next => exact trivial

theorem OnTrack.startsAtPointer (track : OnTrack plan wp loop) (fits : wp + plan.whole < 2 ^ 63)
    (transfer : Transfer) : StartsAtPointer wp loop transfer := by
  obtain ⟨pc, pointer⟩ := loop
  cases pc with
  | issue total attempts =>
      obtain ⟨more, here⟩ := track
      exact (pieceOffset_eq (Nat.le_of_lt more) fits).trans here.symm
  | done => exact trivial
  | gaveUp => exact trivial

/-- A `pwrite` at the pointer keeps the loop on track exactly if it leaves no part. -/
theorem OnTrack.step_iff (track : OnTrack plan wp loop) (fits : wp + plan.whole < 2 ^ 63)
    (taken : zoneStep plan wp loop transfer = some next) :
    LeavesNoPart plan loop transfer ↔ OnTrack plan wp next := by
  have starts := track.startsAtPointer fits transfer
  obtain ⟨pc, pointer⟩ := loop
  cases pc with
  | done => cases taken
  | gaveUp => cases taken
  | issue total attempts =>
      obtain ⟨more, here⟩ := track
      simp only [StartsAtPointer] at starts
      simp only [zoneStep, zoneAnswer, if_pos starts] at taken
      obtain ⟨total', attempts', same, world, full | ⟨notFull, spent | again⟩⟩ :=
        Plan.step_spec taken
      · cases same
        obtain ⟨nextPc, nextPointer⟩ := next
        have whole := Transfer.moved_of_ret full.1
        cases full.2
        simp only [movePointer, whole] at world here
        rw [here, Nat.add_assoc] at world
        subst world
        exact iff_of_true (.inl full.1) (onTrack_head _)
      · cases same
        simp only [movePointer] at world here
        simp only [LeavesNoPart, OnTrack, spent.2, world, here]
        constructor
        · intro part
          rcases part with full | ⟨nothing, first | more'⟩
          · exact absurd full notFull
          · omega
          · omega
        · intro back
          exact .inr ⟨by omega, .inl (by omega)⟩
      · cases same
        simp only [movePointer] at world here
        simp only [LeavesNoPart, OnTrack, again.2, world, here]
        constructor
        · intro part
          rcases part with full | ⟨nothing, _⟩
          · exact absurd full notFull
          · exact ⟨more, by omega⟩
        · intro onPointer
          exact .inr ⟨by omega, .inr again.1⟩

theorem issue_of_head {total here attempts : Nat} (at' : plan.head here = .issue total attempts) :
    total < plan.whole := by
  unfold Plan.head at at'
  split at at'
  next more =>
      cases at'
      exact more
  next => cases at'

theorem OnTrack.issue_next (track : OnTrack plan wp loop)
    (taken : zoneStep plan wp loop transfer = some next) {total attempts : Nat}
    (at' : next.pc = .issue total attempts) : total < plan.whole := by
  obtain ⟨pc, pointer⟩ := loop
  cases pc with
  | done => cases taken
  | gaveUp => cases taken
  | issue here tries =>
      simp only [zoneStep] at taken
      obtain ⟨here', tries', same, _, full | ⟨_, spent | again⟩⟩ := Plan.step_spec taken
      · exact issue_of_head (full.2.symm.trans at')
      · rw [spent.2] at at'
        cases at'
      · cases same
        rw [again.2] at at'
        cases at'
        exact track.1

/-- By induction on the transfers.  A `pwrite` that leaves a part takes the loop off its
track, and what shows that is the next `pwrite` or, after the last, the pointer. -/
theorem OnTrack.run_iff (fits : wp + plan.whole < 2 ^ 63) (transfers : List Transfer) :
    ∀ {loop : Looping Nat}, OnTrack plan wp loop →
      runActions (zoneStep plan wp) loop transfers = some last →
      (last.pc = .done ∨ last.pc = .gaveUp) →
      (AllowedAlong (zoneStep plan wp) (StartsAtPointer wp) loop transfers ∧
          (last.pc = .gaveUp → last.world = wp) ↔
        AllowedAlong (zoneStep plan wp) (LeavesNoPart plan) loop transfers) := by
  induction transfers with
  | nil =>
      intro loop track ran _
      cases Option.some.inj ran
      refine iff_of_true ⟨trivial, fun gaveUp => ?_⟩ trivial
      rwa [OnTrack, gaveUp] at track
  | cons transfer transfers ih =>
      intro loop track ran returned
      obtain ⟨next, taken, ran⟩ := runActions_inv ran
      have tracks := track.step_iff fits taken
      constructor
      · intro given
        obtain ⟨⟨_, starts⟩, back⟩ := given
        have startsNext := starts next taken
        have onTrack : OnTrack plan wp next := by
          obtain ⟨pc, pointer⟩ := next
          cases pc with
          | done => exact trivial
          | issue total attempts =>
              have more := track.issue_next taken rfl
              cases transfers with
              | nil =>
                  cases Option.some.inj ran
                  rcases returned with done | gaveUp
                  · cases done
                  · cases gaveUp
              | cons again transfers =>
                  exact ⟨more, (startsNext.1.symm.trans
                    (pieceOffset_eq (Nat.le_of_lt more) fits))⟩
          | gaveUp =>
              cases transfers with
              | nil =>
                  cases Option.some.inj ran
                  exact back rfl
              | cons again transfers => cases ran
        refine ⟨tracks.mpr onTrack, fun other stepped => ?_⟩
        cases Option.some.inj (taken.symm.trans stepped)
        exact (ih onTrack ran returned).mp ⟨startsNext, back⟩
      · intro given
        obtain ⟨part, parts⟩ := given
        obtain ⟨starts, back⟩ := (ih (tracks.mp part) ran returned).mpr (parts next taken)
        refine ⟨⟨track.startsAtPointer fits transfer, fun other stepped => ?_⟩, back⟩
        cases Option.some.inj (taken.symm.trans stepped)
        exact starts

end Loop

/-! ## The next chunk of the zone -/

/-- After `zsm_failed_to_write`, whatever calls follow, the chunk for which the zone is handed
out next starts at the pointer. -/
def NextAtPointer (zoneSize chunkSize pointer : Nat) (pair : ZnPair) (handout : Handout) : Prop :=
  ∀ failed, handout.step (.failedToWrite pair) = some failed →
    ∀ calls later, runActions Handout.step failed calls = some later →
      AllowedAlong Handout.step (Handout.NotHanding pair.zone) failed calls →
      ∀ openRet next, (zsmGetActiveZone openRet later.manager).ret = .success next →
        next.zone = pair.zone →
        chunkPointer zoneSize chunkSize next.chunkOffset next.zone = pointer

theorem nextAtPointer_iff {handout : Handout} (uncrossed : handout.Uncrossed) {pair : ZnPair}
    (member : pair ∈ handout.outstanding) {zoneSize chunkSize pointer : Nat} :
    NextAtPointer zoneSize chunkSize pointer pair handout ↔
      pointer = chunkPointer zoneSize chunkSize pair.chunkOffset pair.zone := by
  constructor
  · intro nextAt
    have taken : handout.step (.failedToWrite pair) =
        some ⟨(zsmFailedToWrite handout.manager pair).state, handout.outstanding.erase pair⟩ := by
      simp [Handout.step, Handout.call, member]
    have waits := uncrossed.waits member taken
    obtain ⟨front, rest, head⟩ := List.append_of_mem waits.queued
    obtain ⟨calls, later, next, ran, along, handed, same⟩ := waits.comes front head
    have offset := (waits.run ran along).handed handed same
    have at' := nextAt _ taken calls later ran along 0 next handed same
    rw [← at', offset, same]
  · intro at' failed taken calls later ran along openRet next handed same
    have waits := uncrossed.waits member taken
    rw [(waits.run ran along).handed handed same, same, at']

/-- A chunk write that starts at the write pointer of its zone: all its `pwrite` calls do, and
the next chunk after a failure does, if and only if each `pwrite` writes its whole piece or
nothing and the write does not give up on a piece after the first. -/
theorem writesAtPointer_iff
    {numZones zoneCap zoneSize chunkSize maxNrActiveZones ioSize wp : Nat}
    {backendType : ZnBackend} (small : numZones < 2 ^ 32) {calls : List ZsmCall}
    {handout : Handout}
    (reached : runActions Handout.step
      (.init numZones zoneCap zoneSize chunkSize maxNrActiveZones backendType) calls =
        some handout)
    {pair : ZnPair} (held : pair ∈ handout.outstanding)
    (at' : wp = chunkPointer zoneSize chunkSize pair.chunkOffset pair.zone)
    (fits : wp + chunkSize < 2 ^ 63) {transfers : List Transfer} {last : Looping Nat}
    (wrote : runActions (zoneStep (writePlan chunkSize ioSize) wp)
      ⟨(writePlan chunkSize ioSize).head 0, wp⟩ transfers = some last)
    (returned : last.pc = .done ∨ last.pc = .gaveUp) :
    (AllowedAlong (zoneStep (writePlan chunkSize ioSize) wp) (StartsAtPointer wp)
        ⟨(writePlan chunkSize ioSize).head 0, wp⟩ transfers ∧
      (last.pc = .gaveUp → NextAtPointer zoneSize chunkSize last.world pair handout)) ↔
    AllowedAlong (zoneStep (writePlan chunkSize ioSize) wp)
      (LeavesNoPart (writePlan chunkSize ioSize))
      ⟨(writePlan chunkSize ioSize).head 0, wp⟩ transfers := by
  have uncrossed := (Handout.Uncrossed.init small).run reached
  have track : OnTrack (writePlan chunkSize ioSize) wp
      ⟨(writePlan chunkSize ioSize).head 0, wp⟩ := onTrack_head 0
  rw [← track.run_iff fits transfers wrote returned, nextAtPointer_iff uncrossed held, at']

def oneChunkHanded : Handout :=
  ⟨(zsmGetActiveZone 0 (zsmInit 1 8192 8192 8192 1 .zns)).state, {⟨0, 0, 0, false⟩}⟩

/-- A chunk in two pieces, whose first `pwrite` fails. -/
theorem writesAtPointer_iff_retried :
    AllowedAlong (zoneStep (writePlan 8192 4096) 0) (StartsAtPointer 0) ⟨.issue 0 0, 0⟩
      [.fails, .moves 4096, .moves 4096] := by
  refine ((@writesAtPointer_iff 1 8192 8192 8192 1 4096 0 .zns (by decide) [.getActiveZone 0]
    oneChunkHanded rfl ⟨0, 0, 0, false⟩ (Multiset.mem_singleton_self _) rfl (by decide)
    [.fails, .moves 4096, .moves 4096] ⟨.done, 8192⟩ rfl (.inl rfl)).mpr ?_).1
  refine ⟨.inr ⟨rfl, .inl rfl⟩, fun next taken => ?_⟩
  cases taken
  refine ⟨.inl rfl, fun next taken => ?_⟩
  cases taken
  exact ⟨.inl rfl, fun _ _ => trivial⟩

/-- The first `pwrite` stops after 4096 of 8192 bytes, and the second starts again at the
beginning of the chunk. -/
theorem writesAtPointer_shortWrite :
    runActions Handout.step (.init 1 8192 8192 8192 1 .zns) [.getActiveZone 0] =
        some oneChunkHanded ∧
      ⟨0, 0, 0, false⟩ ∈ oneChunkHanded.outstanding ∧
      runActions (zoneStep (writePlan 8192 8192) 0) ⟨.issue 0 0, 0⟩
        (.moves 4096 :: List.replicate 7 .fails) = some ⟨.gaveUp, 4096⟩ ∧
      ¬ AllowedAlong (zoneStep (writePlan 8192 8192) 0) (StartsAtPointer 0) ⟨.issue 0 0, 0⟩
        (.moves 4096 :: List.replicate 7 .fails) ∧
      ¬ NextAtPointer 8192 8192 4096 ⟨0, 0, 0, false⟩ oneChunkHanded := by
  refine ⟨rfl, Multiset.mem_singleton_self _, rfl, ?_, ?_⟩
  · intro given
    have again := (given.2 _ rfl).1
    exact absurd again (by decide : (0 : Nat) ≠ 4096)
  · intro nextAt
    have again := nextAt ⟨(zsmFailedToWrite oneChunkHanded.manager ⟨0, 0, 0, false⟩).state, 0⟩
      rfl [] _ rfl trivial 0 ⟨0, 0, 0, false⟩ rfl rfl
    exact absurd again (by decide : (0 : Nat) ≠ 4096)

end ChunkTransfer

end ZNCache
