import ZNCache.Lib.RetryLoop
import ZNCache.SequentialGet

/-!
# Chunks on a device that fails

`zn_write_out` and `zn_read_from_disk` as loops of single `pwrite` and `pread` calls, each of
which moves any part of its piece or fails.  The calls take what becomes of their transfers,
in order, and have no result while more of that is needed.
-/

set_option autoImplicit false

namespace ZNCache

open ByteDevice RetryLoop Transition

namespace ChunkTransfer

/-- `BACKOFF_RETRIES` as `zn_read_from_disk` sees it. -/
def readRetries : Nat := 5

/-- `BACKOFF_RETRIES` once it is defined again, in front of `zn_write_out`. -/
def writeRetries : Nat := 8

/-- The sizes are below `2 ^ 63`, so that a `ssize_t` holds them. -/
def writePlan (toWrite writeSize : Nat) : Plan where
  whole := toWrite
  piece := fun totalWritten =>
    let remaining := toWrite - totalWritten
    if remaining < writeSize then remaining else writeSize
  retries := writeRetries

def readPlan (chunkSz maxIo : Nat) : Plan where
  whole := chunkSz
  piece := fun totalRead =>
    if maxIo < chunkSz - totalRead then maxIo else chunkSz - totalRead
  retries := readRetries

def pieceOffset (wp total : Nat) : Nat := (wp + total) % 2 ^ 64

def pwritePiece (plan : Plan) (buffer : List UInt8) (wpStart : Nat) (device : Device)
    (totalWritten : Nat) (transfer : Transfer) : Device :=
  pwrite device ((buffer.drop totalWritten).take (transfer.moved (plan.piece totalWritten)))
    (pieceOffset wpStart totalWritten)

def preadPiece (plan : Plan) (device : Device) (wp : Nat) (data : Device) (totalRead : Nat)
    (transfer : Transfer) : Device :=
  pwrite data (pread device (transfer.moved (plan.piece totalRead)) (pieceOffset wp totalRead))
    totalRead

def znWriteOut (device : Device) (toWrite : Nat) (buffer : List UInt8)
    (writeSize wpStart : Nat) (transfers : List Transfer) : Option (Int × Device) :=
  let plan := writePlan toWrite writeSize
  match runActions (plan.step (pwritePiece plan buffer wpStart)) ⟨plan.head 0, device⟩
      transfers with
  | some ⟨.done, after⟩ => some (0, after)
  | some ⟨.gaveUp, after⟩ => some (-1, after)
  | some ⟨.issue _ _, _⟩ => none
  | none => none

/-- The buffer is allocated first; its bytes are any. -/
def znReadFromDisk (config : CacheConfig) (ioSize : Nat) (device allocated : Device)
    (pair : ZnPair) (transfers : List Transfer) : Option (Option (List UInt8)) :=
  if config.chunkSz % directAlignment ≠ 0 ∨ ioSize % directAlignment ≠ 0 then some none
  else
    let wp := chunkPointer config.zoneSize config.chunkSz pair.chunkOffset pair.zone
    if wp % directAlignment ≠ 0 then some none
    else
      let plan := readPlan config.chunkSz ioSize
      match runActions (plan.step (preadPiece plan device wp)) ⟨plan.head 0, allocated⟩
          transfers with
      | some ⟨.done, data⟩ => some (some (pread data config.chunkSz 0))
      | some ⟨.gaveUp, _⟩ => some none
      | some ⟨.issue _ _, _⟩ => none
      | none => none

/-! ## Pieces -/

section Pieces

variable {whole size : Nat}

theorem writePlan_piece {totalWritten : Nat} :
    (writePlan whole size).piece totalWritten = min (whole - totalWritten) size := by
  simp only [writePlan]
  split <;> omega

theorem readPlan_piece {totalRead : Nat} :
    (readPlan whole size).piece totalRead = min (whole - totalRead) size := by
  simp only [readPlan]
  split <;> omega

theorem writePlan_within : (writePlan whole size).Within := by
  intro total more
  rw [writePlan_piece]
  simp only [writePlan] at more ⊢
  omega

theorem readPlan_within : (readPlan whole size).Within := by
  intro total more
  rw [readPlan_piece]
  simp only [readPlan] at more ⊢
  omega

theorem writePlan_progresses (positive : 0 < size) : (writePlan whole size).Progresses where
  positive := by
    intro total more
    rw [writePlan_piece]
    simp only [writePlan] at more
    omega
  retries := Nat.succ_pos _

theorem readPlan_progresses (positive : 0 < size) : (readPlan whole size).Progresses where
  positive := by
    intro total more
    rw [readPlan_piece]
    simp only [readPlan] at more
    omega
  retries := Nat.succ_pos _

end Pieces

/-! ## Writing -/

section Write

variable {device : Device} {buffer : List UInt8} {plan : Plan} {wp : Nat}

structure Written (buffer : List UInt8) (wp : Nat) (before : Device) (total : Nat)
    (device : Device) : Prop where
  bytes : pread device total wp = buffer.take total
  outside : ∀ place, place < wp ∨ wp + buffer.length ≤ place → device place = before place

theorem Written.writeOn {total : Nat} {after : Device}
    (written : Written buffer wp device total after) {bytes : List UInt8}
    (inside : total + bytes.length ≤ buffer.length) :
    Written buffer wp device total (pwrite after bytes (wp + total)) := by
  constructor
  · rw [pread_pwrite_apart (.inl (Nat.le_refl _))]
    exact written.bytes
  · intro place outside
    rw [pwrite_outside (by omega)]
    exact written.outside place outside

theorem Written.writeNext {total count : Nat} {after : Device}
    (written : Written buffer wp device total after) (inside : total + count ≤ buffer.length) :
    Written buffer wp device (total + count)
      (pwrite after ((buffer.drop total).take count) (wp + total)) := by
  have length : ((buffer.drop total).take count).length = count := by
    rw [List.length_take, List.length_drop]
    omega
  have front := written.writeOn (show total + ((buffer.drop total).take count).length ≤
    buffer.length by omega)
  have here : pread (pwrite after ((buffer.drop total).take count) (wp + total)) count
      (wp + total) = (buffer.drop total).take count := by
    have read := @pread_pwrite after ((buffer.drop total).take count) (wp + total)
    rwa [length] at read
  constructor
  · rw [pread_add, front.bytes, here, ← List.take_add]
  · exact front.outside

theorem pieceOffset_eq {total : Nat} (within : total ≤ plan.whole)
    (fits : wp + plan.whole < 2 ^ 63) : pieceOffset wp total = wp + total :=
  Nat.mod_eq_of_lt (by omega)

theorem pwritePiece_keeps (within : plan.Within) (whole : plan.whole = buffer.length)
    (fits : wp + plan.whole < 2 ^ 63) :
    plan.Keeps (pwritePiece plan buffer wp) (Written buffer wp device) := by
  constructor
  · intro total after transfer more full written
    have inside := within total more
    rw [pwritePiece, pieceOffset_eq (Nat.le_of_lt more) fits, Transfer.moved_of_ret full]
    exact written.writeNext (by omega)
  · intro total after transfer more _ written
    have inside := within total more
    have moved := transfer.moved_le (plan.piece total)
    rw [pwritePiece, pieceOffset_eq (Nat.le_of_lt more) fits]
    apply written.writeOn
    rw [List.length_take, List.length_drop]
    omega

/-- What `zn_write_out` leaves, however its transfers turn out. -/
theorem znWriteOut_leaves {ioSize : Nat} {transfers : List Transfer} {ret : Int} {after : Device}
    (fits : wp + buffer.length < 2 ^ 63)
    (wrote : znWriteOut device buffer.length buffer ioSize wp transfers = some (ret, after)) :
    (ret = 0 ∧ pread after buffer.length wp = buffer ∨ ret = -1) ∧
      ∀ place, place < wp ∨ wp + buffer.length ≤ place → after place = device place := by
  have keeps := @pwritePiece_keeps device buffer _ wp
    (@writePlan_within buffer.length ioSize) rfl fits
  have start : (writePlan buffer.length ioSize).At (Written buffer wp device)
      ⟨(writePlan buffer.length ioSize).head 0, device⟩ :=
    Plan.at_head (Nat.zero_le _) ⟨rfl, fun _ _ => rfl⟩
  unfold znWriteOut at wrote
  dsimp only at wrote
  split at wrote
  next last ran =>
      cases Option.some.inj wrote
      have written := Plan.at_run writePlan_within keeps start ran
      have bytes : pread after buffer.length wp = buffer.take buffer.length := written.bytes
      rw [List.take_length] at bytes
      exact ⟨.inl ⟨rfl, bytes⟩, written.outside⟩
  next last ran =>
      cases Option.some.inj wrote
      obtain ⟨total, _, written⟩ := Plan.at_run writePlan_within keeps start ran
      exact ⟨.inr rfl, written.outside⟩
  next => cases wrote
  next => cases wrote

/-- A write that succeeds leaves what the write without failures leaves. -/
theorem znWriteOut_sequential {ioSize : Nat} {transfers : List Transfer} {after : Device}
    (positive : 0 < ioSize) (fits : wp + buffer.length < 2 ^ 63)
    (wrote : znWriteOut device buffer.length buffer ioSize wp transfers = some (0, after)) :
    ZNCache.znWriteOut device buffer.length buffer ioSize wp = some after := by
  obtain ⟨returned, outside⟩ := znWriteOut_leaves fits wrote
  rcases returned with ⟨_, bytes⟩ | failed
  · rw [znWriteOut_writes positive (by omega)]
    exact congrArg some (eq_pwrite bytes outside).symm
  · cases failed

theorem znWriteOut_ends {toWrite ioSize : Nat} (positive : 0 < ioSize)
    (outcome : Nat → Transfer) :
    ∃ count result, znWriteOut device toWrite buffer ioSize wp
      ((List.range count).map outcome) = some result := by
  obtain ⟨count, last, ran, ended⟩ := @Plan.ends _ _ (pwritePiece (writePlan toWrite ioSize)
    buffer wp) (writePlan_progresses positive) outcome _
      ⟨(writePlan toWrite ioSize).head 0, device⟩ 0
      (Plan.proper_head (writePlan_progresses positive) 0) (Nat.le_refl _)
  rw [← List.range_eq_range'] at ran
  obtain ⟨pc, after⟩ := last
  refine ⟨count, ?_⟩
  simp only [znWriteOut, ran]
  rcases ended with rfl | rfl
  · exact ⟨_, rfl⟩
  · exact ⟨_, rfl⟩

end Write

/-! ## Reading -/

section Read

variable {device data : Device} {plan : Plan} {wp : Nat}

def BytesRead (device : Device) (wp total : Nat) (data : Device) : Prop :=
  pread data total 0 = pread device total wp

theorem BytesRead.readOn {total : Nat} (read : BytesRead device wp total data)
    (bytes : List UInt8) : BytesRead device wp total (pwrite data bytes total) := by
  unfold BytesRead
  rw [pread_pwrite_apart (.inl (by omega))]
  exact read

theorem BytesRead.readNext {total : Nat} (read : BytesRead device wp total data)
    (count : Nat) : BytesRead device wp (total + count)
      (pwrite data (pread device count (wp + total)) total) := by
  have front := read.readOn (pread device count (wp + total))
  have here := @pread_pwrite data (pread device count (wp + total)) total
  rw [pread_length] at here
  unfold BytesRead at front ⊢
  rw [pread_add, pread_add, front, Nat.zero_add, here]

theorem preadPiece_keeps (fits : wp + plan.whole < 2 ^ 63) :
    plan.Keeps (preadPiece plan device wp) (BytesRead device wp) := by
  constructor
  · intro total after transfer more full read
    rw [preadPiece, pieceOffset_eq (Nat.le_of_lt more) fits, Transfer.moved_of_ret full]
    exact read.readNext _
  · intro total after transfer more _ read
    exact read.readOn _

variable {config : CacheConfig} {ioSize : Nat} {pair : ZnPair} {allocated : Device}

theorem znReadFromDisk_returns {transfers : List Transfer} {answer : Option (List UInt8)}
    (at' : chunkPointer config.zoneSize config.chunkSz pair.chunkOffset pair.zone = wp)
    (fits : wp + config.chunkSz < 2 ^ 63)
    (read : znReadFromDisk config ioSize device allocated pair transfers = some answer) :
    answer = none ∨ answer = some (pread device config.chunkSz wp) := by
  have keeps := @preadPiece_keeps device (readPlan config.chunkSz ioSize) wp fits
  have start : (readPlan config.chunkSz ioSize).At (BytesRead device wp)
      ⟨(readPlan config.chunkSz ioSize).head 0, allocated⟩ :=
    Plan.at_head (Nat.zero_le _) rfl
  unfold znReadFromDisk at read
  dsimp only at read
  rw [at'] at read
  split at read
  next => exact .inl (Option.some.inj read).symm
  next =>
      split at read
      next => exact .inl (Option.some.inj read).symm
      next =>
          split at read
          next last ran =>
              have bytes : BytesRead device wp config.chunkSz last :=
                Plan.at_run readPlan_within keeps start ran
              rw [bytes] at read
              exact .inr (Option.some.inj read).symm
          next => exact .inl (Option.some.inj read).symm
          next => cases read
          next => cases read

theorem znReadFromDisk_sequential {transfers : List Transfer} {bytes : List UInt8}
    (positive : 0 < ioSize)
    (at' : chunkPointer config.zoneSize config.chunkSz pair.chunkOffset pair.zone = wp)
    (fits : wp + config.chunkSz < 2 ^ 63)
    (chunkAligned : config.chunkSz % directAlignment = 0)
    (ioAligned : ioSize % directAlignment = 0) (aligned : wp % directAlignment = 0)
    (read : znReadFromDisk config ioSize device allocated pair transfers = some (some bytes)) :
    ZNCache.znReadFromDisk config ioSize device pair = some (some bytes) := by
  subst at'
  rw [znReadFromDisk_reads positive chunkAligned ioAligned aligned (by omega)]
  rcases znReadFromDisk_returns rfl fits read with null | same
  · cases null
  · exact congrArg some same.symm

theorem znReadFromDisk_ends (positive : 0 < ioSize) (outcome : Nat → Transfer) :
    ∃ count answer, znReadFromDisk config ioSize device allocated pair
      ((List.range count).map outcome) = some answer := by
  obtain ⟨count, last, ran, ended⟩ := @Plan.ends _ _ (preadPiece (readPlan config.chunkSz ioSize)
    device (chunkPointer config.zoneSize config.chunkSz pair.chunkOffset pair.zone))
      (readPlan_progresses positive) outcome _
      ⟨(readPlan config.chunkSz ioSize).head 0, allocated⟩ 0
      (Plan.proper_head (readPlan_progresses positive) 0) (Nat.le_refl _)
  rw [← List.range_eq_range'] at ran
  obtain ⟨pc, data⟩ := last
  refine ⟨count, ?_⟩
  simp only [znReadFromDisk, ran]
  split
  next => exact ⟨_, rfl⟩
  next =>
      split
      next => exact ⟨_, rfl⟩
      next =>
          rcases ended with rfl | rfl
          · exact ⟨_, rfl⟩
          · exact ⟨_, rfl⟩

end Read

/-- However the transfers turn out, a chunk write ends with the chunk on the device or with an
error, changes nothing outside the chunk, and what it wrote is what a later read of the
chunk returns unless that fails. -/
theorem chunk_roundTrip (config : CacheConfig) (ioSize : Nat) (location : ZnPair)
    (device : Device) (buffer : List UInt8) (wp : Nat) (positive : 0 < ioSize)
    (at' : wp = chunkPointer config.zoneSize config.chunkSz location.chunkOffset location.zone)
    (fits : wp + config.chunkSz < 2 ^ 63) (length : buffer.length = config.chunkSz) :
    (∀ transfers ret after,
      znWriteOut device config.chunkSz buffer ioSize wp transfers = some (ret, after) →
      (ret = 0 ∨ ret = -1) ∧
      (∀ place, place < wp ∨ wp + config.chunkSz ≤ place → after place = device place) ∧
      (ret = 0 → pread after config.chunkSz wp = buffer ∧
        ∀ later, (∀ place, wp ≤ place → place < wp + config.chunkSz →
            later place = after place) →
          ∀ allocated reads answer,
            znReadFromDisk config ioSize later allocated location reads = some answer →
            answer = none ∨ answer = some buffer)) ∧
    (∀ outcome : Nat → Transfer, ∃ count result,
      znWriteOut device config.chunkSz buffer ioSize wp ((List.range count).map outcome) =
        some result) ∧
    ∀ (allocated : Device) (outcome : Nat → Transfer), ∃ count answer,
      znReadFromDisk config ioSize device allocated location ((List.range count).map outcome) =
        some answer := by
  refine ⟨?_, znWriteOut_ends positive, fun allocated => znReadFromDisk_ends positive⟩
  intro transfers ret after wrote
  rw [← length] at wrote fits
  obtain ⟨returned, outside⟩ := znWriteOut_leaves fits wrote
  rw [length] at returned outside fits
  refine ⟨returned.imp And.left id, outside, ?_⟩
  intro zero
  have bytes : pread after config.chunkSz wp = buffer := by
    rcases returned with written | failed
    · exact written.2
    · omega
  refine ⟨bytes, ?_⟩
  intro later same allocated reads answer read
  have answered := znReadFromDisk_returns at'.symm fits read
  rwa [pread_congr same, bytes] at answered

/-- A write and then a read, of each of which the first transfer stops short. -/
theorem chunk_roundTrip_retried :
    ∃ after, znWriteOut (fun _ => 0) 4096 (List.replicate 4096 7) 4096 0
        [.moves 100, .moves 4096] = some (0, after) ∧
      znReadFromDisk oneChunkConfig 4096 after (fun _ => 0) ⟨0, 0, 0, false⟩
        [.moves 100, .moves 4096] = some (some (List.replicate 4096 7)) := by
  obtain ⟨after, wrote, bytes, read⟩ : ∃ after,
      znWriteOut (fun _ => 0) 4096 (List.replicate 4096 7) 4096 0 [.moves 100, .moves 4096] =
        some (0, after) ∧
      ∃ bytes, znReadFromDisk oneChunkConfig 4096 after (fun _ => 0) ⟨0, 0, 0, false⟩
        [.moves 100, .moves 4096] = some (some bytes) :=
    ⟨_, rfl, _, rfl⟩
  refine ⟨after, wrote, ?_⟩
  obtain ⟨_, _, written⟩ := (chunk_roundTrip oneChunkConfig 4096 ⟨0, 0, 0, false⟩ (fun _ => 0)
    (List.replicate 4096 7) 0 (by decide) rfl (by decide) (List.length_replicate)).1 _ _ _ wrote
  rcases (written rfl).2 after (fun _ _ _ => rfl) _ _ _ read with none | same
  · cases none
  · rw [read, same]

end ChunkTransfer

end ZNCache
