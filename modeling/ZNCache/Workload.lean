import ZNCache.Lib.ByteDevice
import ZNCache.Machine

/-!
# Loading the workload

`read_workload` and the part of `main` that calls it, for every way in which `read` may
deliver the file.  The memory of the buffer is a device of bytes from the buffer's start.
-/

set_option autoImplicit false

namespace ZNCache

open ByteDevice

/-- What a call of `read` does; `moves` bounds the bytes of a call that is cut short. -/
inductive ReadCall
  | interrupted
  | failed
  | moves (limit : Nat)
  deriving DecidableEq, Repr

/-- At least one byte, unless the file ends here, and no more than were asked for. -/
def bytesRead (limit requested left : Nat) : Nat := min (limit + 1) (min requested left)

/-- `total_bytes_read`, the buffer, and the ranges that the calls of `read` wrote to. -/
structure Loading where
  total : Nat
  buffer : Device
  writes : List (Nat × Nat)

/-- A call of `read` that moved so many bytes; the sum of the buffer's pointer and a count of
bytes is a pointer to the `uint32_t` of that index. -/
def Loading.advance (file : List UInt8) (loading : Loading) (count : Nat) : Loading where
  total := loading.total + count
  buffer := pwrite loading.buffer ((file.drop loading.total).take count) (4 * loading.total)
  writes := loading.writes ++ [(4 * loading.total, count)]

/-- After the loop: an error unless all bytes were read. -/
def Loading.checked (size : Nat) (loading : Loading) : Int × Loading :=
  (if loading.total = size then 0 else 1, loading)

/-- No result as long as a call of `read` has not returned. -/
def readWorkload (file : List UInt8) (size : Nat) : List ReadCall → Loading → Option (Int × Loading)
  | [], loading => if loading.total < size then none else some (loading.checked size)
  | call :: rest, loading =>
      if loading.total < size then
        match call with
        | .interrupted => readWorkload file size rest loading
        | .failed => some (1, loading)
        | .moves limit =>
            let count := bytesRead limit (size - loading.total) (file.length - loading.total)
            if count = 0 then some (loading.checked size)
            else readWorkload file size rest (loading.advance file count)
      else some (loading.checked size)

/-- `workload_max` after `-i` with this value, which `strtol` clamps. -/
def workloadMaxArg (iterations : Int) : Nat :=
  (max (-2 ^ 63) (min iterations (2 ^ 63 - 1)) % 2 ^ 64).toNat

structure Workload where
  workloadMax : Nat
  bufferSize : Nat
  loading : Loading

/-- The workload that `main` runs from a file that it could open, in a buffer of this memory. -/
def loadWorkload (iterations : Option Int) (file : List UInt8) (reads : List ReadCall)
    (memory : Device) : Option Workload :=
  let workloadMax := (iterations.map workloadMaxArg).getD (2 ^ 64 - 1)
  if workloadMax = 2 ^ 64 - 1 then none
  else
    let size := workloadMax * 4 % 2 ^ 64
    match readWorkload file size reads ⟨0, memory, []⟩ with
    | some (0, loading) => some ⟨workloadMax, size, loading⟩
    | _ => none

/-! ## One read that moves everything -/

/-- The first call of `read` that is not interrupted returns the whole size. -/
def ReadsAtOnce (file : List UInt8) (size : Nat) : List ReadCall → Prop
  | .interrupted :: rest => ReadsAtOnce file size rest
  | .moves limit :: _ => bytesRead limit size file.length = size
  | .failed :: _ | [] => False

/-- The buffer holds all words without a wrap, each write stays inside it, and each word is
that of the file. -/
structure Workload.Exact (file : List UInt8) (workload : Workload) : Prop where
  noWrap : workload.workloadMax * 4 < 2 ^ 64
  roomy : workload.workloadMax * 4 ≤ workload.bufferSize
  inside : ∀ write ∈ workload.loading.writes, write.1 + write.2 ≤ workload.bufferSize
  words : ∀ wi < workload.workloadMax,
    pread workload.loading.buffer 4 (4 * wi) = (file.drop (4 * wi)).take 4

section Reading

variable {file : List UInt8} {size : Nat} {loading last : Loading}

theorem readWorkload_done (reads : List ReadCall) (done : loading.total = size) :
    readWorkload file size reads loading = some (0, loading) := by
  cases reads <;> simp [readWorkload, Loading.checked, done]

theorem readWorkload_moves {limit : Nat} {rest : List ReadCall} (more : loading.total < size)
    (returned : readWorkload file size (.moves limit :: rest) loading = some (0, last)) :
    ∃ count, count = bytesRead limit (size - loading.total) (file.length - loading.total) ∧
      0 < count ∧ loading.total + count ≤ size ∧ loading.total + count ≤ file.length ∧
      readWorkload file size rest (loading.advance file count) = some (0, last) := by
  have fits : bytesRead limit (size - loading.total) (file.length - loading.total) ≤
      min (size - loading.total) (file.length - loading.total) := Nat.min_le_right _ _
  simp only [readWorkload, if_pos more, Loading.checked, if_neg (Nat.ne_of_lt more)] at returned
  split at returned
  next => cases Option.some.inj returned
  next moved => exact ⟨_, rfl, by omega, by omega, by omega, returned⟩

/-- After a first read that was cut short, the last write ends past the buffer. -/
theorem readWorkload_overflows (reads : List ReadCall) :
    ∀ {loading : Loading}, 0 < loading.total → loading.total < size →
      readWorkload file size reads loading = some (0, last) →
      ∃ write ∈ last.writes, size < write.1 + write.2 := by
  induction reads with
  | nil =>
      intro loading _ more returned
      simp [readWorkload, more] at returned
  | cons call rest ih =>
      intro loading positive more returned
      cases call with
      | interrupted =>
          rw [readWorkload, if_pos more] at returned
          exact ih positive more returned
      | failed => simp [readWorkload, more] at returned
      | moves limit =>
          obtain ⟨count, _, moved, within, _, later⟩ := readWorkload_moves more returned
          rcases Nat.lt_or_eq_of_le within with short | whole
          · exact ih (Nat.lt_of_lt_of_le positive (Nat.le_add_right _ _)) short later
          · rw [readWorkload_done rest whole] at later
            cases Option.some.inj later
            refine ⟨(4 * loading.total, count), List.mem_append_right _ (by simp), ?_⟩
            dsimp only
            omega

theorem readWorkload_atOnce (reads : List ReadCall) :
    ∀ {loading : Loading}, loading.total = 0 → 0 < size →
      readWorkload file size reads loading = some (0, last) →
      (ReadsAtOnce file size reads →
        last.writes = loading.writes ++ [(0, size)] ∧ size ≤ file.length ∧
          last.buffer = pwrite loading.buffer (file.take size) 0) ∧
      (¬ ReadsAtOnce file size reads → ∃ write ∈ last.writes, size < write.1 + write.2) := by
  induction reads with
  | nil =>
      intro loading start some returned
      simp [readWorkload, start, some] at returned
  | cons call rest ih =>
      intro loading start some returned
      have more : loading.total < size := by omega
      cases call with
      | interrupted =>
          rw [readWorkload, if_pos more] at returned
          exact ih start some returned
      | failed => simp [readWorkload, more] at returned
      | moves limit =>
          obtain ⟨count, moves, moved, within, inFile, later⟩ := readWorkload_moves more returned
          rw [start, Nat.sub_zero, Nat.sub_zero] at moves
          constructor
          · intro whole
            have all : count = size := moves.trans whole
            rw [readWorkload_done rest (by simp [Loading.advance, start, all])] at later
            cases Option.some.inj later
            refine ⟨by simp [Loading.advance, start, all], by omega, ?_⟩
            simp [Loading.advance, start, all]
          · intro cut
            have short : count ≠ size := fun all => cut (moves.symm.trans all)
            exact readWorkload_overflows rest (Nat.lt_of_lt_of_le moved (Nat.le_add_left _ _))
              (show loading.total + count < size by omega) later

end Reading

/-! ## When the workload is exact -/

theorem loadWorkload_spec {iterations : Option Int} {file : List UInt8} {reads : List ReadCall}
    {memory : Device} {workload : Workload}
    (loaded : loadWorkload iterations file reads memory = some workload) :
    workload.bufferSize = workload.workloadMax * 4 % 2 ^ 64 ∧
      readWorkload file workload.bufferSize reads ⟨0, memory, []⟩ = some (0, workload.loading) := by
  unfold loadWorkload at loaded
  dsimp only at loaded
  split at loaded
  next => cases loaded
  next =>
      split at loaded
      next _ loading ran =>
          cases Option.some.inj loaded
          exact ⟨rfl, ran⟩
      next => cases loaded

/-- Whenever `read_workload` returns 0, the workload is exact if and only if the size does
not wrap and one call of `read` returned all of it. -/
theorem loadWorkload_exact_iff {iterations : Option Int} {file : List UInt8}
    {reads : List ReadCall} {memory : Device} {workload : Workload}
    (loaded : loadWorkload iterations file reads memory = some workload) :
    workload.Exact file ↔ workload.workloadMax < 2 ^ 62 ∧
      (workload.workloadMax = 0 ∨ ReadsAtOnce file (workload.workloadMax * 4) reads) := by
  obtain ⟨sizeEq, returned⟩ := loadWorkload_spec loaded
  constructor
  · intro loadedWell
    have noWrap := loadedWell.noWrap
    rw [Nat.mod_eq_of_lt noWrap] at sizeEq
    rw [sizeEq] at returned
    refine ⟨by omega, ?_⟩
    by_contra not
    rw [not_or] at not
    obtain ⟨write, member, past⟩ :=
      (readWorkload_atOnce reads rfl (by omega) returned).2 not.2
    have inside := loadedWell.inside write member
    omega
  · intro given
    obtain ⟨small, once⟩ := given
    rw [Nat.mod_eq_of_lt (by omega)] at sizeEq
    rw [sizeEq] at returned
    rcases Nat.eq_zero_or_pos workload.workloadMax with none | some
    · rw [readWorkload_done reads (by simp [none])] at returned
      obtain ⟨_, same⟩ := Prod.mk.inj (Option.some.inj returned)
      refine ⟨by omega, by omega, fun write member => ?_, fun wi below => by omega⟩
      rw [← same] at member
      cases member
    · obtain ⟨writes, inFile, buffer⟩ := (readWorkload_atOnce reads rfl (by omega) returned).1
        (once.resolve_left (by omega))
      refine ⟨by omega, by omega, fun write member => ?_, fun wi below => ?_⟩
      · rw [writes, List.nil_append, List.mem_singleton] at member
        simp [member, sizeEq]
      · have whole : 4 * wi + 4 ≤ (file.take (workload.workloadMax * 4)).length := by
          rw [List.length_take]
          omega
        have word := @pread_pwrite_inside memory _ 4 0 _ whole
        rw [Nat.zero_add] at word
        rw [buffer, word, List.drop_take, List.take_take, Nat.min_eq_left (by omega)]

/-- Two words of which the first call of `read` returns one byte. -/
theorem loadWorkload_shortRead :
    ∃ workload, loadWorkload (some 2) [1, 0, 0, 0, 2, 0, 0, 0] [.moves 0, .moves 7] (fun _ => 0) =
        some workload ∧
      workload.loading.writes = [(0, 1), (4, 7)] ∧ workload.bufferSize = 8 ∧
      pread workload.loading.buffer 4 4 = [0, 0, 0, 2] ∧
      ¬ workload.Exact [1, 0, 0, 0, 2, 0, 0, 0] := by
  cases loaded : loadWorkload (some 2) [1, 0, 0, 0, 2, 0, 0, 0] [.moves 0, .moves 7]
      (fun _ => 0) with
  | none => cases loaded
  | some workload =>
      cases Option.some.inj loaded
      refine ⟨_, rfl, by decide, by decide, by decide, fun loadedWell => ?_⟩
      have inside := loadedWell.inside (4, 7) (by decide)
      revert inside
      decide

/-- A call of `read` is interrupted and the next one returns both words. -/
theorem loadWorkload_exact_iff_once :
    ∃ workload, loadWorkload (some 2) [1, 0, 0, 0, 2, 0, 0, 0] [.interrupted, .moves 7]
        (fun _ => 0) = some workload ∧
      workload.Exact [1, 0, 0, 0, 2, 0, 0, 0] := by
  cases loaded : loadWorkload (some 2) [1, 0, 0, 0, 2, 0, 0, 0] [.interrupted, .moves 7]
      (fun _ => 0) with
  | none => cases loaded
  | some workload =>
      have two : workload.workloadMax = 2 := by
        cases Option.some.inj loaded
        rfl
      refine ⟨workload, rfl, (loadWorkload_exact_iff loaded).mpr ?_⟩
      rw [two]
      exact ⟨by decide, .inr rfl⟩

end ZNCache
