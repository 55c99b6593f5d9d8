import Mathlib.Algebra.BigOperators.Group.List.Basic
import Mathlib.Algebra.Ring.Nat
import Mathlib.Data.Finset.Filter
import Mathlib.Data.Finset.Card
import Mathlib.Data.Finset.Range
import Mathlib.Data.List.Basic
import Mathlib.Logic.Function.Basic

/-!
# A device of zones

A zone is written from its start to its capacity and emptied as a whole.  At most
`maxOpen` zones are open at a time.  The commands on a byte range act on every zone
that the range touches; a write goes to the write pointer of its zone.  A command that
the device refuses leaves it as it was.
-/

set_option autoImplicit false

namespace ZonedStorage

inductive Condition
  | empty
  | opened
  | full
  deriving DecidableEq, Repr

/-- `wp` counts the bytes written from the start of the zone. -/
structure Device where
  zoneSize : Nat
  zoneCap : Nat
  nrZones : Nat
  maxOpen : Nat
  condition : Nat → Condition
  wp : Nat → Nat

inductive Command
  | openZones (offset length : Nat)
  | finishZones (offset length : Nat)
  | resetZones (offset length : Nat)
  | write (offset length : Nat)
  deriving DecidableEq, Repr

namespace Device

def blank (zoneSize zoneCap nrZones maxOpen : Nat) : Device where
  zoneSize := zoneSize
  zoneCap := zoneCap
  nrZones := nrZones
  maxOpen := maxOpen
  condition := fun _ => .empty
  wp := fun _ => 0

def setZone (device : Device) (zone : Nat) (condition : Condition) (wp : Nat) : Device :=
  { device with
    condition := Function.update device.condition zone condition
    wp := Function.update device.wp zone wp }

def openCount (device : Device) : Nat :=
  ((Finset.range device.nrZones).filter fun zone => device.condition zone = .opened).card

def zonesIn (device : Device) (offset length : Nat) : List Nat :=
  (List.range device.nrZones).filter fun zone =>
    zone * device.zoneSize < offset + length ∧ offset < (zone + 1) * device.zoneSize

def openZone (device : Device) (zone : Nat) : Option Device :=
  match device.condition zone with
  | .opened => some device
  | .full => none
  | .empty =>
      if device.openCount < device.maxOpen then some (device.setZone zone .opened 0) else none

def finishZone (device : Device) (zone : Nat) : Option Device :=
  some (device.setZone zone .full device.zoneCap)

def resetZone (device : Device) (zone : Nat) : Option Device :=
  some (device.setZone zone .empty 0)

/-- The bytes go to the write pointer; an empty zone is opened for them, and a zone that
reaches its capacity is full. -/
def writeZone (device : Device) (zone offset length : Nat) : Option Device :=
  if zone < device.nrZones ∧ device.wp zone = offset ∧ 0 < length ∧
      offset + length ≤ device.zoneCap ∧ (device.condition zone = .opened ∨
        device.condition zone = .empty ∧ device.openCount < device.maxOpen) then
    some (device.setZone zone (if offset + length = device.zoneCap then .full else .opened)
      (offset + length))
  else none

def execute (device : Device) : Command → Option Device
  | .openZones offset length => (device.zonesIn offset length).foldlM openZone device
  | .finishZones offset length => (device.zonesIn offset length).foldlM finishZone device
  | .resetZones offset length => (device.zonesIn offset length).foldlM resetZone device
  | .write offset length =>
      device.writeZone (offset / device.zoneSize) (offset % device.zoneSize) length

def run (device : Device) (commands : List Command) : Option Device :=
  commands.foldlM execute device

theorem run_cons {device next : Device} {command : Command} {rest : List Command}
    (taken : device.execute command = some next) :
    device.run (command :: rest) = next.run rest := by
  simp [run, List.foldlM_cons, taken]

section SetZone

variable (device : Device) (zone : Nat) (condition : Condition) (wp : Nat)

@[simp] theorem setZone_zoneSize :
    (device.setZone zone condition wp).zoneSize = device.zoneSize := rfl
@[simp] theorem setZone_zoneCap : (device.setZone zone condition wp).zoneCap = device.zoneCap := rfl
@[simp] theorem setZone_nrZones : (device.setZone zone condition wp).nrZones = device.nrZones := rfl
@[simp] theorem setZone_maxOpen : (device.setZone zone condition wp).maxOpen = device.maxOpen := rfl
@[simp] theorem setZone_condition : (device.setZone zone condition wp).condition =
    Function.update device.condition zone condition := rfl
@[simp] theorem setZone_wp : (device.setZone zone condition wp).wp =
    Function.update device.wp zone wp := rfl

theorem setZone_setZone (later : Condition) (end' : Nat) :
    (device.setZone zone condition wp).setZone zone later end' =
      device.setZone zone later end' := by
  simp [setZone]

end SetZone

variable {device : Device} {zone length : Nat}

/-! ## One zone -/

theorem zonesIn_one (inDevice : zone < device.nrZones) (positive : 0 < length)
    (fits : length ≤ device.zoneSize) :
    device.zonesIn (device.zoneSize * zone) length = [zone] := by
  have touches : ∀ other, (other * device.zoneSize < device.zoneSize * zone + length ∧
      device.zoneSize * zone < (other + 1) * device.zoneSize) ↔ other = zone := by
    intro other
    constructor
    · intro given
      rcases Nat.lt_trichotomy other zone with before | same | after
      · have order : (other + 1) * device.zoneSize ≤ zone * device.zoneSize :=
          Nat.mul_le_mul_right _ before
        rw [Nat.mul_comm zone] at order
        omega
      · exact same
      · have order : (zone + 1) * device.zoneSize ≤ other * device.zoneSize :=
          Nat.mul_le_mul_right _ after
        rw [Nat.succ_mul, Nat.mul_comm zone] at order
        omega
    · intro same
      subst same
      rw [Nat.succ_mul, Nat.mul_comm other]
      omega
  have only : ∀ bound, ((List.range bound).filter fun other =>
      decide (other * device.zoneSize < device.zoneSize * zone + length ∧
        device.zoneSize * zone < (other + 1) * device.zoneSize)) =
      if zone < bound then [zone] else [] := by
    intro bound
    induction bound with
    | zero => rfl
    | succ bound ih =>
        rw [List.range_succ, List.filter_append, ih]
        by_cases here : bound = zone
        · simp [touches, here]
        · have apart : zone < bound + 1 ↔ zone < bound := by omega
          simp [touches, here, apart]
  rw [zonesIn, only, if_pos inDevice]

/-- The device takes a command on a range of one zone as it takes it on the zone. -/
theorem run_openZones (inDevice : zone < device.nrZones) (positive : 0 < length)
    (fits : length ≤ device.zoneSize) :
    device.run [.openZones (device.zoneSize * zone) length] = device.openZone zone := by
  simp [run, execute, zonesIn_one inDevice positive fits]

theorem run_finishZones (inDevice : zone < device.nrZones) (positive : 0 < length)
    (fits : length ≤ device.zoneSize) :
    device.run [.finishZones (device.zoneSize * zone) length] =
      some (device.setZone zone .full device.zoneCap) := by
  simp [run, execute, zonesIn_one inDevice positive fits, finishZone]

theorem run_resetZones (inDevice : zone < device.nrZones) (positive : 0 < length)
    (fits : length ≤ device.zoneSize) :
    device.run [.resetZones (device.zoneSize * zone) length] =
      some (device.setZone zone .empty 0) := by
  simp [run, execute, zonesIn_one inDevice positive fits, resetZone]

theorem openZone_empty (isEmpty : device.condition zone = .empty)
    (room : device.openCount < device.maxOpen) :
    device.openZone zone = some (device.setZone zone .opened 0) := by
  simp [openZone, isEmpty, room]

/-! ## Writes one after the other -/

def writes : Nat → List Nat → List Command
  | _, [] => []
  | offset, size :: rest => .write offset size :: writes (offset + size) rest

/-- Pieces that follow each other from the write pointer of an open zone are taken, and
leave it as one write of all of them would. -/
theorem run_writes (inDevice : zone < device.nrZones) (capFits : device.zoneCap ≤ device.zoneSize)
    (sizes : List Nat) :
    ∀ {device' : Device} {start : Nat}, device' = device.setZone zone .opened start →
      (∀ size ∈ sizes, 0 < size) → sizes ≠ [] → start + sizes.sum ≤ device.zoneCap →
      device'.run (writes (device.zoneSize * zone + start) sizes) =
        some (device.setZone zone
          (if start + sizes.sum = device.zoneCap then .full else .opened)
          (start + sizes.sum)) := by
  induction sizes with
  | nil => exact fun _ _ none => absurd rfl none
  | cons size rest ih =>
      intro device' start here positive _ room
      subst here
      have someSize : 0 < size := positive size List.mem_cons_self
      rw [List.sum_cons] at room ⊢
      have inside : start < device.zoneSize := by omega
      have zoneOf : (device.zoneSize * zone + start) / device.zoneSize = zone := by
        rw [Nat.mul_add_div (by omega), Nat.div_eq_of_lt inside, Nat.add_zero]
      have offsetOf : (device.zoneSize * zone + start) % device.zoneSize = start := by
        rw [Nat.mul_add_mod, Nat.mod_eq_of_lt inside]
      have taken : (device.setZone zone .opened start).execute
          (.write (device.zoneSize * zone + start) size) =
            some (device.setZone zone
              (if start + size = device.zoneCap then .full else .opened) (start + size)) := by
        simp only [execute, setZone_zoneSize, zoneOf, offsetOf, writeZone]
        rw [if_pos ⟨inDevice, by simp, someSize, by simpa using (by omega), .inl (by simp)⟩,
          setZone_setZone]
        rfl
      cases restEq : rest with
      | nil =>
          rw [writes, run_cons taken]
          rfl
      | cons next more =>
          have nextPositive : 0 < next := positive next (by simp [restEq])
          have notYet : start + size ≠ device.zoneCap := by
            rw [restEq, List.sum_cons] at room
            omega
          rw [if_neg notYet] at taken
          rw [writes, run_cons taken, Nat.add_assoc, ← Nat.add_assoc start, ← restEq]
          exact ih rfl (fun other member => positive other (List.mem_cons_of_mem _ member))
            (by simp [restEq]) (by omega)

/-- The pieces of a transfer that breaks off after `moved` bytes; the last one may be short. -/
def torn (moved : Nat) : List Nat → List Nat
  | [] => []
  | size :: rest =>
      if moved = 0 then []
      else if moved < size then [moved]
      else size :: torn (moved - size) rest

theorem torn_zero (sizes : List Nat) : torn 0 sizes = [] := by
  cases sizes <;> rfl

theorem torn_spec (sizes : List Nat) : ∀ {moved : Nat}, moved ≤ sizes.sum →
    (torn moved sizes).sum = moved ∧
      ((∀ size ∈ sizes, 0 < size) → ∀ size ∈ torn moved sizes, 0 < size) := by
  induction sizes with
  | nil =>
      intro moved within
      rw [List.sum_nil] at within
      exact ⟨(Nat.le_zero.mp within).symm, fun positive => positive⟩
  | cons size rest ih =>
      intro moved within
      rw [List.sum_cons] at within
      unfold torn
      split
      next none => exact ⟨none.symm, fun _ _ member => absurd member List.not_mem_nil⟩
      next some =>
          split
          next short =>
              refine ⟨List.sum_singleton, fun _ piece member => ?_⟩
              rw [List.mem_singleton.mp member]
              exact Nat.pos_of_ne_zero some
          next whole =>
              obtain ⟨sum, positive⟩ := @ih (moved - size) (by omega)
              refine ⟨by rw [List.sum_cons, sum]; omega, fun all piece member => ?_⟩
              rcases List.mem_cons.mp member with rfl | later
              · exact all _ List.mem_cons_self
              · exact positive (fun other inside => all other (List.mem_cons_of_mem _ inside))
                  piece later

/-- A write that does not start at the write pointer is refused. -/
theorem run_writes_refused {offset : Nat} {sizes : List Nat} (some : sizes ≠ [])
    (elsewhere : device.wp (offset / device.zoneSize) ≠ offset % device.zoneSize) :
    device.run (writes offset sizes) = none := by
  cases sizes with
  | nil => exact absurd rfl some
  | cons size rest =>
      have refused : device.execute (.write offset size) = none := by
        rw [execute, writeZone, if_neg fun taken => elsewhere taken.2.1]
      rw [writes, run, List.foldlM_cons, refused]
      rfl

end Device

end ZonedStorage
