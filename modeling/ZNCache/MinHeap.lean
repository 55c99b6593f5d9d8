import Mathlib.Data.List.Nodup
import Mathlib.Logic.Function.Basic
import ZNCache.Machine

/-!
# Min-heap

`arr` holds handles, the pointers of the source; `entry` is the memory they point
to, which outlives an extraction.  The handle `fresh` has not been allocated yet.
-/

set_option autoImplicit false

namespace ZNCache

structure ZnMinheapEntry where
  data : Nat
  priority : Nat
  index : Nat
  deriving DecidableEq, Repr

structure ZnMinheap where
  arr : List Nat
  capacity : Nat
  entry : Nat → ZnMinheapEntry
  fresh : Nat

namespace ZnMinheap

def size (heap : ZnMinheap) : Nat := heap.arr.length

/-- The handle at an array position, which callers keep below `size`. -/
def handleAt (heap : ZnMinheap) (index : Nat) : Nat := heap.arr.getD index 0

def priorityAt (heap : ZnMinheap) (index : Nat) : Nat :=
  (heap.entry (heap.handleAt index)).priority

def setIndex (heap : ZnMinheap) (handle index : Nat) : ZnMinheap :=
  { heap with
    entry := Function.update heap.entry handle { heap.entry handle with index := index } }

/-- Exchanges two pointers, then rewrites both `index` fields. -/
def swap (heap : ZnMinheap) (i j : Nat) : ZnMinheap :=
  (({ heap with arr := (heap.arr.set i (heap.handleAt j)).set j (heap.handleAt i) }).setIndex
    (heap.handleAt j) i).setIndex (heap.handleAt i) j

/-- The loop moves to the parent, so it ends within `index` passes. -/
def bubbleUpLoop : Nat → ZnMinheap → Nat → ZnMinheap
  | 0, heap, _ => heap
  | passes + 1, heap, index =>
      if 0 < index then
        let parent := (index - 1) / 2
        if heap.priorityAt index < heap.priorityAt parent then
          bubbleUpLoop passes (heap.swap index parent) parent
        else heap
      else heap

def bubbleUp (heap : ZnMinheap) (index : Nat) : ZnMinheap := bubbleUpLoop index heap index

def smallest (heap : ZnMinheap) (index : Nat) : Nat :=
  let left := u32 (2 * index + 1)
  let right := u32 (2 * index + 2)
  let first :=
    if left < heap.size ∧ heap.priorityAt left < heap.priorityAt index then left else index
  if right < heap.size ∧ heap.priorityAt right < heap.priorityAt first then right else first

def bubbleDownLoop : Nat → ZnMinheap → Nat → ZnMinheap
  | 0, heap, _ => heap
  | passes + 1, heap, index =>
      if heap.smallest index ≠ index then
        bubbleDownLoop passes (heap.swap index (heap.smallest index)) (heap.smallest index)
      else heap

def bubbleDown (heap : ZnMinheap) (index : Nat) : ZnMinheap :=
  bubbleDownLoop heap.size heap index

end ZnMinheap

def znMinheapInit (capacity : Nat) : ZnMinheap where
  arr := []
  capacity := capacity
  entry := fun _ => ⟨0, 0, 0⟩
  fresh := 0

/-- `minheap_realloc` when the array is full. -/
def ZnMinheap.grow (heap : ZnMinheap) : ZnMinheap :=
  if heap.size = heap.capacity then { heap with capacity := u32 (heap.capacity * 2) } else heap

def znMinheapInsert (heap : ZnMinheap) (data priority : Nat) : Nat × ZnMinheap :=
  let grown := heap.grow
  let placed : ZnMinheap := { grown with
    arr := grown.arr ++ [grown.fresh]
    entry := Function.update grown.entry grown.fresh ⟨data, priority, grown.size⟩
    fresh := grown.fresh + 1 }
  (grown.fresh, placed.bubbleUp grown.size)

def znMinheapExtractMin (heap : ZnMinheap) : Option (Nat × ZnMinheap) :=
  match heap.arr with
  | [] => none
  | min :: rest =>
      match rest.getLast? with
      | none => some (min, { heap with arr := [] })
      | some last =>
          let moved := ({ heap with arr := last :: rest.dropLast } : ZnMinheap).setIndex last 0
          some (min, moved.bubbleDown 0)

/-- A NULL entry and one whose index is out of range are turned down. -/
def znMinheapUpdateByEntry (heap : ZnMinheap) (handle : Option Nat) (newPriority : Nat) :
    Int × ZnMinheap :=
  match handle with
  | none => (-1, heap)
  | some handle =>
      let old := heap.entry handle
      if old.index ≥ heap.size then (-1, heap)
      else
        let changed := { heap with
          entry := Function.update heap.entry handle { old with priority := newPriority } }
        if newPriority < old.priority then (0, changed.bubbleUp old.index)
        else if newPriority > old.priority then (0, changed.bubbleDown old.index)
        else (0, changed)

namespace ZnMinheap

/-- The same handles in some order, with the same data and priorities. -/
structure Rearranged (before after : ZnMinheap) : Prop where
  handles : after.arr.Perm before.arr
  data : ∀ handle, (after.entry handle).data = (before.entry handle).data
  priority : ∀ handle, (after.entry handle).priority = (before.entry handle).priority
  fresh : after.fresh = before.fresh

variable {heap : ZnMinheap}

theorem Rearranged.refl (heap : ZnMinheap) : Rearranged heap heap :=
  ⟨List.Perm.refl _, fun _ => rfl, fun _ => rfl, rfl⟩

theorem Rearranged.trans {first second third : ZnMinheap} (one : Rearranged first second)
    (two : Rearranged second third) : Rearranged first third :=
  ⟨two.handles.trans one.handles, fun handle => (two.data handle).trans (one.data handle),
    fun handle => (two.priority handle).trans (one.priority handle),
    two.fresh.trans one.fresh⟩

theorem Rearranged.size {before after : ZnMinheap} (same : Rearranged before after) :
    after.size = before.size := same.handles.length_eq

theorem setIndex_rearranged (heap : ZnMinheap) (handle index : Nat) :
    Rearranged heap (heap.setIndex handle index) := by
  refine ⟨List.Perm.refl _, fun other => ?_, fun other => ?_, rfl⟩
  · by_cases same : other = handle
    · subst same
      simp [setIndex]
    · simp [setIndex, same]
  · by_cases same : other = handle
    · subst same
      simp [setIndex]
    · simp [setIndex, same]

theorem swap_rearranged {i j : Nat} (iBelow : i < heap.size) (jBelow : j < heap.size) :
    Rearranged heap (heap.swap i j) := by
  have iAt : heap.handleAt i = heap.arr[i] := by
    simp [handleAt, List.getElem?_eq_getElem iBelow]
  have jAt : heap.handleAt j = heap.arr[j] := by
    simp [handleAt, List.getElem?_eq_getElem jBelow]
  have exchanged : Rearranged heap
      { heap with arr := (heap.arr.set i (heap.handleAt j)).set j (heap.handleAt i) } := by
    refine ⟨?_, fun _ => rfl, fun _ => rfl, rfl⟩
    rw [iAt, jAt]
    apply List.set_set_perm iBelow jBelow
  exact (exchanged.trans (setIndex_rearranged _ _ _)).trans (setIndex_rearranged _ _ _)

theorem bubbleUpLoop_rearranged (passes : Nat) :
    ∀ (heap : ZnMinheap) (index : Nat), index < heap.size →
      Rearranged heap (bubbleUpLoop passes heap index) := by
  induction passes with
  | zero => exact fun heap _ _ => Rearranged.refl heap
  | succ passes ih =>
      intro heap index below
      simp only [bubbleUpLoop]
      split
      next positive =>
          split
          next =>
              have parentBelow : (index - 1) / 2 < heap.size := by omega
              have swapped := swap_rearranged below parentBelow
              apply swapped.trans
              apply ih
              rw [swapped.size]
              exact parentBelow
          next => exact Rearranged.refl heap
      next => exact Rearranged.refl heap

theorem smallest_below {index : Nat} (below : index < heap.size) :
    heap.smallest index < heap.size := by
  unfold smallest
  dsimp only
  by_cases left : u32 (2 * index + 1) < heap.size ∧
      heap.priorityAt (u32 (2 * index + 1)) < heap.priorityAt index
  · rw [if_pos left]
    split
    next right => exact right.1
    next => exact left.1
  · rw [if_neg left]
    split
    next right => exact right.1
    next => exact below

theorem bubbleDownLoop_rearranged (passes : Nat) :
    ∀ (heap : ZnMinheap) (index : Nat), index < heap.size →
      Rearranged heap (bubbleDownLoop passes heap index) := by
  induction passes with
  | zero => exact fun heap _ _ => Rearranged.refl heap
  | succ passes ih =>
      intro heap index below
      simp only [bubbleDownLoop]
      split
      next =>
          have childBelow := smallest_below below
          have swapped := swap_rearranged below childBelow
          apply swapped.trans
          apply ih
          rw [swapped.size]
          exact childBelow
      next => exact Rearranged.refl heap

theorem extractMin_spec {min : Nat} {after : ZnMinheap}
    (extracted : znMinheapExtractMin heap = some (min, after)) :
    heap.arr.Perm (min :: after.arr) ∧
      (∀ handle, (after.entry handle).data = (heap.entry handle).data) ∧
      (∀ handle, (after.entry handle).priority = (heap.entry handle).priority) ∧
      after.fresh = heap.fresh := by
  unfold znMinheapExtractMin at extracted
  cases arrEq : heap.arr with
  | nil => simp [arrEq] at extracted
  | cons first rest =>
      rw [arrEq] at extracted
      dsimp only at extracted
      cases lastEq : rest.getLast? with
      | none =>
          rw [lastEq] at extracted
          cases Option.some.inj extracted
          have none : rest = [] := List.getLast?_eq_none_iff.mp lastEq
          subst none
          exact ⟨List.Perm.refl _, fun _ => rfl, fun _ => rfl, rfl⟩
      | some last =>
          rw [lastEq] at extracted
          obtain ⟨rfl, rfl⟩ := Prod.mk.inj (Option.some.inj extracted)
          have moved := setIndex_rearranged { heap with arr := last :: rest.dropLast } last 0
          have sunk := bubbleDownLoop_rearranged
            (({ heap with arr := last :: rest.dropLast } : ZnMinheap).setIndex last 0).size
            (({ heap with arr := last :: rest.dropLast } : ZnMinheap).setIndex last 0) 0
            (by simp [size, setIndex])
          have same := moved.trans sunk
          refine ⟨List.Perm.cons _ ?_, same.data, same.priority, same.fresh⟩
          have split : rest = rest.dropLast ++ [last] := by
            obtain ⟨_, lastIs⟩ := List.getLast?_eq_some_iff.mp lastEq
            simp [lastIs]
          apply List.Perm.trans _ same.handles.symm
          conv_lhs => rw [split]
          exact List.perm_append_singleton _ _

theorem extractMin_none :
    znMinheapExtractMin heap = none ↔ heap.arr = [] := by
  unfold znMinheapExtractMin
  cases heap.arr with
  | nil => simp
  | cons first rest => cases last : rest.getLast? <;> simp [last]

theorem insert_spec (heap : ZnMinheap) (data priority : Nat) :
    (znMinheapInsert heap data priority).1 = heap.fresh ∧
      (znMinheapInsert heap data priority).2.arr.Perm (heap.fresh :: heap.arr) ∧
      ((znMinheapInsert heap data priority).2.entry heap.fresh).data = data ∧
      (∀ handle, handle ≠ heap.fresh →
        ((znMinheapInsert heap data priority).2.entry handle).data =
          (heap.entry handle).data) ∧
      (znMinheapInsert heap data priority).2.fresh = heap.fresh + 1 := by
  have grown : heap.grow.arr = heap.arr ∧ heap.grow.entry = heap.entry ∧
      heap.grow.fresh = heap.fresh := by
    unfold grow
    split <;> exact ⟨rfl, rfl, rfl⟩
  obtain ⟨sameArr, sameEntry, sameFresh⟩ := grown
  have floated := bubbleUpLoop_rearranged heap.grow.size
    { heap.grow with
      arr := heap.grow.arr ++ [heap.grow.fresh]
      entry := Function.update heap.grow.entry heap.grow.fresh ⟨data, priority, heap.grow.size⟩
      fresh := heap.grow.fresh + 1 } heap.grow.size (by simp [size])
  refine ⟨sameFresh, ?_, ?_, fun handle old => ?_, ?_⟩
  · apply floated.handles.trans
    rw [sameArr, sameFresh]
    exact List.perm_append_singleton _ _
  · rw [← sameFresh]
    apply (floated.data _).trans
    simp
  · apply (floated.data _).trans
    simp [sameFresh, sameEntry, old]
  · apply floated.fresh.trans
    simp [sameFresh]

/-! ### The data in the heap -/

def zones (heap : ZnMinheap) : List Nat := heap.arr.map fun handle => (heap.entry handle).data

theorem Rearranged.zones {before after : ZnMinheap} (same : Rearranged before after) :
    after.zones.Perm before.zones := by
  have sameData : after.zones = after.arr.map fun handle => (before.entry handle).data :=
    List.map_congr_left fun handle _ => same.data handle
  rw [sameData]
  exact same.handles.map _

theorem zones_extractMin {rest : ZnMinheap} {handle : Nat}
    (extracted : znMinheapExtractMin heap = some (handle, rest)) :
    heap.zones.Perm ((rest.entry handle).data :: rest.zones) := by
  obtain ⟨handles, data, _, _⟩ := extractMin_spec extracted
  have sameData : heap.zones = heap.arr.map fun handle => (rest.entry handle).data :=
    List.map_congr_left fun other _ => (data other).symm
  rw [sameData]
  exact handles.map _

def Allocated (heap : ZnMinheap) : Prop := ∀ handle ∈ heap.arr, handle < heap.fresh

theorem Allocated.zones_insert (allocated : heap.Allocated) (data priority : Nat) :
    (znMinheapInsert heap data priority).2.zones.Perm (data :: heap.zones) ∧
      (znMinheapInsert heap data priority).2.Allocated := by
  obtain ⟨_, handles, newData, oldData, fresh⟩ := insert_spec heap data priority
  constructor
  · have moved := handles.map fun handle =>
      ((znMinheapInsert heap data priority).2.entry handle).data
    rw [List.map_cons, newData] at moved
    have sameData : (heap.arr.map fun handle =>
        ((znMinheapInsert heap data priority).2.entry handle).data) = heap.zones :=
      List.map_congr_left fun handle member =>
        oldData handle (Nat.ne_of_lt (allocated handle member))
    rw [sameData] at moved
    exact moved
  · intro handle member
    rw [fresh]
    rcases List.mem_cons.mp (handles.mem_iff.mp member) with rfl | old
    · exact Nat.lt_succ_self _
    · exact Nat.lt_succ_of_lt (allocated handle old)

theorem Allocated.extractMin {rest : ZnMinheap} {handle : Nat} (allocated : heap.Allocated)
    (extracted : znMinheapExtractMin heap = some (handle, rest)) : rest.Allocated := by
  obtain ⟨handles, _, _, fresh⟩ := extractMin_spec extracted
  intro other member
  rw [fresh]
  exact allocated other (handles.mem_iff.mpr (List.mem_cons_of_mem _ member))

/-- An update changes a priority and the order, nothing else, whatever handle it is given. -/
theorem updateByEntry_handles (heap : ZnMinheap) (handle : Option Nat) (newPriority : Nat) :
    (znMinheapUpdateByEntry heap handle newPriority).2.arr.Perm heap.arr ∧
      (∀ other, ((znMinheapUpdateByEntry heap handle newPriority).2.entry other).data =
        (heap.entry other).data) ∧
      (znMinheapUpdateByEntry heap handle newPriority).2.fresh = heap.fresh := by
  unfold znMinheapUpdateByEntry
  cases handle with
  | none => exact ⟨List.Perm.refl _, fun _ => rfl, rfl⟩
  | some handle =>
      dsimp only
      have sameData : ∀ other, (Function.update heap.entry handle
          { heap.entry handle with priority := newPriority } other).data =
            (heap.entry other).data := by
        intro other
        by_cases here : other = handle
        · subst here
          simp
        · simp [here]
      have kept : ∀ after, Rearranged { heap with
          entry := Function.update heap.entry handle
            { heap.entry handle with priority := newPriority } } after →
          after.arr.Perm heap.arr ∧ (∀ other, (after.entry other).data = (heap.entry other).data) ∧
            after.fresh = heap.fresh := by
        intro after moved
        exact ⟨moved.handles, fun other => (moved.data other).trans (sameData other), moved.fresh⟩
      split
      next => exact ⟨List.Perm.refl _, fun _ => rfl, rfl⟩
      next inside =>
          have below := Nat.lt_of_not_le inside
          split
          next => exact kept _ (bubbleUpLoop_rearranged _ _ _ below)
          next =>
              split
              next => exact kept _ (bubbleDownLoop_rearranged _ _ _ below)
              next => exact kept _ (Rearranged.refl _)

theorem zones_updateByEntry (heap : ZnMinheap) (handle : Option Nat) (newPriority : Nat) :
    (znMinheapUpdateByEntry heap handle newPriority).2.zones.Perm heap.zones ∧
      (heap.Allocated → (znMinheapUpdateByEntry heap handle newPriority).2.Allocated) := by
  obtain ⟨handles, data, fresh⟩ := updateByEntry_handles heap handle newPriority
  constructor
  · have sameData : (znMinheapUpdateByEntry heap handle newPriority).2.zones =
        (znMinheapUpdateByEntry heap handle newPriority).2.arr.map fun other =>
          (heap.entry other).data :=
      List.map_congr_left fun other _ => data other
    rw [sameData]
    exact handles.map _
  · intro allocated other member
    rw [fresh]
    exact allocated other (handles.mem_iff.mp member)

end ZnMinheap

end ZNCache
