import Mathlib.Data.Nat.Init
import ZNCache.Lib.HeapOrder
import ZNCache.Lib.Transition
import ZNCache.MinHeap

/-!
# The min-heap as a priority queue

Both sift loops keep every handle's index exact and end in heap order.  Over runs, the
heap holds the entries that were inserted and not extracted, with the priority last set.
-/

set_option autoImplicit false

namespace ZNCache

open HeapOrder Transition

namespace ZnMinheap

variable {heap : ZnMinheap}

/-! ## Positions -/

theorem handleAt_of_lt {index : Nat} (below : index < heap.size) :
    heap.handleAt index = heap.arr[index] := by
  simp [handleAt, List.getElem?_eq_getElem below]

theorem handleAt_mem {index : Nat} (below : index < heap.size) :
    heap.handleAt index ∈ heap.arr := by
  rw [handleAt_of_lt below]
  exact List.getElem_mem below

theorem exists_handleAt {handle : Nat} (member : handle ∈ heap.arr) :
    ∃ index < heap.size, heap.handleAt index = handle := by
  obtain ⟨index, below, here⟩ := List.mem_iff_getElem.mp member
  exact ⟨index, below, (handleAt_of_lt below).trans here⟩

/-- Every handle is in the array once and its `index` is its position. -/
structure Indexed (heap : ZnMinheap) : Prop where
  once : heap.arr.Nodup
  index : ∀ position < heap.size, (heap.entry (heap.handleAt position)).index = position

theorem Indexed.position (indexed : Indexed heap) {i j : Nat} (iBelow : i < heap.size)
    (jBelow : j < heap.size) (same : heap.handleAt i = heap.handleAt j) : i = j := by
  rw [← indexed.index i iBelow, same, indexed.index j jBelow]

theorem handleAt_swap {i j : Nat} (iBelow : i < heap.size) (jBelow : j < heap.size)
    (position : Nat) :
    (heap.swap i j).handleAt position = heap.handleAt (Equiv.swap i j position) := by
  have exchanged : (heap.swap i j).handleAt position =
      ((heap.arr.set i (heap.handleAt j)).set j (heap.handleAt i)).getD position 0 := rfl
  have inArr : i < heap.arr.length := iBelow
  have alsoInArr : j < heap.arr.length := jBelow
  rw [exchanged, List.getD_eq_getElem?_getD, List.getElem?_set, List.length_set,
    List.getElem?_set]
  by_cases right : position = j
  · subst right
    simp [alsoInArr]
  · by_cases left : position = i
    · subst left
      simp [Ne.symm right, inArr]
    · simp [Ne.symm right, Ne.symm left, Equiv.swap_apply_of_ne_of_ne left right, handleAt]

theorem priorityAt_swap {i j : Nat} (iBelow : i < heap.size) (jBelow : j < heap.size) :
    (heap.swap i j).priorityAt = heap.priorityAt ∘ Equiv.swap i j := by
  funext position
  have same := (swap_rearranged iBelow jBelow).priority
  rw [Function.comp, priorityAt, priorityAt, same, handleAt_swap iBelow jBelow]

theorem Indexed.swap (indexed : Indexed heap) {i j : Nat} (iBelow : i < heap.size)
    (jBelow : j < heap.size) (apart : i ≠ j) : Indexed (heap.swap i j) := by
  have moved := swap_rearranged iBelow jBelow
  refine ⟨moved.handles.nodup_iff.mpr indexed.once, fun position below => ?_⟩
  rw [moved.size] at below
  rw [handleAt_swap iBelow jBelow]
  have other {k : Nat} (kBelow : k < heap.size) (notLeft : k ≠ i) (notRight : k ≠ j) :
      (heap.swap i j).entry (heap.handleAt k) = heap.entry (heap.handleAt k) := by
    have fromLeft : heap.handleAt k ≠ heap.handleAt i := fun same =>
      notLeft (indexed.position kBelow iBelow same)
    have fromRight : heap.handleAt k ≠ heap.handleAt j := fun same =>
      notRight (indexed.position kBelow jBelow same)
    simp [ZnMinheap.swap, setIndex, fromLeft, fromRight]
  by_cases left : position = i
  · subst left
    have handles : heap.handleAt j ≠ heap.handleAt position := fun same =>
      apart (indexed.position jBelow iBelow same).symm
    simp [ZnMinheap.swap, setIndex, handles]
  · by_cases right : position = j
    · subst right
      simp [ZnMinheap.swap, setIndex]
    · rw [Equiv.swap_apply_of_ne_of_ne left right, other below left right]
      exact indexed.index position below

/-! ## The sift loops -/

theorem bubbleUpLoop_ordered (passes : Nat) :
    ∀ (heap : ZnMinheap) (index : Nat), index ≤ passes → index < heap.size →
      Indexed heap → RisingAt heap.size index heap.priorityAt →
      Indexed (bubbleUpLoop passes heap index) ∧
        Ordered heap.size (bubbleUpLoop passes heap index).priorityAt := by
  induction passes with
  | zero =>
      intro heap index atRoot _ indexed rising
      obtain rfl := Nat.le_zero.mp atRoot
      exact ⟨indexed, rising.finish fun positive => absurd positive (Nat.lt_irrefl 0)⟩
  | succ passes ih =>
      intro heap index enough below indexed rising
      simp only [bubbleUpLoop]
      split
      next positive =>
          have up : (index - 1) / 2 < index := parent_lt positive
          have parentBelow : (index - 1) / 2 < heap.size := by omega
          split
          next before =>
              have moved := rising.move positive below before
              have sameSize := (swap_rearranged below parentBelow).size
              rw [← sameSize] at moved ⊢
              apply ih _ _ (by omega) (by omega)
              · exact indexed.swap below parentBelow (by omega)
              · rw [priorityAt_swap below parentBelow]
                exact moved
          next stops =>
              exact ⟨indexed, rising.finish fun _ => Nat.le_of_not_lt stops⟩
      next atRoot =>
          exact ⟨indexed, rising.finish fun positive => absurd positive atRoot⟩

theorem smallest_spec {index : Nat} (below : index < heap.size) (fits : heap.size < 2 ^ 31) :
    (∀ child, 0 < child → child < heap.size → parent child = index →
        heap.priorityAt (heap.smallest index) ≤ heap.priorityAt child) ∧
      (heap.smallest index ≠ index →
        0 < heap.smallest index ∧ parent (heap.smallest index) = index ∧
          heap.priorityAt (heap.smallest index) < heap.priorityAt index) := by
  have left : u32 (2 * index + 1) = 2 * index + 1 := by
    exact_mod_cast u32_of_nat (by omega)
  have right : u32 (2 * index + 2) = 2 * index + 2 := by
    exact_mod_cast u32_of_nat (by omega)
  have children : ∀ child, 0 < child → parent child = index →
      child = 2 * index + 1 ∨ child = 2 * index + 2 := by
    intro child positive same
    unfold parent at same
    omega
  have parents : parent (2 * index + 1) = index ∧ parent (2 * index + 2) = index := by
    unfold parent
    omega
  unfold smallest
  simp only [left, right]
  by_cases takesLeft : 2 * index + 1 < heap.size ∧
      heap.priorityAt (2 * index + 1) < heap.priorityAt index
  · rw [if_pos takesLeft]
    by_cases takesRight : 2 * index + 2 < heap.size ∧
        heap.priorityAt (2 * index + 2) < heap.priorityAt (2 * index + 1)
    · rw [if_pos takesRight]
      refine ⟨fun child positive inside same => ?_, fun _ => ?_⟩
      · rcases children child positive same with rfl | rfl <;> omega
      · exact ⟨by omega, parents.2, by omega⟩
    · rw [if_neg takesRight]
      refine ⟨fun child positive inside same => ?_, fun _ => ?_⟩
      · rcases children child positive same with rfl | rfl <;> omega
      · exact ⟨by omega, parents.1, takesLeft.2⟩
  · rw [if_neg takesLeft]
    by_cases takesRight : 2 * index + 2 < heap.size ∧
        heap.priorityAt (2 * index + 2) < heap.priorityAt index
    · rw [if_pos takesRight]
      refine ⟨fun child positive inside same => ?_, fun _ => ?_⟩
      · rcases children child positive same with rfl | rfl <;> omega
      · exact ⟨by omega, parents.2, takesRight.2⟩
    · rw [if_neg takesRight]
      refine ⟨fun child positive inside same => ?_, fun moved => absurd rfl moved⟩
      rcases children child positive same with rfl | rfl <;> omega

theorem bubbleDownLoop_ordered (passes : Nat) :
    ∀ (heap : ZnMinheap) (index : Nat), heap.size ≤ passes + index → index < heap.size →
      heap.size < 2 ^ 31 → Indexed heap → SinkingAt heap.size index heap.priorityAt →
      Indexed (bubbleDownLoop passes heap index) ∧
        Ordered heap.size (bubbleDownLoop passes heap index).priorityAt := by
  induction passes with
  | zero =>
      intro heap index enough below
      omega
  | succ passes ih =>
      intro heap index enough below fits indexed sinking
      obtain ⟨least, isChild⟩ := smallest_spec below fits
      simp only [bubbleDownLoop]
      split
      next moves =>
          obtain ⟨positive, under, before⟩ := isChild moves
          have childBelow := smallest_below below
          have down : index < heap.smallest index := by
            have := parent_lt positive
            omega
          have moved := sinking.move positive childBelow under before least
          have sameSize := (swap_rearranged below childBelow).size
          rw [← sameSize] at moved fits ⊢
          apply ih _ _ (by omega) (by omega) fits
          · exact indexed.swap below childBelow (by omega)
          · rw [priorityAt_swap below childBelow]
            exact moved
      next stays =>
          refine ⟨indexed, sinking.finish fun child positive inside under => ?_⟩
          have atMost := least child positive inside under
          rwa [not_not.mp stays] at atMost

/-! ## The operations -/

/-- The array has room for its entries, each position is exact and the order holds. -/
structure QueueSound (heap : ZnMinheap) : Prop where
  indexed : Indexed heap
  ordered : Ordered heap.size heap.priorityAt
  allocated : heap.Allocated
  room : heap.size ≤ heap.capacity
  someRoom : 0 < heap.capacity

theorem QueueSound.init {capacity : Nat} (positive : 1 ≤ capacity) :
    QueueSound (znMinheapInit capacity) where
  indexed := ⟨List.nodup_nil, fun _ below => absurd below (Nat.not_lt_zero _)⟩
  ordered := fun _ _ below => absurd below (Nat.not_lt_zero _)
  allocated := fun _ member => absurd member List.not_mem_nil
  room := Nat.zero_le _
  someRoom := positive

theorem QueueSound.root_le (sound : QueueSound heap) {handle : Nat} (member : handle ∈ heap.arr) :
    (heap.entry (heap.handleAt 0)).priority ≤ (heap.entry handle).priority := by
  obtain ⟨index, below, rfl⟩ := exists_handleAt member
  exact sound.ordered.root_le index below

theorem grow_spec (heap : ZnMinheap) :
    heap.grow.arr = heap.arr ∧ heap.grow.entry = heap.entry ∧ heap.grow.fresh = heap.fresh := by
  unfold grow
  split <;> exact ⟨rfl, rfl, rfl⟩

theorem bubbleUpLoop_capacity (passes : Nat) :
    ∀ (heap : ZnMinheap) (index : Nat), (bubbleUpLoop passes heap index).capacity =
      heap.capacity := by
  induction passes with
  | zero => exact fun _ _ => rfl
  | succ passes ih =>
      intro heap index
      simp only [bubbleUpLoop]
      split
      · split
        · exact ih _ _
        · rfl
      · rfl

theorem bubbleDownLoop_capacity (passes : Nat) :
    ∀ (heap : ZnMinheap) (index : Nat), (bubbleDownLoop passes heap index).capacity =
      heap.capacity := by
  induction passes with
  | zero => exact fun _ _ => rfl
  | succ passes ih =>
      intro heap index
      simp only [bubbleDownLoop]
      split
      · exact ih _ _
      · rfl

theorem QueueSound.grow (sound : QueueSound heap) (fits : heap.size + 1 < 2 ^ 31) :
    heap.size + 1 ≤ heap.grow.capacity := by
  have room := sound.room
  have positive := sound.someRoom
  unfold ZnMinheap.grow
  split
  next full =>
      have doubled : u32 (heap.capacity * 2) = heap.capacity * 2 := by
        exact_mod_cast u32_of_nat (by omega)
      simp only [doubled]
      omega
  next notFull => omega

def appended (heap : ZnMinheap) (data priority : Nat) : ZnMinheap :=
  { heap.grow with
    arr := heap.grow.arr ++ [heap.grow.fresh]
    entry := Function.update heap.grow.entry heap.grow.fresh ⟨data, priority, heap.grow.size⟩
    fresh := heap.grow.fresh + 1 }

section Appended

variable (data priority : Nat)

theorem appended_size : (heap.appended data priority).size = heap.size + 1 := by
  simp [appended, ZnMinheap.size, grow_spec]

theorem appended_entry :
    (heap.appended data priority).entry =
      Function.update heap.entry heap.fresh ⟨data, priority, heap.size⟩ := by
  simp [appended, ZnMinheap.size, grow_spec]

theorem appended_handleAt {position : Nat} (below : position < heap.size) :
    (heap.appended data priority).handleAt position = heap.handleAt position := by
  have inArr : position < heap.arr.length := below
  simp [appended, handleAt, grow_spec, List.getElem?_append_left inArr]

theorem appended_handleAt_last :
    (heap.appended data priority).handleAt heap.size = heap.fresh := by
  simp [appended, handleAt, grow_spec, ZnMinheap.size]

theorem insert_eq :
    (znMinheapInsert heap data priority).2 =
      bubbleUpLoop heap.size (heap.appended data priority) heap.size := by
  have sameSize : heap.grow.size = heap.size := congrArg List.length (grow_spec heap).1
  simp only [znMinheapInsert, bubbleUp, sameSize, appended]

end Appended

theorem Allocated.ne_fresh (allocated : heap.Allocated) {handle : Nat}
    (member : handle ∈ heap.arr) : handle ≠ heap.fresh := by
  intro same
  subst same
  exact Nat.lt_irrefl _ (allocated heap.fresh member)

theorem Indexed.appended (indexed : Indexed heap) (allocated : heap.Allocated)
    (data priority : Nat) : Indexed (heap.appended data priority) := by
  constructor
  · have new : heap.fresh ∉ heap.arr := fun member => allocated.ne_fresh member rfl
    simp only [ZnMinheap.appended, grow_spec]
    exact indexed.once.append (List.nodup_singleton _) (by simpa using new)
  · intro position below
    rw [appended_size] at below
    rw [appended_entry]
    rcases Nat.lt_succ_iff_lt_or_eq.mp below with old | rfl
    · rw [appended_handleAt _ _ old, Function.update_of_ne (allocated.ne_fresh (handleAt_mem old))]
      exact indexed.index position old
    · rw [appended_handleAt_last, Function.update_self]

theorem QueueSound.appended_rising (sound : QueueSound heap) (data priority : Nat) :
    RisingAt (heap.appended data priority).size heap.size
      (heap.appended data priority).priorityAt := by
  rw [appended_size]
  apply sound.ordered.append
  intro position below
  rw [priorityAt, appended_handleAt _ _ below, appended_entry,
    Function.update_of_ne (sound.allocated.ne_fresh (handleAt_mem below))]
  rfl

theorem QueueSound.insert (sound : QueueSound heap) (fits : heap.size + 1 < 2 ^ 31)
    (data priority : Nat) :
    QueueSound (znMinheapInsert heap data priority).2 ∧
      ((znMinheapInsert heap data priority).2.entry heap.fresh).priority = priority ∧
      ∀ handle, handle ≠ heap.fresh →
        ((znMinheapInsert heap data priority).2.entry handle).priority =
          (heap.entry handle).priority := by
  have last : heap.size < (heap.appended data priority).size := by
    rw [appended_size]
    exact Nat.lt_succ_self _
  have ordered := bubbleUpLoop_ordered heap.size _ heap.size (le_refl _) last
    (sound.indexed.appended sound.allocated data priority) (sound.appended_rising data priority)
  have moved := bubbleUpLoop_rearranged heap.size _ heap.size last
  have room : (heap.appended data priority).size ≤ heap.grow.capacity := by
    rw [appended_size]
    exact sound.grow fits
  have capacity : (bubbleUpLoop heap.size (heap.appended data priority) heap.size).capacity =
      heap.grow.capacity := bubbleUpLoop_capacity _ _ _
  have allocated := (sound.allocated.zones_insert data priority).2
  rw [insert_eq] at allocated ⊢
  refine ⟨⟨ordered.1, ?_, allocated, ?_, ?_⟩, ?_, fun handle old => ?_⟩
  · rw [moved.size]
    exact ordered.2
  · rw [moved.size, capacity]
    exact room
  · rw [capacity]
    exact Nat.lt_of_lt_of_le (Nat.zero_lt_of_lt last) room
  · rw [moved.priority, appended_entry, Function.update_self]
  · rw [moved.priority, appended_entry, Function.update_of_ne old]

/-! The root is taken, and the last entry sinks from its place. -/

def rootReplaced (heap : ZnMinheap) (last : Nat) (rest : List Nat) : ZnMinheap :=
  ({ heap with arr := last :: rest.dropLast } : ZnMinheap).setIndex last 0

section RootReplaced

variable {min last : Nat} {rest : List Nat}

theorem rootReplaced_size (split : heap.arr = min :: rest) (lastEq : rest.getLast? = some last) :
    (heap.rootReplaced last rest).size + 1 = heap.size := by
  obtain ⟨front, rfl⟩ := List.getLast?_eq_some_iff.mp lastEq
  simp [rootReplaced, setIndex, ZnMinheap.size, split]

theorem rootReplaced_handleAt (split : heap.arr = min :: rest)
    (lastEq : rest.getLast? = some last) {position : Nat}
    (below : position < (heap.rootReplaced last rest).size) (notRoot : position ≠ 0) :
    (heap.rootReplaced last rest).handleAt position = heap.handleAt position := by
  obtain ⟨front, rfl⟩ := List.getLast?_eq_some_iff.mp lastEq
  obtain ⟨before, rfl⟩ := Nat.exists_eq_succ_of_ne_zero notRoot
  have inFront : before < front.length := by
    simpa [rootReplaced, setIndex, ZnMinheap.size] using below
  simp [rootReplaced, setIndex, handleAt, split, List.getElem?_append_left inFront]

theorem rootReplaced_last (split : heap.arr = min :: rest) (lastEq : rest.getLast? = some last) :
    heap.handleAt (heap.rootReplaced last rest).size = last := by
  obtain ⟨front, rfl⟩ := List.getLast?_eq_some_iff.mp lastEq
  simp [rootReplaced, setIndex, handleAt, ZnMinheap.size, split]

theorem Indexed.rootReplaced (indexed : Indexed heap) (split : heap.arr = min :: rest)
    (lastEq : rest.getLast? = some last) : Indexed (heap.rootReplaced last rest) := by
  have smaller := rootReplaced_size split lastEq
  have lastAt := rootReplaced_last split lastEq
  constructor
  · have once := indexed.once
    obtain ⟨front, rfl⟩ := List.getLast?_eq_some_iff.mp lastEq
    rw [split] at once
    simp only [ZnMinheap.rootReplaced, setIndex, List.dropLast_concat]
    exact ((List.perm_append_singleton _ _).nodup_iff.mp (List.nodup_cons.mp once).2)
  · intro position below
    by_cases root : position = 0
    · subst root
      simp [ZnMinheap.rootReplaced, setIndex, handleAt]
    · have other : heap.handleAt position ≠ last := fun same => by
        have equal := indexed.position (by omega) (by omega) (same.trans lastAt.symm)
        omega
      rw [rootReplaced_handleAt split lastEq below root]
      have sameEntry : (heap.rootReplaced last rest).entry (heap.handleAt position) =
          heap.entry (heap.handleAt position) := by simp [ZnMinheap.rootReplaced, setIndex, other]
      rw [sameEntry]
      exact indexed.index position (by omega)

theorem QueueSound.rootReplaced_sinking (sound : QueueSound heap) (split : heap.arr = min :: rest)
    (lastEq : rest.getLast? = some last) :
    SinkingAt (heap.rootReplaced last rest).size 0 (heap.rootReplaced last rest).priorityAt := by
  have ordered := sound.ordered
  rw [← rootReplaced_size split lastEq] at ordered
  apply ordered.moveLast
  intro position below notRoot
  rw [priorityAt, rootReplaced_handleAt split lastEq below notRoot, priorityAt]
  exact (setIndex_rearranged { heap with arr := last :: rest.dropLast } last 0).priority _

end RootReplaced

theorem QueueSound.extractMin (sound : QueueSound heap) (fits : heap.size < 2 ^ 31)
    {handle : Nat} {after : ZnMinheap}
    (extracted : znMinheapExtractMin heap = some (handle, after)) :
    QueueSound after ∧ heap.handleAt 0 = handle := by
  have allocated := sound.allocated.extractMin extracted
  have room := sound.room
  unfold znMinheapExtractMin at extracted
  cases split : heap.arr with
  | nil => simp [split] at extracted
  | cons min rest =>
      rw [split] at extracted
      dsimp only at extracted
      cases lastEq : rest.getLast? with
      | none =>
          rw [lastEq] at extracted
          obtain ⟨rfl, rfl⟩ := Prod.mk.inj (Option.some.inj extracted)
          refine ⟨⟨⟨List.nodup_nil, fun _ below => absurd below (Nat.not_lt_zero _)⟩,
            fun _ _ below => absurd below (Nat.not_lt_zero _), allocated, Nat.zero_le _,
            sound.someRoom⟩, ?_⟩
          simp [handleAt, split]
      | some last =>
          rw [lastEq] at extracted
          obtain ⟨rfl, rfl⟩ := Prod.mk.inj (Option.some.inj extracted)
          have smaller := rootReplaced_size split lastEq
          have root : 0 < (heap.rootReplaced last rest).size := by
            simp [rootReplaced, setIndex, ZnMinheap.size]
          have ordered := bubbleDownLoop_ordered (heap.rootReplaced last rest).size _ 0
            (le_refl _) root (by omega) (sound.indexed.rootReplaced split lastEq)
            (sound.rootReplaced_sinking split lastEq)
          have moved := bubbleDownLoop_rearranged (heap.rootReplaced last rest).size _ 0 root
          have capacity : (bubbleDownLoop (heap.rootReplaced last rest).size
              (heap.rootReplaced last rest) 0).capacity = heap.capacity :=
            bubbleDownLoop_capacity _ _ _
          change QueueSound (bubbleDownLoop (heap.rootReplaced last rest).size
            (heap.rootReplaced last rest) 0) ∧ _
          refine ⟨⟨ordered.1, ?_, allocated, ?_, ?_⟩, ?_⟩
          · rw [moved.size]
            exact ordered.2
          · rw [moved.size, capacity]
            omega
          · rw [capacity]
            exact sound.someRoom
          · simp [handleAt, split]

/-! A priority changes in place, then its entry rises or sinks. -/

def reprioritized (heap : ZnMinheap) (handle newPriority : Nat) : ZnMinheap :=
  { heap with
    entry := Function.update heap.entry handle
      { heap.entry handle with priority := newPriority } }

section Reprioritized

variable {handle newPriority : Nat}

theorem reprioritized_entry (other : Nat) :
    ((heap.reprioritized handle newPriority).entry other).index = (heap.entry other).index ∧
      ((heap.reprioritized handle newPriority).entry other).data = (heap.entry other).data ∧
      ((heap.reprioritized handle newPriority).entry other).priority =
        if other = handle then newPriority else (heap.entry other).priority := by
  by_cases same : other = handle
  · simp [reprioritized, same]
  · simp [reprioritized, same]

theorem Indexed.reprioritized (indexed : Indexed heap) (handle newPriority : Nat) :
    Indexed (heap.reprioritized handle newPriority) :=
  ⟨indexed.once, fun position below =>
    (reprioritized_entry _).1.trans (indexed.index position below)⟩

theorem Indexed.reprioritized_priorityAt (indexed : Indexed heap) {position : Nat}
    (below : position < heap.size) (apart : position ≠ (heap.entry handle).index) :
    (heap.reprioritized handle newPriority).priorityAt position = heap.priorityAt position := by
  have other : heap.handleAt position ≠ handle := by
    intro same
    subst same
    exact apart (indexed.index position below).symm
  exact (reprioritized_entry _).2.2.trans (if_neg other)

theorem QueueSound.restored (sound : QueueSound heap) {after : ZnMinheap}
    (ordered : Indexed after ∧ Ordered heap.size after.priorityAt)
    (moved : Rearranged (heap.reprioritized handle newPriority) after)
    (capacity : after.capacity = heap.capacity) : QueueSound after := by
  have sameSize : after.size = heap.size := moved.size
  refine ⟨ordered.1, ?_, fun other member => ?_, ?_, ?_⟩
  · rw [sameSize]
    exact ordered.2
  · rw [moved.fresh]
    exact sound.allocated other (moved.handles.mem_iff.mp member)
  · rw [sameSize, capacity]
    exact sound.room
  · rw [capacity]
    exact sound.someRoom

theorem QueueSound.update (sound : QueueSound heap) (fits : heap.size < 2 ^ 31)
    (member : handle ∈ heap.arr) (newPriority : Nat) :
    QueueSound (znMinheapUpdateByEntry heap (some handle) newPriority).2 ∧
      Rearranged (heap.reprioritized handle newPriority)
        (znMinheapUpdateByEntry heap (some handle) newPriority).2 := by
  obtain ⟨index, inside, same⟩ := exists_handleAt member
  have position := sound.indexed.index index inside
  rw [same] at position
  subst position
  have indexed := sound.indexed.reprioritized handle newPriority
  have elsewhere : ∀ other < heap.size, other ≠ (heap.entry handle).index →
      (heap.reprioritized handle newPriority).priorityAt other = heap.priorityAt other :=
    fun other below apart => sound.indexed.reprioritized_priorityAt below apart
  have here : (heap.reprioritized handle newPriority).priorityAt (heap.entry handle).index =
      newPriority := (reprioritized_entry _).2.2.trans (if_pos same)
  have old : heap.priorityAt (heap.entry handle).index = (heap.entry handle).priority :=
    congrArg (fun other => (heap.entry other).priority) same
  unfold znMinheapUpdateByEntry
  dsimp only
  rw [if_neg (Nat.not_le.mpr inside)]
  split
  next fell =>
      have rising := sound.ordered.rising elsewhere (by omega) inside
      have moved := bubbleUpLoop_rearranged (heap.entry handle).index
        (heap.reprioritized handle newPriority) _ inside
      exact ⟨sound.restored (bubbleUpLoop_ordered _ _ _ (le_refl _) inside indexed rising)
        moved (bubbleUpLoop_capacity _ _ _), moved⟩
  next notFell =>
      split
      next grew =>
          have sinking := sound.ordered.sinking elsewhere (by omega)
          have moved := bubbleDownLoop_rearranged heap.size
            (heap.reprioritized handle newPriority) _ inside
          exact ⟨sound.restored (bubbleDownLoop_ordered heap.size _ _ (Nat.le_add_right _ _)
            inside fits indexed sinking) moved (bubbleDownLoop_capacity _ _ _), moved⟩
      next notGrew =>
          have rising := sound.ordered.rising elsewhere (by omega) inside
          have stays : Ordered heap.size (heap.reprioritized handle newPriority).priorityAt := by
            apply rising.finish
            intro positive
            have up := parent_lt positive
            rw [here, elsewhere _ (by omega) (by omega)]
            have order := sound.ordered _ positive inside
            omega
          have kept := Rearranged.refl (heap.reprioritized handle newPriority)
          exact ⟨sound.restored ⟨indexed, stays⟩ kept rfl, kept⟩

end Reprioritized

end ZnMinheap

/-! ## Runs -/

open ZnMinheap

inductive HeapCall
  | insert (data priority : Nat)
  | extractMin
  | updateByEntry (handle newPriority : Nat)

/-- A heap, and the data and priority last set of each entry inserted and not extracted. -/
structure HeapLog where
  heap : ZnMinheap
  held : Nat → Option (Nat × Nat)

namespace HeapLog

def init (capacity : Nat) : HeapLog := ⟨znMinheapInit capacity, fun _ => none⟩

/-- Only an entry that is held is updated; the call on an empty heap returns NULL. -/
def step (log : HeapLog) : HeapCall → Option HeapLog
  | .insert data priority =>
      let inserted := znMinheapInsert log.heap data priority
      some ⟨inserted.2, Function.update log.held inserted.1 (some (data, priority))⟩
  | .extractMin =>
      match znMinheapExtractMin log.heap with
      | none => some log
      | some (handle, heap) => some ⟨heap, Function.update log.held handle none⟩
  | .updateByEntry handle newPriority =>
      match log.held handle with
      | none => none
      | some (data, _) =>
          some ⟨(znMinheapUpdateByEntry log.heap (some handle) newPriority).2,
            Function.update log.held handle (some (data, newPriority))⟩

def Fits (log : HeapLog) : HeapCall → Prop
  | .insert _ _ => log.heap.size + 1 < 2 ^ 31
  | _ => True

instance (log : HeapLog) : ∀ call, Decidable (log.Fits call)
  | .insert _ _ => inferInstanceAs (Decidable (_ < _))
  | .extractMin | .updateByEntry _ _ => isTrue trivial

structure Holds (log : HeapLog) : Prop where
  sound : QueueSound log.heap
  fits : log.heap.size < 2 ^ 31
  handles : ∀ handle, handle ∈ log.heap.arr ↔ (log.held handle).isSome
  contents : ∀ handle data priority, log.held handle = some (data, priority) →
    (log.heap.entry handle).data = data ∧ (log.heap.entry handle).priority = priority

section Step

variable {log next : HeapLog}

theorem Holds.init {capacity : Nat} (positive : 1 ≤ capacity) : Holds (init capacity) where
  sound := QueueSound.init positive
  fits := by simp [HeapLog.init, znMinheapInit, ZnMinheap.size]
  handles := fun _ => by simp [HeapLog.init, znMinheapInit]
  contents := fun _ _ _ found => by simp [HeapLog.init] at found

theorem Holds.insert (holds : Holds log) {data priority : Nat}
    (fits : log.heap.size + 1 < 2 ^ 31) :
    Holds ⟨(znMinheapInsert log.heap data priority).2,
      Function.update log.held (znMinheapInsert log.heap data priority).1
        (some (data, priority))⟩ := by
  obtain ⟨new, handles, newData, oldData, _⟩ := insert_spec log.heap data priority
  obtain ⟨sound, newPriority, oldPriority⟩ := holds.sound.insert fits data priority
  have size : (znMinheapInsert log.heap data priority).2.size = log.heap.size + 1 :=
    handles.length_eq
  rw [new]
  refine ⟨sound, size ▸ fits, fun handle => ?_, fun handle value level found => ?_⟩
  · rw [handles.mem_iff, List.mem_cons, holds.handles]
    by_cases same : handle = log.heap.fresh
    · simp [same]
    · simp [same]
  · by_cases same : handle = log.heap.fresh
    · subst same
      simp only [Function.update_self, Option.some.injEq, Prod.mk.injEq] at found
      exact ⟨newData.trans found.1, newPriority.trans found.2⟩
    · simp only [Function.update_of_ne same] at found
      rw [oldData handle same, oldPriority handle same]
      exact holds.contents handle value level found

theorem Holds.extractMin (holds : Holds log) {handle : Nat} {heap : ZnMinheap}
    (extracted : znMinheapExtractMin log.heap = some (handle, heap)) :
    Holds ⟨heap, Function.update log.held handle none⟩ := by
  obtain ⟨handles, data, priority, _⟩ := extractMin_spec extracted
  have sound := (holds.sound.extractMin holds.fits extracted).1
  have size : log.heap.size = heap.size + 1 := handles.length_eq
  have once := handles.nodup_iff.mp holds.sound.indexed.once
  have fits := holds.fits
  refine ⟨sound, ?_, fun other => ?_, fun other value level found => ?_⟩
  · change heap.size < 2 ^ 31
    omega
  · by_cases same : other = handle
    · subst same
      simpa using (List.nodup_cons.mp once).1
    · have before := holds.handles other
      rw [handles.mem_iff, List.mem_cons, or_iff_right same] at before
      simpa [same] using before
  · by_cases same : other = handle
    · simp [same] at found
    · simp only [Function.update_of_ne same] at found
      rw [data other, priority other]
      exact holds.contents other value level found

theorem Holds.updateByEntry (holds : Holds log) {handle data priority newPriority : Nat}
    (found : log.held handle = some (data, priority)) :
    Holds ⟨(znMinheapUpdateByEntry log.heap (some handle) newPriority).2,
      Function.update log.held handle (some (data, newPriority))⟩ := by
  have member : handle ∈ log.heap.arr := (holds.handles handle).mpr (by simp [found])
  obtain ⟨sound, moved⟩ := holds.sound.update holds.fits member newPriority
  refine ⟨sound, ?_, fun other => ?_, fun other value level there => ?_⟩
  · exact moved.size ▸ holds.fits
  · have sameHandles : other ∈ (znMinheapUpdateByEntry log.heap (some handle) newPriority).2.arr ↔
        other ∈ log.heap.arr := moved.handles.mem_iff
    rw [sameHandles, holds.handles]
    by_cases same : other = handle
    · simp [same, found]
    · simp [same]
  · rw [moved.data, moved.priority, (reprioritized_entry other).2.1,
      (reprioritized_entry other).2.2]
    by_cases same : other = handle
    · subst same
      simp only [Function.update_self, Option.some.injEq, Prod.mk.injEq] at there
      rw [if_pos rfl]
      exact ⟨(holds.contents other _ _ found).1.trans there.1, there.2⟩
    · simp only [Function.update_of_ne same] at there
      rw [if_neg same]
      exact holds.contents other value level there

theorem Holds.step (holds : Holds log) {call : HeapCall} (fits : log.Fits call)
    (taken : log.step call = some next) : Holds next := by
  cases call with
  | insert data priority =>
      cases Option.some.inj taken
      exact holds.insert fits
  | extractMin =>
      simp only [HeapLog.step] at taken
      split at taken
      next =>
          cases Option.some.inj taken
          exact holds
      next handle heap extracted =>
          cases Option.some.inj taken
          exact holds.extractMin extracted
  | updateByEntry handle newPriority =>
      simp only [HeapLog.step] at taken
      split at taken
      next => cases taken
      next data priority found =>
          cases Option.some.inj taken
          exact holds.updateByEntry found

end Step

abbrev Run (capacity : Nat) (log : HeapLog) : Prop :=
  Reach step Fits (· = init capacity) log

theorem Run.holds {capacity : Nat} (positive : 1 ≤ capacity) {log : HeapLog}
    (run : Run capacity log) : Holds log := by
  apply run.invariant
  · intro _ same
    subst same
    exact Holds.init positive
  · exact fun _ _ _ holds fits taken => holds.step fits taken

/-- The heap is a priority queue with live handles: it holds the entries inserted and not
extracted, each once, with its contents and its position, in heap order within its array;
and it yields NULL if it is empty and an entry of least priority otherwise. -/
theorem minheap_priorityQueue {capacity : Nat} (positive : 1 ≤ capacity) {log : HeapLog}
    (run : Run capacity log) :
    log.heap.arr.Nodup ∧
      (∀ handle, handle ∈ log.heap.arr ↔ (log.held handle).isSome) ∧
      (∀ handle data priority, log.held handle = some (data, priority) →
        (log.heap.entry handle).data = data ∧ (log.heap.entry handle).priority = priority) ∧
      (∀ position < log.heap.size,
        (log.heap.entry (log.heap.handleAt position)).index = position) ∧
      (∀ child, 0 < child → child < log.heap.size →
        log.heap.priorityAt ((child - 1) / 2) ≤ log.heap.priorityAt child) ∧
      log.heap.size ≤ log.heap.capacity ∧
      (znMinheapExtractMin log.heap = none ↔ ∀ handle, log.held handle = none) ∧
      ∀ handle heap, znMinheapExtractMin log.heap = some (handle, heap) →
        ∃ data priority, log.held handle = some (data, priority) ∧
          ∀ other value level, log.held other = some (value, level) → priority ≤ level := by
  have holds := run.holds positive
  refine ⟨holds.sound.indexed.once, holds.handles, holds.contents, holds.sound.indexed.index,
    holds.sound.ordered, holds.sound.room, ?_, fun handle heap extracted => ?_⟩
  · rw [extractMin_none, List.eq_nil_iff_forall_not_mem]
    apply forall_congr'
    intro handle
    rw [holds.handles, Option.not_isSome_iff_eq_none]
  · have root := (holds.sound.extractMin holds.fits extracted).2
    have member : handle ∈ log.heap.arr :=
      (extractMin_spec extracted).1.mem_iff.mpr List.mem_cons_self
    obtain ⟨⟨data, priority⟩, found⟩ := Option.isSome_iff_exists.mp
      ((holds.handles handle).mp member)
    refine ⟨data, priority, found, fun other value level there => ?_⟩
    have least := holds.sound.root_le ((holds.handles other).mpr (by simp [there]))
    rw [root] at least
    have own := (holds.contents handle data priority found).2
    have others := (holds.contents other value level there).2
    omega

/-- Three entries of which the second is updated to the least priority. -/
def updatedToLeast : List HeapCall :=
  [.insert 10 5, .insert 11 6, .insert 12 4, .updateByEntry 1 3]

theorem minheap_priorityQueue_updatedToLeast :
    ∃ log, runActions step (init 1) updatedToLeast = some log ∧
      (∃ heap, znMinheapExtractMin log.heap = some (1, heap)) ∧
      log.heap.size ≤ log.heap.capacity ∧
      ∀ other value level, log.held other = some (value, level) → 3 ≤ level := by
  obtain ⟨log, ran, held, heap, extracted⟩ :
      ∃ log, runActions step (init 1) updatedToLeast = some log ∧
        log.held 1 = some (11, 3) ∧ ∃ heap, znMinheapExtractMin log.heap = some (1, heap) :=
    ⟨_, rfl, rfl, _, rfl⟩
  have run : Run 1 log :=
    Reach.of_runActions updatedToLeast (Reach.start rfl)
      (by decide +kernel) ran
  obtain ⟨_, _, _, _, _, room, _, least⟩ := minheap_priorityQueue (by decide) run
  obtain ⟨data, priority, found, atMost⟩ := least 1 heap extracted
  cases held.symm.trans found
  exact ⟨log, ran, ⟨heap, extracted⟩, room, atMost⟩

end HeapLog

end ZNCache
