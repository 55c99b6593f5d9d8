import ZNCache.HeapStorage

/-!
# Updates of entries that are not in the heap

An entry keeps its index when it is extracted, and the index of an extracted entry is 0.
That is in range whenever the heap holds anything, so the update goes through.
-/

set_option autoImplicit false

namespace ZNCache

open Transition

namespace ZnMinheap

variable {heap : ZnMinheap}

/-! ## What sifting leaves alone -/

/-- The entries of the array trade places; the memory of the others stays. -/
structure Sifted (before after : ZnMinheap) : Prop where
  moved : Rearranged before after
  indexed : Indexed before → Indexed after
  apart : ∀ handle, handle ∉ before.arr → after.entry handle = before.entry handle

theorem Sifted.refl (heap : ZnMinheap) : Sifted heap heap :=
  ⟨Rearranged.refl heap, id, fun _ _ => rfl⟩

theorem Sifted.trans {first second third : ZnMinheap} (one : Sifted first second)
    (two : Sifted second third) : Sifted first third where
  moved := one.moved.trans two.moved
  indexed := two.indexed ∘ one.indexed
  apart := by
    intro handle outside
    have still : handle ∉ second.arr := fun member =>
      outside (one.moved.handles.mem_iff.mp member)
    exact (two.apart handle still).trans (one.apart handle outside)

theorem swap_sifted {i j : Nat} (iBelow : i < heap.size) (jBelow : j < heap.size)
    (different : i ≠ j) : Sifted heap (heap.swap i j) where
  moved := swap_rearranged iBelow jBelow
  indexed := fun indexed => indexed.swap iBelow jBelow different
  apart := by
    intro handle outside
    have notLeft : handle ≠ heap.handleAt i := fun same =>
      outside (same ▸ handleAt_mem iBelow)
    have notRight : handle ≠ heap.handleAt j := fun same =>
      outside (same ▸ handleAt_mem jBelow)
    simp [swap, setIndex, notLeft, notRight]

theorem bubbleUpLoop_sifted (passes : Nat) :
    ∀ (heap : ZnMinheap) (index : Nat), index < heap.size →
      Sifted heap (bubbleUpLoop passes heap index) := by
  induction passes with
  | zero => exact fun heap _ _ => Sifted.refl heap
  | succ passes ih =>
      intro heap index below
      simp only [bubbleUpLoop]
      split
      next positive =>
          split
          next =>
              have parentBelow : (index - 1) / 2 < heap.size := by omega
              have swapped := swap_sifted below parentBelow (by omega)
              apply swapped.trans
              apply ih
              rw [swapped.moved.size]
              exact parentBelow
          next => exact Sifted.refl heap
      next => exact Sifted.refl heap

theorem bubbleDownLoop_sifted (passes : Nat) :
    ∀ (heap : ZnMinheap) (index : Nat), index < heap.size →
      Sifted heap (bubbleDownLoop passes heap index) := by
  induction passes with
  | zero => exact fun heap _ _ => Sifted.refl heap
  | succ passes ih =>
      intro heap index below
      simp only [bubbleDownLoop]
      split
      next moves =>
          have childBelow := smallest_below below
          have swapped := swap_sifted below childBelow (Ne.symm moves)
          apply swapped.trans
          apply ih
          rw [swapped.moved.size]
          exact childBelow
      next => exact Sifted.refl heap

/-! ## The index of an entry that is not in the heap -/

/-- An entry that was produced and is not in the array has the index 0. -/
structure Traced (heap : ZnMinheap) : Prop where
  indexed : Indexed heap
  allocated : heap.Allocated
  outside : ∀ handle < heap.fresh, handle ∉ heap.arr → (heap.entry handle).index = 0

theorem Traced.init (capacity : Nat) : Traced (znMinheapInit capacity) where
  indexed := ⟨List.nodup_nil, fun _ below => absurd below (Nat.not_lt_zero _)⟩
  allocated := fun _ member => absurd member List.not_mem_nil
  outside := fun _ _ _ => rfl

theorem Traced.sift (traced : Traced heap) {after : ZnMinheap} (sifted : Sifted heap after) :
    Traced after where
  indexed := sifted.indexed traced.indexed
  allocated := by
    intro handle member
    rw [sifted.moved.fresh]
    exact traced.allocated handle (sifted.moved.handles.mem_iff.mp member)
  outside := by
    intro handle produced absent
    rw [sifted.moved.fresh] at produced
    have before : handle ∉ heap.arr := fun member =>
      absent (sifted.moved.handles.mem_iff.mpr member)
    rw [sifted.apart handle before]
    exact traced.outside handle produced before

theorem Traced.appended (traced : Traced heap) (data priority : Nat) :
    Traced (heap.appended data priority) where
  indexed := traced.indexed.appended traced.allocated data priority
  allocated := by
    intro handle member
    simp only [ZnMinheap.appended, grow_spec, List.mem_append, List.mem_singleton] at member ⊢
    rcases member with old | rfl
    · exact Nat.lt_succ_of_lt (traced.allocated handle old)
    · exact Nat.lt_succ_self _
  outside := by
    intro handle produced absent
    simp only [ZnMinheap.appended, grow_spec, List.mem_append, List.mem_singleton, not_or]
      at produced absent
    obtain ⟨notOld, notNew⟩ := absent
    rw [appended_entry, Function.update_of_ne notNew]
    exact traced.outside handle (by omega) notOld

theorem Traced.insert (traced : Traced heap) (data priority : Nat) :
    Traced (znMinheapInsert heap data priority).2 := by
  have last : heap.size < (heap.appended data priority).size := by
    rw [appended_size]
    exact Nat.lt_succ_self _
  rw [insert_eq]
  exact (traced.appended data priority).sift (bubbleUpLoop_sifted _ _ _ last)

/-- The root had the index 0 when it was taken. -/
theorem Traced.root (traced : Traced heap) {min : Nat} {rest : List Nat}
    (split : heap.arr = min :: rest) : (heap.entry min).index = 0 := by
  have atRoot : heap.handleAt 0 = min := by simp [handleAt, split]
  rw [← atRoot]
  exact traced.indexed.index 0 (by simp [size, split])

theorem Traced.rootReplaced (traced : Traced heap) {min last : Nat} {rest : List Nat}
    (split : heap.arr = min :: rest) (lastEq : rest.getLast? = some last) :
    Traced (heap.rootReplaced last rest) where
  indexed := traced.indexed.rootReplaced split lastEq
  allocated := by
    intro handle member
    apply traced.allocated
    rw [split]
    obtain ⟨front, rfl⟩ := List.getLast?_eq_some_iff.mp lastEq
    simp only [ZnMinheap.rootReplaced, setIndex, List.dropLast_concat, List.mem_cons] at member
    simp [or_comm, member]
  outside := by
    intro handle produced absent
    obtain ⟨front, rfl⟩ := List.getLast?_eq_some_iff.mp lastEq
    simp only [ZnMinheap.rootReplaced, setIndex, List.dropLast_concat, List.mem_cons, not_or]
      at produced absent
    obtain ⟨notLast, notFront⟩ := absent
    have same : (heap.rootReplaced last (front ++ [last])).entry handle = heap.entry handle := by
      simp [ZnMinheap.rootReplaced, setIndex, notLast]
    rw [same]
    by_cases taken : handle = min
    · subst taken
      exact traced.root split
    · apply traced.outside handle produced
      simp [split, taken, notFront, notLast]

theorem Traced.extractMin (traced : Traced heap) {handle : Nat} {after : ZnMinheap}
    (extracted : znMinheapExtractMin heap = some (handle, after)) : Traced after := by
  unfold znMinheapExtractMin at extracted
  cases split : heap.arr with
  | nil => simp [split] at extracted
  | cons min rest =>
      rw [split] at extracted
      dsimp only at extracted
      cases lastEq : rest.getLast? with
      | none =>
          rw [lastEq] at extracted
          cases Option.some.inj extracted
          have noRest : rest = [] := List.getLast?_eq_none_iff.mp lastEq
          subst noRest
          refine ⟨⟨List.nodup_nil, fun _ below => absurd below (Nat.not_lt_zero _)⟩,
            fun _ member => absurd member List.not_mem_nil, fun other produced _ => ?_⟩
          by_cases taken : other = handle
          · subst taken
            exact traced.root split
          · exact traced.outside other produced (by simp [split, taken])
      | some last =>
          rw [lastEq] at extracted
          cases Option.some.inj extracted
          have root : 0 < (heap.rootReplaced last rest).size := by
            simp [ZnMinheap.rootReplaced, setIndex, size]
          exact (traced.rootReplaced split lastEq).sift (bubbleDownLoop_sifted _ _ 0 root)

theorem Traced.reprioritized (traced : Traced heap) (handle newPriority : Nat) :
    Traced (heap.reprioritized handle newPriority) where
  indexed := traced.indexed.reprioritized handle newPriority
  allocated := traced.allocated
  outside := fun other produced absent =>
    (reprioritized_entry other).1.trans (traced.outside other produced absent)

theorem Traced.updateByEntry (traced : Traced heap) (handle newPriority : Nat) :
    Traced (znMinheapUpdateByEntry heap (some handle) newPriority).2 := by
  have changed := traced.reprioritized handle newPriority
  unfold znMinheapUpdateByEntry
  dsimp only
  split
  next => exact traced
  next inside =>
      have below := Nat.lt_of_not_le inside
      split
      next => exact changed.sift (bubbleUpLoop_sifted _ _ _ below)
      next =>
          split
          next => exact changed.sift (bubbleDownLoop_sifted _ _ _ below)
          next => exact changed

/-! ## What an update answers -/

theorem updateByEntry_ret (heap : ZnMinheap) (handle newPriority : Nat) :
    (znMinheapUpdateByEntry heap (some handle) newPriority).1 =
      if (heap.entry handle).index < heap.size then 0 else -1 := by
  unfold znMinheapUpdateByEntry
  dsimp only
  split
  next outside => rw [if_neg (Nat.not_lt.mpr outside)]
  next inside =>
      rw [if_pos (Nat.lt_of_not_le inside)]
      split
      next => rfl
      next => split <;> rfl

theorem updateByEntry_refused {handle newPriority : Nat}
    (outside : heap.size ≤ (heap.entry handle).index) :
    znMinheapUpdateByEntry heap (some handle) newPriority = (-1, heap) := if_pos outside

/-- An update succeeds for the entries in the heap, and for no other entry changes anything. -/
def RejectsStale (heap : ZnMinheap) (handle newPriority : Nat) : Prop :=
  ((znMinheapUpdateByEntry heap (some handle) newPriority).1 = 0 ↔ handle ∈ heap.arr) ∧
    (handle ∉ heap.arr → znMinheapUpdateByEntry heap (some handle) newPriority = (-1, heap))

theorem Traced.rejectsStale_iff_held (traced : Traced heap) {handle : Nat}
    (produced : handle < heap.fresh) (newPriority : Nat) :
    RejectsStale heap handle newPriority ↔ handle ∈ heap.arr ∨ heap.arr = [] := by
  by_cases member : handle ∈ heap.arr
  · obtain ⟨position, below, here⟩ := exists_handleAt member
    have inside : (heap.entry handle).index < heap.size := by
      rw [← here, traced.indexed.index position below]
      exact below
    simp [RejectsStale, updateByEntry_ret, inside, member]
  · have index := traced.outside handle produced member
    rcases List.eq_nil_or_concat heap.arr with empty | ⟨front, last, some⟩
    · have outside : heap.size ≤ (heap.entry handle).index := by simp [size, empty]
      simp [RejectsStale, updateByEntry_refused outside, empty]
    · have inside : (heap.entry handle).index < heap.size := by simp [index, size, some]
      have notEmpty : heap.arr ≠ [] := by simp [some]
      constructor
      · intro rejects
        exact absurd (rejects.1.mp (by rw [updateByEntry_ret, if_pos inside])) member
      · intro either
        exact absurd either (not_or.mpr ⟨member, notEmpty⟩)

end ZnMinheap

/-! ## Runs -/

namespace HeapHistory

open ZnMinheap

/-- Any entry that was produced may be passed to an update, also one that was extracted.  An
insertion without room stores outside of the array, which ends the run. -/
def step (heap : ZnMinheap) : HeapCall → Option ZnMinheap
  | .insert data priority =>
      if heap.storage.Room then some (znMinheapInsert heap data priority).2 else none
  | .extractMin =>
      match znMinheapExtractMin heap with
      | none => some heap
      | some (_, after) => some after
  | .updateByEntry handle newPriority =>
      if handle < heap.fresh then
        some (znMinheapUpdateByEntry heap (some handle) newPriority).2
      else none

abbrev Run (capacity : Nat) (heap : ZnMinheap) : Prop :=
  Reach step (fun _ _ => True) (· = znMinheapInit capacity) heap

theorem step_traced {heap after : ZnMinheap} {call : HeapCall} (traced : Traced heap)
    (taken : step heap call = some after) : Traced after := by
  cases call with
  | insert data priority =>
      simp only [step] at taken
      split at taken
      next =>
          cases Option.some.inj taken
          exact traced.insert data priority
      next => cases taken
  | extractMin =>
      simp only [step] at taken
      split at taken
      next =>
          cases Option.some.inj taken
          exact traced
      next handle rest extracted =>
          cases Option.some.inj taken
          exact traced.extractMin extracted
  | updateByEntry handle newPriority =>
      simp only [step] at taken
      split at taken
      next =>
          cases Option.some.inj taken
          exact traced.updateByEntry handle newPriority
      next => cases taken

theorem Run.traced {capacity : Nat} {heap : ZnMinheap} (run : Run capacity heap) :
    Traced heap := by
  apply run.invariant
  · intro _ same
    subst same
    exact Traced.init capacity
  · exact fun _ _ _ traced _ taken => step_traced traced taken

/-- After any history, an update treats an entry that was produced as it should if and only
if the entry is in the heap or the heap is empty. -/
theorem rejectsStale_iff {capacity : Nat} {heap : ZnMinheap} (run : Run capacity heap)
    {handle : Nat} (produced : handle < heap.fresh) (newPriority : Nat) :
    RejectsStale heap handle newPriority ↔ handle ∈ heap.arr ∨ heap.arr = [] :=
  run.traced.rejectsStale_iff_held produced newPriority

/-- Two entries of which the first is extracted. -/
def extractedOne : List HeapCall := [.insert 10 5, .insert 11 6, .extractMin]

/-- The extracted entry is taken for the root, and its priority is changed. -/
theorem rejectsStale_extractedOne :
    ∃ heap, runActions step (znMinheapInit 2) extractedOne = some heap ∧ heap.arr = [1] ∧
      znMinheapUpdateByEntry heap (some 0) 7 = (0, heap.reprioritized 0 7) ∧
      ¬ RejectsStale heap 0 7 := by
  obtain ⟨heap, ran, held, answer⟩ :
      ∃ heap, runActions step (znMinheapInit 2) extractedOne = some heap ∧ heap.arr = [1] ∧
        znMinheapUpdateByEntry heap (some 0) 7 = (0, heap.reprioritized 0 7) :=
    ⟨_, rfl, rfl, rfl⟩
  refine ⟨heap, ran, held, answer, fun rejects => ?_⟩
  have member := rejects.1.mp (by rw [answer])
  simp [held] at member

/-- The only entry is extracted; the heap is empty and turns it down. -/
theorem rejectsStale_emptied :
    ∃ heap, runActions step (znMinheapInit 1) [.insert 10 5, .extractMin] = some heap ∧
      RejectsStale heap 0 7 := by
  obtain ⟨heap, ran, empty, produced⟩ :
      ∃ heap, runActions step (znMinheapInit 1) [.insert 10 5, .extractMin] = some heap ∧
        heap.arr = [] ∧ 0 < heap.fresh := ⟨_, rfl, rfl, by decide⟩
  have run : Run 1 heap :=
    Reach.of_runActions _ (Reach.start rfl)
      (AllowedAlong.of_forall _ _ fun _ _ _ => trivial) ran
  exact ⟨heap, ran, (rejectsStale_iff run produced 7).mpr (.inr empty)⟩

end HeapHistory

end ZNCache
