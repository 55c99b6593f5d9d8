import ZNCache.MinHeapQueue

/-!
# The array under the min-heap

`size` and `capacity` are 32-bit counters beside the slots that the last allocation asked
for.  Growing makes room from every capacity but 0, and only up to the size at which the
indices of children wrap.
-/

set_option autoImplicit false

namespace ZNCache

structure HeapStorage where
  size : Nat
  capacity : Nat
  slots : Nat
  deriving DecidableEq, Repr

inductive StorageCall
  | insert
  | extractMin
  deriving DecidableEq, Repr

namespace HeapStorage

/-- `sizeof(struct zn_minheap_entry *)`. -/
def pointerSize : Nat := 8

/-- The pointers that fit into `sizeof(struct zn_minheap_entry *) * capacity` bytes. -/
def allocate (capacity : Nat) : Nat := pointerSize * capacity % 2 ^ 64 / pointerSize

def init (capacity : Nat) : HeapStorage := ⟨0, capacity, allocate capacity⟩

/-- `minheap_realloc`. -/
def realloc (storage : HeapStorage) : HeapStorage :=
  let capacity := u32 (storage.capacity * 2)
  { storage with capacity := capacity, slots := allocate capacity }

/-- The growth step of `zn_minheap_insert`. -/
def grow (storage : HeapStorage) : HeapStorage :=
  if storage.size = storage.capacity then storage.realloc else storage

def step (storage : HeapStorage) : StorageCall → HeapStorage
  | .insert => { storage.grow with size := u32 (storage.grow.size + 1) }
  | .extractMin =>
      if storage.size = 0 then storage else { storage with size := u32 (storage.size - 1) }

def after (storage : HeapStorage) (calls : List StorageCall) : HeapStorage :=
  calls.foldl step storage

def Room (storage : HeapStorage) : Prop :=
  storage.grow.size < storage.grow.capacity ∧ storage.grow.slots = storage.grow.capacity

instance (storage : HeapStorage) : Decidable storage.Room := inferInstanceAs (Decidable (_ ∧ _))

/-- The indices that `bubble_down` computes for the children of an entry do not wrap. -/
def ChildrenExact (storage : HeapStorage) : Prop :=
  ∀ index < storage.size, u32 (2 * index + 1) = 2 * index + 1 ∧
    u32 (2 * index + 2) = 2 * index + 2

/-- Each insertion has room, and the indices of children are exact all along. -/
def Safe (storage : HeapStorage) (calls : List StorageCall) : Prop :=
  ∀ before, before <+: calls → (storage.after before).ChildrenExact ∧
    (before ++ [.insert] <+: calls → (storage.after before).Room)

end HeapStorage

def entriesStep (entries : Nat) : StorageCall → Nat
  | .insert => entries + 1
  | .extractMin => entries - 1

def entriesAfter (entries : Nat) (calls : List StorageCall) : Nat :=
  calls.foldl entriesStep entries

namespace HeapStorage

/-! ## One call -/

section Step

variable {storage : HeapStorage} {entries : Nat}

theorem allocate_exact {capacity : Nat} (small : capacity < 2 ^ 32) :
    allocate capacity = capacity := by
  have fits : pointerSize * capacity < 2 ^ 64 := by
    unfold pointerSize
    omega
  rw [allocate, Nat.mod_eq_of_lt fits, pointerSize, Nat.mul_div_cancel_left _ (by decide)]

theorem childrenExact_iff : storage.ChildrenExact ↔ storage.size < 2 ^ 31 := by
  constructor
  · intro inRange
    by_contra large
    have wraps := (inRange (2 ^ 31 - 1) (by omega)).2
    simp [u32] at wraps
  · intro small index below
    constructor
    · exact_mod_cast u32_of_nat (by omega)
    · exact_mod_cast u32_of_nat (by omega)

structure Sound (storage : HeapStorage) (entries : Nat) : Prop where
  size : storage.size = entries
  within : entries ≤ storage.capacity
  small : storage.capacity < 2 ^ 32
  slots : storage.slots = storage.capacity
  some : 0 < storage.capacity

theorem Sound.init {capacity : Nat} (accepted : capacity < 2 ^ 32) (some : 0 < capacity) :
    Sound (init capacity) 0 :=
  ⟨rfl, Nat.zero_le _, accepted, allocate_exact accepted, some⟩

/-- Doubling a full array of fewer than `2 ^ 31` entries makes room for one more. -/
theorem Sound.grow (sound : Sound storage entries) (few : entries < 2 ^ 31) :
    Sound storage.grow entries ∧ entries < storage.grow.capacity := by
  obtain ⟨size, within, small, slots, some⟩ := sound
  unfold HeapStorage.grow
  split
  next full =>
      have doubled : u32 (storage.capacity * 2) = storage.capacity * 2 := by
        exact_mod_cast u32_of_nat (by omega)
      have grown : storage.realloc.capacity = storage.capacity * 2 := doubled
      refine ⟨⟨size, ?_, ?_, ?_, ?_⟩, ?_⟩
      · rw [grown]
        omega
      · rw [grown]
        omega
      · exact allocate_exact (u32_lt _)
      · rw [grown]
        omega
      · rw [grown]
        omega
  next notFull => exact ⟨⟨size, within, small, slots, some⟩, by omega⟩

theorem Sound.room (sound : Sound storage entries) (few : entries < 2 ^ 31) : storage.Room := by
  obtain ⟨grown, room⟩ := sound.grow few
  exact ⟨grown.size ▸ room, grown.slots⟩

theorem Sound.step (sound : Sound storage entries) (few : entries < 2 ^ 31) (call : StorageCall) :
    Sound (storage.step call) (entriesStep entries call) := by
  cases call with
  | insert =>
      obtain ⟨grown, room⟩ := sound.grow few
      refine ⟨?_, room, grown.small, grown.slots, grown.some⟩
      have next : u32 (storage.grow.size + 1) = entries + 1 := by
        rw [grown.size]
        exact_mod_cast u32_of_nat (by omega)
      exact next
  | extractMin =>
      have size := sound.size
      have within := sound.within
      simp only [HeapStorage.step]
      split
      next none =>
          have same : entriesStep entries .extractMin = entries := by
            rw [← size, none]
            rfl
          rwa [same]
      next some =>
          refine ⟨?_, ?_, sound.small, sound.slots, sound.some⟩
          · have fewer : u32 (storage.size - 1) = entries - 1 := by
              unfold u32
              omega
            exact fewer
          · exact Nat.le_trans (Nat.sub_le _ _) within

end Step

/-! ## Runs -/

section Run

variable {storage : HeapStorage} {call : StorageCall} {calls : List StorageCall} {entries : Nat}

theorem safe_nil : storage.Safe [] ↔ storage.ChildrenExact := by
  simp [Safe, after]

theorem safe_cons : storage.Safe (call :: calls) ↔
    storage.ChildrenExact ∧ (call = .insert → storage.Room) ∧ (storage.step call).Safe calls := by
  constructor
  · intro safe
    obtain ⟨children, room⟩ := safe [] List.nil_prefix
    refine ⟨children, fun inserts => room ?_, fun before part => ?_⟩
    · subst inserts
      exact ⟨calls, rfl⟩
    · obtain ⟨children, room⟩ := safe (call :: before) (List.cons_prefix_cons.mpr ⟨rfl, part⟩)
      exact ⟨children, fun inserts => room (List.cons_prefix_cons.mpr ⟨rfl, inserts⟩)⟩
  · intro given before part
    obtain ⟨children, room, rest⟩ := given
    cases before with
    | nil =>
        refine ⟨children, fun inserts => room ?_⟩
        exact (List.cons_prefix_cons.mp inserts).1.symm
    | cons first before =>
        obtain ⟨rfl, within⟩ := List.cons_prefix_cons.mp part
        obtain ⟨children, room⟩ := rest before within
        exact ⟨children, fun inserts => room (List.cons_prefix_cons.mp inserts).2⟩

def StaysBelow (bound entries : Nat) (calls : List StorageCall) : Prop :=
  ∀ before, before <+: calls → entriesAfter entries before < bound

theorem staysBelow_cons {bound : Nat} : StaysBelow bound entries (call :: calls) ↔
    entries < bound ∧ StaysBelow bound (entriesStep entries call) calls := by
  constructor
  · intro below
    exact ⟨below [] List.nil_prefix, fun before part =>
      below (call :: before) (List.cons_prefix_cons.mpr ⟨rfl, part⟩)⟩
  · intro given before part
    cases before with
    | nil => exact given.1
    | cons first before =>
        obtain ⟨rfl, within⟩ := List.cons_prefix_cons.mp part
        exact given.2 before within

theorem Sound.safe_iff_few (calls : List StorageCall) :
    ∀ {storage : HeapStorage} {entries : Nat}, Sound storage entries →
      (storage.Safe calls ↔ StaysBelow (2 ^ 31) entries calls) := by
  induction calls with
  | nil =>
      intro storage entries sound
      rw [safe_nil, childrenExact_iff, sound.size]
      simp [StaysBelow, entriesAfter]
  | cons call calls ih =>
      intro storage entries sound
      rw [safe_cons, staysBelow_cons, childrenExact_iff, sound.size]
      constructor
      · intro given
        obtain ⟨few, _, rest⟩ := given
        exact ⟨few, (ih (sound.step few call)).mp rest⟩
      · intro given
        obtain ⟨few, rest⟩ := given
        exact ⟨few, fun _ => sound.room few, (ih (sound.step few call)).mpr rest⟩

/-- An array of no slots stays one until the first insertion, which has no room. -/
theorem safe_none (calls : List StorageCall) : (init 0).Safe calls ↔ .insert ∉ calls := by
  have children : (init 0).ChildrenExact := childrenExact_iff.mpr (by decide)
  induction calls with
  | nil => simpa [safe_nil] using children
  | cons call calls ih =>
      rw [safe_cons]
      cases call with
      | insert =>
          have noRoom : ¬ (init 0).Room := by decide
          simp [noRoom]
      | extractMin =>
          have same : (init 0).step .extractMin = init 0 := rfl
          rw [same]
          simp [children, ih]

theorem staysBelow_none {bound : Nat} (positive : 0 < bound) (calls : List StorageCall)
    (none : .insert ∉ calls) : StaysBelow bound 0 calls := by
  induction calls with
  | nil =>
      intro before part
      rw [List.prefix_nil.mp part]
      exact positive
  | cons call calls ih =>
      rw [List.mem_cons, not_or] at none
      refine staysBelow_cons.mpr ⟨positive, ?_⟩
      cases call with
      | insert => exact absurd rfl none.1
      | extractMin => exact ih none.2

/-- From a capacity that is accepted, every insertion has room and no index of a child wraps
if and only if something was allocated, or nothing is inserted, and fewer than `2 ^ 31`
entries are held at any time. -/
theorem safe_iff {capacity : Nat} (accepted : capacity < 2 ^ 32) (calls : List StorageCall) :
    (init capacity).Safe calls ↔
      (capacity = 0 → .insert ∉ calls) ∧ StaysBelow (2 ^ 31) 0 calls := by
  rcases Nat.eq_zero_or_pos capacity with rfl | some
  · rw [safe_none]
    exact ⟨fun none => ⟨fun _ => none, staysBelow_none (by decide) calls none⟩,
      fun given => given.1 rfl⟩
  · rw [(Sound.init accepted some).safe_iff_few calls]
    exact ⟨fun below => ⟨fun none => absurd none (Nat.ne_of_gt some), below⟩, And.right⟩

/-- A heap of capacity 1 takes two entries and gives one back. -/
theorem safe_iff_fromOne : (init 1).Safe [.insert, .insert, .extractMin] := by
  refine (safe_iff (by decide) _).mpr ⟨by decide, ?_⟩
  simp [staysBelow_cons, entriesStep]
  simp [StaysBelow, entriesAfter]

/-- A heap of capacity 0 has no slot for its first entry. -/
theorem safe_fromZero : ¬ (init 0).Safe [.insert] := by
  intro safe
  have room := (safe [] List.nil_prefix).2 (List.prefix_refl _)
  revert room
  decide

end Run

end HeapStorage

/-! ## The storage of a heap -/

namespace ZnMinheap

open HeapStorage

def storage (heap : ZnMinheap) : HeapStorage :=
  ⟨u32 heap.size, heap.capacity, allocate heap.capacity⟩

variable {heap : ZnMinheap}

theorem insert_storage (fits : heap.size < 2 ^ 32) (data priority : Nat) :
    (znMinheapInsert heap data priority).2.storage = heap.storage.step .insert := by
  have noWrap : u32 heap.size = heap.size := u32_of_nat fits
  have size : (znMinheapInsert heap data priority).2.size = heap.size + 1 :=
    (insert_spec heap data priority).2.1.length_eq
  have capacity : (znMinheapInsert heap data priority).2.capacity = heap.grow.capacity := by
    rw [insert_eq]
    exact bubbleUpLoop_capacity _ _ _
  rw [storage, size, capacity, HeapStorage.step, HeapStorage.grow, ZnMinheap.grow, storage, noWrap]
  split
  next => simp [HeapStorage.realloc]
  next => simp

theorem extractMin_storage {handle : Nat} {after : ZnMinheap} (fits : heap.size < 2 ^ 32)
    (extracted : znMinheapExtractMin heap = some (handle, after)) :
    after.storage = heap.storage.step .extractMin := by
  have noWrap : u32 heap.size = heap.size := u32_of_nat fits
  have size : heap.size = after.size + 1 := (extractMin_spec extracted).1.length_eq
  have capacity : after.capacity = heap.capacity := by
    unfold znMinheapExtractMin at extracted
    split at extracted
    next => cases extracted
    next =>
        split at extracted
        next =>
            cases Option.some.inj extracted
            rfl
        next =>
            cases Option.some.inj extracted
            exact bubbleDownLoop_capacity _ _ _
  have notNone : ¬ u32 heap.size = 0 := by omega
  have fewer : ((heap.size : Int) - 1) = after.size := by omega
  rw [HeapStorage.step, storage, storage, capacity, if_neg notNone, noWrap, fewer]

end ZnMinheap

end ZNCache
