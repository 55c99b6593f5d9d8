import Mathlib.Data.List.Nodup
import Mathlib.Data.List.Perm.Basic

/-!
# The order of last use

A history lists what happened to items, the latest event first, and the time of an
event is the number of events before it.  A queue is by recency when it holds the
items that were put and not dropped since, in the order in which they were last used.
-/

set_option autoImplicit false

namespace Recency

/-- An item is put in, used while it may be in, or dropped. -/
inductive Use (Item : Type*)
  | put (item : Item)
  | touch (item : Item)
  | drop (item : Item)
  deriving DecidableEq

variable {Item : Type*} [DecidableEq Item]

/-- When the item was last put or used since; `none` for an item that is not in. -/
def lastUse : List (Use Item) → Item → Option Nat
  | [], _ => none
  | .put other :: earlier, item =>
      if item = other then some earlier.length else lastUse earlier item
  | .touch other :: earlier, item =>
      if item = other then (lastUse earlier item).map fun _ => earlier.length
      else lastUse earlier item
  | .drop other :: earlier, item => if item = other then none else lastUse earlier item

@[simp] theorem lastUse_nil (item : Item) : lastUse [] item = none := rfl

@[simp] theorem lastUse_cons_put (history : List (Use Item)) (one item : Item) :
    lastUse (.put one :: history) item =
      if item = one then some history.length else lastUse history item := rfl

@[simp] theorem lastUse_cons_touch (history : List (Use Item)) (one item : Item) :
    lastUse (.touch one :: history) item =
      if item = one then (lastUse history item).map fun _ => history.length
      else lastUse history item := rfl

@[simp] theorem lastUse_cons_drop (history : List (Use Item)) (one item : Item) :
    lastUse (.drop one :: history) item =
      if item = one then none else lastUse history item := rfl

/-- The time of last use, for items that are in. -/
def usedAt (history : List (Use Item)) (item : Item) : Nat := (lastUse history item).getD 0

/-- Exactly the items that are in, least recently used first. -/
structure ByRecency (history : List (Use Item)) (queue : List Item) : Prop where
  mem : ∀ item, item ∈ queue ↔ lastUse history item ≠ none
  sorted : queue.Pairwise fun one other => usedAt history one < usedAt history other

theorem lastUse_lt {item : Item} (history : List (Use Item)) :
    ∀ {time : Nat}, lastUse history item = some time → time < history.length := by
  induction history with
  | nil => intro time found; cases found
  | cons event earlier ih =>
      intro time found
      cases event with
      | put other =>
          rw [lastUse_cons_put] at found
          split at found
          next =>
              cases found
              exact Nat.lt_succ_self _
          next => exact Nat.lt_succ_of_lt (ih found)
      | touch other =>
          rw [lastUse_cons_touch] at found
          split at found
          next =>
              obtain ⟨_, _, rfl⟩ := Option.map_eq_some_iff.mp found
              exact Nat.lt_succ_self _
          next => exact Nat.lt_succ_of_lt (ih found)
      | drop other =>
          rw [lastUse_cons_drop] at found
          split at found
          next => cases found
          next => exact Nat.lt_succ_of_lt (ih found)

theorem lastUse_put {history : List (Use Item)} {one item : Item} :
    lastUse (.put one :: history) item ≠ none ↔ item = one ∨ lastUse history item ≠ none := by
  by_cases same : item = one
  · simp [same]
  · simp [same]

theorem lastUse_drop {history : List (Use Item)} {one item : Item} :
    lastUse (.drop one :: history) item ≠ none ↔ item ≠ one ∧ lastUse history item ≠ none := by
  by_cases same : item = one
  · simp [same]
  · simp [same]

theorem put_mem {item : Item} (history : List (Use Item)) :
    lastUse history item ≠ none → .put item ∈ history := by
  induction history with
  | nil => exact fun used => absurd rfl used
  | cons event earlier ih =>
      intro used
      cases event with
      | put other =>
          rcases lastUse_put.mp used with rfl | before
          · exact List.mem_cons_self
          · exact List.mem_cons_of_mem _ (ih before)
      | touch other =>
          apply List.mem_cons_of_mem
          apply ih
          intro unused
          apply used
          simp [unused]
      | drop other => exact List.mem_cons_of_mem _ (ih (lastUse_drop.mp used).2)

namespace ByRecency

variable {history : List (Use Item)} {queue rest : List Item} {item : Item}

theorem nil : ByRecency ([] : List (Use Item)) [] where
  mem := fun item => by simp
  sorted := List.Pairwise.nil

theorem nodup (recent : ByRecency history queue) : queue.Nodup := by
  apply recent.sorted.imp
  intro one other less same
  subst same
  exact Nat.lt_irrefl _ less

theorem used_lt (recent : ByRecency history queue) (member : item ∈ queue) :
    usedAt history item < history.length := by
  obtain ⟨time, found⟩ := Option.ne_none_iff_exists'.mp ((recent.mem item).mp member)
  rw [usedAt, found]
  exact lastUse_lt history found

/-- Some items keep their order, and one is used last. -/
theorem useNow {event : Use Item} {kept : List Item} (recent : ByRecency history queue)
    (sublist : kept.Sublist queue)
    (others : ∀ other ∈ kept, lastUse (event :: history) other = lastUse history other)
    (now : lastUse (event :: history) item = some history.length)
    (mem : ∀ other, other ∈ kept ++ [item] ↔ lastUse (event :: history) other ≠ none) :
    ByRecency (event :: history) (kept ++ [item]) := by
  refine ⟨mem, ?_⟩
  rw [List.pairwise_append]
  refine ⟨?_, List.pairwise_singleton _ _, ?_⟩
  · refine (recent.sorted.sublist sublist).imp_of_mem ?_
    intro one other here there less
    rwa [usedAt, usedAt, others one here, others other there]
  · intro one here other last
    rw [List.mem_singleton.mp last, usedAt, usedAt, others one here, now]
    exact recent.used_lt (sublist.subset here)

theorem put (recent : ByRecency history queue) (absent : item ∉ queue) :
    ByRecency (.put item :: history) (queue ++ [item]) := by
  apply recent.useNow (List.Sublist.refl _)
  · intro other here
    have apart : other ≠ item := fun same => absent (same ▸ here)
    simp [apart]
  · simp
  · intro other
    rw [lastUse_put, List.mem_append, List.mem_singleton, recent.mem, or_comm]

theorem touch (recent : ByRecency history queue) (here : item ∈ queue) :
    ByRecency (.touch item :: history) (queue.erase item ++ [item]) := by
  obtain ⟨time, found⟩ := Option.ne_none_iff_exists'.mp ((recent.mem item).mp here)
  have once := recent.nodup
  apply recent.useNow List.erase_sublist
  · intro other stays
    have apart : other ≠ item := (once.mem_erase_iff.mp stays).1
    simp [apart]
  · simp [found]
  · intro other
    by_cases same : other = item
    · simp [same, found]
    · simp [same, once.mem_erase_iff, recent.mem]

theorem touch_absent (recent : ByRecency history queue) (absent : item ∉ queue) :
    ByRecency (.touch item :: history) queue := by
  have same : ∀ other, lastUse (.touch item :: history) other = lastUse history other := by
    intro other
    by_cases here : other = item
    · subst here
      have none : lastUse history other = none := by simpa [recent.mem] using absent
      simp [none]
    · simp [here]
  refine ⟨fun other => ?_, recent.sorted.imp ?_⟩
  · rw [same]
    exact recent.mem other
  · intro one other less
    rwa [usedAt, usedAt, same, same]

theorem drop (recent : ByRecency history (item :: rest)) :
    ByRecency (.drop item :: history) rest := by
  have once := List.nodup_cons.mp recent.nodup
  have same : ∀ other ∈ rest, lastUse (.drop item :: history) other = lastUse history other := by
    intro other here
    have apart : other ≠ item := fun same => once.1 (same ▸ here)
    simp [apart]
  refine ⟨fun other => ?_, ?_⟩
  · by_cases here : other = item
    · simp [here, once.1]
    · have before := recent.mem other
      rw [List.mem_cons, or_iff_right here] at before
      simpa [here] using before
  · refine (List.pairwise_cons.mp recent.sorted).2.imp_of_mem ?_
    intro one other here there less
    rwa [usedAt, usedAt, same one here, same other there]

end ByRecency

end Recency
