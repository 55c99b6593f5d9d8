import Mathlib.Data.List.Nodup
import Mathlib.Logic.Function.Basic

/-!
# Queues with node handles

A doubly linked queue whose nodes can be named and unlinked from the outside.
A node's link is unique for the life of the queue, so a stale link names no node.
`Tracks` relates the queue to a map that is meant to send every queued item to
its node; under it the queue has no repeats and unlinking by the mapped link
removes exactly the item.
-/

set_option autoImplicit false

variable {Item : Type*}

structure LinkedQueue (Item : Type*) where
  nodes : List (Nat × Item)
  fresh : Nat
  bounded : ∀ node ∈ nodes, node.1 < fresh
  distinct : (nodes.map Prod.fst).Nodup

namespace LinkedQueue

def empty : LinkedQueue Item where
  nodes := []
  fresh := 0
  bounded := by simp
  distinct := by simp

def items (queue : LinkedQueue Item) : List Item := queue.nodes.map Prod.snd

def length (queue : LinkedQueue Item) : Nat := queue.nodes.length

def pushTail (queue : LinkedQueue Item) (item : Item) : LinkedQueue Item where
  nodes := queue.nodes ++ [(queue.fresh, item)]
  fresh := queue.fresh + 1
  bounded := by
    intro node member
    rcases List.mem_append.mp member with member | member
    · exact Nat.lt_succ_of_lt (queue.bounded node member)
    · cases List.mem_singleton.mp member
      exact Nat.lt_succ_self _
  distinct := by
    rw [List.map_append, List.nodup_append]
    refine ⟨queue.distinct, by simp, ?_⟩
    intro link old new member
    obtain ⟨node, inside, rfl⟩ := List.mem_map.mp old
    rw [List.mem_singleton.mp member]
    exact Nat.ne_of_lt (queue.bounded node inside)

def peekTailLink (queue : LinkedQueue Item) : Option Nat :=
  queue.nodes.getLast?.map Prod.fst

def data (queue : LinkedQueue Item) (link : Nat) : Option Item :=
  (queue.nodes.find? fun node => node.1 == link).map Prod.snd

def deleteLink (queue : LinkedQueue Item) (link : Nat) : LinkedQueue Item where
  nodes := queue.nodes.filter fun node => node.1 != link
  fresh := queue.fresh
  bounded := fun node member => queue.bounded node (List.mem_of_mem_filter member)
  distinct := queue.distinct.sublist (List.filter_sublist.map Prod.fst)

def tail (queue : LinkedQueue Item) : LinkedQueue Item where
  nodes := queue.nodes.tail
  fresh := queue.fresh
  bounded := fun node member => queue.bounded node (List.mem_of_mem_tail member)
  distinct := queue.distinct.sublist ((List.tail_sublist _).map Prod.fst)

def popHead (queue : LinkedQueue Item) : Option (Item × LinkedQueue Item) :=
  queue.nodes.head?.map fun node => (node.2, queue.tail)

@[simp] theorem items_empty : (empty : LinkedQueue Item).items = [] := rfl

@[simp] theorem items_pushTail (queue : LinkedQueue Item) (item : Item) :
    (queue.pushTail item).items = queue.items ++ [item] := by
  simp [items, pushTail]

@[simp] theorem peekTailLink_pushTail (queue : LinkedQueue Item) (item : Item) :
    (queue.pushTail item).peekTailLink = some queue.fresh := by
  simp [peekTailLink, pushTail]

@[simp] theorem fresh_deleteLink (queue : LinkedQueue Item) (link : Nat) :
    (queue.deleteLink link).fresh = queue.fresh := rfl

theorem length_eq (queue : LinkedQueue Item) : queue.length = queue.items.length := by
  simp [length, items]

theorem popHead_none {queue : LinkedQueue Item} :
    queue.popHead = none ↔ queue.items = [] := by
  simp [popHead, items]

theorem popHead_items {queue rest : LinkedQueue Item} {item : Item}
    (popped : queue.popHead = some (item, rest)) :
    queue.items = item :: rest.items := by
  unfold popHead at popped
  cases nodesEq : queue.nodes with
  | nil => simp [nodesEq] at popped
  | cons node nodes =>
      simp only [nodesEq, List.head?_cons, Option.map_some, Option.some.injEq,
        Prod.mk.injEq] at popped
      obtain ⟨rfl, rfl⟩ := popped
      simp [items, tail, nodesEq]

theorem node_unique {queue : LinkedQueue Item} {link : Nat} {first second : Item}
    (one : (link, first) ∈ queue.nodes) (two : (link, second) ∈ queue.nodes) :
    first = second := by
  have same := List.inj_on_of_nodup_map queue.distinct one two rfl
  exact congrArg Prod.snd same

theorem data_eq_some {queue : LinkedQueue Item} {link : Nat} {item : Item} :
    queue.data link = some item ↔ (link, item) ∈ queue.nodes := by
  constructor
  · intro found
    obtain ⟨node, search, rfl⟩ := Option.map_eq_some_iff.mp found
    have linkEq : node.1 = link := by simpa using List.find?_some search
    rw [← linkEq]
    exact List.mem_of_find?_eq_some search
  · intro member
    cases search : queue.nodes.find? fun node => node.1 == link with
    | none =>
        have absent := List.find?_eq_none.mp search (link, item) member
        simp at absent
    | some node =>
        have linkEq : node.1 = link := by simpa using List.find?_some search
        have inside : (link, node.2) ∈ queue.nodes := by
          rw [← linkEq]
          exact List.mem_of_find?_eq_some search
        simp [data, search, node_unique inside member]

theorem length_touch {queue : LinkedQueue Item} {link : Nat} {item : Item}
    (found : queue.data link = some item) :
    ((queue.deleteLink link).pushTail item).length = queue.length := by
  have member := data_eq_some.mp found
  have once : (queue.nodes.filter fun node => node.1 == link).length = 1 := by
    have counted := List.count_eq_one_of_mem queue.distinct (List.mem_map_of_mem member)
    rw [List.count, List.countP_map, List.countP_eq_length_filter] at counted
    exact counted
  have parts := List.length_eq_length_filter_add (l := queue.nodes) fun node => node.1 != link
  simp only [length, pushTail, deleteLink, List.length_append, List.length_singleton]
  simp only [bne, Bool.not_not] at parts ⊢
  omega

section Tracks

variable [DecidableEq Item]

/-- The map sends every queued item to its node and everything else nowhere. -/
def Tracks (map : Item → Option Nat) (queue : LinkedQueue Item) : Prop :=
  ∀ item link, map item = some link ↔ (link, item) ∈ queue.nodes

variable {map : Item → Option Nat} {queue : LinkedQueue Item}

omit [DecidableEq Item] in
theorem Tracks.empty : Tracks (fun _ : Item => none) LinkedQueue.empty := by
  intro item link
  simp [LinkedQueue.empty]

omit [DecidableEq Item] in
theorem Tracks.mem_items (tracks : Tracks map queue) {item : Item} :
    item ∈ queue.items ↔ ∃ link, map item = some link := by
  constructor
  · intro member
    obtain ⟨node, inside, rfl⟩ := List.mem_map.mp member
    exact ⟨node.1, (tracks node.2 node.1).mpr inside⟩
  · intro given
    obtain ⟨link, mapped⟩ := given
    exact List.mem_map.mpr ⟨(link, item), (tracks item link).mp mapped, rfl⟩

omit [DecidableEq Item] in
theorem Tracks.not_mem_items (tracks : Tracks map queue) {item : Item} :
    item ∉ queue.items ↔ map item = none := by
  rw [tracks.mem_items, Option.eq_none_iff_forall_ne_some]
  simp

omit [DecidableEq Item] in
theorem Tracks.nodup (tracks : Tracks map queue) : queue.items.Nodup := by
  refine List.Nodup.map_on ?_ (List.Nodup.of_map Prod.fst queue.distinct)
  intro first firstIn second secondIn sameItem
  have firstMapped := (tracks first.2 first.1).mpr firstIn
  have secondMapped := (tracks second.2 second.1).mpr secondIn
  rw [sameItem] at firstMapped
  exact Prod.ext (Option.some.inj (firstMapped.symm.trans secondMapped)) sameItem

omit [DecidableEq Item] in
theorem Tracks.data (tracks : Tracks map queue) {item : Item} {link : Nat}
    (mapped : map item = some link) : queue.data link = some item :=
  data_eq_some.mpr ((tracks item link).mp mapped)

theorem Tracks.push (tracks : Tracks map queue) {item : Item}
    (absent : item ∉ queue.items) :
    Tracks (Function.update map item (some queue.fresh)) (queue.pushTail item) := by
  intro other link
  simp only [pushTail, List.mem_append, List.mem_singleton, Prod.mk.injEq]
  by_cases same : other = item
  · subst same
    have unmapped := (tracks.not_mem_items).mp absent
    have unqueued : (link, other) ∉ queue.nodes := by
      intro member
      rw [(tracks other link).mpr member] at unmapped
      cases unmapped
    simp [unqueued, eq_comm]
  · simp [same, tracks other link]

theorem Tracks.delete (tracks : Tracks map queue) {item : Item} {link : Nat}
    (mapped : map item = some link) :
    Tracks (Function.update map item none) (queue.deleteLink link) := by
  intro other node
  simp only [deleteLink, List.mem_filter, bne_iff_ne, ne_eq]
  by_cases same : other = item
  · subst same
    simp only [Function.update_self, reduceCtorEq, false_iff, not_and, not_not]
    intro member
    have mappedNode := (tracks other node).mpr member
    exact Option.some.inj (mappedNode.symm.trans mapped)
  · rw [Function.update_of_ne same, tracks other node]
    refine ⟨fun member => ⟨member, ?_⟩, And.left⟩
    intro equal
    subst equal
    exact same (node_unique member ((tracks item node).mp mapped))

theorem Tracks.items_delete (tracks : Tracks map queue) {item : Item} {link : Nat}
    (mapped : map item = some link) :
    (queue.deleteLink link).items = queue.items.erase item := by
  have kept : ∀ node ∈ queue.nodes, (node.1 != link) = (node.2 != item) := by
    intro node member
    have inside := (tracks item link).mp mapped
    rw [Bool.eq_iff_iff, bne_iff_ne, bne_iff_ne, not_iff_not]
    constructor
    · intro linkEq
      have member' : (link, node.2) ∈ queue.nodes := by rw [← linkEq]; exact member
      exact node_unique member' inside
    · intro itemEq
      have mappedNode := (tracks node.2 node.1).mpr member
      rw [itemEq, mapped] at mappedNode
      exact (Option.some.inj mappedNode).symm
  rw [tracks.nodup.erase_eq_filter, items, items, deleteLink, List.filter_map]
  exact congrArg (List.map Prod.snd) (List.filter_congr kept)

/-- Moving a queued item to the tail: unlink its node, append a new one, map it. -/
theorem Tracks.touch (tracks : Tracks map queue) {item : Item} {link : Nat}
    (mapped : map item = some link) :
    Tracks (Function.update map item (some queue.fresh))
        ((queue.deleteLink link).pushTail item) ∧
      ((queue.deleteLink link).pushTail item).items =
        queue.items.erase item ++ [item] := by
  have deleted := tracks.delete mapped
  have absent : item ∉ (queue.deleteLink link).items :=
    deleted.not_mem_items.mpr (Function.update_self ..)
  have pushed := deleted.push absent
  rw [Function.update_idem] at pushed
  refine ⟨pushed, ?_⟩
  rw [items_pushTail, tracks.items_delete mapped]

theorem Tracks.touch_perm (tracks : Tracks map queue) {item : Item} {link : Nat}
    (mapped : map item = some link) :
    ((queue.deleteLink link).pushTail item).items.Perm queue.items := by
  have queued : item ∈ queue.items := tracks.mem_items.mpr ⟨link, mapped⟩
  rw [(tracks.touch mapped).2]
  exact (List.perm_append_singleton _ _).trans (List.perm_cons_erase queued).symm

theorem Tracks.pop (tracks : Tracks map queue) {item : Item}
    {rest : LinkedQueue Item} (popped : queue.popHead = some (item, rest)) :
    Tracks (Function.update map item none) rest := by
  unfold popHead at popped
  cases nodesEq : queue.nodes with
  | nil => simp [nodesEq] at popped
  | cons node nodes =>
      simp only [nodesEq, List.head?_cons, Option.map_some, Option.some.injEq,
        Prod.mk.injEq] at popped
      obtain ⟨rfl, rfl⟩ := popped
      have nodup := tracks.nodup
      simp only [items, nodesEq, List.map_cons, List.nodup_cons] at nodup
      intro other link
      simp only [tail, nodesEq, List.tail_cons]
      by_cases same : other = node.2
      · subst same
        simp only [Function.update_self, reduceCtorEq, false_iff]
        exact fun member => nodup.1 (List.mem_map.mpr ⟨_, member, rfl⟩)
      · rw [Function.update_of_ne same, tracks other link, nodesEq, List.mem_cons]
        refine ⟨fun member => member.resolve_left ?_, Or.inr⟩
        intro equal
        subst equal
        exact same rfl

end Tracks

end LinkedQueue
