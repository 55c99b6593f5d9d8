import ZNCache.Lib.LinkedQueue
import ZNCache.ZoneStateManager

/-!
# Promotional zone policy

The LRU queue of full zones and the map from zones to their queue nodes.  A map
value of NULL and a missing key are both `none`; dereferencing a node that is not
queued ends the run.
-/

set_option autoImplicit false

namespace ZNCache

inductive ZnIoType
  | read
  | write
  deriving DecidableEq, Repr

structure ZnPolicyPromotional where
  lruQueue : LinkedQueue Nat
  zoneToLruMap : Nat → Option Nat
  zoneMaxChunks : Nat

/-- The promotional case of `zn_evict_policy_init`; `zone_max_chunks` is a `uint32_t`. -/
def promotionalInit (maxZoneChunks : Nat) : ZnPolicyPromotional where
  lruQueue := LinkedQueue.empty
  zoneToLruMap := fun _ => none
  zoneMaxChunks := u32 maxZoneChunks

/-- `zone_max_chunks - 1`, in unsigned arithmetic. -/
def ZnPolicyPromotional.lastChunk (policy : ZnPolicyPromotional) : Nat :=
  u32 (policy.zoneMaxChunks - 1)

def znPolicyPromotionalUpdate (policy : ZnPolicyPromotional) (location : ZnPair)
    (ioType : ZnIoType) : Option ZnPolicyPromotional :=
  if ioType = .write ∧ location.chunkOffset = policy.lastChunk then
    let queue := policy.lruQueue.pushTail location.zone
    some { policy with
      lruQueue := queue
      zoneToLruMap :=
        Function.update policy.zoneToLruMap location.zone queue.peekTailLink }
  else if ioType = .read then
    match policy.zoneToLruMap location.zone with
    | none => some policy
    | some node =>
        match policy.lruQueue.data node with
        | none => none
        | some data =>
            let queue := (policy.lruQueue.deleteLink node).pushTail data
            some { policy with
              lruQueue := queue
              zoneToLruMap :=
                Function.update policy.zoneToLruMap location.zone queue.peekTailLink }
  else some policy

/-- The zone to evict; `none` is the return value -1, which a failed trylock also gives. -/
def znPolicyPromotionalGetZoneToEvict (locked : Bool) (policy : ZnPolicyPromotional) :
    Option Nat × ZnPolicyPromotional :=
  if locked then
    match policy.lruQueue.popHead with
    | none => (none, policy)
    | some (zone, queue) =>
        (some zone, { policy with
          lruQueue := queue
          zoneToLruMap := Function.update policy.zoneToLruMap zone none })
  else (none, policy)

namespace ZnPolicyPromotional

def zones (policy : ZnPolicyPromotional) : List Nat := policy.lruQueue.items

def Consistent (policy : ZnPolicyPromotional) : Prop :=
  LinkedQueue.Tracks policy.zoneToLruMap policy.lruQueue

theorem consistent_init (maxZoneChunks : Nat) : (promotionalInit maxZoneChunks).Consistent :=
  LinkedQueue.Tracks.empty

variable {policy : ZnPolicyPromotional}

theorem Consistent.update_filled (consistent : policy.Consistent) {location : ZnPair}
    (last : location.chunkOffset = policy.lastChunk) (absent : location.zone ∉ policy.zones) :
    ∃ after, znPolicyPromotionalUpdate policy location .write = some after ∧
      after.Consistent ∧ after.zones = policy.zones ++ [location.zone] ∧
      after.zoneMaxChunks = policy.zoneMaxChunks := by
  have pushed := LinkedQueue.Tracks.push consistent absent
  refine ⟨{ policy with
      lruQueue := policy.lruQueue.pushTail location.zone
      zoneToLruMap := Function.update policy.zoneToLruMap location.zone
        (some policy.lruQueue.fresh) }, ?_, pushed, ?_, rfl⟩
  · simp [znPolicyPromotionalUpdate, last]
  · exact LinkedQueue.items_pushTail _ _

theorem update_notFilled {location : ZnPair}
    (notLast : location.chunkOffset ≠ policy.lastChunk) :
    znPolicyPromotionalUpdate policy location .write = some policy := by
  simp [znPolicyPromotionalUpdate, notLast]

theorem Consistent.update_read (consistent : policy.Consistent) (location : ZnPair) :
    ∃ after, znPolicyPromotionalUpdate policy location .read = some after ∧
      after.Consistent ∧
      after.zones = (if location.zone ∈ policy.zones
        then policy.zones.erase location.zone ++ [location.zone] else policy.zones) ∧
      after.zoneMaxChunks = policy.zoneMaxChunks := by
  cases mapped : policy.zoneToLruMap location.zone with
  | none =>
      have absent : location.zone ∉ policy.zones := consistent.not_mem_items.mpr mapped
      refine ⟨policy, by simp [znPolicyPromotionalUpdate, mapped], consistent, ?_, rfl⟩
      rw [if_neg absent]
  | some node =>
      have queued : location.zone ∈ policy.zones := consistent.mem_items.mpr ⟨node, mapped⟩
      obtain ⟨touched, items⟩ := LinkedQueue.Tracks.touch consistent mapped
      refine ⟨{ policy with
          lruQueue := (policy.lruQueue.deleteLink node).pushTail location.zone
          zoneToLruMap := Function.update policy.zoneToLruMap location.zone
            (some policy.lruQueue.fresh) }, ?_, touched, ?_, rfl⟩
      · simp [znPolicyPromotionalUpdate, mapped, consistent.data mapped]
      · rw [if_pos queued]
        exact items

theorem Consistent.update_read_perm (consistent : policy.Consistent) (location : ZnPair) :
    ∃ after, znPolicyPromotionalUpdate policy location .read = some after ∧
      after.Consistent ∧ after.zones.Perm policy.zones ∧
      after.zoneMaxChunks = policy.zoneMaxChunks := by
  obtain ⟨after, updated, consistent', zones, sameMax⟩ := consistent.update_read location
  refine ⟨after, updated, consistent', ?_, sameMax⟩
  rw [zones]
  split
  next queued =>
      exact (List.perm_append_singleton _ _).trans (List.perm_cons_erase queued).symm
  next => exact List.Perm.refl _

theorem Consistent.getZoneToEvict (consistent : policy.Consistent) (locked : Bool) :
    (znPolicyPromotionalGetZoneToEvict locked policy = (none, policy) ∧
      (locked = true → policy.zones = [])) ∨
    ∃ zone after, znPolicyPromotionalGetZoneToEvict locked policy = (some zone, after) ∧
      after.Consistent ∧ policy.zones = zone :: after.zones ∧
      after.zoneMaxChunks = policy.zoneMaxChunks := by
  cases locked with
  | false => exact .inl ⟨rfl, by simp⟩
  | true =>
      cases popped : policy.lruQueue.popHead with
      | none =>
          refine .inl ⟨by simp [znPolicyPromotionalGetZoneToEvict, popped], fun _ => ?_⟩
          exact LinkedQueue.popHead_none.mp popped
      | some head =>
          obtain ⟨zone, queue⟩ := head
          refine .inr ⟨zone, { policy with
              lruQueue := queue
              zoneToLruMap := Function.update policy.zoneToLruMap zone none }, ?_,
            LinkedQueue.Tracks.pop consistent popped, LinkedQueue.popHead_items popped, rfl⟩
          simp [znPolicyPromotionalGetZoneToEvict, popped]

section Answer

variable {after : ZnPolicyPromotional} {locked : Bool}

theorem Consistent.takesNothing (consistent : policy.Consistent)
    (answer : znPolicyPromotionalGetZoneToEvict locked policy = (none, after)) :
    after = policy := by
  rcases consistent.getZoneToEvict locked with ⟨same, _⟩ | ⟨_, _, other, _⟩
  · exact (Prod.mk.inj (answer.symm.trans same)).2
  · cases (Prod.mk.inj (answer.symm.trans other)).1

theorem Consistent.takes (consistent : policy.Consistent) {zone : Nat}
    (answer : znPolicyPromotionalGetZoneToEvict locked policy = (some zone, after)) :
    after.Consistent ∧ policy.zones = zone :: after.zones ∧
      after.zoneMaxChunks = policy.zoneMaxChunks := by
  rcases consistent.getZoneToEvict locked with ⟨other, _⟩ | ⟨_, _, same, kept⟩
  · cases (Prod.mk.inj (answer.symm.trans other)).1
  · obtain ⟨sameZone, rfl⟩ := Prod.mk.inj (answer.symm.trans same)
    cases Option.some.inj sameZone
    exact kept

end Answer

end ZnPolicyPromotional

/-- The zone manager closes a zone at the chunk at which the policy takes it up,
when the chunks of a zone can be counted in 32 bits. -/
theorem closes_iff_lastChunk {maxZoneChunks offset : Nat} (small : maxZoneChunks < 2 ^ 32)
    (offsetSmall : offset < 2 ^ 32) :
    u32 (offset + 1) = maxZoneChunks ↔ offset = u32 (u32 maxZoneChunks - 1) := by
  unfold u32
  omega

end ZNCache
