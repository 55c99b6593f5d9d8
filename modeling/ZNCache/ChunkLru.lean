import ZNCache.ChunkQueue
import ZNCache.Lib.Recency

/-!
# The chunk policy is an LRU of chunks

The policy's updates and its eviction loop, in any order.  The history of the calls
says which slots are in use and when each was last used; the queue, the slots, the node
map and the counters agree with it.
-/

set_option autoImplicit false

namespace ZNCache

open Recency Transition ZnPolicyChunk

variable {Thread : Type}

/-! ## The policy starts -/

/-- So many passes of the loop of `zn_evict_policy_init` over the chunks of one zone, from
chunk `c`; true when it has ended. -/
def initChunks (maxZoneChunks : Nat) : Nat → Nat → Bool
  | 0, _ => false
  | passes + 1, c =>
      if c < maxZoneChunks then initChunks maxZoneChunks passes (u32 (c + 1)) else true

def InitReturns (nrZones maxZoneChunks : Nat) : Prop :=
  nrZones ≠ 0 → ∃ passes, initChunks maxZoneChunks passes 0 = true

theorem initChunks_fits {maxZoneChunks : Nat} (fits : maxZoneChunks < 2 ^ 32) (left : Nat) :
    ∀ c, c + left = maxZoneChunks → initChunks maxZoneChunks (left + 1) c = true := by
  induction left with
  | zero =>
      intro c atEnd
      simp [initChunks, show ¬ c < maxZoneChunks by omega]
  | succ left ih =>
      intro c before
      have wraps : u32 (c + 1) = c + 1 := by
        exact_mod_cast u32_of_nat (show c + 1 < 2 ^ 32 by omega)
      rw [initChunks, if_pos (show c < maxZoneChunks by omega), wraps]
      exact ih (c + 1) (by omega)

theorem initChunks_wraps {maxZoneChunks : Nat} (large : 2 ^ 32 ≤ maxZoneChunks) (passes : Nat) :
    ∀ c, c < 2 ^ 32 → initChunks maxZoneChunks passes c = false := by
  induction passes with
  | zero => exact fun _ _ => rfl
  | succ passes ih =>
      intro c below
      rw [initChunks, if_pos (by omega)]
      exact ih _ (u32_lt _)

/-- A `uint32_t` never reaches a bound of 2^32. -/
theorem initReturns_iff {nrZones maxZoneChunks : Nat} :
    InitReturns nrZones maxZoneChunks ↔ (nrZones ≠ 0 → maxZoneChunks < 2 ^ 32) := by
  apply imp_congr_right
  intro _
  constructor
  · intro given
    obtain ⟨passes, ended⟩ := given
    by_contra large
    have runs := initChunks_wraps (by omega : 2 ^ 32 ≤ maxZoneChunks) passes 0 (by decide)
    rw [ended] at runs
    cases runs
  · exact fun fits => ⟨maxZoneChunks + 1, initChunks_fits fits maxZoneChunks 0 (by omega)⟩

/-! ## The calls -/

/-- So many passes of the eviction loop, with the slots that they take. -/
def evictChunks : Nat → ZnPolicyChunk Thread → Option (List Slot × ZnPolicyChunk Thread)
  | 0, policy => some ([], policy)
  | passes + 1, policy =>
      match evictChunk policy with
      | none => none
      | some (pair, after) =>
          (evictChunks passes after).map fun later => (pair.place :: later.1, later.2)

inductive ChunkCall
  | update (location : ZnPair) (ioType : ZnIoType)
  | evict (nrEvict : Nat)

structure ChunkLog where
  policy : ZnPolicyChunk Unit
  history : List (Use Slot)

namespace ChunkLog

def init (nrZones maxZoneChunks : Nat) : ChunkLog := ⟨chunkInit nrZones maxZoneChunks, []⟩

def useOf (location : ZnPair) : ZnIoType → Use Slot
  | .read => .touch location.place
  | .write => .put location.place

def step (log : ChunkLog) : ChunkCall → Option ChunkLog
  | .update location ioType =>
      (znPolicyChunkUpdate log.policy location ioType).map fun policy =>
        ⟨policy, useOf location ioType :: log.history⟩
  | .evict nrEvict =>
      (evictChunks nrEvict log.policy).map fun later =>
        ⟨later.2, (later.1.map Use.drop).reverse ++ log.history⟩

/-- Slots of the pool are read and written, the latter when they are not in use, and no
more chunks are evicted than are queued. -/
def Allowed (nrZones : Nat) (log : ChunkLog) : ChunkCall → Prop
  | .update location ioType =>
      (location.zone < nrZones ∧ location.chunkOffset < log.policy.maxZoneChunks) ∧
        (ioType = .write → (log.policy.slot location.place).inUse = false)
  | .evict nrEvict => nrEvict ≤ log.policy.lruQueue.length

instance decidableAllowed (nrZones : Nat) (log : ChunkLog) :
    ∀ call, Decidable (Allowed nrZones log call)
  | .update _ _ => inferInstanceAs (Decidable (_ ∧ _))
  | .evict _ => inferInstanceAs (Decidable (_ ≤ _))

abbrev Run (nrZones maxZoneChunks : Nat) (log : ChunkLog) : Prop :=
  Reach step (Allowed nrZones) (· = init nrZones maxZoneChunks) log

end ChunkLog

/-! ## What agrees with the history -/

/-- A pass of the loop needs a queued slot, and leaves the mutex and the sizes as they are. -/
theorem evictChunk_returns {policy : ZnPolicyChunk Thread} {place : Slot} {rest : List Slot}
    (queued : policy.lruQueue.items = place :: rest) :
    ∃ pair after, evictChunk policy = some (pair, after) ∧ after.holder = policy.holder ∧
      after.maxZoneChunks = policy.maxZoneChunks ∧ after.totalChunks = policy.totalChunks := by
  cases popped : policy.lruQueue.popHead with
  | none =>
      rw [LinkedQueue.popHead_none, queued] at popped
      cases popped
  | some head =>
      obtain ⟨position, queue⟩ := head
      simp only [evictChunk, popped]
      exact ⟨_, _, rfl, rfl, rfl, rfl⟩

structure ChunkRecency (nrZones : Nat) (policy : ZnPolicyChunk Thread)
    (history : List (Use Slot)) : Prop where
  metadata : ChunkMetadata nrZones policy
  recent : ByRecency history policy.lruQueue.items
  unheld : policy.holder = none
  fits : nrZones ≠ 0 → policy.maxZoneChunks < 2 ^ 32

namespace ChunkRecency

variable {nrZones : Nat} {policy after : ZnPolicyChunk Thread} {history : List (Use Slot)}

theorem init {maxZoneChunks : Nat} (fits : nrZones ≠ 0 → maxZoneChunks < 2 ^ 32) :
    ChunkRecency nrZones (chunkInit nrZones maxZoneChunks : ZnPolicyChunk Thread) [] where
  metadata := ChunkMetadata.init nrZones maxZoneChunks
  recent := ByRecency.nil
  unheld := rfl
  fits := fits

theorem update_read (recency : ChunkRecency nrZones policy history) (location : ZnPair) :
    ∃ after, znPolicyChunkUpdate policy location .read = some after ∧
      ChunkRecency nrZones after (.touch location.place :: history) := by
  have metadata := recency.metadata
  cases mapped : policy.chunkToLruMap location.place with
  | none =>
      have ran : znPolicyChunkUpdate policy location .read = some policy := by
        have unmapped : policy.chunkToLruMap (location.zone, location.chunkOffset) = none := mapped
        simp [znPolicyChunkUpdate, recency.unheld, unmapped]
      have absent := metadata.mapped.not_mem_items.mpr mapped
      exact ⟨policy, ran, metadata, recency.recent.touch_absent absent, recency.unheld,
        recency.fits⟩
  | some node =>
      have found : policy.chunkToLruMap (location.zone, location.chunkOffset) = some node := mapped
      have moved := (metadata.mapped.touch mapped).2
      have here := metadata.mapped.mem_items.mpr ⟨node, mapped⟩
      let queue := (policy.lruQueue.deleteLink node).pushTail location.place
      let after := { policy with
        lruQueue := queue
        chunkToLruMap := Function.update policy.chunkToLruMap location.place queue.peekTailLink }
      have ran : znPolicyChunkUpdate policy location .read = some after := by
        have data := metadata.mapped.data mapped
        simp [znPolicyChunkUpdate, recency.unheld, found, data, after, queue, ZnPair.place]
      refine ⟨after, ran, metadata.update_read ran, ?_, recency.unheld, recency.fits⟩
      change ByRecency _ queue.items
      rw [moved]
      exact recency.recent.touch here

theorem update_write (recency : ChunkRecency nrZones policy history) {location : ZnPair}
    (inPool : location.zone < nrZones ∧ location.chunkOffset < policy.maxZoneChunks)
    (unused : (policy.slot location.place).inUse = false) :
    ∃ after, znPolicyChunkUpdate policy location .write = some after ∧
      ChunkRecency nrZones after (.put location.place :: history) := by
  have fits := recency.fits (by omega)
  have absent : location.place ∉ policy.lruQueue.items := by
    rw [recency.metadata.queued, mem_liveSlots, unused]
    simp
  have recent : ByRecency (.put location.place :: history)
      (ZNCache.recordChunk policy location).lruQueue.items := by
    have items : (ZNCache.recordChunk policy location).lruQueue.items =
        policy.lruQueue.items ++ [location.place] := LinkedQueue.items_pushTail _ _
    rw [items]
    exact recency.recent.put absent
  by_cases last : location.chunkOffset + 1 = policy.maxZoneChunks
  · have ran : znPolicyChunkUpdate policy location .write =
        some (enterHeap (ZNCache.recordChunk policy location) location.zone) := by
      simp [znPolicyChunkUpdate, recency.unheld, last]
    exact ⟨_, ran, ⟨recency.metadata.update_write inPool unused fits ran, recent, recency.unheld,
      recency.fits⟩⟩
  · have ran : znPolicyChunkUpdate policy location .write =
        some (ZNCache.recordChunk policy location) := by
      simp [znPolicyChunkUpdate, recency.unheld, last]
    exact ⟨_, ran, ⟨recency.metadata.update_write inPool unused fits ran, recent, recency.unheld,
      recency.fits⟩⟩

theorem evictChunk (recency : ChunkRecency nrZones policy history) {place : Slot}
    {rest : List Slot} (queued : policy.lruQueue.items = place :: rest) :
    ∃ pair after, ZNCache.evictChunk policy = some (pair, after) ∧ pair.place = place ∧
      after.lruQueue.items = rest ∧ ChunkRecency nrZones after (.drop place :: history) := by
  have metadata := recency.metadata
  have live := (metadata.queued place).mp (by simp [queued])
  have fits : policy.maxZoneChunks < 2 ^ 32 := by
    have below := (mem_liveSlots.mp live).1.1
    exact recency.fits (by omega)
  obtain ⟨pair, after, evicted, holder, sameMax, _⟩ := evictChunk_returns queued
  obtain ⟨kept, items, _⟩ := metadata.evictChunk fits evicted
  obtain ⟨first, left⟩ := List.cons.inj (queued.symm.trans items)
  refine ⟨pair, after, evicted, first.symm, left.symm, kept, ?_, holder.trans recency.unheld,
    ?_⟩
  · have recent := recency.recent
    rw [queued, left] at recent
    exact recent.drop
  · rw [sameMax]
    exact recency.fits

theorem evictChunks (passes : Nat) :
    ∀ {policy : ZnPolicyChunk Thread} {history : List (Use Slot)},
      ChunkRecency nrZones policy history → passes ≤ policy.lruQueue.items.length →
      ∃ after, ZNCache.evictChunks passes policy =
          some (policy.lruQueue.items.take passes, after) ∧
        after.lruQueue.items = policy.lruQueue.items.drop passes ∧
        ChunkRecency nrZones after
          (((policy.lruQueue.items.take passes).map Use.drop).reverse ++ history) := by
  induction passes with
  | zero => exact fun {policy} _ recency _ => ⟨policy, rfl, rfl, recency⟩
  | succ passes ih =>
      intro policy history recency enough
      cases queued : policy.lruQueue.items with
      | nil =>
          rw [queued] at enough
          cases enough
      | cons place rest =>
          obtain ⟨pair, middle, evicted, named, left, kept⟩ := recency.evictChunk queued
          have more : passes ≤ middle.lruQueue.items.length := by
            rw [left]
            rw [queued] at enough
            exact Nat.le_of_succ_le_succ enough
          obtain ⟨after, ran, items, later⟩ := ih kept more
          rw [left] at ran items later
          refine ⟨after, ?_, items, ?_⟩
          · simp only [ZNCache.evictChunks, evicted, ran, Option.map_some, named,
              List.take_succ_cons]
          · simpa using later

end ChunkRecency

namespace ChunkLog

variable {nrZones maxZoneChunks : Nat} {log next : ChunkLog}

theorem recency_step {call : ChunkCall}
    (recency : ChunkRecency nrZones log.policy log.history) (allowed : Allowed nrZones log call)
    (taken : log.step call = some next) : ChunkRecency nrZones next.policy next.history := by
  cases call with
  | update location ioType =>
      cases ioType with
      | read =>
          obtain ⟨after, ran, kept⟩ := recency.update_read location
          rw [step, ran] at taken
          cases Option.some.inj taken
          exact kept
      | write =>
          obtain ⟨after, ran, kept⟩ := recency.update_write allowed.1 (allowed.2 rfl)
          rw [step, ran] at taken
          cases Option.some.inj taken
          exact kept
  | evict nrEvict =>
      have enough : nrEvict ≤ log.policy.lruQueue.items.length := by
        rw [← LinkedQueue.length_eq]
        exact allowed
      obtain ⟨after, ran, _, kept⟩ := recency.evictChunks nrEvict enough
      rw [step, ran] at taken
      cases Option.some.inj taken
      exact kept

theorem Run.recency (starts : InitReturns nrZones maxZoneChunks)
    (run : Run nrZones maxZoneChunks log) : ChunkRecency nrZones log.policy log.history := by
  induction run with
  | start begins =>
      cases begins
      exact ChunkRecency.init (initReturns_iff.mp starts)
  | step call _ allowed taken recency => exact recency_step recency allowed taken

/-- The queue lists the slots in use, least recently used first, the map finds their nodes,
the counters count them, and the eviction loop takes them from the front. -/
theorem chunk_isLru (starts : InitReturns nrZones maxZoneChunks)
    (run : Run nrZones maxZoneChunks log) :
    (∀ place, place ∈ log.policy.lruQueue.items ↔ place ∈ log.policy.liveSlots nrZones) ∧
      log.policy.lruQueue.items.Nodup ∧ ByRecency log.history log.policy.lruQueue.items ∧
      LinkedQueue.Tracks log.policy.chunkToLruMap log.policy.lruQueue ∧
      (∀ place ∈ log.policy.lruQueue.items, (log.policy.slot place).place = place) ∧
      (∀ zone < nrZones,
        (log.policy.zonePool zone).chunksInUse = (log.policy.usedChunks zone).card) ∧
      (∀ location ioType, Allowed nrZones log (.update location ioType) →
        ∃ after, znPolicyChunkUpdate log.policy location ioType = some after) ∧
      ∀ nrEvict ≤ log.policy.lruQueue.length, ∃ after,
        evictChunks nrEvict log.policy = some (log.policy.lruQueue.items.take nrEvict, after) ∧
        after.lruQueue.items = log.policy.lruQueue.items.drop nrEvict := by
  have recency := run.recency starts
  have metadata := recency.metadata
  refine ⟨metadata.queued, metadata.once, recency.recent, metadata.mapped,
    metadata.evictsQueuedSlot, metadata.counted, ?_, ?_⟩
  · intro location ioType allowed
    cases ioType with
    | read =>
        obtain ⟨after, ran, _⟩ := recency.update_read location
        exact ⟨after, ran⟩
    | write =>
        obtain ⟨after, ran, _⟩ := recency.update_write allowed.1 (allowed.2 rfl)
        exact ⟨after, ran⟩
  · intro nrEvict enough
    rw [LinkedQueue.length_eq] at enough
    obtain ⟨after, ran, items, _⟩ := recency.evictChunks nrEvict enough
    exact ⟨after, ran, items⟩

/-- Three slots are written, the first is read, and two are evicted. -/
def readThenEvict : List ChunkCall :=
  [.update ⟨0, 1, 0, false⟩ .write, .update ⟨1, 0, 0, false⟩ .write,
    .update ⟨0, 0, 0, false⟩ .write, .update ⟨0, 1, 0, false⟩ .read, .evict 2]

theorem chunk_isLru_readThenEvict :
    ∃ log, runActions step (init 2 2) readThenEvict = some log ∧
      ByRecency log.history [(0, 1)] ∧ (log.policy.zonePool 0).chunksInUse = 1 := by
  cases ran : runActions step (init 2 2) readThenEvict with
  | none => cases ran
  | some log =>
      have reached : Run 2 2 log :=
        Reach.of_runActions readThenEvict (Reach.start rfl) (by decide) ran
      obtain ⟨_, _, recent, _, _, counted, _⟩ :=
        chunk_isLru (initReturns_iff.mpr fun _ => by decide) reached
      have items : log.policy.lruQueue.items = [(0, 1)] := by
        cases Option.some.inj ran
        decide
      have used : (log.policy.usedChunks 0).card = 1 := by
        cases Option.some.inj ran
        decide
      rw [items] at recent
      exact ⟨log, rfl, recent, (counted 0 (by decide)).trans used⟩

end ChunkLog

end ZNCache
