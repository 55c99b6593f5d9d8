import ZNCache.ChunkCustodyRuns
import ZNCache.ChunkMetadata

/-!
# The queue of evictable chunks

Every queued slot is in use and names itself, and only the thread that keeps the
policy's mutex gets past the start of an eviction.  Both hold in every interleaving in
which the GC moves no chunk.
-/

set_option autoImplicit false

namespace ZNCache

open Tally Transition ZnPolicyChunk

variable {Thread : Type}

/-! ## The policy alone -/

structure SlotsNamed (policy : ZnPolicyChunk Thread) : Prop where
  mapped : LinkedQueue.Tracks policy.chunkToLruMap policy.lruQueue
  named : ∀ place ∈ policy.lruQueue.items,
    (policy.slot place).place = place ∧ (policy.slot place).inUse = true

namespace SlotsNamed

variable {policy after : ZnPolicyChunk Thread}

theorem init (nrZones maxZoneChunks : Nat) :
    SlotsNamed (chunkInit nrZones maxZoneChunks : ZnPolicyChunk Thread) where
  mapped := LinkedQueue.Tracks.empty
  named := by simp [chunkInit]

theorem congr (named : SlotsNamed policy) (sameQueue : after.lruQueue = policy.lruQueue)
    (sameMap : after.chunkToLruMap = policy.chunkToLruMap)
    (samePool : after.zonePool = policy.zonePool) : SlotsNamed after := by
  constructor
  · rw [sameQueue, sameMap]
    exact named.mapped
  · rw [sameQueue]
    intro place member
    simpa only [slot, samePool] using named.named place member

theorem update_read (named : SlotsNamed policy) {location : ZnPair}
    (updated : znPolicyChunkUpdate policy location .read = some after) :
    SlotsNamed after ∧ after.lruQueue.items.Perm policy.lruQueue.items := by
  unfold znPolicyChunkUpdate at updated
  dsimp only at updated
  split at updated
  next => cases updated
  next =>
      cases mapped : policy.chunkToLruMap (location.zone, location.chunkOffset) with
      | none =>
          rw [mapped] at updated
          cases Option.some.inj updated
          exact ⟨named, List.Perm.refl _⟩
      | some node =>
          rw [mapped] at updated
          simp only [named.mapped.data mapped, Option.some.injEq] at updated
          subst updated
          have same := named.mapped.touch_perm mapped
          refine ⟨⟨?_, fun place member => ?_⟩, same⟩
          · simpa using (named.mapped.touch mapped).1
          · exact named.named place (same.mem_iff.mp member)

theorem recordChunk (named : SlotsNamed policy) {location : ZnPair}
    (absent : location.place ∉ policy.lruQueue.items) :
    SlotsNamed (ZNCache.recordChunk policy location) ∧
      (ZNCache.recordChunk policy location).lruQueue.items =
        policy.lruQueue.items ++ [location.place] := by
  have items : (ZNCache.recordChunk policy location).lruQueue.items =
      policy.lruQueue.items ++ [location.place] := LinkedQueue.items_pushTail _ _
  refine ⟨⟨?_, fun place member => ?_⟩, items⟩
  · simpa [ZNCache.recordChunk, ZnPair.place] using named.mapped.push absent
  · rw [slot_recordChunk]
    split
    next here => exact ⟨here.symm, rfl⟩
    next elsewhere =>
        rw [items, List.mem_append, List.mem_singleton] at member
        exact named.named place (member.resolve_right elsewhere)

theorem update_write (named : SlotsNamed policy) {location : ZnPair}
    (absent : location.place ∉ policy.lruQueue.items)
    (updated : znPolicyChunkUpdate policy location .write = some after) :
    SlotsNamed after ∧ after.lruQueue.items = policy.lruQueue.items ++ [location.place] := by
  obtain ⟨recorded, items⟩ := named.recordChunk absent
  unfold znPolicyChunkUpdate at updated
  dsimp only at updated
  split at updated
  next => cases updated
  next =>
      split at updated
      next =>
          cases Option.some.inj updated
          refine ⟨⟨recorded.mapped, fun place member => ?_⟩, items⟩
          rw [slot_enterHeap]
          exact recorded.named place member
      next =>
          cases Option.some.inj updated
          exact ⟨recorded, items⟩

theorem evictChunk (named : SlotsNamed policy) {pair : ZnPair}
    (evicted : ZNCache.evictChunk policy = some (pair, after)) :
    SlotsNamed after ∧ policy.lruQueue.items = pair.place :: after.lruQueue.items ∧
      pair.place ∉ after.lruQueue.items := by
  obtain ⟨position, queue, popped, rfl, sameQueue, sameMap, _, slots, _⟩ :=
    evictChunk_spec evicted
  have items := LinkedQueue.popHead_items popped
  obtain ⟨own, _⟩ := named.named position (by simp [items])
  have once := named.mapped.nodup
  rw [items, List.nodup_cons] at once
  rw [own, sameQueue]
  refine ⟨⟨?_, fun place member => ?_⟩, items, once.1⟩
  · rw [sameMap, sameQueue]
    exact named.mapped.pop popped
  · rw [sameQueue] at member
    have apart : place ≠ ((policy.slot position).zone, (policy.slot position).chunkOffset) := by
      intro same
      have here : place = (policy.slot position).place := same
      rw [here, own] at member
      exact once.1 member
    rw [slots, if_neg apart]
    exact named.named place (by simp [items, member])

end SlotsNamed

/-! ## The mutex -/

def ThreadPc.locked : ThreadPc ChunkEvictPc → Bool
  | idle | get _ | evict _ .start => false
  | evict _ _ => true

def Exclusive (system : ChunkSystem Thread) : Prop :=
  ∀ thread, (system.threads thread).locked = true →
    system.cache.evictionPolicy.holder = some thread

theorem Exclusive.unique {system : ChunkSystem Thread} (exclusive : Exclusive system)
    {one two : Thread} (first : (system.threads one).locked = true)
    (second : (system.threads two).locked = true) : one = two :=
  Option.some.inj ((exclusive one first).symm.trans (exclusive two second))

section Mutex

variable [DecidableEq Thread] {config : CacheConfig} {thread : Thread}
  {cache after : ChunkCache Thread}

omit [DecidableEq Thread] in
theorem znPolicyChunkUpdate_holder {policy updated : ZnPolicyChunk Thread} {location : ZnPair}
    {ioType : ZnIoType} (ran : znPolicyChunkUpdate policy location ioType = some updated) :
    policy.holder = none ∧ updated.holder = none := by
  have unheld : policy.holder = none := by
    cases holder : policy.holder with
    | none => rfl
    | some other => simp [znPolicyChunkUpdate, holder] at ran
  refine ⟨unheld, ?_⟩
  rw [← unheld]
  cases ioType with
  | read => exact (znPolicyChunkUpdate_read ran).2.2.2
  | write =>
      simp only [znPolicyChunkUpdate, unheld, Option.isSome_none, Bool.false_eq_true,
        if_false] at ran
      split at ran
      · cases Option.some.inj ran
        rfl
      · cases Option.some.inj ran
        rfl

theorem ThreadStep.heldPolicy {choice : Choice} {pc next : ThreadPc ChunkEvictPc}
    (taken : ThreadStep (chunkCode config) thread cache pc choice after next)
    (held : cache.evictionPolicy.holder ≠ none) (unlocked : pc.locked = false) :
    after.evictionPolicy = cache.evictionPolicy ∧ next.locked = false := by
  have starts : ∀ {caller code}, ThreadPc.locked (.evict caller code) = false → code = .start := by
    intro caller code isOpen
    cases code <;> first | rfl | cases isOpen
  have leaves : ∀ caller, (afterEvict caller : ThreadPc ChunkEvictPc).locked = false := by
    intro caller
    cases caller <;> rfl
  cases taken with
  | call | callEvict | wakeUp => exact ⟨rfl, rfl⟩
  | get ran =>
      cases ran with
      | touch id location data policy updated =>
          have ran : znPolicyChunkUpdate cache.evictionPolicy location .read =
            some policy := updated
          exact absurd (znPolicyChunkUpdate_holder ran).1 held
      | record id location policy updated =>
          have ran : znPolicyChunkUpdate cache.evictionPolicy location .write =
            some policy := updated
          exact absurd (znPolicyChunkUpdate_holder ran).1 held
      | find id => cases (znCachemapFind thread cache.cacheMap id).1 <;> exact ⟨rfl, rfl⟩
      | @acquire id =>
          generalize (zsmGetActiveZone _ cache.zoneState).ret = ret
          cases ret <;> exact ⟨rfl, rfl⟩
      | woken | read | release | countHit | write | writeFailed => exact ⟨rfl, rfl⟩
      | countMiss | giveBack | insert | undoZone | undoMap => exact ⟨rfl, rfl⟩
  | evict caller code ran =>
      cases starts unlocked
      have ran : chunkEvictStep config thread cache _ .start = some (after, some code) := ran
      cases chunkEvictStep_spec ran with
      | lock nr unheld => exact absurd unheld held
  | evicted caller ran =>
      cases starts unlocked
      have ran : chunkEvictStep config thread cache _ .start = some (after, none) := ran
      cases chunkEvictStep_spec ran with
      | turnedAway => exact ⟨rfl, leaves caller⟩

/-- The thread that moves takes the mutex when it is free, and gives it back. -/
theorem ThreadStep.takesMutex {choice : Choice} {pc next : ThreadPc ChunkEvictPc}
    (taken : ThreadStep (chunkCode config) thread cache pc choice after next)
    (mine : pc.locked = true → cache.evictionPolicy.holder = some thread)
    (locked : next.locked = true) : after.evictionPolicy.holder = some thread := by
  cases taken with
  | call | callEvict | wakeUp => cases locked
  | get ran =>
      exfalso
      cases ran with
      | find id =>
          revert locked
          cases (znCachemapFind thread cache.cacheMap id).1 <;> exact Bool.false_ne_true
      | @acquire id =>
          revert locked
          generalize (zsmGetActiveZone _ cache.zoneState).ret = ret
          cases ret <;> exact Bool.false_ne_true
      | woken | read | touch | release | countHit | write | writeFailed => cases locked
      | countMiss | giveBack | record | insert | undoZone | undoMap => cases locked
  | evicted caller ran =>
      cases caller <;> cases locked
  | evict caller code ran =>
      cases chunkEvictStep_spec ran with
      | lock => rfl
      | pop i nr pair policy evicted =>
          have same : policy.holder = cache.evictionPolicy.holder := by
            unfold evictChunk at evicted
            split at evicted
            · cases evicted
            · obtain ⟨rfl, rfl⟩ := Prod.mk.inj (Option.some.inj evicted)
              rfl
          exact same.trans (mine rfl)
      | popped | mark | clear | gcEnough | gcShort | gcDone => exact mine rfl
      | gcTake | gcSkip | gcAcquire | gcScanned | gcRead | gcWrite => exact mine rfl
      | gcInsert | gcClear | gcReset | gcCount => exact mine rfl

theorem ThreadStep.returnsMutex {choice : Choice} {pc next : ThreadPc ChunkEvictPc}
    (taken : ThreadStep (chunkCode config) thread cache pc choice after next)
    (free : pc.locked = false → cache.evictionPolicy.holder = none)
    (unlocked : next.locked = false) : after.evictionPolicy.holder = none := by
  cases taken with
  | call | callEvict | wakeUp => exact free rfl
  | get ran =>
      cases ran with
      | touch id location data policy updated =>
          have ran : znPolicyChunkUpdate cache.evictionPolicy location .read =
            some policy := updated
          exact (znPolicyChunkUpdate_holder ran).2
      | record id location policy updated =>
          have ran : znPolicyChunkUpdate cache.evictionPolicy location .write =
            some policy := updated
          exact (znPolicyChunkUpdate_holder ran).2
      | find | woken | read | release | countHit | acquire | write => exact free rfl
      | writeFailed | countMiss | giveBack | insert | undoZone | undoMap => exact free rfl
  | evict caller code ran => cases chunkEvictStep_spec ran <;> cases unlocked
  | evicted caller ran =>
      rename_i environment
      have ran : chunkEvictStep config thread cache environment _ = some (after, none) := ran
      cases chunkEvictStep_spec ran with
      | turnedAway => exact free rfl
      | leave => rfl

theorem Exclusive.step {system next : ChunkSystem Thread} {action : Thread × Choice}
    (exclusive : Exclusive system)
    (taken : system.step (chunkCode config) action = some next) : Exclusive next := by
  obtain ⟨mover, choice⟩ := action
  obtain ⟨cache, pc, rfl, moved⟩ := System.step_spec taken
  intro thread locked
  by_cases same : thread = mover
  · subst same
    simp only [System.advance, Function.update_self] at locked ⊢
    exact moved.takesMutex (exclusive thread) locked
  · simp only [System.advance, Function.update_of_ne same] at locked ⊢
    have held := exclusive thread locked
    have isOpen : (system.threads mover).locked = false := by
      by_contra also
      exact same (exclusive.unique locked (by simpa using also))
    rw [(moved.heldPolicy (by simp [held]) isOpen).1]
    exact held

end Mutex

end ZNCache
