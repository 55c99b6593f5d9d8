import Mathlib.Tactic.Abel
import ZNCache.ChunkCustodyRuns
import ZNCache.ZoneOwnership

/-!
# The states of queued zones

Whatever the libzbd commands return, the zones of the active queue are active and those of
the free queue free.  A zone that leaves its queue is kept by one thread, or by the policy,
until it is queued again.
-/

set_option autoImplicit false

namespace ZNCache

open Duties Tally Transition ZoneStateManager

variable {Thread Policy Local : Type}

structure QueuesSorted (manager : ZoneStateManager) : Prop where
  active : ∀ zone ∈ manager.active, (manager.state zone).state = .active
  free : ∀ zone ∈ manager.free, (manager.state zone).state = .free

def Unqueued (manager : ZoneStateManager) (zone : Nat) : Prop :=
  zone ∉ manager.active ∧ zone ∉ manager.free

/-! ## The calls of the manager -/

section Calls

variable {manager after : ZoneStateManager} {zone : Nat}

theorem QueuesSorted.init (numZones zoneCap zoneSize chunkSize maxNrActiveZones : Nat)
    (backendType : ZnBackend) :
    QueuesSorted (zsmInit numZones zoneCap zoneSize chunkSize maxNrActiveZones backendType) := by
  constructor
  · intro zone member
    cases member
  · exact fun _ _ => rfl

theorem QueuesSorted.change (sorted : QueuesSorted manager) (zone : Nat)
    (others : ∀ other, other ≠ zone → after.state other = manager.state other)
    (active : ∀ other ∈ after.active, (other ≠ zone ∧ other ∈ manager.active) ∨
      (after.state other).state = .active)
    (free : ∀ other ∈ after.free, (other ≠ zone ∧ other ∈ manager.free) ∨
      (after.state other).state = .free) : QueuesSorted after := by
  constructor
  · intro other member
    rcases active other member with ⟨apart, before⟩ | here
    · rw [others other apart]
      exact sorted.active other before
    · exact here
  · intro other member
    rcases free other member with ⟨apart, before⟩ | here
    · rw [others other apart]
      exact sorted.free other before
    · exact here

theorem QueuesSorted.getActiveZone {ret : GetActiveZone} (sorted : QueuesSorted manager)
    (once : ((manager.active : Multiset Nat) + (manager.free : Multiset Nat)).Nodup)
    (answer : GetActiveZoneAnswer manager ret after) : QueuesSorted after := by
  cases answer with
  | refused => exact sorted
  | dropped _ _ zone rest head =>
      refine ⟨sorted.active, fun other member => sorted.free other ?_⟩
      rw [head]
      exact List.mem_cons_of_mem zone member
  | resumed zone rest head =>
      rw [head, ← Multiset.cons_coe, Multiset.cons_add, Multiset.nodup_cons] at once
      simp only [Multiset.mem_add, Multiset.mem_coe, not_or] at once
      apply sorted.change zone
      · exact fun other apart => Function.update_of_ne apart _ _
      · intro other member
        refine .inl ⟨fun same => once.1.1 (same ▸ member), ?_⟩
        rw [head]
        exact List.mem_cons_of_mem zone member
      · exact fun other member => .inl ⟨fun same => once.1.2 (same ▸ member), member⟩
  | opened zone rest noActive head =>
      rw [noActive, head, Multiset.coe_nil, zero_add, Multiset.coe_nodup, List.nodup_cons] at once
      apply sorted.change zone
      · exact fun other apart => Function.update_of_ne apart _ _
      · intro other member
        cases member
      · intro other member
        refine .inl ⟨fun same => once.1 (same ▸ member), ?_⟩
        rw [head]
        exact List.mem_cons_of_mem zone member

theorem QueuesSorted.update (sorted : QueuesSorted manager) (unqueued : Unqueued manager zone)
    {entry : ZnZone} {active : List Nat} {writes : Int}
    (queues : active = manager.active ∨
      active = manager.active ++ [zone] ∧ entry.state = .active) :
    QueuesSorted { manager.setZone zone entry with
      active := active, writesOccurring := writes } := by
  apply sorted.change zone
  · exact fun other apart => Function.update_of_ne apart _ _
  · intro other member
    rcases queues with rfl | ⟨rfl, isActive⟩
    · exact .inl ⟨fun same => unqueued.1 (same ▸ member), member⟩
    · rcases List.mem_append.mp member with before | last
      · exact .inl ⟨fun same => unqueued.1 (same ▸ before), before⟩
      · rw [List.mem_singleton.mp last]
        exact .inr (by simpa using isActive)
  · exact fun other member => .inl ⟨fun same => unqueued.2 (same ▸ member), member⟩

theorem QueuesSorted.returned {finishRet ret : Int} (sorted : QueuesSorted manager)
    (unqueued : Unqueued manager zone) (spec : ReturnSpec finishRet manager zone ret after) :
    QueuesSorted after := by
  cases spec with
  | reopened => exact sorted.update unqueued (.inr ⟨rfl, rfl⟩)
  | alreadyFull | finished | failed => exact sorted.update unqueued (.inl rfl)

theorem QueuesSorted.failedToWrite {pair : ZnPair} (sorted : QueuesSorted manager)
    (unqueued : Unqueued manager pair.zone) :
    QueuesSorted (zsmFailedToWrite manager pair).state :=
  sorted.update unqueued (.inr ⟨rfl, rfl⟩)

theorem QueuesSorted.evicted {resetRet : Int} (sorted : QueuesSorted manager)
    (unqueued : Unqueued manager zone) (spec : EvictSpec resetRet manager zone after) :
    QueuesSorted after := by
  cases spec with
  | alreadyFree => exact sorted
  | failed => exact sorted.update unqueued (.inl rfl)
  | reset =>
      apply sorted.change zone
      · exact fun other apart => Function.update_of_ne apart _ _
      · exact fun other member => .inl ⟨fun same => unqueued.1 (same ▸ member), member⟩
      · intro other member
        rcases List.mem_append.mp member with before | last
        · exact .inl ⟨fun same => unqueued.2 (same ▸ before), before⟩
        · rw [List.mem_singleton.mp last]
          exact .inr (by simp [freed, returnedZone])

theorem QueuesSorted.markChunkInvalid (sorted : QueuesSorted manager) (location : ZnPair) :
    QueuesSorted (zsmMarkChunkInvalid manager location) := by
  have same : ∀ other, ((zsmMarkChunkInvalid manager location).state other).state =
      (manager.state other).state := by
    intro other
    by_cases own : other = location.zone
    · subst own
      simp [zsmMarkChunkInvalid]
    · simp [zsmMarkChunkInvalid, own]
  constructor
  · exact fun other member => (same other).trans (sorted.active other member)
  · exact fun other member => (same other).trans (sorted.free other member)

end Calls

theorem GetStep.queues [DecidableEq Thread] {code : EvictionCode Thread Policy Local}
    {thread : Thread} {cache after : ZnCache Thread Policy} {environment : Environment}
    {pc : GetPc} {next : ThreadPc Local}
    (taken : GetStep code thread cache environment pc after next)
    (sorted : QueuesSorted cache.zoneState)
    (once : ((cache.zoneState.active : Multiset Nat) + (cache.zoneState.free : Multiset Nat)).Nodup)
    (unqueued : ∀ pair ∈ pc.holds, Unqueued cache.zoneState pair.zone) :
    QueuesSorted after.zoneState := by
  cases taken with
  | acquire id => exact sorted.getActiveZone once (zsmGetActiveZone_answer _ _)
  | giveBack id location =>
      exact sorted.returned (unqueued location (by simp [GetPc.holds]))
        (zsmReturnActiveZone_spec _ _ _)
  | undoZone id location => exact sorted.failedToWrite (unqueued location (by simp [GetPc.holds]))
  | find | woken | read | touch | release | countHit => exact sorted
  | write | writeFailed | countMiss | record | insert | undoMap => exact sorted

/-! ## The zones that are kept -/

def keptBy (manager : ZoneStateManager) (pairs : Multiset ZnPair) (others : Multiset Nat) :
    Multiset Nat :=
  (manager.active : Multiset Nat) + (manager.free : Multiset Nat) + pairs.map ZnPair.zone + others

/-- No zone is kept twice, and a held pair names the next chunk of its zone. -/
structure ZoneCustody (manager : ZoneStateManager) (pairs : Multiset ZnPair)
    (others : Multiset Nat) : Prop where
  once : (keptBy manager pairs others).Nodup
  zoneIds : ∀ zone, (manager.state zone).zoneId = zone
  offsetSmall : ∀ zone, (manager.state zone).chunkOffset < 2 ^ 32
  offsets : ∀ pair ∈ pairs, pair.chunkOffset = (manager.state pair.zone).chunkOffset
  sorted : QueuesSorted manager

section Kept

variable {manager after : ZoneStateManager} {pairs pairs' : Multiset ZnPair}
  {others others' : Multiset Nat} {zone : Nat} {pair : ZnPair}

theorem ZoneCustody.queuesOnce (kept : ZoneCustody manager pairs others) :
    ((manager.active : Multiset Nat) + (manager.free : Multiset Nat)).Nodup := by
  apply Multiset.nodup_of_le _ kept.once
  rw [keptBy, add_assoc]
  exact Multiset.le_add_right _ _

theorem ZoneCustody.apart_of_other (kept : ZoneCustody manager pairs ({zone} + others)) :
    Unqueued manager zone ∧ (∀ pair ∈ pairs, pair.zone ≠ zone) ∧ zone ∉ others := by
  have once := kept.once
  rw [keptBy, Multiset.singleton_add, Multiset.add_cons, Multiset.nodup_cons] at once
  simp only [Multiset.mem_add, Multiset.mem_coe, not_or] at once
  obtain ⟨⟨⟨⟨notActive, notFree⟩, notHeld⟩, notOther⟩, _⟩ := once
  exact ⟨⟨notActive, notFree⟩,
    fun pair member same => notHeld (same ▸ Multiset.mem_map_of_mem ZnPair.zone member), notOther⟩

theorem keptBy_held : keptBy manager ({pair} + pairs) others =
    keptBy manager pairs ({pair.zone} + others) := by
  simp only [keptBy, Multiset.map_add, Multiset.map_singleton]
  abel

theorem ZoneCustody.letGo (kept : ZoneCustody manager ({pair} + pairs) others) :
    ZoneCustody manager pairs ({pair.zone} + others) :=
  ⟨keptBy_held ▸ kept.once, kept.zoneIds, kept.offsetSmall,
    fun held member => kept.offsets held (Multiset.mem_add.mpr (.inr member)), kept.sorted⟩

theorem ZoneCustody.unqueued (kept : ZoneCustody manager pairs others) (member : pair ∈ pairs) :
    Unqueued manager pair.zone := by
  obtain ⟨rest, rfl⟩ := Multiset.exists_cons_of_mem member
  rw [← Multiset.singleton_add] at kept
  exact kept.letGo.apart_of_other.1

theorem ZoneCustody.change (kept : ZoneCustody manager pairs others) (entry : ZnZone)
    (changed : after.state = Function.update manager.state zone entry)
    (zoneId : entry.zoneId = zone) (small : entry.chunkOffset < 2 ^ 32)
    (once : (keptBy after pairs' others').Nodup)
    (offsets : ∀ pair ∈ pairs', (pair.zone ≠ zone ∧ pair ∈ pairs) ∨
      (pair.zone = zone ∧ pair.chunkOffset = entry.chunkOffset))
    (sorted : QueuesSorted after) : ZoneCustody after pairs' others' := by
  refine ⟨once, fun other => ?_, fun other => ?_, fun pair member => ?_, sorted⟩
  · rw [changed]
    by_cases same : other = zone
    · rw [same, Function.update_self, zoneId]
    · rw [Function.update_of_ne same, kept.zoneIds other]
  · rw [changed]
    by_cases same : other = zone
    · rwa [same, Function.update_self]
    · rw [Function.update_of_ne same]
      exact kept.offsetSmall other
  · rw [changed]
    rcases offsets pair member with ⟨apart, before⟩ | ⟨same, offset⟩
    · rw [Function.update_of_ne apart, kept.offsets pair before]
    · rw [same, Function.update_self, offset]

theorem ZoneCustody.fewer (kept : ZoneCustody manager pairs others)
    (less : keptBy manager pairs' others' ≤ keptBy manager pairs others)
    (same : ∀ pair ∈ pairs', pair ∈ pairs) : ZoneCustody manager pairs' others' :=
  ⟨Multiset.nodup_of_le less kept.once, kept.zoneIds, kept.offsetSmall,
    fun pair member => kept.offsets pair (same pair member), kept.sorted⟩

theorem ZoneCustody.handOut (kept : ZoneCustody manager pairs others) {offset : Nat}
    {active free : List Nat} (small : offset < 2 ^ 32)
    (drawn : (manager.active : Multiset Nat) + (manager.free : Multiset Nat) =
      zone ::ₘ ((active : Multiset Nat) + (free : Multiset Nat)))
    (sorted : QueuesSorted (handedOut manager zone offset active free)) :
    ZoneCustody (handedOut manager zone offset active free)
      ({⟨(manager.state zone).zoneId, offset, 0, false⟩} + pairs) others := by
  rw [kept.zoneIds zone]
  have same : keptBy (handedOut manager zone offset active free)
      ({⟨zone, offset, 0, false⟩} + pairs) others = keptBy manager pairs others := by
    simp only [keptBy, drawn, handedOut, Multiset.map_add, Multiset.map_singleton,
      ← Multiset.singleton_add]
    abel
  have once := kept.once
  rw [keptBy, drawn, Multiset.cons_add, Multiset.cons_add, Multiset.nodup_cons] at once
  simp only [Multiset.mem_add, not_or] at once
  apply kept.change
    { manager.state zone with state := .writeOccuring, chunkOffset := offset } rfl
    (kept.zoneIds zone) small (same ▸ kept.once) _ sorted
  intro pair member
  rcases Multiset.mem_add.mp member with own | before
  · cases Multiset.mem_singleton.mp own
    exact .inr ⟨rfl, rfl⟩
  · exact .inl ⟨fun here =>
      once.1.1.2 (here ▸ Multiset.mem_map_of_mem ZnPair.zone before), before⟩

theorem ZoneCustody.getActiveZone {ret : GetActiveZone} (kept : ZoneCustody manager pairs others)
    (answer : GetActiveZoneAnswer manager ret after) :
    ZoneCustody after (ret.hands + pairs) others := by
  have sorted := kept.sorted.getActiveZone kept.queuesOnce answer
  cases answer with
  | refused ret nothing =>
      rw [nothing, zero_add]
      exact kept
  | dropped ret nothing zone rest head =>
      rw [nothing, zero_add]
      refine ⟨Multiset.nodup_of_le ?_ kept.once, kept.zoneIds, kept.offsetSmall, kept.offsets,
        sorted⟩
      simp only [keptBy, head, ← Multiset.cons_coe, Multiset.add_cons, Multiset.cons_add]
      exact Multiset.le_cons_self _ _
  | resumed zone rest head =>
      apply kept.handOut (kept.offsetSmall zone) _ sorted
      rw [head, ← Multiset.cons_coe, Multiset.cons_add]
  | opened zone rest noActive head =>
      apply kept.handOut (by decide) _ sorted
      rw [noActive, head, ← Multiset.cons_coe, Multiset.add_cons]

theorem ZoneCustody.reopen (kept : ZoneCustody manager ({pair} + pairs) others) {offset : Nat}
    {writes : Int} (small : offset < 2 ^ 32) :
    ZoneCustody { manager.setZone pair.zone
          (returnedZone (manager.state pair.zone) .active offset) with
        writesOccurring := writes
        active := manager.active ++ [pair.zone] } pairs others := by
  obtain ⟨unqueued, notHeld, _⟩ := kept.letGo.apart_of_other
  apply kept.letGo.change (returnedZone (manager.state pair.zone) .active offset) rfl
    (kept.zoneIds pair.zone) small
  · have once := kept.once
    convert once using 1
    simp only [keptBy, setZone_free, ← Multiset.coe_add, Multiset.coe_singleton, Multiset.map_add,
      Multiset.map_singleton]
    abel
  · exact fun held member => .inl ⟨notHeld held member, member⟩
  · exact kept.sorted.update unqueued (.inr ⟨rfl, rfl⟩)

theorem ZoneCustody.leave (kept : ZoneCustody manager ({pair} + pairs) others) {entry : ZnZone}
    {writes : Int} (zoneId : entry.zoneId = pair.zone) (small : entry.chunkOffset < 2 ^ 32) :
    ZoneCustody { manager.setZone pair.zone entry with writesOccurring := writes } pairs
      ({pair.zone} + others) := by
  obtain ⟨unqueued, notHeld, _⟩ := kept.letGo.apart_of_other
  apply kept.letGo.change entry rfl zoneId small
  · exact kept.letGo.once
  · exact fun held member => .inl ⟨notHeld held member, member⟩
  · exact kept.sorted.update unqueued (.inl rfl)

theorem ZoneCustody.returned {finishRet ret : Int}
    (kept : ZoneCustody manager ({pair} + pairs) others) (fits : manager.maxZoneChunks < 2 ^ 32)
    (spec : ReturnSpec finishRet manager pair.zone ret after) :
    ZoneCustody after pairs
      ((if u32 (pair.chunkOffset + 1) = manager.maxZoneChunks then {pair.zone} else 0) +
        others) := by
  have offset := kept.offsets pair (by simp)
  have own := kept.zoneIds pair.zone
  rw [offset]
  cases spec with
  | reopened offset advanced notLast =>
      rw [if_neg (advanced ▸ notLast), zero_add]
      exact kept.reopen (advanced ▸ u32_lt _)
  | alreadyFull last full =>
      rw [if_pos last]
      exact kept.leave own fits
  | finished last notFull done =>
      rw [if_pos last]
      exact kept.leave own (by simp [returnedZone])
  | failed last notFull failure =>
      rw [if_pos last]
      exact kept.leave own fits

theorem ZoneCustody.failedToWrite (kept : ZoneCustody manager ({pair} + pairs) others) :
    ZoneCustody (zsmFailedToWrite manager pair).state pairs others :=
  kept.reopen (kept.offsetSmall pair.zone)

theorem ZoneCustody.evicted {resetRet : Int} (kept : ZoneCustody manager pairs ({zone} + others))
    (spec : EvictSpec resetRet manager zone after) : ZoneCustody after pairs others := by
  obtain ⟨unqueued, notHeld, _⟩ := kept.apart_of_other
  have sorted := kept.sorted.evicted unqueued spec
  have less : keptBy manager pairs others ≤ keptBy manager pairs ({zone} + others) := by
    simp only [keptBy, Multiset.singleton_add, Multiset.add_cons]
    exact Multiset.le_cons_self _ _
  have dropped := kept.fewer less fun _ => id
  cases spec with
  | alreadyFree => exact dropped
  | failed =>
      apply dropped.change { manager.state zone with invalid := [] } rfl (kept.zoneIds zone)
        (kept.offsetSmall zone)
      · exact dropped.once
      · exact fun held member => .inl ⟨notHeld held member, member⟩
      · exact sorted
  | reset =>
      apply dropped.change (returnedZone (manager.state zone) .free 0) rfl (kept.zoneIds zone)
        (by simp [returnedZone])
      · have once := kept.once
        convert once using 1
        simp only [keptBy, freed, setZone_active, ← Multiset.coe_add, Multiset.coe_singleton]
        abel
      · exact fun held member => .inl ⟨notHeld held member, member⟩
      · exact sorted

end Kept

/-! ## The promotional policy -/

structure PromotionalCustody (config : CacheConfig) (cache : PromotionalCache Thread)
    (pairs : Multiset ZnPair) (hands : Multiset Nat) : Prop where
  zones : ZoneCustody cache.zoneState pairs (Multiset.ofList cache.evictionPolicy.zones + hands)
  maxChunks : cache.zoneState.maxZoneChunks = config.maxZoneChunks
  policyMax : cache.evictionPolicy.zoneMaxChunks = u32 config.maxZoneChunks
  consistent : cache.evictionPolicy.Consistent

section Promotional

variable {config : CacheConfig} {cache after : PromotionalCache Thread} {environment : Environment}
  {pairs : Multiset ZnPair} {hands : Multiset Nat}

theorem PromotionalCustody.setPolicy (custody : PromotionalCustody config cache pairs hands)
    {policy : ZnPolicyPromotional} {hands' : Multiset Nat} (consistent : policy.Consistent)
    (sameMax : policy.zoneMaxChunks = cache.evictionPolicy.zoneMaxChunks)
    (same : Multiset.ofList policy.zones + hands' =
      Multiset.ofList cache.evictionPolicy.zones + hands) :
    PromotionalCustody config { cache with evictionPolicy := policy } pairs hands' := by
  refine ⟨?_, custody.maxChunks, sameMax.trans custody.policyMax, consistent⟩
  rw [same]
  exact custody.zones

theorem GetStep.promotionalCustody [DecidableEq Thread] {thread : Thread} {pc : GetPc}
    {next : ThreadPc EvictPc} (fits : config.maxZoneChunks < 2 ^ 32)
    (taken : GetStep (promotionalCode config) thread cache environment pc after next)
    (custody : PromotionalCustody config cache (pc.holds + pairs) (pc.fills config + hands)) :
    PromotionalCustody config after (next.holds + pairs) (next.ownsFull config + hands) := by
  have none := taken.fills_eq_zero
  obtain ⟨zones, maxChunks, policyMax, consistent⟩ := custody
  cases taken with
  | acquire id =>
      rw [none (by simp), ThreadPc.holds_afterGetActiveZone]
      rw [GetPc.holds, zero_add] at zones
      have shape := zsmGetActiveZone_shape environment.commandRet cache.zoneState
      exact ⟨zones.getActiveZone (zsmGetActiveZone_answer _ _),
        shape.maxZoneChunks.trans maxChunks, policyMax, consistent⟩
  | giveBack id location =>
      have spec := zsmReturnActiveZone_spec environment.commandRet cache.zoneState location
      refine ⟨?_, spec.shape.maxZoneChunks.trans maxChunks, policyMax, consistent⟩
      have small : location.chunkOffset < 2 ^ 32 := by
        rw [zones.offsets location (by simp [GetPc.holds])]
        exact zones.offsetSmall _
      have returned := zones.returned (maxChunks ▸ fits) spec
      rw [maxChunks, if_congr (closes_iff_lastChunk fits small) rfl rfl, GetPc.fills, zero_add,
        add_left_comm] at returned
      simpa only [ThreadPc.holds, ThreadPc.lift, GetPc.holds, zero_add, ThreadPc.ownsFull,
        GetPc.fills] using returned
  | undoZone id location =>
      rw [ThreadPc.holds, ThreadPc.lift, GetPc.holds, zero_add]
      exact ⟨zones.failedToWrite, maxChunks, policyMax, consistent⟩
  | record id location policy updated =>
      have lastChunk : cache.evictionPolicy.lastChunk = u32 (u32 config.maxZoneChunks - 1) := by
        rw [ZnPolicyPromotional.lastChunk, policyMax]
      have custody := PromotionalCustody.mk zones maxChunks policyMax consistent
      by_cases last : location.chunkOffset = u32 (u32 config.maxZoneChunks - 1)
      · rw [GetPc.fills, if_pos last] at zones custody
        rw [add_left_comm] at zones
        have unlisted := zones.apart_of_other.2.2
        rw [Multiset.mem_add, not_or] at unlisted
        obtain ⟨policy', updated', consistent', queued, sameMax⟩ :=
          consistent.update_filled (last.trans lastChunk.symm) (by simpa using unlisted.1)
        cases Option.some.inj (updated.symm.trans updated')
        apply custody.setPolicy consistent' sameMax
        rw [queued, ← Multiset.coe_add, Multiset.coe_singleton, ThreadPc.ownsFull, GetPc.fills,
          zero_add, add_assoc]
      · cases Option.some.inj (updated.symm.trans
          (ZnPolicyPromotional.update_notFilled (lastChunk ▸ last)))
        rw [GetPc.fills, if_neg last] at custody
        exact custody
  | touch id location data policy updated =>
      obtain ⟨policy', updated', consistent', sameZones, sameMax⟩ :=
        consistent.update_read_perm location
      cases Option.some.inj (updated.symm.trans updated')
      apply (PromotionalCustody.mk zones maxChunks policyMax consistent).setPolicy consistent'
        sameMax
      rw [Multiset.coe_eq_coe.mpr sameZones]
      rfl
  | find id =>
      rw [none (by simp), ThreadPc.holds, ThreadPc.lift_afterFind (fun _ => rfl) rfl rfl]
      exact ⟨zones, maxChunks, policyMax, consistent⟩
  | woken | read | release | countHit | write | writeFailed | countMiss | insert | undoMap =>
      exact ⟨zones, maxChunks, policyMax, consistent⟩

theorem FgEvictStep.promotionalCustody {pc : EvictPc} {next : Option EvictPc}
    (taken : FgEvictStep cache environment pc after next)
    (custody : PromotionalCustody config cache pairs (pc.takes + hands)) :
    PromotionalCustody config after pairs ((next.elim 0 EvictPc.takes) + hands) := by
  cases taken with
  | start | enough | clear | wait =>
      exact ⟨custody.zones, custody.maxChunks, custody.policyMax, custody.consistent⟩
  | nothing i freeZones policy answer =>
      cases custody.consistent.takesNothing answer
      exact custody
  | take i freeZones zone policy answer =>
      obtain ⟨consistent, zones, sameMax⟩ := custody.consistent.takes answer
      apply custody.setPolicy consistent sameMax
      simp only [zones, EvictPc.takes, Option.elim_some, zero_add]
      rw [← Multiset.cons_coe, Multiset.cons_add, Multiset.singleton_add, Multiset.add_cons]
  | reset i freeZones zone =>
      have spec := zsmEvict_spec environment.commandRet cache.zoneState zone
      have zones := custody.zones
      rw [EvictPc.takes, add_left_comm] at zones
      rw [Option.elim_some, EvictPc.takes, zero_add]
      exact ⟨zones.evicted spec, spec.shape.maxZoneChunks.trans custody.maxChunks,
        custody.policyMax, custody.consistent⟩

theorem ThreadStep.promotionalCustody [DecidableEq Thread] {thread : Thread} {choice : Choice}
    {pc next : ThreadPc EvictPc} (fits : config.maxZoneChunks < 2 ^ 32)
    (taken : ThreadStep (promotionalCode config) thread cache pc choice after next)
    (custody : PromotionalCustody config cache (pc.holds + pairs) (pc.ownsFull config + hands)) :
    PromotionalCustody config after (next.holds + pairs) (next.ownsFull config + hands) := by
  cases taken with
  | call | callEvict => exact custody
  | wakeUp id =>
      exact ⟨custody.zones, custody.maxChunks, custody.policyMax, custody.consistent⟩
  | get ran => exact ran.promotionalCustody fits custody
  | evict caller next ran => exact (fgEvictStep_spec ran).promotionalCustody custody
  | evicted caller ran =>
      have passed := (fgEvictStep_spec ran).promotionalCustody custody
      cases caller <;> exact passed

variable [Fintype Thread] {system next : PromotionalSystem Thread}

def ZonesInCustody (config : CacheConfig) (system : PromotionalSystem Thread) : Prop :=
  PromotionalCustody config system.cache (tally ThreadPc.holds system.threads)
    (tally (ThreadPc.ownsFull config) system.threads)

theorem ZonesInCustody.init (begins : promotionalSystem config = some system) :
    ZonesInCustody config system := by
  obtain ⟨_, zoneState, _, policy, idle⟩ := System.init_spec begins
  unfold ZonesInCustody
  rw [tally_const_zero _ _ fun thread => by rw [idle thread]; rfl,
    tally_const_zero _ _ fun thread => by rw [idle thread]; rfl]
  constructor
  · rw [zoneState, policy]
    constructor
    · simp [keptBy, zsmInit, ZnPolicyPromotional.zones, promotionalInit, List.nodup_range]
    · exact fun _ => rfl
    · exact fun _ => Nat.two_pow_pos 32
    · exact fun pair member => absurd member (Multiset.notMem_zero _)
    · exact QueuesSorted.init _ _ _ _ _ _
  · rw [zoneState]
    rfl
  · rw [policy]
    rfl
  · rw [policy]
    exact ZnPolicyPromotional.consistent_init _

theorem ZonesInCustody.step [DecidableEq Thread] (fits : config.maxZoneChunks < 2 ^ 32)
    {action : Thread × Choice} (kept : ZonesInCustody config system)
    (taken : system.step (promotionalCode config) action = some next) :
    ZonesInCustody config next := by
  obtain ⟨thread, choice⟩ := action
  obtain ⟨cache, pc, rfl, moved⟩ := System.step_spec taken
  unfold ZonesInCustody at kept ⊢
  rw [tally_split _ _ thread, tally_split _ _ thread] at kept
  simp only [System.advance]
  rw [tally_update, tally_update]
  exact moved.promotionalCustody fits kept

end Promotional

/-! ## The chunk policy -/

section Chunk

variable {config : CacheConfig} {maxChunks : Nat}

theorem ChunkCustody.queuesOnce {manager : ZoneStateManager} {map : CacheMap Thread}
    {policy : ZnPolicyChunk Thread} {duties : Duties}
    (custody : ChunkCustody maxChunks manager map policy duties) :
    ((manager.active : Multiset Nat) + (manager.free : Multiset Nat)).Nodup := by
  apply Multiset.nodup_of_le _ custody.once
  rw [keptZones, add_comm (manager.active : Multiset Nat), add_assoc]
  exact Multiset.le_add_right _ _

/-- A zone that a thread holds or has taken from the heap is in no queue. -/
theorem ChunkCustody.unqueued {manager : ZoneStateManager} {map : CacheMap Thread}
    {policy : ZnPolicyChunk Thread} {duties : Duties}
    (custody : ChunkCustody maxChunks manager map policy duties) {zone : Nat}
    (hands : zone ∈ duties.taken.map ZnPair.zone ∨ zone ∈ duties.reclaimed) :
    Unqueued manager zone := by
  have once := custody.once
  rw [keptZones, Multiset.nodup_add] at once
  have inHands : zone ∈ duties.taken.map ZnPair.zone + duties.filled + duties.reclaimed := by
    rw [Multiset.mem_add, Multiset.mem_add]
    exact hands.imp_left .inl
  have apart := Multiset.disjoint_right.mp once.2.2 inHands
  simp only [Multiset.mem_add, Multiset.mem_coe, not_or] at apart
  exact ⟨apart.1.2, apart.1.1⟩

theorem ChunkEvictStep.queues {thread : Thread} {cache after : ChunkCache Thread}
    {environment : Environment} {pc : ChunkEvictPc} {next : Option ChunkEvictPc} {rest : Duties}
    (taken : ChunkEvictStep config thread cache environment pc after next)
    (custody : CacheCustody maxChunks cache (pc.duties + rest))
    (sorted : QueuesSorted cache.zoneState) : QueuesSorted after.zoneState := by
  cases taken with
  | mark i nr pair => exact sorted.markChunkInvalid pair
  | gcAcquire zone chunk location inZone used handed =>
      exact sorted.getActiveZone custody.queuesOnce (zsmGetActiveZone_answer _ _)
  | gcReset zone =>
      have own : cache.zoneId zone = zone :=
        custody.poolIds zone (.inr (by simp [ChunkEvictPc.duties, reclaims]))
      have unqueued : Unqueued cache.zoneState (cache.zoneId zone) := by
        rw [own]
        exact custody.unqueued (.inr (by simp [ChunkEvictPc.duties, reclaims]))
      exact sorted.evicted unqueued (zsmEvict_spec _ _ _)
  | turnedAway | lock | pop | popped | clear | gcEnough | gcShort | gcDone | gcTake => exact sorted
  | gcSkip | gcScanned | gcRead | gcWrite | gcInsert | gcClear | gcCount | leave => exact sorted

theorem GetPc.taken_of_holds {pc : GetPc} {pair : ZnPair} (held : pair ∈ pc.holds) :
    pair ∈ (pc.duties maxChunks).taken := by
  cases pc with
  | write | countMiss | giveBack | undoZone => exact held
  | find | asleep | read | touch | release | countHit | acquire | record | insert | undoMap =>
      exact absurd held (Multiset.notMem_zero _)

variable [DecidableEq Thread]

theorem ThreadStep.chunkQueues {thread : Thread} {choice : Choice}
    {cache after : ChunkCache Thread} {pc next : ThreadPc ChunkEvictPc} {rest : Duties}
    (taken : ThreadStep (chunkCode config) thread cache pc choice after next)
    (custody : CacheCustody maxChunks cache (pc.duties maxChunks + rest))
    (sorted : QueuesSorted cache.zoneState) : QueuesSorted after.zoneState := by
  cases taken with
  | call | callEvict | wakeUp => exact sorted
  | get ran =>
      refine ran.queues sorted custody.queuesOnce fun pair held => custody.unqueued (.inl ?_)
      rw [add_taken, Multiset.map_add]
      exact Multiset.mem_add.mpr
        (.inl (Multiset.mem_map_of_mem ZnPair.zone (GetPc.taken_of_holds held)))
  | evict caller next ran => exact (chunkEvictStep_spec ran).queues custody sorted
  | evicted caller ran => exact (chunkEvictStep_spec ran).queues custody sorted

theorem CustodySound.queues [Fintype Thread] {system next : ChunkSystem Thread}
    (sound : CustodySound maxChunks system) (sorted : QueuesSorted system.cache.zoneState)
    {action : Thread × Choice} (taken : system.step (chunkCode config) action = some next) :
    QueuesSorted next.cache.zoneState := by
  obtain ⟨thread, choice⟩ := action
  obtain ⟨cache, pc, rfl, moved⟩ := System.step_spec taken
  exact moved.chunkQueues (sound.split thread) sorted

structure QueuesSound [Fintype Thread] (maxChunks : Nat) (system : ChunkSystem Thread) :
    Prop extends CustodySound maxChunks system where
  sorted : QueuesSorted system.cache.zoneState

omit [DecidableEq Thread] in
theorem QueuesSound.init [Fintype Thread] {system : ChunkSystem Thread}
    (begins : chunkSystem config = some system) : QueuesSound config.maxZoneChunks system := by
  refine ⟨CustodySound.init begins, ?_⟩
  obtain ⟨_, zones, _⟩ := System.init_spec begins
  rw [zones]
  exact QueuesSorted.init _ _ _ _ _ _

theorem QueuesSound.step_solo (fits : config.maxZoneChunks < 2 ^ 32)
    {system next : ChunkSystem Unit} (sound : QueuesSound config.maxZoneChunks system)
    {action : Unit × Choice} (taken : system.step (chunkCode config) action = some next) :
    QueuesSound config.maxZoneChunks next :=
  ⟨sound.toCustodySound.step fits (gcSettled_solo action) taken,
    sound.toCustodySound.queues sound.sorted taken⟩

end Chunk

end ZNCache
