import Mathlib.Data.Finset.Card
import Mathlib.Data.Finset.Range
import Mathlib.Data.Multiset.UnionInter
import ZNCache.Lib.Transition
import ZNCache.ZoneStateManagerSpec

/-!
# Every zone is in one place

`ZonePartition manager held` ties the two queues, the writer counter and the
states of the zones to the pairs that are handed out.  It holds after
`zsm_init`, and every call that meets the callers' obligations keeps it.
-/

set_option autoImplicit false

namespace ZNCache

open ZoneStateManager Transition

structure ZonePartition (manager : ZoneStateManager) (held : Multiset ZnPair) : Prop where
  freeNodup : manager.free.Nodup
  freeIff : ∀ zone, zone ∈ manager.free ↔
    zone < manager.numZones ∧ (manager.state zone).state = .free
  activeNodup : manager.active.Nodup
  activeIff : ∀ zone, zone ∈ manager.active ↔
    zone < manager.numZones ∧ (manager.state zone).state = .active
  heldNodup : (held.map ZnPair.zone).Nodup
  heldIff : ∀ zone, zone ∈ held.map ZnPair.zone ↔
    zone < manager.numZones ∧ (manager.state zone).state = .writeOccuring
  heldOffset : ∀ pair ∈ held, pair.chunkOffset = (manager.state pair.zone).chunkOffset
  writes : manager.writesOccurring = held.card
  within : manager.active.length + held.card ≤ manager.maxNrActiveZones

/-- The entries name their own index, and a zone that takes chunks has room left
(a zone of no chunks runs through all 32-bit offsets). -/
structure ZoneEntries (manager : ZoneStateManager) : Prop where
  zoneId : ∀ zone, (manager.state zone).zoneId = zone
  offsetSmall : ∀ zone, (manager.state zone).chunkOffset < 2 ^ 32
  offsetRoom : ∀ zone, (manager.state zone).state = .active ∨
    (manager.state zone).state = .writeOccuring → 0 < manager.maxZoneChunks →
    (manager.state zone).chunkOffset < manager.maxZoneChunks

structure SameShape (before after : ZoneStateManager) : Prop where
  numZones : after.numZones = before.numZones
  maxZoneChunks : after.maxZoneChunks = before.maxZoneChunks
  maxNrActiveZones : after.maxNrActiveZones = before.maxNrActiveZones
  backendType : after.backendType = before.backendType

theorem SameShape.trans {first second third : ZoneStateManager}
    (one : SameShape first second) (two : SameShape second third) : SameShape first third :=
  ⟨two.numZones.trans one.numZones, two.maxZoneChunks.trans one.maxZoneChunks,
    two.maxNrActiveZones.trans one.maxNrActiveZones, two.backendType.trans one.backendType⟩

theorem openZone_shape (openRet : Int) (manager : ZoneStateManager) (zone : Nat) :
    SameShape manager (openZone openRet manager zone).state := by
  unfold openZone
  dsimp only
  split
  next => exact ⟨rfl, rfl, rfl, rfl⟩
  next =>
      split
      next => exact ⟨rfl, rfl, rfl, rfl⟩
      next => exact ⟨rfl, rfl, rfl, rfl⟩

theorem popActive_shape (manager : ZoneStateManager) :
    SameShape manager (popActive manager).state := by
  unfold popActive
  cases manager.active with
  | nil => exact ⟨rfl, rfl, rfl, rfl⟩
  | cons zone rest => exact ⟨rfl, rfl, rfl, rfl⟩

theorem zsmGetActiveZone_shape (openRet : Int) (manager : ZoneStateManager) :
    SameShape manager (zsmGetActiveZone openRet manager).state := by
  have same : SameShape manager manager := ⟨rfl, rfl, rfl, rfl⟩
  unfold zsmGetActiveZone
  dsimp only
  split
  next => exact same
  next =>
      split
      next =>
          split
          next =>
              cases manager.free with
              | nil => exact same
              | cons newZone rest =>
                  have opened := openZone_shape openRet { manager with free := rest } newZone
                  have fewer : SameShape manager { manager with free := rest } :=
                    ⟨rfl, rfl, rfl, rfl⟩
                  dsimp only
                  split
                  next => exact fewer.trans opened
                  next => exact (fewer.trans opened).trans (popActive_shape _)
          next => exact same
      next => exact popActive_shape manager

theorem ReturnSpec.shape {finishRet ret : Int} {manager after : ZoneStateManager} {zone : Nat}
    (returned : ReturnSpec finishRet manager zone ret after) : SameShape manager after := by
  cases returned <;> exact ⟨rfl, rfl, rfl, rfl⟩

theorem EvictSpec.shape {resetRet : Int} {manager after : ZoneStateManager} {zone : Nat}
    (evicted : EvictSpec resetRet manager zone after) : SameShape manager after := by
  cases evicted <;> exact ⟨rfl, rfl, rfl, rfl⟩

section Entries

variable {manager : ZoneStateManager}

theorem ZoneEntries.setZone (entries : ZoneEntries manager) (zone : Nat) (value : ZnZone)
    (zoneId : value.zoneId = zone) (small : value.chunkOffset < 2 ^ 32)
    (room : value.state = .active ∨ value.state = .writeOccuring → 0 < manager.maxZoneChunks →
      value.chunkOffset < manager.maxZoneChunks) :
    ZoneEntries (manager.setZone zone value) := by
  constructor <;> intro other
  · by_cases same : other = zone
    · subst same
      simpa using zoneId
    · simpa [same] using entries.zoneId other
  · by_cases same : other = zone
    · subst same
      simpa using small
    · simpa [same] using entries.offsetSmall other
  · by_cases same : other = zone
    · subst same
      simpa using room
    · simpa [same] using entries.offsetRoom other

theorem ZoneEntries.congr {other : ZoneStateManager} (entries : ZoneEntries manager)
    (sameState : other.state = manager.state)
    (sameMax : other.maxZoneChunks = manager.maxZoneChunks) : ZoneEntries other := by
  obtain ⟨zoneId, small, room⟩ := entries
  exact ⟨by rwa [sameState], by rwa [sameState], by rwa [sameState, sameMax]⟩

theorem DrawnFrom.zoneEntries {zone offset : Nat} {active free : List Nat}
    (entries : ZoneEntries manager) (drawn : DrawnFrom manager zone offset active free)
    (isActive : manager.active ≠ [] → (manager.state zone).state = .active) :
    ZoneEntries (handedOut manager zone offset active free) := by
  refine ZoneEntries.congr (entries.setZone zone
    { manager.state zone with state := .writeOccuring, chunkOffset := offset }
    (entries.zoneId zone) ?_ ?_) rfl rfl
  · cases drawn with
    | activeQueue _ _ resumed => exact resumed ▸ entries.offsetSmall zone
    | freeQueue _ _ _ restart => simp [restart]
  · intro _ positive
    cases drawn with
    | activeQueue head _ resumed =>
        have active := isActive (by simp [head])
        exact resumed ▸ entries.offsetRoom zone (.inl active) positive
    | freeQueue _ _ _ restart => exact restart ▸ positive

theorem ReturnSpec.zoneEntries {finishRet ret : Int} {after : ZoneStateManager} {zone : Nat}
    (entries : ZoneEntries manager)
    (writing : (manager.state zone).state = .writeOccuring)
    (success : backendRet manager finishRet = 0)
    (returned : ReturnSpec finishRet manager zone ret after) : ZoneEntries after := by
  cases returned with
  | reopened offset advanced notLast =>
      refine ZoneEntries.congr (entries.setZone zone
        (returnedZone (manager.state zone) .active offset)
        (entries.zoneId zone) ?_ ?_) rfl rfl
      · change offset < 2 ^ 32
        rw [advanced]
        exact u32_lt _
      · intro _ positive
        have room := entries.offsetRoom zone (.inr writing) positive
        have small := entries.offsetSmall zone
        simp only [returnedZone]
        unfold u32 at advanced
        omega
  | alreadyFull _ full => simp [writing] at full
  | finished _ _ _ =>
      refine ZoneEntries.congr (entries.setZone zone (returnedZone (manager.state zone) .full 0)
        (entries.zoneId zone) ?_ ?_) rfl rfl
      · simp [returnedZone]
      · simp [returnedZone]
  | failed _ _ failure => exact absurd success failure

end Entries

section Partition

variable {manager : ZoneStateManager} {held : Multiset ZnPair}

theorem ZonePartition.init (numZones zoneCap zoneSize chunkSize maxNrActiveZones : Nat)
    (backendType : ZnBackend) :
    ZonePartition
      (zsmInit numZones zoneCap zoneSize chunkSize maxNrActiveZones backendType) 0 := by
  constructor <;> simp [zsmInit, List.nodup_range]

theorem ZonePartition.inPlay_card (partition : ZonePartition manager held) :
    ((Finset.range manager.numZones).filter fun zone =>
      (manager.state zone).state = .active ∨ (manager.state zone).state = .writeOccuring).card =
      manager.active.length + held.card := by
  have activeCard := List.toFinset_card_of_nodup partition.activeNodup
  have heldCard := Multiset.toFinset_card_of_nodup partition.heldNodup
  rw [Multiset.card_map] at heldCard
  have disjoint : Disjoint manager.active.toFinset (held.map ZnPair.zone).toFinset := by
    rw [Finset.disjoint_left]
    intro zone inActive inHeld
    have active := (partition.activeIff zone).mp (List.mem_toFinset.mp inActive)
    have writing := (partition.heldIff zone).mp (Multiset.mem_toFinset.mp inHeld)
    rw [active.2] at writing
    cases writing.2
  rw [← activeCard, ← heldCard, ← Finset.card_union_of_disjoint disjoint]
  congr 1
  ext zone
  rw [Finset.mem_filter, Finset.mem_range, Finset.mem_union, List.mem_toFinset,
    Multiset.mem_toFinset, partition.activeIff, partition.heldIff, and_or_left]

/-- All zones in play are below `numZones`, so the counts cannot overflow. -/
theorem ZonePartition.total_le (partition : ZonePartition manager held) :
    manager.active.length + held.card ≤ manager.numZones := by
  rw [← partition.inPlay_card]
  exact (Finset.card_filter_le _ _).trans_eq (Finset.card_range _)

theorem ZonePartition.activeZones_eq (partition : ZonePartition manager held)
    (small : manager.numZones < 2 ^ 32) :
    manager.activeZones = manager.active.length + held.card := by
  have total := partition.total_le
  have counted : u32 ((manager.active.length + held.card : Nat) : Int) =
      manager.active.length + held.card := u32_of_nat (by omega)
  rw [activeZones, partition.writes]
  exact_mod_cast counted

theorem ZonePartition.getActiveZone_spec (partition : ZonePartition manager held)
    (small : manager.numZones < 2 ^ 32) (openRet : Int) :
    GetActiveZoneSpec openRet manager (zsmGetActiveZone openRet manager) := by
  have total := partition.total_le
  refine zsmGetActiveZone_spec openRet manager ?_ ?_
  · rw [partition.writes]; omega
  · rw [partition.writes]; omega

theorem ZonePartition.writes_eq_count (partition : ZonePartition manager held) :
    manager.writesOccurring = ((Finset.range manager.numZones).filter fun zone =>
      (manager.state zone).state = .writeOccuring).card := by
  have sameSet : ((Finset.range manager.numZones).filter fun zone =>
      (manager.state zone).state = .writeOccuring) = (held.map ZnPair.zone).toFinset := by
    ext zone
    rw [Finset.mem_filter, Finset.mem_range, Multiset.mem_toFinset, partition.heldIff]
  rw [partition.writes, sameSet, Multiset.toFinset_card_of_nodup partition.heldNodup,
    Multiset.card_map]

theorem ZonePartition.held_unique (partition : ZonePartition manager held)
    {first second : ZnPair} (one : first ∈ held) (two : second ∈ held)
    (sameZone : first.zone = second.zone) : first = second :=
  Multiset.inj_on_of_nodup_map partition.heldNodup first one second two sameZone

theorem ZonePartition.handOut (partition : ZonePartition manager held)
    (entries : ZoneEntries manager) (small : manager.numZones < 2 ^ 32)
    {zone offset : Nat} {active free : List Nat}
    (drawn : DrawnFrom manager zone offset active free) :
    ZonePartition (handedOut manager zone offset active free)
      (⟨(manager.state zone).zoneId, offset, 0, false⟩ ::ₘ held) := by
  have zoneId := entries.zoneId zone
  have before : zone < manager.numZones ∧ (manager.state zone).state ≠ .writeOccuring := by
    cases drawn with
    | activeQueue head =>
        have found := (partition.activeIff zone).mp (by simp [head])
        exact ⟨found.1, by simp [found.2]⟩
    | freeQueue _ _ head =>
        have found := (partition.freeIff zone).mp (by simp [head])
        exact ⟨found.1, by simp [found.2]⟩
  have notHeld : zone ∉ held.map ZnPair.zone := fun member =>
    before.2 ((partition.heldIff zone).mp member).2
  have queues : active.Nodup ∧ free.Nodup ∧
      (∀ other, other ∈ active ↔ other ∈ manager.active ∧ other ≠ zone) ∧
      (∀ other, other ∈ free ↔ other ∈ manager.free ∧ other ≠ zone) ∧
      active.length + (held.card + 1) ≤ manager.maxNrActiveZones := by
    have freeNodup := partition.freeNodup
    have activeNodup := partition.activeNodup
    cases drawn with
    | activeQueue head sameFree _ =>
        have within := partition.within
        have inActive := (partition.activeIff zone).mp (by simp [head])
        rw [head, List.nodup_cons] at activeNodup
        rw [head, List.length_cons] at within
        subst sameFree
        refine ⟨activeNodup.2, freeNodup, ?_, ?_, by omega⟩
        · intro other
          rw [head]
          grind
        · intro other
          refine ⟨fun member => ⟨member, ?_⟩, And.left⟩
          intro equal
          subst equal
          have inFree := (partition.freeIff other).mp member
          simp [inActive.2] at inFree
    | freeQueue noActive stillNone head _ room =>
        have counted := partition.activeZones_eq small
        rw [noActive, List.length_nil] at counted
        rw [head, List.nodup_cons] at freeNodup
        subst stillNone
        refine ⟨List.nodup_nil, freeNodup.2, by simp [noActive], ?_, ?_⟩
        · intro other
          rw [head]
          grind
        · simp only [List.length_nil]
          omega
  obtain ⟨activeNodup, freeNodup, activeMem, freeMem, within⟩ := queues
  constructor
  case freeNodup => exact freeNodup
  case freeIff =>
    intro other
    by_cases same : other = zone
    · subst same
      simp [handedOut, freeMem]
    · simp [handedOut, freeMem, same, partition.freeIff]
  case activeNodup => exact activeNodup
  case activeIff =>
    intro other
    by_cases same : other = zone
    · subst same
      simp [handedOut, activeMem]
    · simp [handedOut, activeMem, same, partition.activeIff]
  case heldNodup =>
    rw [Multiset.map_cons, Multiset.nodup_cons, zoneId]
    exact ⟨notHeld, partition.heldNodup⟩
  case heldIff =>
    intro other
    rw [Multiset.map_cons, Multiset.mem_cons, zoneId]
    by_cases same : other = zone
    · subst same
      simp [handedOut, before.1]
    · simp only [same, false_or, handedOut, setZone_state, setZone_numZones, ne_eq,
        not_false_eq_true, Function.update_of_ne]
      exact partition.heldIff other
  case heldOffset =>
    intro pair member
    rcases Multiset.mem_cons.mp member with rfl | member
    · simp [handedOut, zoneId]
    · have apart : pair.zone ≠ zone := fun same =>
        notHeld (same ▸ Multiset.mem_map_of_mem ZnPair.zone member)
      simpa [handedOut, apart] using partition.heldOffset pair member
  case writes => simp [handedOut, partition.writes]
  case within => simpa [handedOut] using within

theorem ZonePartition.putBack {pair : ZnPair}
    (partition : ZonePartition manager (pair ::ₘ held)) (offset : Nat) :
    ZonePartition
      { manager.setZone pair.zone
          (returnedZone (manager.state pair.zone) .active offset) with
        writesOccurring := manager.writesOccurring - 1
        active := manager.active ++ [pair.zone] } held := by
  have writing := (partition.heldIff pair.zone).mp (by simp)
  have heldNodup := partition.heldNodup
  rw [Multiset.map_cons, Multiset.nodup_cons] at heldNodup
  have notActive : pair.zone ∉ manager.active := by
    rw [partition.activeIff, writing.2]
    simp
  have notFree : pair.zone ∉ manager.free := by
    rw [partition.freeIff, writing.2]
    simp
  constructor
  case freeNodup => exact partition.freeNodup
  case freeIff =>
    intro other
    by_cases same : other = pair.zone
    · subst same
      simp [returnedZone, notFree]
    · simp [same, partition.freeIff]
  case activeNodup =>
    rw [List.nodup_append]
    refine ⟨partition.activeNodup, List.nodup_singleton _, ?_⟩
    intro old inActive new isNew
    rw [List.mem_singleton.mp isNew]
    exact fun same => notActive (same ▸ inActive)
  case activeIff =>
    intro other
    by_cases same : other = pair.zone
    · subst same
      simp [returnedZone, writing.1]
    · simp [same, partition.activeIff]
  case heldNodup => exact heldNodup.2
  case heldIff =>
    intro other
    by_cases same : other = pair.zone
    · subst same
      simpa [returnedZone] using heldNodup.1
    · have heldIff := partition.heldIff other
      rw [Multiset.map_cons, Multiset.mem_cons] at heldIff
      simpa [same] using heldIff
  case heldOffset =>
    intro other member
    have apart : other.zone ≠ pair.zone := fun same =>
      heldNodup.1 (same ▸ Multiset.mem_map_of_mem ZnPair.zone member)
    simpa [apart] using partition.heldOffset other (Multiset.mem_cons_of_mem member)
  case writes => simp [partition.writes]
  case within =>
    have within := partition.within
    rw [Multiset.card_cons] at within
    simp only [setZone_maxNrActiveZones, List.length_append, List.length_singleton]
    omega

theorem ZonePartition.fillUp {pair : ZnPair}
    (partition : ZonePartition manager (pair ::ₘ held)) :
    ZonePartition
      { manager.setZone pair.zone (returnedZone (manager.state pair.zone) .full 0) with
        writesOccurring := manager.writesOccurring - 1 } held := by
  have writing := (partition.heldIff pair.zone).mp (by simp)
  have heldNodup := partition.heldNodup
  rw [Multiset.map_cons, Multiset.nodup_cons] at heldNodup
  constructor
  case freeNodup => exact partition.freeNodup
  case freeIff =>
    intro other
    by_cases same : other = pair.zone
    · subst same
      simp [returnedZone, partition.freeIff, writing.2]
    · simp [same, partition.freeIff]
  case activeNodup => exact partition.activeNodup
  case activeIff =>
    intro other
    by_cases same : other = pair.zone
    · subst same
      simp [returnedZone, partition.activeIff, writing.2]
    · simp [same, partition.activeIff]
  case heldNodup => exact heldNodup.2
  case heldIff =>
    intro other
    by_cases same : other = pair.zone
    · subst same
      simpa [returnedZone] using heldNodup.1
    · have heldIff := partition.heldIff other
      rw [Multiset.map_cons, Multiset.mem_cons] at heldIff
      simpa [same] using heldIff
  case heldOffset =>
    intro other member
    have apart : other.zone ≠ pair.zone := fun same =>
      heldNodup.1 (same ▸ Multiset.mem_map_of_mem ZnPair.zone member)
    simpa [apart] using partition.heldOffset other (Multiset.mem_cons_of_mem member)
  case writes => simp [partition.writes]
  case within =>
    have within := partition.within
    rw [Multiset.card_cons] at within
    simp only [setZone_active, setZone_maxNrActiveZones]
    omega

theorem ReturnSpec.partition {finishRet ret : Int} {after : ZoneStateManager}
    {pair : ZnPair} (partition : ZonePartition manager (pair ::ₘ held))
    (success : backendRet manager finishRet = 0)
    (returned : ReturnSpec finishRet manager pair.zone ret after) :
    ZonePartition after held := by
  have writing := (partition.heldIff pair.zone).mp (by simp)
  cases returned with
  | reopened offset _ _ => exact partition.putBack offset
  | alreadyFull _ full => simp [writing.2] at full
  | finished _ _ _ => exact partition.fillUp
  | failed _ _ failure => exact absurd success failure

theorem ZonePartition.freeUp (partition : ZonePartition manager held) {zone : Nat}
    (below : zone < manager.numZones) (full : (manager.state zone).state = .full) :
    ZonePartition (freed manager zone) held := by
  have notFree : zone ∉ manager.free := by
    rw [partition.freeIff, full]
    simp
  have notActive : zone ∉ manager.active := by
    rw [partition.activeIff, full]
    simp
  have notHeld : zone ∉ held.map ZnPair.zone := by
    rw [partition.heldIff, full]
    simp
  constructor
  case freeNodup =>
    simp only [freed]
    rw [List.nodup_append]
    refine ⟨partition.freeNodup, List.nodup_singleton _, ?_⟩
    intro old inFree new isNew
    rw [List.mem_singleton.mp isNew]
    exact fun same => notFree (same ▸ inFree)
  case freeIff =>
    intro other
    by_cases same : other = zone
    · subst same
      simp [freed, returnedZone, below]
    · simp [freed, same, partition.freeIff]
  case activeNodup => exact partition.activeNodup
  case activeIff =>
    intro other
    by_cases same : other = zone
    · subst same
      simpa [freed, returnedZone] using notActive
    · simp [freed, same, partition.activeIff]
  case heldNodup => exact partition.heldNodup
  case heldIff =>
    intro other
    by_cases same : other = zone
    · subst same
      simpa [freed, returnedZone] using notHeld
    · simp only [freed, setZone_state, setZone_numZones, ne_eq, same, not_false_eq_true,
        Function.update_of_ne]
      exact partition.heldIff other
  case heldOffset =>
    intro pair member
    have apart : pair.zone ≠ zone := fun same =>
      notHeld (same ▸ Multiset.mem_map_of_mem ZnPair.zone member)
    simpa [freed, apart] using partition.heldOffset pair member
  case writes => exact partition.writes
  case within => exact partition.within

theorem EvictSpec.partition {resetRet : Int} {after : ZoneStateManager} {zone : Nat}
    (partition : ZonePartition manager held) (below : zone < manager.numZones)
    (full : (manager.state zone).state = .full) (success : backendRet manager resetRet = 0)
    (evicted : EvictSpec resetRet manager zone after) : ZonePartition after held := by
  cases evicted with
  | alreadyFree free => simp [full] at free
  | reset _ _ => exact partition.freeUp below full
  | failed _ failure => exact absurd success failure

theorem EvictSpec.zoneEntries {resetRet : Int} {after : ZoneStateManager} {zone : Nat}
    (entries : ZoneEntries manager) (evicted : EvictSpec resetRet manager zone after) :
    ZoneEntries after := by
  cases evicted with
  | alreadyFree _ => exact entries
  | reset _ _ =>
      refine ZoneEntries.congr (entries.setZone zone (returnedZone (manager.state zone) .free 0)
        (entries.zoneId zone) ?_ ?_) rfl rfl
      · simp [returnedZone]
      · simp [returnedZone]
  | failed _ _ =>
      exact entries.setZone zone _ (entries.zoneId zone) (entries.offsetSmall zone)
        (entries.offsetRoom zone)

theorem ZonePartition.setInvalid (partition : ZonePartition manager held) (zone : Nat)
    (invalid : List Nat) :
    ZonePartition (manager.setZone zone { manager.state zone with invalid := invalid })
      held := by
  have sameState : ∀ other, ((manager.setZone zone
      { manager.state zone with invalid := invalid }).state other).state =
        (manager.state other).state := by
    intro other
    by_cases same : other = zone
    · subst same
      simp
    · simp [same]
  have sameOffset : ∀ other, ((manager.setZone zone
      { manager.state zone with invalid := invalid }).state other).chunkOffset =
        (manager.state other).chunkOffset := by
    intro other
    by_cases same : other = zone
    · subst same
      simp
    · simp [same]
  constructor
  case freeNodup => exact partition.freeNodup
  case freeIff =>
    intro other
    rw [sameState]
    exact partition.freeIff other
  case activeNodup => exact partition.activeNodup
  case activeIff =>
    intro other
    rw [sameState]
    exact partition.activeIff other
  case heldNodup => exact partition.heldNodup
  case heldIff =>
    intro other
    rw [sameState]
    exact partition.heldIff other
  case heldOffset =>
    intro pair member
    rw [sameOffset]
    exact partition.heldOffset pair member
  case writes => exact partition.writes
  case within => exact partition.within

end Partition

end ZNCache
