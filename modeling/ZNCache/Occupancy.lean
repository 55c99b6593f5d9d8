import Mathlib.Algebra.Order.Group.Multiset
import ZNCache.ZonePartition

/-!
# Full zones and written chunks

`Occupied manager zone chunk` says that the zone has moved past the chunk since it
was last free.  Only a reset takes that away; handing out and giving back zones
only adds to it.
-/

set_option autoImplicit false

namespace ZNCache

open ZoneStateManager

def IsFull (manager : ZoneStateManager) (zone : Nat) : Prop :=
  zone < manager.numZones ∧ (manager.state zone).state = .full

def Occupied (manager : ZoneStateManager) (zone chunk : Nat) : Prop :=
  (manager.state zone).state = .full ∨
    (manager.state zone).state ≠ .free ∧ chunk < (manager.state zone).chunkOffset

section Operations

variable {manager : ZoneStateManager} {held : Multiset ZnPair}

theorem IsFull.occupied {zone : Nat} (full : IsFull manager zone) (chunk : Nat) :
    Occupied manager zone chunk := .inl full.2

theorem ZonePartition.not_occupied (partition : ZonePartition manager held) {pair : ZnPair}
    (member : pair ∈ held) : ¬ Occupied manager pair.zone pair.chunkOffset := by
  have writing := (partition.heldIff pair.zone).mp
    (Multiset.mem_map_of_mem ZnPair.zone member)
  have offset := partition.heldOffset pair member
  intro either
  rcases either with full | ⟨_, passed⟩
  · simp [writing.2] at full
  · omega

theorem ZonePartition.drawn_state (partition : ZonePartition manager held)
    {zone offset : Nat} {active free : List Nat}
    (drawn : DrawnFrom manager zone offset active free) :
    (manager.state zone).state ≠ .full ∧
      ((manager.state zone).state ≠ .free → offset = (manager.state zone).chunkOffset) := by
  cases drawn with
  | activeQueue head _ resumed =>
      have found := (partition.activeIff zone).mp (by simp [head])
      exact ⟨by simp [found.2], fun _ => resumed⟩
  | freeQueue _ _ head =>
      have found := (partition.freeIff zone).mp (by simp [head])
      exact ⟨by simp [found.2], fun notFree => absurd found.2 notFree⟩

theorem ZonePartition.handedOut_full (partition : ZonePartition manager held)
    {zone offset : Nat} {active free : List Nat}
    (drawn : DrawnFrom manager zone offset active free) (other : Nat) :
    IsFull (handedOut manager zone offset active free) other ↔ IsFull manager other := by
  have notFull := (partition.drawn_state drawn).1
  by_cases same : other = zone
  · subst same
    simp [IsFull, handedOut, notFull]
  · simp [IsFull, handedOut, same]

theorem ZonePartition.handedOut_occupied (partition : ZonePartition manager held)
    {zone offset : Nat} {active free : List Nat}
    (drawn : DrawnFrom manager zone offset active free) {other chunk : Nat}
    (occupied : Occupied manager other chunk) :
    Occupied (handedOut manager zone offset active free) other chunk := by
  obtain ⟨notFull, sameOffset⟩ := partition.drawn_state drawn
  by_cases same : other = zone
  · subst same
    rcases occupied with full | ⟨notFree, passed⟩
    · exact absurd full notFull
    · right
      simpa [handedOut, sameOffset notFree] using passed
  · simpa [Occupied, handedOut, same] using occupied

theorem ZonePartition.putBack_full (partition : ZonePartition manager held) {pair : ZnPair}
    (member : pair ∈ held) (offset other : Nat) :
    IsFull (manager.setZone pair.zone
      (returnedZone (manager.state pair.zone) .active offset)) other ↔
        IsFull manager other := by
  have writing := (partition.heldIff pair.zone).mp
    (Multiset.mem_map_of_mem ZnPair.zone member)
  by_cases same : other = pair.zone
  · subst same
    simp [IsFull, returnedZone, writing.2]
  · simp [IsFull, same]

theorem ZonePartition.putBack_occupied (partition : ZonePartition manager held)
    {pair : ZnPair} (member : pair ∈ held) {offset other chunk : Nat}
    (later : (manager.state pair.zone).chunkOffset ≤ offset)
    (occupied : Occupied manager other chunk) :
    Occupied (manager.setZone pair.zone
      (returnedZone (manager.state pair.zone) .active offset)) other chunk := by
  have writing := (partition.heldIff pair.zone).mp
    (Multiset.mem_map_of_mem ZnPair.zone member)
  by_cases same : other = pair.zone
  · subst same
    rcases occupied with full | ⟨_, passed⟩
    · simp [writing.2] at full
    · right
      simp only [setZone_state, Function.update_self, returnedZone]
      exact ⟨by simp, by omega⟩
  · simpa [Occupied, same] using occupied

section Returning

variable {finishRet ret : Int} {after : ZoneStateManager} {pair : ZnPair}

/-- A zone becomes full when the chunk given back is its last, and in no other way. -/
theorem ReturnSpec.full (partition : ZonePartition manager held) (member : pair ∈ held)
    (success : backendRet manager finishRet = 0)
    (returned : ReturnSpec finishRet manager pair.zone ret after) (other : Nat) :
    IsFull after other ↔ IsFull manager other ∨
      other = pair.zone ∧ u32 (pair.chunkOffset + 1) = manager.maxZoneChunks := by
  have writing := (partition.heldIff pair.zone).mp
    (Multiset.mem_map_of_mem ZnPair.zone member)
  have sameOffset := partition.heldOffset pair member
  cases returned with
  | reopened offset advanced notLast =>
      have kept := partition.putBack_full member offset other
      have notClosed : u32 (pair.chunkOffset + 1) ≠ manager.maxZoneChunks := by
        rw [sameOffset, ← advanced]
        exact notLast
      simp only [notClosed, and_false, or_false]
      exact kept
  | alreadyFull _ full => simp [writing.2] at full
  | finished last _ _ =>
      rw [← sameOffset] at last
      by_cases same : other = pair.zone
      · subst same
        simp [IsFull, returnedZone, writing.1, last]
      · simp [IsFull, same]
  | failed _ _ failure => exact absurd success failure

theorem ZoneEntries.advance (entries : ZoneEntries manager) {zone : Nat}
    (writing : (manager.state zone).state = .writeOccuring)
    (fits : manager.maxZoneChunks < 2 ^ 32)
    (notLast : u32 ((manager.state zone).chunkOffset + 1) ≠ manager.maxZoneChunks) :
    u32 ((manager.state zone).chunkOffset + 1) = (manager.state zone).chunkOffset + 1 := by
  have small := entries.offsetSmall zone
  have room := entries.offsetRoom zone (.inr writing)
  unfold u32 at *
  omega

theorem ReturnSpec.occupied (partition : ZonePartition manager held)
    (entries : ZoneEntries manager) (fits : manager.maxZoneChunks < 2 ^ 32)
    (member : pair ∈ held) (success : backendRet manager finishRet = 0)
    (returned : ReturnSpec finishRet manager pair.zone ret after) :
    Occupied after pair.zone pair.chunkOffset ∧
      ∀ other chunk, Occupied manager other chunk → Occupied after other chunk := by
  have writing := ((partition.heldIff pair.zone).mp
    (Multiset.mem_map_of_mem ZnPair.zone member)).2
  have sameOffset := partition.heldOffset pair member
  cases returned with
  | reopened offset advanced notLast =>
      have next : offset = (manager.state pair.zone).chunkOffset + 1 := by
        rw [advanced]
        exact entries.advance writing fits (advanced ▸ notLast)
      refine ⟨.inr ?_, fun other chunk occupied => ?_⟩
      · simp only [setZone_state, Function.update_self, returnedZone]
        exact ⟨by simp, by omega⟩
      · exact partition.putBack_occupied member (by omega) occupied
  | alreadyFull _ full => simp [writing] at full
  | finished _ _ _ =>
      refine ⟨.inl ?_, fun other chunk occupied => ?_⟩
      · simp [returnedZone]
      · by_cases same : other = pair.zone
        · subst same
          left
          simp [returnedZone]
        · simpa [Occupied, same] using occupied
  | failed _ _ failure => exact absurd success failure

end Returning

theorem freed_full {zone : Nat} (other : Nat) :
    IsFull (freed manager zone) other ↔ IsFull manager other ∧ other ≠ zone := by
  by_cases same : other = zone
  · subst same
    simp [IsFull, freed, returnedZone]
  · simp [IsFull, freed, same]

theorem freed_occupied {zone other chunk : Nat} (apart : other ≠ zone)
    (occupied : Occupied manager other chunk) :
    Occupied (freed manager zone) other chunk := by
  simpa [Occupied, freed, apart] using occupied

end Operations

theorem length_le_of_nodup {zones : List Nat} {bound : Nat} (once : zones.Nodup)
    (below : ∀ zone ∈ zones, zone < bound) : zones.length ≤ bound := by
  have inside : zones.toFinset ⊆ Finset.range bound := fun zone member =>
    Finset.mem_range.mpr (below zone (List.mem_toFinset.mp member))
  have counted := Finset.card_le_card inside
  rwa [List.toFinset_card_of_nodup once, Finset.card_range] at counted

/-! ## The calls of a sound manager -/

structure ZonesSound (manager : ZoneStateManager) (held : Multiset ZnPair) : Prop where
  partition : ZonePartition manager held
  entries : ZoneEntries manager
  small : manager.numZones < 2 ^ 31

structure ZonesKept (before after : ZoneStateManager) : Prop where
  shape : SameShape before after
  occupied : ∀ zone chunk, Occupied before zone chunk → Occupied after zone chunk

theorem ZonesKept.refl (manager : ZoneStateManager) : ZonesKept manager manager :=
  ⟨⟨rfl, rfl, rfl, rfl⟩, fun _ _ occupied => occupied⟩

section Calls

variable {manager : ZoneStateManager} {held : Multiset ZnPair}

theorem backendRet_zero (manager : ZoneStateManager) : backendRet manager 0 = 0 := by
  simp [backendRet]

theorem ZonesSound.init {numZones : Nat} (small : numZones < 2 ^ 31)
    (zoneCap zoneSize chunkSize maxNrActiveZones : Nat) (backendType : ZnBackend) :
    ZonesSound
      (zsmInit numZones zoneCap zoneSize chunkSize maxNrActiveZones backendType) 0 where
  partition := ZonePartition.init _ _ _ _ _ _
  entries := by constructor <;> simp [zsmInit]
  small := small

theorem ZonesSound.counts (sound : ZonesSound manager held) : manager.numZones < 2 ^ 32 :=
  Nat.lt_trans sound.small (by decide)

theorem ZonesSound.drawn_active (sound : ZonesSound manager held) {zone offset : Nat}
    {active free : List Nat} (drawn : DrawnFrom manager zone offset active free)
    (someActive : manager.active ≠ []) : (manager.state zone).state = .active := by
  cases drawn with
  | activeQueue head => exact ((sound.partition.activeIff zone).mp (by simp [head])).2
  | freeQueue noActive => exact absurd noActive someActive

theorem ZonesSound.handOut (sound : ZonesSound manager held) {zone offset : Nat}
    {active free : List Nat} (drawn : DrawnFrom manager zone offset active free) :
    ZonesSound (handedOut manager zone offset active free)
      (⟨(manager.state zone).zoneId, offset, 0, false⟩ ::ₘ held) where
  partition := sound.partition.handOut sound.entries sound.counts drawn
  entries := drawn.zoneEntries sound.entries (sound.drawn_active drawn)
  small := sound.small

theorem ZonesSound.getActiveZone (sound : ZonesSound manager held) :
    ZonesSound (zsmGetActiveZone 0 manager).state
        ((zsmGetActiveZone 0 manager).ret.hands + held) ∧
      ZonesKept manager (zsmGetActiveZone 0 manager).state ∧
      (∀ zone, IsFull (zsmGetActiveZone 0 manager).state zone ↔ IsFull manager zone) ∧
      (zsmGetActiveZone 0 manager).asserts = true := by
  have answer := sound.partition.getActiveZone_spec sound.counts 0
  have shape := zsmGetActiveZone_shape 0 manager
  generalize zsmGetActiveZone 0 manager = outcome at answer shape ⊢
  cases answer with
  | evict _ _ _ =>
      rw [GetActiveZone.hands, zero_add]
      exact ⟨sound, ZonesKept.refl _, fun _ => Iff.rfl, rfl⟩
  | retry _ _ _ =>
      rw [GetActiveZone.hands, zero_add]
      exact ⟨sound, ZonesKept.refl _, fun _ => Iff.rfl, rfl⟩
  | error _ _ _ _ failed => exact absurd (backendRet_zero _) failed
  | success zone offset active free drawn asserts checked =>
      have isFree : manager.active = [] → (manager.state zone).state = .free := by
        intro noActive
        cases drawn with
        | activeQueue head => simp [noActive] at head
        | freeQueue _ _ head => exact ((sound.partition.freeIff zone).mp (by simp [head])).2
      refine ⟨?_, ⟨shape, ?_⟩, ?_, checked.mpr ⟨isFree, sound.drawn_active drawn⟩⟩
      · rw [GetActiveZone.hands, Multiset.singleton_add]
        exact sound.handOut drawn
      · exact fun _ _ => sound.partition.handedOut_occupied drawn
      · exact sound.partition.handedOut_full drawn

theorem ZonesSound.handed (sound : ZonesSound manager held) {pair : ZnPair}
    (handed : (zsmGetActiveZone 0 manager).ret = .success pair) :
    ZonesSound (zsmGetActiveZone 0 manager).state (pair ::ₘ held) ∧
      (∀ zone, IsFull (zsmGetActiveZone 0 manager).state zone ↔ IsFull manager zone) ∧
      ¬ IsFull manager pair.zone := by
  obtain ⟨after, _, full, _⟩ := sound.getActiveZone
  rw [handed, GetActiveZone.hands, Multiset.singleton_add] at after
  refine ⟨after, full, fun before => ?_⟩
  have writing := (after.partition.heldIff pair.zone).mp (by simp)
  have stillFull := ((full pair.zone).mpr before).2
  rw [writing.2] at stillFull
  cases stillFull

theorem ZonesSound.returnActiveZone {pair : ZnPair}
    (sound : ZonesSound manager (pair ::ₘ held)) :
    ZonesSound (zsmReturnActiveZone 0 manager pair).state held ∧
      SameShape manager (zsmReturnActiveZone 0 manager pair).state ∧
      ∀ zone, IsFull (zsmReturnActiveZone 0 manager pair).state zone ↔
        IsFull manager zone ∨
          zone = pair.zone ∧ u32 (pair.chunkOffset + 1) = manager.maxZoneChunks := by
  have returned := zsmReturnActiveZone_spec 0 manager pair
  have success := backendRet_zero manager
  have writing := ((sound.partition.heldIff pair.zone).mp (by simp)).2
  refine ⟨⟨returned.partition sound.partition success,
    returned.zoneEntries sound.entries writing success, ?_⟩, returned.shape, ?_⟩
  · rw [returned.shape.numZones]
    exact sound.small
  · exact returned.full sound.partition (by simp) success

theorem ZonesSound.returnActiveZone_occupied {pair : ZnPair}
    (sound : ZonesSound manager (pair ::ₘ held)) (fits : manager.maxZoneChunks < 2 ^ 32) :
    Occupied (zsmReturnActiveZone 0 manager pair).state pair.zone pair.chunkOffset ∧
      ZonesKept manager (zsmReturnActiveZone 0 manager pair).state := by
  have returned := zsmReturnActiveZone_spec 0 manager pair
  obtain ⟨here, kept⟩ := returned.occupied sound.partition sound.entries fits (by simp)
    (backendRet_zero manager)
  exact ⟨here, returned.shape, kept⟩

theorem ZonesSound.failedToWrite {pair : ZnPair}
    (sound : ZonesSound manager (pair ::ₘ held)) :
    ZonesSound (zsmFailedToWrite manager pair).state held ∧
      ZonesKept manager (zsmFailedToWrite manager pair).state ∧
      ∀ zone, IsFull (zsmFailedToWrite manager pair).state zone ↔ IsFull manager zone := by
  have writing := ((sound.partition.heldIff pair.zone).mp (by simp)).2
  have member : pair ∈ pair ::ₘ held := by simp
  refine ⟨⟨sound.partition.putBack _, ?_, sound.small⟩, ⟨⟨rfl, rfl, rfl, rfl⟩, ?_⟩, ?_⟩
  · exact ZoneEntries.congr (sound.entries.setZone pair.zone
      (returnedZone (manager.state pair.zone) .active _)
      (sound.entries.zoneId _) (sound.entries.offsetSmall _)
      fun _ => sound.entries.offsetRoom _ (.inr writing)) rfl rfl
  · exact fun _ _ => sound.partition.putBack_occupied member (Nat.le_refl _)
  · exact sound.partition.putBack_full member _

theorem ZonesSound.outstanding (sound : ZonesSound manager held) {pair : ZnPair}
    (member : pair ∈ held) :
    (manager.state pair.zone).state = .writeOccuring ∧
      (manager.state pair.zone).chunkOffset = pair.chunkOffset ∧
      manager.activeZones ≤ manager.maxNrActiveZones := by
  refine ⟨?_, (sound.partition.heldOffset pair member).symm, ?_⟩
  · exact ((sound.partition.heldIff pair.zone).mp
      (Multiset.mem_map_of_mem ZnPair.zone member)).2
  · rw [sound.partition.activeZones_eq sound.counts]
    exact sound.partition.within

theorem ZonesSound.evict (sound : ZonesSound manager held) {zone : Nat}
    (full : IsFull manager zone) :
    ZonesSound (zsmEvict 0 manager zone).state held ∧
      (zsmEvict 0 manager zone).state = freed manager zone := by
  have evicted := zsmEvict_spec 0 manager zone
  have success := backendRet_zero manager
  refine ⟨⟨evicted.partition sound.partition full.1 full.2 success,
    evicted.zoneEntries sound.entries, ?_⟩, ?_⟩
  · rw [evicted.shape.numZones]
    exact sound.small
  · generalize (zsmEvict 0 manager zone).state = after at evicted
    cases evicted with
    | alreadyFree free => simp [full.2] at free
    | reset _ _ => rfl
    | failed _ failure => exact absurd success failure

/-- When no zone is free, active or being written to, every zone is full. -/
theorem ZonePartition.allFull (partition : ZonePartition manager 0) (noActive : manager.active = [])
    (noFree : manager.free = []) {zone : Nat} (below : zone < manager.numZones) :
    IsFull manager zone := by
  refine ⟨below, ?_⟩
  cases condition : (manager.state zone).state with
  | full => rfl
  | free =>
      have queued := (partition.freeIff zone).mpr ⟨below, condition⟩
      simp [noFree] at queued
  | active =>
      have queued := (partition.activeIff zone).mpr ⟨below, condition⟩
      simp [noActive] at queued
  | writeOccuring =>
      have held := (partition.heldIff zone).mpr ⟨below, condition⟩
      simp at held

end Calls

end ZNCache
