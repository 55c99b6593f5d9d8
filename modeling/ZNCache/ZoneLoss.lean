import ZNCache.ZoneStateManagerRuns

/-!
# Zones lost to a failed command

A zone whose open or finish command fails is left in no queue and with no holder.
Nothing that the manager does afterwards finds it again.
-/

set_option autoImplicit false

namespace ZNCache

open ZoneStateManager Transition

namespace Handout

/-- A call with asserts compiled out: a zone is then evicted in any state. -/
def anyCall (handout : Handout) : ZsmCall → Option Handout
  | .evict resetRet zone =>
      if zone < handout.manager.numZones then
        some ⟨(zsmEvict resetRet handout.manager zone).state, handout.outstanding⟩
      else none
  | call => handout.step call

/-- The zone is free, but the free queue no longer holds it. -/
structure Stranded (handout : Handout) (zone : Nat) : Prop where
  inRange : zone < handout.manager.numZones
  isFree : (handout.manager.state zone).state = .free
  notFree : zone ∉ handout.manager.free
  notActive : zone ∉ handout.manager.active
  notHeld : zone ∉ handout.outstanding.map ZnPair.zone
  zoneIds : ∀ other, (handout.manager.state other).zoneId = other

section Stranded

variable {handout after : Handout} {zone : Nat}

theorem Stranded.elsewhere (stranded : Stranded handout zone) {other : Nat}
    (apart : zone ≠ other) (ownId : (after.manager.state other).zoneId = other)
    (state : ∀ index, index ≠ other → after.manager.state index = handout.manager.state index)
    (numZones : after.manager.numZones = handout.manager.numZones)
    (free : ∀ queued ∈ after.manager.free, queued = other ∨ queued ∈ handout.manager.free)
    (active : ∀ queued ∈ after.manager.active, queued = other ∨ queued ∈ handout.manager.active)
    (held : ∀ pair ∈ after.outstanding, pair.zone = other ∨ pair ∈ handout.outstanding) :
    Stranded after zone := by
  constructor
  · rw [numZones]
    exact stranded.inRange
  · rw [state zone apart]
    exact stranded.isFree
  · exact fun member => (free zone member).elim apart stranded.notFree
  · exact fun member => (active zone member).elim apart stranded.notActive
  · intro member
    obtain ⟨pair, inHeld, here⟩ := Multiset.mem_map.mp member
    rcases held pair inHeld with there | before
    · exact apart (here.symm.trans there)
    · exact stranded.notHeld (here ▸ Multiset.mem_map_of_mem ZnPair.zone before)
  · intro index
    by_cases same : index = other
    · exact same ▸ ownId
    · rw [state index same]
      exact stranded.zoneIds index

theorem Stranded.apart_of_held (stranded : Stranded handout zone) {pair : ZnPair}
    (member : pair ∈ handout.outstanding) : zone ≠ pair.zone := by
  intro same
  subst same
  exact stranded.notHeld (Multiset.mem_map_of_mem ZnPair.zone member)

/-- To evict the zone itself does nothing: `reset_zone` finds it free already. -/
theorem Stranded.evict_spec (stranded : Stranded handout zone) {resetRet : Int} {other : Nat}
    {manager : ZoneStateManager} (spec : EvictSpec resetRet handout.manager other manager) :
    Stranded ⟨manager, handout.outstanding⟩ zone := by
  have apart (notFree : (handout.manager.state other).state ≠ .free) : zone ≠ other := by
    intro same
    subst same
    exact notFree stranded.isFree
  cases spec with
  | alreadyFree => exact stranded
  | reset notFree =>
      refine stranded.elsewhere (apart notFree)
        (by simpa [freed, returnedZone] using stranded.zoneIds other)
        (fun _ away => Function.update_of_ne away _ _) rfl ?_ (fun _ => .inr) (fun _ => .inr)
      intro queued inFree
      exact (List.mem_append.mp inFree).symm.imp List.mem_singleton.mp id
  | failed notFree =>
      exact stranded.elsewhere (apart notFree) (by simpa using stranded.zoneIds other)
        (fun _ away => Function.update_of_ne away _ _) rfl (fun _ => .inr) (fun _ => .inr)
        (fun _ => .inr)

theorem Stranded.step (stranded : Stranded handout zone) {call : ZsmCall}
    (taken : handout.step call = some after) : Stranded after zone := by
  cases step_spec taken with
  | refused => exact stranded
  | dropped openRet popped rest _ head =>
      exact { stranded with
        notFree := fun member => stranded.notFree (head ▸ List.mem_cons_of_mem _ member) }
  | resumed openRet popped active _ head =>
      have apart : zone ≠ popped := by
        intro equal
        subst equal
        exact stranded.notActive (by simp [head])
      refine stranded.elsewhere apart (by simpa [handedOut] using stranded.zoneIds popped)
        (fun _ away => Function.update_of_ne away _ _) rfl (fun _ => .inr) ?_ ?_
      · exact fun queued member => .inr (head ▸ List.mem_cons_of_mem _ member)
      · intro pair member
        refine (Multiset.mem_cons.mp member).imp ?_ id
        intro equal
        subst equal
        exact stranded.zoneIds popped
  | opened openRet popped rest _ noActive head =>
      have apart : zone ≠ popped := by
        intro equal
        subst equal
        exact stranded.notFree (by simp [head])
      refine stranded.elsewhere apart (by simpa [handedOut] using stranded.zoneIds popped)
        (fun _ away => Function.update_of_ne away _ _) rfl ?_ ?_ ?_
      · exact fun queued member => .inr (head ▸ List.mem_cons_of_mem _ member)
      · exact fun queued member => absurd member List.not_mem_nil
      · intro pair member
        refine (Multiset.mem_cons.mp member).imp ?_ id
        intro equal
        subst equal
        exact stranded.zoneIds popped
  | returned finishRet pair ret manager member spec =>
      have apart := stranded.apart_of_held member
      have held : ∀ other ∈ handout.outstanding.erase pair,
          other.zone = pair.zone ∨ other ∈ handout.outstanding :=
        fun other inRest => .inr (Multiset.mem_of_mem_erase inRest)
      cases spec with
      | reopened =>
          refine stranded.elsewhere apart
            (by simpa [returnedZone] using stranded.zoneIds pair.zone)
            (fun _ away => Function.update_of_ne away _ _) rfl (fun _ => .inr) ?_ held
          intro queued inActive
          exact (List.mem_append.mp inActive).symm.imp List.mem_singleton.mp id
      | alreadyFull | finished | failed =>
          exact stranded.elsewhere apart
            (by simpa [returnedZone] using stranded.zoneIds pair.zone)
            (fun _ away => Function.update_of_ne away _ _) rfl (fun _ => .inr) (fun _ => .inr)
            held
  | failedToWrite pair member =>
      refine stranded.elsewhere (stranded.apart_of_held member)
        (by simpa [zsmFailedToWrite] using stranded.zoneIds pair.zone)
        (fun _ away => Function.update_of_ne away _ _) rfl (fun _ => .inr) ?_
        (fun other inRest => .inr (Multiset.mem_of_mem_erase inRest))
      intro queued inActive
      exact (List.mem_append.mp inActive).symm.imp List.mem_singleton.mp id
  | evicted resetRet other manager inRange full spec =>
      exact stranded.evict_spec spec
  | marked location inRange =>
      obtain ⟨inRange, isFree, notFree, notActive, notHeld, zoneIds⟩ := stranded
      refine ⟨inRange, ?_, notFree, notActive, notHeld, fun index => ?_⟩
      · by_cases same : zone = location.zone
        · subst same
          simpa [zsmMarkChunkInvalid] using isFree
        · simpa [zsmMarkChunkInvalid, same] using isFree
      · by_cases same : index = location.zone
        · subst same
          simpa [zsmMarkChunkInvalid] using zoneIds location.zone
        · simpa [zsmMarkChunkInvalid, same] using zoneIds index

/-- Whatever is called and whatever the commands return, the zone stays stranded. -/
theorem Stranded.anyCall (stranded : Stranded handout zone) {call : ZsmCall}
    (taken : handout.anyCall call = some after) : Stranded after zone := by
  cases call with
  | evict resetRet other =>
      simp only [Handout.anyCall] at taken
      split at taken
      next =>
          cases Option.some.inj taken
          exact stranded.evict_spec (zsmEvict_spec resetRet handout.manager other)
      next => cases taken
  | getActiveZone | returnActiveZone | failedToWrite | markChunkInvalid =>
      exact stranded.step taken

def Lost (handout : Handout) (zone : Nat) : Prop :=
  ∀ later, Reach Handout.anyCall (fun _ _ => True) (· = handout) later → Stranded later zone

theorem Stranded.lost (stranded : Stranded handout zone) : Lost handout zone :=
  fun _ reached => reached.invariant (fun _ begins => begins ▸ stranded)
    fun _ _ _ stranded _ taken => stranded.anyCall taken

end Stranded

end Handout

section FailedCommands

variable {manager : ZoneStateManager} {held : Multiset ZnPair}

/-- `zsm_get_active_zone` issues its open command. -/
def Opens (manager : ZoneStateManager) : Prop :=
  manager.active = [] ∧ manager.free ≠ [] ∧ manager.activeZones < manager.maxNrActiveZones

instance : Decidable (Opens manager) := inferInstanceAs (Decidable (_ ∧ _ ∧ _))

/-- `pair` is the last chunk of its zone, so returning it issues the finish command. -/
def Finishes (manager : ZoneStateManager) (pair : ZnPair) : Prop :=
  u32 ((manager.state pair.zone).chunkOffset + 1) = manager.maxZoneChunks

/-- The zone that could not be opened was popped from the free queue. -/
theorem ZonePartition.openFailed (partition : ZonePartition manager held)
    (zns : manager.backendType = .zns) (opens : Opens manager) {openRet : Int}
    (failure : openRet ≠ 0) :
    (zsmGetActiveZone openRet manager).ret = .error ∧
      (∀ others, ¬ ZonePartition (zsmGetActiveZone openRet manager).state others) ∧
      ((∀ zone, (manager.state zone).zoneId = zone) →
        ∃ zone, Handout.Lost ⟨(zsmGetActiveZone openRet manager).state, held⟩ zone) := by
  obtain ⟨noActive, someFree, room⟩ := opens
  obtain ⟨zone, rest, head⟩ := List.exists_cons_of_ne_nil someFree
  have failed : backendRet manager openRet ≠ 0 := by simpa [backendRet, zns] using failure
  obtain ⟨inRange, isFree⟩ := (partition.freeIff zone).mp (by simp [head])
  have notQueued : zone ∉ rest := (List.nodup_cons.mp (head ▸ partition.freeNodup)).1
  rw [zsmGetActiveZone_notOpened openRet noActive head room failed]
  refine ⟨rfl, fun others after => ?_, fun zoneIds => ⟨zone, Handout.Stranded.lost ?_⟩⟩
  · exact notQueued ((after.freeIff zone).mpr ⟨inRange, isFree⟩)
  · refine ⟨inRange, isFree, notQueued, ?_, ?_, zoneIds⟩
    · simp [noActive]
    · intro writing
      have writing := ((partition.heldIff zone).mp writing).2
      simp [isFree] at writing

/-- The zone that could not be finished has no writer left, and is still WRITE_OCCURING. -/
theorem ZonePartition.finishFailed (partition : ZonePartition manager held)
    (zns : manager.backendType = .zns) {pair : ZnPair} (member : pair ∈ held)
    (finishes : Finishes manager pair) {finishRet : Int} (failure : finishRet ≠ 0) :
    (zsmReturnActiveZone finishRet manager pair).ret ≠ 0 ∧
      ∀ others, ¬ ZonePartition (zsmReturnActiveZone finishRet manager pair).state others := by
  have failed : backendRet manager finishRet ≠ 0 := by simpa [backendRet, zns] using failure
  have writing := ((partition.heldIff pair.zone).mp (Multiset.mem_map_of_mem _ member)).2
  have returned := zsmReturnActiveZone_spec finishRet manager pair
  generalize (zsmReturnActiveZone finishRet manager pair).ret = ret at returned ⊢
  generalize (zsmReturnActiveZone finishRet manager pair).state = state at returned ⊢
  cases returned with
  | reopened offset advanced notLast => exact absurd (advanced.trans finishes) notLast
  | alreadyFull last full => simp [writing] at full
  | finished last notFull done => exact absurd done failed
  | failed last notFull failure =>
      refine ⟨failure, fun others after => ?_⟩
      have before := partition.writes_eq_count
      have count := after.writes_eq_count
      have sameStates : ∀ zone, (Function.update manager.state pair.zone
          (returnedZone (manager.state pair.zone) (manager.state pair.zone).state
            manager.maxZoneChunks) zone).state = (manager.state zone).state := by
        intro zone
        by_cases same : zone = pair.zone
        · subst same
          simp [returnedZone]
        · simp [same]
      simp only [setZone_state, setZone_numZones, sameStates, before] at count
      omega

/-- No state that the partition holds of survives a failed open or finish. -/
theorem failedCommand_breaks_partition (partition : ZonePartition manager held)
    (zns : manager.backendType = .zns) :
    (Opens manager → ∀ openRet : Int, openRet ≠ 0 →
      (zsmGetActiveZone openRet manager).ret = .error ∧
        (∀ others, ¬ ZonePartition (zsmGetActiveZone openRet manager).state others) ∧
        ((∀ zone, (manager.state zone).zoneId = zone) →
          ∃ zone, Handout.Lost ⟨(zsmGetActiveZone openRet manager).state, held⟩ zone)) ∧
      ∀ pair ∈ held, Finishes manager pair → ∀ finishRet : Int, finishRet ≠ 0 →
        (zsmReturnActiveZone finishRet manager pair).ret ≠ 0 ∧
          ∀ others, ¬ ZonePartition (zsmReturnActiveZone finishRet manager pair).state others :=
  ⟨fun opens _ failure => partition.openFailed zns opens failure,
    fun _ member finishes _ failure => partition.finishFailed zns member finishes failure⟩

end FailedCommands

section Witnesses

def oneChunkManager : ZoneStateManager := zsmInit 1 4096 4096 4096 1 .zns

def oneChunkWriting : ZoneStateManager := (zsmGetActiveZone 0 oneChunkManager).state

theorem oneChunkWriting_partition : ZonePartition oneChunkWriting {⟨0, 0, 0, false⟩} := by
  have sound : ZonesSound oneChunkManager 0 := ZonesSound.init (by decide) _ _ _ _ _
  exact sound.getActiveZone.1.partition

theorem failedCommand_breaks_partition_oneChunk :
    ((zsmGetActiveZone 5 oneChunkManager).ret = .error ∧
        (∀ others, ¬ ZonePartition (zsmGetActiveZone 5 oneChunkManager).state others) ∧
        ∃ zone, Handout.Lost ⟨(zsmGetActiveZone 5 oneChunkManager).state, 0⟩ zone) ∧
      (zsmReturnActiveZone 5 oneChunkWriting ⟨0, 0, 0, false⟩).ret ≠ 0 ∧
        ∀ others, ¬ ZonePartition
          (zsmReturnActiveZone 5 oneChunkWriting ⟨0, 0, 0, false⟩).state others := by
  constructor
  · obtain ⟨ret, broken, lost⟩ := (failedCommand_breaks_partition
      (ZonePartition.init 1 4096 4096 4096 1 .zns) rfl).1 (by decide)
      5 (by decide)
    exact ⟨ret, broken, lost fun _ => rfl⟩
  · exact (failedCommand_breaks_partition oneChunkWriting_partition rfl).2 _
      (Multiset.mem_singleton_self _) rfl 5 (by decide)

/-- The only zone of an empty cache, lost to one failed open. -/
theorem failedOpen_loses_zone :
    ¬ ∀ (manager : ZoneStateManager) (held : Multiset ZnPair) (openRet : Int),
      manager.backendType = .zns → ZonePartition manager held → Opens manager → openRet ≠ 0 →
      (zsmGetActiveZone openRet manager).ret = .error ∧
        ZonePartition (zsmGetActiveZone openRet manager).state held := by
  intro keeps
  have after := (keeps oneChunkManager 0 5 rfl (ZonePartition.init _ _ _ _ _ _)
    (by decide) (by decide)).2
  have queued : 0 ∈ (zsmGetActiveZone 5 oneChunkManager).state.free :=
    (after.freeIff 0).mpr (by decide)
  exact absurd queued (by decide)

end Witnesses

end ZNCache
