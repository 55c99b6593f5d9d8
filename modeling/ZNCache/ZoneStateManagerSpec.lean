import Mathlib.Data.Multiset.AddSub
import ZNCache.ZoneStateManager

/-!
# What each manager call can do

One inversion lemma for each call, for every outcome of the libzbd command it
may issue.  Later invariants cite these and never unfold the calls.
-/

set_option autoImplicit false

namespace ZNCache

open ZoneStateManager

inductive DrawnFrom (manager : ZoneStateManager) (zone offset : Nat)
    (active free : List Nat) : Prop
  | activeQueue (head : manager.active = zone :: active) (sameFree : free = manager.free)
      (resumed : offset = (manager.state zone).chunkOffset)
  | freeQueue (noActive : manager.active = []) (stillNone : active = [])
      (head : manager.free = zone :: free) (restart : offset = 0)
      (room : manager.activeZones < manager.maxNrActiveZones)

def handedOut (manager : ZoneStateManager) (zone offset : Nat)
    (active free : List Nat) : ZoneStateManager :=
  { manager.setZone zone
      { manager.state zone with state := .writeOccuring, chunkOffset := offset } with
    active := active, free := free, writesOccurring := manager.writesOccurring + 1 }

theorem popActive_cons {manager : ZoneStateManager} {zone : Nat} {rest : List Nat}
    (head : manager.active = zone :: rest) :
    popActive manager =
      ⟨.success ⟨(manager.state zone).zoneId, (manager.state zone).chunkOffset, 0, false⟩,
        handedOut manager zone (manager.state zone).chunkOffset rest manager.free,
        decide ((manager.state zone).state = .active)⟩ := by
  simp [popActive, head, handedOut, setZone]

inductive GetActiveZoneSpec (openRet : Int) (manager : ZoneStateManager) :
    Outcome ZoneStateManager GetActiveZone → Prop
  | evict (noActive : manager.active = []) (noFree : manager.free = [])
      (noWriter : manager.activeZones = 0) :
      GetActiveZoneSpec openRet manager ⟨.evict, manager, true⟩
  | retry (noActive : manager.active = [])
      (blocked : manager.free = [] ∨ manager.maxNrActiveZones ≤ manager.activeZones)
      (busy : ¬ (manager.activeZones = 0 ∧ manager.free = [])) :
      GetActiveZoneSpec openRet manager ⟨.retry, manager, true⟩
  | error (zone : Nat) (free : List Nat) (noActive : manager.active = [])
      (head : manager.free = zone :: free) (failed : backendRet manager openRet ≠ 0) :
      GetActiveZoneSpec openRet manager ⟨.error, { manager with free := free }, false⟩
  | success (zone offset : Nat) (active free : List Nat)
      (drawn : DrawnFrom manager zone offset active free) (asserts : Bool)
      (checked : asserts = true ↔
        (manager.active = [] → (manager.state zone).state = .free) ∧
          (manager.active ≠ [] → (manager.state zone).state = .active)) :
      GetActiveZoneSpec openRet manager
        ⟨.success ⟨(manager.state zone).zoneId, offset, 0, false⟩,
          handedOut manager zone offset active free, asserts⟩

theorem openZone_ok {openRet : Int} {manager : ZoneStateManager} {zone : Nat}
    (room : manager.activeZones < manager.maxNrActiveZones)
    (opened : backendRet manager openRet = 0) :
    openZone openRet manager zone =
      ⟨0, { manager.setZone zone
            { manager.state zone with state := .active, chunkOffset := 0 } with
          active := manager.active ++ [zone] },
        decide ((manager.state zone).state = .free)⟩ := by
  simp [openZone, opened, Nat.not_le.mpr room]

theorem openZone_failed {openRet : Int} {manager : ZoneStateManager} {zone : Nat}
    (room : manager.activeZones < manager.maxNrActiveZones)
    (failed : backendRet manager openRet ≠ 0) :
    openZone openRet manager zone =
      ⟨backendRet manager openRet, manager, decide ((manager.state zone).state = .free)⟩ := by
  simp [openZone, failed, Nat.not_le.mpr room]

section Opening

variable (openRet : Int) {manager : ZoneStateManager} {zone : Nat} {rest : List Nat}

theorem zsmGetActiveZone_opens (noActive : manager.active = [])
    (head : manager.free = zone :: rest)
    (room : manager.activeZones < manager.maxNrActiveZones) :
    zsmGetActiveZone openRet manager =
      (let opened := openZone openRet { manager with free := rest } zone
       if opened.ret ≠ 0 then ⟨.error, opened.state, false⟩
       else ⟨(popActive opened.state).ret, (popActive opened.state).state,
         opened.asserts && (popActive opened.state).asserts⟩) := by
  have someFree : ¬ (manager.activeZones = 0 ∧ manager.free.length = 0) := by
    simp [head]
  have noneActive : manager.active.length = 0 := by simp [noActive]
  unfold zsmGetActiveZone
  rw [if_neg someFree, if_pos noneActive, if_pos room]
  simp only [head]

theorem zsmGetActiveZone_opened (noActive : manager.active = [])
    (head : manager.free = zone :: rest)
    (room : manager.activeZones < manager.maxNrActiveZones)
    (opened : backendRet manager openRet = 0) :
    zsmGetActiveZone openRet manager =
      ⟨.success ⟨(manager.state zone).zoneId, 0, 0, false⟩, handedOut manager zone 0 [] rest,
        decide ((manager.state zone).state = .free)⟩ := by
  have openedRest := @openZone_ok openRet { manager with free := rest } zone room opened
  rw [zsmGetActiveZone_opens openRet noActive head room]
  simp only [openedRest]
  simp [popActive, noActive, handedOut, setZone]

theorem zsmGetActiveZone_notOpened (noActive : manager.active = [])
    (head : manager.free = zone :: rest)
    (room : manager.activeZones < manager.maxNrActiveZones)
    (failed : backendRet manager openRet ≠ 0) :
    zsmGetActiveZone openRet manager = ⟨.error, { manager with free := rest }, false⟩ := by
  have failedRest : backendRet { manager with free := rest } openRet ≠ 0 := failed
  rw [zsmGetActiveZone_opens openRet noActive head room,
    @openZone_failed openRet { manager with free := rest } zone room failedRest]
  exact if_pos failedRest

end Opening

theorem zsmGetActiveZone_spec (openRet : Int) (manager : ZoneStateManager)
    (nonneg : 0 ≤ manager.writesOccurring)
    (small : manager.active.length + manager.writesOccurring < 2 ^ 32) :
    GetActiveZoneSpec openRet manager (zsmGetActiveZone openRet manager) := by
  have total : (manager.activeZones : Int) =
      manager.active.length + manager.writesOccurring := by
    unfold activeZones u32
    omega
  cases activeEq : manager.active with
  | cons zone rest =>
      have someActive : manager.activeZones ≠ 0 := by
        rw [activeEq, List.length_cons] at total
        omega
      have popped : zsmGetActiveZone openRet manager = popActive manager := by
        simp [zsmGetActiveZone, activeEq, someActive]
      rw [popped, popActive_cons activeEq]
      refine .success zone _ rest manager.free (.activeQueue activeEq rfl rfl) _ ?_
      simp [activeEq]
  | nil =>
      cases freeEq : manager.free with
      | nil =>
          by_cases idle : manager.activeZones = 0
          · have answer : zsmGetActiveZone openRet manager = ⟨.evict, manager, true⟩ := by
              simp [zsmGetActiveZone, idle, freeEq]
            rw [answer]
            exact .evict activeEq freeEq idle
          · have answer : zsmGetActiveZone openRet manager = ⟨.retry, manager, true⟩ := by
              simp [zsmGetActiveZone, idle, freeEq, activeEq]
            rw [answer]
            exact .retry activeEq (.inl freeEq) fun both => idle both.1
      | cons zone rest =>
          by_cases room : manager.activeZones < manager.maxNrActiveZones
          · by_cases opened : backendRet manager openRet = 0
            · rw [zsmGetActiveZone_opened openRet activeEq freeEq room opened]
              refine .success zone 0 [] rest (.freeQueue activeEq rfl freeEq rfl room) _ ?_
              simp [activeEq]
            · rw [zsmGetActiveZone_notOpened openRet activeEq freeEq room opened]
              exact .error zone rest activeEq freeEq opened
          · have answer : zsmGetActiveZone openRet manager = ⟨.retry, manager, true⟩ := by
              simp [zsmGetActiveZone, activeEq, freeEq, room]
            rw [answer]
            refine .retry activeEq (.inr (Nat.le_of_not_lt room)) ?_
            simp [freeEq]

def GetActiveZone.hands : GetActiveZone → Multiset ZnPair
  | success pair => {pair}
  | retry => 0
  | error => 0
  | evict => 0

/-- What the call can answer, whatever the counters say. -/
inductive GetActiveZoneAnswer (manager : ZoneStateManager) :
    GetActiveZone → ZoneStateManager → Prop
  | refused (ret : GetActiveZone) (nothing : ret.hands = 0) :
      GetActiveZoneAnswer manager ret manager
  | dropped (ret : GetActiveZone) (nothing : ret.hands = 0) (zone : Nat) (rest : List Nat)
      (head : manager.free = zone :: rest) :
      GetActiveZoneAnswer manager ret { manager with free := rest }
  | resumed (zone : Nat) (active : List Nat) (head : manager.active = zone :: active) :
      GetActiveZoneAnswer manager
        (.success ⟨(manager.state zone).zoneId, (manager.state zone).chunkOffset, 0, false⟩)
        (handedOut manager zone (manager.state zone).chunkOffset active manager.free)
  | opened (zone : Nat) (rest : List Nat) (noActive : manager.active = [])
      (head : manager.free = zone :: rest) :
      GetActiveZoneAnswer manager (.success ⟨(manager.state zone).zoneId, 0, 0, false⟩)
        (handedOut manager zone 0 [] rest)

theorem zsmGetActiveZone_answer (openRet : Int) (manager : ZoneStateManager) :
    GetActiveZoneAnswer manager (zsmGetActiveZone openRet manager).ret
      (zsmGetActiveZone openRet manager).state := by
  by_cases exhausted : manager.activeZones = 0 ∧ manager.free.length = 0
  · have answer : zsmGetActiveZone openRet manager = ⟨.evict, manager, true⟩ := by
      simp only [zsmGetActiveZone]
      rw [if_pos exhausted]
    rw [answer]
    exact .refused _ rfl
  · cases activeEq : manager.active with
    | cons zone rest =>
        have popped : zsmGetActiveZone openRet manager = popActive manager := by
          simp only [zsmGetActiveZone]
          rw [if_neg exhausted, if_neg (by simp [activeEq])]
        rw [popped, popActive_cons activeEq]
        exact .resumed zone rest activeEq
    | nil =>
        by_cases room : manager.activeZones < manager.maxNrActiveZones
        · cases freeEq : manager.free with
          | nil =>
              have answer : zsmGetActiveZone openRet manager = ⟨.retry, manager, true⟩ := by
                simp only [zsmGetActiveZone]
                rw [if_neg exhausted, if_pos (by simp [activeEq]), if_pos room]
                simp [freeEq]
              rw [answer]
              exact .refused _ rfl
          | cons zone rest =>
              by_cases opened : backendRet manager openRet = 0
              · rw [zsmGetActiveZone_opened openRet activeEq freeEq room opened]
                exact .opened zone rest activeEq freeEq
              · rw [zsmGetActiveZone_notOpened openRet activeEq freeEq room opened]
                exact .dropped _ rfl zone rest freeEq
        · have answer : zsmGetActiveZone openRet manager = ⟨.retry, manager, true⟩ := by
            simp only [zsmGetActiveZone]
            rw [if_neg exhausted, if_pos (by simp [activeEq]), if_neg room]
          rw [answer]
          exact .refused _ rfl

/-- The zone after its chunk counter moved, as `zsm_return_active_zone` leaves it. -/
def returnedZone (entry : ZnZone) (state : ZnZoneCondition) (offset : Nat) : ZnZone :=
  { entry with state := state, chunkOffset := offset }

inductive ReturnSpec (finishRet : Int) (manager : ZoneStateManager) (zone : Nat) :
    Int → ZoneStateManager → Prop
  | reopened (offset : Nat)
      (advanced : offset = u32 ((manager.state zone).chunkOffset + 1))
      (notLast : offset ≠ manager.maxZoneChunks) :
      ReturnSpec finishRet manager zone 0
        { manager.setZone zone (returnedZone (manager.state zone) .active offset) with
          writesOccurring := manager.writesOccurring - 1
          active := manager.active ++ [zone] }
  | alreadyFull (last : u32 ((manager.state zone).chunkOffset + 1) = manager.maxZoneChunks)
      (full : (manager.state zone).state = .full) :
      ReturnSpec finishRet manager zone 0
        { manager.setZone zone
            (returnedZone (manager.state zone) .full manager.maxZoneChunks) with
          writesOccurring := manager.writesOccurring - 1 }
  | finished (last : u32 ((manager.state zone).chunkOffset + 1) = manager.maxZoneChunks)
      (notFull : (manager.state zone).state ≠ .full)
      (done : backendRet manager finishRet = 0) :
      ReturnSpec finishRet manager zone 0
        { manager.setZone zone (returnedZone (manager.state zone) .full 0) with
          writesOccurring := manager.writesOccurring - 1 }
  | failed (last : u32 ((manager.state zone).chunkOffset + 1) = manager.maxZoneChunks)
      (notFull : (manager.state zone).state ≠ .full)
      (failure : backendRet manager finishRet ≠ 0) :
      ReturnSpec finishRet manager zone (backendRet manager finishRet)
        { manager.setZone zone
            (returnedZone (manager.state zone) (manager.state zone).state
              manager.maxZoneChunks) with
          writesOccurring := manager.writesOccurring - 1 }

theorem zsmReturnActiveZone_spec (finishRet : Int) (manager : ZoneStateManager)
    (pair : ZnPair) :
    ReturnSpec finishRet manager pair.zone (zsmReturnActiveZone finishRet manager pair).ret
      (zsmReturnActiveZone finishRet manager pair).state := by
  by_cases last : u32 ((manager.state pair.zone).chunkOffset + 1) = manager.maxZoneChunks
  · by_cases full : (manager.state pair.zone).state = .full
    · have shape := @ReturnSpec.alreadyFull finishRet _ _ last full
      simpa [zsmReturnActiveZone, last, closeZone, full, setZone, returnedZone] using shape
    · by_cases done : backendRet manager finishRet = 0
      · have shape := ReturnSpec.finished last full done
        have doneAfter : ∀ state writes, backendRet
            { manager with state := state, writesOccurring := writes } finishRet = 0 :=
          fun _ _ => done
        simpa [zsmReturnActiveZone, last, closeZone, full, setZone, returnedZone,
          doneAfter] using shape
      · have shape := ReturnSpec.failed last full done
        have sameRet : ∀ state writes, backendRet
            { manager with state := state, writesOccurring := writes } finishRet =
              backendRet manager finishRet :=
          fun _ _ => rfl
        simpa [zsmReturnActiveZone, last, closeZone, full, setZone, returnedZone,
          sameRet, done] using shape
  · have shape := @ReturnSpec.reopened finishRet manager pair.zone _ rfl last
    simpa [zsmReturnActiveZone, last, setZone, returnedZone] using shape

theorem zsmFailedToWrite_state (manager : ZoneStateManager) (pair : ZnPair) :
    (zsmFailedToWrite manager pair).state =
      { manager.setZone pair.zone
          (returnedZone (manager.state pair.zone) .active
            (manager.state pair.zone).chunkOffset) with
        writesOccurring := manager.writesOccurring - 1
        active := manager.active ++ [pair.zone] } := rfl

/-- The manager after a successful reset of `zone`. -/
def freed (manager : ZoneStateManager) (zone : Nat) : ZoneStateManager :=
  { manager.setZone zone (returnedZone (manager.state zone) .free 0) with
    free := manager.free ++ [zone] }

inductive EvictSpec (resetRet : Int) (manager : ZoneStateManager) (zone : Nat) :
    ZoneStateManager → Prop
  | alreadyFree (free : (manager.state zone).state = .free) :
      EvictSpec resetRet manager zone manager
  | reset (notFree : (manager.state zone).state ≠ .free)
      (done : backendRet manager resetRet = 0) :
      EvictSpec resetRet manager zone (freed manager zone)
  | failed (notFree : (manager.state zone).state ≠ .free)
      (failure : backendRet manager resetRet ≠ 0) :
      EvictSpec resetRet manager zone
        (manager.setZone zone { manager.state zone with invalid := [] })

theorem zsmEvict_spec (resetRet : Int) (manager : ZoneStateManager) (zone : Nat) :
    EvictSpec resetRet manager zone (zsmEvict resetRet manager zone).state := by
  by_cases free : (manager.state zone).state = .free
  · have shape := @EvictSpec.alreadyFree resetRet _ _ free
    simpa [zsmEvict, resetZone, free] using shape
  · by_cases done : backendRet manager resetRet = 0
    · have shape := EvictSpec.reset free done
      simpa [zsmEvict, resetZone, free, done, freed, returnedZone] using shape
    · have shape := EvictSpec.failed free done
      simpa [zsmEvict, resetZone, free, done] using shape

/-- `zsm_evict` returns zero whatever the reset command did. -/
theorem zsmEvict_ret (resetRet : Int) (manager : ZoneStateManager) (zone : Nat) :
    (zsmEvict resetRet manager zone).ret = 0 := by
  unfold zsmEvict
  dsimp only
  split
  · assumption
  · rfl

theorem zsmEvict_asserts_of_full {resetRet : Int} {manager : ZoneStateManager} {zone : Nat}
    (full : (manager.state zone).state = .full) (done : backendRet manager resetRet = 0) :
    (zsmEvict resetRet manager zone).asserts = true := by
  simp [zsmEvict, resetZone, full, done]

end ZNCache
