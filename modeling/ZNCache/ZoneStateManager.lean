import Mathlib.Data.List.Basic
import Mathlib.Logic.Function.Basic
import ZNCache.Machine

/-!
# Zone state manager

The locked sections of the manager.  Queues hold indices into `state`, which is
what the pointers they store in the source amount to.  The return codes of the
libzbd commands are arguments; zero is success.
-/

set_option autoImplicit false

namespace ZNCache

inductive ZnBackend
  | zns
  | block
  deriving DecidableEq, Repr

structure ZnPair where
  zone : Nat
  chunkOffset : Nat
  id : Nat
  inUse : Bool
  deriving DecidableEq, Repr

inductive ZnZoneCondition
  | free
  | full
  | active
  | writeOccuring
  deriving DecidableEq, Repr

inductive GetActiveZone
  | success (pair : ZnPair)
  | retry
  | error
  | evict
  deriving DecidableEq, Repr

structure ZnZone where
  state : ZnZoneCondition
  zoneId : Nat
  chunkOffset : Nat
  invalid : List Nat

structure ZoneStateManager where
  active : List Nat
  free : List Nat
  state : Nat → ZnZone
  writesOccurring : Int
  zoneCap : Nat
  zoneSize : Nat
  chunkSize : Nat
  maxNrActiveZones : Nat
  maxZoneChunks : Nat
  numZones : Nat
  backendType : ZnBackend

namespace ZoneStateManager

def setZone (manager : ZoneStateManager) (zone : Nat) (value : ZnZone) :
    ZoneStateManager :=
  { manager with state := Function.update manager.state zone value }

section SetZone

variable (manager : ZoneStateManager) (zone : Nat) (value : ZnZone)

@[simp] theorem setZone_active : (manager.setZone zone value).active = manager.active := rfl
@[simp] theorem setZone_free : (manager.setZone zone value).free = manager.free := rfl
@[simp] theorem setZone_writes :
    (manager.setZone zone value).writesOccurring = manager.writesOccurring := rfl
@[simp] theorem setZone_numZones :
    (manager.setZone zone value).numZones = manager.numZones := rfl
@[simp] theorem setZone_maxZoneChunks :
    (manager.setZone zone value).maxZoneChunks = manager.maxZoneChunks := rfl
@[simp] theorem setZone_maxNrActiveZones :
    (manager.setZone zone value).maxNrActiveZones = manager.maxNrActiveZones := rfl
@[simp] theorem setZone_backendType :
    (manager.setZone zone value).backendType = manager.backendType := rfl
@[simp] theorem setZone_state :
    (manager.setZone zone value).state = Function.update manager.state zone value := rfl

end SetZone

/-- `g_queue_get_length(active) + writes_occurring`, in unsigned arithmetic. -/
def activeZones (manager : ZoneStateManager) : Nat :=
  u32 (manager.active.length + manager.writesOccurring)

end ZoneStateManager

open ZoneStateManager

/-- The code that a zone command returns: only the ZNS backend issues it. -/
def backendRet (manager : ZoneStateManager) (commandRet : Int) : Int :=
  if manager.backendType = .zns then commandRet else 0

def closeZone (finishRet : Int) (manager : ZoneStateManager) (zone : Nat) :
    Int × ZoneStateManager :=
  if (manager.state zone).state = .full then (0, manager)
  else if backendRet manager finishRet ≠ 0 then (backendRet manager finishRet, manager)
  else
    (0, manager.setZone zone { manager.state zone with state := .full, chunkOffset := 0 })

def resetZone (resetRet : Int) (manager : ZoneStateManager) (zone : Nat) :
    Int × ZoneStateManager :=
  if (manager.state zone).state = .free then (0, manager)
  else if backendRet manager resetRet ≠ 0 then (backendRet manager resetRet, manager)
  else
    (0, { manager.setZone zone { manager.state zone with state := .free, chunkOffset := 0 } with
      free := manager.free ++ [zone] })

def openZone (openRet : Int) (manager : ZoneStateManager) (zone : Nat) :
    Outcome ZoneStateManager Int :=
  let isFree := decide ((manager.state zone).state = .free)
  if manager.activeZones ≥ manager.maxNrActiveZones then ⟨-1, manager, isFree⟩
  else if backendRet manager openRet ≠ 0 then ⟨backendRet manager openRet, manager, isFree⟩
  else
    ⟨0, { manager.setZone zone { manager.state zone with state := .active, chunkOffset := 0 } with
      active := manager.active ++ [zone] }, isFree⟩

def zsmInit (numZones zoneCap zoneSize chunkSize maxNrActiveZones : Nat)
    (backendType : ZnBackend) : ZoneStateManager where
  active := []
  free := List.range numZones
  state := fun zone => ⟨.free, zone, 0, []⟩
  writesOccurring := 0
  zoneCap := zoneCap
  zoneSize := zoneSize
  chunkSize := chunkSize
  maxNrActiveZones := maxNrActiveZones
  maxZoneChunks := zoneCap / chunkSize
  numZones := numZones
  backendType := backendType

/-- The end of `zsm_get_active_zone`: the head of the active queue is handed out. -/
def popActive (manager : ZoneStateManager) : Outcome ZoneStateManager GetActiveZone :=
  match manager.active with
  | [] => ⟨.error, manager, false⟩ -- not reached: the queue is not empty here
  | zone :: rest =>
      let entry := manager.state zone
      ⟨.success ⟨entry.zoneId, entry.chunkOffset, 0, false⟩,
        { manager.setZone zone { entry with state := .writeOccuring } with
          active := rest, writesOccurring := manager.writesOccurring + 1 },
        decide (entry.state = .active)⟩

def zsmGetActiveZone (openRet : Int) (manager : ZoneStateManager) :
    Outcome ZoneStateManager GetActiveZone :=
  let activeQueueSize := manager.active.length
  let freeQueueSize := manager.free.length
  if manager.activeZones = 0 ∧ freeQueueSize = 0 then ⟨.evict, manager, true⟩
  else if activeQueueSize = 0 then
    if manager.activeZones < manager.maxNrActiveZones then
      match manager.free with
      | [] => ⟨.retry, manager, true⟩
      | newZone :: rest =>
          let opened := openZone openRet { manager with free := rest } newZone
          if opened.ret ≠ 0 then ⟨.error, opened.state, false⟩
          else
            let handed := popActive opened.state
            ⟨handed.ret, handed.state, opened.asserts && handed.asserts⟩
    else ⟨.retry, manager, true⟩
  else popActive manager

def zsmReturnActiveZone (finishRet : Int) (manager : ZoneStateManager) (pair : ZnPair) :
    Outcome ZoneStateManager Int :=
  let entry := manager.state pair.zone
  let asserts := decide (manager.activeZones ≤ manager.maxNrActiveZones) &&
    decide (entry.state = .writeOccuring) && decide (entry.chunkOffset = pair.chunkOffset)
  let advanced := { entry with chunkOffset := u32 (entry.chunkOffset + 1) }
  let counted := { manager.setZone pair.zone advanced with
    writesOccurring := manager.writesOccurring - 1 }
  if advanced.chunkOffset = manager.maxZoneChunks then
    let closed := closeZone finishRet counted pair.zone
    ⟨closed.1, closed.2, asserts⟩
  else
    ⟨0, { counted.setZone pair.zone { advanced with state := .active } with
      active := manager.active ++ [pair.zone] }, asserts⟩

def zsmEvict (resetRet : Int) (manager : ZoneStateManager) (zoneToFree : Nat) :
    Outcome ZoneStateManager Int :=
  let isFull := decide ((manager.state zoneToFree).state = .full)
  let reset := resetZone resetRet manager zoneToFree
  if reset.1 = 0 then ⟨reset.1, reset.2, isFull⟩ -- `if (!ret)` leaves before the clearing
  else
    let entry := reset.2.state zoneToFree
    ⟨0, reset.2.setZone zoneToFree { entry with invalid := [] },
      isFull && decide (entry.state = .free)⟩

def zsmFailedToWrite (manager : ZoneStateManager) (pair : ZnPair) :
    Outcome ZoneStateManager Unit :=
  let entry := manager.state pair.zone
  ⟨(), { manager.setZone pair.zone { entry with state := .active } with
      writesOccurring := manager.writesOccurring - 1, active := manager.active ++ [pair.zone] },
    decide (manager.activeZones ≤ manager.maxNrActiveZones) &&
      decide (entry.state = .writeOccuring) &&
      decide (entry.chunkOffset = pair.chunkOffset) &&
      decide (entry.chunkOffset < manager.maxZoneChunks)⟩

def zsmGetNumFreeZones (manager : ZoneStateManager) : Nat := manager.free.length

def zsmMarkChunkInvalid (manager : ZoneStateManager) (location : ZnPair) : ZoneStateManager :=
  let entry := manager.state location.zone
  manager.setZone location.zone
    { entry with invalid := entry.invalid ++ [location.chunkOffset] }

/-- `CHUNK_POINTER`, in 64-bit arithmetic. -/
def chunkPointer (zoneSize chunkSize chunkOffset zone : Nat) : Nat :=
  (zoneSize * zone + chunkOffset * chunkSize) % 2 ^ 64

end ZNCache
