import ZNCache.ChunkEviction
import ZNCache.WorkerSteps

/-!
# What threads have under way with the chunk policy

The zones, chunks and readers that a thread keeps between two of its sections, and the
zones that are accounted for.
-/

set_option autoImplicit false

namespace ZNCache

open Tally ZoneStateManager ZnPolicyChunk

variable {Thread : Type}

def ZnPair.place (location : ZnPair) : Slot := (location.zone, location.chunkOffset)

/-- What threads have under way: pairs handed out, chunks given back, then recorded, then
inserted; zones closed and not yet in the heap, taken from it, and cleared; chunks popped
from the queue; and the zones of readers. -/
@[ext] structure Duties where
  taken : Multiset ZnPair
  returned : Multiset (Nat × ZnPair)
  recorded : Multiset (Nat × ZnPair)
  filled : Multiset Nat
  reclaimed : Multiset Nat
  cleared : Multiset Nat
  popped : Multiset Slot
  reading : Multiset Nat

namespace Duties

instance : Zero Duties := ⟨⟨0, 0, 0, 0, 0, 0, 0, 0⟩⟩

instance : Add Duties :=
  ⟨fun one two => {
    taken := one.taken + two.taken
    returned := one.returned + two.returned
    recorded := one.recorded + two.recorded
    filled := one.filled + two.filled
    reclaimed := one.reclaimed + two.reclaimed
    cleared := one.cleared + two.cleared
    popped := one.popped + two.popped
    reading := one.reading + two.reading }⟩

instance : AddCommMonoid Duties where
  add_assoc := fun _ _ _ => by apply Duties.ext <;> apply add_assoc
  zero_add := fun _ => by apply Duties.ext <;> apply zero_add
  add_zero := fun _ => by apply Duties.ext <;> apply add_zero
  add_comm := fun _ _ => by apply Duties.ext <;> apply add_comm
  nsmul := nsmulRec

def pending (duties : Duties) : Multiset (Nat × ZnPair) := duties.returned + duties.recorded

def takes (pair : ZnPair) : Duties := { (0 : Duties) with taken := {pair} }
def returns (chunk : Nat × ZnPair) : Duties := { (0 : Duties) with returned := {chunk} }
def records (chunk : Nat × ZnPair) : Duties := { (0 : Duties) with recorded := {chunk} }
def fills (zone : Nat) : Duties := { (0 : Duties) with filled := {zone} }
def reclaims (zone : Nat) : Duties := { (0 : Duties) with reclaimed := {zone} }
def clears (zone : Nat) : Duties := { (0 : Duties) with cleared := {zone} }
def pops (place : Slot) : Duties := { (0 : Duties) with popped := {place} }
def reads (zone : Nat) : Duties := { (0 : Duties) with reading := {zone} }

def fillsIf (maxChunks : Nat) (location : ZnPair) : Duties :=
  if location.chunkOffset + 1 = maxChunks then fills location.zone else 0

section Parts

variable (one two : Duties)

@[simp] theorem zero_taken : (0 : Duties).taken = 0 := rfl
@[simp] theorem zero_returned : (0 : Duties).returned = 0 := rfl
@[simp] theorem zero_recorded : (0 : Duties).recorded = 0 := rfl
@[simp] theorem zero_filled : (0 : Duties).filled = 0 := rfl
@[simp] theorem zero_reclaimed : (0 : Duties).reclaimed = 0 := rfl
@[simp] theorem zero_cleared : (0 : Duties).cleared = 0 := rfl
@[simp] theorem zero_popped : (0 : Duties).popped = 0 := rfl
@[simp] theorem zero_reading : (0 : Duties).reading = 0 := rfl
@[simp] theorem add_taken : (one + two).taken = one.taken + two.taken := rfl
@[simp] theorem add_returned : (one + two).returned = one.returned + two.returned := rfl
@[simp] theorem add_recorded : (one + two).recorded = one.recorded + two.recorded := rfl
@[simp] theorem add_filled : (one + two).filled = one.filled + two.filled := rfl
@[simp] theorem add_reclaimed : (one + two).reclaimed = one.reclaimed + two.reclaimed := rfl
@[simp] theorem add_cleared : (one + two).cleared = one.cleared + two.cleared := rfl
@[simp] theorem add_popped : (one + two).popped = one.popped + two.popped := rfl
@[simp] theorem add_reading : (one + two).reading = one.reading + two.reading := rfl

theorem add_pending : (one + two).pending = one.pending + two.pending := by
  simp only [pending, add_returned, add_recorded]
  exact add_add_add_comm _ _ _ _

@[simp] theorem takes_pending (pair : ZnPair) : (takes pair).pending = 0 := rfl
@[simp] theorem fills_pending (zone : Nat) : (fills zone).pending = 0 := rfl
@[simp] theorem reclaims_pending (zone : Nat) : (reclaims zone).pending = 0 := rfl
@[simp] theorem clears_pending (zone : Nat) : (clears zone).pending = 0 := rfl
@[simp] theorem pops_pending (place : Slot) : (pops place).pending = 0 := rfl
@[simp] theorem reads_pending (zone : Nat) : (reads zone).pending = 0 := rfl
@[simp] theorem returns_pending (chunk : Nat × ZnPair) : (returns chunk).pending = {chunk} := rfl
@[simp] theorem records_pending (chunk : Nat × ZnPair) : (records chunk).pending = {chunk} := rfl
@[simp] theorem fillsIf_pending (maxChunks : Nat) (location : ZnPair) :
    (fillsIf maxChunks location).pending = 0 := by
  unfold fillsIf
  split <;> rfl

section FillsIf

variable (maxChunks : Nat) (location : ZnPair)

@[simp] theorem fillsIf_taken : (fillsIf maxChunks location).taken = 0 := by
  unfold fillsIf
  split <;> rfl

@[simp] theorem fillsIf_reclaimed : (fillsIf maxChunks location).reclaimed = 0 := by
  unfold fillsIf
  split <;> rfl

@[simp] theorem fillsIf_cleared : (fillsIf maxChunks location).cleared = 0 := by
  unfold fillsIf
  split <;> rfl

@[simp] theorem fillsIf_reading : (fillsIf maxChunks location).reading = 0 := by
  unfold fillsIf
  split <;> rfl

end FillsIf

/-! The parts of what several threads have under way. -/

def pendingPart : Duties →+ Multiset (Nat × ZnPair) where
  toFun := pending
  map_zero' := rfl
  map_add' := add_pending

def reclaimedPart : Duties →+ Multiset Nat where
  toFun := reclaimed
  map_zero' := rfl
  map_add' := add_reclaimed

def clearedPart : Duties →+ Multiset Nat where
  toFun := cleared
  map_zero' := rfl
  map_add' := add_cleared

def readingPart : Duties →+ Multiset Nat where
  toFun := reading
  map_zero' := rfl
  map_add' := add_reading

end Parts

end Duties

open Duties

def keptZones (manager : ZoneStateManager) (policy : ZnPolicyChunk Thread) (duties : Duties) :
    Multiset Nat :=
  (manager.free : Multiset Nat) + (manager.active : Multiset Nat) +
    (policy.invalidPqueue.zones : Multiset Nat) +
    (duties.taken.map ZnPair.zone + duties.filled + duties.reclaimed)

section KeptZones

variable (manager : ZoneStateManager) (policy : ZnPolicyChunk Thread) (duties : Duties)

@[simp] theorem keptZones_takes (pair : ZnPair) :
    keptZones manager policy (takes pair + duties) =
      pair.zone ::ₘ keptZones manager policy duties := by
  simp only [keptZones, takes, add_taken, add_filled, add_reclaimed, zero_filled,
    zero_reclaimed, zero_add, Multiset.singleton_add, Multiset.map_cons, Multiset.cons_add,
    Multiset.add_cons]

@[simp] theorem keptZones_fills (zone : Nat) :
    keptZones manager policy (fills zone + duties) =
      zone ::ₘ keptZones manager policy duties := by
  simp only [keptZones, fills, add_taken, add_filled, add_reclaimed, zero_taken,
    zero_reclaimed, zero_add, Multiset.singleton_add, Multiset.cons_add, Multiset.add_cons]

@[simp] theorem keptZones_reclaims (zone : Nat) :
    keptZones manager policy (reclaims zone + duties) =
      zone ::ₘ keptZones manager policy duties := by
  simp only [keptZones, reclaims, add_taken, add_filled, add_reclaimed, zero_taken,
    zero_filled, zero_add, Multiset.singleton_add, Multiset.add_cons]

@[simp] theorem keptZones_returns (chunk : Nat × ZnPair) :
    keptZones manager policy (returns chunk + duties) = keptZones manager policy duties := by
  simp [keptZones, returns]

@[simp] theorem keptZones_records (chunk : Nat × ZnPair) :
    keptZones manager policy (records chunk + duties) = keptZones manager policy duties := by
  simp [keptZones, records]

@[simp] theorem keptZones_clears (zone : Nat) :
    keptZones manager policy (clears zone + duties) = keptZones manager policy duties := by
  simp [keptZones, clears]

theorem keptZones_active {manager after : ZoneStateManager} {zone : Nat}
    (queued : after.free = manager.free ∧ after.active = manager.active ++ [zone]) :
    keptZones after policy duties = zone ::ₘ keptZones manager policy duties := by
  have moved : ((manager.active ++ [zone] : List Nat) : Multiset Nat) =
      zone ::ₘ (manager.active : Multiset Nat) :=
    Multiset.coe_eq_coe.mpr (List.perm_append_singleton _ _)
  simp only [keptZones, queued.1, queued.2, moved, Multiset.cons_add, Multiset.add_cons]

theorem keptZones_free {manager after : ZoneStateManager} {zone : Nat}
    (queued : after.free = manager.free ++ [zone] ∧ after.active = manager.active) :
    keptZones after policy duties = zone ::ₘ keptZones manager policy duties := by
  have moved : ((manager.free ++ [zone] : List Nat) : Multiset Nat) =
      zone ::ₘ (manager.free : Multiset Nat) :=
    Multiset.coe_eq_coe.mpr (List.perm_append_singleton _ _)
  simp only [keptZones, queued.1, queued.2, moved, Multiset.cons_add]

end KeptZones

/-! ## What a thread has under way -/

def GetPc.duties (maxChunks : Nat) : GetPc → Duties
  | read _ location | touch _ location _ | release _ location _ => Duties.reads location.zone
  | write _ location | countMiss _ location | giveBack _ location => takes location
  | undoZone _ location => takes location
  | record id location => returns (id, location) + fillsIf maxChunks location
  | insert id location => records (id, location)
  | find _ | asleep _ | countHit _ _ | acquire _ | undoMap _ => 0

def ChunkEvictPc.duties : ChunkEvictPc → Duties
  | mark _ _ pair | clear _ _ pair => pops pair.place
  | gcScan zone _ | gcClear zone => reclaims zone
  | gcRead zone _ location | gcWrite zone _ location _ => takes location + reclaims zone
  | gcInsert zone _ location => takes location + reclaims zone
  | gcReset zone => clears zone + reclaims zone
  | start | pop _ _ | gcStart | gcLoop _ | gcCount | leave => 0

def ThreadPc.duties (maxChunks : Nat) : ThreadPc ChunkEvictPc → Duties
  | idle => 0
  | get pc => pc.duties maxChunks
  | evict _ code => code.duties

section Duties

variable {maxChunks : Nat}

@[simp] theorem duties_afterFind (id : Nat) (result : FindResult) :
    (afterFind id result : ThreadPc ChunkEvictPc).duties maxChunks =
      match result with
      | .loc location => Duties.reads location.zone
      | .cond => 0
      | .wait => 0 := by
  cases result <;> rfl

@[simp] theorem duties_afterEvict (caller : Option Nat) :
    (afterEvict caller : ThreadPc ChunkEvictPc).duties maxChunks = 0 := by
  cases caller <;> rfl

theorem duties_afterGetActiveZone (id : Nat) (ret : GetActiveZone) :
    (∃ pair, ret = .success pair ∧
      (afterGetActiveZone id .start ret : ThreadPc ChunkEvictPc).duties maxChunks = takes pair) ∨
    ret.hands = 0 ∧
      (afterGetActiveZone id .start ret : ThreadPc ChunkEvictPc).duties maxChunks = 0 := by
  cases ret with
  | success pair => exact .inl ⟨pair, rfl, rfl⟩
  | retry | error | evict => exact .inr ⟨rfl, rfl⟩

theorem ThreadPc.duties_pending (pc : ThreadPc ChunkEvictPc) :
    (pc.duties maxChunks).pending = pc.pending := by
  cases pc with
  | idle => rfl
  | evict caller code =>
      cases code <;> rfl
  | get pc =>
      cases pc with
      | record id location =>
          simp [ThreadPc.duties, GetPc.duties, add_pending, ThreadPc.pending, ThreadPc.lift,
            GetPc.pending]
      | _ => rfl

theorem ThreadPc.duties_reading (pc : ThreadPc ChunkEvictPc) :
    (pc.duties maxChunks).reading = pc.reads.map fun chunk => chunk.2.zone := by
  cases pc with
  | idle => rfl
  | evict caller code => cases code <;> rfl
  | get pc =>
      cases pc with
      | record id location =>
          simp [ThreadPc.duties, GetPc.duties, ThreadPc.reads, ThreadPc.lift, GetPc.reads, returns]
      | _ => rfl

theorem ThreadPc.duties_cleared (pc : ThreadPc ChunkEvictPc) {zone : Nat}
    (member : zone ∈ (pc.duties maxChunks).cleared) :
    zone ∈ (pc.duties maxChunks).reclaimed ∧ ∃ caller, pc = .evict caller (.gcReset zone) := by
  cases pc with
  | idle => cases member
  | evict caller code =>
      cases code with
      | gcReset other =>
          have same : zone = other := by
            simpa [ThreadPc.duties, ChunkEvictPc.duties, clears, reclaims] using member
          subst same
          exact ⟨by simp [ThreadPc.duties, ChunkEvictPc.duties, clears, reclaims], caller, rfl⟩
      | _ => cases member
  | get pc =>
      cases pc with
      | record id location =>
          simp [ThreadPc.duties, GetPc.duties, returns] at member
      | _ => cases member

variable [Fintype Thread] [DecidableEq Thread] {threads : Thread → ThreadPc ChunkEvictPc}
  {thread : Thread}

theorem mem_others_pending {chunk : Nat × ZnPair} :
    chunk ∈ (others (ThreadPc.duties maxChunks) threads thread).pending ↔
      ∃ other, other ≠ thread ∧ chunk ∈ (threads other).pending := by
  apply (@mem_others_part _ _ _ _ _ _ _ pendingPart _ _ _ chunk).trans
  refine exists_congr fun other => and_congr_right fun _ => ?_
  show chunk ∈ ((threads other).duties maxChunks).pending ↔ _
  rw [ThreadPc.duties_pending]

end Duties

end ZNCache
