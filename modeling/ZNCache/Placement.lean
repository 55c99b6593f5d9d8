import Mathlib
import ZNCache.ZoneStateManagerRuns

/-!
# Where chunks are placed

The chunks of a zone are written one after the other from its start, a failed write is
repeated in its place, and the bytes of two chunks never overlap.
-/

set_option autoImplicit false

namespace ZNCache

open ZoneStateManager Transition

/-- A manager, the pairs that callers hold, the offsets given back for each zone since its
last reset, and the offset of the write that failed last if its zone waits to be handed
out again. -/
structure PlacementLog where
  handout : Handout
  written : Nat → List Nat
  retry : Nat → Option Nat

namespace PlacementLog

/-- What a call adds to the offsets given back; a zone that is evicted starts again. -/
def nowWritten (log : PlacementLog) : ZsmCall → Nat → List Nat
  | .returnActiveZone _ pair =>
      Function.update log.written pair.zone (log.written pair.zone ++ [pair.chunkOffset])
  | .evict _ zone => Function.update log.written zone []
  | _ => log.written

def nowRetry (log : PlacementLog) : ZsmCall → Nat → Option Nat
  | .failedToWrite pair => Function.update log.retry pair.zone (some pair.chunkOffset)
  | .getActiveZone openRet =>
      match (zsmGetActiveZone openRet log.handout.manager).ret with
      | .success pair => Function.update log.retry pair.zone none
      | _ => log.retry
  | _ => log.retry

def step (log : PlacementLog) (call : ZsmCall) : Option PlacementLog :=
  (log.handout.step call).map fun handout => ⟨handout, log.nowWritten call, log.nowRetry call⟩

def init (numZones zoneCap zoneSize chunkSize maxNrActiveZones : Nat)
    (backendType : ZnBackend) : PlacementLog where
  handout := Handout.init numZones zoneCap zoneSize chunkSize maxNrActiveZones backendType
  written := fun _ => []
  retry := fun _ => none

/-- The chunks that are outstanding or given back since the last reset of their zone. -/
def live (log : PlacementLog) : Multiset (Nat × Nat) :=
  log.handout.outstanding.map (fun pair => (pair.zone, pair.chunkOffset)) +
    (Multiset.range log.handout.manager.numZones).bind fun zone =>
      ((log.written zone).map fun offset => (zone, offset) : List (Nat × Nat))

def kept (handout : Handout) : Multiset Nat :=
  (handout.manager.free : Multiset Nat) + handout.manager.active +
    handout.outstanding.map ZnPair.zone

section Kept

variable {handout : Handout}

theorem mem_kept {handout : Handout} {zone : Nat} :
    zone ∈ kept handout ↔
      (zone ∈ handout.manager.free ∨ zone ∈ handout.manager.active) ∨
        ∃ pair ∈ handout.outstanding, pair.zone = zone := by
  simp [kept]

theorem kept_of_held {handout : Handout} {pair : ZnPair} (member : pair ∈ handout.outstanding) :
    kept handout = pair.zone ::ₘ ((handout.manager.free : Multiset Nat) +
      handout.manager.active + (handout.outstanding.erase pair).map ZnPair.zone) := by
  rw [kept, ← Multiset.cons_erase member, Multiset.map_cons, Multiset.add_cons,
    Multiset.erase_cons_head]

structure KeptOnce (handout : Handout) : Prop where
  once : (kept handout).Nodup
  inRange : ∀ zone ∈ kept handout, zone < handout.manager.numZones
  notFull : ∀ zone ∈ kept handout, (handout.manager.state zone).state ≠ .full
  zoneIds : ∀ zone, (handout.manager.state zone).zoneId = zone

theorem KeptOnce.init {numZones zoneCap zoneSize chunkSize maxNrActiveZones : Nat}
    {backendType : ZnBackend} :
    KeptOnce (Handout.init numZones zoneCap zoneSize chunkSize maxNrActiveZones backendType) := by
  constructor <;> simp [Handout.init, zsmInit, kept, List.nodup_range]

theorem KeptOnce.setZone_zoneIds (keeps : KeptOnce handout) {zone : Nat} {entry : ZnZone}
    (own : entry.zoneId = (handout.manager.state zone).zoneId) (other : Nat) :
    ((handout.manager.setZone zone entry).state other).zoneId = other := by
  by_cases same : other = zone
  · simpa [same, own] using keeps.zoneIds zone
  · simpa [same] using keeps.zoneIds other

/-- The zone of a held pair is in no queue and held by nobody else. -/
theorem KeptOnce.apart_of_held (keeps : KeptOnce handout) {pair : ZnPair}
    (member : pair ∈ handout.outstanding) :
    pair.zone ∉ handout.manager.free ∧ pair.zone ∉ handout.manager.active ∧
      ∀ other ∈ handout.outstanding.erase pair, other.zone ≠ pair.zone := by
  have once := keeps.once
  rw [kept_of_held member, Multiset.nodup_cons] at once
  simp only [Multiset.mem_add, Multiset.mem_coe, not_or] at once
  obtain ⟨⟨⟨notFree, notActive⟩, notHeld⟩, _⟩ := once
  exact ⟨notFree, notActive, fun other inRest same =>
    notHeld (same ▸ Multiset.mem_map_of_mem ZnPair.zone inRest)⟩

theorem KeptOnce.apart_of_full (keeps : KeptOnce handout) {zone : Nat}
    (full : (handout.manager.state zone).state = .full) :
    zone ∉ handout.manager.free ∧ zone ∉ handout.manager.active ∧
      ∀ pair ∈ handout.outstanding, pair.zone ≠ zone := by
  have notKept : zone ∉ kept handout := fun member => keeps.notFull zone member full
  simp only [mem_kept, not_or, not_exists, not_and] at notKept
  exact ⟨notKept.1.1, notKept.1.2, notKept.2⟩

theorem KeptOnce.handOut (keeps : KeptOnce handout) {zone offset : Nat} {active free : List Nat}
    (drawn : (handout.manager.free : Multiset Nat) + handout.manager.active =
      zone ::ₘ ((free : Multiset Nat) + active)) :
    KeptOnce ⟨handedOut handout.manager zone offset active free,
      ⟨zone, offset, 0, false⟩ ::ₘ handout.outstanding⟩ := by
  have after : kept ⟨handedOut handout.manager zone offset active free,
      ⟨zone, offset, 0, false⟩ ::ₘ handout.outstanding⟩ = kept handout := by
    rw [kept, kept, drawn, Multiset.map_cons, Multiset.add_cons, Multiset.cons_add]
    rfl
  constructor
  · exact after ▸ keeps.once
  · exact after ▸ keeps.inRange
  · intro other member
    rw [after] at member
    by_cases same : other = zone
    · simp [handedOut, same]
    · simpa [handedOut, same] using keeps.notFull other member
  · exact keeps.setZone_zoneIds rfl

theorem KeptOnce.apart_of_drawn (keeps : KeptOnce handout) {zone : Nat} {active free : List Nat}
    (drawn : (handout.manager.free : Multiset Nat) + handout.manager.active =
      zone ::ₘ ((free : Multiset Nat) + active)) :
    zone ∉ active ∧ ∀ pair ∈ handout.outstanding, pair.zone ≠ zone := by
  have once := keeps.once
  rw [kept, drawn, Multiset.cons_add, Multiset.nodup_cons] at once
  simp only [Multiset.mem_add, Multiset.mem_coe, not_or] at once
  exact ⟨once.1.1.2, fun pair inHeld same =>
    once.1.2 (same ▸ Multiset.mem_map_of_mem ZnPair.zone inHeld)⟩

theorem KeptOnce.drop (keeps : KeptOnce handout) {zone : Nat} {rest : List Nat}
    (head : handout.manager.free = zone :: rest) :
    KeptOnce ⟨{ handout.manager with free := rest }, handout.outstanding⟩ := by
  have fewer : kept ⟨{ handout.manager with free := rest }, handout.outstanding⟩ ≤
      kept handout := by
    simp only [kept, head, ← Multiset.cons_coe, Multiset.cons_add]
    exact Multiset.le_cons_self _ _
  constructor
  · exact Multiset.nodup_of_le fewer keeps.once
  · exact fun other member => keeps.inRange other (Multiset.mem_of_le fewer member)
  · exact fun other member => keeps.notFull other (Multiset.mem_of_le fewer member)
  · exact keeps.zoneIds

theorem KeptOnce.reopen (keeps : KeptOnce handout) {pair : ZnPair}
    (member : pair ∈ handout.outstanding) {offset : Nat} {writes : Int} :
    KeptOnce ⟨{ handout.manager.setZone pair.zone
          (returnedZone (handout.manager.state pair.zone) .active offset) with
        writesOccurring := writes
        active := handout.manager.active ++ [pair.zone] },
      handout.outstanding.erase pair⟩ := by
  have same : kept ⟨{ handout.manager.setZone pair.zone
        (returnedZone (handout.manager.state pair.zone) .active offset) with
      writesOccurring := writes
      active := handout.manager.active ++ [pair.zone] },
      handout.outstanding.erase pair⟩ = kept handout := by
    rw [kept_of_held member, kept]
    simp only [setZone_free, ← Multiset.coe_add, Multiset.coe_singleton, ← Multiset.singleton_add]
    abel
  constructor
  · exact same ▸ keeps.once
  · exact same ▸ keeps.inRange
  · intro other inKept
    rw [same] at inKept
    by_cases own : other = pair.zone
    · simp [returnedZone, own]
    · simpa [own] using keeps.notFull other inKept
  · exact keeps.setZone_zoneIds rfl

theorem KeptOnce.leave (keeps : KeptOnce handout) {pair : ZnPair}
    (member : pair ∈ handout.outstanding) {entry : ZnZone} {writes : Int}
    (own : entry.zoneId = (handout.manager.state pair.zone).zoneId) :
    KeptOnce ⟨{ handout.manager.setZone pair.zone entry with writesOccurring := writes },
      handout.outstanding.erase pair⟩ := by
  have before := kept_of_held member
  have once := keeps.once
  rw [before, Multiset.nodup_cons] at once
  have apart : ∀ zone ∈ (handout.manager.free : Multiset Nat) + handout.manager.active +
      (handout.outstanding.erase pair).map ZnPair.zone,
      zone ≠ pair.zone ∧ zone ∈ kept handout := by
    intro zone inRest
    exact ⟨fun here => once.1 (here ▸ inRest), before ▸ Multiset.mem_cons_of_mem inRest⟩
  constructor
  · exact once.2
  · exact fun zone inRest => keeps.inRange zone (apart zone inRest).2
  · intro zone inRest
    obtain ⟨other, inKept⟩ := apart zone inRest
    simpa [other] using keeps.notFull zone inKept
  · exact keeps.setZone_zoneIds own

theorem KeptOnce.reset (keeps : KeptOnce handout) {zone : Nat}
    (inRange : zone < handout.manager.numZones)
    (full : (handout.manager.state zone).state = .full) :
    KeptOnce ⟨freed handout.manager zone, handout.outstanding⟩ := by
  have notKept : zone ∉ kept handout := fun member => keeps.notFull zone member full
  have after : kept ⟨freed handout.manager zone, handout.outstanding⟩ = zone ::ₘ kept handout := by
    simp only [kept, freed, setZone_active, ← Multiset.coe_add, Multiset.coe_singleton,
      ← Multiset.singleton_add]
    abel
  constructor
  · rw [after]
    exact Multiset.nodup_cons.mpr ⟨notKept, keeps.once⟩
  · intro other member
    rw [after] at member
    rcases Multiset.mem_cons.mp member with rfl | inKept
    · exact inRange
    · exact keeps.inRange other inKept
  · intro other member
    rw [after] at member
    by_cases same : other = zone
    · simp [freed, returnedZone, same]
    · simpa [freed, same] using
        keeps.notFull other ((Multiset.mem_cons.mp member).resolve_left same)
  · exact keeps.setZone_zoneIds rfl

theorem KeptOnce.setInvalid (keeps : KeptOnce handout) (zone : Nat) (invalid : List Nat) :
    KeptOnce ⟨handout.manager.setZone zone { handout.manager.state zone with invalid := invalid },
      handout.outstanding⟩ := by
  constructor
  · exact keeps.once
  · exact keeps.inRange
  · intro other member
    have notFull := keeps.notFull other member
    by_cases same : other = zone
    · subst same
      simpa using notFull
    · simpa [same] using notFull
  · exact keeps.setZone_zoneIds rfl

end Kept

structure Placed (maxChunks : Nat) (log : PlacementLog) : Prop where
  once : (kept log.handout).Nodup
  inRange : ∀ zone ∈ kept log.handout, zone < log.handout.manager.numZones
  notFull : ∀ zone ∈ kept log.handout, (log.handout.manager.state zone).state ≠ .full
  zoneIds : ∀ zone, (log.handout.manager.state zone).zoneId = zone
  sameMax : log.handout.manager.maxZoneChunks = maxChunks
  inOrder : ∀ zone, log.written zone = List.range (log.written zone).length
  within : ∀ zone, (log.written zone).length ≤ maxChunks
  blank : ∀ zone ∈ log.handout.manager.free, log.written zone = []
  queued : ∀ zone ∈ log.handout.manager.active,
    (log.handout.manager.state zone).chunkOffset = (log.written zone).length ∧
      (log.written zone).length < maxChunks
  held : ∀ pair ∈ log.handout.outstanding,
    (log.handout.manager.state pair.zone).chunkOffset = (log.written pair.zone).length ∧
      (log.written pair.zone).length < maxChunks ∧
      pair.chunkOffset = (log.written pair.zone).length
  retried : ∀ zone offset, log.retry zone = some offset →
    zone ∈ log.handout.manager.active ∧ offset = (log.written zone).length

section Step

variable {maxChunks : Nat} {log next : PlacementLog}

theorem Placed.init {numZones zoneCap zoneSize chunkSize maxNrActiveZones : Nat}
    {backendType : ZnBackend} :
    Placed (zoneCap / chunkSize)
      (init numZones zoneCap zoneSize chunkSize maxNrActiveZones backendType) := by
  constructor <;>
    simp [PlacementLog.init, Handout.init, zsmInit, kept, List.nodup_range]

theorem Placed.updateWritten (placed : Placed maxChunks log) (zone : Nat) {length : Nat}
    (room : length ≤ maxChunks) :
    (∀ other, Function.update log.written zone (List.range length) other =
        List.range (Function.update log.written zone (List.range length) other).length) ∧
      ∀ other, (Function.update log.written zone (List.range length) other).length ≤
        maxChunks := by
  refine ⟨fun other => ?_, fun other => ?_⟩
  · by_cases own : other = zone
    · simp [own]
    · simpa [own] using placed.inOrder other
  · by_cases own : other = zone
    · simpa [own] using room
    · simpa [own] using placed.within other

theorem Placed.keptOnce (placed : Placed maxChunks log) : KeptOnce log.handout :=
  ⟨placed.once, placed.inRange, placed.notFull, placed.zoneIds⟩

theorem Placed.handOut (placed : Placed maxChunks log) {zone offset : Nat}
    {active free : List Nat}
    (drawn : (log.handout.manager.free : Multiset Nat) + log.handout.manager.active =
      zone ::ₘ ((free : Multiset Nat) + active))
    (sameFree : ∀ other ∈ free, other ∈ log.handout.manager.free)
    (sameActive : ∀ other ∈ active, other ∈ log.handout.manager.active)
    (stays : ∀ other ∈ log.handout.manager.active, other = zone ∨ other ∈ active)
    (comesNext : offset = (log.written zone).length)
    (room : (log.written zone).length < maxChunks) :
    Placed maxChunks
      ⟨⟨handedOut log.handout.manager zone offset active free,
          ⟨(log.handout.manager.state zone).zoneId, offset, 0, false⟩ ::ₘ
            log.handout.outstanding⟩,
        log.written, Function.update log.retry zone none⟩ := by
  rw [placed.zoneIds zone]
  obtain ⟨once, inRange, notFull, zoneIds⟩ := @KeptOnce.handOut _ placed.keptOnce _ offset _ _ drawn
  obtain ⟨notActive, notHeld⟩ := placed.keptOnce.apart_of_drawn drawn
  constructor
  case once => exact once
  case inRange => exact inRange
  case notFull => exact notFull
  case zoneIds => exact zoneIds
  case sameMax => exact placed.sameMax
  case inOrder => exact placed.inOrder
  case within => exact placed.within
  case blank => exact fun other member => placed.blank other (sameFree other member)
  case queued =>
    intro other member
    have apart : other ≠ zone := fun same => notActive (same ▸ member)
    simpa [handedOut, apart] using placed.queued other (sameActive other member)
  case held =>
    intro pair member
    rcases Multiset.mem_cons.mp member with rfl | inHeld
    · simpa [handedOut, comesNext] using room
    · have apart : pair.zone ≠ zone := notHeld pair inHeld
      simpa [handedOut, apart] using placed.held pair inHeld
  case retried =>
    intro other failed waits
    by_cases same : other = zone
    · simp [same] at waits
    · simp only [Function.update_of_ne same] at waits
      obtain ⟨inActive, offsetIs⟩ := placed.retried other failed waits
      exact ⟨(stays other inActive).resolve_left same, offsetIs⟩

theorem Placed.reopen (placed : Placed maxChunks log) {pair : ZnPair}
    (member : pair ∈ log.handout.outstanding) {offset : Nat}
    {retry : Nat → Option Nat} {writes : Int} (room : offset < maxChunks)
    (waits : ∀ zone failed, retry zone = some failed →
      (zone = pair.zone ∧ failed = offset) ∨ log.retry zone = some failed) :
    Placed maxChunks
      ⟨⟨{ log.handout.manager.setZone pair.zone
            (returnedZone (log.handout.manager.state pair.zone) .active offset) with
          writesOccurring := writes
          active := log.handout.manager.active ++ [pair.zone] },
        log.handout.outstanding.erase pair⟩,
        Function.update log.written pair.zone (List.range offset), retry⟩ := by
  obtain ⟨once, inRange, notFull, zoneIds⟩ :=
    @KeptOnce.reopen _ placed.keptOnce _ member offset writes
  obtain ⟨notFree, notActive, notHeld⟩ := placed.keptOnce.apart_of_held member
  obtain ⟨inOrder, within⟩ := placed.updateWritten pair.zone room.le
  constructor
  case once => exact once
  case inRange => exact inRange
  case notFull => exact notFull
  case zoneIds => exact zoneIds
  case sameMax => exact placed.sameMax
  case inOrder => exact inOrder
  case within => exact within
  case blank =>
    intro other inFree
    have own : other ≠ pair.zone := fun here => notFree (here ▸ inFree)
    simpa [own] using placed.blank other inFree
  case queued =>
    intro other inActive
    by_cases own : other = pair.zone
    · simpa [own, returnedZone] using room
    · have before : other ∈ log.handout.manager.active := by simpa [own] using inActive
      simpa [own] using placed.queued other before
  case held =>
    intro other inHeld
    have own : other.zone ≠ pair.zone := notHeld other inHeld
    simpa [own] using placed.held other (Multiset.mem_of_mem_erase inHeld)
  case retried =>
    intro zone failed waiting
    rcases waits zone failed waiting with ⟨rfl, rfl⟩ | before
    · simp
    · obtain ⟨inActive, offsetIs⟩ := placed.retried zone failed before
      have own : zone ≠ pair.zone := fun here => notActive (here ▸ inActive)
      simp [inActive, offsetIs, own]

theorem Placed.finish (placed : Placed maxChunks log) {pair : ZnPair}
    (member : pair ∈ log.handout.outstanding) {writes : Int} :
    Placed maxChunks
      ⟨⟨{ log.handout.manager.setZone pair.zone
            (returnedZone (log.handout.manager.state pair.zone) .full 0) with
          writesOccurring := writes },
        log.handout.outstanding.erase pair⟩,
        Function.update log.written pair.zone (List.range maxChunks), log.retry⟩ := by
  obtain ⟨once, inRange, notFull, zoneIds⟩ := @KeptOnce.leave _ placed.keptOnce _ member
    (returnedZone (log.handout.manager.state pair.zone) .full 0) writes rfl
  obtain ⟨notFree, notActive, notHeld⟩ := placed.keptOnce.apart_of_held member
  obtain ⟨inOrder, within⟩ := placed.updateWritten pair.zone (Nat.le_refl maxChunks)
  constructor
  case once => exact once
  case inRange => exact inRange
  case notFull => exact notFull
  case zoneIds => exact zoneIds
  case sameMax => exact placed.sameMax
  case inOrder => exact inOrder
  case within => exact within
  case blank =>
    intro other inFree
    have own : other ≠ pair.zone := fun here => notFree (here ▸ inFree)
    simpa [own] using placed.blank other inFree
  case queued =>
    intro other inActive
    have own : other ≠ pair.zone := fun here => notActive (here ▸ inActive)
    simpa [own] using placed.queued other inActive
  case held =>
    intro other inHeld
    have own : other.zone ≠ pair.zone := notHeld other inHeld
    simpa [own] using placed.held other (Multiset.mem_of_mem_erase inHeld)
  case retried =>
    intro zone failed waiting
    obtain ⟨inActive, offsetIs⟩ := placed.retried zone failed waiting
    have own : zone ≠ pair.zone := fun here => notActive (here ▸ inActive)
    simp [inActive, offsetIs, own]

theorem Placed.reset (placed : Placed maxChunks log) {zone : Nat}
    (inRange : zone < log.handout.manager.numZones)
    (full : (log.handout.manager.state zone).state = .full) :
    Placed maxChunks
      ⟨⟨freed log.handout.manager zone, log.handout.outstanding⟩,
        Function.update log.written zone [], log.retry⟩ := by
  obtain ⟨inOrder, within⟩ := placed.updateWritten zone (Nat.zero_le maxChunks)
  obtain ⟨once, inRange, notFull, zoneIds⟩ := placed.keptOnce.reset inRange full
  obtain ⟨notFree, notActive, notHeld⟩ := placed.keptOnce.apart_of_full full
  constructor
  case once => exact once
  case inRange => exact inRange
  case notFull => exact notFull
  case zoneIds => exact zoneIds
  case sameMax => exact placed.sameMax
  case inOrder => exact inOrder
  case within => exact within
  case blank =>
    intro other inFree
    by_cases same : other = zone
    · simp [same]
    · have before : other ∈ log.handout.manager.free := by simpa [freed, same] using inFree
      simpa [same] using placed.blank other before
  case queued =>
    intro other inActive
    have same : other ≠ zone := fun here => notActive (here ▸ inActive)
    simpa [freed, same] using placed.queued other inActive
  case held =>
    intro pair inHeld
    have same : pair.zone ≠ zone := notHeld pair inHeld
    simpa [freed, same] using placed.held pair inHeld
  case retried =>
    intro other failed waiting
    obtain ⟨inActive, offsetIs⟩ := placed.retried other failed waiting
    have same : other ≠ zone := fun here => notActive (here ▸ inActive)
    exact ⟨inActive, by simpa [same] using offsetIs⟩

theorem Placed.mark (placed : Placed maxChunks log) (location : ZnPair) :
    Placed maxChunks
      ⟨⟨zsmMarkChunkInvalid log.handout.manager location, log.handout.outstanding⟩,
        log.written, log.retry⟩ := by
  obtain ⟨_, _, notFull, zoneIds⟩ := placed.keptOnce.setInvalid location.zone
    ((log.handout.manager.state location.zone).invalid ++ [location.chunkOffset])
  have offset : ∀ zone,
      ((zsmMarkChunkInvalid log.handout.manager location).state zone).chunkOffset =
        (log.handout.manager.state zone).chunkOffset := by
    intro zone
    by_cases same : zone = location.zone
    · simp [zsmMarkChunkInvalid, same]
    · simp [zsmMarkChunkInvalid, same]
  refine { placed with notFull := notFull, zoneIds := zoneIds, queued := ?_, held := ?_ }
  · intro zone member
    rw [offset]
    exact placed.queued zone member
  · intro pair member
    rw [offset]
    exact placed.held pair member

theorem Placed.returned (placed : Placed maxChunks log) (fits : maxChunks < 2 ^ 32)
    {pair : ZnPair} (member : pair ∈ log.handout.outstanding) {ret : Int}
    {manager : ZoneStateManager}
    (spec : ReturnSpec 0 log.handout.manager pair.zone ret manager) :
    Placed maxChunks
      ⟨⟨manager, log.handout.outstanding.erase pair⟩,
        Function.update log.written pair.zone (log.written pair.zone ++ [pair.chunkOffset]),
        log.retry⟩ := by
  obtain ⟨offsetIs, room, own⟩ := placed.held pair member
  have advanced : u32 ((log.handout.manager.state pair.zone).chunkOffset + 1) =
      (log.written pair.zone).length + 1 := by
    rw [offsetIs]
    exact_mod_cast u32_of_nat (by omega)
  have grown : log.written pair.zone ++ [pair.chunkOffset] =
      List.range ((log.written pair.zone).length + 1) := by
    rw [List.range_succ, ← placed.inOrder pair.zone, own]
  have inKept : pair.zone ∈ kept log.handout := mem_kept.mpr (.inr ⟨pair, member, rfl⟩)
  cases spec with
  | reopened offset offsetNext notLast =>
      rw [advanced] at offsetNext
      rw [placed.sameMax] at notLast
      rw [grown, ← offsetNext]
      exact placed.reopen member (by omega) fun zone failed waits => .inr waits
  | alreadyFull last full => exact absurd full (placed.notFull pair.zone inKept)
  | finished last =>
      rw [advanced, placed.sameMax] at last
      rw [grown, last]
      exact placed.finish member
  | failed last notFull failure => exact absurd (backendRet_zero _) failure

theorem nowRetry_of_nothing {openRet : Int}
    (nothing : (zsmGetActiveZone openRet log.handout.manager).ret.hands = 0) :
    log.nowRetry (.getActiveZone openRet) = log.retry := by
  simp only [nowRetry]
  split
  next pair handed => simp [handed, GetActiveZone.hands] at nothing
  next => rfl

theorem Placed.nowRetry_of_handed (placed : Placed maxChunks log) {openRet : Int}
    {zone offset : Nat} (handed : (zsmGetActiveZone openRet log.handout.manager).ret =
      .success ⟨(log.handout.manager.state zone).zoneId, offset, 0, false⟩) :
    log.nowRetry (.getActiveZone openRet) = Function.update log.retry zone none := by
  simp [nowRetry, handed, placed.zoneIds zone]

theorem Placed.step (placed : Placed maxChunks log) (positive : 0 < maxChunks)
    (fits : maxChunks < 2 ^ 32) {call : ZsmCall} (success : call.commandRet = 0)
    (taken : log.step call = some next) : Placed maxChunks next := by
  obtain ⟨handout, moved, rfl⟩ := Option.map_eq_some_iff.mp taken
  cases Handout.step_spec moved with
  | refused openRet nothing =>
      rw [nowRetry_of_nothing nothing]
      exact placed
  | dropped openRet zone rest nothing head =>
      rw [nowRetry_of_nothing nothing]
      obtain ⟨once, inRange, notFull, _⟩ := placed.keptOnce.drop head
      exact { placed with
        once := once
        inRange := inRange
        notFull := notFull
        blank := fun other member => placed.blank other (head ▸ List.mem_cons_of_mem _ member) }
  | resumed openRet zone active handed head =>
      have queued := placed.queued zone (by simp [head])
      rw [placed.nowRetry_of_handed handed]
      apply placed.handOut _ (fun _ => id) _ _ queued.1 queued.2
      · rw [head, ← Multiset.cons_coe, Multiset.add_cons]
      · exact fun other member => head ▸ List.mem_cons_of_mem _ member
      · exact fun other member => List.mem_cons.mp (head ▸ member)
  | opened openRet zone rest handed noActive head =>
      have blank := placed.blank zone (by simp [head])
      rw [placed.nowRetry_of_handed handed]
      apply placed.handOut
      · rw [head, noActive, ← Multiset.cons_coe, Multiset.cons_add]
      · exact fun other member => head ▸ List.mem_cons_of_mem _ member
      · exact fun other member => absurd member List.not_mem_nil
      · exact fun other member => absurd (noActive ▸ member) List.not_mem_nil
      · simp [blank]
      · simpa [blank] using positive
  | returned finishRet pair ret manager member spec =>
      cases success
      exact placed.returned fits member spec
  | failedToWrite pair member =>
      obtain ⟨offsetIs, room, own⟩ := placed.held pair member
      have sameWritten : log.nowWritten (.failedToWrite pair) = Function.update log.written
          pair.zone (List.range (log.written pair.zone).length) := by
        rw [← placed.inOrder pair.zone, Function.update_eq_self]
        rfl
      rw [zsmFailedToWrite_state, offsetIs, sameWritten]
      apply placed.reopen member room
      intro zone failed waits
      by_cases same : zone = pair.zone
      · subst same
        simp only [nowRetry, Function.update_self, Option.some.injEq] at waits
        exact .inl ⟨rfl, waits.symm.trans own⟩
      · exact .inr (by simpa [nowRetry, same] using waits)
  | evicted resetRet zone manager inRange full spec =>
      cases success
      cases spec with
      | alreadyFree free => simp [full] at free
      | reset => exact placed.reset inRange full
      | failed _ failure => exact absurd (backendRet_zero _) failure
  | marked location => exact placed.mark location

end Step

end PlacementLog

/-! ## Addresses -/

def chunkBytes (zoneSize chunkSize : Nat) (place : Nat × Nat) : Set Nat :=
  Set.Ico (chunkPointer zoneSize chunkSize place.2 place.1)
    (chunkPointer zoneSize chunkSize place.2 place.1 + chunkSize)

section Address

variable {numZones zoneCap zoneSize chunkSize : Nat}

theorem chunk_within {place : Nat × Nat} (fits : zoneCap ≤ zoneSize)
    (offset : place.2 < zoneCap / chunkSize) :
    place.2 * chunkSize + chunkSize ≤ zoneSize := by
  calc place.2 * chunkSize + chunkSize = (place.2 + 1) * chunkSize :=
        (Nat.succ_mul _ _).symm
    _ ≤ zoneCap / chunkSize * chunkSize := Nat.mul_le_mul_right _ offset
    _ ≤ zoneCap := Nat.div_mul_le_self _ _
    _ ≤ zoneSize := fits

theorem chunkPointer_exact {place : Nat × Nat} (fits : zoneCap ≤ zoneSize)
    (device : zoneSize * numZones < 2 ^ 64) (zone : place.1 < numZones)
    (offset : place.2 < zoneCap / chunkSize) :
    chunkPointer zoneSize chunkSize place.2 place.1 =
        zoneSize * place.1 + place.2 * chunkSize ∧
      chunkPointer zoneSize chunkSize place.2 place.1 + chunkSize ≤
        zoneSize * (place.1 + 1) ∧
      chunkPointer zoneSize chunkSize place.2 place.1 + chunkSize < 2 ^ 64 := by
  have within := chunk_within fits offset
  have inDevice : zoneSize * (place.1 + 1) ≤ zoneSize * numZones :=
    Nat.mul_le_mul_left _ zone
  have next : zoneSize * (place.1 + 1) = zoneSize * place.1 + zoneSize := Nat.mul_succ _ _
  have exact : chunkPointer zoneSize chunkSize place.2 place.1 =
      zoneSize * place.1 + place.2 * chunkSize := by
    unfold chunkPointer
    by_cases empty : chunkSize = 0
    · simp [empty] at offset
    · exact Nat.mod_eq_of_lt (by omega)
  refine ⟨exact, ?_, ?_⟩
  · rw [exact]
    omega
  · rw [exact]
    omega

theorem chunkBytes_disjoint {place other : Nat × Nat} (fits : zoneCap ≤ zoneSize)
    (device : zoneSize * numZones < 2 ^ 64)
    (inDevice : place.1 < numZones ∧ place.2 < zoneCap / chunkSize)
    (otherInDevice : other.1 < numZones ∧ other.2 < zoneCap / chunkSize)
    (apart : place ≠ other) :
    Disjoint (chunkBytes zoneSize chunkSize place) (chunkBytes zoneSize chunkSize other) := by
  obtain ⟨pointer, ends, _⟩ := chunkPointer_exact fits device inDevice.1 inDevice.2
  obtain ⟨otherPointer, otherEnds, _⟩ :=
    chunkPointer_exact fits device otherInDevice.1 otherInDevice.2
  rw [chunkBytes, chunkBytes, Set.Ico_disjoint_Ico]
  rcases Nat.lt_trichotomy place.1 other.1 with before | same | after
  · have order : zoneSize * (place.1 + 1) ≤ zoneSize * other.1 := Nat.mul_le_mul_left _ before
    omega
  · have offsets : place.2 ≠ other.2 := fun equal => apart (Prod.ext same equal)
    rw [pointer, otherPointer, same]
    rcases Nat.lt_or_gt_of_ne offsets with before | after
    · have order : (place.2 + 1) * chunkSize ≤ other.2 * chunkSize :=
        Nat.mul_le_mul_right _ before
      rw [Nat.succ_mul] at order
      omega
    · have order : (other.2 + 1) * chunkSize ≤ place.2 * chunkSize :=
        Nat.mul_le_mul_right _ after
      rw [Nat.succ_mul] at order
      omega
  · have order : zoneSize * (other.1 + 1) ≤ zoneSize * place.1 := Nat.mul_le_mul_left _ after
    omega

end Address

/-! ## Runs -/

namespace PlacementLog

section Live

variable {maxChunks : Nat} {log : PlacementLog}

theorem Placed.live_inDevice (placed : Placed maxChunks log) {place : Nat × Nat}
    (member : place ∈ log.live) :
    place.1 < log.handout.manager.numZones ∧ place.2 < maxChunks := by
  simp only [live, Multiset.mem_add, Multiset.mem_map, Multiset.mem_bind, Multiset.mem_range,
    Multiset.mem_coe, List.mem_map] at member
  rcases member with ⟨pair, inHeld, rfl⟩ | ⟨zone, below, offset, inZone, rfl⟩
  · obtain ⟨_, room, own⟩ := placed.held pair inHeld
    exact ⟨placed.inRange pair.zone (mem_kept.mpr (.inr ⟨pair, inHeld, rfl⟩)), own ▸ room⟩
  · rw [placed.inOrder zone, List.mem_range] at inZone
    exact ⟨below, inZone.trans_le (placed.within zone)⟩

/-- A zone whose last write failed is handed out at the offset of that write. -/
theorem Placed.repeats (placed : Placed maxChunks log) {openRet : Int} {pair : ZnPair}
    {failed : Nat} (handed : (zsmGetActiveZone openRet log.handout.manager).ret = .success pair)
    (waits : log.retry pair.zone = some failed) : pair.chunkOffset = failed := by
  obtain ⟨inActive, offsetIs⟩ := placed.retried _ _ waits
  have answer := zsmGetActiveZone_answer openRet log.handout.manager
  rw [handed] at answer
  generalize (zsmGetActiveZone openRet log.handout.manager).state = state at answer
  cases answer with
  | refused _ nothing => simp [GetActiveZone.hands] at nothing
  | dropped _ nothing => simp [GetActiveZone.hands] at nothing
  | resumed zone active head =>
      have queued := placed.queued zone (by simp [head])
      rw [offsetIs, queued.1, placed.zoneIds zone]
  | opened zone rest noActive head =>
      rw [noActive] at inActive
      cases inActive

theorem Placed.live_nodup (placed : Placed maxChunks log) : log.live.Nodup := by
  have heldOnce := (Multiset.nodup_add.mp placed.once).2.1
  refine Multiset.nodup_add.mpr ⟨?_, ?_, ?_⟩
  · apply Multiset.Nodup.of_map Prod.fst
    simpa using heldOnce
  · refine Multiset.nodup_bind.mpr ⟨fun zone _ => ?_, ?_⟩
    · rw [Multiset.coe_nodup, placed.inOrder zone]
      exact List.nodup_range.map fun _ _ same => (Prod.mk.inj same).2
    · refine Multiset.Nodup.pairwise ?_ (Multiset.nodup_range _)
      intro zone _ other _ apart
      rw [Function.onFun, Multiset.disjoint_left]
      intro place inZone inOther
      simp only [Multiset.mem_coe, List.mem_map] at inZone inOther
      obtain ⟨_, _, rfl⟩ := inZone
      obtain ⟨_, _, same⟩ := inOther
      exact apart (congrArg Prod.fst same).symm
  · rw [Multiset.disjoint_left]
    intro place outstanding written
    simp only [Multiset.mem_map, Multiset.mem_bind, Multiset.mem_coe, List.mem_map]
      at outstanding written
    obtain ⟨pair, inHeld, rfl⟩ := outstanding
    obtain ⟨zone, _, offset, inZone, same⟩ := written
    obtain ⟨rfl, rfl⟩ := Prod.mk.inj same
    rw [placed.inOrder pair.zone, List.mem_range, (placed.held pair inHeld).2.2] at inZone
    exact absurd inZone (lt_irrefl _)

end Live

abbrev Run (start log : PlacementLog) : Prop :=
  Reach step (fun _ call => call.commandRet = 0) (· = start) log

theorem step_numZones {call : ZsmCall} {log next : PlacementLog}
    (taken : log.step call = some next) :
    next.handout.manager.numZones = log.handout.manager.numZones := by
  obtain ⟨handout, moved, rfl⟩ := Option.map_eq_some_iff.mp taken
  cases Handout.step_spec moved with
  | returned finishRet pair ret manager member spec => exact spec.shape.numZones
  | evicted resetRet zone manager inRange full spec => exact spec.shape.numZones
  | refused | dropped | resumed | opened | failedToWrite | marked => rfl

/-- Chunks are given back at 0, 1, 2 and so on from each reset of their zone, a failed
write's offset is handed out next, and no two live chunks share a byte. -/
theorem sequential_placement {numZones zoneCap zoneSize chunkSize maxNrActiveZones : Nat}
    {backendType : ZnBackend} (someChunk : 1 ≤ chunkSize) (chunkFits : chunkSize ≤ zoneCap)
    (capFits : zoneCap ≤ zoneSize) (offsets : zoneCap / chunkSize < 2 ^ 32)
    (device : zoneSize * numZones < 2 ^ 64) {log : PlacementLog}
    (run : Run (init numZones zoneCap zoneSize chunkSize maxNrActiveZones backendType) log) :
    (∀ zone, log.written zone = List.range (log.written zone).length) ∧
      (∀ pair, (zsmGetActiveZone 0 log.handout.manager).ret = .success pair →
        ∀ failed, log.retry pair.zone = some failed → pair.chunkOffset = failed) ∧
      log.live.Nodup ∧
      ∀ place ∈ log.live,
        chunkPointer zoneSize chunkSize place.2 place.1 + chunkSize < 2 ^ 64 ∧
        ∀ other ∈ log.live, place ≠ other →
          Disjoint (chunkBytes zoneSize chunkSize place) (chunkBytes zoneSize chunkSize other) := by
  have placed : Placed (zoneCap / chunkSize) log := by
    apply run.invariant
    · intro _ equal
      subst equal
      exact Placed.init
    · intro before call after placed success taken
      exact placed.step (Nat.div_pos chunkFits someChunk) offsets success taken
  have sameZones : log.handout.manager.numZones = numZones := by
    apply run.invariant
    · intro _ equal
      subst equal
      rfl
    · exact fun before call after same _ taken => (step_numZones taken).trans same
  have inDevice : ∀ place ∈ log.live, place.1 < numZones ∧ place.2 < zoneCap / chunkSize :=
    fun place member => sameZones ▸ placed.live_inDevice member
  refine ⟨placed.inOrder, ?_, placed.live_nodup, fun place member => ⟨?_, ?_⟩⟩
  · exact fun pair handed failed waits => placed.repeats handed waits
  · exact (chunkPointer_exact capFits device (inDevice place member).1
      (inDevice place member).2).2.2
  · exact fun other otherMember =>
      chunkBytes_disjoint capFits device (inDevice place member) (inDevice other otherMember)

/-- A write that fails, is repeated and given back, and the next chunk of the zone. -/
def repeatedWrite : List ZsmCall :=
  [.getActiveZone 0, .failedToWrite ⟨0, 0, 0, false⟩, .getActiveZone 0,
    .returnActiveZone 0 ⟨0, 0, 0, false⟩, .getActiveZone 0]

theorem sequential_placement_repeatedWrite :
    ∃ log, runActions step (init 2 8 8 4 1 .zns) repeatedWrite = some log ∧
      log.live = {(0, 0), (0, 1)} ∧
      Disjoint (chunkBytes 8 4 (0, 0)) (chunkBytes 8 4 (0, 1)) := by
  obtain ⟨log, ran, live⟩ :
      ∃ log, runActions step (init 2 8 8 4 1 .zns) repeatedWrite = some log ∧
        log.live = {(0, 0), (0, 1)} := ⟨_, rfl, by decide⟩
  have reached : Run (init 2 8 8 4 1 .zns) log :=
    Reach.of_runActions repeatedWrite (Reach.start rfl) (by decide) ran
  obtain ⟨_, _, _, disjoint⟩ := sequential_placement (by decide) (by decide) (by decide)
    (by decide) (by decide) reached
  refine ⟨log, ran, live, (disjoint (0, 0) ?_).2 (0, 1) ?_ (by decide)⟩
  · simp [live]
  · simp [live]

end PlacementLog

end ZNCache
