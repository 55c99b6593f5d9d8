import ZNCache.ChunkTransfer
import ZNCache.Lib.ZonedStorage
import ZNCache.SystemPlacement

/-!
# The cache on a zoned device

The commands that the sections of `zn_cache_get` and `zn_fg_evict` issue, run against a
device that refuses what its zones do not allow.  As long as a chunk write that fails has
moved nothing, no command is ever refused, so that all that holds while the libzbd
commands succeed holds on such a device.  A chunk write that breaks off halfway has moved
the write pointer, and the zone manager hands the same chunk out again.
-/

set_option autoImplicit false

namespace ZNCache

open Tally Transition ZonedStorage ZoneStateManager

/-! ## The commands of each call -/

/-- `zbd_open_zones(fd, wp, 1)` in `open_zone`. -/
def openZoneCommands (manager : ZoneStateManager) (zone : Nat) : List Command :=
  if manager.activeZones ≥ manager.maxNrActiveZones then []
  else if manager.backendType = .zns then
    [.openZones (chunkPointer manager.zoneSize manager.chunkSize 0 (manager.state zone).zoneId) 1]
  else []

/-- `zbd_finish_zones(fd, wp, zone_cap)` in `close_zone`. -/
def closeZoneCommands (manager : ZoneStateManager) (zone : Nat) : List Command :=
  if (manager.state zone).state = .full then []
  else if manager.backendType = .zns then
    [.finishZones (chunkPointer manager.zoneSize manager.chunkSize 0 (manager.state zone).zoneId)
      manager.zoneCap]
  else []

/-- `zbd_reset_zones(fd, wp, zone_cap)` in `reset_zone`. -/
def resetZoneCommands (manager : ZoneStateManager) (zone : Nat) : List Command :=
  if (manager.state zone).state = .free then []
  else if manager.backendType = .zns then
    [.resetZones (chunkPointer manager.zoneSize manager.chunkSize 0 (manager.state zone).zoneId)
      manager.zoneCap]
  else []

def getActiveZoneCommands (manager : ZoneStateManager) : List Command :=
  if manager.activeZones = 0 ∧ manager.free.length = 0 then []
  else if manager.active.length = 0 ∧ manager.activeZones < manager.maxNrActiveZones then
    match manager.free with
    | [] => []
    | newZone :: rest => openZoneCommands { manager with free := rest } newZone
  else []

def returnActiveZoneCommands (manager : ZoneStateManager) (pair : ZnPair) : List Command :=
  if u32 ((manager.state pair.zone).chunkOffset + 1) = manager.maxZoneChunks then
    closeZoneCommands manager pair.zone
  else []

/-- The sizes of the pieces that the loop of `zn_write_out` writes from `total` on. -/
def pieceSizes (toWrite writeSize : Nat) : Nat → Nat → List Nat
  | 0, _ => []
  | fuel + 1, total =>
      if total < toWrite then
        (ChunkTransfer.writePlan toWrite writeSize).piece total ::
          pieceSizes toWrite writeSize fuel
            (total + (ChunkTransfer.writePlan toWrite writeSize).piece total)
      else []

section Pieces

variable {toWrite writeSize : Nat}

theorem pieceSizes_covers (positive : 0 < writeSize) (fuel : Nat) :
    ∀ {total : Nat}, total ≤ toWrite → toWrite ≤ total + fuel →
      (pieceSizes toWrite writeSize fuel total).sum = toWrite - total ∧
        (∀ size ∈ pieceSizes toWrite writeSize fuel total, 0 < size) ∧
        (total < toWrite → pieceSizes toWrite writeSize fuel total ≠ []) := by
  induction fuel with
  | zero =>
      intro total within enough
      have done : toWrite - total = 0 := by omega
      simp only [pieceSizes, List.sum_nil, List.not_mem_nil, false_implies, implies_true, done,
        true_and]
      omega
  | succ fuel ih =>
      intro total within enough
      rw [pieceSizes]
      split
      next more =>
          have piece := @ChunkTransfer.writePlan_piece toWrite writeSize total
          obtain ⟨sum, sizes, _⟩ := @ih (total + min (toWrite - total) writeSize) (by omega)
            (by omega)
          rw [piece]
          refine ⟨?_, fun size member => ?_, fun _ => by simp⟩
          · rw [List.sum_cons, sum]
            omega
          · rcases List.mem_cons.mp member with rfl | later
            · omega
            · exact sizes size later
      next done =>
          refine ⟨?_, fun _ member => absurd member List.not_mem_nil, fun more => absurd more done⟩
          rw [List.sum_nil]
          omega

end Pieces

/-! ## What is asked of the device -/

/-- What a section asks of the device: libzbd commands, or the write of a chunk in pieces. -/
inductive Request where
  | zone (commands : List Command)
  | chunk (offset : Nat) (sizes : List Nat)

namespace Request

variable {device after answered : Device} {environment : Environment} {commands : List Command}
  {offset moved : Nat} {sizes : List Nat}

def Accepted (device : Device) : Request → Prop
  | zone commands => ∃ after, device.run commands = some after
  | chunk offset sizes => ∃ after, device.run (Device.writes offset sizes) = some after

/-- The device after a request that the environment answers; a command that is refused
returns an error, and a chunk write that fails has written its first `moved` bytes. -/
def run (device : Device) (environment : Environment) (moved : Nat) : Request → Option Device
  | chunk offset sizes =>
      if environment.commandRet ≠ 0 then none
      else device.run (Device.writes offset
        (if environment.transfers then sizes else Device.torn moved sizes))
  | zone commands =>
      match device.run commands with
      | some after => if environment.commandRet = 0 then some after else none
      | none => if environment.commandRet = 0 then none else some device

theorem run_zone (ran : device.run commands = some after)
    (answer : (zone commands).run device environment moved = some answered) :
    environment.commandRet = 0 ∧ answered = after := by
  simp only [run, ran] at answer
  split at answer
  next success => exact ⟨success, (Option.some.inj answer).symm⟩
  next => cases answer

theorem run_chunk (ran : device.run (Device.writes offset sizes) = some after)
    (untorn : environment.transfers = false → moved = 0)
    (answer : (chunk offset sizes).run device environment moved = some answered) :
    environment.commandRet = 0 ∧ answered = if environment.transfers then after else device := by
  simp only [run] at answer
  split at answer
  next => cases answer
  next success =>
      refine ⟨not_not.mp success, ?_⟩
      cases transfers : environment.transfers with
      | true =>
          rw [transfers, if_pos rfl, ran] at answer
          exact (Option.some.inj answer).symm
      | false =>
          rw [untorn transfers, transfers, if_neg Bool.false_ne_true, Device.torn_zero] at answer
          exact (Option.some.inj answer).symm

end Request

/-- The write of a chunk; each piece has at least one byte. -/
def chunkWrite (config : CacheConfig) (ioSize : Nat) (pair : ZnPair) : Request :=
  .chunk (chunkPointer config.zoneSize config.chunkSz pair.chunkOffset pair.zone)
    (pieceSizes config.chunkSz ioSize config.chunkSz 0)

def GetPc.request (config : CacheConfig) (ioSize : Nat) (manager : ZoneStateManager) :
    GetPc → Request
  | acquire _ => .zone (getActiveZoneCommands manager)
  | giveBack _ pair => .zone (returnActiveZoneCommands manager pair)
  | write _ pair => chunkWrite config ioSize pair
  | find _ | asleep _ | read _ _ | touch _ _ _ | release _ _ _ | countHit _ _ => .zone []
  | countMiss _ _ | record _ _ | insert _ _ | undoZone _ _ | undoMap _ => .zone []

def EvictPc.request (manager : ZoneStateManager) : EvictPc → Request
  | reset _ _ zone => .zone (resetZoneCommands manager zone)
  | start | loop _ _ | clear _ _ _ | wait _ _ _ => .zone []

def ThreadPc.request (config : CacheConfig) (ioSize : Nat) (manager : ZoneStateManager) :
    ThreadPc EvictPc → Request
  | idle => .zone []
  | get pc => pc.request config ioSize manager
  | evict _ code => code.request manager

variable {Thread : Type}

structure DeviceSystem (Thread : Type) where
  system : PromotionalSystem Thread
  device : Device

namespace DeviceSystem

variable [DecidableEq Thread]

/-- A step whose environment answers as the device does, with the number of bytes that its
chunk write moves should it fail. -/
def step (config : CacheConfig) (ioSize : Nat) (whole : DeviceSystem Thread)
    (action : (Thread × Choice) × Nat) : Option (DeviceSystem Thread) :=
  match action.1.2 with
  | .run environment =>
      (((whole.system.threads action.1.1).request config ioSize
        whole.system.cache.zoneState).run whole.device environment action.2).bind fun device =>
          (whole.system.step (promotionalCode config) action.1).map fun system =>
            ⟨system, device⟩
  | _ =>
      (whole.system.step (promotionalCode config) action.1).map fun system =>
        ⟨system, whole.device⟩

end DeviceSystem

/-- A chunk write that fails has moved nothing. -/
def Untorn (action : (Thread × Choice) × Nat) : Prop :=
  ∀ environment, action.1.2 = .run environment → environment.transfers = false → action.2 = 0

theorem untorn_of_none {State : Type} {step : State → (Thread × Choice) × Nat → Option State}
    (actions : List (Thread × Choice)) (state : State) :
    AllowedAlong step (fun _ action => Untorn action) state
      (actions.map fun action => (action, 0)) := by
  refine AllowedAlong.of_forall _ _ fun action member _ => ?_
  obtain ⟨_, _, rfl⟩ := List.mem_map.mp member
  exact fun _ _ _ => rfl

/-! ## Agreement of zones and device -/

/-- The pair that a thread holds, and how many chunks it has on the device beyond the
offset of its pair. -/
def GetPc.progress : GetPc → Multiset (ZnPair × Nat)
  | write _ location | undoZone _ location => {(location, 0)}
  | countMiss _ location | giveBack _ location => {(location, 1)}
  | find _ | asleep _ | read _ _ | touch _ _ _ | release _ _ _ | countHit _ _ => 0
  | acquire _ | record _ _ | insert _ _ | undoMap _ => 0

def ThreadPc.progress {Local : Type} : ThreadPc Local → Multiset (ZnPair × Nat) :=
  lift GetPc.progress

theorem GetPc.progress_holds (pc : GetPc) : pc.progress.map Prod.fst = pc.holds := by
  cases pc <;> rfl

theorem ThreadPc.progress_holds {Local : Type} (pc : ThreadPc Local) :
    pc.progress.map Prod.fst = pc.holds := by
  cases pc with
  | idle | evict => rfl
  | get pc => exact pc.progress_holds

theorem tally_progress [Fintype Thread] (threads : Thread → ThreadPc EvictPc) :
    (tally ThreadPc.progress threads).map Prod.fst = tally ThreadPc.holds threads := by
  have mapped := map_sum (Multiset.mapAddMonoidHom Prod.fst)
    (fun thread => (threads thread).progress) Finset.univ
  simp only [Multiset.coe_mapAddMonoidHom, ThreadPc.progress_holds] at mapped
  exact mapped

section Agreement

variable {config : CacheConfig}

def Filled (config : CacheConfig) (device : Device) (zone chunks : Nat) : Prop :=
  device.wp zone = chunks * config.chunkSz ∧
    device.condition zone =
      if chunks * config.chunkSz = config.zoneCap then .full else .opened

structure ZoneFits (config : CacheConfig) (manager : ZoneStateManager)
    (progress : Multiset (ZnPair × Nat)) (device : Device) (zone : Nat) : Prop where
  free : (manager.state zone).state = .free → device.condition zone = .empty
  active : (manager.state zone).state = .active →
    Filled config device zone (manager.state zone).chunkOffset
  held : ∀ entry ∈ progress, entry.1.zone = zone →
    Filled config device zone (entry.1.chunkOffset + entry.2)
  full : (manager.state zone).state = .full → device.condition zone = .full

structure Geometry (config : CacheConfig) (device : Device) : Prop where
  zoneSize : device.zoneSize = config.zoneSize
  zoneCap : device.zoneCap = config.zoneCap
  nrZones : config.nrZones ≤ device.nrZones
  maxOpen : config.maxActive ≤ device.maxOpen

structure DeviceFits (config : CacheConfig) (manager : ZoneStateManager)
    (progress : Multiset (ZnPair × Nat)) (device : Device) : Prop where
  geometry : Geometry config device
  zones : ∀ zone < config.nrZones, ZoneFits config manager progress device zone
  beyond : ∀ zone, config.nrZones ≤ zone → device.condition zone = .empty

variable {manager manager' : ZoneStateManager} {progress progress' : Multiset (ZnPair × Nat)}
  {device device' : Device} {zone : Nat}

theorem ZoneFits.congr (fits : ZoneFits config manager progress device zone)
    (sameEntry : manager'.state zone = manager.state zone)
    (sameCondition : device'.condition zone = device.condition zone)
    (sameWp : device'.wp zone = device.wp zone)
    (fewer : ∀ entry ∈ progress', entry.1.zone = zone → entry ∈ progress) :
    ZoneFits config manager' progress' device' zone := by
  have filled : ∀ {chunks}, Filled config device zone chunks →
      Filled config device' zone chunks := by
    intro chunks
    unfold Filled
    rw [sameCondition, sameWp]
    exact id
  constructor
  · rw [sameEntry, sameCondition]
    exact fits.free
  · rw [sameEntry]
    exact fun active => filled (fits.active active)
  · exact fun entry member here => filled (fits.held entry (fewer entry member here) here)
  · rw [sameEntry, sameCondition]
    exact fits.full

/-- One zone moves on, in the manager, on the device or in a thread's hands. -/
theorem DeviceFits.moveZone (fits : DeviceFits config manager progress device)
    (inDevice : zone < config.nrZones) (entry : ZnZone) {condition : Condition} {wp : Nat}
    (sameEntries : manager'.state = Function.update manager.state zone entry)
    (moved : device' = device.setZone zone condition wp)
    (fewer : ∀ entry ∈ progress', entry.1.zone ≠ zone → entry ∈ progress)
    (here : ZoneFits config manager' progress' device' zone) :
    DeviceFits config manager' progress' device' := by
  subst moved
  refine ⟨⟨fits.geometry.zoneSize, fits.geometry.zoneCap, fits.geometry.nrZones,
    fits.geometry.maxOpen⟩, fun other below => ?_, fun other beyond => ?_⟩
  · by_cases same : other = zone
    · exact same ▸ here
    · refine (fits.zones other below).congr ?_ ?_ ?_ fun entry member own =>
        fewer entry member fun there => same (own.symm.trans there)
      · rw [sameEntries, Function.update_of_ne same]
      · exact Function.update_of_ne same _ _
      · exact Function.update_of_ne same _ _
  · have apart : other ≠ zone := by omega
    rw [Device.setZone_condition, Function.update_of_ne apart]
    exact fits.beyond other beyond

theorem DeviceFits.moveEntry (fits : DeviceFits config manager progress device)
    (inDevice : zone < config.nrZones) (entry : ZnZone)
    (sameEntries : manager'.state = Function.update manager.state zone entry)
    (fewer : ∀ entry ∈ progress', entry.1.zone ≠ zone → entry ∈ progress)
    (here : ZoneFits config manager' progress' device zone) :
    DeviceFits config manager' progress' device := by
  have same : device = device.setZone zone (device.condition zone) (device.wp zone) := by
    simp [Device.setZone]
  exact fits.moveZone inDevice entry sameEntries same fewer here

/-- The device has no more zones open than the manager has in play. -/
theorem DeviceFits.openCount_le (fits : DeviceFits config manager progress device)
    (sound : ZonesSound manager (progress.map Prod.fst))
    (numZones : manager.numZones = config.nrZones) :
    device.openCount ≤ manager.active.length + progress.card := by
  have inPlay := sound.partition.inPlay_card
  rw [Multiset.card_map] at inPlay
  rw [Device.openCount, ← inPlay]
  refine Finset.card_le_card fun zone member => ?_
  obtain ⟨_, opened⟩ := Finset.mem_filter.mp member
  have below : zone < config.nrZones := by
    by_contra beyond
    rw [fits.beyond zone (Nat.le_of_not_lt beyond)] at opened
    cases opened
  have zoneFits := fits.zones zone below
  rw [Finset.mem_filter, Finset.mem_range, numZones]
  refine ⟨below, ?_⟩
  cases state : (manager.state zone).state with
  | active => exact .inl rfl
  | writeOccuring => exact .inr rfl
  | free =>
      rw [zoneFits.free state] at opened
      cases opened
  | full =>
      rw [zoneFits.full state] at opened
      cases opened

end Agreement

/-! ## The calls on the device -/

/-- What the configuration and the transfers need for the device to be used as zones. -/
structure ZnsSetup (config : CacheConfig) (ioSize : Nat) : Prop where
  zns : config.backend = .zns
  someChunk : 1 ≤ config.chunkSz
  chunkFits : config.chunkSz ≤ config.zoneCap
  capFits : config.zoneCap ≤ config.zoneSize
  offsets : config.maxZoneChunks < 2 ^ 32
  addresses : config.zoneSize * config.nrZones < 2 ^ 64
  ioSize : 0 < ioSize

structure SetUpBy (config : CacheConfig) (manager : ZoneStateManager) : Prop where
  numZones : manager.numZones = config.nrZones
  maxZoneChunks : manager.maxZoneChunks = config.maxZoneChunks
  maxNrActiveZones : manager.maxNrActiveZones = config.maxActive
  backendType : manager.backendType = config.backend
  zoneSize : manager.zoneSize = config.zoneSize
  zoneCap : manager.zoneCap = config.zoneCap
  chunkSize : manager.chunkSize = config.chunkSz

theorem SetUpBy.init {config : CacheConfig} :
    SetUpBy config (zsmInit config.nrZones config.zoneCap config.zoneSize config.chunkSz
      config.maxActive config.backend) :=
  ⟨rfl, rfl, rfl, rfl, rfl, rfl, rfl⟩

theorem SetUpBy.step {config : CacheConfig} (handout : Handout) {after : Handout}
    (made : SetUpBy config handout.manager) {call : ZsmCall}
    (taken : handout.step call = some after) : SetUpBy config after.manager := by
  obtain ⟨numZones, maxChunks, maxActive, backend, zoneSize, zoneCap, chunkSize⟩ := made
  cases Handout.step_spec taken with
  | returned finishRet pair ret manager member spec =>
      cases spec <;> exact ⟨numZones, maxChunks, maxActive, backend, zoneSize, zoneCap, chunkSize⟩
  | evicted resetRet zone manager inRange full spec =>
      cases spec <;> exact ⟨numZones, maxChunks, maxActive, backend, zoneSize, zoneCap, chunkSize⟩
  | refused | dropped | resumed | opened | failedToWrite | marked =>
      exact ⟨numZones, maxChunks, maxActive, backend, zoneSize, zoneCap, chunkSize⟩

section Calls

variable {config : CacheConfig} {ioSize : Nat} {manager : ZoneStateManager}
  {progress : Multiset (ZnPair × Nat)} {device : Device} {zone : Nat}

theorem ZnsSetup.zonePointer (setup : ZnsSetup config ioSize) (made : SetUpBy config manager)
    (sound : ZonesSound manager (progress.map Prod.fst)) (inDevice : zone < config.nrZones) :
    chunkPointer manager.zoneSize manager.chunkSize 0 (manager.state zone).zoneId =
      config.zoneSize * zone := by
  have address : config.zoneSize * zone ≤ config.zoneSize * config.nrZones :=
    Nat.mul_le_mul_left _ (Nat.le_of_lt inDevice)
  have below := setup.addresses
  rw [made.zoneSize, sound.entries.zoneId, chunkPointer, Nat.zero_mul, Nat.add_zero]
  exact Nat.mod_eq_of_lt (by omega)

theorem ZnsSetup.capPositive (setup : ZnsSetup config ioSize) : 0 < config.zoneCap :=
  Nat.lt_of_lt_of_le setup.someChunk setup.chunkFits

theorem Filled.opened {chunks : Nat} (filled : Filled config device zone chunks)
    (setup : ZnsSetup config ioSize) (room : chunks < config.maxZoneChunks) :
    device.condition zone = .opened ∧ device.wp zone = chunks * config.chunkSz ∧
      chunks * config.chunkSz + config.chunkSz ≤ config.zoneCap := by
  have fits : chunks * config.chunkSz + config.chunkSz ≤ config.zoneCap := by
    calc chunks * config.chunkSz + config.chunkSz = (chunks + 1) * config.chunkSz :=
          (Nat.succ_mul _ _).symm
      _ ≤ config.zoneCap / config.chunkSz * config.chunkSz := Nat.mul_le_mul_right _ room
      _ ≤ config.zoneCap := Nat.div_mul_le_self _ _
  have notYet : chunks * config.chunkSz ≠ config.zoneCap := by
    have someChunk := setup.someChunk
    omega
  refine ⟨?_, filled.1, fits⟩
  rw [filled.2, if_neg notYet]

theorem ZonesSound.unheld (sound : ZonesSound manager (progress.map Prod.fst))
    (notWriting : (manager.state zone).state ≠ .writeOccuring) :
    ∀ entry ∈ progress, entry.1.zone ≠ zone := by
  intro entry member same
  have held : entry.1 ∈ progress.map Prod.fst := Multiset.mem_map_of_mem Prod.fst member
  exact notWriting (same ▸ (sound.outstanding held).1)

theorem DeviceFits.handOut {offset : Nat} {active free : List Nat} {condition : Condition}
    {wp : Nat} (fits : DeviceFits config manager progress device)
    (sound : ZonesSound manager (progress.map Prod.fst)) (inDevice : zone < config.nrZones)
    (notWriting : (manager.state zone).state ≠ .writeOccuring)
    (filled : Filled config (device.setZone zone condition wp) zone offset) :
    DeviceFits config (handedOut manager zone offset active free)
      ((⟨(manager.state zone).zoneId, offset, 0, false⟩, 0) ::ₘ progress)
      (device.setZone zone condition wp) := by
  refine fits.moveZone inDevice
    { manager.state zone with state := .writeOccuring, chunkOffset := offset } rfl rfl ?_ ?_
  · intro entry member apart
    rcases Multiset.mem_cons.mp member with rfl | before
    · exact absurd (sound.entries.zoneId zone) apart
    · exact before
  · constructor
    · simp [handedOut]
    · simp [handedOut]
    · intro entry member here
      rcases Multiset.mem_cons.mp member with rfl | before
      · exact filled
      · exact absurd here (sound.unheld notWriting entry before)
    · simp [handedOut]

/-- The zone manager opens a zone only while the device has room for it. -/
theorem DeviceFits.getActiveZone (fits : DeviceFits config manager progress device)
    (setup : ZnsSetup config ioSize) (made : SetUpBy config manager)
    (sound : ZonesSound manager (progress.map Prod.fst)) :
    ∃ after, device.run (getActiveZoneCommands manager) = some after ∧
      DeviceFits config (zsmGetActiveZone 0 manager).state
        ((zsmGetActiveZone 0 manager).ret.hands.map (·, 0) + progress) after := by
  have answer := sound.partition.getActiveZone_spec sound.counts 0
  generalize zsmGetActiveZone 0 manager = outcome at answer ⊢
  cases answer with
  | evict noActive noFree noWriter =>
      refine ⟨device, ?_, by simpa [GetActiveZone.hands] using fits⟩
      simp [getActiveZoneCommands, noFree, noWriter, Device.run]
  | retry noActive blocked busy =>
      refine ⟨device, ?_, by simpa [GetActiveZone.hands] using fits⟩
      rcases blocked with noFree | noRoom
      · simp [getActiveZoneCommands, noFree, Device.run]
      · simp [getActiveZoneCommands, Nat.not_lt.mpr noRoom, Device.run]
  | error _ _ _ _ failed => exact absurd (backendRet_zero _) failed
  | success zone offset active free drawn asserts checked =>
      simp only [GetActiveZone.hands, Multiset.map_singleton, Multiset.singleton_add]
      cases drawn with
      | activeQueue head sameFree resumed =>
          obtain ⟨below, isActive⟩ := (sound.partition.activeIff zone).mp (by simp [head])
          rw [made.numZones] at below
          have filled := (fits.zones zone below).active isActive
          have same : device.setZone zone (device.condition zone) (device.wp zone) = device := by
            simp [Device.setZone]
          refine ⟨device, by simp [getActiveZoneCommands, head, Device.run], ?_⟩
          rw [resumed]
          rw [← same] at filled ⊢
          exact fits.handOut sound below (by simp [isActive]) filled
      | freeQueue noActive stillNone head restart room =>
          obtain ⟨below, isFree⟩ := (sound.partition.freeIff zone).mp (by simp [head])
          rw [made.numZones] at below
          have deviceRoom : device.openCount < device.maxOpen := by
            have opened := fits.openCount_le sound made.numZones
            have play := sound.partition.activeZones_eq sound.counts
            rw [Multiset.card_map] at play
            rw [made.maxNrActiveZones, play] at room
            exact (opened.trans_lt room).trans_le fits.geometry.maxOpen
          have commands : getActiveZoneCommands manager =
              [.openZones (device.zoneSize * zone) 1] := by
            have pointer := setup.zonePointer made sound below
            have zns : manager.backendType = .zns := made.backendType.trans setup.zns
            have roomAfter : ¬ manager.maxNrActiveZones ≤
                activeZones { manager with free := free } := Nat.not_le.mpr room
            have opens : openZoneCommands { manager with free := free } zone =
                [.openZones (device.zoneSize * zone) 1] := by
              rw [openZoneCommands, if_neg roomAfter, if_pos zns, fits.geometry.zoneSize]
              exact congrArg (fun start => [Command.openZones start 1]) pointer
            rw [getActiveZoneCommands, if_neg (by simp [head]),
              if_pos ⟨by simp [noActive], room⟩]
            simp only [head]
            exact opens
          refine ⟨device.setZone zone .opened 0, ?_, ?_⟩
          · rw [commands, Device.run_openZones (below.trans_le fits.geometry.nrZones)
              Nat.one_pos]
            · exact Device.openZone_empty ((fits.zones zone below).free isFree) deviceRoom
            · rw [fits.geometry.zoneSize]
              exact setup.capPositive.trans_le setup.capFits
          · subst restart
            refine fits.handOut sound below (by simp [isFree]) ⟨by simp, ?_⟩
            rw [Nat.zero_mul, if_neg setup.capPositive.ne]
            simp

variable {pair : ZnPair} {chunks : Nat}

theorem ZonesSound.alone
    (sound : ZonesSound manager (((pair, chunks) ::ₘ progress).map Prod.fst)) :
    ∀ entry ∈ progress, entry.1.zone ≠ pair.zone := by
  intro entry member same
  have nodup := sound.partition.heldNodup
  rw [Multiset.map_cons, Multiset.map_cons, Multiset.nodup_cons] at nodup
  have inside := Multiset.mem_map_of_mem ZnPair.zone (Multiset.mem_map_of_mem Prod.fst member)
  exact nodup.1 (same ▸ inside)

theorem ZonesSound.held_below
    (sound : ZonesSound manager (((pair, chunks) ::ₘ progress).map Prod.fst))
    (made : SetUpBy config manager) : pair.zone < config.nrZones := by
  rw [← made.numZones]
  exact ((sound.partition.heldIff pair.zone).mp (by simp)).1

theorem DeviceFits.putBack (fits : DeviceFits config manager ((pair, chunks) ::ₘ progress) device)
    (made : SetUpBy config manager)
    (sound : ZonesSound manager (((pair, chunks) ::ₘ progress).map Prod.fst))
    {after : ZoneStateManager} (moved : after.state = Function.update manager.state pair.zone
      (returnedZone (manager.state pair.zone) .active (pair.chunkOffset + chunks))) :
    DeviceFits config after progress device := by
  have below := sound.held_below made
  have filled := (fits.zones pair.zone below).held (pair, chunks) (by simp) rfl
  refine fits.moveEntry below _ moved (fun entry member _ => Multiset.mem_cons_of_mem member) ?_
  constructor
  · simp [moved, returnedZone]
  · simpa [moved, returnedZone] using filled
  · exact fun entry member here => absurd here (sound.alone entry member)
  · simp [moved, returnedZone]

theorem DeviceFits.failedToWrite
    (fits : DeviceFits config manager ((pair, 0) ::ₘ progress) device)
    (made : SetUpBy config manager)
    (sound : ZonesSound manager (((pair, 0) ::ₘ progress).map Prod.fst)) :
    DeviceFits config (zsmFailedToWrite manager pair).state progress device := by
  refine fits.putBack made sound ?_
  rw [zsmFailedToWrite_state, ← sound.partition.heldOffset pair (by simp)]
  rfl

/-- Only a zone whose chunks are all written is finished, and the device finishes it. -/
theorem DeviceFits.returnActiveZone
    (fits : DeviceFits config manager ((pair, 1) ::ₘ progress) device)
    (setup : ZnsSetup config ioSize) (made : SetUpBy config manager)
    (sound : ZonesSound manager (((pair, 1) ::ₘ progress).map Prod.fst)) :
    ∃ after, device.run (returnActiveZoneCommands manager pair) = some after ∧
      DeviceFits config (zsmReturnActiveZone 0 manager pair).state progress after := by
  have below := sound.held_below made
  have offset := sound.partition.heldOffset pair (by simp)
  have held : pair ∈ ((pair, 1) ::ₘ progress).map Prod.fst := by simp
  have writing := (sound.outstanding held).1
  have returned := zsmReturnActiveZone_spec 0 manager pair
  generalize (zsmReturnActiveZone 0 manager pair).state = after at returned ⊢
  generalize (zsmReturnActiveZone 0 manager pair).ret = ret at returned
  cases returned with
  | reopened next advanced notLast =>
      rw [advanced] at notLast
      have counts := sound.entries.advance writing (made.maxZoneChunks ▸ setup.offsets) notLast
      refine ⟨device, by simp [returnActiveZoneCommands, notLast, Device.run],
        fits.putBack made sound ?_⟩
      rw [offset, advanced, counts]
      rfl
  | alreadyFull _ full => simp [writing] at full
  | failed _ _ failure => exact absurd (backendRet_zero _) failure
  | finished last notFull done =>
      have commands : returnActiveZoneCommands manager pair =
          [.finishZones (device.zoneSize * pair.zone) config.zoneCap] := by
        have pointer := setup.zonePointer made sound below
        have zns : manager.backendType = .zns := made.backendType.trans setup.zns
        rw [returnActiveZoneCommands, if_pos last, closeZoneCommands, if_neg notFull, if_pos zns,
          pointer, fits.geometry.zoneSize, made.zoneCap]
      refine ⟨device.setZone pair.zone .full device.zoneCap, ?_, ?_⟩
      · rw [commands]
        exact Device.run_finishZones (below.trans_le fits.geometry.nrZones) setup.capPositive
          (fits.geometry.zoneSize ▸ setup.capFits)
      · refine fits.moveZone below (returnedZone (manager.state pair.zone) .full 0) rfl rfl
          (fun entry member _ => Multiset.mem_cons_of_mem member) ?_
        constructor
        · simp [returnedZone]
        · simp [returnedZone]
        · exact fun entry member here => absurd here (sound.alone entry member)
        · simp [returnedZone]

theorem DeviceFits.evict (fits : DeviceFits config manager progress device)
    (setup : ZnsSetup config ioSize) (made : SetUpBy config manager)
    (sound : ZonesSound manager (progress.map Prod.fst)) (full : IsFull manager zone) :
    ∃ after, device.run (resetZoneCommands manager zone) = some after ∧
      DeviceFits config (zsmEvict 0 manager zone).state progress after := by
  have below : zone < config.nrZones := made.numZones ▸ full.1
  have commands : resetZoneCommands manager zone =
      [.resetZones (device.zoneSize * zone) config.zoneCap] := by
    have pointer := setup.zonePointer made sound below
    have zns : manager.backendType = .zns := made.backendType.trans setup.zns
    rw [resetZoneCommands, if_neg (by simp [full.2]), if_pos zns, pointer,
      fits.geometry.zoneSize, made.zoneCap]
  refine ⟨device.setZone zone .empty 0, ?_, ?_⟩
  · rw [commands]
    exact Device.run_resetZones (below.trans_le fits.geometry.nrZones) setup.capPositive
      (fits.geometry.zoneSize ▸ setup.capFits)
  · rw [(sound.evict full).2]
    refine fits.moveZone below (returnedZone (manager.state zone) .free 0) rfl rfl
      (fun entry member _ => member) ?_
    constructor
    · simp
    · simp [freed, returnedZone]
    · exact fun entry member here =>
        absurd here (sound.unheld (by simp [full.2]) entry member)
    · simp [freed, returnedZone]

/-- A held pair that has not been written to names the write pointer of its zone. -/
theorem DeviceFits.atPointer (fits : DeviceFits config manager ((pair, 0) ::ₘ progress) device)
    (setup : ZnsSetup config ioSize) (made : SetUpBy config manager)
    (sound : ZonesSound manager (((pair, 0) ::ₘ progress).map Prod.fst)) :
    pair.chunkOffset * config.chunkSz + config.chunkSz ≤ config.zoneCap ∧
      device = device.setZone pair.zone .opened (pair.chunkOffset * config.chunkSz) ∧
      chunkPointer config.zoneSize config.chunkSz pair.chunkOffset pair.zone =
        device.zoneSize * pair.zone + pair.chunkOffset * config.chunkSz := by
  have below := sound.held_below made
  have held : pair ∈ ((pair, 0) ::ₘ progress).map Prod.fst := by simp
  have writing := (sound.outstanding held).1
  have chunks : 0 < manager.maxZoneChunks := by
    rw [made.maxZoneChunks]
    exact Nat.div_pos setup.chunkFits setup.someChunk
  have room : pair.chunkOffset < config.maxZoneChunks := by
    have inside := sound.entries.offsetRoom pair.zone (.inr writing) chunks
    rwa [← sound.partition.heldOffset pair (by simp), made.maxZoneChunks] at inside
  have filled := (fits.zones pair.zone below).held (pair, 0) (by simp) rfl
  rw [Nat.add_zero] at filled
  obtain ⟨opened, start, inside⟩ := filled.opened setup room
  obtain ⟨pointer, _, _⟩ := @chunkPointer_exact _ _ _ config.chunkSz
    (pair.zone, pair.chunkOffset) setup.capFits setup.addresses below room
  refine ⟨inside, ?_, by rw [pointer, fits.geometry.zoneSize]⟩
  rw [← opened, ← start]
  simp [Device.setZone]

theorem DeviceFits.takes (fits : DeviceFits config manager ((pair, 0) ::ₘ progress) device)
    (setup : ZnsSetup config ioSize) (made : SetUpBy config manager)
    (sound : ZonesSound manager (((pair, 0) ::ₘ progress).map Prod.fst)) {sizes : List Nat}
    (positive : ∀ size ∈ sizes, 0 < size) (piece : sizes ≠ [])
    (within : sizes.sum ≤ config.chunkSz) :
    device.run (Device.writes
        (chunkPointer config.zoneSize config.chunkSz pair.chunkOffset pair.zone) sizes) =
      some (device.setZone pair.zone
        (if pair.chunkOffset * config.chunkSz + sizes.sum = config.zoneCap then .full else .opened)
        (pair.chunkOffset * config.chunkSz + sizes.sum)) := by
  have below := sound.held_below made
  obtain ⟨inside, same, pointer⟩ := fits.atPointer setup made sound
  have ran := Device.run_writes (below.trans_le fits.geometry.nrZones)
    (fits.geometry.zoneCap ▸ fits.geometry.zoneSize ▸ setup.capFits) sizes same positive piece
    (by rw [fits.geometry.zoneCap]; omega)
  rw [fits.geometry.zoneCap] at ran
  rw [pointer]
  exact ran

/-- A chunk is written where the device expects it. -/
theorem DeviceFits.write (fits : DeviceFits config manager ((pair, 0) ::ₘ progress) device)
    (setup : ZnsSetup config ioSize) (made : SetUpBy config manager)
    (sound : ZonesSound manager (((pair, 0) ::ₘ progress).map Prod.fst)) :
    ∃ after, device.run (Device.writes
        (chunkPointer config.zoneSize config.chunkSz pair.chunkOffset pair.zone)
        (pieceSizes config.chunkSz ioSize config.chunkSz 0)) = some after ∧
      DeviceFits config manager ((pair, 1) ::ₘ progress) after := by
  have below := sound.held_below made
  have held : pair ∈ ((pair, 0) ::ₘ progress).map Prod.fst := by simp
  have writing := (sound.outstanding held).1
  obtain ⟨sum, positive, some⟩ := @pieceSizes_covers config.chunkSz ioSize setup.ioSize
    config.chunkSz 0 (Nat.zero_le _) (by omega)
  have ran := fits.takes setup made sound positive (some setup.someChunk) (by omega)
  rw [sum, Nat.sub_zero, ← Nat.succ_mul] at ran
  refine ⟨_, ran, ?_⟩
  refine fits.moveZone below (manager.state pair.zone) (by simp) rfl ?_ ?_
  · intro entry member apart
    rcases Multiset.mem_cons.mp member with rfl | before
    · exact absurd rfl apart
    · exact Multiset.mem_cons_of_mem before
  · constructor
    · simp [writing]
    · simp [writing]
    · intro entry member here
      rcases Multiset.mem_cons.mp member with rfl | before
      · exact ⟨by simp, by simp⟩
      · exact absurd here (sound.alone entry before)
    · simp [writing]

/-- Once a chunk write has broken off with some bytes moved, the device refuses the same
write. -/
theorem DeviceFits.refusesAgain
    (fits : DeviceFits config manager ((pair, 0) ::ₘ progress) device)
    (setup : ZnsSetup config ioSize) (made : SetUpBy config manager)
    (sound : ZonesSound manager (((pair, 0) ::ₘ progress).map Prod.fst)) {moved : Nat}
    (bytes : 0 < moved) (within : moved ≤ config.chunkSz) :
    ∃ after, (chunkWrite config ioSize pair).run device ⟨false, 0, true⟩ moved = some after ∧
      ¬ (chunkWrite config ioSize pair).Accepted after := by
  obtain ⟨sum, positive, covers⟩ := @pieceSizes_covers config.chunkSz ioSize setup.ioSize
    config.chunkSz 0 (Nat.zero_le _) (by omega)
  obtain ⟨tornSum, tornPositive⟩ := @Device.torn_spec
    (pieceSizes config.chunkSz ioSize config.chunkSz 0) moved (by omega)
  have tornSome : Device.torn moved (pieceSizes config.chunkSz ioSize config.chunkSz 0) ≠ [] := by
    intro none
    rw [none, List.sum_nil] at tornSum
    omega
  have ran := fits.takes setup made sound (tornPositive positive) tornSome (by omega)
  rw [tornSum] at ran
  refine ⟨_, by simpa [chunkWrite, Request.run] using ran, ?_⟩
  intro accepted
  obtain ⟨inside, _, pointer⟩ := fits.atPointer setup made sound
  have capFits := setup.capFits
  have zoneSize := fits.geometry.zoneSize
  have below : pair.chunkOffset * config.chunkSz < device.zoneSize := by omega
  obtain ⟨later, taken⟩ := accepted
  rw [pointer, Device.run_writes_refused (covers setup.someChunk)] at taken
  · cases taken
  · simp only [Device.setZone_zoneSize, Device.setZone_wp]
    rw [Nat.mul_add_div (by omega), Nat.div_eq_of_lt below, Nat.add_zero, Nat.mul_add_mod,
      Nat.mod_eq_of_lt below, Function.update_self]
    omega

end Calls

/-! ## Sections -/

section Sections

variable {config : CacheConfig} {ioSize : Nat} {manager : ZoneStateManager} {device : Device}
  {others : Multiset (ZnPair × Nat)}

theorem DeviceFits.accepts {pc : GetPc}
    (fits : DeviceFits config manager (pc.progress + others) device)
    (setup : ZnsSetup config ioSize) (made : SetUpBy config manager)
    (sound : ZonesSound manager ((pc.progress + others).map Prod.fst)) :
    (pc.request config ioSize manager).Accepted device := by
  cases pc with
  | acquire id =>
      obtain ⟨after, ran, _⟩ := fits.getActiveZone setup made sound
      exact ⟨after, ran⟩
  | giveBack id pair =>
      obtain ⟨after, ran, _⟩ := DeviceFits.returnActiveZone fits setup made sound
      exact ⟨after, ran⟩
  | write id pair =>
      obtain ⟨after, ran, _⟩ := DeviceFits.write fits setup made sound
      exact ⟨after, ran⟩
  | _ => exact ⟨device, rfl⟩

variable {Policy Local : Type} {code : EvictionCode Thread Policy Local} {thread : Thread}
  {cache after : ZnCache Thread Policy} {environment : Environment} {answered : Device}
  {moved : Nat}

theorem ThreadPc.progress_afterEvict (caller : Option Nat) :
    (afterEvict caller : ThreadPc Local).progress = 0 :=
  ThreadPc.lift_afterEvict (fun _ => rfl) caller

theorem ThreadPc.progress_afterGetActiveZone (id : Nat) (start : Local) (ret : GetActiveZone) :
    (afterGetActiveZone id start ret).progress = ret.hands.map (·, 0) := by
  cases ret <;> rfl

/-- What the device answers a section of `zn_cache_get`, its commands succeed, and zones and
device agree again after it. -/
theorem DeviceFits.getStep [DecidableEq Thread] {pc : GetPc} {next : ThreadPc Local}
    (fits : DeviceFits config cache.zoneState (pc.progress + others) device)
    (ran : getStep code thread cache environment pc = some (after, next))
    (answer : (pc.request config ioSize cache.zoneState).run device environment moved =
      some answered)
    (untorn : environment.transfers = false → moved = 0)
    (setup : ZnsSetup config ioSize) (made : SetUpBy config cache.zoneState)
    (sound : ZonesSound cache.zoneState ((pc.progress + others).map Prod.fst)) :
    environment.commandRet = 0 ∧
      DeviceFits config after.zoneState (next.progress + others) answered := by
  have quiet : pc.request config ioSize cache.zoneState = .zone [] →
      environment.commandRet = 0 ∧ answered = device := by
    intro asksNothing
    rw [asksNothing] at answer
    exact Request.run_zone rfl answer
  cases pc with
  | write id pair =>
      obtain ⟨written, taken, fitting⟩ := DeviceFits.write fits setup made sound
      obtain ⟨success, rfl⟩ := Request.run_chunk taken untorn answer
      refine ⟨success, ?_⟩
      simp only [ZNCache.getStep] at ran
      split at ran
      next transfers =>
          cases Option.some.inj ran
          rw [if_pos transfers]
          exact fitting
      next fails =>
          cases Option.some.inj ran
          rw [if_neg fails]
          exact fits
  | acquire id =>
      obtain ⟨opened, taken, fitting⟩ := fits.getActiveZone setup made sound
      obtain ⟨success, rfl⟩ := Request.run_zone taken answer
      refine ⟨success, ?_⟩
      cases Option.some.inj ran
      rw [success, ThreadPc.progress_afterGetActiveZone]
      simpa [GetPc.progress] using fitting
  | giveBack id pair =>
      obtain ⟨finished, taken, fitting⟩ := DeviceFits.returnActiveZone fits setup made sound
      obtain ⟨success, rfl⟩ := Request.run_zone taken answer
      refine ⟨success, ?_⟩
      cases Option.some.inj ran
      rw [success]
      simpa [ThreadPc.progress, ThreadPc.lift, GetPc.progress] using fitting
  | undoZone id pair =>
      obtain ⟨success, rfl⟩ := quiet rfl
      refine ⟨success, ?_⟩
      cases Option.some.inj ran
      simpa [ThreadPc.progress, ThreadPc.lift, GetPc.progress] using
        DeviceFits.failedToWrite fits made sound
  | find id =>
      obtain ⟨success, rfl⟩ := quiet rfl
      refine ⟨success, ?_⟩
      cases Option.some.inj ran
      rw [ThreadPc.progress, ThreadPc.lift_afterFind (fun _ => rfl) rfl rfl]
      exact fits
  | asleep | read | touch | release | countHit | countMiss | record | insert | undoMap =>
      obtain ⟨success, rfl⟩ := quiet rfl
      refine ⟨success, ?_⟩
      cases getStep_spec ran
      exact fits

theorem FgEvictStep.deviceFits {cache after : PromotionalCache Thread} {code : EvictPc}
    {later : Option EvictPc} (taken : FgEvictStep cache environment code after later)
    (answer : (code.request cache.zoneState).run device environment moved = some answered)
    (fits : DeviceFits config cache.zoneState others device)
    (setup : ZnsSetup config ioSize) (made : SetUpBy config cache.zoneState)
    (sound : ZonesSound cache.zoneState (others.map Prod.fst))
    (takenFull : ∀ zone ∈ code.takes, IsFull cache.zoneState zone) :
    environment.commandRet = 0 ∧ DeviceFits config after.zoneState others answered := by
  cases taken with
  | reset i freeZones zone =>
      obtain ⟨emptied, ran, fitting⟩ := fits.evict setup made sound
        (takenFull zone (Multiset.mem_singleton_self zone))
      obtain ⟨success, rfl⟩ := Request.run_zone ran answer
      refine ⟨success, ?_⟩
      rw [success]
      exact fitting
  | start | enough | nothing | take | clear | wait =>
      obtain ⟨success, rfl⟩ := Request.run_zone rfl answer
      exact ⟨success, fits⟩

end Sections

/-! ## Runs -/

namespace DeviceSystem

variable [Fintype Thread] [DecidableEq Thread] {config : CacheConfig} {ioSize : Nat}
  {whole next : DeviceSystem Thread}

structure Sound (config : CacheConfig) (whole : DeviceSystem Thread) : Prop where
  owned : ZonesOwned config whole.system
  made : SetUpBy config whole.system.cache.zoneState
  fits : DeviceFits config whole.system.cache.zoneState
    (tally ThreadPc.progress whole.system.threads) whole.device

omit [DecidableEq Thread] in
theorem Sound.zones (sound : Sound config whole) :
    ZonesSound whole.system.cache.zoneState
      ((tally ThreadPc.progress whole.system.threads).map Prod.fst) := by
  rw [tally_progress]
  exact sound.owned.zones

omit [DecidableEq Thread] in
theorem Sound.takenFull (sound : Sound config whole) (thread : Thread) :
    ∀ zone ∈ (whole.system.threads thread).ownsFull config,
      IsFull whole.system.cache.zoneState zone :=
  fun _ member => sound.owned.owner.mpr (.inr ⟨thread, member⟩)

theorem Sound.accepts (sound : Sound config whole) (setup : ZnsSetup config ioSize)
    (thread : Thread) :
    ((whole.system.threads thread).request config ioSize
      whole.system.cache.zoneState).Accepted whole.device := by
  have fits := sound.fits
  have zones := sound.zones
  have takenFull := sound.takenFull thread
  rw [tally_split _ _ thread] at fits zones
  generalize whole.system.threads thread = here at fits zones takenFull
  cases here with
  | idle => exact ⟨whole.device, rfl⟩
  | get pc => exact DeviceFits.accepts fits setup sound.made zones
  | evict caller code =>
      cases code with
      | reset i freeZones zone =>
          obtain ⟨after, ran, _⟩ := fits.evict setup sound.made zones
            (takenFull zone (Multiset.mem_singleton_self zone))
          exact ⟨after, ran⟩
      | _ => exact ⟨whole.device, rfl⟩

theorem Sound.runStep (sound : Sound config whole) (setup : ZnsSetup config ioSize)
    {thread : Thread} {environment : Environment} {later : PromotionalSystem Thread}
    {device : Device} {moved : Nat}
    (answer : ((whole.system.threads thread).request config ioSize
      whole.system.cache.zoneState).run whole.device environment moved = some device)
    (untorn : environment.transfers = false → moved = 0)
    (taken : whole.system.step (promotionalCode config) (thread, .run environment) =
      some later) :
    environment.commandRet = 0 ∧ DeviceFits config later.cache.zoneState
      (tally ThreadPc.progress later.threads) device := by
  have fits := sound.fits
  have zones := sound.zones
  have takenFull := sound.takenFull thread
  rw [tally_split _ _ thread] at fits zones
  cases here : whole.system.threads thread with
  | idle => simp [System.step, here] at taken
  | get pc =>
      rw [here] at answer fits zones
      rw [System.step_get here] at taken
      obtain ⟨⟨cache, next⟩, ran, rfl⟩ := Option.map_eq_some_iff.mp taken
      simp only [System.advance]
      rw [tally_update]
      exact DeviceFits.getStep fits ran answer untorn setup sound.made zones
  | evict caller code =>
      obtain ⟨cache, pc, rfl, moved⟩ := System.step_spec taken
      rw [here] at answer fits zones takenFull moved
      rw [show (ThreadPc.evict caller code : ThreadPc EvictPc).progress + _ = _ from zero_add _]
        at fits zones
      simp only [System.advance]
      rw [tally_update]
      cases moved with
      | evict _ next ran =>
          rw [show (ThreadPc.evict caller next : ThreadPc EvictPc).progress + _ = _ from
            zero_add _]
          exact (fgEvictStep_spec ran).deviceFits answer fits setup sound.made zones takenFull
      | evicted _ ran =>
          rw [ThreadPc.progress_afterEvict, zero_add]
          exact (fgEvictStep_spec ran).deviceFits answer fits setup sound.made zones takenFull

theorem Sound.step (sound : Sound config whole) (setup : ZnsSetup config ioSize)
    {action : (Thread × Choice) × Nat} (untorn : Untorn action)
    (taken : whole.step config ioSize action = some next) :
    CommandsSucceed action.1 ∧
      whole.system.step (promotionalCode config) action.1 = some next.system ∧
      Sound config next := by
  have answered : CommandsSucceed action.1 ∧
      whole.system.step (promotionalCode config) action.1 = some next.system ∧
      DeviceFits config next.system.cache.zoneState
        (tally ThreadPc.progress next.system.threads) next.device := by
    obtain ⟨⟨thread, choice⟩, moved⟩ := action
    cases choice with
    | run environment =>
        obtain ⟨device, answer, rest⟩ := Option.bind_eq_some_iff.mp taken
        obtain ⟨later, stepped, rfl⟩ := Option.map_eq_some_iff.mp rest
        have fitting := sound.runStep setup answer (untorn environment rfl) stepped
        refine ⟨?_, stepped, fitting.2⟩
        intro other same
        cases same
        exact fitting.1
    | get | evict | wakeUp =>
        obtain ⟨later, stepped, rfl⟩ := Option.map_eq_some_iff.mp taken
        refine ⟨fun environment same => ?_, stepped, ?_⟩
        · cases same
        obtain ⟨cache, pc, rfl, moved⟩ := System.step_spec stepped
        have fits := sound.fits
        rw [tally_split _ _ thread] at fits
        simp only [System.advance]
        rw [tally_update]
        generalize whole.system.threads thread = here at moved fits
        cases moved
        exact fits
  obtain ⟨success, moved, fits⟩ := answered
  refine ⟨success, moved, sound.owned.step setup.offsets success moved, ?_, fits⟩
  have called := sound.owned.handoutStep success moved
  cases made : (whole.system.threads action.1.1).zsmCall action.1.2 with
  | none =>
      rw [made] at called
      have same : next.system.cache.zoneState = whole.system.cache.zoneState :=
        congrArg Handout.manager called
      rw [same]
      exact sound.made
  | some call =>
      rw [made] at called
      exact SetUpBy.step (handoutOf whole.system) sound.made called

theorem Sound.refusesAgain (sound : Sound config whole) (setup : ZnsSetup config ioSize)
    {thread : Thread} {id moved : Nat} {pair : ZnPair}
    (writes : whole.system.threads thread = .get (.write id pair)) (bytes : 0 < moved)
    (within : moved ≤ config.chunkSz) :
    ∃ after, (chunkWrite config ioSize pair).run whole.device ⟨false, 0, true⟩ moved =
        some after ∧ ¬ (chunkWrite config ioSize pair).Accepted after := by
  have fits := sound.fits
  have zones := sound.zones
  rw [tally_split _ _ thread, writes] at fits zones
  exact DeviceFits.refusesAgain fits setup sound.made zones bytes within

abbrev Run (config : CacheConfig) (ioSize deviceZones maxOpen : Nat)
    (whole : DeviceSystem Thread) : Prop :=
  Reach (DeviceSystem.step config ioSize) (fun _ action => Untorn action)
    (fun whole => promotionalSystem config = some whole.system ∧
      whole.device = Device.blank config.zoneSize config.zoneCap deviceZones maxOpen) whole

omit [DecidableEq Thread] in
theorem Sound.init {deviceZones maxOpen : Nat} (zones : config.nrZones ≤ deviceZones)
    (limit : config.maxActive ≤ maxOpen)
    (begins : promotionalSystem config = some whole.system)
    (blank : whole.device = Device.blank config.zoneSize config.zoneCap deviceZones maxOpen) :
    Sound config whole := by
  obtain ⟨_, zoneState, _, _, idle⟩ := System.init_spec begins
  refine ⟨ZonesOwned.init begins, by rw [zoneState]; exact SetUpBy.init, ?_⟩
  rw [zoneState, blank, tally_const_zero _ _ fun thread => by rw [idle thread]; rfl]
  refine ⟨⟨rfl, rfl, zones, limit⟩, fun zone _ => ?_, fun _ _ => rfl⟩
  constructor <;> simp [zsmInit, Device.blank]

theorem Run.sound {deviceZones maxOpen : Nat} (setup : ZnsSetup config ioSize)
    (zones : config.nrZones ≤ deviceZones) (limit : config.maxActive ≤ maxOpen)
    (run : Run config ioSize deviceZones maxOpen whole) :
    Sound config whole ∧
      PromotionalRun config (fun _ action => CommandsSucceed action) whole.system := by
  induction run with
  | start begins => exact ⟨Sound.init zones limit begins.1 begins.2, .start begins.1⟩
  | step action before untorn taken ih =>
      obtain ⟨success, moved, later⟩ := ih.1.step setup untorn taken
      exact ⟨later, .step action.1 ih.2 success moved⟩

/-- On a device whose zones start empty and which may hold as many zones open as the cache
uses, no open, finish, reset or chunk write is ever refused, in any interleaving in which
chunk writes that fail have moved nothing; the device has every zone as the zone manager has
it, and the libzbd commands all succeed.  A chunk write that fails with a part moved makes
the device refuse the chunk from then on. -/
theorem device_never_refuses {deviceZones maxOpen : Nat} (setup : ZnsSetup config ioSize)
    (zones : config.nrZones ≤ deviceZones) (limit : config.maxActive ≤ maxOpen)
    (run : Run config ioSize deviceZones maxOpen whole) :
    (∀ thread, ((whole.system.threads thread).request config ioSize
      whole.system.cache.zoneState).Accepted whole.device) ∧
    DeviceFits config whole.system.cache.zoneState
      (tally ThreadPc.progress whole.system.threads) whole.device ∧
    whole.device.openCount ≤ config.maxActive ∧
    PromotionalRun config (fun _ action => CommandsSucceed action) whole.system ∧
    ∀ thread id pair moved, whole.system.threads thread = .get (.write id pair) → 0 < moved →
      moved ≤ config.chunkSz →
      ∃ after, (chunkWrite config ioSize pair).run whole.device ⟨false, 0, true⟩ moved =
        some after ∧ ¬ (chunkWrite config ioSize pair).Accepted after := by
  obtain ⟨sound, reached⟩ := run.sound setup zones limit
  refine ⟨sound.accepts setup, sound.fits, ?_, reached,
    fun _ _ _ _ writes bytes within => sound.refusesAgain setup writes bytes within⟩
  have inPlay := sound.fits.openCount_le sound.zones sound.made.numZones
  have within := sound.zones.partition.within
  rw [Multiset.card_map, sound.made.maxNrActiveZones] at within
  exact inPlay.trans within

/-- The zone of the device is opened, written, finished and reset again. -/
theorem device_never_refuses_earlyEviction :
    ∃ start whole : DeviceSystem (Fin 2),
      promotionalSystem oneChunkConfig = some start.system ∧
      start.device = Device.blank 4096 4096 1 1 ∧
      runActions (DeviceSystem.step oneChunkConfig 4096) start
        ((earlyEviction 0 1).map fun action => (action, 0)) = some whole ∧
      whole.device.condition 0 = .empty ∧
      ∀ thread, ((whole.system.threads thread).request oneChunkConfig 4096
        whole.system.cache.zoneState).Accepted whole.device := by
  cases begins : (promotionalSystem oneChunkConfig : Option (PromotionalSystem (Fin 2))) with
  | none => cases begins
  | some system =>
      cases ran : runActions (DeviceSystem.step oneChunkConfig 4096)
          ⟨system, Device.blank 4096 4096 1 1⟩
          ((earlyEviction 0 1).map fun action => (action, 0)) with
      | none => cases Option.some.inj begins; cases ran
      | some whole =>
          have run : Run oneChunkConfig 4096 1 1 whole :=
            Reach.of_runActions _ (.start ⟨begins, rfl⟩) (untorn_of_none _ _) ran
          have setup : ZnsSetup oneChunkConfig 4096 := by constructor <;> decide
          obtain ⟨accepts, _⟩ := device_never_refuses setup (by decide) (by decide) run
          refine ⟨⟨system, _⟩, whole, rfl, rfl, ran, ?_, accepts⟩
          cases Option.some.inj begins
          cases Option.some.inj ran
          rfl

end DeviceSystem

end ZNCache
