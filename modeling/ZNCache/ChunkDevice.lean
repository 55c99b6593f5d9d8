import ZNCache.ChunkPlacement
import ZNCache.DeviceProtocol

/-!
# The chunk policy on a zoned device

The GC opens zones, writes chunks and resets zones beside the threads that miss.  What it
has put into the pairs that it never gives back stays on the device with them.
-/

set_option autoImplicit false

namespace ZNCache

open Tally Transition ZonedStorage ZoneStateManager ZnPolicyChunk Duties

variable {Thread : Type}

/-! ## What the GC asks of the device -/

def ChunkCache.evictRequest (config : CacheConfig) (ioSize : Nat) (cache : ChunkCache Thread) :
    ChunkEvictPc → Request
  | .gcScan zone chunk =>
      if chunk < cache.evictionPolicy.maxZoneChunks ∧
          (cache.evictionPolicy.slot (zone, chunk)).inUse = true then
        .zone (getActiveZoneCommands cache.zoneState)
      else .zone []
  | .gcWrite _ _ location _ => chunkWrite config ioSize location
  | .gcReset zone => .zone (resetZoneCommands cache.zoneState (cache.zoneId zone))
  | .start | .pop _ _ | .mark _ _ _ | .clear _ _ _ | .gcStart | .gcLoop _ => .zone []
  | .gcRead _ _ _ | .gcInsert _ _ _ | .gcClear _ | .gcCount | .leave => .zone []

def ChunkCache.request (config : CacheConfig) (ioSize : Nat) (cache : ChunkCache Thread) :
    ThreadPc ChunkEvictPc → Request
  | .idle => .zone []
  | .get pc => pc.request config ioSize cache.zoneState
  | .evict _ code => cache.evictRequest config ioSize code

def ChunkEvictPc.progress : ChunkEvictPc → Multiset (ZnPair × Nat)
  | gcRead _ _ location | gcWrite _ _ location _ => {(location, 0)}
  | start | pop _ _ | mark _ _ _ | clear _ _ _ | gcStart | gcLoop _ | gcScan _ _ => 0
  | gcInsert _ _ _ | gcClear _ | gcReset _ | gcCount | leave => 0

def ThreadPc.ownProgress : ThreadPc ChunkEvictPc → Multiset (ZnPair × Nat)
  | idle => 0
  | get pc => pc.progress
  | evict _ code => code.progress

def ChunkEvictPc.remaps : ChunkEvictPc → Multiset ZnPair
  | gcInsert _ _ location => {location}
  | start | pop _ _ | mark _ _ _ | clear _ _ _ | gcStart | gcLoop _ | gcScan _ _ => 0
  | gcRead _ _ _ | gcWrite _ _ _ _ | gcClear _ | gcReset _ | gcCount | leave => 0

def ThreadPc.remaps : ThreadPc ChunkEvictPc → Multiset ZnPair
  | idle | get _ => 0
  | evict _ code => code.remaps

/-- The pair that a section of the GC writes to, and how many chunks it has then. -/
def ThreadPc.sends : ThreadPc ChunkEvictPc → Choice → List (ZnPair × Nat)
  | evict _ (.gcWrite _ _ location _), .run environment =>
      [(location, if environment.transfers then 1 else 0)]
  | _, _ => []

theorem ThreadPc.out_eq (pc : ThreadPc ChunkEvictPc) :
    pc.out = pc.ownProgress.map Prod.fst + pc.remaps := by
  cases pc with
  | idle => rfl
  | get pc => exact (pc.progress_holds.symm.trans (add_zero _).symm)
  | evict caller code => cases code <;> rfl

/-! ## Sections of the eviction and of the GC -/

section Evict

variable {config : CacheConfig} {ioSize : Nat} {manager : ZoneStateManager}
  {device answered : Device} {thread : Thread} {cache after : ChunkCache Thread}
  {environment : Environment} {moved : Nat}
  {code : ChunkEvictPc} {next : Option ChunkEvictPc} {others : Multiset (ZnPair × Nat)}

theorem DeviceFits.markChunkInvalid (fits : DeviceFits config manager others device) {pair : ZnPair}
    (inDevice : pair.zone < config.nrZones) :
    DeviceFits config (zsmMarkChunkInvalid manager pair) others device := by
  obtain ⟨free, active, held, full⟩ := fits.zones pair.zone inDevice
  refine fits.moveEntry inDevice _ rfl (fun entry member _ => member) ?_
  constructor
  · simpa [zsmMarkChunkInvalid] using free
  · simpa [zsmMarkChunkInvalid] using active
  · exact held
  · simpa [zsmMarkChunkInvalid] using full

theorem ChunkEvictStep.deviceFits
    (taken : ChunkEvictStep config thread cache environment code after next)
    (answer : (cache.evictRequest config ioSize code).run device environment moved =
      some answered)
    (untorn : environment.transfers = false → moved = 0)
    (fits : DeviceFits config cache.zoneState (code.progress + others) device)
    (setup : ZnsSetup config ioSize) (made : SetUpBy config cache.zoneState)
    (sound : ZonesSound cache.zoneState ((code.progress + others).map Prod.fst))
    (own : ∀ zone ∈ code.duties.reclaimed, cache.zoneId zone = zone)
    (takenFull : ∀ zone ∈ code.duties.reclaimed, IsFull cache.zoneState zone)
    (told : ∀ i nr pair, code = .mark i nr pair → pair.zone < config.nrZones)
    (caller : Option Nat) :
    environment.commandRet = 0 ∧ DeviceFits config after.zoneState
      (next.elim 0 ChunkEvictPc.progress +
        ((ThreadPc.evict caller code).sends (.run environment) + others)) answered := by
  have silent : cache.evictRequest config ioSize code = .zone [] →
      after.zoneState = cache.zoneState →
      next.elim 0 ChunkEvictPc.progress + ((ThreadPc.evict caller code).sends (.run environment) +
        others) = code.progress + others →
      environment.commandRet = 0 ∧ DeviceFits config after.zoneState
        (next.elim 0 ChunkEvictPc.progress +
          ((ThreadPc.evict caller code).sends (.run environment) + others)) answered := by
    intro asksNothing sameZones same
    rw [asksNothing] at answer
    obtain ⟨success, rfl⟩ := Request.run_zone rfl answer
    rw [sameZones, same]
    exact ⟨success, fits⟩
  cases taken with
  | mark i nr pair =>
      obtain ⟨success, rfl⟩ := Request.run_zone rfl answer
      exact ⟨success, by
        simpa [ChunkEvictPc.progress, ThreadPc.sends] using
          fits.markChunkInvalid (told i nr pair rfl)⟩
  | gcAcquire zone chunk location inZone used handed =>
      rw [ChunkCache.evictRequest, if_pos ⟨inZone, used⟩] at answer
      obtain ⟨opened, ran, fitting⟩ := fits.getActiveZone setup made sound
      obtain ⟨success, rfl⟩ := Request.run_zone ran answer
      rw [success] at handed ⊢
      rw [handed] at fitting
      exact ⟨rfl, by
        simpa [ChunkEvictPc.progress, ThreadPc.sends, GetActiveZone.hands] using fitting⟩
  | gcWrite zone chunk location data content =>
      obtain ⟨written, ran, fitting⟩ := DeviceFits.write fits setup made sound
      obtain ⟨success, rfl⟩ := Request.run_chunk ran untorn answer
      refine ⟨success, ?_⟩
      change DeviceFits config cache.zoneState _ _
      cases transfers : environment.transfers with
      | true => simpa [ChunkEvictPc.progress, ThreadPc.sends, transfers] using fitting
      | false => simpa [ChunkEvictPc.progress, ThreadPc.sends, transfers] using fits
  | gcReset zone =>
      have reclaimed : zone ∈ (ChunkEvictPc.gcReset zone).duties.reclaimed := by
        simp [ChunkEvictPc.duties, clears, reclaims]
      rw [ChunkCache.evictRequest, own zone reclaimed] at answer
      obtain ⟨emptied, ran, fitting⟩ := fits.evict setup made sound (takenFull zone reclaimed)
      obtain ⟨success, rfl⟩ := Request.run_zone ran answer
      rw [success, own zone reclaimed]
      refine ⟨rfl, ?_⟩
      change DeviceFits config (zsmEvict 0 cache.zoneState zone).state _ _
      simpa [ChunkEvictPc.progress, ThreadPc.sends] using fitting
  | gcSkip zone chunk inZone unused =>
      refine silent (by simp [ChunkCache.evictRequest, unused]) rfl ?_
      simp [ChunkEvictPc.progress, ThreadPc.sends]
  | gcScanned zone chunk atEnd =>
      refine silent (by simp [ChunkCache.evictRequest, Nat.not_lt.mpr atEnd]) rfl ?_
      simp [ChunkEvictPc.progress, ThreadPc.sends]
  | turnedAway | lock | pop | popped | clear | gcEnough | gcShort | gcDone | gcTake =>
      exact silent rfl rfl (by simp [ChunkEvictPc.progress, ThreadPc.sends])
  | gcRead | gcInsert | gcClear | gcCount | leave =>
      exact silent rfl rfl (by simp [ChunkEvictPc.progress, ThreadPc.sends])

theorem ChunkEvictStep.remaps {caller : Option Nat}
    (taken : ChunkEvictStep config thread cache environment code after next) :
    next.elim 0 ChunkEvictPc.remaps + (code.moves.map Prod.snd : List ZnPair) =
      code.remaps +
        (((ThreadPc.evict caller code).sends (.run environment)).map Prod.fst : List ZnPair) := by
  cases taken <;> simp [ChunkEvictPc.remaps, ChunkEvictPc.moves, ThreadPc.sends]

end Evict

/-! ## Steps -/

section Step

variable [DecidableEq Thread] {config : CacheConfig} {ioSize : Nat} {device answered : Device}
  {thread : Thread} {choice : Choice} {cache after : ChunkCache Thread}
  {pc next : ThreadPc ChunkEvictPc} {others : Multiset (ZnPair × Nat)}

theorem GetStep.ownProgress {environment : Environment} {pc : GetPc}
    (taken : GetStep (chunkCode config) thread cache environment pc after next) :
    next.ownProgress = next.progress ∧ next.remaps = 0 := by
  cases taken with
  | find id => cases (znCachemapFind thread cache.cacheMap id).1 <;> exact ⟨rfl, rfl⟩
  | acquire id =>
      cases (zsmGetActiveZone environment.commandRet cache.zoneState).ret <;> exact ⟨rfl, rfl⟩
  | woken | read | touch | release | countHit | write | writeFailed => exact ⟨rfl, rfl⟩
  | countMiss | giveBack | record | insert | undoZone | undoMap => exact ⟨rfl, rfl⟩

theorem ThreadStep.remaps
    (moved : ThreadStep (chunkCode config) thread cache pc choice after next) :
    next.remaps + ((pc.moves choice).map Prod.snd : List ZnPair) =
      pc.remaps + ((pc.sends choice).map Prod.fst : List ZnPair) := by
  cases moved with
  | call | callEvict | wakeUp => rfl
  | get ran =>
      rw [ran.ownProgress.2]
      rfl
  | evict caller later ran => exact (chunkEvictStep_spec ran).remaps
  | evicted caller ran =>
      have remapped := @ChunkEvictStep.remaps _ _ _ _ _ _ _ _ caller (chunkEvictStep_spec ran)
      cases caller <;> exact remapped

end Step

/-! ## Runs -/

/-- A cache that evicts by chunk and the device it runs on, with what its GC has sent to
the pairs it took. -/
structure ChunkDeviceSystem (Thread : Type) where
  log : MigrationLog Thread
  device : Device
  sent : List (ZnPair × Nat)

namespace ChunkDeviceSystem

variable [DecidableEq Thread]

def step (config : CacheConfig) (ioSize : Nat) (whole : ChunkDeviceSystem Thread)
    (action : (Thread × Choice) × Nat) : Option (ChunkDeviceSystem Thread) :=
  match action.1.2 with
  | .run environment =>
      ((ChunkCache.request config ioSize whole.log.system.cache
        (whole.log.system.threads action.1.1)).run whole.device environment action.2).bind
          fun device =>
            (whole.log.step config action.1).map fun log =>
              ⟨log, device,
                whole.sent ++ (whole.log.system.threads action.1.1).sends action.1.2⟩
  | _ => (whole.log.step config action.1).map fun log => ⟨log, whole.device, whole.sent⟩

variable [Fintype Thread] {config : CacheConfig} {ioSize : Nat}
  {whole next : ChunkDeviceSystem Thread}

def progress (whole : ChunkDeviceSystem Thread) : Multiset (ZnPair × Nat) :=
  tally ThreadPc.ownProgress whole.log.system.threads + whole.sent

structure Sound (config : CacheConfig) (whole : ChunkDeviceSystem Thread) : Prop where
  placed : MigrationLog.Sound config whole.log
  made : SetUpBy config whole.log.system.cache.zoneState
  remapped : ((whole.sent.map Prod.fst : List ZnPair) : Multiset ZnPair) =
    tally ThreadPc.remaps whole.log.system.threads + (whole.log.moved.map Prod.snd : List ZnPair)
  fits : DeviceFits config whole.log.system.cache.zoneState whole.progress whole.device

omit [DecidableEq Thread] in
theorem Sound.zones (sound : Sound config whole) :
    ZonesSound whole.log.system.cache.zoneState (whole.progress.map Prod.fst) := by
  have zones := sound.placed.zones.zones
  have out : tally ThreadPc.out whole.log.system.threads =
      (tally ThreadPc.ownProgress whole.log.system.threads).map Prod.fst +
        tally ThreadPc.remaps whole.log.system.threads := by
    have mapped := map_sum (Multiset.mapAddMonoidHom Prod.fst)
      (fun thread => (whole.log.system.threads thread).ownProgress) Finset.univ
    simp only [Multiset.coe_mapAddMonoidHom] at mapped
    simp only [tally, ThreadPc.out_eq, Finset.sum_add_distrib, mapped]
  rw [MigrationLog.handout, out, add_assoc, ← sound.remapped] at zones
  rw [progress, Multiset.map_add, Multiset.map_coe]
  exact zones

theorem progress_split (whole : ChunkDeviceSystem Thread) (thread : Thread) :
    whole.progress = (whole.log.system.threads thread).ownProgress +
      (others ThreadPc.ownProgress whole.log.system.threads thread + whole.sent) := by
  rw [progress, tally_split _ _ thread, add_assoc]

theorem Sound.hands (sound : Sound config whole) {thread : Thread} {caller : Option Nat}
    {code : ChunkEvictPc} (here : whole.log.system.threads thread = .evict caller code) :
    (∀ zone ∈ code.duties.reclaimed,
        ChunkCache.zoneId whole.log.system.cache zone = zone) ∧
      (∀ zone ∈ code.duties.reclaimed, IsFull whole.log.system.cache.zoneState zone) ∧
      ∀ i nr pair, code = .mark i nr pair → pair.zone < config.nrZones := by
  obtain ⟨zones, told⟩ := sound.placed.split thread
  rw [here] at zones told
  have reclaimed : ∀ zone ∈ code.duties.reclaimed, zone ∈
      ((ThreadPc.evict caller code).duties config.maxZoneChunks +
        others (ThreadPc.duties config.maxZoneChunks) whole.log.system.threads thread).reclaimed :=
    fun zone member => Multiset.mem_add.mpr (.inl member)
  refine ⟨fun zone member => zones.poolIds zone (.inr (reclaimed zone member)),
    fun zone member => (zones.full zone).mp
      (Multiset.mem_add.mpr (.inr (Multiset.mem_add.mpr (.inr (reclaimed zone member))))), ?_⟩
  intro i nr pair same
  subst same
  exact told pair.zone (Multiset.mem_singleton_self _)

/-- Whatever a thread of a sound system does next, the device takes it. -/
theorem Sound.accepts (sound : Sound config whole) (setup : ZnsSetup config ioSize)
    (thread : Thread) :
    (ChunkCache.request config ioSize whole.log.system.cache
      (whole.log.system.threads thread)).Accepted whole.device := by
  have fits := sound.fits
  have zones := sound.zones
  rw [progress_split whole thread] at fits zones
  cases here : whole.log.system.threads thread with
  | idle => exact ⟨whole.device, rfl⟩
  | get pc =>
      rw [here] at fits zones
      exact DeviceFits.accepts fits setup sound.made zones
  | evict caller code =>
      obtain ⟨own, takenFull, _⟩ := sound.hands here
      rw [here] at fits zones
      cases code with
      | gcScan zone chunk =>
          obtain ⟨after, ran, _⟩ := fits.getActiveZone setup sound.made zones
          simp only [ChunkCache.request, ChunkCache.evictRequest]
          split
          next => exact ⟨after, ran⟩
          next => exact ⟨whole.device, rfl⟩
      | gcWrite zone chunk location data =>
          obtain ⟨after, ran, _⟩ := DeviceFits.write fits setup sound.made zones
          exact ⟨after, ran⟩
      | gcReset zone =>
          have reclaimed : zone ∈ (ChunkEvictPc.gcReset zone).duties.reclaimed := by
            simp [ChunkEvictPc.duties, clears, reclaims]
          obtain ⟨after, ran, _⟩ := fits.evict setup sound.made zones (takenFull zone reclaimed)
          rw [ChunkCache.request, ChunkCache.evictRequest, own zone reclaimed]
          exact ⟨after, ran⟩
      | _ => exact ⟨whole.device, rfl⟩

theorem Sound.runStep (sound : Sound config whole) (setup : ZnsSetup config ioSize)
    {thread : Thread} {environment : Environment} {later : ChunkSystem Thread} {device : Device}
    {moved : Nat} (answer : (ChunkCache.request config ioSize whole.log.system.cache
      (whole.log.system.threads thread)).run whole.device environment moved = some device)
    (untorn : environment.transfers = false → moved = 0)
    (taken : whole.log.system.step (chunkCode config) (thread, .run environment) = some later) :
    environment.commandRet = 0 ∧ DeviceFits config later.cache.zoneState
      (tally ThreadPc.ownProgress later.threads + (whole.sent ++
        (whole.log.system.threads thread).sends (.run environment) : List (ZnPair × Nat)))
      device := by
  have fits := sound.fits
  have zones := sound.zones
  rw [progress_split whole thread] at fits zones
  cases here : whole.log.system.threads thread with
  | idle => simp [System.step, here] at taken
  | get pc =>
      rw [System.step_get here] at taken
      obtain ⟨⟨cache, next⟩, ran, rfl⟩ := Option.map_eq_some_iff.mp taken
      rw [here] at answer fits zones
      obtain ⟨success, fitting⟩ := DeviceFits.getStep fits ran answer untorn setup sound.made zones
      simp only [System.advance]
      have silent : (ThreadPc.get pc).sends (.run environment) = [] := rfl
      rw [tally_update, (getStep_spec ran).ownProgress.1, silent, List.append_nil, add_assoc]
      exact ⟨success, fitting⟩
  | evict caller code =>
      obtain ⟨own, takenFull, told⟩ := sound.hands here
      obtain ⟨cache, pc, rfl, moved⟩ := System.step_spec taken
      rw [here] at answer fits zones moved
      have regroup : ∀ mine : Multiset (ZnPair × Nat),
          mine + others ThreadPc.ownProgress whole.log.system.threads thread +
            (whole.sent ++ (ThreadPc.evict caller code).sends (.run environment) :
              List (ZnPair × Nat)) =
          mine + ((ThreadPc.evict caller code).sends (.run environment) +
            (others ThreadPc.ownProgress whole.log.system.threads thread + whole.sent)) := by
        intro mine
        rw [← Multiset.coe_add]
        simp only [add_assoc, add_comm, add_left_comm]
      simp only [System.advance]
      rw [tally_update, regroup]
      cases moved with
      | evict _ next ran =>
          exact (chunkEvictStep_spec ran).deviceFits answer untorn fits setup sound.made zones own
            takenFull told caller
      | evicted _ ran =>
          have left : (afterEvict caller : ThreadPc ChunkEvictPc).ownProgress = 0 := by
            cases caller <;> rfl
          rw [left]
          exact (chunkEvictStep_spec ran).deviceFits answer untorn fits setup sound.made zones own
            takenFull told caller

theorem Sound.step (sound : Sound config whole) (setup : ZnsSetup config ioSize)
    {action : (Thread × Choice) × Nat} (untorn : Untorn action)
    (taken : whole.step config ioSize action = some next) :
    CommandsSucceed action.1 ∧ whole.log.step config action.1 = some next.log ∧
      Sound config next := by
  have answered : CommandsSucceed action.1 ∧ whole.log.step config action.1 = some next.log ∧
      next.sent = whole.sent ++ (whole.log.system.threads action.1.1).sends action.1.2 ∧
      DeviceFits config next.log.system.cache.zoneState next.progress next.device := by
    obtain ⟨⟨thread, choice⟩, bytes⟩ := action
    cases choice with
    | run environment =>
        obtain ⟨device, answer, rest⟩ := Option.bind_eq_some_iff.mp taken
        obtain ⟨log, moved, rfl⟩ := Option.map_eq_some_iff.mp rest
        obtain ⟨later, stepped, rfl⟩ := Option.map_eq_some_iff.mp moved
        obtain ⟨success, fits⟩ := sound.runStep setup answer (untorn environment rfl) stepped
        refine ⟨fun other same => ?_, moved, rfl, fits⟩
        cases same
        exact success
    | get | evict | wakeUp =>
        obtain ⟨log, moved, rfl⟩ := Option.map_eq_some_iff.mp taken
        obtain ⟨later, stepped, rfl⟩ := Option.map_eq_some_iff.mp moved
        refine ⟨(fun environment same => by cases same), moved, ?_, ?_⟩
        · generalize whole.log.system.threads thread = here
          cases here with
          | idle | get => exact (List.append_nil _).symm
          | evict caller code => cases code <;> exact (List.append_nil _).symm
        · obtain ⟨cache, pc, rfl, ran⟩ := System.step_spec stepped
          clear stepped moved taken
          have fits := sound.fits
          rw [progress_split whole thread] at fits
          simp only [progress, System.advance]
          rw [tally_update, add_assoc]
          generalize whole.log.system.threads thread = here at ran fits
          cases ran
          exact fits
  obtain ⟨success, moved, sent, fits⟩ := answered
  have positive : 0 < config.maxZoneChunks := Nat.div_pos setup.chunkFits setup.someChunk
  refine ⟨success, moved, sound.placed.step setup.offsets positive success moved, ?_, ?_, fits⟩
  · have called := sound.placed.handoutStep moved
    cases made : ChunkCache.zsmCall whole.log.system.cache
        (whole.log.system.threads action.1.1) action.1.2 with
    | none =>
        rw [made] at called
        have same : next.log.system.cache.zoneState = whole.log.system.cache.zoneState :=
          congrArg Handout.manager called
        rw [same]
        exact sound.made
    | some call =>
        rw [made] at called
        exact SetUpBy.step whole.log.handout sound.made called
  · have before := sound.remapped
    obtain ⟨later, stepped, same⟩ := Option.map_eq_some_iff.mp moved
    obtain ⟨⟨thread, choice⟩, bytes⟩ := action
    obtain ⟨cache, pc, rfl, ran⟩ := System.step_spec stepped
    rw [← same, sent, List.map_append, ← Multiset.coe_add, before, List.map_append,
      ← Multiset.coe_add, System.advance, tally_update, tally_split _ _ thread]
    have remapped := ran.remaps
    calc _ = (whole.log.system.threads thread).remaps +
          (((whole.log.system.threads thread).sends choice).map Prod.fst : List ZnPair) +
          (others ThreadPc.remaps whole.log.system.threads thread +
            (whole.log.moved.map Prod.snd : List ZnPair)) := by
          simp only [add_assoc, add_comm, add_left_comm]
      _ = _ := by
          rw [← remapped]
          simp only [add_assoc, add_comm, add_left_comm]

abbrev Run (config : CacheConfig) (ioSize deviceZones maxOpen : Nat)
    (whole : ChunkDeviceSystem Thread) : Prop :=
  Reach (ChunkDeviceSystem.step config ioSize) (fun _ action => Untorn action)
    (fun whole => chunkSystem config = some whole.log.system ∧ whole.log.moved = [] ∧
      whole.device = Device.blank config.zoneSize config.zoneCap deviceZones maxOpen ∧
      whole.sent = []) whole

omit [DecidableEq Thread] in
theorem Sound.init {deviceZones maxOpen : Nat} (someZone : 1 ≤ config.nrZones)
    (zones : config.nrZones ≤ deviceZones) (limit : config.maxActive ≤ maxOpen)
    (begins : chunkSystem config = some whole.log.system) (none : whole.log.moved = [])
    (blank : whole.device = Device.blank config.zoneSize config.zoneCap deviceZones maxOpen)
    (unsent : whole.sent = []) : Sound config whole := by
  obtain ⟨_, zoneState, _, _, idle⟩ := System.init_spec begins
  refine ⟨MigrationLog.Sound.init someZone begins none, ?_, ?_, ?_⟩
  · rw [zoneState]
    exact SetUpBy.init
  · rw [unsent, none, tally_const_zero _ _ fun thread => by rw [idle thread]; rfl]
    rfl
  · rw [progress, zoneState, blank, unsent,
      tally_const_zero _ _ fun thread => by rw [idle thread]; rfl]
    refine ⟨⟨rfl, rfl, zones, limit⟩, fun zone _ => ?_, fun _ _ => rfl⟩
    constructor <;> simp [zsmInit, Device.blank]

theorem Run.sound {deviceZones maxOpen : Nat} (setup : ZnsSetup config ioSize)
    (someZone : 1 ≤ config.nrZones) (zones : config.nrZones ≤ deviceZones)
    (limit : config.maxActive ≤ maxOpen) (run : Run config ioSize deviceZones maxOpen whole) :
    Sound config whole ∧ MigrationLog.Run config whole.log := by
  induction run with
  | start begins =>
      obtain ⟨begins, none, blank, unsent⟩ := begins
      exact ⟨Sound.init someZone zones limit begins none blank unsent, .start ⟨begins, none⟩⟩
  | step action before untorn taken ih =>
      obtain ⟨success, moved, later⟩ := ih.1.step setup untorn taken
      exact ⟨later, .step action.1 ih.2 success moved⟩

/-- A write of a miss or of the GC that broke off halfway cannot be taken up again. -/
theorem Sound.refusesAgain (sound : Sound config whole) (setup : ZnsSetup config ioSize)
    {thread : Thread} {moved : Nat} {pair : ZnPair}
    (writes : (∃ id, whole.log.system.threads thread = .get (.write id pair)) ∨
      ∃ caller zone chunk data,
        whole.log.system.threads thread = .evict caller (.gcWrite zone chunk pair data))
    (bytes : 0 < moved) (within : moved ≤ config.chunkSz) :
    ∃ after, (chunkWrite config ioSize pair).run whole.device ⟨false, 0, true⟩ moved =
        some after ∧ ¬ (chunkWrite config ioSize pair).Accepted after := by
  have fits := sound.fits
  have zones := sound.zones
  rw [progress_split whole thread] at fits zones
  rcases writes with ⟨id, here⟩ | ⟨caller, zone, chunk, data, here⟩
  all_goals
    rw [here] at fits zones
    exact DeviceFits.refusesAgain fits setup sound.made zones bytes within

/-- With a GC that moves chunks beside the threads that write them, no open, finish, reset
or chunk write is refused either, as long as chunk writes that fail have moved nothing; the
zones of moved chunks stay open on the device. -/
theorem gc_never_refused {deviceZones maxOpen : Nat} (setup : ZnsSetup config ioSize)
    (someZone : 1 ≤ config.nrZones) (zones : config.nrZones ≤ deviceZones)
    (limit : config.maxActive ≤ maxOpen) (run : Run config ioSize deviceZones maxOpen whole) :
    (∀ thread, (ChunkCache.request config ioSize whole.log.system.cache
      (whole.log.system.threads thread)).Accepted whole.device) ∧
    DeviceFits config whole.log.system.cache.zoneState whole.progress whole.device ∧
    whole.device.openCount ≤ config.maxActive ∧ MigrationLog.Run config whole.log ∧
    ∀ thread pair moved, ((∃ id, whole.log.system.threads thread = .get (.write id pair)) ∨
        ∃ caller zone chunk data,
          whole.log.system.threads thread = .evict caller (.gcWrite zone chunk pair data)) →
      0 < moved → moved ≤ config.chunkSz →
      ∃ after, (chunkWrite config ioSize pair).run whole.device ⟨false, 0, true⟩ moved =
        some after ∧ ¬ (chunkWrite config ioSize pair).Accepted after := by
  obtain ⟨sound, reached⟩ := run.sound setup someZone zones limit
  refine ⟨sound.accepts setup, sound.fits, ?_, reached,
    fun _ _ _ writes bytes within => sound.refusesAgain setup writes bytes within⟩
  have inPlay := sound.fits.openCount_le sound.zones sound.made.numZones
  have within := sound.zones.partition.within
  rw [Multiset.card_map, sound.made.maxNrActiveZones] at within
  exact inPlay.trans within

theorem gc_never_refused_moveThenReset :
    ∃ start whole : ChunkDeviceSystem (Fin 2),
      chunkSystem MigrationLog.migratingConfig = some start.log.system ∧
      start.device = Device.blank 8192 8192 2 1 ∧
      runActions (ChunkDeviceSystem.step MigrationLog.migratingConfig 4096) start
        ((MigrationLog.moveThenReset 0 1).map fun action => (action, 0)) = some whole ∧
      whole.device.condition 0 = .empty ∧ whole.device.condition 1 = .opened ∧
      whole.device.openCount ≤ 1 := by
  cases begins : (chunkSystem MigrationLog.migratingConfig : Option (ChunkSystem (Fin 2))) with
  | none => cases begins
  | some system =>
      cases ran : runActions (ChunkDeviceSystem.step MigrationLog.migratingConfig 4096)
          ⟨⟨system, []⟩, Device.blank 8192 8192 2 1, []⟩
          ((MigrationLog.moveThenReset 0 1).map fun action => (action, 0)) with
      | none => cases Option.some.inj begins; cases ran
      | some whole =>
          have run : Run MigrationLog.migratingConfig 4096 2 1 whole :=
            Reach.of_runActions _ (.start ⟨begins, rfl, rfl, rfl⟩) (untorn_of_none _ _) ran
          have setup : ZnsSetup MigrationLog.migratingConfig 4096 := by constructor <;> decide
          obtain ⟨_, _, within, _⟩ :=
            gc_never_refused setup (by decide) (by decide) (by decide) run
          have conditions : whole.device.condition 0 = .empty ∧
              whole.device.condition 1 = .opened := by
            cases Option.some.inj begins
            cases Option.some.inj ran
            exact ⟨rfl, rfl⟩
          exact ⟨⟨⟨system, []⟩, _, []⟩, whole, rfl, rfl, ran, conditions.1, conditions.2, within⟩

end ChunkDeviceSystem

end ZNCache
