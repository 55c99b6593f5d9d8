import ZNCache.HitData
import ZNCache.Lib.Simulation
import ZNCache.Placement

/-!
# Where the threads of a cache place their chunks

Seen from the zone state manager, a cache with any number of threads is one caller:
each step of a thread is one of its calls or none.  What holds of all runs of the
manager therefore holds in every interleaving of the threads.
-/

set_option autoImplicit false

namespace ZNCache

open Tally Transition

variable {Thread : Type} [Fintype Thread] [DecidableEq Thread]

/-- The zone manager of a cache, and the pairs that its threads hold. -/
def handoutOf (system : PromotionalSystem Thread) : Handout :=
  ⟨system.cache.zoneState, tally ThreadPc.holds system.threads⟩

def GetPc.zsmCall (commandRet : Int) : GetPc → Option ZsmCall
  | acquire _ => some (.getActiveZone commandRet)
  | giveBack _ location => some (.returnActiveZone commandRet location)
  | undoZone _ location => some (.failedToWrite location)
  | find _ | asleep _ | read _ _ | touch _ _ _ | release _ _ _ | countHit _ _ => none
  | write _ _ | countMiss _ _ | record _ _ | insert _ _ | undoMap _ => none

def EvictPc.zsmCall (commandRet : Int) : EvictPc → Option ZsmCall
  | reset _ _ zone => some (.evict commandRet zone)
  | start | loop _ _ | clear _ _ _ | wait _ _ _ => none

def ThreadPc.zsmCall : ThreadPc EvictPc → Choice → Option ZsmCall
  | get pc, .run environment => pc.zsmCall environment.commandRet
  | evict _ code, .run environment => code.zsmCall environment.commandRet
  | _, _ => none

section Step

variable {config : CacheConfig} {thread : Thread} {choice : Choice}
  {cache after : PromotionalCache Thread} {pc next : ThreadPc EvictPc}

/-- What one step of a thread is to the zone manager. -/
def MakesCall (manager after : ZoneStateManager) (pairs pairs' : Multiset ZnPair) :
    Option ZsmCall → Prop
  | none => after = manager ∧ pairs' = pairs
  | some call => Handout.step ⟨manager, pairs⟩ call = some ⟨after, pairs'⟩

omit [Fintype Thread] in
theorem GetStep.makesCall {Policy Local : Type} {code : EvictionCode Thread Policy Local}
    {cache after : ZnCache Thread Policy} {environment : Environment} {pc : GetPc}
    {next : ThreadPc Local} (taken : GetStep code thread cache environment pc after next)
    (others : Multiset ZnPair) :
    MakesCall cache.zoneState after.zoneState (pc.holds + others) (next.holds + others)
      (pc.zsmCall environment.commandRet) := by
  cases taken with
  | find id =>
      refine ⟨rfl, ?_⟩
      rw [ThreadPc.holds, ThreadPc.lift_afterFind (fun _ => rfl) rfl rfl]
      rfl
  | acquire id =>
      rw [ThreadPc.holds_afterGetActiveZone, GetPc.holds, zero_add]
      simp only [MakesCall, GetPc.zsmCall, Handout.step, Handout.call]
      cases (zsmGetActiveZone environment.commandRet cache.zoneState).ret with
      | success pair => simp [GetActiveZone.hands]
      | retry | error | evict => simp [GetActiveZone.hands]
  | giveBack id location =>
      simp [MakesCall, GetPc.zsmCall, GetPc.holds, Handout.step, Handout.call, ThreadPc.holds,
        ThreadPc.lift]
  | undoZone id location =>
      simp [MakesCall, GetPc.zsmCall, GetPc.holds, Handout.step, Handout.call, ThreadPc.holds,
        ThreadPc.lift]
  | woken | read | touch | release | countHit | write | writeFailed => exact ⟨rfl, rfl⟩
  | countMiss | record | insert | undoMap => exact ⟨rfl, rfl⟩

omit [Fintype Thread] [DecidableEq Thread] in
theorem FgEvictStep.makesCall {environment : Environment} {pc : EvictPc}
    {next : Option EvictPc} (taken : FgEvictStep cache environment pc after next)
    (success : environment.commandRet = 0)
    (full : ∀ zone ∈ pc.takes, IsFull cache.zoneState zone) (pairs : Multiset ZnPair) :
    MakesCall cache.zoneState after.zoneState pairs pairs (pc.zsmCall environment.commandRet) := by
  cases taken with
  | reset i freeZones zone =>
      have zoneFull := full zone (Multiset.mem_singleton_self zone)
      simp only [MakesCall, EvictPc.zsmCall, Handout.step, Handout.call, success]
      rw [if_pos ⟨zoneFull.1, zoneFull.2⟩]
      rfl
  | start | enough | nothing | take | clear | wait => exact ⟨rfl, rfl⟩

omit [Fintype Thread] in
theorem ThreadStep.makesCall
    (moved : ThreadStep (promotionalCode config) thread cache pc choice after next)
    (success : ∀ environment, choice = .run environment → environment.commandRet = 0)
    (full : ∀ zone ∈ pc.ownsFull config, IsFull cache.zoneState zone)
    (others : Multiset ZnPair) :
    MakesCall cache.zoneState after.zoneState (pc.holds + others) (next.holds + others)
      (pc.zsmCall choice) := by
  cases moved with
  | call | callEvict | wakeUp => exact ⟨rfl, rfl⟩
  | get ran => exact ran.makesCall others
  | evict caller next ran => exact (fgEvictStep_spec ran).makesCall (success _ rfl) full _
  | evicted caller ran =>
      have made := (fgEvictStep_spec ran).makesCall (success _ rfl) full
        ((0 : Multiset ZnPair) + others)
      rw [ThreadPc.holds, ThreadPc.lift_afterEvict (fun _ => rfl)]
      exact made

omit [Fintype Thread] [DecidableEq Thread] in
theorem ThreadPc.zsmCall_success {pc : ThreadPc EvictPc} {call : ZsmCall}
    (made : pc.zsmCall choice = some call)
    (success : ∀ environment, choice = .run environment → environment.commandRet = 0) :
    call.commandRet = 0 := by
  cases choice with
  | get | evict | wakeUp => cases pc <;> cases made
  | run environment =>
      have zero := success environment rfl
      cases pc with
      | idle => cases made
      | get pc => cases pc <;> cases made <;> first | exact zero | rfl
      | evict caller code =>
          cases code <;> cases made
          exact zero

end Step

omit [Fintype Thread] in
theorem System.step_get {Policy Local : Type} {code : EvictionCode Thread Policy Local}
    {system : System Thread Policy Local} {thread : Thread} {pc : GetPc}
    {environment : Environment} (here : system.threads thread = .get pc) :
    system.step code (thread, .run environment) =
      (getStep code thread system.cache environment pc).map fun next =>
        system.advance thread next.1 next.2 := by
  simp [System.step, here]

section Run

variable {config : CacheConfig} {system next : PromotionalSystem Thread}

/-- One step of the system is one call of the zone manager or none. -/
theorem ZonesOwned.handoutStep (owned : ZonesOwned config system) {action : Thread × Choice}
    (success : CommandsSucceed action)
    (taken : system.step (promotionalCode config) action = some next) :
    match (system.threads action.1).zsmCall action.2 with
    | none => handoutOf next = handoutOf system
    | some call => (handoutOf system).step call = some (handoutOf next) := by
  obtain ⟨thread, choice⟩ := action
  obtain ⟨cache, pc, rfl, moved⟩ := System.step_spec taken
  have mine : ∀ zone ∈ (system.threads thread).ownsFull config,
      IsFull system.cache.zoneState zone := fun zone member =>
    owned.owner.mpr (.inr ⟨thread, member⟩)
  have made := moved.makesCall success mine (others ThreadPc.holds system.threads thread)
  simp only [handoutOf, System.advance]
  rw [tally_update, tally_split _ system.threads thread]
  cases call : (system.threads thread).zsmCall choice with
  | none =>
      rw [call] at made
      simp [made.1, made.2]
  | some call' =>
      rw [call] at made
      exact made

omit [Fintype Thread] [DecidableEq Thread] in
theorem clearZone_locates {map : CacheMap Thread} {zone : Nat}
    {answer : Outcome (CacheMap Thread) Unit} (cleared : znCachemapClearZone map zone = some answer)
    {id : Nat} {location : ZnPair} (located : answer.state.Locates id location) :
    map.Locates id location := by
  obtain ⟨entry, found, isLoc, there⟩ := located
  rw [(znCachemapClearZone_state cleared).1 id] at found
  split at found
  next =>
      obtain ⟨old, _, rfl⟩ := Option.map_eq_some_iff.mp found
      simp [ZoneMapResult.emptied] at isLoc
  next => exact ⟨entry, found, isLoc, there⟩

omit [Fintype Thread] in
theorem GetStep.locates {Policy Local : Type} {code : EvictionCode Thread Policy Local}
    {thread : Thread} {cache after : ZnCache Thread Policy} {environment : Environment}
    {pc : GetPc} {next : ThreadPc Local} {writers : Multiset Nat}
    (taken : GetStep code thread cache environment pc after next)
    (small : ∀ id ∈ pc.seeks, id < 2 ^ 32)
    (agrees : CacheMapAgrees cache.cacheMap (pc.writes + writers)) {id : Nat} {location : ZnPair}
    (located : after.cacheMap.Locates id location) :
    cache.cacheMap.Locates id location ∨ pc = .insert id location := by
  cases taken with
  | find other =>
      have found := znCachemapFind_spec thread cache.cacheMap (small other (by simp [GetPc.seeks]))
      exact .inl (found.locates.2 id location located)
  | insert other place answer inserted =>
      have agrees : CacheMapAgrees cache.cacheMap (other ::ₘ writers) := agrees
      cases Option.some.inj (inserted.symm.trans (agrees.insert place))
      rcases CacheMap.located_locates located with ⟨rfl, rfl⟩ | ⟨_, before⟩
      · exact .inr rfl
      · exact .inl before
  | undoMap other answer failed =>
      have agrees : CacheMapAgrees cache.cacheMap (other ::ₘ writers) := agrees
      obtain ⟨outcome, entry, ran, _, _, emptied, state⟩ := agrees.fail
      cases Option.some.inj (failed.symm.trans ran)
      rw [state] at located
      exact .inl (locates_setEntry (by simp [emptied]) located)
  | woken | read | touch | release | countHit | acquire => exact .inl located
  | write | writeFailed | countMiss | giveBack | record | undoZone => exact .inl located

omit [Fintype Thread] in
theorem ThreadStep.locates {thread : Thread} {choice : Choice}
    {cache after : PromotionalCache Thread} {pc next : ThreadPc EvictPc} {writers : Multiset Nat}
    (moved : ThreadStep (promotionalCode config) thread cache pc choice after next)
    (small : ∀ id ∈ pc.seeks, id < 2 ^ 32)
    (agrees : CacheMapAgrees cache.cacheMap (pc.writes + writers)) {id : Nat} {location : ZnPair}
    (located : after.cacheMap.Locates id location) :
    cache.cacheMap.Locates id location ∨ (id, location) ∈ pc.pending := by
  have evicting : ∀ {environment : Environment} {pc : EvictPc} {next : Option EvictPc},
      FgEvictStep cache environment pc after next → cache.cacheMap.Locates id location := by
    intro environment pc next taken
    cases taken with
    | clear i freeZones zone answer cleared => exact clearZone_locates cleared located
    | start | enough | nothing | take | wait | reset => exact located
  cases moved with
  | call | callEvict => exact .inl located
  | wakeUp other => exact .inl ((CacheMap.wakeUp_locates _ thread other).2.2 id location located)
  | evict caller next ran => exact .inl (evicting (fgEvictStep_spec ran))
  | evicted caller ran => exact .inl (evicting (fgEvictStep_spec ran))
  | get ran =>
      rcases ran.locates small agrees located with before | here
      · exact .inl before
      · subst here
        exact .inr (Multiset.mem_singleton_self _)

def ThreadPc.uses (pc : ThreadPc EvictPc) : Multiset (Nat × ZnPair) := pc.pending + pc.reads

omit [Fintype Thread] in
theorem ThreadStep.uses {thread : Thread} {choice : Choice}
    {cache after : PromotionalCache Thread} {pc next : ThreadPc EvictPc}
    (moved : ThreadStep (promotionalCode config) thread cache pc choice after next)
    (small : ∀ id ∈ pc.seeks, id < 2 ^ 32) {id : Nat} {location : ZnPair}
    (member : (id, location) ∈ next.uses) :
    (id, location) ∈ pc.uses ∨ cache.cacheMap.Locates id location ∨
      pc = .get (.giveBack id location) := by
  cases moved with
  | call | callEvict | wakeUp | evict => cases member
  | evicted caller => cases caller <;> cases member
  | get ran =>
      cases ran with
      | find other =>
          have found := znCachemapFind_spec thread cache.cacheMap
            (small other (by simp [ThreadPc.seeks, ThreadPc.lift, GetPc.seeks]))
          generalize znCachemapFind thread cache.cacheMap other = answer at found member
          obtain ⟨result, map⟩ := answer
          cases found with
          | loc entry present located =>
              cases Multiset.mem_singleton.mp member
              exact .inr (.inl ⟨entry, present, located, rfl⟩)
          | wait | claim => cases member
      | acquire other =>
          generalize (zsmGetActiveZone _ cache.zoneState).ret = ret at member
          cases ret <;> cases member
      | giveBack other place =>
          cases Multiset.mem_singleton.mp member
          exact .inr (.inr rfl)
      | read | touch | record => exact .inl member
      | woken | release | countHit | write | writeFailed | countMiss => cases member
      | insert | undoZone | undoMap => cases member

/-- The identifier's chunk is located, about to be, or may be being read. -/
def InUse (system : PromotionalSystem Thread) (id : Nat) (location : ZnPair) : Prop :=
  system.cache.cacheMap.Locates id location ∨
    ∃ thread, (id, location) ∈ (system.threads thread).uses

/-- A chunk comes into use when its writer gives its pair back. -/
theorem MapSound.inUse_step (sound : MapSound (2 ^ 32) system) {action : Thread × Choice}
    (taken : system.step (promotionalCode config) action = some next) {id : Nat}
    {location : ZnPair} (used : InUse next id location) :
    InUse system id location ∨ system.threads action.1 = .get (.giveBack id location) := by
  obtain ⟨thread, choice⟩ := action
  obtain ⟨cache, pc, rfl, moved⟩ := System.step_spec taken
  have small := sound.seeks thread
  rcases used with located | ⟨other, member⟩
  · rcases moved.locates small (sound.split thread) located with before | pending
    · exact .inl (.inl before)
    · exact .inl (.inr ⟨thread, Multiset.mem_add.mpr (.inl pending)⟩)
  · by_cases same : other = thread
    · subst same
      simp only [System.advance, Function.update_self] at member
      rcases moved.uses small member with mine | located | returns
      · exact .inl (.inr ⟨other, mine⟩)
      · exact .inl (.inl located)
      · exact .inr returns
    · simp only [System.advance, Function.update_of_ne same] at member
      exact .inl (.inr ⟨other, member⟩)

omit [DecidableEq Thread] in
theorem HitsSound.unused_of_reset (sound : HitsSound config system) {thread : Thread}
    {caller : Option Nat} {i freeZones zone : Nat}
    (here : system.threads thread = .evict caller (.reset i freeZones zone)) {id : Nat}
    {location : ZnPair} (used : InUse system id location) : location.zone ≠ zone := by
  have drained : zone ∈ (underwayOf system.threads).drained :=
    mem_tally.mpr ⟨thread, by simp [here, ThreadPc.evicting, EvictPc.drained]⟩
  have cleared := sound.hits.drainedCleared zone drained
  rcases used with located | ⟨other, member⟩
  · exact sound.hits.unmapped zone cleared id location located
  · rcases Multiset.mem_add.mp member with pending | reading
    · exact sound.hits.settled zone cleared (id, location) (mem_tally.mpr ⟨other, pending⟩)
    · exact sound.hits.unread zone drained (id, location) (mem_tally.mpr ⟨other, reading⟩)

end Run

/-! ## The log of the manager's calls -/

section Log

variable {config : CacheConfig} {system next : PromotionalSystem Thread}

def PlacementLog.ofConfig (config : CacheConfig) : PlacementLog :=
  PlacementLog.init config.nrZones config.zoneCap config.zoneSize config.chunkSz
    config.maxActive config.backend

theorem ZonesOwned.logStep (owned : ZonesOwned config system) {log : PlacementLog}
    (same : log.handout = handoutOf system) {action : Thread × Choice}
    (success : CommandsSucceed action)
    (taken : system.step (promotionalCode config) action = some next) :
    match (system.threads action.1).zsmCall action.2 with
    | none => log.handout = handoutOf next
    | some call => call.commandRet = 0 ∧ log.step call =
        some ⟨handoutOf next, log.nowWritten call, log.nowRetry call⟩ := by
  have made := owned.handoutStep success taken
  cases call : (system.threads action.1).zsmCall action.2 with
  | none =>
      rw [call] at made
      exact same.trans made.symm
  | some call' =>
      rw [call] at made
      refine ⟨ThreadPc.zsmCall_success call success, ?_⟩
      rw [PlacementLog.step, same, made]
      rfl

/-- Whatever the threads do, the manager and the pairs they hold are those of a run of the
manager alone. -/
theorem threads_follow_manager (fits : config.maxZoneChunks < 2 ^ 32)
    (reached : PromotionalRun config (fun _ action => CommandsSucceed action) system) :
    ∃ log, PlacementLog.Run (PlacementLog.ofConfig config) log ∧
      log.handout = handoutOf system := by
  apply Reach.simulated _ _ reached
  · intro start begins
    obtain ⟨_, zoneState, _, _, idle⟩ := System.init_spec begins
    refine ⟨PlacementLog.ofConfig config, rfl, ?_⟩
    simp only [handoutOf, zoneState]
    rw [tally_const_zero _ _ fun thread => by rw [idle thread]; rfl]
    rfl
  · intro state log action later before same success taken
    have owned := ZonesOwned.of_run fits (fun _ _ success => success) before
    have followed := owned.logStep same success taken
    cases call : (state.threads action.1).zsmCall action.2 with
    | none =>
        rw [call] at followed
        exact .stay followed
    | some call' =>
        rw [call] at followed
        exact .one followed.1 followed.2 rfl

/-- A fill, an eviction and a write of the map that comes too late are calls of the manager
that follow each other. -/
theorem threads_follow_manager_earlyEviction :
    ∃ system : PromotionalSystem (Fin 2),
      System.execute (promotionalCode oneChunkConfig) oneChunkConfig (promotionalInit 1)
        (earlyEviction 0 1) = some system ∧
      ∃ log, PlacementLog.Run (PlacementLog.ofConfig oneChunkConfig) log ∧
        log.handout = handoutOf system := by
  cases executed : System.execute (promotionalCode oneChunkConfig) oneChunkConfig
      (promotionalInit 1) (earlyEviction (0 : Fin 2) 1) with
  | none => cases executed
  | some system =>
      refine ⟨system, rfl, threads_follow_manager (by decide) ?_⟩
      refine System.reach_of_execute executed fun start _ => AllowedAlong.of_forall _ start ?_
      simp [earlyEviction, CommandsSucceed, Environment.smooth]

theorem MapSound.of_keeps {Policy Local : Type} {code : EvictionCode Thread Policy Local}
    (keeps : code.KeepsMap) {policy : Policy}
    {allowed : System Thread Policy Local → Thread × Choice → Prop}
    {system : System Thread Policy Local}
    (reached : Reach (System.step code) allowed (System.init config policy = some ·) system) :
    MapSound (2 ^ 32) system :=
  reached.invariant (fun _ begins => MapSound.init begins)
    fun _ _ _ sound _ taken =>
      sound.step keeps.here (Nat.le_refl _) (System.getsBelow_of_step taken) taken

abbrev SettledRun (config : CacheConfig) (system : PromotionalSystem Thread) : Prop :=
  PromotionalRun config
    (fun system action => CommandsSucceed action ∧ ClearsSettled system action) system

theorem SettledRun.hitsSound (fits : config.maxZoneChunks < 2 ^ 32)
    (reached : SettledRun config system) : HitsSound config system :=
  reached.invariant (fun _ begins => HitsSound.init begins)
    fun _ _ _ sound permitted taken => sound.step fits permitted.1 permitted.2 taken

omit [DecidableEq Thread] in
theorem HitsSound.stored_of_inUse (sound : HitsSound config system) {id : Nat}
    {location : ZnPair} (used : InUse system id location) : Stored system.cache location id := by
  rcases used with located | ⟨thread, member⟩
  · exact sound.hits.mapped id location located
  · rcases Multiset.mem_add.mp member with pending | reading
    · exact sound.hits.pending (id, location) (mem_tally.mpr ⟨thread, pending⟩)
    · exact sound.hits.reading (id, location) (mem_tally.mpr ⟨thread, reading⟩)

omit [DecidableEq Thread] in
theorem ZonesOwned.held_inDevice (owned : ZonesOwned config system)
    (someChunk : 1 ≤ config.chunkSz) (chunkFits : config.chunkSz ≤ config.zoneCap)
    (thread : Thread) (pair : ZnPair) (member : pair ∈ (system.threads thread).holds) :
    pair.zone < config.nrZones ∧ pair.chunkOffset < config.maxZoneChunks := by
  obtain ⟨partition, entries, _⟩ := owned.zones
  have held : pair ∈ tally ThreadPc.holds system.threads := mem_tally.mpr ⟨thread, member⟩
  obtain ⟨below, writing⟩ := (partition.heldIff pair.zone).mp
    (Multiset.mem_map_of_mem ZnPair.zone held)
  have chunks : 0 < system.cache.zoneState.maxZoneChunks := by
    rw [owned.maxChunks]
    exact Nat.div_pos chunkFits someChunk
  have room := entries.offsetRoom pair.zone (.inr writing) chunks
  rw [← partition.heldOffset pair held, owned.maxChunks] at room
  exact ⟨owned.nrZones ▸ below, room⟩

/-- Chunks in use lie in zones of the device, even where an early eviction has reset them. -/
theorem inUse_inDevice (someChunk : 1 ≤ config.chunkSz)
    (chunkFits : config.chunkSz ≤ config.zoneCap) (fits : config.maxZoneChunks < 2 ^ 32)
    {allowed : PromotionalSystem Thread → Thread × Choice → Prop}
    (success : ∀ system action, allowed system action → CommandsSucceed action)
    (reached : PromotionalRun config allowed system) {id : Nat} {location : ZnPair}
    (used : InUse system id location) :
    location.zone < config.nrZones ∧ location.chunkOffset < config.maxZoneChunks := by
  induction reached generalizing id location with
  | start begins =>
      obtain ⟨_, _, emptyMap, _, idle⟩ := System.init_spec begins
      rcases used with ⟨_, found, _⟩ | ⟨thread, member⟩
      · rw [emptyMap] at found
        cases found
      · rw [idle thread] at member
        cases member
  | @step state later action before permitted taken ih =>
      have owned := ZonesOwned.of_run fits success before
      have map : MapSound (2 ^ 32) state :=
        MapSound.of_keeps (promotionalCode_keepsMap config) before
      rcases map.inUse_step taken used with earlier | returns
      · exact ih earlier
      · refine owned.held_inDevice someChunk chunkFits action.1 _ ?_
        simp [returns, ThreadPc.holds, ThreadPc.lift, GetPc.holds]

def bytesOf (config : CacheConfig) (location : ZnPair) : Set Nat :=
  chunkBytes config.zoneSize config.chunkSz (location.zone, location.chunkOffset)

theorem bytesOf_disjoint (capFits : config.zoneCap ≤ config.zoneSize)
    (device : config.zoneSize * config.nrZones < 2 ^ 64) {location place : ZnPair}
    (inDevice : location.zone < config.nrZones ∧ location.chunkOffset < config.maxZoneChunks)
    (placeInDevice : place.zone < config.nrZones ∧ place.chunkOffset < config.maxZoneChunks)
    (apart : location.zone = place.zone → location.chunkOffset ≠ place.chunkOffset) :
    Disjoint (bytesOf config location) (bytesOf config place) :=
  chunkBytes_disjoint capFits device inDevice placeInDevice fun same =>
    apart (Prod.mk.inj same).1 (Prod.mk.inj same).2

theorem bytesOf_inDevice (capFits : config.zoneCap ≤ config.zoneSize)
    (device : config.zoneSize * config.nrZones < 2 ^ 64) {location : ZnPair}
    (inDevice : location.zone < config.nrZones ∧ location.chunkOffset < config.maxZoneChunks) :
    bytesOf config location ⊆ Set.Iio (config.zoneSize * config.nrZones) := by
  intro byte member
  obtain ⟨_, ends, _⟩ := @chunkPointer_exact _ _ _ config.chunkSz
    (location.zone, location.chunkOffset) capFits device inDevice.1 inDevice.2
  calc byte < _ := member.2
    _ ≤ config.zoneSize * (location.zone + 1) := ends
    _ ≤ config.zoneSize * config.nrZones := Nat.mul_le_mul_left _ inDevice.1

end Log

/-- One thread misses identifier 7, the other is about to write identifier 8 behind it, and
the first is about to read its chunk again. -/
def readBesideWrite (reader writer : Thread) : List (Thread × Choice) :=
  missThenHit reader ++ [(writer, .get 8), (writer, .run .smooth), (writer, .run .smooth)]

end ZNCache
