import ZNCache.CacheMapAgreement
import ZNCache.Lib.Tally
import ZNCache.Occupancy
import ZNCache.Workers

/-!
# What one step of a thread does

Inversion of the step function, what a thread holds at each program counter, and
the effect of each section of `zn_cache_get` on the cache map and the zones.  All
of it is independent of the eviction policy.
-/

set_option autoImplicit false

namespace ZNCache

open Tally Transition

variable {Thread Policy Local : Type} [DecidableEq Thread]

/-! ## Inversion -/

inductive GetStep (code : EvictionCode Thread Policy Local) (thread : Thread)
    (cache : ZnCache Thread Policy) (environment : Environment) :
    GetPc → ZnCache Thread Policy → ThreadPc Local → Prop
  | find (id : Nat) :
      GetStep code thread cache environment (.find id)
        { cache with cacheMap := (znCachemapFind thread cache.cacheMap id).2 }
        (afterFind id (znCachemapFind thread cache.cacheMap id).1)
  | woken (id : Nat) (awake : cache.cacheMap.sleeping thread id = false) :
      GetStep code thread cache environment (.asleep id) cache (.get (.find id))
  | read (id : Nat) (location : ZnPair) (data : Option Nat)
      (seen : data = none ∨ data = cache.disk location.zone location.chunkOffset) :
      GetStep code thread cache environment (.read id location) cache
        (.get (.touch id location data))
  | touch (id : Nat) (location : ZnPair) (data : Option Nat) (policy : Policy)
      (updated : code.update cache.evictionPolicy location .read = some policy) :
      GetStep code thread cache environment (.touch id location data)
        { cache with evictionPolicy := policy } (.get (.release id location data))
  | release (id : Nat) (location : ZnPair) (data : Option Nat) :
      GetStep code thread cache environment (.release id location data)
        { cache with cacheMap := cache.cacheMap.releaseReader location.zone }
        (.get (.countHit id data))
  | countHit (id : Nat) (data : Option Nat) :
      GetStep code thread cache environment (.countHit id data)
        { cache with hits := cache.hits + 1 } .idle
  | acquire (id : Nat) :
      GetStep code thread cache environment (.acquire id)
        { cache with
          zoneState := (zsmGetActiveZone environment.commandRet cache.zoneState).state }
        (afterGetActiveZone id code.start
          (zsmGetActiveZone environment.commandRet cache.zoneState).ret)
  | write (id : Nat) (location : ZnPair) (written : environment.transfers = true) :
      GetStep code thread cache environment (.write id location)
        (cache.writeChunk location (some id)) (.get (.countMiss id location))
  | writeFailed (id : Nat) (location : ZnPair) (fails : environment.transfers = false) :
      GetStep code thread cache environment (.write id location)
        (cache.writeChunk location none) (.get (.undoZone id location))
  | countMiss (id : Nat) (location : ZnPair) :
      GetStep code thread cache environment (.countMiss id location)
        { cache with misses := cache.misses + 1 } (.get (.giveBack id location))
  | giveBack (id : Nat) (location : ZnPair) :
      GetStep code thread cache environment (.giveBack id location)
        { cache with
          zoneState :=
            (zsmReturnActiveZone environment.commandRet cache.zoneState location).state }
        (.get (.record id location))
  | record (id : Nat) (location : ZnPair) (policy : Policy)
      (updated : code.update cache.evictionPolicy location .write = some policy) :
      GetStep code thread cache environment (.record id location)
        { cache with evictionPolicy := policy } (.get (.insert id location))
  | insert (id : Nat) (location : ZnPair) (answer : Outcome (CacheMap Thread) Unit)
      (inserted : znCachemapInsert cache.cacheMap id location = some answer) :
      GetStep code thread cache environment (.insert id location)
        { cache with cacheMap := answer.state } .idle
  | undoZone (id : Nat) (location : ZnPair) :
      GetStep code thread cache environment (.undoZone id location)
        { cache with zoneState := (zsmFailedToWrite cache.zoneState location).state }
        (.get (.undoMap id))
  | undoMap (id : Nat) (answer : Outcome (CacheMap Thread) Unit)
      (failed : znCachemapFail cache.cacheMap id = some answer) :
      GetStep code thread cache environment (.undoMap id)
        { cache with cacheMap := answer.state } .idle

theorem getStep_spec {code : EvictionCode Thread Policy Local} {thread : Thread}
    {cache after : ZnCache Thread Policy} {environment : Environment} {pc : GetPc}
    {next : ThreadPc Local}
    (taken : getStep code thread cache environment pc = some (after, next)) :
    GetStep code thread cache environment pc after next := by
  cases pc with
  | find id => cases Option.some.inj taken; exact .find id
  | asleep id =>
      simp only [getStep] at taken
      cases asleep : cache.cacheMap.sleeping thread id with
      | true => simp [asleep] at taken
      | false =>
          rw [asleep, if_neg (by simp)] at taken
          cases Option.some.inj taken
          exact .woken id asleep
  | read id location =>
      cases Option.some.inj taken
      refine .read id location _ ?_
      split
      · exact .inr rfl
      · exact .inl rfl
  | touch id location data =>
      simp only [getStep] at taken
      cases updated : code.update cache.evictionPolicy location .read with
      | none => simp [updated] at taken
      | some policy =>
          rw [updated] at taken
          cases Option.some.inj taken
          exact .touch id location data policy updated
  | release id location data => cases Option.some.inj taken; exact .release id location data
  | countHit id data => cases Option.some.inj taken; exact .countHit id data
  | acquire id => cases Option.some.inj taken; exact .acquire id
  | write id location =>
      simp only [getStep] at taken
      split at taken
      next written =>
          cases Option.some.inj taken
          exact .write id location written
      next fails =>
          cases Option.some.inj taken
          exact .writeFailed id location (Bool.eq_false_of_not_eq_true fails)
  | countMiss id location => cases Option.some.inj taken; exact .countMiss id location
  | giveBack id location => cases Option.some.inj taken; exact .giveBack id location
  | record id location =>
      simp only [getStep] at taken
      cases updated : code.update cache.evictionPolicy location .write with
      | none => simp [updated] at taken
      | some policy =>
          rw [updated] at taken
          cases Option.some.inj taken
          exact .record id location policy updated
  | insert id location =>
      simp only [getStep] at taken
      cases inserted : znCachemapInsert cache.cacheMap id location with
      | none => simp [inserted] at taken
      | some answer =>
          rw [inserted] at taken
          cases Option.some.inj taken
          exact .insert id location answer inserted
  | undoZone id location => cases Option.some.inj taken; exact .undoZone id location
  | undoMap id =>
      simp only [getStep] at taken
      cases failed : znCachemapFail cache.cacheMap id with
      | none => simp [failed] at taken
      | some answer =>
          rw [failed] at taken
          cases Option.some.inj taken
          exact .undoMap id answer failed

/-- One step of the system: what the thread leaves of the cache and where it goes. -/
inductive ThreadStep (code : EvictionCode Thread Policy Local) (thread : Thread)
    (cache : ZnCache Thread Policy) :
    ThreadPc Local → Choice → ZnCache Thread Policy → ThreadPc Local → Prop
  | call (id : Nat) (small : id < 2 ^ 32) :
      ThreadStep code thread cache .idle (.get id) cache (.get (.find id))
  | callEvict :
      ThreadStep code thread cache .idle .evict cache (.evict none code.start)
  | wakeUp (id : Nat) :
      ThreadStep code thread cache (.get (.asleep id)) .wakeUp
        { cache with cacheMap := cache.cacheMap.wakeUp thread id } (.get (.find id))
  | get {pc : GetPc} {environment : Environment} {after : ZnCache Thread Policy}
      {next : ThreadPc Local}
      (ran : GetStep code thread cache environment pc after next) :
      ThreadStep code thread cache (.get pc) (.run environment) after next
  | evict (caller : Option Nat) {pc : Local} (next : Local) {environment : Environment}
      {after : ZnCache Thread Policy}
      (ran : code.evictStep thread cache pc environment = some (after, some next)) :
      ThreadStep code thread cache (.evict caller pc) (.run environment) after
        (.evict caller next)
  | evicted (caller : Option Nat) {pc : Local} {environment : Environment}
      {after : ZnCache Thread Policy}
      (ran : code.evictStep thread cache pc environment = some (after, none)) :
      ThreadStep code thread cache (.evict caller pc) (.run environment) after
        (afterEvict caller)

theorem System.step_spec {code : EvictionCode Thread Policy Local}
    {system next : System Thread Policy Local} {thread : Thread} {choice : Choice}
    (taken : system.step code (thread, choice) = some next) :
    ∃ cache pc, next = system.advance thread cache pc ∧
      ThreadStep code thread system.cache (system.threads thread) choice cache pc := by
  unfold System.step at taken
  generalize system.threads thread = here at taken ⊢
  dsimp only at taken
  split at taken
  next =>
      split at taken
      next small =>
          cases Option.some.inj taken
          exact ⟨_, _, rfl, .call _ small⟩
      next => simp at taken
  next =>
      cases Option.some.inj taken
      exact ⟨_, _, rfl, .callEvict⟩
  next =>
      cases Option.some.inj taken
      exact ⟨_, _, rfl, .wakeUp _⟩
  next =>
      obtain ⟨⟨after, next⟩, ran, rfl⟩ := Option.map_eq_some_iff.mp taken
      exact ⟨_, _, rfl, .get (getStep_spec ran)⟩
  next =>
      obtain ⟨⟨after, next⟩, ran, rfl⟩ := Option.map_eq_some_iff.mp taken
      cases next with
      | none => exact ⟨_, _, rfl, .evicted _ ran⟩
      | some next => exact ⟨_, _, rfl, .evict _ next ran⟩
  next => simp at taken

omit [DecidableEq Thread] in
theorem System.init_spec {config : CacheConfig} {policy : Policy}
    {system : System Thread Policy Local} (begins : System.init config policy = some system) :
    config.nrZones < 2 ^ 31 ∧
      system.cache.zoneState = zsmInit config.nrZones config.zoneCap config.zoneSize
        config.chunkSz config.maxActive config.backend ∧
      system.cache.cacheMap = znCachemapInit ∧ system.cache.evictionPolicy = policy ∧
      ∀ thread, system.threads thread = .idle := by
  obtain ⟨cache, built, rfl⟩ := Option.map_eq_some_iff.mp begins
  unfold znInitCache at built
  split at built
  next valid =>
      cases Option.some.inj built
      exact ⟨valid.1, rfl, rfl, rfl, fun _ => rfl⟩
  next => simp at built

theorem System.reach_of_execute {code : EvictionCode Thread Policy Local}
    {config : CacheConfig} {policy : Policy} {actions : List (Thread × Choice)}
    {system : System Thread Policy Local}
    (executed : System.execute code config policy actions = some system)
    {allowed : System Thread Policy Local → Thread × Choice → Prop}
    (permitted : ∀ start, System.init config policy = some start →
      AllowedAlong (System.step code) allowed start actions) :
    Reach (System.step code) allowed (System.init config policy = some ·) system := by
  obtain ⟨start, begins, ran⟩ := Option.bind_eq_some_iff.mp executed
  exact Reach.of_runActions actions (Reach.start begins) (permitted start begins) ran

/-! ## What a thread holds -/

/-- The identifier that the thread is about to look up, again or for the first time. -/
def GetPc.seeks : GetPc → Multiset Nat
  | find id | asleep id => {id}
  | read _ _ | touch _ _ _ | release _ _ _ | countHit _ _ => 0
  | acquire _ | write _ _ | countMiss _ _ | giveBack _ _ | record _ _ | insert _ _ => 0
  | undoZone _ _ | undoMap _ => 0

/-- The identifier between the find that claimed it and its insert or fail. -/
def GetPc.writes : GetPc → Multiset Nat
  | find _ | asleep _ | read _ _ | touch _ _ _ | release _ _ _ | countHit _ _ => 0
  | acquire id | undoMap id => {id}
  | write id _ | countMiss id _ | giveBack id _ | record id _ | insert id _ => {id}
  | undoZone id _ => {id}

/-- The pair between its handing out and its giving back. -/
def GetPc.holds : GetPc → Multiset ZnPair
  | find _ | asleep _ | read _ _ | touch _ _ _ | release _ _ _ | countHit _ _ => 0
  | acquire _ | record _ _ | insert _ _ | undoMap _ => 0
  | write _ location | countMiss _ location | giveBack _ location => {location}
  | undoZone _ location => {location}

/-- The chunk written to a pair that is still held. -/
def GetPc.written : GetPc → Multiset (Nat × ZnPair)
  | countMiss id location | giveBack id location => {(id, location)}
  | find _ | asleep _ | read _ _ | touch _ _ _ | release _ _ _ | countHit _ _ => 0
  | acquire _ | write _ _ | record _ _ | insert _ _ | undoZone _ _ | undoMap _ => 0

/-- The chunk between the giving back of its pair and its insert. -/
def GetPc.pending : GetPc → Multiset (Nat × ZnPair)
  | record id location | insert id location => {(id, location)}
  | find _ | asleep _ | read _ _ | touch _ _ _ | release _ _ _ | countHit _ _ => 0
  | acquire _ | write _ _ | countMiss _ _ | giveBack _ _ | undoZone _ _ | undoMap _ => 0

/-- The location between the find that counted the reader and its release. -/
def GetPc.reads : GetPc → Multiset (Nat × ZnPair)
  | read id location | touch id location _ | release id location _ => {(id, location)}
  | find _ | asleep _ | countHit _ _ | acquire _ | write _ _ | countMiss _ _ => 0
  | giveBack _ _ | record _ _ | insert _ _ | undoZone _ _ | undoMap _ => 0

namespace ThreadPc

def lift {Item : Type} (weight : GetPc → Multiset Item) : ThreadPc Local → Multiset Item
  | idle => 0
  | get pc => weight pc
  | evict _ _ => 0

def seeks : ThreadPc Local → Multiset Nat := lift GetPc.seeks

def writes : ThreadPc Local → Multiset Nat
  | idle => 0
  | get pc => pc.writes
  | evict caller _ => Multiset.ofList caller.toList

def holds : ThreadPc Local → Multiset ZnPair := lift GetPc.holds

def written : ThreadPc Local → Multiset (Nat × ZnPair) := lift GetPc.written

def pending : ThreadPc Local → Multiset (Nat × ZnPair) := lift GetPc.pending

def reads : ThreadPc Local → Multiset (Nat × ZnPair) := lift GetPc.reads

@[simp] theorem writes_afterFind (id : Nat) (result : FindResult) :
    (afterFind id result : ThreadPc Local).writes = result.claims id := by
  cases result <;> rfl

@[simp] theorem writes_afterGetActiveZone (id : Nat) (start : Local) (ret : GetActiveZone) :
    (afterGetActiveZone id start ret).writes = {id} := by
  cases ret <;> rfl

@[simp] theorem holds_afterGetActiveZone (id : Nat) (start : Local) (ret : GetActiveZone) :
    (afterGetActiveZone id start ret).holds = ret.hands := by
  cases ret <;> rfl

@[simp] theorem writes_afterEvict (caller : Option Nat) :
    (afterEvict caller : ThreadPc Local).writes = Multiset.ofList caller.toList := by
  cases caller <;> rfl

theorem lift_afterFind {Item : Type} {weight : GetPc → Multiset Item} {id : Nat}
    (loc : ∀ location, weight (.read id location) = 0) (cond : weight (.acquire id) = 0)
    (wait : weight (.asleep id) = 0) (result : FindResult) :
    lift weight (afterFind id result : ThreadPc Local) = 0 := by
  cases result
  · exact loc _
  · exact cond
  · exact wait

theorem lift_afterEvict {Item : Type} {weight : GetPc → Multiset Item}
    (acquire : ∀ id, weight (.acquire id) = 0) (caller : Option Nat) :
    lift weight (afterEvict caller : ThreadPc Local) = 0 := by
  cases caller
  · rfl
  · exact acquire _

end ThreadPc

/-! ## Sections of `zn_cache_get` -/

section Sections

variable {code : EvictionCode Thread Policy Local} {thread : Thread}
  {cache after : ZnCache Thread Policy} {environment : Environment} {pc : GetPc}
  {next : ThreadPc Local}

theorem GetStep.agrees {others : Multiset Nat}
    (taken : GetStep code thread cache environment pc after next)
    (small : ∀ id ∈ pc.seeks, id < 2 ^ 32)
    (agrees : CacheMapAgrees cache.cacheMap (pc.writes + others)) :
    CacheMapAgrees after.cacheMap (next.writes + others) := by
  cases taken with
  | find id =>
      have smallId := small id (by simp [GetPc.seeks])
      rw [GetPc.writes, zero_add] at agrees
      rw [ThreadPc.writes_afterFind]
      exact (znCachemapFind_spec thread cache.cacheMap smallId).agrees agrees smallId
  | release => exact agrees.setReaders _
  | acquire id =>
      rw [ThreadPc.writes_afterGetActiveZone]
      exact agrees
  | insert id location answer inserted =>
      rw [GetPc.writes, Multiset.singleton_add] at agrees
      cases Option.some.inj (inserted.symm.trans (agrees.insert location))
      rw [ThreadPc.writes, zero_add]
      exact agrees.located location
  | undoMap id answer failed =>
      rw [GetPc.writes, Multiset.singleton_add] at agrees
      obtain ⟨outcome, _, ran, _, after, _⟩ := agrees.fail
      cases Option.some.inj (failed.symm.trans ran)
      rw [ThreadPc.writes, zero_add]
      exact after
  | woken | read | touch | countHit | write | writeFailed => exact agrees
  | countMiss | giveBack | record | undoZone => exact agrees

/-- No section of `zn_cache_get` disturbs the zones while its command succeeds. -/
theorem GetStep.zones {others : Multiset ZnPair}
    (taken : GetStep code thread cache environment pc after next)
    (success : environment.commandRet = 0)
    (sound : ZonesSound cache.zoneState (pc.holds + others)) :
    ZonesSound after.zoneState (next.holds + others) ∧
      SameShape cache.zoneState after.zoneState := by
  have unchanged : SameShape cache.zoneState cache.zoneState := ⟨rfl, rfl, rfl, rfl⟩
  cases taken with
  | find id =>
      refine ⟨?_, unchanged⟩
      rw [ThreadPc.holds, ThreadPc.lift_afterFind (fun _ => rfl) rfl rfl]
      exact sound
  | acquire id =>
      rw [GetPc.holds, zero_add] at sound
      obtain ⟨after, kept, _⟩ := sound.getActiveZone
      rw [ThreadPc.holds_afterGetActiveZone, success]
      exact ⟨after, kept.shape⟩
  | giveBack id location =>
      obtain ⟨after, shape, _⟩ := ZonesSound.returnActiveZone sound
      rw [success]
      refine ⟨?_, shape⟩
      rw [ThreadPc.holds, ThreadPc.lift, GetPc.holds, zero_add]
      exact after
  | undoZone id location =>
      obtain ⟨after, kept, _⟩ := ZonesSound.failedToWrite sound
      refine ⟨?_, kept.shape⟩
      rw [ThreadPc.holds, ThreadPc.lift, GetPc.holds, zero_add]
      exact after
  | woken | read | touch | release | countHit | write => exact ⟨sound, unchanged⟩
  | writeFailed | countMiss | record | insert | undoMap => exact ⟨sound, unchanged⟩

/-- The zones that fill up: only giving back a zone's last chunk adds one. -/
theorem GetStep.full {others : Multiset ZnPair}
    (taken : GetStep code thread cache environment pc after next)
    (success : environment.commandRet = 0)
    (sound : ZonesSound cache.zoneState (pc.holds + others)) (zone : Nat) :
    IsFull after.zoneState zone ↔ IsFull cache.zoneState zone ∨
      ∃ id location, pc = .giveBack id location ∧ zone = location.zone ∧
        u32 (location.chunkOffset + 1) = cache.zoneState.maxZoneChunks := by
  cases taken with
  | acquire id =>
      rw [GetPc.holds, zero_add] at sound
      rw [success]
      simpa using sound.getActiveZone.2.2.1 zone
  | giveBack id location =>
      obtain ⟨_, _, full⟩ := ZonesSound.returnActiveZone sound
      rw [success]
      simpa [and_assoc] using full zone
  | undoZone id location =>
      simpa using (ZonesSound.failedToWrite sound).2.2 zone
  | find | woken | read | touch | release | countHit | write => simp [ZnCache.writeChunk]
  | writeFailed | countMiss | record | insert | undoMap => simp [ZnCache.writeChunk]

theorem GetStep.occupied {others : Multiset ZnPair}
    (taken : GetStep code thread cache environment pc after next)
    (success : environment.commandRet = 0)
    (sound : ZonesSound cache.zoneState (pc.holds + others))
    (fits : cache.zoneState.maxZoneChunks < 2 ^ 32) {zone chunk : Nat}
    (occupied : Occupied cache.zoneState zone chunk) :
    Occupied after.zoneState zone chunk := by
  cases taken with
  | acquire id =>
      rw [GetPc.holds, zero_add] at sound
      rw [success]
      exact sound.getActiveZone.2.1.occupied zone chunk occupied
  | giveBack id location =>
      rw [success]
      exact (ZonesSound.returnActiveZone_occupied sound fits).2.occupied zone chunk occupied
  | undoZone id location =>
      exact (ZonesSound.failedToWrite sound).2.1.occupied zone chunk occupied
  | find | woken | read | touch | release | countHit | write => exact occupied
  | writeFailed | countMiss | record | insert | undoMap => exact occupied

end Sections

end ZNCache
