import ZNCache.HitRatio
import ZNCache.QueuedZones

/-!
# A miss whose chunk is not written

`zsm_failed_to_write` and `zn_cachemap_fail` take back what the lookup and the handing out
of the zone did, in every state in which no other call is in progress.
-/

set_option autoImplicit false

namespace ZNCache

open Transition ZoneStateManager

variable {Thread Policy Local : Type}

def CacheMap.Writing (map : CacheMap Thread) (key : Nat) : Prop :=
  ∃ entry, map.zoneMap key = some entry ∧ entry.type = .cond

def CacheMap.Located (map : CacheMap Thread) (key : Nat) : Prop :=
  ∃ entry, map.zoneMap key = some entry ∧ entry.type = .loc

/-! ## Zones keep their ids -/

def SameIds (before after : ZoneStateManager) : Prop :=
  ∀ zone, (after.state zone).zoneId = (before.state zone).zoneId

theorem SameIds.setZone {manager : ZoneStateManager} {zone : Nat} {value : ZnZone}
    (same : value.zoneId = (manager.state zone).zoneId) :
    SameIds manager (manager.setZone zone value) := by
  intro other
  by_cases here : other = zone
  · subst here
    simpa using same
  · simp [here]

theorem GetActiveZoneAnswer.sameIds {manager after : ZoneStateManager} {ret : GetActiveZone}
    (answer : GetActiveZoneAnswer manager ret after) : SameIds manager after := by
  cases answer with
  | refused => exact fun _ => rfl
  | dropped => exact fun _ => rfl
  | resumed zone => exact SameIds.setZone rfl
  | opened zone => exact SameIds.setZone rfl

theorem ReturnSpec.sameIds {finishRet ret : Int} {manager after : ZoneStateManager}
    {zone : Nat} (returned : ReturnSpec finishRet manager zone ret after) :
    SameIds manager after := by
  cases returned with
  | reopened => exact SameIds.setZone rfl
  | alreadyFull => exact SameIds.setZone rfl
  | finished => exact SameIds.setZone rfl
  | failed => exact SameIds.setZone rfl

theorem EvictSpec.sameIds {resetRet : Int} {manager after : ZoneStateManager} {zone : Nat}
    (evicted : EvictSpec resetRet manager zone after) : SameIds manager after := by
  cases evicted with
  | alreadyFree => exact fun _ => rfl
  | reset => exact SameIds.setZone rfl
  | failed => exact SameIds.setZone rfl

/-! ## Entries that are being written -/

/-- Eviction sections keep the zones' ids and start no write of an entry. -/
structure EvictionCode.StartsNoWrite (code : EvictionCode Thread Policy Local) : Prop where
  sameIds : ∀ {thread cache pc environment after next},
    code.evictStep thread cache pc environment = some (after, next) →
    SameIds cache.zoneState after.zoneState
  writing : ∀ {thread cache pc environment after next},
    code.evictStep thread cache pc environment = some (after, next) →
    ∀ key, after.cacheMap.Writing key → cache.cacheMap.Writing key

theorem CacheMap.Writing.of_setEntry {map : CacheMap Thread} {key other : Nat}
    {entry : ZoneMapResult Thread} (notWriting : entry.type ≠ .cond)
    (writing : (map.setEntry key entry).Writing other) : map.Writing other ∧ other ≠ key := by
  obtain ⟨found, here, cond⟩ := writing
  by_cases same : other = key
  · subst same
    rw [setEntry_zoneMap, Function.update_self] at here
    cases Option.some.inj here
    exact absurd cond notWriting
  · rw [setEntry_zoneMap, Function.update_of_ne same] at here
    exact ⟨⟨found, here, cond⟩, same⟩

theorem CacheMap.Writing.of_clearZone {map : CacheMap Thread} {zone key : Nat}
    {answer : Outcome (CacheMap Thread) Unit} (cleared : znCachemapClearZone map zone = some answer)
    (writing : answer.state.Writing key) : map.Writing key := by
  obtain ⟨entry, found, cond⟩ := writing
  rw [(znCachemapClearZone_state cleared).1 key] at found
  split at found
  next =>
      obtain ⟨old, _, rfl⟩ := Option.map_eq_some_iff.mp found
      cases cond
  next => exact ⟨entry, found, cond⟩

theorem CacheMap.Writing.of_clearChunk {map : CacheMap Thread} {location : ZnPair} {key : Nat}
    {answer : Outcome (CacheMap Thread) Unit}
    (cleared : znCachemapClearChunk map location = some answer)
    (writing : answer.state.Writing key) : map.Writing key := by
  unfold znCachemapClearChunk at cleared
  dsimp only at cleared
  split at cleared
  next => cases cleared
  next res _ =>
      cases Option.some.inj cleared
      exact (CacheMap.Writing.of_setEntry (show res.emptied.type ≠ .cond by
        simp [ZoneMapResult.emptied]) writing).1

theorem CacheMap.Writing.of_insert {map : CacheMap Thread} {id key : Nat} {location : ZnPair}
    {answer : Outcome (CacheMap Thread) Unit}
    (inserted : znCachemapInsert map id location = some answer)
    (writing : answer.state.Writing key) : map.Writing key ∧ key ≠ id := by
  unfold znCachemapInsert at inserted
  split at inserted
  next => cases inserted
  next =>
      cases Option.some.inj inserted
      exact CacheMap.Writing.of_setEntry (by simp) writing

theorem CacheMap.Writing.of_fail {map : CacheMap Thread} {id key : Nat} (small : id < 2 ^ 32)
    {answer : Outcome (CacheMap Thread) Unit} (failed : znCachemapFail map id = some answer)
    (writing : answer.state.Writing key) : map.Writing key ∧ key ≠ id := by
  unfold znCachemapFail at failed
  rw [gintToPointer_of_u32 small] at failed
  split at failed
  next => cases failed
  next =>
      cases Option.some.inj failed
      exact CacheMap.Writing.of_setEntry (by simp) writing

theorem CacheMap.Writing.of_wakeUp [DecidableEq Thread] {map : CacheMap Thread}
    {thread : Thread} {id key : Nat} (writing : (map.wakeUp thread id).Writing key) :
    map.Writing key := by
  unfold CacheMap.wakeUp at writing
  split at writing
  next lookup found =>
      obtain ⟨entry, here, cond⟩ := writing
      by_cases same : key = gintToPointer id
      · subst same
        rw [setEntry_zoneMap, Function.update_self] at here
        cases Option.some.inj here
        exact ⟨lookup, found, cond⟩
      · rw [setEntry_zoneMap, Function.update_of_ne same] at here
        exact ⟨entry, here, cond⟩
  next => exact writing

theorem FindSpec.writing {thread : Thread} {map after : CacheMap Thread} {id key : Nat}
    {result : FindResult} (found : FindSpec thread map id result after)
    (writing : after.Writing key) : key ∈ result.claims id ∨ map.Writing key := by
  cases found with
  | loc => exact .inr writing
  | wait entry here busy =>
      by_cases same : key = id
      · subst same
        exact .inr ⟨entry, here, busy⟩
      · obtain ⟨old, there, cond⟩ := writing
        rw [setEntry_zoneMap, Function.update_of_ne same] at there
        exact .inr ⟨old, there, cond⟩
  | claim entry unclaimed busy =>
      by_cases same : key = id
      · exact .inl (by simp [FindResult.claims, same])
      · obtain ⟨old, there, cond⟩ := writing
        rw [setEntry_zoneMap, Function.update_of_ne same] at there
        exact .inr ⟨old, there, cond⟩

section Step

variable [DecidableEq Thread] {code : EvictionCode Thread Policy Local} {thread : Thread}
  {choice : Choice} {cache after : ZnCache Thread Policy} {pc next : ThreadPc Local}

theorem GetStep.sameIds {environment : Environment} {here : GetPc}
    (taken : GetStep code thread cache environment here after next) :
    SameIds cache.zoneState after.zoneState := by
  cases taken with
  | acquire id => exact (zsmGetActiveZone_answer _ _).sameIds
  | giveBack id location => exact (zsmReturnActiveZone_spec _ _ _).sameIds
  | undoZone id location => exact SameIds.setZone rfl
  | find | woken | read | touch | release | countHit | write | writeFailed => exact fun _ => rfl
  | countMiss | record | insert | undoMap => exact fun _ => rfl

theorem ThreadStep.sameIds (starts : code.StartsNoWrite)
    (taken : ThreadStep code thread cache pc choice after next) :
    SameIds cache.zoneState after.zoneState := by
  cases taken with
  | call | callEvict | wakeUp => exact fun _ => rfl
  | get ran => exact ran.sameIds
  | evict caller next ran => exact starts.sameIds ran
  | evicted caller ran => exact starts.sameIds ran

theorem ThreadStep.writes (taken : ThreadStep code thread cache pc choice after next) {id : Nat}
    (member : id ∈ next.writes) : id ∈ pc.seeks ∨ id ∈ pc.writes := by
  cases taken with
  | call | callEvict | wakeUp => cases member
  | evict => exact .inr member
  | evicted caller =>
      rw [ThreadPc.writes_afterEvict] at member
      exact .inr member
  | get ran =>
      cases ran with
      | find other =>
          rw [ThreadPc.writes_afterFind] at member
          generalize (znCachemapFind thread cache.cacheMap other).1 = result at member
          cases result with
          | loc => cases member
          | wait => cases member
          | cond => exact .inl member
      | acquire other =>
          rw [ThreadPc.writes_afterGetActiveZone] at member
          exact .inr member
      | woken | read | touch | release | countHit | insert | undoMap => cases member
      | write | writeFailed | countMiss | giveBack | record | undoZone => exact .inr member

/-- An entry that is being written is written by the thread that moved, or was being written
before and not by that thread. -/
theorem GetStep.writing {environment : Environment} {here : GetPc}
    (taken : GetStep code thread cache environment here after next)
    (small : ∀ id, id ∈ here.seeks ∨ id ∈ here.writes → id < 2 ^ 32) {key : Nat}
    (writing : after.cacheMap.Writing key) :
    key ∈ next.writes ∨ cache.cacheMap.Writing key ∧ key ∉ here.writes := by
  cases taken with
  | find id =>
      rw [ThreadPc.writes_afterFind]
      rcases (znCachemapFind_spec thread cache.cacheMap
        (small id (.inl (by simp [GetPc.seeks])))).writing writing with claimed | before
      · exact .inl claimed
      · exact .inr ⟨before, Multiset.notMem_zero _⟩
  | insert id location answer inserted =>
      obtain ⟨before, apart⟩ := CacheMap.Writing.of_insert inserted writing
      exact .inr ⟨before, by simpa [GetPc.writes] using apart⟩
  | undoMap id answer failed =>
      obtain ⟨before, apart⟩ := CacheMap.Writing.of_fail
        (small id (.inr (by simp [GetPc.writes]))) failed writing
      exact .inr ⟨before, by simpa [GetPc.writes] using apart⟩
  | acquire id =>
      rw [ThreadPc.writes_afterGetActiveZone]
      by_cases own : key ∈ (GetPc.acquire id).writes
      · exact .inl own
      · exact .inr ⟨writing, own⟩
  | woken | read | touch | release | countHit => exact .inr ⟨writing, Multiset.notMem_zero _⟩
  | write id | writeFailed id | countMiss id | giveBack id | record id | undoZone id =>
      by_cases own : key = id
      · exact .inl (by simp [ThreadPc.writes, GetPc.writes, own])
      · exact .inr ⟨writing, by simpa [GetPc.writes] using own⟩

theorem ThreadStep.writing (starts : code.StartsNoWrite)
    (taken : ThreadStep code thread cache pc choice after next)
    (small : ∀ id, id ∈ pc.seeks ∨ id ∈ pc.writes → id < 2 ^ 32) {key : Nat}
    (writing : after.cacheMap.Writing key) :
    key ∈ next.writes ∨ cache.cacheMap.Writing key ∧ key ∉ pc.writes := by
  cases taken with
  | call | callEvict => exact .inr ⟨writing, Multiset.notMem_zero _⟩
  | wakeUp => exact .inr ⟨.of_wakeUp writing, Multiset.notMem_zero _⟩
  | get ran => exact ran.writing small writing
  | evict caller next ran =>
      by_cases own : key ∈ Multiset.ofList caller.toList
      · exact .inl own
      · exact .inr ⟨starts.writing ran key writing, own⟩
  | evicted caller ran =>
      rw [ThreadPc.writes_afterEvict]
      by_cases own : key ∈ Multiset.ofList caller.toList
      · exact .inl own
      · exact .inr ⟨starts.writing ran key writing, own⟩

end Step

theorem promotionalCode_startsNoWrite (config : CacheConfig) :
    (promotionalCode config : EvictionCode Thread _ _).StartsNoWrite := by
  constructor
  · intro thread cache pc environment after next ran
    cases fgEvictStep_spec ran with
    | reset i freeZones zone => exact (zsmEvict_spec _ _ _).sameIds
    | start | enough | nothing | take | clear | wait => exact fun _ => rfl
  · intro thread cache pc environment after next ran key writing
    cases fgEvictStep_spec ran with
    | clear i freeZones zone answer cleared => exact .of_clearZone cleared writing
    | start | enough | nothing | take | wait | reset => exact writing

theorem chunkCode_startsNoWrite [DecidableEq Thread] (config : CacheConfig) :
    (chunkCode config : EvictionCode Thread _ _).StartsNoWrite := by
  constructor
  · intro thread cache pc environment after next ran
    cases chunkEvictStep_spec ran with
    | mark i nr pair => exact SameIds.setZone rfl
    | gcAcquire => exact (zsmGetActiveZone_answer _ _).sameIds
    | gcReset zone => exact (zsmEvict_spec _ _ _).sameIds
    | turnedAway | lock | pop | popped | clear | gcEnough | gcShort | gcDone => exact fun _ => rfl
    | gcTake | gcSkip | gcScanned | gcRead | gcWrite | gcInsert => exact fun _ => rfl
    | gcClear | gcCount | leave => exact fun _ => rfl
  · intro thread cache pc environment after next ran key writing
    cases chunkEvictStep_spec ran with
    | clear i nr pair answer cleared => exact .of_clearChunk cleared writing
    | gcInsert zone chunk location answer inserted => exact (CacheMap.Writing.of_insert
        inserted writing).1
    | gcClear zone answer cleared => exact .of_clearZone cleared writing
    | turnedAway | lock | pop | popped | mark | gcEnough | gcShort | gcDone => exact writing
    | gcTake | gcSkip | gcAcquire | gcScanned | gcRead | gcWrite | gcReset => exact writing
    | gcCount | leave => exact writing

/-! ## Runs -/

structure WritesSound (system : System Thread Policy Local) : Prop where
  zoneIds : ∀ zone, (system.cache.zoneState.state zone).zoneId = zone
  small : ∀ thread id, id ∈ (system.threads thread).seeks ∨ id ∈ (system.threads thread).writes →
    id < 2 ^ 32
  written : ∀ key, system.cache.cacheMap.Writing key →
    ∃ thread, key ∈ (system.threads thread).writes

section Run

variable [DecidableEq Thread] {code : EvictionCode Thread Policy Local} {config : CacheConfig}
  {system next : System Thread Policy Local}

omit [DecidableEq Thread] in
theorem WritesSound.init {policy : Policy} (begins : System.init config policy = some system) :
    WritesSound system := by
  obtain ⟨_, zones, emptyMap, _, idle⟩ := System.init_spec begins
  constructor
  · rw [zones]
    exact fun _ => rfl
  · intro thread id member
    rw [idle thread] at member
    rcases member with sought | written
    · exact absurd sought (Multiset.notMem_zero _)
    · exact absurd written (Multiset.notMem_zero _)
  · intro key writing
    rw [emptyMap] at writing
    obtain ⟨_, found, _⟩ := writing
    cases found

theorem WritesSound.step (starts : code.StartsNoWrite) (sound : WritesSound system)
    {action : Thread × Choice} (taken : system.step code action = some next) :
    WritesSound next := by
  have below := System.getsBelow_of_step taken
  obtain ⟨thread, choice⟩ := action
  obtain ⟨cache, pc, rfl, moved⟩ := System.step_spec taken
  constructor
  · exact fun zone => (moved.sameIds starts zone).trans (sound.zoneIds zone)
  · intro other id member
    by_cases same : other = thread
    · subst same
      simp only [System.advance, Function.update_self] at member
      rcases member with sought | written
      · rcases moved.seeks sought with before | called
        · exact sound.small other id (.inl before)
        · exact below id called
      · exact sound.small other id (moved.writes written)
    · simp only [System.advance, Function.update_of_ne same] at member
      exact sound.small other id member
  · intro key writing
    rcases moved.writing starts (sound.small thread) writing with own | ⟨before, notOwn⟩
    · exact ⟨thread, by simpa [System.advance] using own⟩
    · obtain ⟨other, written⟩ := sound.written key before
      have apart : other ≠ thread := fun same => notOwn (same ▸ written)
      exact ⟨other, by simpa [System.advance, apart] using written⟩

end Run

/-! ## Taking back the zone -/

/-- The call moved the head of the active queue to its tail, or the head of the free queue
to the empty active queue. -/
inductive ZoneTried (before after : ZoneStateManager) (location : ZnPair) : Prop
  | rotated (rest : List Nat) (head : before.active = location.zone :: rest)
      (tail : after.active = rest ++ [location.zone]) (sameFree : after.free = before.free)
      (wasActive : (before.state location.zone).state = .active)
      (resumed : location.chunkOffset = (before.state location.zone).chunkOffset)
  | opened (noActive : before.active = []) (tail : after.active = [location.zone])
      (head : before.free = location.zone :: after.free)
      (wasFree : (before.state location.zone).state = .free)
      (restart : location.chunkOffset = 0)

/-- What handing out a zone and giving it back without a chunk leaves of the manager. -/
structure ZoneUndone (before after : ZoneStateManager) (location : ZnPair) : Prop where
  tried : ZoneTried before after location
  used : after.state location.zone =
    { before.state location.zone with state := .active, chunkOffset := location.chunkOffset }
  others : ∀ zone, zone ≠ location.zone → after.state zone = before.state zone
  writesOccurring : after.writesOccurring = before.writesOccurring
  shape : SameShape before after

theorem ZoneUndone.full {before after : ZoneStateManager} {location : ZnPair}
    (undone : ZoneUndone before after location) {zone : Nat}
    (full : (before.state zone).state = .full) : after.state zone = before.state zone := by
  apply undone.others
  intro same
  subst same
  cases undone.tried with
  | rotated _ _ _ _ wasActive => simp [full] at wasActive
  | opened _ _ _ wasFree => simp [full] at wasFree

section Zones

variable {openRet : Int} {manager : ZoneStateManager} {location : ZnPair}

theorem zoneUndone (zoneIds : ∀ zone, (manager.state zone).zoneId = zone)
    (sorted : QueuesSorted manager)
    (handed : (zsmGetActiveZone openRet manager).ret = .success location) :
    ZoneUndone manager (zsmFailedToWrite (zsmGetActiveZone openRet manager).state location).state
      location := by
  have answer := zsmGetActiveZone_answer openRet manager
  rw [handed] at answer
  generalize (zsmGetActiveZone openRet manager).state = after at answer ⊢
  cases answer with
  | refused _ nothing => simp [GetActiveZone.hands] at nothing
  | dropped _ nothing => simp [GetActiveZone.hands] at nothing
  | resumed zone rest head =>
      have own := zoneIds zone
      rw [zsmFailedToWrite_state]
      dsimp only
      rw [own]
      have isActive := sorted.active zone (by simp [head])
      refine ⟨.rotated rest head rfl rfl isActive rfl, ?_, ?_, ?_, ⟨rfl, rfl, rfl, rfl⟩⟩
      · simp [handedOut, returnedZone]
      · intro other apart
        simp [handedOut, apart]
      · simp [handedOut]
  | opened zone rest noActive head =>
      have own := zoneIds zone
      rw [zsmFailedToWrite_state]
      dsimp only
      rw [own]
      have isFree := sorted.free zone (by simp [head])
      refine ⟨.opened noActive rfl head isFree rfl, ?_, ?_, ?_, ⟨rfl, rfl, rfl, rfl⟩⟩
      · simp [handedOut, returnedZone]
      · intro other apart
        simp [handedOut, apart]
      · simp [handedOut]

end Zones

/-! ## Taking back the entry -/

section Map

variable {map : CacheMap Thread} {id : Nat}

theorem znCachemapFind_unwritten (thread : Thread) (small : id < 2 ^ 32)
    (notWriting : ¬ map.Writing id) (notLocated : ¬ map.Located id) :
    ∃ entry, znCachemapFind thread map id = (.cond, map.setEntry id entry) := by
  have found := znCachemapFind_spec thread map small
  generalize znCachemapFind thread map id = answer at found ⊢
  obtain ⟨result, after⟩ := answer
  cases found with
  | loc entry here located => exact absurd ⟨entry, here, located⟩ notLocated
  | wait entry here busy => exact absurd ⟨entry, here, busy⟩ notWriting
  | claim entry => exact ⟨entry, rfl⟩

theorem znCachemapFail_setEntry (small : id < 2 ^ 32) (entry : ZoneMapResult Thread) :
    ∃ answer, znCachemapFail (map.setEntry id entry) id = some answer ∧
      answer.state = map.setEntry id { entry with writeFinished := [], type := .empty } := by
  unfold znCachemapFail
  rw [gintToPointer_of_u32 small, setEntry_zoneMap, Function.update_self]
  exact ⟨_, rfl, by simp [CacheMap.setEntry]⟩

end Map

/-- What a miss whose chunk is not written leaves of the cache. -/
structure MissUndone (before after : ZnCache Thread Policy) (id : Nat) (location : ZnPair) :
    Prop where
  emptied : ∃ entry, after.cacheMap.zoneMap id = some entry ∧ entry.type = .empty
  entries : ∀ other, other ≠ id → after.cacheMap.zoneMap other = before.cacheMap.zoneMap other
  dataMap : after.cacheMap.dataMap = before.cacheMap.dataMap
  activeReaders : after.cacheMap.activeReaders = before.cacheMap.activeReaders
  zones : ZoneUndone before.zoneState after.zoneState location
  fullZones : ∀ zone, (before.zoneState.state zone).state = .full →
    after.zoneState.state zone = before.zoneState.state zone ∧
      after.disk zone = before.disk zone
  evictionPolicy : after.evictionPolicy = before.evictionPolicy
  hits : after.hits = before.hits
  misses : after.misses = before.misses
  disk : ∀ zone chunk, ¬ (zone = location.zone ∧ chunk = location.chunkOffset) →
    after.disk zone chunk = before.disk zone chunk

/-! ## The call -/

/-- The steps of a call that finds no chunk, gets a zone at once, does not write its chunk and
takes both back. -/
def unwrittenGet (thread : Thread) (id : Nat)
    (find acquire write undoZone undoMap : Environment) : List (Thread × Choice) :=
  (thread, .get id) :: [find, acquire, write, undoZone, undoMap].map fun environment =>
    (thread, .run environment)

namespace RatioLog

section Steps

variable [DecidableEq Thread] {code : EvictionCode Thread Policy Local} {config : CacheConfig}
  {ioSize : Nat} {log : RatioLog Thread Policy Local} {thread : Thread}

theorem step_call (idle : log.system.threads thread = .idle) {id : Nat} (small : id < 2 ^ 32) :
    log.step code config ioSize (thread, .get id) =
      some ⟨log.system.advance thread log.system.cache (.get (.find id)), log.buffered,
        log.returns⟩ := by
  have taken : log.system.step code (thread, .get id) =
      some (log.system.advance thread log.system.cache (.get (.find id))) := by
    simp only [System.step, idle]
    exact if_pos small
  simp [step, taken, idle, nowBuffered, reading, nowReturns]

theorem step_section {pc : GetPc} (at' : log.system.threads thread = .get pc)
    (noRead : ∀ id location, pc ≠ .read id location) {environment : Environment}
    {cache : ZnCache Thread Policy} {next : ThreadPc Local}
    (ran : getStep code thread log.system.cache environment pc = some (cache, next)) :
    log.step code config ioSize (thread, .run environment) =
      some ⟨log.system.advance thread cache next, log.buffered,
        log.returns ++ log.nowReturns (thread, .run environment)⟩ := by
  have taken : log.system.step code (thread, .run environment) =
      some (log.system.advance thread cache next) := by
    simp [System.step, at', ran]
  have none : log.reading (thread, .run environment) = none := by
    cases pc with
    | read id location => exact absurd rfl (noRead id location)
    | _ => simp [reading, at']
  simp [step, taken, (not_reading config ioSize none).2]

/-- The call runs to its end, returns NULL and undoes what it did. -/
theorem unwrittenGet_runs (sound : WritesSound log.system)
    (sorted : QueuesSorted log.system.cache.zoneState) (idle : log.system.threads thread = .idle)
    {id : Nat} (small : id < 2 ^ 32) (notWriting : ¬ log.system.cache.cacheMap.Writing id)
    (notLocated : ¬ log.system.cache.cacheMap.Located id)
    {find acquire write undoZone undoMap : Environment} {location : ZnPair}
    (handed : (zsmGetActiveZone acquire.commandRet log.system.cache.zoneState).ret =
      .success location)
    (failed : write.transfers = false) :
    ∃ cache, runActions (RatioLog.step code config ioSize) log
        (unwrittenGet thread id find acquire write undoZone undoMap) =
          some ⟨log.system.advance thread cache .idle, log.buffered, log.returns ++ [.null]⟩ ∧
      MissUndone log.system.cache cache id location := by
  obtain ⟨entry, found⟩ := znCachemapFind_unwritten thread small notWriting notLocated
  obtain ⟨answer, taken, emptied⟩ :=
    @znCachemapFail_setEntry _ log.system.cache.cacheMap _ small entry
  have zones := zoneUndone sound.zoneIds sorted handed
  generalize handedOut' : (zsmGetActiveZone acquire.commandRet
    log.system.cache.zoneState).state = handedManager at zones
  refine ⟨{
    zoneState := (zsmFailedToWrite handedManager location).state
    cacheMap := answer.state
    evictionPolicy := log.system.cache.evictionPolicy
    disk := (log.system.cache.writeChunk location none).disk
    hits := log.system.cache.hits
    misses := log.system.cache.misses }, ?_, ?_⟩
  · refine runActions_cons (step_call idle small) ?_
    refine runActions_cons (@step_section _ _ _ _ code config ioSize _ thread (.find id)
      (by simp [System.advance]) (by simp) find
      { log.system.cache with cacheMap := log.system.cache.cacheMap.setEntry id entry }
      (.get (.acquire id)) (by simp [System.advance, getStep, found, afterFind])) ?_
    refine runActions_cons (@step_section _ _ _ _ code config ioSize _ thread (.acquire id)
      (by simp [System.advance]) (by simp) acquire
      { log.system.cache with
        cacheMap := log.system.cache.cacheMap.setEntry id entry, zoneState := handedManager }
      (.get (.write id location))
      (by simp [System.advance, getStep, handed, handedOut', afterGetActiveZone])) ?_
    refine runActions_cons (@step_section _ _ _ _ code config ioSize _ thread
      (.write id location) (by simp [System.advance]) (by simp) write
      { log.system.cache.writeChunk location none with
        cacheMap := log.system.cache.cacheMap.setEntry id entry, zoneState := handedManager }
      (.get (.undoZone id location))
      (by simp [System.advance, getStep, failed, ZnCache.writeChunk])) ?_
    refine runActions_cons (@step_section _ _ _ _ code config ioSize _ thread
      (.undoZone id location) (by simp [System.advance]) (by simp) undoZone
      { log.system.cache.writeChunk location none with
        cacheMap := log.system.cache.cacheMap.setEntry id entry
        zoneState := (zsmFailedToWrite handedManager location).state }
      (.get (.undoMap id)) (by simp [System.advance, getStep])) ?_
    refine runActions_cons (@step_section _ _ _ _ code config ioSize _ thread (.undoMap id)
      (by simp [System.advance]) (by simp) undoMap
      { log.system.cache.writeChunk location none with
        cacheMap := answer.state
        zoneState := (zsmFailedToWrite handedManager location).state }
      .idle (by simp [System.advance, getStep, taken])) ?_
    simp [runActions, System.advance, nowReturns, ZnCache.writeChunk]
  · constructor
    · exact ⟨_, by rw [emptied, setEntry_zoneMap, Function.update_self], rfl⟩
    · intro other apart
      rw [emptied, setEntry_zoneMap, Function.update_of_ne apart]
    · rw [emptied]
      rfl
    · rw [emptied]
      rfl
    · exact zones
    · intro zone full
      have apart : zone ≠ location.zone := by
        intro same
        subst same
        have active := congrArg ZnZone.state zones.used
        rw [zones.full full, full] at active
        cases active
      exact ⟨zones.full full, Function.update_of_ne apart _ _⟩
    · rfl
    · rfl
    · rfl
    · intro zone chunk elsewhere
      exact (ZnCache.writeChunk_disk _ _ _ _ _).trans (if_neg elsewhere)

/-- A call for an emptied entry becomes its writer. -/
theorem get_emptied (idle : log.system.threads thread = .idle) {id : Nat} (small : id < 2 ^ 32)
    {entry : ZoneMapResult Thread} (found : log.system.cache.cacheMap.zoneMap id = some entry)
    (empty : entry.type = .empty) (environment : Environment) :
    ∃ later, runActions (RatioLog.step code config ioSize) log
        [(thread, .get id), (thread, .run environment)] = some later ∧
      later.system.threads thread = .get (.acquire id) := by
  have notWriting : ¬ log.system.cache.cacheMap.Writing id := by
    intro given
    obtain ⟨other, here, cond⟩ := given
    cases Option.some.inj (found.symm.trans here)
    rw [empty] at cond
    cases cond
  have notLocated : ¬ log.system.cache.cacheMap.Located id := by
    intro given
    obtain ⟨other, here, located⟩ := given
    cases Option.some.inj (found.symm.trans here)
    rw [empty] at located
    cases located
  obtain ⟨claimed, claims⟩ := znCachemapFind_unwritten thread small notWriting notLocated
  refine ⟨_, runActions_cons (step_call idle small) (runActions_cons
    (@step_section _ _ _ _ code config ioSize _ thread (.find id)
      (by simp [System.advance]) (by simp) environment
      { log.system.cache with cacheMap := log.system.cache.cacheMap.setEntry id claimed }
      (.get (.acquire id)) (by simp [System.advance, getStep, claims, afterFind])) rfl), ?_⟩
  simp [System.advance]

theorem system_invariant {holds : System Thread Policy Local → Prop}
    (kept : ∀ system action next, holds system → System.step code system action = some next →
      holds next)
    {actions : List (Thread × Choice)} {first last : RatioLog Thread Policy Local}
    (begins : holds first.system)
    (ran : runActions (RatioLog.step code config ioSize) first actions = some last) :
    holds last.system := by
  refine @runActions_invariant _ _ _ (fun log => holds log.system) _ _ _ ?_ begins ran
  intro log action next here taken
  obtain ⟨system, moved, rfl⟩ := Option.map_eq_some_iff.mp taken
  exact kept _ _ _ here moved

/-- The call that comes next misses, `zsm_get_active_zone` hands out a zone at once, and the
chunk write fails. -/
structure MissFails (log : RatioLog Thread Policy Local) (id : Nat) (location : ZnPair)
    (acquire write : Environment) : Prop where
  idle : ∀ thread, log.system.threads thread = .idle
  small : id < 2 ^ 32
  notLocated : ¬ log.system.cache.cacheMap.Located id
  handed : (zsmGetActiveZone acquire.commandRet log.system.cache.zoneState).ret =
    .success location
  failed : write.transfers = false

/-- The call runs to its end and returns NULL, undoes what it did, and whoever asks for the
identifier next becomes its writer. -/
def Undoes (code : EvictionCode Thread Policy Local) (config : CacheConfig) (ioSize : Nat)
    (log : RatioLog Thread Policy Local) (id : Nat) (location : ZnPair)
    (call : List (Thread × Choice)) : Prop :=
  ∃ last, runActions (RatioLog.step code config ioSize) log call = some last ∧
    last.returns = log.returns ++ [.null] ∧
    last.system.threads = log.system.threads ∧
    MissUndone log.system.cache last.system.cache id location ∧
    ∀ next environment, ∃ later, runActions (RatioLog.step code config ioSize) last
      [(next, .get id), (next, .run environment)] = some later ∧
        later.system.threads next = .get (.acquire id)

theorem unwrittenGet_undone (starts : code.StartsNoWrite) {policy : Policy}
    {first : System Thread Policy Local} {actions : List (Thread × Choice)}
    (begins : System.init config policy = some first)
    (ran : runActions (RatioLog.step code config ioSize) (start first) actions = some log)
    (sorted : QueuesSorted log.system.cache.zoneState) {id : Nat} {location : ZnPair}
    {find acquire write undoZone undoMap : Environment}
    (fails : log.MissFails id location acquire write) :
    Undoes code config ioSize log id location
      (unwrittenGet thread id find acquire write undoZone undoMap) := by
  have sound : WritesSound log.system :=
    system_invariant (fun _ _ _ sound => sound.step starts) (WritesSound.init begins) ran
  have notWriting : ¬ log.system.cache.cacheMap.Writing id := by
    intro writing
    obtain ⟨writer, member⟩ := sound.written id writing
    rw [fails.idle writer] at member
    exact Multiset.notMem_zero _ member
  obtain ⟨cache, runs, undone⟩ := unwrittenGet_runs sound sorted (fails.idle thread) fails.small
    notWriting fails.notLocated fails.handed fails.failed
  have stillIdle : (log.system.advance thread cache .idle).threads = log.system.threads := by
    rw [System.advance, ← fails.idle thread]
    exact Function.update_eq_self _ _
  refine ⟨_, runs, rfl, stillIdle, undone, fun next environment => ?_⟩
  obtain ⟨entry, found, empty⟩ := undone.emptied
  refine get_emptied ?_ fails.small found empty environment
  dsimp only
  rw [stillIdle]
  exact fails.idle next

end Steps

/-- Under either policy, in every state with no call in progress, a miss whose chunk write
fails returns NULL and leaves the cache as it was, apart from an empty entry and the order
of the active queue or one free zone that is active now. -/
theorem failedMiss_undone [DecidableEq Thread] [Fintype Thread] (config : CacheConfig)
    (fits : config.maxZoneChunks < 2 ^ 32) (ioSize : Nat) :
    (∀ (first : PromotionalSystem Thread) (actions : List (Thread × Choice))
        (log : RatioLog Thread ZnPolicyPromotional EvictPc),
        promotionalSystem config = some first →
        runActions (RatioLog.step (promotionalCode config) config ioSize) (start first) actions =
          some log →
        ∀ thread id location find acquire write undoZone undoMap,
          log.MissFails id location acquire write →
          Undoes (promotionalCode config) config ioSize log id location
            (unwrittenGet thread id find acquire write undoZone undoMap)) ∧
      ∀ (first : ChunkSystem Unit) (actions : List (Unit × Choice))
        (log : RatioLog Unit (ZnPolicyChunk Unit) ChunkEvictPc),
        chunkSystem config = some first →
        runActions (RatioLog.step (chunkCode config) config ioSize) (start first) actions =
          some log →
        ∀ thread id location find acquire write undoZone undoMap,
          log.MissFails id location acquire write →
          Undoes (chunkCode config) config ioSize log id location
            (unwrittenGet thread id find acquire write undoZone undoMap) := by
  constructor
  · intro first actions log begins ran thread id location find acquire write undoZone undoMap
      fails
    have kept : ZonesInCustody config log.system :=
      system_invariant (fun _ _ _ kept => kept.step fits) (ZonesInCustody.init begins) ran
    exact unwrittenGet_undone (promotionalCode_startsNoWrite config) begins ran kept.zones.sorted
      fails
  · intro first actions log begins ran thread id location find acquire write undoZone undoMap
      fails
    have sound : QueuesSound config.maxZoneChunks log.system :=
      system_invariant (fun _ _ _ sound => sound.step_solo fits) (QueuesSound.init begins) ran
    exact unwrittenGet_undone (chunkCode_startsNoWrite config) begins ran sound.sorted fails

theorem MissFails.of_absent {log : RatioLog Unit Policy Local} {id : Nat} {location : ZnPair}
    (idle : log.system.threads () = .idle) (small : id < 2 ^ 32)
    (absent : log.system.cache.cacheMap.zoneMap id = none)
    (handed : (zsmGetActiveZone 0 log.system.cache.zoneState).ret = .success location) :
    log.MissFails id location .smooth ⟨false, 0, true⟩ := by
  refine ⟨fun _ => idle, small, fun given => ?_, handed, rfl⟩
  obtain ⟨entry, found, _⟩ := given
  rw [absent] at found
  cases found

/-- After a miss and a hit of one identifier, the next chunk of the same zone is not
written. -/
theorem failedMiss_undone_afterHit :
    (∃ first log, promotionalSystem twoChunkConfig = some first ∧
      runActions (RatioLog.step (promotionalCode twoChunkConfig) twoChunkConfig 4096)
        (start first) (missThenHit .smooth) = some log ∧
      Undoes (promotionalCode twoChunkConfig) twoChunkConfig 4096 log 8 ⟨0, 1, 0, false⟩
        (unwrittenGet () 8 .smooth .smooth ⟨false, 0, true⟩ .smooth .smooth)) ∧
      ∃ first log, chunkSystem twoChunkConfig = some first ∧
        runActions (RatioLog.step (chunkCode twoChunkConfig) twoChunkConfig 4096)
          (start first) (missThenHit .smooth) = some log ∧
        Undoes (chunkCode twoChunkConfig) twoChunkConfig 4096 log 8 ⟨0, 1, 0, false⟩
          (unwrittenGet () 8 .smooth .smooth ⟨false, 0, true⟩ .smooth .smooth) := by
  obtain ⟨promotional, chunk⟩ := @failedMiss_undone Unit _ _ twoChunkConfig (by decide) 4096
  constructor
  · obtain ⟨first, log, begins, ran, idle, absent, handed⟩ : ∃ (first : PromotionalSystem Unit)
        (log : RatioLog Unit ZnPolicyPromotional EvictPc),
        promotionalSystem twoChunkConfig = some first ∧
        runActions (RatioLog.step (promotionalCode twoChunkConfig) twoChunkConfig 4096)
          (start first) (missThenHit .smooth) = some log ∧
        log.system.threads () = .idle ∧ log.system.cache.cacheMap.zoneMap 8 = none ∧
        (zsmGetActiveZone 0 log.system.cache.zoneState).ret = .success ⟨0, 1, 0, false⟩ :=
      ⟨_, _, rfl, rfl, rfl, rfl, rfl⟩
    exact ⟨first, log, begins, ran, promotional first _ log begins ran () 8 _ .smooth .smooth _
      .smooth .smooth (.of_absent idle (by decide) absent handed)⟩
  · obtain ⟨first, log, begins, ran, idle, absent, handed⟩ : ∃ (first : ChunkSystem Unit)
        (log : RatioLog Unit (ZnPolicyChunk Unit) ChunkEvictPc),
        chunkSystem twoChunkConfig = some first ∧
        runActions (RatioLog.step (chunkCode twoChunkConfig) twoChunkConfig 4096)
          (start first) (missThenHit .smooth) = some log ∧
        log.system.threads () = .idle ∧ log.system.cache.cacheMap.zoneMap 8 = none ∧
        (zsmGetActiveZone 0 log.system.cache.zoneState).ret = .success ⟨0, 1, 0, false⟩ :=
      ⟨_, _, rfl, rfl, rfl, rfl, rfl⟩
    exact ⟨first, log, begins, ran, chunk first _ log begins ran () 8 _ .smooth .smooth _
      .smooth .smooth (.of_absent idle (by decide) absent handed)⟩

end RatioLog

end ZNCache
