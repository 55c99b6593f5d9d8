import ZNCache.CacheMap
import ZNCache.Lib.Transition
import ZNCache.Promotional

/-!
# Threads over one cache

`zn_cache_get` as a program whose steps are its locked sections, its chunk write,
its chunk read and the reader decrement.  The eviction code is a parameter: each
policy supplies its own.  The disk records, for every chunk location, the
identifier last written there since its zone was reset.
-/

set_option autoImplicit false

namespace ZNCache

structure CacheConfig where
  nrZones : Nat
  zoneCap : Nat
  zoneSize : Nat
  chunkSz : Nat
  maxNrActiveZones : Nat
  backend : ZnBackend
  evictHighThreshZones : Nat
  evictLowThreshZones : Nat
  evictHighThreshChunks : Nat
  evictLowThreshChunks : Nat

/-- `MAX_OPEN_ZONES`, for a device that reports no limit. -/
def maxOpenZones : Nat := 14

def CacheConfig.maxActive (config : CacheConfig) : Nat :=
  if config.maxNrActiveZones = 0 then maxOpenZones else config.maxNrActiveZones

def CacheConfig.maxZoneChunks (config : CacheConfig) : Nat := config.zoneCap / config.chunkSz

/-- A device of one zone that holds one chunk; a zone is evicted when none is free. -/
def oneChunkConfig : CacheConfig where
  nrZones := 1
  zoneCap := 4096
  zoneSize := 4096
  chunkSz := 4096
  maxNrActiveZones := 1
  backend := .zns
  evictHighThreshZones := 0
  evictLowThreshZones := 1
  evictHighThreshChunks := 0
  evictLowThreshChunks := 1

/-- A device of one zone that holds two chunks. -/
def twoChunkConfig : CacheConfig :=
  { oneChunkConfig with zoneCap := 8192, zoneSize := 8192 }

structure ZnCache (Thread Policy : Type) where
  zoneState : ZoneStateManager
  cacheMap : CacheMap Thread
  evictionPolicy : Policy
  disk : Nat → Nat → Option Nat
  hits : Nat
  misses : Nat

variable {Thread Policy Local : Type}

/-- Nothing is built when the chunk count divides by zero, nor when `num_zones`
reaches `zn_cachemap_init` as a negative `int` and its allocation aborts. -/
def znInitCache (config : CacheConfig) (policy : Policy) : Option (ZnCache Thread Policy) :=
  if config.nrZones < 2 ^ 31 ∧ 0 < config.chunkSz then
    some {
      zoneState := zsmInit config.nrZones config.zoneCap config.zoneSize config.chunkSz
        config.maxActive config.backend
      cacheMap := znCachemapInit
      evictionPolicy := policy
      disk := fun _ _ => none
      hits := 0
      misses := 0 }
  else none

namespace ZnCache

/-- What a chunk write leaves at its location; a failed one leaves nothing known. -/
def writeChunk (cache : ZnCache Thread Policy) (location : ZnPair) (content : Option Nat) :
    ZnCache Thread Policy :=
  { cache with
    disk := Function.update cache.disk location.zone
      (Function.update (cache.disk location.zone) location.chunkOffset content) }

theorem writeChunk_disk (cache : ZnCache Thread Policy) (location : ZnPair)
    (content : Option Nat) (zone chunk : Nat) :
    (cache.writeChunk location content).disk zone chunk =
      if zone = location.zone ∧ chunk = location.chunkOffset then content
      else cache.disk zone chunk := by
  by_cases sameZone : zone = location.zone
  · subst sameZone
    by_cases sameChunk : chunk = location.chunkOffset
    · simp [writeChunk, sameChunk]
    · simp [writeChunk, sameChunk]
  · simp [writeChunk, sameZone]

/-- `zsm_evict` on the zone; once it is reset, none of its chunks is left. -/
def evictZone (cache : ZnCache Thread Policy) (resetRet : Int) (zone : Nat) :
    ZnCache Thread Policy :=
  { cache with
    zoneState := (zsmEvict resetRet cache.zoneState zone).state
    disk :=
      if (cache.zoneState.state zone).state = .free ∨ backendRet cache.zoneState resetRet ≠ 0
      then cache.disk
      else Function.update cache.disk zone fun _ => none }

end ZnCache

/-- Where a thread stands in `zn_cache_get`, named by the section it runs next. -/
inductive GetPc
  | find (id : Nat)
  | asleep (id : Nat)
  | read (id : Nat) (location : ZnPair)
  | touch (id : Nat) (location : ZnPair) (data : Option Nat)
  | release (id : Nat) (location : ZnPair) (data : Option Nat)
  | countHit (id : Nat) (data : Option Nat)
  | acquire (id : Nat)
  | write (id : Nat) (location : ZnPair)
  | countMiss (id : Nat) (location : ZnPair)
  | giveBack (id : Nat) (location : ZnPair)
  | record (id : Nat) (location : ZnPair)
  | insert (id : Nat) (location : ZnPair)
  | undoZone (id : Nat) (location : ZnPair)
  | undoMap (id : Nat)
  deriving DecidableEq, Repr

/-- An evicting thread may do so for the miss of an identifier, to which it returns. -/
inductive ThreadPc (Local : Type)
  | idle
  | get (pc : GetPc)
  | evict (caller : Option Nat) (code : Local)
  deriving DecidableEq, Repr

/-- What the surroundings do to one step: whether its chunk transfer succeeds, what
its libzbd command returns, and whether its trylock gets the lock. -/
structure Environment where
  transfers : Bool
  commandRet : Int
  lockFree : Bool

/-- Nothing fails and nothing is in the way. -/
def Environment.smooth : Environment := ⟨true, 0, true⟩

inductive Choice
  | get (id : Nat)
  | evict
  | wakeUp
  | run (environment : Environment)

/-- A policy's side of the code: its update and the sections of `zn_fg_evict`. -/
structure EvictionCode (Thread Policy Local : Type) where
  update : Policy → ZnPair → ZnIoType → Option Policy
  start : Local
  evictStep : Thread → ZnCache Thread Policy → Local → Environment →
    Option (ZnCache Thread Policy × Option Local)

def afterFind (id : Nat) : FindResult → ThreadPc Local
  | .loc location => .get (.read id location)
  | .cond => .get (.acquire id)
  | .wait => .get (.asleep id)

def afterGetActiveZone (id : Nat) (start : Local) : GetActiveZone → ThreadPc Local
  | .success location => .get (.write id location)
  | .retry => .get (.acquire id)
  | .error => .get (.undoMap id)
  | .evict => .evict (some id) start

def afterEvict : Option Nat → ThreadPc Local
  | some id => .get (.acquire id)
  | none => .idle

variable [DecidableEq Thread]

def getStep (code : EvictionCode Thread Policy Local) (thread : Thread)
    (cache : ZnCache Thread Policy) (environment : Environment) :
    GetPc → Option (ZnCache Thread Policy × ThreadPc Local)
  | .find id =>
      let found := znCachemapFind thread cache.cacheMap id
      some ({ cache with cacheMap := found.2 }, afterFind id found.1)
  | .asleep id =>
      if cache.cacheMap.sleeping thread id then none
      else some (cache, .get (.find id))
  | .read id location =>
      let data :=
        if environment.transfers then cache.disk location.zone location.chunkOffset else none
      some (cache, .get (.touch id location data))
  | .touch id location data =>
      match code.update cache.evictionPolicy location .read with
      | none => none
      | some policy =>
          some ({ cache with evictionPolicy := policy }, .get (.release id location data))
  | .release id location data =>
      some ({ cache with cacheMap := cache.cacheMap.releaseReader location.zone },
        .get (.countHit id data))
  | .countHit _ _ => some ({ cache with hits := cache.hits + 1 }, .idle)
  | .acquire id =>
      let answer := zsmGetActiveZone environment.commandRet cache.zoneState
      some ({ cache with zoneState := answer.state },
        afterGetActiveZone id code.start answer.ret)
  | .write id location =>
      if environment.transfers then
        some (cache.writeChunk location (some id), .get (.countMiss id location))
      else some (cache.writeChunk location none, .get (.undoZone id location))
  | .countMiss id location =>
      some ({ cache with misses := cache.misses + 1 }, .get (.giveBack id location))
  | .giveBack id location =>
      let answer := zsmReturnActiveZone environment.commandRet cache.zoneState location
      some ({ cache with zoneState := answer.state }, .get (.record id location))
  | .record id location =>
      match code.update cache.evictionPolicy location .write with
      | none => none
      | some policy =>
          some ({ cache with evictionPolicy := policy }, .get (.insert id location))
  | .insert id location =>
      match znCachemapInsert cache.cacheMap id location with
      | none => none
      | some answer => some ({ cache with cacheMap := answer.state }, .idle)
  | .undoZone id location =>
      let answer := zsmFailedToWrite cache.zoneState location
      some ({ cache with zoneState := answer.state }, .get (.undoMap id))
  | .undoMap id =>
      match znCachemapFail cache.cacheMap id with
      | none => none
      | some answer => some ({ cache with cacheMap := answer.state }, .idle)

structure System (Thread Policy Local : Type) where
  cache : ZnCache Thread Policy
  threads : Thread → ThreadPc Local

namespace System

def init (config : CacheConfig) (policy : Policy) : Option (System Thread Policy Local) :=
  (znInitCache config policy).map fun cache => ⟨cache, fun _ => .idle⟩

def advance (system : System Thread Policy Local) (thread : Thread)
    (cache : ZnCache Thread Policy) (pc : ThreadPc Local) : System Thread Policy Local :=
  ⟨cache, Function.update system.threads thread pc⟩

def step (code : EvictionCode Thread Policy Local) (system : System Thread Policy Local)
    (action : Thread × Choice) : Option (System Thread Policy Local) :=
  match system.threads action.1, action.2 with
  | .idle, .get id =>
      if id < 2 ^ 32 then some (system.advance action.1 system.cache (.get (.find id)))
      else none
  | .idle, .evict => some (system.advance action.1 system.cache (.evict none code.start))
  | .get (.asleep id), .wakeUp =>
      some (system.advance action.1
        { system.cache with cacheMap := system.cache.cacheMap.wakeUp action.1 id }
        (.get (.find id)))
  | .get pc, .run environment =>
      (getStep code action.1 system.cache environment pc).map fun next =>
        system.advance action.1 next.1 next.2
  | .evict caller pc, .run environment =>
      (code.evictStep action.1 system.cache pc environment).map fun next =>
        system.advance action.1 next.1
          (match next.2 with
          | some pc => .evict caller pc
          | none => afterEvict caller)
  | _, _ => none

def execute (code : EvictionCode Thread Policy Local) (config : CacheConfig) (policy : Policy)
    (actions : List (Thread × Choice)) : Option (System Thread Policy Local) :=
  (init config policy).bind fun system => Transition.runActions (step code) system actions

end System

end ZNCache
