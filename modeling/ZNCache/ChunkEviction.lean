import ZNCache.ChunkGc
import ZNCache.WorkerSteps

/-!
# Evicting under the chunk policy

The sections of `zn_policy_chunk_evict` and of the GC at its end, which one thread
runs at a time under the policy's mutex.  Other threads run between any two of them.
-/

set_option autoImplicit false

namespace ZNCache

open ZnPolicyChunk

/-- Where a thread stands in `zn_policy_chunk_evict`: the loop counter and its bound with
the chunk taken from the queue, or the zone that the GC reclaims with the chunk it looks
at, where that chunk goes and what was read of it. -/
inductive ChunkEvictPc
  | start
  | pop (i nr : Nat)
  | mark (i nr : Nat) (pair : ZnPair)
  | clear (i nr : Nat) (pair : ZnPair)
  | gcStart
  | gcLoop (freeZones : Nat)
  | gcScan (zone chunk : Nat)
  | gcRead (zone chunk : Nat) (location : ZnPair)
  | gcWrite (zone chunk : Nat) (location : ZnPair) (data : Option Nat)
  | gcInsert (zone chunk : Nat) (location : ZnPair)
  | gcClear (zone : Nat)
  | gcReset (zone : Nat)
  | gcCount
  | leave
  deriving DecidableEq, Repr

variable {Thread : Type}

/-- `zone_id` of the reclaimed zone. -/
def ChunkCache.zoneId (cache : ChunkCache Thread) (zone : Nat) : Nat :=
  (cache.evictionPolicy.zonePool zone).zoneId

def ChunkCache.setHolder (cache : ChunkCache Thread) (holder : Option Thread) :
    ChunkCache Thread :=
  cache.setPolicy { cache.evictionPolicy with holder := holder }

def chunkEvictStep [DecidableEq Thread] (config : CacheConfig) (thread : Thread)
    (cache : ChunkCache Thread) (environment : Environment) :
    ChunkEvictPc → Option (ChunkCache Thread × Option ChunkEvictPc)
  | .start =>
      if environment.lockFree ∧ cache.evictionPolicy.holder = none then
        if enoughFreeChunks config.evictHighThreshChunks cache.evictionPolicy then
          some (cache, none)
        else
          some (cache.setHolder (some thread),
            some (.pop 0 (nrEvict config.evictLowThreshChunks cache.evictionPolicy)))
      else some (cache, none)
  | .pop i nr =>
      if i < nr then
        match evictChunk cache.evictionPolicy with
        | none => none
        | some (pair, policy) => some (cache.setPolicy policy, some (.mark i nr pair))
      else some (cache, some .gcStart)
  | .mark i nr pair =>
      some ({ cache with zoneState := zsmMarkChunkInvalid cache.zoneState pair },
        some (.clear i nr pair))
  | .clear i nr pair =>
      match znCachemapClearChunk cache.cacheMap pair with
      | none => none
      | some answer =>
          some ({ cache with cacheMap := answer.state }, some (.pop (u32 (i + 1)) nr))
  | .gcStart =>
      if config.evictHighThreshZones < zsmGetNumFreeZones cache.zoneState then
        some (cache, some .leave)
      else some (cache, some (.gcLoop (zsmGetNumFreeZones cache.zoneState)))
  | .gcLoop freeZones =>
      if freeZones < config.evictLowThreshZones then
        match znMinheapExtractMin cache.evictionPolicy.invalidPqueue with
        | none => some (cache, some .leave)
        | some (handle, heap) =>
            some (cache.setHeap heap, some (.gcScan (heap.entry handle).data 0))
      else some (cache, some .leave)
  | .gcScan zone chunk =>
      if chunk < cache.evictionPolicy.maxZoneChunks then
        if (cache.evictionPolicy.slot (zone, chunk)).inUse then
          let answer := zsmGetActiveZone environment.commandRet cache.zoneState
          match answer.ret with
          | .success location =>
              some ({ cache with zoneState := answer.state },
                some (.gcRead zone chunk location))
          | _ => none -- the location would be used uninitialised
        else some (cache, some (.gcScan zone (chunk + 1)))
      else some (cache, some (.gcClear zone))
  | .gcRead zone chunk location =>
      let pair := cache.evictionPolicy.slot (zone, chunk)
      -- a failed read is a NULL that the write dereferences
      if environment.transfers then
        some (cache, some (.gcWrite zone chunk location (cache.disk pair.zone pair.chunkOffset)))
      else none
  | .gcWrite zone chunk location data =>
      some (cache.writeChunk location (if environment.transfers then data else none),
        some (.gcInsert zone chunk location))
  | .gcInsert zone chunk location =>
      match cache.remapChunk (zone, chunk) location with
      | none => none
      | some after => some (after, some (.gcScan zone (chunk + 1)))
  | .gcClear zone =>
      match znCachemapClearZone cache.cacheMap (cache.zoneId zone) with
      | none => none
      | some answer => some ({ cache with cacheMap := answer.state }, some (.gcReset zone))
  | .gcReset zone =>
      some (cache.evictZone environment.commandRet (cache.zoneId zone), some .gcCount)
  | .gcCount => some (cache, some (.gcLoop (zsmGetNumFreeZones cache.zoneState)))
  | .leave => some (cache.setHolder none, none)

def chunkCode [DecidableEq Thread] (config : CacheConfig) :
    EvictionCode Thread (ZnPolicyChunk Thread) ChunkEvictPc where
  update := znPolicyChunkUpdate
  start := .start
  evictStep := fun thread cache pc environment =>
    chunkEvictStep config thread cache environment pc

abbrev ChunkSystem (Thread : Type) := System Thread (ZnPolicyChunk Thread) ChunkEvictPc

def chunkSystem (config : CacheConfig) : Option (ChunkSystem Thread) :=
  System.init config (chunkInit config.nrZones config.maxZoneChunks)

inductive ChunkEvictStep (config : CacheConfig) (thread : Thread) (cache : ChunkCache Thread)
    (environment : Environment) :
    ChunkEvictPc → ChunkCache Thread → Option ChunkEvictPc → Prop
  | turnedAway : ChunkEvictStep config thread cache environment .start cache none
  | lock (nr : Nat) (unheld : cache.evictionPolicy.holder = none) :
      ChunkEvictStep config thread cache environment .start (cache.setHolder (some thread))
        (some (.pop 0 nr))
  | pop (i nr : Nat) (pair : ZnPair) (policy : ZnPolicyChunk Thread)
      (evicted : evictChunk cache.evictionPolicy = some (pair, policy)) :
      ChunkEvictStep config thread cache environment (.pop i nr) (cache.setPolicy policy)
        (some (.mark i nr pair))
  | popped (i nr : Nat) :
      ChunkEvictStep config thread cache environment (.pop i nr) cache (some .gcStart)
  | mark (i nr : Nat) (pair : ZnPair) :
      ChunkEvictStep config thread cache environment (.mark i nr pair)
        { cache with zoneState := zsmMarkChunkInvalid cache.zoneState pair }
        (some (.clear i nr pair))
  | clear (i nr : Nat) (pair : ZnPair) (answer : Outcome (CacheMap Thread) Unit)
      (cleared : znCachemapClearChunk cache.cacheMap pair = some answer) :
      ChunkEvictStep config thread cache environment (.clear i nr pair)
        { cache with cacheMap := answer.state } (some (.pop (u32 (i + 1)) nr))
  | gcEnough : ChunkEvictStep config thread cache environment .gcStart cache (some .leave)
  | gcShort :
      ChunkEvictStep config thread cache environment .gcStart cache
        (some (.gcLoop (zsmGetNumFreeZones cache.zoneState)))
  | gcDone (freeZones : Nat) :
      ChunkEvictStep config thread cache environment (.gcLoop freeZones) cache (some .leave)
  | gcTake (freeZones handle : Nat) (heap : ZnMinheap)
      (extracted : znMinheapExtractMin cache.evictionPolicy.invalidPqueue =
        some (handle, heap)) :
      ChunkEvictStep config thread cache environment (.gcLoop freeZones) (cache.setHeap heap)
        (some (.gcScan (heap.entry handle).data 0))
  | gcSkip (zone chunk : Nat) (inZone : chunk < cache.evictionPolicy.maxZoneChunks)
      (unused : (cache.evictionPolicy.slot (zone, chunk)).inUse = false) :
      ChunkEvictStep config thread cache environment (.gcScan zone chunk) cache
        (some (.gcScan zone (chunk + 1)))
  | gcAcquire (zone chunk : Nat) (location : ZnPair)
      (inZone : chunk < cache.evictionPolicy.maxZoneChunks)
      (used : (cache.evictionPolicy.slot (zone, chunk)).inUse = true)
      (handed : (zsmGetActiveZone environment.commandRet cache.zoneState).ret =
        .success location) :
      ChunkEvictStep config thread cache environment (.gcScan zone chunk)
        { cache with
          zoneState := (zsmGetActiveZone environment.commandRet cache.zoneState).state }
        (some (.gcRead zone chunk location))
  | gcScanned (zone chunk : Nat) (atEnd : cache.evictionPolicy.maxZoneChunks ≤ chunk) :
      ChunkEvictStep config thread cache environment (.gcScan zone chunk) cache
        (some (.gcClear zone))
  | gcRead (zone chunk : Nat) (location : ZnPair) (data : Option Nat) :
      ChunkEvictStep config thread cache environment (.gcRead zone chunk location) cache
        (some (.gcWrite zone chunk location data))
  | gcWrite (zone chunk : Nat) (location : ZnPair) (data content : Option Nat) :
      ChunkEvictStep config thread cache environment (.gcWrite zone chunk location data)
        (cache.writeChunk location content) (some (.gcInsert zone chunk location))
  | gcInsert (zone chunk : Nat) (location : ZnPair) (answer : Outcome (CacheMap Thread) Unit)
      (inserted : znCachemapInsert cache.cacheMap
        (cache.evictionPolicy.slot (zone, chunk)).id location = some answer) :
      ChunkEvictStep config thread cache environment (.gcInsert zone chunk location)
        { cache with
          cacheMap := answer.state
          evictionPolicy := moveSlot cache.evictionPolicy (zone, chunk) location }
        (some (.gcScan zone (chunk + 1)))
  | gcClear (zone : Nat) (answer : Outcome (CacheMap Thread) Unit)
      (cleared : znCachemapClearZone cache.cacheMap (cache.zoneId zone) = some answer) :
      ChunkEvictStep config thread cache environment (.gcClear zone)
        { cache with cacheMap := answer.state } (some (.gcReset zone))
  | gcReset (zone : Nat) :
      ChunkEvictStep config thread cache environment (.gcReset zone)
        (cache.evictZone environment.commandRet (cache.zoneId zone)) (some .gcCount)
  | gcCount :
      ChunkEvictStep config thread cache environment .gcCount cache
        (some (.gcLoop (zsmGetNumFreeZones cache.zoneState)))
  | leave :
      ChunkEvictStep config thread cache environment .leave (cache.setHolder none) none

theorem chunkEvictStep_spec [DecidableEq Thread] {config : CacheConfig} {thread : Thread}
    {cache after : ChunkCache Thread} {environment : Environment} {pc : ChunkEvictPc}
    {next : Option ChunkEvictPc}
    (taken : chunkEvictStep config thread cache environment pc = some (after, next)) :
    ChunkEvictStep config thread cache environment pc after next := by
  cases pc with
  | start =>
      simp only [chunkEvictStep] at taken
      split at taken
      next free =>
          split at taken
          · cases Option.some.inj taken
            exact .turnedAway
          · cases Option.some.inj taken
            exact .lock _ free.2
      next =>
          cases Option.some.inj taken
          exact .turnedAway
  | pop i nr =>
      simp only [chunkEvictStep] at taken
      split at taken
      · cases evicted : evictChunk cache.evictionPolicy with
        | none => simp [evicted] at taken
        | some answer =>
            obtain ⟨pair, policy⟩ := answer
            rw [evicted] at taken
            cases Option.some.inj taken
            exact .pop i nr pair policy evicted
      · cases Option.some.inj taken
        exact .popped i nr
  | mark i nr pair => cases Option.some.inj taken; exact .mark i nr pair
  | clear i nr pair =>
      simp only [chunkEvictStep] at taken
      cases cleared : znCachemapClearChunk cache.cacheMap pair with
      | none => simp [cleared] at taken
      | some answer =>
          rw [cleared] at taken
          cases Option.some.inj taken
          exact .clear i nr pair answer cleared
  | gcStart =>
      simp only [chunkEvictStep] at taken
      split at taken
      · cases Option.some.inj taken
        exact .gcEnough
      · cases Option.some.inj taken
        exact .gcShort
  | gcLoop freeZones =>
      simp only [chunkEvictStep] at taken
      split at taken
      · cases extracted : znMinheapExtractMin cache.evictionPolicy.invalidPqueue with
        | none =>
            rw [extracted] at taken
            cases Option.some.inj taken
            exact .gcDone freeZones
        | some answer =>
            obtain ⟨handle, heap⟩ := answer
            rw [extracted] at taken
            cases Option.some.inj taken
            exact .gcTake freeZones handle heap extracted
      · cases Option.some.inj taken
        exact .gcDone freeZones
  | gcScan zone chunk =>
      simp only [chunkEvictStep] at taken
      split at taken
      next inZone =>
          split at taken
          next used =>
              cases handed :
                  (zsmGetActiveZone environment.commandRet cache.zoneState).ret with
              | success location =>
                  rw [handed] at taken
                  cases Option.some.inj taken
                  exact .gcAcquire zone chunk location inZone used handed
              | retry | error | evict => simp [handed] at taken
          next unused =>
              cases Option.some.inj taken
              exact .gcSkip zone chunk inZone (by simpa using unused)
      next atEnd =>
          cases Option.some.inj taken
          exact .gcScanned zone chunk (Nat.le_of_not_lt atEnd)
  | gcRead zone chunk location =>
      simp only [chunkEvictStep] at taken
      split at taken
      · cases Option.some.inj taken
        exact .gcRead zone chunk location _
      · simp at taken
  | gcWrite zone chunk location data =>
      cases Option.some.inj taken
      exact .gcWrite zone chunk location data _
  | gcInsert zone chunk location =>
      simp only [chunkEvictStep, ChunkCache.remapChunk] at taken
      cases inserted : znCachemapInsert cache.cacheMap
          (cache.evictionPolicy.slot (zone, chunk)).id location with
      | none => simp [inserted] at taken
      | some answer =>
          rw [inserted] at taken
          cases Option.some.inj taken
          exact .gcInsert zone chunk location answer inserted
  | gcClear zone =>
      simp only [chunkEvictStep] at taken
      cases cleared : znCachemapClearZone cache.cacheMap (cache.zoneId zone) with
      | none => simp [cleared] at taken
      | some answer =>
          rw [cleared] at taken
          cases Option.some.inj taken
          exact .gcClear zone answer cleared
  | gcReset zone => cases Option.some.inj taken; exact .gcReset zone
  | gcCount => cases Option.some.inj taken; exact .gcCount
  | leave => cases Option.some.inj taken; exact .leave

end ZNCache
