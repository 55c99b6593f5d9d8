import ZNCache.Lib.ByteDevice
import ZNCache.PromotionalEviction

/-!
# One thread on a device of bytes

`zn_cache_get` under the promotional policy, from its call to its return, when no other
thread runs and no transfer or libzbd command fails.  Chunks are written to the device and
read from it in pieces of `io_size` bytes.
-/

set_option autoImplicit false

namespace ZNCache

open ByteDevice

/-! ## Chunks on the device -/

/-- `ZN_DIRECT_ALIGNMENT`. -/
def directAlignment : Nat := 4096

/-- The bytes of a `uint32_t`, the least significant one first. -/
def u32Bytes (value : Nat) : List UInt8 :=
  [0, 8, 16, 24].map fun shift => UInt8.ofNat (value >>> shift)

/-- The identifier is copied over the first four bytes of the buffer. -/
def znGenWriteBuffer (chunkSz id : Nat) (buffer : List UInt8) : List UInt8 :=
  u32Bytes id ++ (buffer.take chunkSz).drop 4

/-- Pieces of no bytes make no progress; pieces of at least one are no more than the bytes. -/
def writeLoop (toWrite : Nat) (buffer : List UInt8) (writeSize wpStart : Nat) :
    Nat → Nat → Device → Option Device
  | 0, totalWritten, device => if totalWritten < toWrite then none else some device
  | passes + 1, totalWritten, device =>
      if totalWritten < toWrite then
        let remaining := toWrite - totalWritten
        let chunkSize := if remaining < writeSize then remaining else writeSize
        writeLoop toWrite buffer writeSize wpStart passes (totalWritten + chunkSize)
          (pwrite device ((buffer.drop totalWritten).take chunkSize)
            ((wpStart + totalWritten) % 2 ^ 64))
      else some device

def znWriteOut (device : Device) (toWrite : Nat) (buffer : List UInt8)
    (writeSize wpStart : Nat) : Option Device :=
  writeLoop toWrite buffer writeSize wpStart toWrite 0 device

def readLoop (device : Device) (chunkSz maxIo wp : Nat) : Nat → List UInt8 → Option (List UInt8)
  | 0, data => if data.length < chunkSz then none else some data
  | passes + 1, data =>
      if data.length < chunkSz then
        let remaining := chunkSz - data.length
        let toRead := if maxIo < remaining then maxIo else remaining
        readLoop device chunkSz maxIo wp passes
          (data ++ pread device toRead ((wp + data.length) % 2 ^ 64))
      else some data

/-- The answer is NULL when a size or the offset is not aligned. -/
def znReadFromDisk (config : CacheConfig) (ioSize : Nat) (device : Device) (pair : ZnPair) :
    Option (Option (List UInt8)) :=
  if config.chunkSz % directAlignment ≠ 0 ∨ ioSize % directAlignment ≠ 0 then some none
  else
    let wp := chunkPointer config.zoneSize config.chunkSz pair.chunkOffset pair.zone
    if wp % directAlignment ≠ 0 then some none
    else (readLoop device config.chunkSz ioSize wp config.chunkSz []).map some

/-! ## The calls -/

structure DeviceCache where
  cache : PromotionalCache Unit
  device : Device

/-- A zone that is reset reads as zeros. -/
def resetBytes (config : CacheConfig) (zone : Nat) (device : Device) : Device := fun place =>
  if config.zoneSize * zone ≤ place ∧ place < config.zoneSize * (zone + 1) then 0
  else device place

namespace DeviceCache

def init (config : CacheConfig) (device : Device) : Option DeviceCache :=
  (znInitCache config (promotionalInit config.maxZoneChunks)).map (⟨·, device⟩)

/-- `zsm_evict` on the zone, which resets it unless it is free already. -/
def evictZone (config : CacheConfig) (zone : Nat) (state : DeviceCache) : DeviceCache where
  cache := state.cache.evictZone 0 zone
  device :=
    if (state.cache.zoneState.state zone).state = .free ∨ config.backend ≠ .zns then state.device
    else resetBytes config zone state.device

end DeviceCache

/-- Each pass takes a zone from the queue, so the loop ends within as many passes as the
queue has zones. -/
def fgEvictLoop (config : CacheConfig) (freeZones : Nat) :
    Nat → Nat → DeviceCache → Option DeviceCache
  | 0, _, state => some state
  | zones + 1, i, state =>
      if (i : Int) < threshMinus config.evictLowThreshZones freeZones then
        match znPolicyPromotionalGetZoneToEvict true state.cache.evictionPolicy with
        | (none, policy) =>
            some { state with cache := { state.cache with evictionPolicy := policy } }
        | (some zone, policy) =>
            match znCachemapClearZone state.cache.cacheMap zone with
            | none => none
            | some answer =>
                -- nobody is left to lower the count
                if 0 < answer.state.activeReaders zone then none
                else
                  fgEvictLoop config freeZones zones (u32 (i + 1))
                    (DeviceCache.evictZone config zone { state with
                      cache := { state.cache with
                        evictionPolicy := policy, cacheMap := answer.state } })
      else some state

def znFgEvict (config : CacheConfig) (state : DeviceCache) : Option DeviceCache :=
  fgEvictLoop config (zsmGetNumFreeZones state.cache.zoneState)
    state.cache.evictionPolicy.lruQueue.length 0 state

/-- The loop that gets a location to write to, for so many passes at most. -/
def acquireLoop (config : CacheConfig) :
    Nat → DeviceCache → Option (Option ZnPair × DeviceCache)
  | 0, _ => none
  | passes + 1, state =>
      let answer := zsmGetActiveZone 0 state.cache.zoneState
      let after := { state with cache := { state.cache with zoneState := answer.state } }
      match answer.ret with
      | .retry => acquireLoop config passes after
      | .error => some (none, after)
      | .evict => (znFgEvict config after).bind (acquireLoop config passes)
      | .success location => some (some location, after)

structure GetResult where
  hit : Bool
  data : Option (List UInt8)
  deriving DecidableEq

def znCacheHit (config : CacheConfig) (ioSize : Nat) (state : DeviceCache) (location : ZnPair) :
    Option (GetResult × DeviceCache) :=
  match znReadFromDisk config ioSize state.device location with
  | none => none
  | some data =>
      match znPolicyPromotionalUpdate state.cache.evictionPolicy location .read with
      | none => none
      | some policy =>
          some (⟨true, data⟩, { state with
            cache := { state.cache with
              evictionPolicy := policy
              cacheMap := state.cache.cacheMap.releaseReader location.zone
              hits := state.cache.hits + 1 } })

def znCacheFill (config : CacheConfig) (ioSize : Nat) (randomBuffer : List UInt8) (id : Nat)
    (location : ZnPair) (state : DeviceCache) : Option (GetResult × DeviceCache) :=
  let data := znGenWriteBuffer config.chunkSz id randomBuffer
  let wp := chunkPointer config.zoneSize config.chunkSz location.chunkOffset location.zone
  match znWriteOut state.device config.chunkSz data ioSize wp with
  | none => none
  | some device =>
      let written := state.cache.writeChunk location (some id)
      let returned := zsmReturnActiveZone 0 written.zoneState location
      match znPolicyPromotionalUpdate written.evictionPolicy location .write with
      | none => none
      | some policy =>
          match znCachemapInsert written.cacheMap id location with
          | none => none
          | some answer =>
              some (⟨false, some data⟩, ⟨{ written with
                zoneState := returned.state
                evictionPolicy := policy
                cacheMap := answer.state
                misses := written.misses + 1 }, device⟩)

def znCacheGet (config : CacheConfig) (ioSize passes : Nat) (randomBuffer : List UInt8)
    (state : DeviceCache) (id : Nat) : Option (GetResult × DeviceCache) :=
  let found := znCachemapFind () state.cache.cacheMap id
  let looked := { state with cache := { state.cache with cacheMap := found.2 } }
  match found.1 with
  | .loc location => znCacheHit config ioSize looked location
  | .wait => none -- nobody is left to wake the thread up
  | .cond =>
      match acquireLoop config passes looked with
      | none => none
      | some (some location, ready) =>
          znCacheFill config ioSize randomBuffer id location ready
      | some (none, refused) =>
          match znCachemapFail refused.cache.cacheMap id with
          | none => none
          | some answer =>
              some (⟨false, none⟩,
                { refused with cache := { refused.cache with cacheMap := answer.state } })

def znCacheGets (config : CacheConfig) (ioSize passes : Nat) (randomBuffer : List UInt8) :
    DeviceCache → List Nat → Option (List GetResult × DeviceCache)
  | state, [] => some ([], state)
  | state, id :: rest =>
      match znCacheGet config ioSize passes randomBuffer state id with
      | none => none
      | some (result, next) =>
          (znCacheGets config ioSize passes randomBuffer next rest).map fun later =>
            (result :: later.1, later.2)

/-! ## What the transfers do -/

section Transfers

variable {device : Device} {buffer : List UInt8} {ioSize wp : Nat}

theorem u32Bytes_length (value : Nat) : (u32Bytes value).length = 4 := rfl

theorem znGenWriteBuffer_length {chunkSz id : Nat} (room : 4 ≤ chunkSz)
    (enough : chunkSz ≤ buffer.length) :
    (znGenWriteBuffer chunkSz id buffer).length = chunkSz := by
  rw [znGenWriteBuffer, List.length_append, u32Bytes_length, List.length_drop,
    List.length_take]
  omega

/-- The pieces add up: so far the first bytes are written, in the end all are. -/
theorem writeLoop_writes (positive : 0 < ioSize) (fits : wp + buffer.length < 2 ^ 64)
    (passes : Nat) : ∀ {totalWritten : Nat}, totalWritten ≤ buffer.length →
      buffer.length ≤ totalWritten + passes →
      writeLoop buffer.length buffer ioSize wp passes totalWritten
        (pwrite device (buffer.take totalWritten) wp) = some (pwrite device buffer wp) := by
  induction passes with
  | zero =>
      intro totalWritten within enough
      have done : ¬ totalWritten < buffer.length := by omega
      rw [writeLoop, if_neg done, List.take_of_length_le (by omega)]
  | succ passes ih =>
      intro totalWritten within enough
      rw [writeLoop]
      split
      next more =>
          have offset : (wp + totalWritten) % 2 ^ 64 =
              wp + (buffer.take totalWritten).length := by
            rw [List.length_take, Nat.min_eq_left within]
            exact Nat.mod_eq_of_lt (by omega)
          dsimp only
          rw [offset, pwrite_append, ← List.take_add]
          apply ih
          · split <;> omega
          · split <;> omega
      next done => rw [List.take_of_length_le (by omega)]

theorem znWriteOut_writes (positive : 0 < ioSize) (fits : wp + buffer.length < 2 ^ 64) :
    znWriteOut device buffer.length buffer ioSize wp = some (pwrite device buffer wp) := by
  have whole := @writeLoop_writes device buffer ioSize wp positive fits buffer.length 0
    (Nat.zero_le _) (Nat.le_add_left _ _)
  rwa [List.take_zero, pwrite_nil] at whole

theorem readLoop_reads {chunkSz : Nat} (positive : 0 < ioSize) (fits : wp + chunkSz < 2 ^ 64)
    (passes : Nat) : ∀ {totalRead : Nat}, totalRead ≤ chunkSz → chunkSz ≤ totalRead + passes →
      readLoop device chunkSz ioSize wp passes (pread device totalRead wp) =
        some (pread device chunkSz wp) := by
  induction passes with
  | zero =>
      intro totalRead within enough
      have same : totalRead = chunkSz := by omega
      rw [readLoop, pread_length, if_neg (by omega), same]
  | succ passes ih =>
      intro totalRead within enough
      rw [readLoop, pread_length]
      split
      next more =>
          have offset : (wp + totalRead) % 2 ^ 64 = wp + totalRead :=
            Nat.mod_eq_of_lt (by omega)
          dsimp only
          rw [offset, ← pread_add]
          apply ih
          · split <;> omega
          · split <;> omega
      next done =>
          have same : totalRead = chunkSz := by omega
          rw [same]

theorem znReadFromDisk_reads {config : CacheConfig} {pair : ZnPair} (positive : 0 < ioSize)
    (chunkAligned : config.chunkSz % directAlignment = 0)
    (ioAligned : ioSize % directAlignment = 0)
    (aligned : chunkPointer config.zoneSize config.chunkSz pair.chunkOffset pair.zone %
      directAlignment = 0)
    (fits : chunkPointer config.zoneSize config.chunkSz pair.chunkOffset pair.zone +
      config.chunkSz < 2 ^ 64) :
    znReadFromDisk config ioSize device pair = some (some (pread device config.chunkSz
      (chunkPointer config.zoneSize config.chunkSz pair.chunkOffset pair.zone))) := by
  have whole := @readLoop_reads device ioSize _ config.chunkSz positive fits config.chunkSz 0
    (Nat.zero_le _) (Nat.le_add_left _ _)
  have nothing : ∀ offset, pread device 0 offset = [] := fun _ => rfl
  rw [nothing] at whole
  simp only [znReadFromDisk, chunkAligned, ioAligned, aligned, ne_eq, not_true, or_self, if_false,
    whole, Option.map_some]

end Transfers

end ZNCache
