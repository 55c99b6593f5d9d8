import ZNCache.SlotMoves

/-!
# The identifiers in the slots

A slot takes its identifier from the location that was handed out for the chunk.  The
pair built by `zsm_get_active_zone` names no identifier, so every slot carries 0 while
the table of the zone and the disk carry the identifier of the call.
-/

set_option autoImplicit false

namespace ZNCache

open Tally Transition ZnPolicyChunk Duties

/-- The slot of a chunk in use carries the identifier that the table of its zone lists, which
is the one at the start of the chunk on disk. -/
def RecordsIds (config : CacheConfig) (system : ChunkSystem Unit) : Prop :=
  ∀ zone < config.nrZones, ∀ chunk < config.maxZoneChunks,
    (system.cache.evictionPolicy.slot (zone, chunk)).inUse = true →
      ∃ id, (system.cache.cacheMap.dataMap zone).lookup chunk = some id ∧
        system.cache.disk zone chunk = some id ∧
        (system.cache.evictionPolicy.slot (zone, chunk)).id = id

/-- One thread calls `zn_cache_get`, nothing fails and the GC moves no chunk. -/
def GetsUnmigrated (system : ChunkSystem Unit) (action : Unit × Choice) : Prop :=
  SmoothGets system action ∧ GcMigratesNothing system action

/-! ## A call and its return -/

section Call

variable {config : CacheConfig} {cache after : ChunkCache Unit} {leaked : Multiset ZnPair}
  {others : Multiset Nat}

/-- A call stays what it is until it returns, with its identifier listed. -/
def CallGoesOn (after : ChunkCache Unit) (pc next : ThreadPc ChunkEvictPc) : Prop :=
  next.undoes = false ∧ ∀ id, pc.calling = some id → next.calling = some id ∨
    next = .idle ∧ ∃ zone chunk, (after.cacheMap.dataMap zone).lookup chunk = some id

theorem GetStep.callGoesOn {pc : GetPc} {next : ThreadPc ChunkEvictPc}
    (taken : GetStep (chunkCode config) () cache .smooth pc after next)
    (zones : ZonesSound cache.zoneState (pc.holds + leaked))
    (agrees : CacheMapAgrees cache.cacheMap (pc.writes + others))
    (transfers : ∀ id location, pc = .write id location →
      next = .get (.countMiss id location))
    (goesOn : (ThreadPc.get pc).undoes = false) (hits : HitListed cache (.get pc)) :
    CallGoesOn after (.get pc) next := by
  cases taken with
  | find id =>
      cases (znCachemapFind () cache.cacheMap id).1 <;> exact ⟨rfl, fun _ same => .inl same⟩
  | acquire id =>
      rw [GetPc.holds, zero_add] at zones
      have noError := zones.handed_unnamed.1
      rw [show Environment.smooth.commandRet = 0 from rfl]
      cases answer : (zsmGetActiveZone 0 cache.zoneState).ret with
      | success | retry | evict => exact ⟨rfl, fun _ same => .inl same⟩
      | error => exact absurd answer noError
  | writeFailed id location => cases transfers id location rfl
  | countHit id data =>
      refine ⟨rfl, fun other same => .inr ⟨rfl, ?_⟩⟩
      cases same
      exact hits id rfl
  | insert id location answer inserted =>
      rw [GetPc.writes, Multiset.singleton_add] at agrees
      cases Option.some.inj (inserted.symm.trans (agrees.insert location))
      refine ⟨rfl, fun other same => .inr ⟨rfl, location.zone, location.chunkOffset, ?_⟩⟩
      cases same
      exact (CacheMap.located_lookup _ _ _ _ _).trans (if_pos ⟨rfl, rfl⟩)
  | undoZone | undoMap => cases goesOn
  | woken | read | touch | release | write | countMiss | giveBack | record =>
      exact ⟨rfl, fun _ same => .inl same⟩

theorem ThreadStep.callGoesOn {choice : Choice} {pc next : ThreadPc ChunkEvictPc}
    {system : ChunkSystem Unit}
    (taken : ThreadStep (chunkCode config) () cache pc choice after next)
    (smooth : SmoothGets system ((), choice))
    (zones : ZonesSound cache.zoneState (pc.holds + leaked))
    (agrees : CacheMapAgrees cache.cacheMap (pc.writes + others))
    (transfers : ∀ id location, pc = .get (.write id location) →
      next = .get (.countMiss id location))
    (goesOn : pc.undoes = false) (hits : HitListed cache pc) : CallGoesOn after pc next := by
  cases taken with
  | callEvict | wakeUp => exact smooth.elim
  | call id => exact ⟨rfl, fun _ same => by cases same⟩
  | @get start environment _ _ ran =>
      obtain rfl : environment = .smooth := smooth
      exact ran.callGoesOn zones agrees (fun id location same =>
        transfers id location (by rw [same])) goesOn hits
  | evict caller => exact ⟨rfl, fun _ same => .inl same⟩
  | evicted caller =>
      cases caller with
      | none => exact ⟨rfl, fun _ same => by cases same⟩
      | some id => exact ⟨rfl, fun _ same => .inl same⟩

theorem ThreadStep.calling {choice : Choice} {pc next : ThreadPc ChunkEvictPc}
    (taken : ThreadStep (chunkCode config) () cache pc choice after next) {id : Nat}
    (calls : next.calling = some id) : pc.calling = some id ∨ choice = .get id := by
  cases taken with
  | call other =>
      cases calls
      exact .inr rfl
  | callEvict => cases calls
  | wakeUp other => exact .inl calls
  | get ran =>
      cases ran with
      | find other =>
          cases found : (znCachemapFind () cache.cacheMap other).1 <;>
            exact .inl (by rwa [found] at calls)
      | acquire other =>
          generalize (zsmGetActiveZone _ cache.zoneState).ret = ret at calls
          cases ret <;> exact .inl calls
      | countHit | insert | undoMap => cases calls
      | woken | read | touch | release | write | writeFailed => exact .inl calls
      | countMiss | giveBack | record | undoZone => exact .inl calls
  | evict caller => exact .inl calls
  | evicted caller =>
      cases caller with
      | none => cases calls
      | some other => exact .inl calls

end Call

/-! ## Runs -/

section Run

variable {config : CacheConfig} {system next first last : ChunkSystem Unit}

structure IdsSound (config : CacheConfig) (system : ChunkSystem Unit) : Prop where
  solo : SoloSound config system
  evict : EvictSound (2 ^ 32) config.maxZoneChunks system
  unset : IdsUnset config system.cache (system.threads ())
  slots : SlotsListed system.cache (system.threads ())
  disk : IdsOnDisk system.cache (system.threads ())
  hits : HitListed system.cache (system.threads ())
  goesOn : (system.threads ()).undoes = false

theorem IdsSound.init (positive : 0 < config.nrZones * config.maxZoneChunks)
    (begins : chunkSystem config = some system) : IdsSound config system := by
  obtain ⟨_, _, emptyMap, policy, idle⟩ := System.init_spec begins
  have unlisted : ∀ zone chunk id,
      (system.cache.cacheMap.dataMap zone).lookup chunk ≠ some id := by
    intro zone chunk id
    rw [emptyMap]
    simp [znCachemapInit]
  have unused : ∀ place, system.cache.evictionPolicy.slot place = ⟨0, 0, 0, false⟩ := by
    intro place
    rw [policy]
    rfl
  refine ⟨SoloSound.init positive begins, EvictSound.init begins, ?_, ?_, ?_, ?_, ?_⟩
  · rw [idle]
    refine ⟨fun place => ?_, fun chunk carries => ?_, fun zone chunk inUse => ?_⟩
    · rw [unused]
    · cases carries
    · rw [unused] at inUse
      cases inUse
  · rw [idle]
    refine .of_quiet (fun zone chunk inUse => ?_) (fun zone chunk id there => ?_) ⟨rfl, rfl⟩
    · rw [unused] at inUse
      cases inUse
    · exact absurd there (unlisted zone chunk id)
  · rw [idle]
    exact ⟨fun zone chunk id there => absurd there (unlisted zone chunk id),
      fun chunk writes => by cases writes⟩
  · rw [idle]
    exact fun id hits => by cases hits
  · rw [idle]
    rfl

theorem System.step_write {id : Nat} {location : ZnPair} {choice : Choice}
    (taken : system.step (chunkCode config) ((), choice) = some next)
    (smooth : SmoothGets system ((), choice))
    (here : system.threads () = .get (.write id location)) :
    next.threads () = .get (.countMiss id location) := by
  cases choice with
  | get | evict => simp [System.step, here] at taken
  | wakeUp => exact smooth.elim
  | run environment =>
      obtain rfl : environment = .smooth := smooth
      simp only [System.step, here, getStep, Environment.smooth, if_true, Option.map_some,
        Option.some.injEq] at taken
      rw [← taken]
      simp [System.advance]

/-- What one step keeps, and how far it takes the call. -/
theorem IdsSound.step (fits : config.maxZoneChunks < 2 ^ 32)
    (positive : 0 < config.nrZones * config.maxZoneChunks) (sound : IdsSound config system)
    {action : Unit × Choice} (allowed : GetsUnmigrated system action)
    (taken : system.step (chunkCode config) action = some next) :
    IdsSound config next ∧ IdMove config system.cache (system.threads ()) next.cache
      (next.threads ()) ∧ CallGoesOn next.cache (system.threads ()) (next.threads ()) := by
  have inZone := Nat.pos_of_mul_pos_left positive
  obtain ⟨smooth, unmigrated⟩ := allowed
  have solo := sound.solo.step fits inZone smooth taken
  have evict := sound.evict.step fits (Nat.le_refl _) (System.getsBelow_of_step taken)
    (gcSettled_solo action) unmigrated (clearsInserted_solo action) taken
  obtain ⟨⟨⟩, choice⟩ := action
  have transfers : ∀ id location, system.threads () = .get (.write id location) →
      next.threads () = .get (.countMiss id location) :=
    fun _ _ => System.step_write taken smooth
  obtain ⟨leaked, zones, _⟩ := sound.solo.leak
  obtain ⟨cache, pc, rfl, moved⟩ := System.step_spec taken
  have there : (system.advance () cache pc).threads () = pc := by simp [System.advance]
  rw [there] at transfers ⊢
  have move := moved.idMove smooth zones.zones zones.numZones (sound.solo.custody.split ())
    (sound.evict.map.split ()) (sound.solo.custody.seeks ()) transfers inZone
    (sound.evict.knows ())
  have call := moved.callGoesOn smooth zones.zones (sound.evict.map.split ()) transfers
    sound.goesOn sound.hits
  refine ⟨⟨solo, evict, ?_, ?_, ?_, ?_, ?_⟩, move, call⟩
  · rw [there]
    exact sound.unset.move move
  · rw [there]
    exact sound.slots.move sound.unset move
  · rw [there]
    exact sound.disk.move move
  · rw [there]
    exact sound.hits.move move
  · rw [there]
    exact call.1

variable {actions : List (Unit × Choice)}

theorem IdsSound.of_runActions (fits : config.maxZoneChunks < 2 ^ 32)
    (positive : 0 < config.nrZones * config.maxZoneChunks) (sound : IdsSound config first)
    (allowed : AllowedAlong (System.step (chunkCode config)) GetsUnmigrated first actions)
    (ran : runActions (System.step (chunkCode config)) first actions = some last) :
    IdsSound config last :=
  allowed.invariant (fun _ _ _ sound allowed taken => (sound.step fits positive allowed taken).1)
    sound ran

theorem IdsSound.returns_listed (fits : config.maxZoneChunks < 2 ^ 32)
    (positive : 0 < config.nrZones * config.maxZoneChunks) {id : Nat}
    (sound : IdsSound config first) (calls : (first.threads ()).calling = some id)
    (allowed : AllowedAlong (System.step (chunkCode config)) GetsUnmigrated first actions)
    (ran : runActions (System.step (chunkCode config)) first actions = some last)
    (returned : last.threads () = .idle) :
    ∃ part middle, part <+: actions ∧
      runActions (System.step (chunkCode config)) first part = some middle ∧
      middle.threads () = .idle ∧ IdsSound config middle ∧
      ∃ zone chunk, (middle.cache.cacheMap.dataMap zone).lookup chunk = some id := by
  induction actions generalizing first with
  | nil =>
      cases Option.some.inj ran
      rw [returned] at calls
      cases calls
  | cons action rest ih =>
      obtain ⟨next, taken, ran⟩ := runActions_inv ran
      obtain ⟨soundNext, _, _, goesOn⟩ := sound.step fits positive allowed.1 taken
      rcases goesOn id calls with still | ⟨idle, listed⟩
      · obtain ⟨part, middle, isPart, run, found⟩ :=
          ih soundNext still (allowed.2 next taken) ran
        exact ⟨action :: part, middle, List.cons_prefix_cons.mpr ⟨rfl, isPart⟩,
          runActions_cons taken run, found⟩
      · exact ⟨[action], next, List.cons_prefix_cons.mpr ⟨rfl, List.nil_prefix⟩,
          runActions_cons taken rfl, idle, soundNext, listed⟩

/-- Whenever no call is under way in a part of the run, the slots record the identifiers. -/
def RecordsAlong (config : CacheConfig) (first : ChunkSystem Unit)
    (actions : List (Unit × Choice)) : Prop :=
  ∀ before, before <+: actions → ∀ system,
    runActions (System.step (chunkCode config)) first before = some system →
      system.threads () = .idle → RecordsIds config system

/-- Between calls, the slots record the identifiers if all that are listed are 0. -/
theorem IdsSound.records (sound : IdsSound config system) (idle : system.threads () = .idle)
    (zero : ∀ zone chunk id, (system.cache.cacheMap.dataMap zone).lookup chunk = some id →
      id = 0) : RecordsIds config system := by
  intro zone _ chunk _ inUse
  obtain ⟨id, listed⟩ := sound.slots.listed_of_quiet (by rw [idle]; rfl) inUse
  refine ⟨id, listed, sound.disk.onDisk zone chunk id listed, ?_⟩
  rw [sound.unset.zeroIds, zero zone chunk id listed]

theorem IdsSound.zero_of_records (sound : IdsSound config system)
    (idle : system.threads () = .idle) (records : RecordsIds config system) {zone chunk id : Nat}
    (listed : (system.cache.cacheMap.dataMap zone).lookup chunk = some id) : id = 0 := by
  have inUse := sound.slots.used_of_quiet (by rw [idle]; rfl) listed
  obtain ⟨inZones, inZone⟩ := sound.unset.inPool zone chunk inUse
  obtain ⟨other, there, _, same⟩ := records zone inZones chunk inZone inUse
  cases Option.some.inj (listed.symm.trans there)
  rw [← same, sound.unset.zeroIds]

theorem IdsSound.listed_among (fits : config.maxZoneChunks < 2 ^ 32)
    (positive : 0 < config.nrZones * config.maxZoneChunks) {among : Nat → Prop}
    (sound : IdsSound config first)
    (calling : ∀ id, (first.threads ()).calling = some id → among id)
    (listed : ∀ zone chunk id, (first.cache.cacheMap.dataMap zone).lookup chunk = some id →
      among id)
    (called : ∀ id, ((), .get id) ∈ actions → among id)
    (allowed : AllowedAlong (System.step (chunkCode config)) GetsUnmigrated first actions)
    (ran : runActions (System.step (chunkCode config)) first actions = some last) :
    ∀ zone chunk id, (last.cache.cacheMap.dataMap zone).lookup chunk = some id → among id := by
  induction actions generalizing first with
  | nil =>
      cases Option.some.inj ran
      exact listed
  | cons action rest ih =>
      obtain ⟨next, taken, ran⟩ := runActions_inv ran
      obtain ⟨soundNext, move, _⟩ := sound.step fits positive allowed.1 taken
      refine ih soundNext (fun id calls => ?_) (fun zone chunk id there => ?_)
        (fun id member => called id (List.mem_cons_of_mem _ member)) (allowed.2 next taken) ran
      · obtain ⟨⟨⟩, choice⟩ := action
        obtain ⟨cache, pc, rfl, moved⟩ := System.step_spec taken
        rw [show (first.advance () cache pc).threads () = pc by simp [System.advance]] at calls
        rcases moved.calling calls with before | same
        · exact calling id before
        · exact called id (same ▸ List.mem_cons_self)
      · rcases move.listed there with before | ⟨location, here, _⟩
        · exact listed zone chunk id before
        · exact calling id (by rw [here]; rfl)

/-- In every sequence of calls before the GC moves a chunk, the slots record the identifiers
whenever a call has returned exactly if every call is for identifier 0, which is what the
pairs that are handed out name, or if there is no slot at all. -/
theorem records_iff (fits : config.maxZoneChunks < 2 ^ 32)
    (begins : chunkSystem config = some first)
    (allowed : AllowedAlong (System.step (chunkCode config)) GetsUnmigrated first actions)
    (ran : runActions (System.step (chunkCode config)) first actions = some last)
    (returned : last.threads () = .idle) :
    RecordsAlong config first actions ↔
      config.nrZones * config.maxZoneChunks = 0 ∨ ∀ id, ((), .get id) ∈ actions → id = 0 := by
  obtain ⟨_, _, emptyMap, _, idle⟩ := System.init_spec begins
  constructor
  · intro records
    rcases Nat.eq_zero_or_pos (config.nrZones * config.maxZoneChunks) with none | positive
    · exact .inl none
    right
    intro id member
    have sound := IdsSound.init positive begins
    obtain ⟨before, rest, rfl⟩ := List.append_of_mem member
    obtain ⟨middle, start, ranOn⟩ := runActions_split ran
    have soundThere := sound.of_runActions fits positive
      (allowed.of_prefix (List.prefix_append before _)) start
    have allowedThere := allowed.of_suffix start
    obtain ⟨called, taken, ranOn⟩ := runActions_inv ranOn
    have soundCalled := (soundThere.step fits positive allowedThere.1 taken).1
    have calls : (called.threads ()).calling = some id := by
      obtain ⟨cache, pc, rfl, moved⟩ := System.step_spec taken
      rw [show (middle.advance () cache pc).threads () = pc by simp [System.advance]]
      generalize middle.threads () = here at moved
      cases moved with
      | call => rfl
    obtain ⟨part, there, isPart, run, idleThere, soundAfter, zone, chunk, listed⟩ :=
      soundCalled.returns_listed fits positive calls (allowedThere.2 called taken) ranOn
        returned
    refine soundAfter.zero_of_records idleThere ?_ listed
    refine records (before ++ ((), .get id) :: part) ?_ there
      (runActions_append start (runActions_cons taken run)) idleThere
    exact (List.prefix_append_right_inj before).mpr
      (List.cons_prefix_cons.mpr ⟨rfl, isPart⟩)
  · intro either before part system run idleThere
    rcases either with none | zero
    · intro zone inZones chunk inZone
      have positive := Nat.mul_pos (Nat.zero_lt_of_lt inZones) (Nat.zero_lt_of_lt inZone)
      exact absurd none (Nat.ne_of_gt positive)
    · intro zone inZones chunk inZone
      have positive := Nat.mul_pos (Nat.zero_lt_of_lt inZones) (Nat.zero_lt_of_lt inZone)
      have sound := IdsSound.init positive begins
      have allowedPart := allowed.of_prefix part
      have listed := sound.listed_among fits positive
        (fun id calls => by rw [idle] at calls; cases calls)
        (fun zone chunk id there => by rw [emptyMap] at there; simp [znCachemapInit] at there)
        (fun id member => zero id (part.subset member)) allowedPart run
      exact (sound.of_runActions fits positive allowedPart run).records idleThere listed zone
        inZones chunk inZone

end Run

/-! ## One call -/

deriving instance DecidableEq for Environment

def Choice.smooth : Choice → Bool
  | .get _ => true
  | .run environment => decide (environment = .smooth)
  | .evict | .wakeUp => false

instance (system : ChunkSystem Unit) (action : Unit × Choice) :
    Decidable (SmoothGets system action) :=
  decidable_of_iff (action.2.smooth = true) (by
    obtain ⟨⟨⟩, choice⟩ := action
    cases choice <;> simp [Choice.smooth, SmoothGets])

def ThreadPc.scans : ThreadPc ChunkEvictPc → Option Slot
  | evict _ (.gcScan zone chunk) => some (zone, chunk)
  | _ => none

theorem ThreadPc.scans_eq_some {pc : ThreadPc ChunkEvictPc} {place : Slot} :
    pc.scans = some place ↔ ∃ caller, pc = .evict caller (.gcScan place.1 place.2) := by
  constructor
  · intro here
    unfold ThreadPc.scans at here
    split at here
    next caller zone chunk =>
        cases here
        exact ⟨caller, rfl⟩
    next => cases here
  · intro given
    obtain ⟨caller, rfl⟩ := given
    rfl

instance (system : ChunkSystem Unit) (action : Unit × Choice) :
    Decidable (GcMigratesNothing system action) :=
  decidable_of_iff (∀ place ∈ (system.threads action.1).scans,
      place.2 < system.cache.evictionPolicy.maxZoneChunks →
        (system.cache.evictionPolicy.slot place).inUse = false)
    ⟨fun unused caller zone chunk here =>
        unused (zone, chunk) (ThreadPc.scans_eq_some.mpr ⟨caller, here⟩),
      fun migrates place here => by
        obtain ⟨caller, scans⟩ := ThreadPc.scans_eq_some.mp here
        exact migrates caller place.1 place.2 scans⟩

instance (system : ChunkSystem Unit) (action : Unit × Choice) :
    Decidable (GetsUnmigrated system action) :=
  inferInstanceAs (Decidable (_ ∧ _))

def missOnce (id : Nat) : List (Unit × Choice) :=
  ((), .get id) :: List.replicate 7 ((), .run .smooth)

theorem records_missZero :
    ∃ first, chunkSystem oneChunkConfig = some first ∧
      RecordsAlong oneChunkConfig first (missOnce 0) := by
  cases begins : (chunkSystem oneChunkConfig : Option (ChunkSystem Unit)) with
  | none => cases begins
  | some first =>
      refine ⟨first, rfl, ?_⟩
      cases ran : runActions (System.step (chunkCode oneChunkConfig)) first (missOnce 0) with
      | none =>
          cases Option.some.inj begins
          cases ran
      | some last =>
          refine (records_iff (by decide) begins ?_ ran ?_).mpr (.inr (by simp [missOnce]))
          · cases Option.some.inj begins
            decide +kernel
          · cases Option.some.inj begins
            cases Option.some.inj ran
            rfl

/-- The slot of the chunk carries 0, the table and the disk carry 7. -/
theorem records_not_missSeven :
    ∃ first last, chunkSystem oneChunkConfig = some first ∧
      AllowedAlong (System.step (chunkCode oneChunkConfig)) GetsUnmigrated first (missOnce 7) ∧
      runActions (System.step (chunkCode oneChunkConfig)) first (missOnce 7) = some last ∧
      last.threads () = .idle ∧ last.cache.evictionPolicy.slot (0, 0) = ⟨0, 0, 0, true⟩ ∧
      (last.cache.cacheMap.dataMap 0).lookup 0 = some 7 ∧ last.cache.disk 0 0 = some 7 ∧
      ¬ RecordsIds oneChunkConfig last := by
  cases begins : (chunkSystem oneChunkConfig : Option (ChunkSystem Unit)) with
  | none => cases begins
  | some first =>
      cases ran : runActions (System.step (chunkCode oneChunkConfig)) first (missOnce 7) with
      | none =>
          cases Option.some.inj begins
          cases ran
      | some last =>
          have slot : last.cache.evictionPolicy.slot (0, 0) = ⟨0, 0, 0, true⟩ := by
            cases Option.some.inj begins
            cases Option.some.inj ran
            rfl
          have listed : (last.cache.cacheMap.dataMap 0).lookup 0 = some 7 := by
            cases Option.some.inj begins
            cases Option.some.inj ran
            rfl
          refine ⟨first, last, rfl, ?_, ran, ?_, slot, listed, ?_, fun records => ?_⟩
          · cases Option.some.inj begins
            decide +kernel
          · cases Option.some.inj begins
            cases Option.some.inj ran
            rfl
          · cases Option.some.inj begins
            cases Option.some.inj ran
            rfl
          · obtain ⟨id, there, _, same⟩ := records 0 (by decide) 0 (by decide) (by rw [slot])
            cases Option.some.inj (listed.symm.trans there)
            rw [slot] at same
            cases same

end ZNCache
