import ZNCache.Lib.Transition
import ZNCache.Occupancy

/-!
# Runs of the zone state manager

A `Handout` is a manager together with the pairs that callers hold.  A call is
enabled when its caller may make it: a pair is given back by who holds it, and
only a full zone is evicted.
-/

set_option autoImplicit false

namespace ZNCache

open ZoneStateManager Transition

/-- A call, with the code its libzbd command returns if it issues one. -/
inductive ZsmCall
  | getActiveZone (openRet : Int)
  | returnActiveZone (finishRet : Int) (pair : ZnPair)
  | failedToWrite (pair : ZnPair)
  | evict (resetRet : Int) (zone : Nat)
  | markChunkInvalid (location : ZnPair)

def ZsmCall.commandRet : ZsmCall → Int
  | getActiveZone openRet => openRet
  | returnActiveZone finishRet _ => finishRet
  | failedToWrite _ => 0
  | evict resetRet _ => resetRet
  | markChunkInvalid _ => 0

structure Handout where
  manager : ZoneStateManager
  outstanding : Multiset ZnPair

namespace Handout

def init (numZones zoneCap zoneSize chunkSize maxNrActiveZones : Nat)
    (backendType : ZnBackend) : Handout where
  manager := zsmInit numZones zoneCap zoneSize chunkSize maxNrActiveZones backendType
  outstanding := 0

/-- The state after an enabled call and whether the assertions it met held. -/
def call (handout : Handout) : ZsmCall → Option (Handout × Bool)
  | .getActiveZone openRet =>
      let answer := zsmGetActiveZone openRet handout.manager
      match answer.ret with
      | .success pair => some (⟨answer.state, pair ::ₘ handout.outstanding⟩, answer.asserts)
      | _ => some (⟨answer.state, handout.outstanding⟩, answer.asserts)
  | .returnActiveZone finishRet pair =>
      if pair ∈ handout.outstanding then
        let answer := zsmReturnActiveZone finishRet handout.manager pair
        some (⟨answer.state, handout.outstanding.erase pair⟩, answer.asserts)
      else none
  | .failedToWrite pair =>
      if pair ∈ handout.outstanding then
        let answer := zsmFailedToWrite handout.manager pair
        some (⟨answer.state, handout.outstanding.erase pair⟩, answer.asserts)
      else none
  | .evict resetRet zone =>
      if zone < handout.manager.numZones ∧ (handout.manager.state zone).state = .full then
        let answer := zsmEvict resetRet handout.manager zone
        some (⟨answer.state, handout.outstanding⟩, answer.asserts)
      else none
  | .markChunkInvalid location =>
      if location.zone < handout.manager.numZones then
        some (⟨zsmMarkChunkInvalid handout.manager location, handout.outstanding⟩, true)
      else none

def step (handout : Handout) (call : ZsmCall) : Option Handout :=
  (handout.call call).map Prod.fst

inductive StepSpec (handout : Handout) : ZsmCall → Handout → Prop
  | refused (openRet : Int)
      (nothing : (zsmGetActiveZone openRet handout.manager).ret.hands = 0) :
      StepSpec handout (.getActiveZone openRet) handout
  | dropped (openRet : Int) (zone : Nat) (rest : List Nat)
      (nothing : (zsmGetActiveZone openRet handout.manager).ret.hands = 0)
      (head : handout.manager.free = zone :: rest) :
      StepSpec handout (.getActiveZone openRet)
        ⟨{ handout.manager with free := rest }, handout.outstanding⟩
  | resumed (openRet : Int) (zone : Nat) (active : List Nat)
      (handed : (zsmGetActiveZone openRet handout.manager).ret = .success
        ⟨(handout.manager.state zone).zoneId, (handout.manager.state zone).chunkOffset, 0, false⟩)
      (head : handout.manager.active = zone :: active) :
      StepSpec handout (.getActiveZone openRet)
        ⟨handedOut handout.manager zone (handout.manager.state zone).chunkOffset active
            handout.manager.free,
          ⟨(handout.manager.state zone).zoneId, (handout.manager.state zone).chunkOffset, 0,
            false⟩ ::ₘ handout.outstanding⟩
  | opened (openRet : Int) (zone : Nat) (rest : List Nat)
      (handed : (zsmGetActiveZone openRet handout.manager).ret =
        .success ⟨(handout.manager.state zone).zoneId, 0, 0, false⟩)
      (noActive : handout.manager.active = []) (head : handout.manager.free = zone :: rest) :
      StepSpec handout (.getActiveZone openRet)
        ⟨handedOut handout.manager zone 0 [] rest,
          ⟨(handout.manager.state zone).zoneId, 0, 0, false⟩ ::ₘ handout.outstanding⟩
  | returned (finishRet : Int) (pair : ZnPair) (ret : Int) (manager : ZoneStateManager)
      (member : pair ∈ handout.outstanding)
      (spec : ReturnSpec finishRet handout.manager pair.zone ret manager) :
      StepSpec handout (.returnActiveZone finishRet pair)
        ⟨manager, handout.outstanding.erase pair⟩
  | failedToWrite (pair : ZnPair) (member : pair ∈ handout.outstanding) :
      StepSpec handout (.failedToWrite pair)
        ⟨(zsmFailedToWrite handout.manager pair).state, handout.outstanding.erase pair⟩
  | evicted (resetRet : Int) (zone : Nat) (manager : ZoneStateManager)
      (inRange : zone < handout.manager.numZones)
      (full : (handout.manager.state zone).state = .full)
      (spec : EvictSpec resetRet handout.manager zone manager) :
      StepSpec handout (.evict resetRet zone) ⟨manager, handout.outstanding⟩
  | marked (location : ZnPair) (inRange : location.zone < handout.manager.numZones) :
      StepSpec handout (.markChunkInvalid location)
        ⟨zsmMarkChunkInvalid handout.manager location, handout.outstanding⟩

theorem step_spec {handout after : Handout} {call : ZsmCall}
    (taken : handout.step call = some after) : StepSpec handout call after := by
  obtain ⟨⟨next, asserts⟩, enabled, rfl⟩ := Option.map_eq_some_iff.mp taken
  cases call with
  | getActiveZone openRet =>
      have answer := zsmGetActiveZone_answer openRet handout.manager
      simp only [Handout.call] at enabled
      generalize called : zsmGetActiveZone openRet handout.manager = outcome at answer enabled
      obtain ⟨ret, state, held⟩ := outcome
      have answered := congrArg Outcome.ret called
      cases answer with
      | refused ret nothing =>
          cases ret with
          | success pair => simp [GetActiveZone.hands] at nothing
          | retry | error | evict =>
              cases Option.some.inj enabled
              exact .refused openRet (answered ▸ nothing)
      | dropped ret nothing zone rest head =>
          cases ret with
          | success pair => simp [GetActiveZone.hands] at nothing
          | retry | error | evict =>
              cases Option.some.inj enabled
              exact .dropped openRet zone rest (answered ▸ nothing) head
      | resumed zone active head =>
          cases Option.some.inj enabled
          exact .resumed openRet zone active answered head
      | opened zone rest noActive head =>
          cases Option.some.inj enabled
          exact .opened openRet zone rest answered noActive head
  | returnActiveZone finishRet pair =>
      simp only [Handout.call] at enabled
      split at enabled
      next member =>
          cases Option.some.inj enabled
          exact .returned finishRet pair _ _ member (zsmReturnActiveZone_spec _ _ _)
      next => cases enabled
  | failedToWrite pair =>
      simp only [Handout.call] at enabled
      split at enabled
      next member =>
          cases Option.some.inj enabled
          exact .failedToWrite pair member
      next => cases enabled
  | evict resetRet zone =>
      simp only [Handout.call] at enabled
      split at enabled
      next permitted =>
          cases Option.some.inj enabled
          exact .evicted resetRet zone _ permitted.1 permitted.2 (zsmEvict_spec _ _ _)
      next => cases enabled
  | markChunkInvalid location =>
      simp only [Handout.call] at enabled
      split at enabled
      next inRange =>
          cases Option.some.inj enabled
          exact .marked location inRange
      next => cases enabled

structure Sound (handout : Handout) : Prop where
  zones : ZonesSound handout.manager handout.outstanding
  chunks : 0 < handout.manager.maxZoneChunks

theorem Sound.init {numZones zoneCap zoneSize chunkSize maxNrActiveZones : Nat}
    {backendType : ZnBackend} (small : numZones < 2 ^ 31) (someChunk : 1 ≤ chunkSize)
    (fits : chunkSize ≤ zoneCap) :
    Sound (init numZones zoneCap zoneSize chunkSize maxNrActiveZones backendType) where
  zones := ZonesSound.init small _ _ _ _ _
  chunks := Nat.div_pos fits someChunk

section Step

variable {handout : Handout}

theorem Sound.getActiveZone (sound : Sound handout) {after : Handout} {held : Bool}
    (enabled : handout.call (.getActiveZone 0) = some (after, held)) :
    Sound after ∧ held = true := by
  obtain ⟨zones, kept, _, asserts⟩ := sound.zones.getActiveZone
  have chunks : 0 < (zsmGetActiveZone 0 handout.manager).state.maxZoneChunks := by
    rw [kept.shape.maxZoneChunks]
    exact sound.chunks
  simp only [call] at enabled
  cases answer : (zsmGetActiveZone 0 handout.manager).ret with
  | success pair =>
      rw [answer] at enabled zones
      cases Option.some.inj enabled
      exact ⟨⟨zones, chunks⟩, asserts⟩
  | retry | error | evict =>
      rw [answer, GetActiveZone.hands, zero_add] at zones
      rw [answer] at enabled
      cases Option.some.inj enabled
      exact ⟨⟨zones, chunks⟩, asserts⟩

theorem Sound.returnActiveZone (sound : Sound handout) {pair : ZnPair} {after : Handout}
    {held : Bool}
    (enabled : handout.call (.returnActiveZone 0 pair) = some (after, held)) :
    Sound after ∧ held = true := by
  simp only [call] at enabled
  split at enabled
  next member =>
      cases Option.some.inj enabled
      obtain ⟨writing, sameOffset, within⟩ := sound.zones.outstanding member
      have zones := sound.zones
      rw [← Multiset.cons_erase member] at zones
      obtain ⟨zones, shape, _⟩ := zones.returnActiveZone
      refine ⟨⟨zones, ?_⟩, ?_⟩
      · rw [shape.maxZoneChunks]
        exact sound.chunks
      · simp [zsmReturnActiveZone, apply_ite Outcome.asserts, writing, sameOffset, within]
  next => simp at enabled

theorem Sound.failedToWrite (sound : Sound handout) {pair : ZnPair} {after : Handout}
    {held : Bool} (enabled : handout.call (.failedToWrite pair) = some (after, held)) :
    Sound after ∧ held = true := by
  simp only [call] at enabled
  split at enabled
  next member =>
      cases Option.some.inj enabled
      obtain ⟨writing, sameOffset, within⟩ := sound.zones.outstanding member
      have zones := sound.zones
      rw [← Multiset.cons_erase member] at zones
      have room := sound.zones.entries.offsetRoom pair.zone (.inr writing) sound.chunks
      refine ⟨⟨zones.failedToWrite.1, sound.chunks⟩, ?_⟩
      simpa [zsmFailedToWrite, writing, sameOffset, within] using sameOffset ▸ room
  next => simp at enabled

theorem Sound.evict (sound : Sound handout) {zone : Nat} {after : Handout} {held : Bool}
    (enabled : handout.call (.evict 0 zone) = some (after, held)) :
    Sound after ∧ held = true := by
  simp only [call] at enabled
  split at enabled
  next permitted =>
      cases Option.some.inj enabled
      obtain ⟨zones, freed⟩ := sound.zones.evict permitted
      refine ⟨⟨zones, ?_⟩,
        zsmEvict_asserts_of_full permitted.2 (backendRet_zero handout.manager)⟩
      rw [freed]
      exact sound.chunks
  next => simp at enabled

theorem Sound.markChunkInvalid (sound : Sound handout) {location : ZnPair} {after : Handout}
    {held : Bool} (enabled : handout.call (.markChunkInvalid location) = some (after, held)) :
    Sound after ∧ held = true := by
  simp only [call] at enabled
  split at enabled
  next =>
      cases Option.some.inj enabled
      obtain ⟨partition, entries, small⟩ := sound.zones
      exact ⟨⟨⟨partition.setInvalid _ _, entries.setZone _ _ (entries.zoneId _)
        (entries.offsetSmall _) (entries.offsetRoom _), small⟩, sound.chunks⟩, rfl⟩
  next => simp at enabled

theorem Sound.call (sound : Sound handout) {call : ZsmCall} {after : Handout} {held : Bool}
    (success : call.commandRet = 0) (enabled : handout.call call = some (after, held)) :
    Sound after ∧ held = true := by
  cases call with
  | getActiveZone openRet => cases success; exact sound.getActiveZone enabled
  | returnActiveZone finishRet pair => cases success; exact sound.returnActiveZone enabled
  | failedToWrite pair => exact sound.failedToWrite enabled
  | evict resetRet zone => cases success; exact sound.evict enabled
  | markChunkInvalid location => exact sound.markChunkInvalid enabled

end Step

abbrev Run (initial handout : Handout) : Prop :=
  Reach step (fun _ call => call.commandRet = 0) (· = initial) handout

theorem Run.sound {initial handout : Handout} (start : Sound initial)
    (run : Run initial handout) : Sound handout := by
  refine run.invariant ?_ ?_
  · intro _ same
    subst same
    exact start
  · intro state call next sound success taken
    obtain ⟨⟨after, held⟩, enabled, rfl⟩ := Option.map_eq_some_iff.mp taken
    exact (sound.call success enabled).1

/-- The zone partition holds after any sequence of calls, the active zones stay
within the device limit, and no assertion of the next call fires. -/
theorem zone_partition {numZones zoneCap zoneSize chunkSize maxNrActiveZones : Nat}
    {backendType : ZnBackend} (small : numZones < 2 ^ 31) (someChunk : 1 ≤ chunkSize)
    (fits : chunkSize ≤ zoneCap) {handout : Handout}
    (run : Run (init numZones zoneCap zoneSize chunkSize maxNrActiveZones backendType)
      handout) :
    ZonePartition handout.manager handout.outstanding ∧
      handout.manager.writesOccurring = ((Finset.range handout.manager.numZones).filter
        fun zone => (handout.manager.state zone).state = .writeOccuring).card ∧
      ∀ call after held, call.commandRet = 0 → handout.call call = some (after, held) →
        held = true := by
  have sound := run.sound (Sound.init small someChunk fits)
  refine ⟨sound.zones.partition, sound.zones.partition.writes_eq_count, ?_⟩
  intro call after held success enabled
  exact (sound.call success enabled).2

/-- Of two zones, one is handed out and the other still free. -/
theorem zone_partition_handedOut :
    ∃ handout : Handout,
      (init 2 8 8 4 1 .zns).step (.getActiveZone 0) = some handout ∧
      handout.outstanding = {⟨0, 0, 0, false⟩} ∧ handout.manager.free = [1] ∧
      ZonePartition handout.manager handout.outstanding := by
  cases taken : (init 2 8 8 4 1 .zns).step (.getActiveZone 0) with
  | none => cases taken
  | some handout =>
      refine ⟨handout, rfl, Option.some.inj taken ▸ rfl, Option.some.inj taken ▸ rfl, ?_⟩
      exact (zone_partition (by decide) (by decide) (by decide)
        (Reach.step (.getActiveZone 0) (Reach.start rfl) rfl taken)).1

end Handout

end ZNCache
