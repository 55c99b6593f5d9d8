import ZNCache.Lib.Recency
import ZNCache.Lib.Transition
import ZNCache.Promotional

/-!
# The promotional policy is an LRU of full zones

The policy alone, called in any order.  The history of its calls says which zones are
full and when each was last used, and the queue agrees with it.
-/

set_option autoImplicit false

namespace ZNCache

open Recency Transition ZnPolicyPromotional

/-- The `int` that `zn_policy_promotional_get_zone_to_evict` returns. -/
def zoneToEvictRet : Option Nat → Int
  | none => -1
  | some zone => gpointerToInt zone

/-- No zone of a device whose zones a `uint32_t` counts is mistaken for the answer -1. -/
theorem zoneToEvictRet_eq_neg_one {answer : Option Nat} {nrZones : Nat} (count : nrZones < 2 ^ 32)
    (below : ∀ zone, answer = some zone → zone < nrZones) :
    zoneToEvictRet answer = -1 ↔ answer = none := by
  cases answer with
  | none => simp [zoneToEvictRet]
  | some zone =>
      have inside := below zone rfl
      simp only [zoneToEvictRet, gpointerToInt, reduceCtorEq, iff_false]
      split <;> omega

inductive PolicyCall
  | update (location : ZnPair) (ioType : ZnIoType)
  | getZoneToEvict

/-- The policy, and what happened to its zones: a zone is put in by the write of its last
chunk, used by a read and dropped by an eviction. -/
structure PolicyLog where
  policy : ZnPolicyPromotional
  history : List (Use Nat)

namespace PolicyLog

def init (maxZoneChunks : Nat) : PolicyLog := ⟨promotionalInit maxZoneChunks, []⟩

def useOf (policy : ZnPolicyPromotional) (location : ZnPair) : ZnIoType → Option (Use Nat)
  | .read => some (.touch location.zone)
  | .write => if location.chunkOffset = policy.lastChunk then some (.put location.zone) else none

def step (log : PolicyLog) : PolicyCall → Option PolicyLog
  | .update location ioType =>
      (znPolicyPromotionalUpdate log.policy location ioType).map fun policy =>
        ⟨policy, (useOf log.policy location ioType).toList ++ log.history⟩
  | .getZoneToEvict =>
      let answer := znPolicyPromotionalGetZoneToEvict true log.policy
      some ⟨answer.2, (answer.1.map Use.drop).toList ++ log.history⟩

/-- The zone is on the device, and the write of its last chunk is not repeated before the
zone is evicted. -/
def Allowed (nrZones : Nat) (log : PolicyLog) : PolicyCall → Prop
  | .update location ioType => location.zone < nrZones ∧
      (useOf log.policy location ioType = some (.put location.zone) →
        lastUse log.history location.zone = none)
  | .getZoneToEvict => True

instance decidableAllowed (nrZones : Nat) (log : PolicyLog) :
    ∀ call, Decidable (Allowed nrZones log call)
  | .update _ _ => inferInstanceAs (Decidable (_ ∧ _))
  | .getZoneToEvict => inferInstanceAs (Decidable True)

abbrev Run (nrZones maxZoneChunks : Nat) (log : PolicyLog) : Prop :=
  Reach step (Allowed nrZones) (· = init maxZoneChunks) log

structure Sound (nrZones : Nat) (log : PolicyLog) : Prop where
  mapped : log.policy.Consistent
  recent : ByRecency log.history log.policy.zones
  below : ∀ zone ∈ log.policy.zones, zone < nrZones

variable {nrZones maxZoneChunks : Nat} {log : PolicyLog}

theorem Sound.init : Sound nrZones (init maxZoneChunks) where
  mapped := consistent_init maxZoneChunks
  recent := ByRecency.nil
  below := fun _ member => absurd member List.not_mem_nil

theorem Sound.update (sound : Sound nrZones log) {location : ZnPair} {ioType : ZnIoType}
    (allowed : Allowed nrZones log (.update location ioType)) :
    ∃ policy, znPolicyPromotionalUpdate log.policy location ioType = some policy ∧
      Sound nrZones ⟨policy, (useOf log.policy location ioType).toList ++ log.history⟩ := by
  cases ioType with
  | read =>
      obtain ⟨policy, updated, mapped, zones, _⟩ := sound.mapped.update_read location
      refine ⟨policy, updated, mapped, ?_, ?_⟩
      · change ByRecency (.touch location.zone :: log.history) policy.zones
        rw [zones]
        split
        next here => exact sound.recent.touch here
        next absent => exact sound.recent.touch_absent absent
      · intro zone member
        rw [zones] at member
        split at member
        next here =>
            rcases List.mem_append.mp member with stays | moved
            · exact sound.below zone (List.mem_of_mem_erase stays)
            · rw [List.mem_singleton.mp moved]
              exact allowed.1
        next => exact sound.below zone member
  | write =>
      by_cases last : location.chunkOffset = log.policy.lastChunk
      · have puts : useOf log.policy location .write = some (.put location.zone) := if_pos last
        have absent : location.zone ∉ log.policy.zones := by
          rw [sound.recent.mem]
          exact not_not.mpr (allowed.2 puts)
        obtain ⟨policy, updated, mapped, zones, _⟩ := sound.mapped.update_filled last absent
        refine ⟨policy, updated, mapped, ?_, ?_⟩
        · rw [puts, zones]
          exact sound.recent.put absent
        · intro zone member
          rw [zones] at member
          rcases List.mem_append.mp member with old | new
          · exact sound.below zone old
          · rw [List.mem_singleton.mp new]
            exact allowed.1
      · have nothing : useOf log.policy location .write = none := if_neg last
        refine ⟨log.policy, update_notFilled last, ?_⟩
        rw [nothing]
        exact sound

theorem Sound.getZoneToEvict (sound : Sound nrZones log) :
    (znPolicyPromotionalGetZoneToEvict true log.policy).1 = log.policy.zones.head? ∧
      (znPolicyPromotionalGetZoneToEvict true log.policy).2.zones = log.policy.zones.tail ∧
      Sound nrZones ⟨(znPolicyPromotionalGetZoneToEvict true log.policy).2,
        ((znPolicyPromotionalGetZoneToEvict true log.policy).1.map Use.drop).toList ++
          log.history⟩ := by
  obtain ⟨nothing, empty⟩ | ⟨zone, policy, taken, mapped, zones, _⟩ :=
    sound.mapped.getZoneToEvict true
  · rw [nothing, empty rfl]
    exact ⟨rfl, rfl, sound⟩
  · rw [taken, zones]
    refine ⟨rfl, rfl, mapped, ?_, ?_⟩
    · have recent := sound.recent
      rw [zones] at recent
      exact recent.drop
    · intro other member
      exact sound.below other (by rw [zones]; exact List.mem_cons_of_mem _ member)

theorem Sound.step {next : PolicyLog} (sound : Sound nrZones log) {call : PolicyCall}
    (allowed : Allowed nrZones log call) (taken : log.step call = some next) :
    Sound nrZones next := by
  cases call with
  | update location ioType =>
      obtain ⟨policy, updated, later⟩ := sound.update allowed
      rw [PolicyLog.step, updated] at taken
      cases Option.some.inj taken
      exact later
  | getZoneToEvict =>
      cases Option.some.inj taken
      exact sound.getZoneToEvict.2.2

theorem Run.sound (run : Run nrZones maxZoneChunks log) : Sound nrZones log := by
  refine run.invariant ?_ ?_
  · intro _ same
    subst same
    exact Sound.init
  · exact fun _ _ _ sound allowed taken => sound.step allowed taken

theorem update_other (mapped : log.policy.Consistent) {location : ZnPair} {ioType : ZnIoType}
    (absent : location.zone ∉ log.policy.zones)
    (notLast : ioType = .write → location.chunkOffset ≠ log.policy.lastChunk) :
    znPolicyPromotionalUpdate log.policy location ioType = some log.policy := by
  cases ioType with
  | read =>
      have unmapped := mapped.not_mem_items.mp absent
      simp [znPolicyPromotionalUpdate, unmapped]
  | write => exact update_notFilled (notLast rfl)

/-- The queue lists the full zones, least recently used first, the map finds their nodes,
and an eviction takes the first of them. -/
theorem promotional_isLru (count : nrZones < 2 ^ 32) (run : Run nrZones maxZoneChunks log) :
    log.policy.zones.Nodup ∧ log.policy.Consistent ∧
      ByRecency log.history log.policy.zones ∧
      (∀ location ioType, Allowed nrZones log (.update location ioType) →
        ∃ policy, znPolicyPromotionalUpdate log.policy location ioType = some policy) ∧
      (∀ location ioType, location.zone ∉ log.policy.zones →
        (ioType = .write → location.chunkOffset ≠ log.policy.lastChunk) →
        znPolicyPromotionalUpdate log.policy location ioType = some log.policy) ∧
      (znPolicyPromotionalGetZoneToEvict true log.policy).1 = log.policy.zones.head? ∧
      (znPolicyPromotionalGetZoneToEvict true log.policy).2.zones = log.policy.zones.tail ∧
      (zoneToEvictRet (znPolicyPromotionalGetZoneToEvict true log.policy).1 = -1 ↔
        log.policy.zones = []) := by
  have sound := run.sound
  obtain ⟨answer, rest, _⟩ := sound.getZoneToEvict
  refine ⟨sound.recent.nodup, sound.mapped, sound.recent, ?_, ?_, answer, rest, ?_⟩
  · intro location ioType allowed
    obtain ⟨policy, updated, _⟩ := sound.update allowed
    exact ⟨policy, updated⟩
  · exact fun location ioType absent notLast => update_other sound.mapped absent notLast
  · rw [answer, zoneToEvictRet_eq_neg_one count, List.head?_eq_none_iff]
    exact fun zone first => sound.below zone (List.mem_of_head? first)

/-- Zones 0 and 1 are filled, and a read of zone 0 makes zone 1 the one to evict. -/
def readAfterFill : List PolicyCall :=
  [.update ⟨0, 1, 0, false⟩ .write, .update ⟨1, 0, 0, false⟩ .write,
    .update ⟨1, 1, 0, false⟩ .write, .update ⟨0, 0, 0, false⟩ .read]

theorem promotional_isLru_readAfterFill :
    ∃ log, runActions step (init 2) readAfterFill = some log ∧
      ByRecency log.history [1, 0] ∧
      (znPolicyPromotionalGetZoneToEvict true log.policy).1 = some 1 := by
  cases ran : runActions step (init 2) readAfterFill with
  | none => cases ran
  | some log =>
      have reached : Run 2 2 log :=
        Reach.of_runActions readAfterFill (Reach.start rfl) (by decide) ran
      have zones : log.policy.zones = [1, 0] := by
        cases Option.some.inj ran
        decide
      obtain ⟨_, _, recent, _, _, answer, _⟩ := promotional_isLru (by decide) reached
      rw [zones] at recent answer
      exact ⟨log, rfl, recent, answer⟩

end PolicyLog

end ZNCache
