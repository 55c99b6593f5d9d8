import Mathlib.Data.Fintype.Basic
import ZNCache.CacheMap
import ZNCache.Lib.Transition

/-!
# The entry that a find returns

`zn_cachemap_find` counts a reader under the lock and copies the entry after the unlock.
The two are steps of their own here, and the finds, inserts and clearings of other threads
come between them.
-/

set_option autoImplicit false

namespace ZNCache

open Transition

variable {Thread : Type}

inductive FindPc
  | idle
  | asleep (dataId : Nat)
  /-- Before `return *lookup`, with the zone whose reader count went up. -/
  | copying (dataId : Nat) (counted : Option Nat)
  deriving DecidableEq, Repr

def FindPc.copied : FindPc → Option Nat
  | .copying dataId _ => some dataId
  | .idle | .asleep _ => none

theorem FindPc.copied_eq_some {pc : FindPc} {dataId : Nat} (here : pc.copied = some dataId) :
    ∃ counted, pc = .copying dataId counted := by
  cases pc with
  | idle | asleep => cases here
  | copying other counted =>
      cases here
      exact ⟨counted, rfl⟩

/-- What a find returned, beside the zone that it counted a reader of. -/
structure FindReturn (Thread : Type) where
  counted : Option Nat
  result : ZoneMapResult Thread

structure FindSystem (Thread : Type) where
  map : CacheMap Thread
  finds : Thread → FindPc
  returned : List (FindReturn Thread)

inductive MapCall
  | find (dataId : Nat)
  | wake
  | copy
  | insert (dataId : Nat) (location : ZnPair)
  | clearZone (zone : Nat)
  | clearChunk (location : ZnPair)
  deriving DecidableEq, Repr

/-- The calls that hold the lock to their end. -/
def CacheMap.lockedCall (map : CacheMap Thread) :
    MapCall → Option (Outcome (CacheMap Thread) Unit)
  | .insert dataId location => znCachemapInsert map dataId location
  | .clearZone zone => znCachemapClearZone map zone
  | .clearChunk location => znCachemapClearChunk map location
  | .find _ | .wake | .copy => none

namespace FindSystem

def init : FindSystem Thread := ⟨znCachemapInit, fun _ => .idle, []⟩

/-- An assertion that fails aborts the process. -/
def commit (system : FindSystem Thread) :
    Option (Outcome (CacheMap Thread) Unit) → Option (FindSystem Thread)
  | none => none
  | some answer => if answer.asserts then some { system with map := answer.state } else none

variable [DecidableEq Thread]

def setFind (system : FindSystem Thread) (thread : Thread) (pc : FindPc) : FindSystem Thread :=
  { system with finds := Function.update system.finds thread pc }

def look (system : FindSystem Thread) (thread : Thread) (dataId : Nat) : FindSystem Thread :=
  let answer := znCachemapFind thread system.map dataId
  let after := { system with map := answer.2 }
  match answer.1 with
  | .loc location => after.setFind thread (.copying dataId (some location.zone))
  | .cond => after.setFind thread (.copying dataId none)
  | .wait => after.setFind thread (.asleep dataId)

def step (system : FindSystem Thread) (action : Thread × MapCall) : Option (FindSystem Thread) :=
  match action.2, system.finds action.1 with
  | .find dataId, .idle => some (system.look action.1 dataId)
  -- by the broadcast or spuriously
  | .wake, .asleep dataId =>
      some ({ system with map := system.map.wakeUp action.1 dataId }.look action.1 dataId)
  | .copy, .copying dataId counted =>
      match system.map.zoneMap (gintToPointer dataId) with
      | none => none
      | some lookup =>
          some { system.setFind action.1 .idle with
            returned := ⟨counted, lookup⟩ :: system.returned }
  | call, .idle => system.commit (system.map.lockedCall call)
  | _, _ => none

end FindSystem

/-! ## Results that match the count -/

/-- The result is not empty, and it lies in the zone that was counted, if one was. -/
def ZoneMapResult.Matches (result : ZoneMapResult Thread) (counted : Option Nat) : Prop :=
  result.type ≠ .empty ∧
    ∀ zone, counted = some zone → result.type = .loc ∧ result.location.zone = zone

def FindSystem.AllMatch (system : FindSystem Thread) : Prop :=
  ∀ answer ∈ system.returned, answer.result.Matches answer.counted

/-- The keys of the entries that a clearing marks `RESULT_EMPTY`. -/
def CacheMap.clearedKeys (map : CacheMap Thread) : MapCall → List Nat
  | .clearZone zone => (map.dataMap zone).values.map clearKey
  | .clearChunk location => [map.chunkKey location]
  | .find _ | .wake | .copy | .insert _ _ => []

/-- No clearing takes an entry that a find has looked up and not yet copied. -/
def FindSystem.SparesFound (system : FindSystem Thread) (action : Thread × MapCall) : Prop :=
  ∀ thread dataId counted, system.finds thread = .copying dataId counted →
    gintToPointer dataId ∉ system.map.clearedKeys action.2

instance [Fintype Thread] (system : FindSystem Thread) (action : Thread × MapCall) :
    Decidable (system.SparesFound action) :=
  decidable_of_iff
    (∀ thread, ∀ dataId ∈ (system.finds thread).copied,
      gintToPointer dataId ∉ system.map.clearedKeys action.2)
    ⟨fun spares thread dataId counted here => spares thread dataId (by rw [here]; rfl),
      fun spares thread dataId here => by
        obtain ⟨counted, copying⟩ := FindPc.copied_eq_some here
        exact spares thread dataId counted copying⟩

/-- Whatever finds copy their entries after a part of the run, the results match. -/
def FindSystem.MatchesAlong [DecidableEq Thread] (first : FindSystem Thread)
    (actions : List (Thread × MapCall)) : Prop :=
  ∀ before, before <+: actions → ∀ (copies : List Thread) (last : FindSystem Thread),
    runActions FindSystem.step first (before ++ copies.map fun thread => (thread, .copy)) =
      some last → last.AllMatch

/-! ## What a call does to an entry -/

def EntryKept (map after : CacheMap Thread) (key : Nat) : Prop :=
  ∀ entry, map.zoneMap key = some entry → ∃ later, after.zoneMap key = some later ∧
    ∀ counted, entry.Matches counted → later.Matches counted

theorem EntryKept.refl (map : CacheMap Thread) (key : Nat) : EntryKept map map key :=
  fun entry found => ⟨entry, found, fun _ matching => matching⟩

theorem EntryKept.trans {map middle after : CacheMap Thread} {key : Nat}
    (first : EntryKept map middle key) (second : EntryKept middle after key) :
    EntryKept map after key := by
  intro entry found
  obtain ⟨between, there, keep⟩ := first entry found
  obtain ⟨later, here, keepOn⟩ := second between there
  exact ⟨later, here, fun counted matching => keepOn counted (keep counted matching)⟩

theorem EntryKept.setEntry {map after : CacheMap Thread} {place key : Nat}
    {entry : ZoneMapResult Thread}
    (changed : after.zoneMap = Function.update map.zoneMap place (some entry))
    (keeps : ∀ old, map.zoneMap place = some old → ∀ counted, old.Matches counted →
      entry.Matches counted) : EntryKept map after key := by
  intro old found
  by_cases same : key = place
  · subst same
    exact ⟨entry, by rw [changed, Function.update_self], keeps old found⟩
  · exact ⟨old, by rw [changed, Function.update_of_ne same, found], fun _ matching => matching⟩

theorem wakeUp_kept [DecidableEq Thread] (map : CacheMap Thread) (thread : Thread)
    (dataId key : Nat) : EntryKept map (map.wakeUp thread dataId) key := by
  unfold CacheMap.wakeUp
  cases found : map.zoneMap (gintToPointer dataId) with
  | none => exact .refl map key
  | some entry =>
      refine .setEntry rfl fun old here counted matching => ?_
      cases Option.some.inj (found.symm.trans here)
      exact matching

/-- A pass of the loop never changes what a find before it counted. -/
theorem znCachemapFind_kept (thread : Thread) (map : CacheMap Thread) (dataId key : Nat) :
    EntryKept map (znCachemapFind thread map dataId).2 key := by
  unfold znCachemapFind
  cases found : map.zoneMap (gintToPointer dataId) with
  | none => exact .setEntry rfl fun old here => by simp [found] at here
  | some entry =>
      cases type : entry.type with
      | loc =>
          simp only [type]
          exact .refl map key
      | cond =>
          simp only [type]
          refine .setEntry rfl fun old here counted matching => ?_
          cases Option.some.inj (found.symm.trans here)
          simpa only [ZoneMapResult.Matches, type] using matching
      | empty =>
          simp only [type]
          refine .setEntry rfl fun old here counted matching => ?_
          cases Option.some.inj (found.symm.trans here)
          exact absurd type matching.1

/-- The entry that a pass looked up matches the count that the pass took. -/
theorem znCachemapFind_matches (thread : Thread) (map : CacheMap Thread) (dataId : Nat) :
    match (znCachemapFind thread map dataId).1 with
    | .loc location => ∃ entry, (znCachemapFind thread map dataId).2.zoneMap
        (gintToPointer dataId) = some entry ∧ entry.Matches (some location.zone)
    | .cond => ∃ entry, (znCachemapFind thread map dataId).2.zoneMap
        (gintToPointer dataId) = some entry ∧ entry.Matches none
    | .wait => True := by
  unfold znCachemapFind
  cases found : map.zoneMap (gintToPointer dataId) with
  | none => simp [ZoneMapResult.Matches]
  | some entry =>
      cases type : entry.type with
      | loc => simp [type, found, ZoneMapResult.Matches]
      | cond => simp [type]
      | empty => simp [type, ZoneMapResult.Matches]

/-- An insert finds its entry claimed, so no find counted a reader of it. -/
theorem znCachemapInsert_kept {map : CacheMap Thread} {dataId : Nat} {location : ZnPair}
    {answer : Outcome (CacheMap Thread) Unit}
    (inserted : znCachemapInsert map dataId location = some answer)
    (asserts : answer.asserts = true) (key : Nat) : EntryKept map answer.state key := by
  unfold znCachemapInsert at inserted
  split at inserted
  next => cases inserted
  next result found =>
      cases Option.some.inj inserted
      have claimed : result.type = .cond := of_decide_eq_true asserts
      refine .setEntry rfl fun old here counted matching => ?_
      cases Option.some.inj (found.symm.trans here)
      refine ⟨by simp, fun zone count => ?_⟩
      have located := (matching.2 zone count).1
      rw [claimed] at located
      cases located

theorem lockedCall_kept {map : CacheMap Thread} {call : MapCall}
    {answer : Outcome (CacheMap Thread) Unit} (ran : map.lockedCall call = some answer)
    (asserts : answer.asserts = true) {key : Nat} (spared : key ∉ map.clearedKeys call) :
    EntryKept map answer.state key := by
  cases call with
  | find | wake | copy => cases ran
  | insert dataId location => exact znCachemapInsert_kept ran asserts key
  | clearZone zone =>
      intro entry found
      have stays := ((znCachemapClearZone_state ran).1 key).trans (if_neg spared)
      exact ⟨entry, stays.trans found, fun _ matching => matching⟩
  | clearChunk location =>
      obtain ⟨_, _, zoneMap, _⟩ := znCachemapClearChunk_state ran
      intro entry found
      have apart : key ≠ map.chunkKey location := fun same => spared (by
        rw [same]
        exact List.mem_singleton_self _)
      have stays : answer.state.zoneMap key = some entry := by
        rw [zoneMap, Function.update_of_ne apart, found]
      exact ⟨entry, stays, fun _ matching => matching⟩

theorem lockedCall_empties {map : CacheMap Thread} {call : MapCall}
    {answer : Outcome (CacheMap Thread) Unit} (ran : map.lockedCall call = some answer)
    {key : Nat} (cleared : key ∈ map.clearedKeys call) :
    ∃ entry, answer.state.zoneMap key = some entry ∧ entry.type = .empty := by
  cases call with
  | find | wake | copy | insert => cases cleared
  | clearZone zone =>
      obtain ⟨keys, present, _, _⟩ := znCachemapClearZone_state ran
      obtain ⟨value, member, rfl⟩ := List.mem_map.mp cleared
      obtain ⟨entry, found⟩ := Option.ne_none_iff_exists'.mp (present value member)
      have emptied := (keys (clearKey value)).trans (if_pos cleared)
      exact ⟨entry.emptied, by rw [emptied, found, Option.map_some], rfl⟩
  | clearChunk location =>
      obtain ⟨entry, _, zoneMap, _⟩ := znCachemapClearChunk_state ran
      cases List.mem_singleton.mp cleared
      exact ⟨entry.emptied, by rw [zoneMap, Function.update_self], rfl⟩

/-! ## Runs -/

namespace FindSystem

structure FindSound (system : FindSystem Thread) : Prop where
  returned : system.AllMatch
  found : ∀ thread dataId counted, system.finds thread = .copying dataId counted →
    ∃ entry, system.map.zoneMap (gintToPointer dataId) = some entry ∧ entry.Matches counted

theorem FindSound.init : FindSound (init : FindSystem Thread) where
  returned := fun _ member => absurd member List.not_mem_nil
  found := fun _ _ _ copying => by cases copying

theorem FindSound.moveMap {system : FindSystem Thread} (sound : FindSound system)
    {map : CacheMap Thread} (kept : ∀ thread dataId counted,
      system.finds thread = .copying dataId counted →
        EntryKept system.map map (gintToPointer dataId)) :
    FindSound { system with map := map } := by
  refine ⟨sound.returned, fun thread dataId counted copying => ?_⟩
  obtain ⟨entry, found, matching⟩ := sound.found thread dataId counted copying
  obtain ⟨later, there, keeps⟩ := kept thread dataId counted copying entry found
  exact ⟨later, there, keeps counted matching⟩

variable [DecidableEq Thread]

theorem FindSound.setFind {system : FindSystem Thread} (sound : FindSound system)
    (thread : Thread) {pc : FindPc} (mine : ∀ dataId counted, pc = .copying dataId counted →
      ∃ entry, system.map.zoneMap (gintToPointer dataId) = some entry ∧ entry.Matches counted) :
    FindSound (system.setFind thread pc) := by
  refine ⟨sound.returned, fun other dataId counted copying => ?_⟩
  by_cases same : other = thread
  · subst same
    exact mine dataId counted (by simpa [FindSystem.setFind] using copying)
  · exact sound.found other dataId counted (by simpa [FindSystem.setFind, same] using copying)

theorem FindSound.look {system : FindSystem Thread} (sound : FindSound system) (thread : Thread)
    (dataId : Nat) : FindSound (system.look thread dataId) := by
  have moved : FindSound { system with map := (znCachemapFind thread system.map dataId).2 } :=
    sound.moveMap fun _ _ _ _ => znCachemapFind_kept thread system.map dataId _
  have mine := znCachemapFind_matches thread system.map dataId
  unfold FindSystem.look
  cases looked : (znCachemapFind thread system.map dataId).1 with
  | loc location =>
      simp only [looked] at mine ⊢
      refine moved.setFind thread fun _ _ here => ?_
      cases here
      exact mine
  | cond =>
      simp only [looked] at mine ⊢
      refine moved.setFind thread fun _ _ here => ?_
      cases here
      exact mine
  | wait =>
      simp only [looked]
      exact moved.setFind thread fun _ _ here => by cases here

inductive StepSpec (system : FindSystem Thread) (thread : Thread) :
    MapCall → FindSystem Thread → Prop
  | find (dataId : Nat) (idle : system.finds thread = .idle) :
      StepSpec system thread (.find dataId) (system.look thread dataId)
  | wake (dataId : Nat) (asleep : system.finds thread = .asleep dataId) :
      StepSpec system thread .wake
        ({ system with map := system.map.wakeUp thread dataId }.look thread dataId)
  | copy (dataId : Nat) (counted : Option Nat) (lookup : ZoneMapResult Thread)
      (copying : system.finds thread = .copying dataId counted)
      (found : system.map.zoneMap (gintToPointer dataId) = some lookup) :
      StepSpec system thread .copy { system.setFind thread .idle with
        returned := ⟨counted, lookup⟩ :: system.returned }
  | locked (call : MapCall) (answer : Outcome (CacheMap Thread) Unit)
      (idle : system.finds thread = .idle) (ran : system.map.lockedCall call = some answer)
      (asserts : answer.asserts = true) :
      StepSpec system thread call { system with map := answer.state }

theorem step_spec {system next : FindSystem Thread} {thread : Thread} {call : MapCall}
    (taken : system.step (thread, call) = some next) : StepSpec system thread call next := by
  unfold FindSystem.step at taken
  simp only at taken
  split at taken
  next idle =>
      cases Option.some.inj taken
      exact .find _ idle
  next asleep =>
      cases Option.some.inj taken
      exact .wake _ asleep
  next copying =>
      split at taken
      next => cases taken
      next lookup found =>
          cases Option.some.inj taken
          exact .copy _ _ lookup copying found
  next idle =>
      unfold commit at taken
      split at taken
      next => cases taken
      next answer ran =>
          split at taken
          next asserts =>
              cases Option.some.inj taken
              exact .locked _ answer idle ran asserts
          next => cases taken
  next => cases taken

theorem FindSound.step {system next : FindSystem Thread} {action : Thread × MapCall}
    (sound : FindSound system) (spares : SparesFound system action)
    (taken : system.step action = some next) : FindSound next := by
  obtain ⟨thread, call⟩ := action
  cases step_spec taken with
  | find dataId => exact sound.look thread dataId
  | wake dataId =>
      have woken : FindSound { system with map := system.map.wakeUp thread dataId } :=
        sound.moveMap fun _ _ _ _ => wakeUp_kept system.map thread dataId _
      exact woken.look thread dataId
  | copy dataId counted lookup copying found =>
      have rest : FindSound (system.setFind thread .idle) :=
        sound.setFind thread fun _ _ here => by cases here
      refine ⟨fun answer member => ?_, rest.found⟩
      rcases List.mem_cons.mp member with rfl | earlier
      · obtain ⟨entry, there, matching⟩ := sound.found thread dataId counted copying
        cases Option.some.inj (found.symm.trans there)
        exact matching
      · exact sound.returned answer earlier
  | locked _ answer idle ran asserts =>
      exact sound.moveMap fun other dataId counted copying =>
        lockedCall_kept ran asserts (spares other dataId counted copying)

/-- A clearing of an entry that a find has counted leaves that find an empty entry to copy. -/
theorem step_clears {system next : FindSystem Thread} {action : Thread × MapCall}
    (taken : system.step action = some next) {thread : Thread} {dataId : Nat}
    {counted : Option Nat} (copying : system.finds thread = .copying dataId counted)
    (cleared : gintToPointer dataId ∈ system.map.clearedKeys action.2) :
    ∃ last, next.step (thread, .copy) = some last ∧ ¬ last.AllMatch := by
  obtain ⟨actor, call⟩ := action
  cases step_spec taken with
  | find | wake | copy => cases cleared
  | locked _ answer idle ran asserts =>
      obtain ⟨entry, found, empty⟩ := lockedCall_empties ran cleared
      refine ⟨_, by simp only [FindSystem.step, copying, found]; rfl, fun every => ?_⟩
      exact (every ⟨counted, entry⟩ (List.mem_cons_self ..)).1 empty

variable {first : FindSystem Thread} {actions : List (Thread × MapCall)}

theorem matches_of_spares (sound : FindSound first)
    (spares : AllowedAlong FindSystem.step SparesFound first actions) :
    MatchesAlong first actions := by
  intro before part copies last ran
  have quiet : AllowedAlong FindSystem.step SparesFound first
      (before ++ copies.map fun thread => (thread, .copy)) := by
    refine (spares.of_prefix part).append_of_forall fun action member system => ?_
    obtain ⟨thread, _, rfl⟩ := List.mem_map.mp member
    exact fun _ _ _ _ => List.not_mem_nil
  exact (quiet.invariant (fun _ _ _ => FindSound.step) sound ran).returned

theorem spares_of_matches {last : FindSystem Thread}
    (ran : runActions FindSystem.step first actions = some last)
    (matching : MatchesAlong first actions) :
    AllowedAlong FindSystem.step SparesFound first actions := by
  induction actions generalizing first with
  | nil => trivial
  | cons action rest ih =>
      obtain ⟨next, taken, ran⟩ := runActions_inv ran
      constructor
      · intro thread dataId counted copying cleared
        obtain ⟨empty, copied, wrong⟩ := step_clears taken copying cleared
        refine wrong (matching [action] ⟨rest, rfl⟩ [thread] empty ?_)
        exact runActions_cons taken (runActions_cons copied rfl)
      · intro other takenToo
        cases Option.some.inj (taken.symm.trans takenToo)
        refine ih ran fun before part copies last ranOn => ?_
        obtain ⟨after, rfl⟩ := part
        exact matching (action :: before) ⟨after, rfl⟩ copies last
          (runActions_cons taken ranOn)

/-- One thread fills the entry of identifier 7, another finds it there. -/
def foundInZone : List (Bool × MapCall) :=
  [(false, .find 7), (false, .copy), (false, .insert 7 ⟨0, 0, 0, false⟩), (true, .find 7)]

end FindSystem

end ZNCache
