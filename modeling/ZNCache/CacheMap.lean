import Mathlib.Data.List.AList
import ZNCache.ZoneStateManager

/-!
# Cache map

`zoneMap` sends an identifier's key to its entry, `dataMap` lists for each zone
the identifier stored in each chunk.  The condition variable of an entry is the
list of threads asleep on it.  A lookup that yields NULL and is dereferenced ends
the run: the call has no outcome.
-/

set_option autoImplicit false

namespace ZNCache

/-- A table keyed and valued by pointers. -/
abbrev GHashTable := AList fun _ : Nat => Nat

inductive ResultType
  | loc
  | cond
  | empty
  deriving DecidableEq, Repr

structure ZoneMapResult (Thread : Type) where
  location : ZnPair
  writeFinished : List Thread
  type : ResultType

/-- `type = RESULT_EMPTY`; the location and the sleepers stay. -/
def ZoneMapResult.emptied {Thread : Type} (entry : ZoneMapResult Thread) :
    ZoneMapResult Thread :=
  { entry with type := .empty }

structure CacheMap (Thread : Type) where
  zoneMap : Nat → Option (ZoneMapResult Thread)
  dataMap : Nat → GHashTable
  activeReaders : Nat → Int

inductive FindResult
  | loc (location : ZnPair)
  | cond
  | wait
  deriving DecidableEq, Repr

variable {Thread : Type}

def znCachemapInit : CacheMap Thread where
  zoneMap := fun _ => none
  dataMap := fun _ => ∅
  activeReaders := fun _ => 0

def CacheMap.setEntry (map : CacheMap Thread) (key : Nat) (entry : ZoneMapResult Thread) :
    CacheMap Thread :=
  { map with zoneMap := Function.update map.zoneMap key (some entry) }

def GHashTable.values (table : GHashTable) : List Nat := table.entries.map Sigma.snd

/-- One pass of the loop of `zn_cachemap_find`, up to the unlock or the wait. -/
def znCachemapFind (thread : Thread) (map : CacheMap Thread) (dataId : Nat) :
    FindResult × CacheMap Thread :=
  match map.zoneMap (gintToPointer dataId) with
  | some lookup =>
      match lookup.type with
      | .loc =>
          (.loc lookup.location,
            { map with
              activeReaders := Function.update map.activeReaders lookup.location.zone
                (map.activeReaders lookup.location.zone + 1) })
      | .cond =>
          (.wait, map.setEntry (gintToPointer dataId)
            { lookup with writeFinished := lookup.writeFinished ++ [thread] })
      | .empty => (.cond, map.setEntry (gintToPointer dataId) { lookup with type := .cond })
  | none => (.cond, map.setEntry (gintToPointer dataId) ⟨⟨0, 0, 0, false⟩, [], .cond⟩)

/-- A sleeping thread leaves the condition variable without a broadcast. -/
def CacheMap.wakeUp [DecidableEq Thread] (map : CacheMap Thread) (thread : Thread)
    (dataId : Nat) : CacheMap Thread :=
  match map.zoneMap (gintToPointer dataId) with
  | some lookup =>
      map.setEntry (gintToPointer dataId)
        { lookup with writeFinished := lookup.writeFinished.erase thread }
  | none => map

/-- Whether the thread sleeps on the entry and no broadcast has woken it. -/
def CacheMap.sleeping [DecidableEq Thread] (map : CacheMap Thread) (thread : Thread)
    (dataId : Nat) : Bool :=
  match map.zoneMap (gintToPointer dataId) with
  | some lookup => decide (thread ∈ lookup.writeFinished)
  | none => false

def znCachemapInsert (map : CacheMap Thread) (dataId : Nat) (location : ZnPair) :
    Option (Outcome (CacheMap Thread) Unit) :=
  match map.zoneMap (guintToPointer dataId) with
  | none => none
  | some result =>
      some ⟨(),
        { map.setEntry (guintToPointer dataId) ⟨location, [], .loc⟩ with
          dataMap := Function.update map.dataMap location.zone
            ((map.dataMap location.zone).insert (guintToPointer location.chunkOffset)
              (gintToPointer dataId)) },
        decide (result.type = .cond)⟩

/-- The key under which the entry of a chunk is looked up to be cleared. -/
def CacheMap.chunkKey (map : CacheMap Thread) (location : ZnPair) : Nat :=
  clearKey (((map.dataMap location.zone).lookup (guintToPointer location.chunkOffset)).getD 0)

def znCachemapClearChunk (map : CacheMap Thread) (location : ZnPair) :
    Option (Outcome (CacheMap Thread) Unit) :=
  -- a missing chunk entry reads as NULL, which is identifier 0
  let value := ((map.dataMap location.zone).lookup
    (guintToPointer location.chunkOffset)).getD 0
  match map.zoneMap (clearKey value) with
  | none => none
  | some res =>
      some ⟨(),
        { map.setEntry (clearKey value) res.emptied with
          dataMap := Function.update map.dataMap location.zone
            ((map.dataMap location.zone).erase (guintToPointer location.chunkOffset)) },
        decide (res.type = .loc) && decide (res.location.zone = location.zone) &&
          decide (res.location.chunkOffset = location.chunkOffset)⟩

/-- The body of the loop of `zn_cachemap_clear_zone`. -/
def clearEntry (zone : Nat) (acc : (Nat → Option (ZoneMapResult Thread)) × Bool)
    (value : Nat) : Option ((Nat → Option (ZoneMapResult Thread)) × Bool) :=
  match acc.1 (clearKey value) with
  | none => none
  | some res =>
      some (Function.update acc.1 (clearKey value) (some res.emptied),
        acc.2 && decide (res.type = .loc) && decide (res.location.zone = zone))

def znCachemapClearZone (map : CacheMap Thread) (zone : Nat) :
    Option (Outcome (CacheMap Thread) Unit) :=
  match (map.dataMap zone).values.foldlM (clearEntry zone) (map.zoneMap, true) with
  | none => none
  | some (zoneMap, asserts) =>
      some ⟨(),
        { map with
          zoneMap := zoneMap
          dataMap := Function.update map.dataMap zone ∅ }, asserts⟩

def znCachemapFail (map : CacheMap Thread) (id : Nat) :
    Option (Outcome (CacheMap Thread) Unit) :=
  match map.zoneMap (gintToPointer id) with
  | none => none
  | some entry =>
      some ⟨(),
        map.setEntry (gintToPointer id) { entry with writeFinished := [], type := .empty },
        decide (entry.type = .cond)⟩

/-- `g_atomic_int_dec_and_test` on a zone's reader count. -/
def CacheMap.releaseReader (map : CacheMap Thread) (zone : Nat) : CacheMap Thread :=
  { map with
    activeReaders := Function.update map.activeReaders zone (map.activeReaders zone - 1) }

/-- The map once `id` is located, as `zn_cachemap_insert` leaves it. -/
def CacheMap.located (map : CacheMap Thread) (id : Nat) (location : ZnPair) :
    CacheMap Thread where
  zoneMap := Function.update map.zoneMap id (some ⟨location, [], .loc⟩)
  dataMap := Function.update map.dataMap location.zone
    ((map.dataMap location.zone).insert location.chunkOffset id)
  activeReaders := map.activeReaders

theorem znCachemapInsert_found {map : CacheMap Thread} {id : Nat}
    {entry : ZoneMapResult Thread} (small : id < 2 ^ 32)
    (found : map.zoneMap id = some entry) (location : ZnPair) :
    znCachemapInsert map id location =
      some ⟨(), map.located id location, decide (entry.type = .cond)⟩ := by
  simp [znCachemapInsert, found, gintToPointer_of_u32 small, CacheMap.located,
    CacheMap.setEntry]

/-! No call but a lookup that finds its identifier touches the reader counts. -/

theorem znCachemapInsert_readers {map : CacheMap Thread} {id : Nat} {location : ZnPair}
    {answer : Outcome (CacheMap Thread) Unit}
    (inserted : znCachemapInsert map id location = some answer) :
    answer.state.activeReaders = map.activeReaders := by
  unfold znCachemapInsert at inserted
  split at inserted
  next => cases inserted
  next =>
      cases Option.some.inj inserted
      rfl

theorem znCachemapFail_readers {map : CacheMap Thread} {id : Nat}
    {answer : Outcome (CacheMap Thread) Unit} (failed : znCachemapFail map id = some answer) :
    answer.state.activeReaders = map.activeReaders := by
  unfold znCachemapFail at failed
  split at failed
  next => cases failed
  next =>
      cases Option.some.inj failed
      rfl

theorem CacheMap.wakeUp_readers [DecidableEq Thread] (map : CacheMap Thread) (thread : Thread)
    (id : Nat) : (map.wakeUp thread id).activeReaders = map.activeReaders := by
  unfold CacheMap.wakeUp
  split <;> rfl

theorem CacheMap.located_lookup (map : CacheMap Thread) (id : Nat) (location : ZnPair)
    (zone chunk : Nat) :
    ((map.located id location).dataMap zone).lookup chunk =
      if zone = location.zone ∧ chunk = location.chunkOffset then some id
      else (map.dataMap zone).lookup chunk := by
  by_cases sameZone : zone = location.zone
  · subst sameZone
    by_cases sameChunk : chunk = location.chunkOffset
    · subst sameChunk
      simp [located]
    · simp [located, sameChunk, AList.lookup_insert_ne sameChunk]
  · simp [located, sameZone]

section SetEntry

variable (map : CacheMap Thread) (key : Nat) (entry : ZoneMapResult Thread)

@[simp] theorem setEntry_zoneMap :
    (map.setEntry key entry).zoneMap = Function.update map.zoneMap key (some entry) := rfl
@[simp] theorem setEntry_dataMap : (map.setEntry key entry).dataMap = map.dataMap := rfl
@[simp] theorem setEntry_activeReaders :
    (map.setEntry key entry).activeReaders = map.activeReaders := rfl

end SetEntry

theorem GHashTable.mem_values {table : GHashTable} {value : Nat} :
    value ∈ table.values ↔ ∃ key, table.lookup key = some value := by
  simp only [GHashTable.values, List.mem_map, ← Option.mem_def, AList.mem_lookup_iff]
  constructor
  · intro given
    obtain ⟨⟨key, _⟩, member, rfl⟩ := given
    exact ⟨key, member⟩
  · intro given
    obtain ⟨key, member⟩ := given
    exact ⟨⟨key, value⟩, member, rfl⟩

theorem znCachemapClearChunk_state {map : CacheMap Thread} {location : ZnPair}
    {answer : Outcome (CacheMap Thread) Unit}
    (cleared : znCachemapClearChunk map location = some answer) :
    ∃ entry, map.zoneMap (map.chunkKey location) = some entry ∧
      answer.state.zoneMap =
        Function.update map.zoneMap (map.chunkKey location) (some entry.emptied) ∧
      ∀ zone chunk, (answer.state.dataMap zone).lookup chunk =
        if (zone, chunk) = (location.zone, location.chunkOffset) then none
        else (map.dataMap zone).lookup chunk := by
  unfold znCachemapClearChunk at cleared
  simp only at cleared
  split at cleared
  next => cases cleared
  next entry found =>
      cases Option.some.inj cleared
      refine ⟨entry, found, rfl, fun zone chunk => ?_⟩
      by_cases sameZone : zone = location.zone
      · subst sameZone
        by_cases sameChunk : chunk = location.chunkOffset
        · subst sameChunk
          simp
        · simp [sameChunk, AList.lookup_erase_ne sameChunk]
      · simp [sameZone]

section ClearZone

/-- The clearing loop empties exactly the entries it looks up, all of which exist. -/
theorem clearEntries_spec (zone : Nat) : ∀ (values : List Nat)
    (first : (Nat → Option (ZoneMapResult Thread)) × Bool)
    {last : (Nat → Option (ZoneMapResult Thread)) × Bool},
    values.foldlM (clearEntry zone) first = some last →
      (∀ key, last.1 key =
        if key ∈ values.map clearKey then (first.1 key).map ZoneMapResult.emptied
        else first.1 key) ∧
      ∀ value ∈ values, first.1 (clearKey value) ≠ none := by
  intro values
  induction values with
  | nil =>
      intro first last run
      cases Option.some.inj run
      simp
  | cons value rest ih =>
      intro first last run
      rw [List.foldlM_cons] at run
      obtain ⟨middle, bodyRun, restRun⟩ := Option.bind_eq_some_iff.mp run
      cases found : first.1 (clearKey value) with
      | none => simp [clearEntry, found] at bodyRun
      | some entry =>
          simp only [clearEntry, found, Option.some.injEq] at bodyRun
          subst bodyRun
          obtain ⟨keys, present⟩ := ih _ restRun
          constructor
          · intro key
            simp only [keys key, List.map_cons, List.mem_cons]
            by_cases same : key = clearKey value
            · subst same
              simp [found, ZoneMapResult.emptied]
            · simp [same]
          · intro other member
            rcases List.mem_cons.mp member with rfl | member
            · simp [found]
            · have later := present other member
              by_cases same : clearKey other = clearKey value
              · simp [same, found]
              · simpa [same] using later

theorem clearEntries_total (zone : Nat) : ∀ (values : List Nat)
    (first : (Nat → Option (ZoneMapResult Thread)) × Bool),
    (∀ value ∈ values, first.1 (clearKey value) ≠ none) →
    ∃ last, values.foldlM (clearEntry zone) first = some last := by
  intro values
  induction values with
  | nil => intro first _; exact ⟨first, rfl⟩
  | cons value rest ih =>
      intro first present
      obtain ⟨entry, found⟩ := Option.ne_none_iff_exists'.mp (present value List.mem_cons_self)
      obtain ⟨last, run⟩ := ih
        (Function.update first.1 (clearKey value) (some entry.emptied),
          first.2 && decide (entry.type = .loc) && decide (entry.location.zone = zone)) (by
          intro other member
          by_cases same : clearKey other = clearKey value
          · simp [same]
          · simpa [same] using present other (List.mem_cons_of_mem _ member))
      refine ⟨last, ?_⟩
      rw [List.foldlM_cons]
      simpa [clearEntry, found] using run

theorem clearEntries_asserts (zone : Nat) : ∀ (values : List Nat)
    (first : (Nat → Option (ZoneMapResult Thread)) × Bool),
    (values.map clearKey).Nodup →
    (∀ value ∈ values, ∃ entry, first.1 (clearKey value) = some entry ∧
      entry.type = .loc ∧ entry.location.zone = zone) →
    ∃ zoneMap, values.foldlM (clearEntry zone) first = some (zoneMap, first.2) := by
  intro values
  induction values with
  | nil => intro first _ _; exact ⟨first.1, rfl⟩
  | cons value rest ih =>
      intro first nodup located
      rw [List.map_cons, List.nodup_cons] at nodup
      obtain ⟨entry, found, isLoc, inZone⟩ := located value (by simp)
      obtain ⟨zoneMap, run⟩ := ih
        (Function.update first.1 (clearKey value) (some entry.emptied), first.2) nodup.2 (by
          intro other member
          have apart : clearKey other ≠ clearKey value := fun same =>
            nodup.1 (same ▸ List.mem_map_of_mem member)
          simpa [apart] using located other (List.mem_cons_of_mem _ member))
      refine ⟨zoneMap, ?_⟩
      rw [List.foldlM_cons]
      simpa [clearEntry, found, isLoc, inZone] using run

theorem znCachemapClearZone_state {map : CacheMap Thread} {zone : Nat}
    {outcome : Outcome (CacheMap Thread) Unit}
    (cleared : znCachemapClearZone map zone = some outcome) :
    (∀ key, outcome.state.zoneMap key =
      if key ∈ (map.dataMap zone).values.map clearKey then
        (map.zoneMap key).map ZoneMapResult.emptied
      else map.zoneMap key) ∧
    (∀ value ∈ (map.dataMap zone).values, map.zoneMap (clearKey value) ≠ none) ∧
    outcome.state.dataMap = Function.update map.dataMap zone ∅ ∧
    outcome.state.activeReaders = map.activeReaders := by
  unfold znCachemapClearZone at cleared
  cases run : (map.dataMap zone).values.foldlM (clearEntry zone) (map.zoneMap, true) with
  | none => simp [run] at cleared
  | some last =>
      rw [run] at cleared
      cases Option.some.inj cleared
      obtain ⟨keys, present⟩ := clearEntries_spec zone _ _ run
      exact ⟨keys, present, rfl, rfl⟩

theorem znCachemapClearZone_total {map : CacheMap Thread} {zone : Nat}
    (present : ∀ value ∈ (map.dataMap zone).values, map.zoneMap (clearKey value) ≠ none) :
    ∃ answer, znCachemapClearZone map zone = some answer ∧
      (∀ key, answer.state.zoneMap key = none ↔ map.zoneMap key = none) ∧
      answer.state.dataMap = Function.update map.dataMap zone ∅ := by
  obtain ⟨last, run⟩ := clearEntries_total zone _ (map.zoneMap, true) present
  have cleared : znCachemapClearZone map zone = some ⟨(),
      { map with
        zoneMap := last.1
        dataMap := Function.update map.dataMap zone ∅ }, last.2⟩ := by
    simp only [znCachemapClearZone, run]
  refine ⟨_, cleared, fun key => ?_, rfl⟩
  rw [(znCachemapClearZone_state cleared).1 key]
  split <;> simp

end ClearZone

end ZNCache
