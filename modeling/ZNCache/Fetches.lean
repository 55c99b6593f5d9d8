import ZNCache.SystemPlacement

/-!
# How often an identifier is fetched

A miss fetches its chunk with `zn_gen_write_buffer`, in front of the write, and fetches it
also when the write then fails.  The claim on the identifier makes the other threads wait
for that chunk, so an identifier is fetched again only once it was evicted or its write
failed.
-/

set_option autoImplicit false

namespace ZNCache

open Tally Transition

variable {Thread : Type}

def CacheMap.cached (map : CacheMap Thread) (id : Nat) : Nat :=
  match map.zoneMap id with
  | some entry => if entry.type = .loc then 1 else 0
  | none => 0

def GetPc.carries : GetPc → Multiset Nat
  | countMiss id _ | giveBack id _ | record id _ | insert id _ => {id}
  | find _ | asleep _ | read _ _ | touch _ _ _ | release _ _ _ | countHit _ _ => 0
  | acquire _ | write _ _ | undoZone _ _ | undoMap _ => 0

def ThreadPc.carries : ThreadPc EvictPc → Multiset Nat := lift GetPc.carries

def ThreadPc.fetches : ThreadPc EvictPc → Choice → Multiset Nat
  | get (.write id _), .run _ => {id}
  | _, _ => 0

def ThreadPc.loses : ThreadPc EvictPc → Choice → Multiset Nat
  | get (.write id _), .run environment => if environment.transfers then 0 else {id}
  | _, _ => 0

def ThreadPc.drops (map : CacheMap Thread) : ThreadPc EvictPc → Choice → Multiset Nat
  | evict _ (.clear _ _ zone), .run _ => Multiset.ofList (map.dataMap zone).values
  | _, _ => 0

/-! ## The entries -/

section Map

variable {map after : CacheMap Thread} {writers : Multiset Nat} {id other : Nat}

theorem CacheMap.cached_iff : map.cached id = 1 ↔ ∃ location, map.Locates id location := by
  unfold CacheMap.cached CacheMap.Locates
  cases map.zoneMap id with
  | none => simp
  | some entry => simp

theorem CacheMap.cached_le (map : CacheMap Thread) (id : Nat) : map.cached id ≤ 1 := by
  unfold CacheMap.cached
  split
  next => split <;> omega
  next => omega

theorem CacheMap.cached_congr (gained : ∀ location, after.Locates id location →
      map.Locates id location)
    (kept : ∀ location, map.Locates id location → after.Locates id location) :
    after.cached id = map.cached id := by
  have same : after.cached id = 1 ↔ map.cached id = 1 := by
    rw [cached_iff, cached_iff]
    exact exists_congr fun location => ⟨gained location, kept location⟩
  have bounds := cached_le after id
  have others := cached_le map id
  omega

theorem CacheMapAgrees.cached_find {thread : Thread} {result : FindResult}
    (found : FindSpec thread map other result after) : after.cached id = map.cached id :=
  CacheMap.cached_congr (fun location located => found.locates.2 id location located)
    fun _ located => found.keepsLocated located

theorem CacheMap.cached_wakeUp [DecidableEq Thread] (map : CacheMap Thread) (thread : Thread)
    (other id : Nat) : (map.wakeUp thread other).cached id = map.cached id :=
  cached_congr (fun location located => (map.wakeUp_locates thread other).2.2 id location located)
    fun _ located => map.wakeUp_keepsLocated thread located

/-- An identifier that is being written is not cached. -/
theorem CacheMapAgrees.cached_claimed (agrees : CacheMapAgrees map writers)
    (member : id ∈ writers) : map.cached id = 0 := by
  obtain ⟨entry, found, busy⟩ := (agrees.claimed id).mp member
  simp [CacheMap.cached, found, busy]

theorem CacheMapAgrees.cached_insert (agrees : CacheMapAgrees map (other ::ₘ writers))
    (location : ZnPair) :
    (map.located other location).cached id = map.cached id + if id = other then 1 else 0 := by
  by_cases same : id = other
  · subst same
    rw [agrees.cached_claimed (Multiset.mem_cons_self id writers), if_pos rfl, Nat.zero_add]
    exact CacheMap.cached_iff.mpr ⟨location, CacheMap.located_self id location⟩
  · rw [if_neg same, Nat.add_zero]
    refine CacheMap.cached_congr (fun place located => ?_)
      fun place located => agrees.located_keeps location located
    exact ((CacheMap.located_locates located).resolve_left fun given => same given.1).2

theorem CacheMapAgrees.cached_fail (agrees : CacheMapAgrees map (other ::ₘ writers))
    {answer : Outcome (CacheMap Thread) Unit} (failed : znCachemapFail map other = some answer) :
    answer.state.cached id = map.cached id := by
  refine CacheMap.cached_congr (fun location located => ?_)
    fun location located => agrees.fail_keeps failed located
  obtain ⟨outcome, entry, ran, _, _, emptied, state⟩ := agrees.fail
  cases Option.some.inj (failed.symm.trans ran)
  rw [state] at located
  exact locates_setEntry (by simp [emptied]) located

theorem CacheMapAgrees.cached_clearZone (agrees : CacheMapAgrees map writers) {zone : Nat}
    {answer : Outcome (CacheMap Thread) Unit}
    (cleared : znCachemapClearZone map zone = some answer) :
    answer.state.cached id + (Multiset.ofList (map.dataMap zone).values).count id =
      map.cached id := by
  rw [Multiset.coe_count]
  obtain ⟨zoneMap, _, _⟩ := agrees.smallKeys.clearZone_state cleared
  by_cases member : id ∈ (map.dataMap zone).values
  · obtain ⟨chunk, listed⟩ := GHashTable.mem_values.mp member
    obtain ⟨entry, found, located, _⟩ := agrees.listed zone chunk id listed
    rw [List.count_eq_one_of_mem (agrees.values_nodup zone) member, CacheMap.cached, zoneMap id,
      if_pos member, CacheMap.cached, found]
    simp [located, ZoneMapResult.emptied]
  · rw [List.count_eq_zero_of_not_mem member, CacheMap.cached, zoneMap id, if_neg member]
    rfl

end Map

/-! ## One step -/

section Step

variable [DecidableEq Thread] {config : CacheConfig} {thread : Thread} {choice : Choice}
  {cache after : PromotionalCache Thread} {pc next : ThreadPc EvictPc} {writers : Multiset Nat}

omit [DecidableEq Thread] in
theorem ThreadPc.carries_afterFind (id : Nat) (result : FindResult) :
    (afterFind id result : ThreadPc EvictPc).carries = 0 :=
  lift_afterFind (fun _ => rfl) rfl rfl result

omit [DecidableEq Thread] in
theorem ThreadPc.carries_afterEvict (caller : Option Nat) :
    (afterEvict caller : ThreadPc EvictPc).carries = 0 :=
  lift_afterEvict (fun _ => rfl) caller

omit [DecidableEq Thread] in
theorem ThreadPc.carries_afterGetActiveZone (id : Nat) (code : EvictPc) (ret : GetActiveZone) :
    (afterGetActiveZone id code ret).carries = 0 := by
  cases ret <;> rfl

omit [DecidableEq Thread] in
theorem ThreadPc.carries_le_writes (pc : ThreadPc EvictPc) : pc.carries ≤ pc.writes := by
  cases pc with
  | idle | evict => exact Multiset.zero_le _
  | get pc =>
      cases pc with
      | find | asleep | read | touch | release | countHit => exact le_refl _
      | countMiss | giveBack | record | insert => exact le_refl _
      | acquire | write | undoZone | undoMap => exact Multiset.zero_le _

/-- What a step fetches is cached, carried, dropped or lost after it. -/
theorem ThreadStep.fetches
    (moved : ThreadStep (promotionalCode config) thread cache pc choice after next)
    (small : ∀ id ∈ pc.seeks, id < 2 ^ 32)
    (agrees : CacheMapAgrees cache.cacheMap (pc.writes + writers)) (id : Nat) :
    after.cacheMap.cached id + (pc.drops cache.cacheMap choice).count id +
        (pc.loses choice).count id + next.carries.count id =
      cache.cacheMap.cached id + (pc.fetches choice).count id + pc.carries.count id := by
  have evicting : ∀ {environment : Environment} {caller : Option Nat} {code : EvictPc}
      {later : Option EvictPc}, FgEvictStep cache environment code after later →
      after.cacheMap.cached id +
        ((ThreadPc.evict caller code).drops cache.cacheMap (.run environment)).count id =
        cache.cacheMap.cached id := by
    intro environment caller code later taken
    cases taken with
    | clear i freeZones zone answer cleared => exact agrees.cached_clearZone cleared
    | start | enough | nothing | take | wait | reset => rfl
  cases moved with
  | call | callEvict => rfl
  | wakeUp other =>
      rw [CacheMap.cached_wakeUp]
      rfl
  | evict caller next ran =>
      exact congrArg (· + 0 + 0) (evicting (fgEvictStep_spec ran))
  | evicted caller ran =>
      rw [ThreadPc.carries_afterEvict]
      exact congrArg (· + 0 + 0) (evicting (fgEvictStep_spec ran))
  | get ran =>
      cases ran with
      | find other =>
          have found := znCachemapFind_spec thread cache.cacheMap
            (small other (by simp [ThreadPc.seeks, ThreadPc.lift, GetPc.seeks]))
          rw [ThreadPc.carries_afterFind, CacheMapAgrees.cached_find found]
          rfl
      | acquire other =>
          rw [ThreadPc.carries_afterGetActiveZone]
          rfl
      | insert other location answer inserted =>
          have agrees : CacheMapAgrees cache.cacheMap (other ::ₘ writers) := agrees
          cases Option.some.inj (inserted.symm.trans (agrees.insert location))
          rw [agrees.cached_insert]
          change _ + Multiset.count id 0 + Multiset.count id 0 + Multiset.count id 0 =
            _ + Multiset.count id 0 + Multiset.count id {other}
          simp only [Multiset.count_zero, Multiset.count_singleton, Nat.add_zero]
      | undoMap other answer failed =>
          have agrees : CacheMapAgrees cache.cacheMap (other ::ₘ writers) := agrees
          rw [agrees.cached_fail failed]
          rfl
      | write other location written =>
          simp only [ThreadPc.loses, written, if_true]
          change _ + Multiset.count id 0 + Multiset.count id 0 + Multiset.count id {other} =
            _ + Multiset.count id {other} + Multiset.count id 0
          simp only [Multiset.count_zero, Nat.add_zero]
          rfl
      | writeFailed other location fails =>
          simp only [ThreadPc.loses, fails, Bool.false_eq_true, if_false]
          rfl
      | woken | read | touch | release | countHit => rfl
      | countMiss | giveBack | record | undoZone => rfl

end Step

/-! ## Runs -/

/-- A system, and how often the chunk of each identifier was generated, how often that could
not be written, and how often the identifier lost its location to an eviction. -/
structure FetchLog (Thread : Type) where
  system : PromotionalSystem Thread
  fetched : Nat → Nat
  lost : Nat → Nat
  dropped : Nat → Nat

namespace FetchLog

variable [DecidableEq Thread]

def step (config : CacheConfig) (log : FetchLog Thread) (action : Thread × Choice) :
    Option (FetchLog Thread) :=
  let pc := log.system.threads action.1
  (log.system.step (promotionalCode config) action).map fun next =>
    ⟨next, fun id => log.fetched id + (pc.fetches action.2).count id,
      fun id => log.lost id + (pc.loses action.2).count id,
      fun id => log.dropped id + (pc.drops log.system.cache.cacheMap action.2).count id⟩

abbrev Run (config : CacheConfig) (log : FetchLog Thread) : Prop :=
  Reach (step config) (fun _ _ => True)
    (fun log => promotionalSystem config = some log.system ∧
      log.fetched = (fun _ => 0) ∧ log.lost = (fun _ => 0) ∧ log.dropped = fun _ => 0) log

variable [Fintype Thread] {config : CacheConfig} {log : FetchLog Thread}

omit [Fintype Thread] in
theorem Run.reached (run : Run config log) :
    PromotionalRun config (fun _ _ => True) log.system := by
  induction run with
  | start begins => exact .start begins.1
  | step action _ _ taken ih =>
      obtain ⟨next, moved, rfl⟩ := Option.map_eq_some_iff.mp taken
      exact .step action ih trivial moved

theorem Run.accounted (run : Run config log) (id : Nat) :
    log.fetched id = log.dropped id + log.lost id + log.system.cache.cacheMap.cached id +
      (tally ThreadPc.carries log.system.threads).count id := by
  induction run with
  | start begins =>
      obtain ⟨_, _, emptyMap, _, idle⟩ := System.init_spec begins.1
      rw [begins.2.1, begins.2.2.1, begins.2.2.2, emptyMap,
        tally_const_zero _ _ fun thread => by rw [idle thread]; rfl]
      rfl
  | @step state later action before _ taken ih =>
      have sound := MapSound.of_keeps (promotionalCode_keepsMap config) (Run.reached before)
      obtain ⟨next, stepped, rfl⟩ := Option.map_eq_some_iff.mp taken
      obtain ⟨thread, choice⟩ := action
      obtain ⟨cache, pc, rfl, moved⟩ := System.step_spec stepped
      have counts := moved.fetches (sound.seeks thread) (sound.split thread) id
      rw [tally_split _ _ thread, Multiset.count_add] at ih
      simp only [System.advance, tally_update, Multiset.count_add]
      omega

/-- A call of `zn_cache_get` that runs for so many sections. -/
def callFor (id sections : Nat) : List (Unit × Choice) :=
  ((), .get id) :: List.replicate sections ((), .run .smooth)

/-- An identifier is fetched, evicted for the next one, fetched again in vain, for its write
fails, and fetched once more. -/
def fetchTwice : List (Unit × Choice) :=
  callFor 7 7 ++ callFor 8 14 ++ callFor 7 9 ++
    [((), .run ⟨false, 0, true⟩), ((), .run .smooth), ((), .run .smooth)] ++ callFor 7 7

end FetchLog

end ZNCache
