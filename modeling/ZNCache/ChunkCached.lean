import Mathlib.Data.Set.Card
import ZNCache.EvictedChunks
import ZNCache.SystemPlacement

/-!
# The queue of the chunk policy and the cache map

As long as the GC moves no chunk and no chunk is cleared before its insert, the queue
holds the chunks that can be found, and no others.
-/

set_option autoImplicit false

namespace ZNCache

open Tally Transition ZnPolicyChunk

variable {Thread : Type}

/-- `zn_evict_policy_get_cache_size` for `ZN_EVICT_CHUNK`, in 64-bit arithmetic. -/
def ZnPolicyChunk.getCacheSize (chunkSz : Nat) (policy : ZnPolicyChunk Thread) : Nat :=
  policy.lruQueue.items.length * chunkSz % 2 ^ 64

def QueuedOrPopped (system : ChunkSystem Thread) (place : Slot) : Prop :=
  place ∈ system.cache.evictionPolicy.lruQueue.items ∨
    ∃ thread, (system.threads thread).popped = some place

/-! ## Steps -/

section Step

variable [DecidableEq Thread] {config : CacheConfig} {thread : Thread} {choice : Choice}
  {cache after : ChunkCache Thread} {pc next : ThreadPc ChunkEvictPc} {maxChunks : Nat}

theorem GetStep.keepsQueued {environment : Environment} {pc : GetPc}
    (taken : GetStep (chunkCode config) thread cache environment pc after next)
    (named : SlotsNamed cache.evictionPolicy)
    (absent : ∀ id location, pc = .record id location →
      location.place ∉ cache.evictionPolicy.lruQueue.items) :
    (∀ place ∈ cache.evictionPolicy.lruQueue.items,
        place ∈ after.evictionPolicy.lruQueue.items) ∧
      ∀ id location, next = .get (.insert id location) →
        location.place ∈ after.evictionPolicy.lruQueue.items := by
  cases taken with
  | touch id location data policy updated =>
      obtain ⟨_, same⟩ := named.update_read updated
      exact ⟨fun place member => same.mem_iff.mpr member, fun _ _ other => by cases other⟩
  | record id location policy updated =>
      obtain ⟨_, items⟩ := named.update_write (absent id location rfl) updated
      refine ⟨fun place member => ?_, fun id location same => ?_⟩
      · rw [items]
        exact List.mem_append_left _ member
      · cases same
        rw [items]
        exact List.mem_append_right _ (List.mem_singleton_self _)
  | find id =>
      refine ⟨fun _ member => member, fun other location same => ?_⟩
      generalize (znCachemapFind thread cache.cacheMap id).1 = result at same
      cases result <;> cases same
  | acquire id =>
      refine ⟨fun _ member => member, fun other location same => ?_⟩
      generalize (zsmGetActiveZone environment.commandRet cache.zoneState).ret = ret at same
      cases ret <;> cases same
  | woken | read | release | countHit | write =>
      exact ⟨fun _ member => member, fun _ _ same => by cases same⟩
  | writeFailed | countMiss | giveBack | insert | undoZone | undoMap =>
      exact ⟨fun _ member => member, fun _ _ same => by cases same⟩

omit [DecidableEq Thread] in
theorem ChunkEvictStep.keepsQueued {environment : Environment} {pc : ChunkEvictPc}
    {next : Option ChunkEvictPc}
    (taken : ChunkEvictStep config thread cache environment pc after next)
    (named : SlotsNamed cache.evictionPolicy) (knows : pc.Knows maxChunks cache.evictionPolicy)
    {place : Slot}
    (queued : place ∈ cache.evictionPolicy.lruQueue.items ∨ pc.popped = some place) :
    (place ∈ after.evictionPolicy.lruQueue.items ∨ poppedAfter next = some place) ∨
      ∃ i nr pair, pc = .clear i nr pair ∧ place = pair.place := by
  cases taken with
  | pop i nr pair policy evicted =>
      obtain ⟨_, items, _⟩ := named.evictChunk evicted
      have member := queued.resolve_right fun popped => by cases popped
      rw [items, List.mem_cons] at member
      rcases member with here | later
      · exact .inl (.inr (congrArg some here.symm))
      · exact .inl (.inl later)
  | mark i nr pair => exact .inl queued
  | clear i nr pair answer cleared =>
      rcases queued with member | popped
      · exact .inl (.inl member)
      · exact .inr ⟨i, nr, pair, rfl, (Option.some.inj popped).symm⟩
  | gcInsert => exact knows.elim
  | turnedAway | lock | popped | gcEnough | gcShort | gcDone | gcTake | gcSkip | gcAcquire =>
      exact .inl (.inl (queued.resolve_right fun popped => by cases popped))
  | gcScanned | gcRead | gcWrite | gcClear | gcReset | gcCount | leave =>
      exact .inl (.inl (queued.resolve_right fun popped => by cases popped))

theorem ThreadStep.keepsQueued
    (moved : ThreadStep (chunkCode config) thread cache pc choice after next)
    (named : SlotsNamed cache.evictionPolicy) (knows : pc.Knows maxChunks cache.evictionPolicy)
    (absent : ∀ id location, pc = .get (.record id location) →
      location.place ∉ cache.evictionPolicy.lruQueue.items) {place : Slot}
    (queued : place ∈ cache.evictionPolicy.lruQueue.items ∨ pc.popped = some place) :
    (place ∈ after.evictionPolicy.lruQueue.items ∨ next.popped = some place) ∨
      ∃ caller i nr pair, pc = .evict caller (.clear i nr pair) ∧ place = pair.place := by
  cases moved with
  | call | callEvict | wakeUp =>
      exact .inl (.inl (queued.resolve_right fun popped => by cases popped))
  | get ran =>
      have member := queued.resolve_right fun popped => by cases popped
      exact .inl (.inl ((ran.keepsQueued named
        fun id location same => absent id location (by rw [same])).1 place member))
  | evict caller code ran =>
      rcases (chunkEvictStep_spec ran).keepsQueued named knows queued with
        kept | ⟨i, nr, pair, rfl, same⟩
      · exact .inl kept
      · exact .inr ⟨caller, i, nr, pair, rfl, same⟩
  | evicted caller ran =>
      rcases (chunkEvictStep_spec ran).keepsQueued named knows queued with
        kept | ⟨i, nr, pair, rfl, same⟩
      · exact .inl (.inl (kept.resolve_right fun popped => by cases popped))
      · exact .inr ⟨caller, i, nr, pair, rfl, same⟩

theorem ThreadStep.chunkLocates {writers : Multiset Nat}
    (moved : ThreadStep (chunkCode config) thread cache pc choice after next)
    (small : ∀ id ∈ pc.seeks, id < 2 ^ 32)
    (agrees : CacheMapAgrees cache.cacheMap (pc.writes + writers))
    (listed : LocatedListed cache.cacheMap) (knows : pc.Knows maxChunks cache.evictionPolicy)
    {id : Nat} {location : ZnPair} (located : after.cacheMap.Locates id location) :
    (cache.cacheMap.Locates id location ∧ ∀ caller i nr pair,
        pc = .evict caller (.clear i nr pair) → location.place ≠ pair.place) ∨
      pc = .get (.insert id location) := by
  have evicting : ∀ {environment : Environment} {caller : Option Nat} {code : ChunkEvictPc}
      {later : Option ChunkEvictPc},
      ChunkEvictStep config thread cache environment code after later →
      code.Knows maxChunks cache.evictionPolicy →
      cache.cacheMap.Locates id location ∧ ∀ other i nr pair,
        (ThreadPc.evict caller code : ThreadPc ChunkEvictPc) = .evict other (.clear i nr pair) →
        location.place ≠ pair.place := by
    intro environment caller code later taken knows
    cases taken with
    | clear i nr pair answer cleared =>
        obtain ⟨_, _, _, kept⟩ := agrees.smallKeys.clearChunk listed cleared
        obtain ⟨before, apart⟩ := kept id location located
        refine ⟨before, fun other i nr pair same there => ?_⟩
        cases same
        exact apart (Prod.mk.inj there)
    | gcClear zone answer cleared =>
        exact ⟨clearZone_locates cleared located, fun _ _ _ _ same => by cases same⟩
    | gcInsert => exact knows.elim
    | turnedAway | lock | pop | popped | mark | gcEnough | gcShort | gcDone | gcTake =>
        exact ⟨located, fun _ _ _ _ same => by cases same⟩
    | gcSkip | gcAcquire | gcScanned | gcRead | gcWrite | gcReset | gcCount | leave =>
        exact ⟨located, fun _ _ _ _ same => by cases same⟩
  cases moved with
  | call | callEvict => exact .inl ⟨located, fun _ _ _ _ same => by cases same⟩
  | wakeUp other =>
      exact .inl ⟨(CacheMap.wakeUp_locates _ thread other).2.2 id location located,
        fun _ _ _ _ same => by cases same⟩
  | get ran =>
      rcases ran.locates small agrees located with before | here
      · exact .inl ⟨before, fun _ _ _ _ same => by cases same⟩
      · exact .inr (by rw [here])
  | evict caller code ran => exact .inl (evicting (chunkEvictStep_spec ran) knows)
  | evicted caller ran => exact .inl (evicting (chunkEvictStep_spec ran) knows)

end Step

/-! ## Runs -/

section Run

variable [Fintype Thread] [DecidableEq Thread] {config : CacheConfig}
  {system next : ChunkSystem Thread} {bound maxChunks : Nat}

theorem EvictSound.placedQueued (ids : bound ≤ 2 ^ 32) {action : Thread × Choice}
    (sound : EvictSound bound maxChunks system)
    (queued : ∀ place, Placed system place → QueuedOrPopped system place)
    (inserted : ClearsInserted system action)
    (taken : system.step (chunkCode config) action = some next) (place : Slot)
    (placed : Placed next place) : QueuedOrPopped next place := by
  obtain ⟨thread, choice⟩ := action
  obtain ⟨cache, pc, rfl, moved⟩ := System.step_spec taken
  have small : ∀ id ∈ (system.threads thread).seeks, id < 2 ^ 32 := fun id member =>
    Nat.lt_of_lt_of_le (sound.map.seeks thread id member) ids
  have absent : ∀ id location, system.threads thread = .get (.record id location) →
      location.place ∉ system.cache.evictionPolicy.lruQueue.items := fun _ _ => sound.absent
  -- either the place was placed before and is not the one cleared now, or it is queued now
  have before : (Placed system place ∧ ∀ caller i nr pair,
      system.threads thread = .evict caller (.clear i nr pair) → place ≠ pair.place) ∨
      place ∈ cache.evictionPolicy.lruQueue.items := by
    rcases placed with ⟨id, location, located, same⟩ | ⟨other, id, location, there, same⟩
    · rcases moved.chunkLocates small (sound.map.split thread) sound.custody.custody.listed
        (sound.knows thread) located with ⟨earlier, apart⟩ | inserts
      · exact .inl ⟨.inl ⟨id, location, earlier, same⟩,
          fun caller i nr pair here => same ▸ apart caller i nr pair here⟩
      · refine .inl ⟨.inr ⟨thread, id, location, inserts, same⟩, fun caller i nr pair here => ?_⟩
        rw [inserts] at here
        cases here
    · by_cases mover : other = thread
      · subst mover
        simp only [System.advance, Function.update_self] at there
        subst there
        generalize system.threads other = here at moved absent
        generalize last : (ThreadPc.get (.insert id location) : ThreadPc ChunkEvictPc) = pc at moved
        cases moved with
        | call | callEvict | wakeUp | evict => cases last
        | evicted caller => cases caller <;> cases last
        | get ran =>
            right
            rw [← same]
            exact (ran.keepsQueued sound.policy.named
              fun id location same => absent id location (by rw [same])).2 id location last.symm
      · simp only [System.advance, Function.update_of_ne mover] at there
        exact .inl ⟨.inr ⟨other, id, location, there, same⟩, fun caller i nr pair here equal =>
          inserted caller i nr pair here other id location there (same.trans equal)⟩
  have mine : (place ∈ system.cache.evictionPolicy.lruQueue.items ∨
      (system.threads thread).popped = some place) →
      (∀ caller i nr pair, system.threads thread = .evict caller (.clear i nr pair) →
        place ≠ pair.place) → QueuedOrPopped (system.advance thread cache pc) place := by
    intro here apart
    rcases moved.keepsQueued sound.policy.named (sound.knows thread) absent here with
      (kept | popped) | ⟨caller, i, nr, pair, clears, same⟩
    · exact .inl kept
    · exact .inr ⟨thread, by simpa [System.advance] using popped⟩
    · exact absurd same (apart caller i nr pair clears)
  rcases before with ⟨earlier, apart⟩ | now
  · rcases queued place earlier with member | ⟨other, popped⟩
    · exact mine (.inl member) apart
    · by_cases mover : other = thread
      · subst mover
        exact mine (.inr popped) apart
      · exact .inr ⟨other, by simpa [System.advance, mover] using popped⟩
  · exact .inl now

omit [Fintype Thread] [DecidableEq Thread] in
theorem LocatedListed.ncard_located {map : CacheMap Thread} (listed : LocatedListed map)
    {places : List Slot} (once : places.Nodup)
    (located : ∀ place, place ∈ places ↔
      ∃ id location, map.Locates id location ∧ location.place = place) :
    {id | ∃ location, map.Locates id location}.ncard = places.length := by
  have determined : ∀ {id one two}, map.Locates id one → map.Locates id two → one = two := by
    intro id one two first second
    obtain ⟨entry, found, _, rfl⟩ := first
    obtain ⟨other, again, _, rfl⟩ := second
    rw [Option.some.inj (found.symm.trans again)]
  have card : {id | ∃ location, map.Locates id location}.ncard =
      (places.toFinset : Set Slot).ncard := by
    refine Set.ncard_congr (fun id here => (Exists.choose here).place) ?_ ?_ ?_
    · intro id here
      exact List.mem_toFinset.mpr
        ((located _).mpr ⟨id, Exists.choose here, Exists.choose_spec here, rfl⟩)
    · intro one two first second same
      obtain ⟨sameZone, sameChunk⟩ := Prod.mk.inj same
      have mine := listed one _ (Exists.choose_spec first)
      rw [sameZone, sameChunk, listed two _ (Exists.choose_spec second)] at mine
      exact (Option.some.inj mine).symm
    · intro place member
      obtain ⟨id, location, here, rfl⟩ := (located place).mp (List.mem_toFinset.mp member)
      refine ⟨id, ⟨location, here⟩, ?_⟩
      rw [determined (Exists.choose_spec ⟨location, here⟩) here]
  rw [card, Set.ncard_coe_finset, List.toFinset_card_of_nodup once]

theorem EvictSound.queued_of_reach (fits : config.maxZoneChunks < 2 ^ 32)
    (reached : ChunkRun config EvictsSettled system) (place : Slot) :
    QueuedOrPopped system place ↔ Placed system place := by
  have sound := EvictSound.of_reach fits reached
  refine ⟨sound.placed place, ?_⟩
  clear sound
  induction reached generalizing place with
  | start begins =>
      obtain ⟨_, _, emptyMap, _, idle⟩ := System.init_spec begins
      intro placed
      rcases placed with ⟨id, location, ⟨_, found, _⟩, _⟩ | ⟨thread, id, location, there, _⟩
      · rw [emptyMap] at found
        cases found
      · rw [idle thread] at there
        cases there
  | step action before settled taken ih =>
      exact (EvictSound.of_reach fits before).placedQueued (by decide) ih settled.2.2.2 taken place

end Run

/-- A thread misses identifier 7, another evicts its chunk and reclaims the zone, and the
first misses identifier 9. -/
def missAfterReclaim (worker evictor : Thread) : List (Thread × Choice) :=
  (worker, .get 7) :: List.replicate 7 (worker, .run .smooth) ++
    (evictor, .evict) :: List.replicate 14 (evictor, .run .smooth) ++
    (worker, .get 9) :: List.replicate 7 (worker, .run .smooth)

end ZNCache
