import ZNCache.ChunkQueue

/-!
# Chunks that an eviction clears

A queued chunk is located at its place in the cache map, unless the thread that wrote
it has yet to insert it.  As long as no such chunk is cleared, and the GC moves no chunk
and clears no zone with a chunk under way, every clearing finds its identifier at
exactly its place.
-/

set_option autoImplicit false

namespace ZNCache

open Tally Transition ZnPolicyChunk Duties

variable {Thread : Type}

/-! ## The policy among the threads -/

structure PolicySound (maxChunks : Nat) (policy : ZnPolicyChunk Thread) : Prop where
  named : SlotsNamed policy
  inChunks : ∀ place ∈ policy.lruQueue.items, 0 < maxChunks → place.2 < maxChunks
  inHeap : policy.invalidPqueue.zones ≠ [] → 0 < maxChunks

/-- What the eviction knows at each of its sections while the GC moves nothing. -/
def ChunkEvictPc.Knows (maxChunks : Nat) (policy : ZnPolicyChunk Thread) : ChunkEvictPc → Prop
  | mark _ _ pair | clear _ _ pair => pair.place ∉ policy.lruQueue.items
  | gcScan zone chunk =>
      0 < maxChunks ∧ ∀ earlier < chunk, (policy.slot (zone, earlier)).inUse = false
  | gcClear zone => 0 < maxChunks ∧ NoneInUse policy zone
  | gcRead _ _ _ | gcWrite _ _ _ _ | gcInsert _ _ _ => False
  | start | pop _ _ | gcStart | gcLoop _ | gcReset _ | gcCount | leave => True

def ThreadPc.Knows (maxChunks : Nat) (policy : ZnPolicyChunk Thread) :
    ThreadPc ChunkEvictPc → Prop
  | get (.record _ location) => 0 < maxChunks → location.chunkOffset < maxChunks
  | idle | get _ => True
  | evict _ code => code.Knows maxChunks policy

def ChunkEvictPc.popped : ChunkEvictPc → Option Slot
  | mark _ _ pair | clear _ _ pair => some pair.place
  | _ => none

def ThreadPc.popped : ThreadPc ChunkEvictPc → Option Slot
  | idle | get _ => none
  | evict _ code => code.popped

section Policy

variable [DecidableEq Thread] {config : CacheConfig} {thread : Thread}
  {cache after : ChunkCache Thread} {environment : Environment} {maxChunks : Nat}

theorem GetStep.policySound {pc : GetPc} {next : ThreadPc ChunkEvictPc}
    (taken : GetStep (chunkCode config) thread cache environment pc after next)
    (sound : PolicySound maxChunks cache.evictionPolicy)
    (sameMax : cache.evictionPolicy.maxZoneChunks = maxChunks)
    (absent : ∀ id location, pc = .record id location →
      location.place ∉ cache.evictionPolicy.lruQueue.items)
    (offsets : ∀ id location, pc = .giveBack id location → 0 < maxChunks →
      location.chunkOffset < maxChunks)
    (knows : (ThreadPc.get pc).Knows maxChunks cache.evictionPolicy) :
    PolicySound maxChunks after.evictionPolicy ∧
      next.Knows maxChunks after.evictionPolicy ∧
      ∀ place ∈ after.evictionPolicy.lruQueue.items,
        place ∈ cache.evictionPolicy.lruQueue.items ∨
        ∃ id location, next = .get (.insert id location) ∧ location.place = place := by
  cases taken with
  | find id =>
      refine ⟨sound, ?_, fun _ => .inl⟩
      cases (znCachemapFind thread cache.cacheMap id).1 <;> trivial
  | acquire id =>
      refine ⟨sound, ?_, fun _ => .inl⟩
      generalize (zsmGetActiveZone environment.commandRet cache.zoneState).ret = ret
      cases ret <;> trivial
  | touch id location data policy updated =>
      obtain ⟨named, same⟩ := sound.named.update_read updated
      obtain ⟨heap, _, _, _⟩ := znPolicyChunkUpdate_read updated
      refine ⟨⟨named, ?_, ?_⟩, trivial, ?_⟩
      · exact fun place member => sound.inChunks place (same.mem_iff.mp member)
      · exact heap ▸ sound.inHeap
      · exact fun place member => .inl (same.mem_iff.mp member)
  | giveBack id location => exact ⟨sound, offsets id location rfl, fun _ => .inl⟩
  | record id location policy updated =>
      obtain ⟨named, items⟩ := sound.named.update_write (absent id location rfl) updated
      refine ⟨⟨named, fun place member positive => ?_, fun someZone => ?_⟩, trivial,
        fun place member => ?_⟩
      · rw [items, List.mem_append, List.mem_singleton] at member
        rcases member with before | rfl
        · exact sound.inChunks place before positive
        · exact knows positive
      · have ran : znPolicyChunkUpdate cache.evictionPolicy location .write = some policy :=
          updated
        unfold znPolicyChunkUpdate at ran
        dsimp only at ran
        split at ran
        next => cases ran
        next =>
            split at ran
            next last => omega
            next =>
                cases Option.some.inj ran
                exact sound.inHeap someZone
      · rw [items, List.mem_append, List.mem_singleton] at member
        rcases member with before | here
        · exact .inl before
        · exact .inr ⟨id, location, rfl, here.symm⟩
  | woken | read | release | countHit | write => exact ⟨sound, trivial, fun _ => .inl⟩
  | writeFailed | countMiss | insert | undoZone => exact ⟨sound, trivial, fun _ => .inl⟩
  | undoMap => exact ⟨sound, trivial, fun _ => .inl⟩

def knowsAfter (maxChunks : Nat) (policy : ZnPolicyChunk Thread) : Option ChunkEvictPc → Prop
  | some code => code.Knows maxChunks policy
  | none => True

def poppedAfter : Option ChunkEvictPc → Option Slot
  | some code => code.popped
  | none => none

omit [DecidableEq Thread] in
theorem ChunkEvictStep.policySound {pc : ChunkEvictPc} {next : Option ChunkEvictPc}
    (taken : ChunkEvictStep config thread cache environment pc after next)
    (sound : PolicySound maxChunks cache.evictionPolicy)
    (sameMax : cache.evictionPolicy.maxZoneChunks = maxChunks)
    (unmoved : ∀ zone chunk, pc = .gcScan zone chunk → chunk < maxChunks →
      (cache.evictionPolicy.slot (zone, chunk)).inUse = false)
    (knows : pc.Knows maxChunks cache.evictionPolicy) :
    PolicySound maxChunks after.evictionPolicy ∧
      knowsAfter maxChunks after.evictionPolicy next ∧
      ∀ place, place ∈ after.evictionPolicy.lruQueue.items ∨ poppedAfter next = some place →
        place ∈ cache.evictionPolicy.lruQueue.items ∨
        pc.popped = some place := by
  have queued : ∀ {place : Slot}, place ∈ cache.evictionPolicy.lruQueue.items ∨
      (none : Option Slot) = some place →
      place ∈ cache.evictionPolicy.lruQueue.items ∨
        pc.popped = some place := by
    intro place either
    rcases either with member | nothing
    · exact .inl member
    · cases nothing
  cases taken with
  | lock nr unheld =>
      refine ⟨⟨sound.named.congr rfl rfl rfl, sound.inChunks, sound.inHeap⟩, trivial, ?_⟩
      exact fun place => queued
  | pop i nr pair policy evicted =>
      obtain ⟨named, items, absent⟩ := sound.named.evictChunk evicted
      have zones := (evictChunk_zones evicted).1
      refine ⟨⟨named, fun place member => ?_, fun someZone => ?_⟩, absent, ?_⟩
      · exact sound.inChunks place (by rw [items]; exact List.mem_cons_of_mem _ member)
      · apply sound.inHeap
        intro empty
        rw [empty] at zones
        exact someZone zones.eq_nil
      · intro place either
        rcases either with member | same
        · left
          rw [items]
          exact List.mem_cons_of_mem _ member
        · left
          rw [items, ← Option.some.inj same]
          exact List.mem_cons_self
  | mark i nr pair => exact ⟨sound, knows, fun _ => id⟩
  | gcTake freeZones handle heap extracted =>
      have zones := ZnMinheap.zones_extractMin extracted
      have someZone : cache.evictionPolicy.invalidPqueue.zones ≠ [] := by
        intro empty
        rw [empty] at zones
        exact List.cons_ne_nil _ _ zones.nil_eq.symm
      have positive := sound.inHeap someZone
      refine ⟨⟨sound.named.congr rfl rfl rfl, sound.inChunks, fun _ => positive⟩,
        ⟨positive, fun earlier below => absurd below (Nat.not_lt_zero _)⟩, fun _ => queued⟩
  | gcSkip zone chunk inZone unused =>
      refine ⟨sound, ⟨knows.1, fun earlier below => ?_⟩, fun _ => queued⟩
      rcases Nat.lt_succ_iff_lt_or_eq.mp below with before | rfl
      · exact knows.2 earlier before
      · exact unused
  | gcAcquire zone chunk location inZone used handed =>
      rw [unmoved zone chunk rfl (sameMax ▸ inZone)] at used
      cases used
  | gcScanned zone chunk atEnd =>
      refine ⟨sound, ⟨knows.1, fun earlier below => ?_⟩, fun _ => queued⟩
      exact knows.2 earlier (Nat.lt_of_lt_of_le below atEnd)
  | gcRead | gcWrite | gcInsert => exact knows.elim
  | leave => exact ⟨⟨sound.named.congr rfl rfl rfl, sound.inChunks, sound.inHeap⟩, trivial,
      fun _ => queued⟩
  | turnedAway | popped | clear => exact ⟨sound, trivial, fun _ => queued⟩
  | gcEnough | gcShort | gcDone => exact ⟨sound, trivial, fun _ => queued⟩
  | gcClear | gcReset | gcCount => exact ⟨sound, trivial, fun _ => queued⟩

end Policy

/-! ## Where queued chunks are found -/

/-- The identifier of the place is located there, or its writer is about to insert it. -/
def Placed (system : ChunkSystem Thread) (place : Slot) : Prop :=
  (∃ id location, system.cache.cacheMap.Locates id location ∧ location.place = place) ∨
    ∃ thread id location, system.threads thread = .get (.insert id location) ∧
      location.place = place

def Inserted (system : ChunkSystem Thread) (place : Slot) : Prop :=
  ∀ thread id location, system.threads thread = .get (.insert id location) →
    location.place ≠ place

/-- Clearing the chunk finds an identifier located at exactly its place, fails no
assertion and empties the entry of that identifier alone. -/
def ClearsMapped (map : CacheMap Thread) (pair : ZnPair) : Prop :=
  ∃ id entry, (map.dataMap pair.zone).lookup pair.chunkOffset = some id ∧
    map.zoneMap id = some entry ∧ entry.type = .loc ∧ entry.location.place = pair.place ∧
    ∃ answer, znCachemapClearChunk map pair = some answer ∧ answer.asserts = true ∧
      answer.state.zoneMap = Function.update map.zoneMap id (some entry.emptied)

section Threads

variable [DecidableEq Thread] {config : CacheConfig} {thread : Thread}
  {cache after : ChunkCache Thread} {environment : Environment} {others : Multiset Nat}

theorem GetStep.keepsLocated {pc : GetPc} {next : ThreadPc ChunkEvictPc}
    (taken : GetStep (chunkCode config) thread cache environment pc after next)
    (small : ∀ id ∈ pc.seeks, id < 2 ^ 32)
    (agrees : CacheMapAgrees cache.cacheMap (pc.writes + others)) :
    (∀ id location, cache.cacheMap.Locates id location →
      after.cacheMap.Locates id location) ∧
    ∀ id location, pc = .insert id location → after.cacheMap.Locates id location := by
  cases taken with
  | find id =>
      have found := znCachemapFind_spec thread cache.cacheMap (small id (by simp [GetPc.seeks]))
      exact ⟨fun _ _ located => found.keepsLocated located, fun _ _ same => by cases same⟩
  | insert id location answer inserted =>
      rw [GetPc.writes, Multiset.singleton_add] at agrees
      cases Option.some.inj (inserted.symm.trans (agrees.insert location))
      refine ⟨fun _ _ located => agrees.located_keeps location located, fun _ _ same => ?_⟩
      cases same
      exact CacheMap.located_self id location
  | undoMap id answer failed =>
      rw [GetPc.writes, Multiset.singleton_add] at agrees
      exact ⟨fun _ _ located => agrees.fail_keeps failed located, fun _ _ same => by cases same⟩
  | release id location data =>
      exact ⟨fun _ _ located => located, fun _ _ same => by cases same⟩
  | woken | read | touch | countHit | acquire | write =>
      exact ⟨fun _ _ located => located, fun _ _ same => by cases same⟩
  | writeFailed | countMiss | giveBack | record | undoZone =>
      exact ⟨fun _ _ located => located, fun _ _ same => by cases same⟩

omit [DecidableEq Thread] in
theorem ChunkEvictStep.map {pc : ChunkEvictPc} {next : Option ChunkEvictPc} {maxChunks : Nat}
    (taken : ChunkEvictStep config thread cache environment pc after next)
    (agrees : CacheMapAgrees cache.cacheMap others)
    (listed : LocatedListed cache.cacheMap)
    (knows : pc.Knows maxChunks cache.evictionPolicy)
    (located : ∀ i nr pair, pc = .clear i nr pair →
      ∃ id location, cache.cacheMap.Locates id location ∧ location.place = pair.place) :
    CacheMapAgrees after.cacheMap others ∧
      (∀ id, cache.cacheMap.zoneMap id = none → after.cacheMap.zoneMap id = none) ∧
      ∀ id location, cache.cacheMap.Locates id location →
        (∀ i nr pair, pc = .clear i nr pair → location.place ≠ pair.place) →
        (∀ zone, pc = .gcClear zone → location.zone ≠ cache.zoneId zone) →
        after.cacheMap.Locates id location := by
  cases taken with
  | clear i nr pair answer cleared =>
      obtain ⟨id, location, ⟨entry, found, isLoc, rfl⟩, there⟩ := located i nr pair rfl
      obtain ⟨sameZone, sameChunk⟩ := Prod.mk.inj there
      have stored := listed id entry.location ⟨entry, found, isLoc, rfl⟩
      rw [sameZone, sameChunk] at stored
      have low := agrees.clearChunk_low stored (agrees.keySmall id entry found) cleared
      have ran := (listed.clearChunk low found isLoc sameZone sameChunk).2
      cases Option.some.inj (cleared.symm.trans ran)
      refine ⟨agrees.clearChunk found isLoc sameZone sameChunk, fun other absent => ?_, ?_⟩
      · have apart : other ≠ id := by
          intro same
          subst same
          rw [found] at absent
          cases absent
        simpa [apart] using absent
      · intro other place given elsewhere _
        obtain ⟨old, oldFound, oldLoc, oldThere⟩ := given
        have apart : other ≠ id := by
          intro same
          subst same
          cases Option.some.inj (found.symm.trans oldFound)
          exact elsewhere i nr pair rfl (oldThere ▸ there)
        exact ⟨old, by simpa [apart] using oldFound, oldLoc, oldThere⟩
  | gcClear zone answer cleared =>
      refine ⟨agrees.clearZone cleared, fun id absent => ?_, fun id location here _ elsewhere =>
        agrees.clearZone_keeps cleared (elsewhere zone rfl) here⟩
      simp only [(agrees.smallKeys.clearZone_state cleared).1 id, absent]
      simp
  | gcInsert => exact knows.elim
  | turnedAway | lock | pop | popped | mark | gcEnough =>
      exact ⟨agrees, fun _ => id, fun _ _ here _ _ => here⟩
  | gcShort | gcDone | gcTake | gcSkip | gcAcquire | gcScanned =>
      exact ⟨agrees, fun _ => id, fun _ _ here _ _ => here⟩
  | gcRead | gcWrite | gcReset | gcCount | leave =>
      exact ⟨agrees, fun _ => id, fun _ _ here _ _ => here⟩

end Threads

/-! ## Runs -/

section Step

variable [DecidableEq Thread] {config : CacheConfig} {thread : Thread}
  {cache after : ChunkCache Thread} {maxChunks : Nat}

theorem ThreadStep.policySound {choice : Choice} {pc next : ThreadPc ChunkEvictPc}
    (taken : ThreadStep (chunkCode config) thread cache pc choice after next)
    (sound : PolicySound maxChunks cache.evictionPolicy)
    (sameMax : cache.evictionPolicy.maxZoneChunks = maxChunks)
    (absent : ∀ id location, pc = .get (.record id location) →
      location.place ∉ cache.evictionPolicy.lruQueue.items)
    (offsets : ∀ id location, pc = .get (.giveBack id location) → 0 < maxChunks →
      location.chunkOffset < maxChunks)
    (unmoved : ∀ caller zone chunk, pc = .evict caller (.gcScan zone chunk) →
      chunk < maxChunks → (cache.evictionPolicy.slot (zone, chunk)).inUse = false)
    (knows : pc.Knows maxChunks cache.evictionPolicy) :
    PolicySound maxChunks after.evictionPolicy ∧ next.Knows maxChunks after.evictionPolicy ∧
      ∀ place, place ∈ after.evictionPolicy.lruQueue.items ∨ next.popped = some place →
        (place ∈ cache.evictionPolicy.lruQueue.items ∨ pc.popped = some place) ∨
        ∃ id location, next = .get (.insert id location) ∧ location.place = place := by
  cases taken with
  | call | callEvict | wakeUp =>
      refine ⟨sound, trivial, fun place member => .inl (.inl ?_)⟩
      exact member.resolve_right fun popped => by cases popped
  | get ran =>
      have unpopped : next.popped = none := by
        cases ran with
        | find id => cases (znCachemapFind thread cache.cacheMap id).1 <;> rfl
        | @acquire id =>
            generalize (zsmGetActiveZone _ cache.zoneState).ret = ret
            cases ret <;> rfl
        | _ => rfl
      obtain ⟨kept, knowsNext, queued⟩ := ran.policySound sound sameMax
        (fun id location same => absent id location (by rw [same]))
        (fun id location same => offsets id location (by rw [same])) knows
      refine ⟨kept, knowsNext, fun place member => ?_⟩
      rw [unpopped] at member
      rcases queued place (member.resolve_right (by simp)) with before | recorded
      · exact .inl (.inl before)
      · exact .inr recorded
  | evict caller code ran =>
      obtain ⟨kept, knowsNext, queued⟩ := (chunkEvictStep_spec ran).policySound sound sameMax
        (fun zone chunk same => unmoved caller zone chunk (by rw [same])) knows
      exact ⟨kept, knowsNext, fun place member => .inl (queued place member)⟩
  | evicted caller ran =>
      obtain ⟨kept, _, queued⟩ := (chunkEvictStep_spec ran).policySound sound sameMax
        (fun zone chunk same => unmoved caller zone chunk (by rw [same])) knows
      cases caller with
      | none => exact ⟨kept, trivial, fun place member => .inl (queued place member)⟩
      | some id => exact ⟨kept, trivial, fun place member => .inl (queued place member)⟩

/-- The clearing of a chunk is the end of it. -/
theorem ThreadStep.clearsChunk {choice : Choice} {next : ThreadPc ChunkEvictPc}
    {caller : Option Nat} {i nr : Nat} {pair : ZnPair}
    (taken : ThreadStep (chunkCode config) thread cache (.evict caller (.clear i nr pair)) choice
      after next) : after.evictionPolicy = cache.evictionPolicy ∧ next.popped = none := by
  cases taken with
  | evict _ code ran =>
      rename_i environment
      have ran : chunkEvictStep config thread cache environment (.clear i nr pair) =
        some (after, some code) := ran
      cases chunkEvictStep_spec ran with
      | clear => exact ⟨rfl, rfl⟩
  | evicted _ ran =>
      rename_i environment
      have ran : chunkEvictStep config thread cache environment (.clear i nr pair) =
        some (after, none) := ran
      cases chunkEvictStep_spec ran

omit [DecidableEq Thread] in
theorem ThreadPc.Knows.congr {pc : ThreadPc ChunkEvictPc} {policy policy' : ZnPolicyChunk Thread}
    (knows : pc.Knows maxChunks policy) (unlocked : pc.locked = false) :
    pc.Knows maxChunks policy' := by
  cases pc with
  | idle => trivial
  | get pc => cases pc <;> exact knows
  | evict caller code => cases code <;> trivial

theorem ThreadPc.locked_of_popped {pc : ThreadPc ChunkEvictPc} {place : Slot}
    (popped : pc.popped = some place) : pc.locked = true := by
  cases pc with
  | idle | get => cases popped
  | evict caller code => cases code <;> first | rfl | cases popped

end Step

section Run

variable [Fintype Thread] [DecidableEq Thread] {config : CacheConfig}
  {system next : ChunkSystem Thread} {bound maxChunks : Nat}

def GcMigratesNothing (system : ChunkSystem Thread) (action : Thread × Choice) : Prop :=
  ∀ caller zone chunk, system.threads action.1 = .evict caller (.gcScan zone chunk) →
    chunk < system.cache.evictionPolicy.maxZoneChunks →
    (system.cache.evictionPolicy.slot (zone, chunk)).inUse = false

def ClearsInserted (system : ChunkSystem Thread) (action : Thread × Choice) : Prop :=
  ∀ caller i nr pair, system.threads action.1 = .evict caller (.clear i nr pair) →
    Inserted system pair.place

def EvictsSettled (system : ChunkSystem Thread) (action : Thread × Choice) : Prop :=
  GetsBelow (2 ^ 31) action ∧ GcSettled system action ∧ GcMigratesNothing system action ∧
    ClearsInserted system action

theorem CustodySound.place_unique (sound : CustodySound maxChunks system) {one two : Thread}
    {first second : Nat × ZnPair} (mine : first ∈ (system.threads one).pending)
    (yours : second ∈ (system.threads two).pending)
    (same : first.2.place = second.2.place) : one = two := by
  by_contra different
  have once := (sound.split one).pendingOnce
  rw [add_pending, Multiset.map_add, Multiset.nodup_add, ThreadPc.duties_pending] at once
  refine Multiset.disjoint_left.mp once.2.2 (Multiset.mem_map_of_mem _ mine) ?_
  rw [same]
  exact Multiset.mem_map_of_mem _
    (mem_others_pending.mpr ⟨two, Ne.symm different, yours⟩)

/-- Nothing is located yet where a thread has a chunk pending. -/
theorem CustodySound.unlocated (sound : CustodySound maxChunks system) {thread : Thread}
    {chunk : Nat × ZnPair} (mine : chunk ∈ (system.threads thread).pending) {id : Nat}
    {location : ZnPair} (located : system.cache.cacheMap.Locates id location) :
    location.place ≠ chunk.2.place := by
  apply (sound.split thread).pendingFresh chunk _ id location located
  rw [add_pending, ThreadPc.duties_pending]
  exact Multiset.mem_add.mpr (.inl mine)

structure EvictSound (bound maxChunks : Nat) (system : ChunkSystem Thread) : Prop where
  custody : CustodySound maxChunks system
  map : MapSound bound system
  exclusive : Exclusive system
  policy : PolicySound maxChunks system.cache.evictionPolicy
  knows : ∀ thread, (system.threads thread).Knows maxChunks system.cache.evictionPolicy
  placed : ∀ place, (place ∈ system.cache.evictionPolicy.lruQueue.items ∨
    ∃ thread, (system.threads thread).popped = some place) → Placed system place

omit [DecidableEq Thread] in
theorem EvictSound.init (begins : chunkSystem config = some system) :
    EvictSound bound config.maxZoneChunks system := by
  obtain ⟨_, _, _, policy, idle⟩ := System.init_spec begins
  refine ⟨CustodySound.init begins, MapSound.init begins, fun thread locked => ?_, ?_,
    fun thread => ?_, fun place queued => ?_⟩
  · rw [idle thread] at locked
    cases locked
  · rw [policy]
    exact ⟨SlotsNamed.init _ _, by simp [chunkInit],
      by simp [chunkInit, znMinheapInit, ZnMinheap.zones]⟩
  · rw [idle thread]
    trivial
  · exfalso
    rcases queued with member | ⟨thread, popped⟩
    · rw [policy] at member
      simp [chunkInit] at member
    · rw [idle thread] at popped
      cases popped

omit [DecidableEq Thread] in
theorem EvictSound.low (sound : EvictSound bound maxChunks system) (id : Nat)
    (entry : ZoneMapResult Thread) (found : system.cache.cacheMap.zoneMap id = some entry) :
    id < bound := by
  by_contra above
  rw [sound.map.keys id (Nat.le_of_not_lt above)] at found
  cases found

/-- Two chunks are never on their way to one place. -/
theorem EvictSound.absent (sound : EvictSound bound maxChunks system) {thread : Thread} {id : Nat}
    {location : ZnPair} (here : system.threads thread = .get (.record id location)) :
    location.place ∉ system.cache.evictionPolicy.lruQueue.items := by
  intro queued
  have mine : (id, location) ∈ (system.threads thread).pending := by
    rw [here]
    exact Multiset.mem_singleton_self _
  rcases sound.placed _ (.inl queued) with ⟨other, place, located, same⟩ |
    ⟨other, writes, place, there, same⟩
  · exact sound.custody.unlocated mine located same
  · have yours : (writes, place) ∈ (system.threads other).pending := by
      rw [there]
      exact Multiset.mem_singleton_self _
    cases sound.custody.place_unique mine yours same.symm
    rw [here] at there
    cases there

omit [DecidableEq Thread] in
theorem EvictSound.located (sound : EvictSound bound maxChunks system) {thread : Thread}
    {place : Slot} (popped : (system.threads thread).popped = some place)
    (inserted : Inserted system place) :
    ∃ id location, system.cache.cacheMap.Locates id location ∧ location.place = place := by
  rcases sound.placed place (.inr ⟨thread, popped⟩) with located |
    ⟨other, id, location, there, same⟩
  · exact located
  · exact absurd same (inserted other id location there)

theorem EvictSound.keepsMap (sound : EvictSound bound maxChunks system) {action : Thread × Choice}
    (inserted : ClearsInserted system action) :
    (chunkCode config).KeepsMapAt action.1 system.cache (system.threads action.1) := by
  have step : ∀ {caller here environment after next writers},
      system.threads action.1 = .evict caller here →
      (chunkCode config).evictStep action.1 system.cache here environment =
        some (after, next) → CacheMapAgrees system.cache.cacheMap writers →
      CacheMapAgrees after.cacheMap writers ∧
        ∀ id, system.cache.cacheMap.zoneMap id = none → after.cacheMap.zoneMap id = none := by
    intro caller here environment after next writers at' ran agrees
    have knows := sound.knows action.1
    rw [at'] at knows
    obtain ⟨kept, keys, _⟩ := (chunkEvictStep_spec ran).map agrees sound.custody.custody.listed
      knows (by
        intro i nr pair same
        subst same
        apply sound.located (by rw [at']; rfl)
        exact inserted caller i nr pair at')
    exact ⟨kept, keys⟩
  exact ⟨fun at' ran agrees => (step at' ran agrees).1,
    fun at' ran agrees => (step at' ran agrees).2⟩

/-- A place stays placed unless its chunk or its zone is cleared. -/
theorem EvictSound.keepsPlaced (fits : bound ≤ 2 ^ 32)
    (sound : EvictSound bound maxChunks system) {thread : Thread} {choice : Choice}
    {cache : ChunkCache Thread} {pc : ThreadPc ChunkEvictPc}
    (moved : ThreadStep (chunkCode config) thread system.cache (system.threads thread) choice
      cache pc) (inserted : ClearsInserted system (thread, choice)) {place : Slot}
    (chunkApart : ∀ caller i nr pair, system.threads thread = .evict caller (.clear i nr pair) →
      place ≠ pair.place)
    (zoneApart : ∀ caller zone, system.threads thread = .evict caller (.gcClear zone) →
      place.1 ≠ ChunkCache.zoneId system.cache zone)
    (placed : Placed system place) : Placed (system.advance thread cache pc) place := by
  have knows := sound.knows thread
  have small : ∀ id ∈ (system.threads thread).seeks, id < 2 ^ 32 := fun id member =>
    Nat.lt_of_lt_of_le (sound.map.seeks thread id member) fits
  have agrees := sound.map.split thread
  have effect : (∀ id location, system.cache.cacheMap.Locates id location →
      location.place = place → cache.cacheMap.Locates id location) ∧
      ∀ id location, system.threads thread = .get (.insert id location) →
        cache.cacheMap.Locates id location := by
    have evicts : ∀ caller code environment after next,
        system.threads thread = .evict caller code →
        chunkEvictStep config thread system.cache environment code = some (after, next) →
        ∀ id location, system.cache.cacheMap.Locates id location → location.place = place →
          after.cacheMap.Locates id location := by
      intro caller code environment after next here ran id location located same
      rw [here] at knows agrees
      refine ((chunkEvictStep_spec ran).map agrees sound.custody.custody.listed knows
        ?_).2.2 id location located ?_ ?_
      · intro i nr pair equal
        subst equal
        apply sound.located (by rw [here]; rfl)
        exact inserted caller i nr pair here
      · intro i nr pair equal
        subst equal
        rw [same]
        exact chunkApart caller i nr pair here
      · intro zone equal
        subst equal
        have apart := zoneApart caller zone here
        rw [← same] at apart
        exact apart
    generalize here : system.threads thread = before at moved knows small agrees evicts
    cases moved with
    | call | callEvict => exact ⟨fun _ _ located _ => located, fun _ _ same => by cases same⟩
    | wakeUp id =>
        exact ⟨fun _ _ located _ => CacheMap.wakeUp_keepsLocated thread located,
          fun _ _ same => by cases same⟩
    | get ran =>
        obtain ⟨kept, insertedNow⟩ := ran.keepsLocated small agrees
        refine ⟨fun id location located _ => kept id location located, fun id location same => ?_⟩
        exact insertedNow id location (by cases same; rfl)
    | evict caller code ran =>
        exact ⟨evicts caller _ _ _ _ rfl ran, fun _ _ same => by cases same⟩
    | evicted caller ran =>
        exact ⟨evicts caller _ _ _ _ rfl ran, fun _ _ same => by cases same⟩
  rcases placed with ⟨id, location, located, same⟩ | ⟨other, id, location, there, same⟩
  · exact .inl ⟨id, location, effect.1 id location located same, same⟩
  · by_cases mover : other = thread
    · subst mover
      exact .inl ⟨id, location, effect.2 id location there, same⟩
    · refine .inr ⟨other, id, location, ?_, same⟩
      simpa [System.advance, mover] using there

theorem EvictSound.step (fits : config.maxZoneChunks < 2 ^ 32) (ids : bound ≤ 2 ^ 32)
    {action : Thread × Choice} (sound : EvictSound bound config.maxZoneChunks system)
    (below : GetsBelow bound action) (gcSettled : GcSettled system action)
    (migrates : GcMigratesNothing system action) (inserted : ClearsInserted system action)
    (taken : system.step (chunkCode config) action = some next) :
    EvictSound bound config.maxZoneChunks next := by
  have custody := sound.custody.step fits gcSettled taken
  have map := sound.map.step (sound.keepsMap inserted) ids below taken
  have exclusive := sound.exclusive.step taken
  have sameMax := sound.custody.custody.policyMax
  obtain ⟨thread, choice⟩ := action
  obtain ⟨cache, pc, rfl, moved⟩ := System.step_spec taken
  obtain ⟨policy, knows, queued⟩ := moved.policySound sound.policy sameMax
    (fun id location here => sound.absent here)
    (fun id location here positive => by
      have split := sound.custody.split thread
      rw [here] at split
      have isOpen : OpenZone system.cache.zoneState
          (((ThreadPc.get (.giveBack id location)).duties config.maxZoneChunks : Duties) +
            others (ThreadPc.duties config.maxZoneChunks) system.threads thread)
          location.zone := .inr (by simp [ThreadPc.duties, GetPc.duties, takes])
      rw [split.offsets location (by simp [ThreadPc.duties, GetPc.duties, takes])]
      exact (split.room location.zone isOpen).2 positive)
    (fun caller zone chunk here inZone => migrates caller zone chunk here (sameMax ▸ inZone))
    (sound.knows thread)
  -- while another thread keeps the mutex, the mover leaves the policy alone
  have held : ∀ other, other ≠ thread → (system.threads other).locked = true →
      cache.evictionPolicy = system.cache.evictionPolicy ∧
        (system.threads thread).locked = false := by
    intro other apart locked
    have unlocked : (system.threads thread).locked = false := by
      by_contra also
      exact apart (sound.exclusive.unique locked (by simpa using also))
    refine ⟨(moved.heldPolicy ?_ unlocked).1, unlocked⟩
    simp [sound.exclusive other locked]
  refine ⟨custody, map, exclusive, policy, fun other => ?_, fun place member => ?_⟩
  · by_cases same : other = thread
    · subst same
      simpa only [System.advance, Function.update_self] using knows
    · simp only [System.advance, Function.update_of_ne same]
      cases locked : (system.threads other).locked with
      | false => exact (sound.knows other).congr locked
      | true =>
          rw [(held other same locked).1]
          exact sound.knows other
  · have before : (∃ id location, pc = .get (.insert id location) ∧ location.place = place) ∨
        (place ∈ system.cache.evictionPolicy.lruQueue.items ∨
          (system.threads thread).popped = some place) ∧
          (place ∈ cache.evictionPolicy.lruQueue.items ∨ pc.popped = some place) ∨
        ∃ other, other ≠ thread ∧ (system.threads other).popped = some place := by
      have mine : place ∈ cache.evictionPolicy.lruQueue.items ∨ pc.popped = some place ∨
          ∃ other, other ≠ thread ∧ (system.threads other).popped = some place := by
        rcases member with queuedNow | ⟨other, popped⟩
        · exact .inl queuedNow
        · by_cases same : other = thread
          · subst same
            exact .inr (.inl (by simpa [System.advance] using popped))
          · exact .inr (.inr ⟨other, same, by simpa [System.advance, same] using popped⟩)
      rcases mine with queuedNow | popped | elsewhere
      · rcases queued place (.inl queuedNow) with earlier | recorded
        · exact .inr (.inl ⟨earlier, .inl queuedNow⟩)
        · exact .inl recorded
      · rcases queued place (.inr popped) with earlier | recorded
        · exact .inr (.inl ⟨earlier, .inr popped⟩)
        · exact .inl recorded
      · exact .inr (.inr elsewhere)
    rcases before with ⟨id, location, rfl, same⟩ | ⟨earlier, now⟩ | ⟨other, apart, popped⟩
    · exact .inr ⟨thread, id, location, by simp [System.advance], same⟩
    · have placed : Placed system place := by
        apply sound.placed
        rcases earlier with queuedThen | popped
        · exact .inl queuedThen
        · exact .inr ⟨thread, popped⟩
      refine sound.keepsPlaced ids moved inserted ?_ ?_ placed
      · intro caller i nr pair here equal
        subst equal
        have absent := sound.knows thread
        rw [here] at absent moved
        obtain ⟨samePolicy, unpopped⟩ := moved.clearsChunk
        rw [samePolicy, unpopped] at now
        exact absent (now.resolve_right (by simp))
      · intro caller zone here inZone
        have idle := sound.knows thread
        have split := sound.custody.split thread
        rw [here] at idle split earlier
        have own : ChunkCache.zoneId system.cache zone = zone :=
          split.poolIds zone (.inr (by
            simp [ThreadPc.duties, ChunkEvictPc.duties, reclaims]))
        obtain ⟨positive, none⟩ := idle
        have queuedThen := earlier.resolve_right fun popped => by cases popped
        have used := (sound.policy.named.named place queuedThen).2
        have inside := sound.policy.inChunks place queuedThen positive
        rw [own] at inZone
        rw [show place = (zone, place.2) from Prod.ext inZone rfl,
          none place.2 (sameMax.symm ▸ inside)] at used
        cases used
    · have unlocked := (held other apart (ThreadPc.locked_of_popped popped)).2
      refine sound.keepsPlaced ids moved inserted ?_ ?_ (sound.placed place (.inr ⟨other, popped⟩))
      · intro caller i nr pair here
        rw [here] at unlocked
        cases unlocked
      · intro caller zone here
        rw [here] at unlocked
        cases unlocked

theorem EvictSound.of_reach (fits : config.maxZoneChunks < 2 ^ 32)
    (reached : ChunkRun config EvictsSettled system) :
    EvictSound (2 ^ 31) config.maxZoneChunks system :=
  reached.invariant (fun _ begins => EvictSound.init begins)
    fun _ _ _ sound permitted taken => sound.step fits (by decide) permitted.1 permitted.2.1
      permitted.2.2.1 permitted.2.2.2 taken

/-- In every interleaving whose steps are settled, a clearing that is about to be run
finds its identifier at exactly its place if and only if no writer has still to insert a
chunk there. -/
theorem evict_clearsMapped (fits : config.maxZoneChunks < 2 ^ 32)
    (reached : ChunkRun config EvictsSettled system) {thread : Thread} {caller : Option Nat}
    {i nr : Nat} {pair : ZnPair}
    (here : system.threads thread = .evict caller (.clear i nr pair)) :
    ClearsMapped system.cache.cacheMap pair ↔ Inserted system pair.place := by
  have sound := EvictSound.of_reach fits reached
  constructor
  · intro given other writes location writing same
    obtain ⟨id, entry, _, found, isLoc, there, _⟩ := given
    have mine : (writes, location) ∈ (system.threads other).pending := by
      rw [writing]
      exact Multiset.mem_singleton_self _
    exact sound.custody.unlocated mine ⟨entry, found, isLoc, rfl⟩ (there.trans same.symm)
  · intro inserted
    have popped : (system.threads thread).popped = some pair.place := by
      rw [here]
      rfl
    obtain ⟨id, location, ⟨entry, found, isLoc, rfl⟩, there⟩ := sound.located popped inserted
    obtain ⟨sameZone, sameChunk⟩ := Prod.mk.inj there
    obtain ⟨listed, ran⟩ := sound.custody.custody.listed.clearChunk (sound.low id entry found)
      found isLoc sameZone sameChunk
    exact ⟨id, entry, listed, found, isLoc, there, _, ran, rfl, rfl⟩

end Run

/-! ## Deciding whether a run is settled -/

section Decide

variable [Fintype Thread]

def Choice.small : Choice → Bool
  | .get id => decide (id < 2 ^ 31)
  | .evict | .wakeUp | .run _ => true

def ThreadPc.inserting : ThreadPc ChunkEvictPc → Option ZnPair
  | .get (.insert _ location) => some location
  | _ => none

theorem ThreadPc.inserting_eq_some {pc : ThreadPc ChunkEvictPc} {location : ZnPair} :
    pc.inserting = some location ↔ ∃ id, pc = .get (.insert id location) := by
  constructor
  · intro inserts
    unfold ThreadPc.inserting at inserts
    split at inserts
    next id other =>
        cases Option.some.inj inserts
        exact ⟨id, rfl⟩
    next => cases inserts
  · intro given
    obtain ⟨id, rfl⟩ := given
    rfl

/-- What a settled step asks of the section that its thread runs next. -/
def settledSection (system : ChunkSystem Thread) : ThreadPc ChunkEvictPc → Bool
  | .evict _ (.clear _ _ pair) =>
      decide (∀ thread, ∀ location ∈ (system.threads thread).inserting,
        location.place ≠ pair.place)
  | .evict _ (.gcScan zone chunk) =>
      decide (chunk < system.cache.evictionPolicy.maxZoneChunks →
        (system.cache.evictionPolicy.slot (zone, chunk)).inUse = false)
  | .evict _ (.gcClear zone) =>
      decide (∀ thread, ∀ chunk ∈ (system.threads thread).pending,
        chunk.2.zone ≠ ChunkCache.zoneId system.cache zone)
  | _ => true

theorem evictsSettled_iff (system : ChunkSystem Thread) (action : Thread × Choice) :
    EvictsSettled system action ↔
      action.2.small = true ∧ settledSection system (system.threads action.1) = true := by
  obtain ⟨thread, choice⟩ := action
  have small : GetsBelow (2 ^ 31) (thread, choice) ↔ choice.small = true := by
    cases choice with
    | get id => simp [GetsBelow, Choice.small]
    | evict | wakeUp | run => simp [GetsBelow, Choice.small]
  have inserted : ∀ place, Inserted system place ↔
      ∀ thread, ∀ location ∈ (system.threads thread).inserting, location.place ≠ place := by
    intro place
    simp only [Inserted, Option.mem_def, ThreadPc.inserting_eq_some, forall_exists_index]
    exact forall_congr' fun _ => forall_comm
  rw [EvictsSettled, small]
  refine and_congr_right fun _ => ?_
  simp only [GcSettled, GcMigratesNothing, ClearsInserted, inserted]
  constructor
  · intro given
    obtain ⟨gcSettled, migrates, clears⟩ := given
    unfold settledSection
    split
    next here => exact decide_eq_true (clears _ _ _ _ here)
    next here => exact decide_eq_true (migrates _ _ _ here)
    next here => exact decide_eq_true (gcSettled _ _ here)
    next => rfl
  · intro checked
    refine ⟨fun caller zone here => ?_, fun caller zone chunk here => ?_,
      fun caller i nr pair here => ?_⟩
    · rw [here] at checked
      exact of_decide_eq_true checked
    · rw [here] at checked
      exact of_decide_eq_true checked
    · rw [here] at checked
      exact of_decide_eq_true checked

instance (system : ChunkSystem Thread) (action : Thread × Choice) :
    Decidable (EvictsSettled system action) :=
  decidable_of_iff _ (evictsSettled_iff system action).symm

end Decide

/-- A thread misses identifier 7.  Another takes its chunk from the queue. -/
def missThenPop (worker evictor : Thread) : List (Thread × Choice) :=
  (worker, .get 7) :: List.replicate 7 (worker, .run .smooth) ++
    (evictor, .evict) :: List.replicate 3 (evictor, .run .smooth)

theorem evict_clearsMapped_missThenPop :
    ∃ system : ChunkSystem (Fin 2),
      System.execute (chunkCode oneChunkConfig) oneChunkConfig (chunkInit 1 1)
        (missThenPop 0 1) = some system ∧
      system.threads 1 = .evict none (.clear 0 1 ⟨0, 0, 0, true⟩) ∧
      (ClearsMapped system.cache.cacheMap ⟨0, 0, 0, true⟩ ↔ Inserted system (0, 0)) := by
  cases executed : System.execute (chunkCode oneChunkConfig) oneChunkConfig
      (chunkInit 1 1) (missThenPop (0 : Fin 2) 1) with
  | none => cases executed
  | some system =>
      have here : system.threads 1 = .evict none (.clear 0 1 ⟨0, 0, 0, true⟩) := by
        cases Option.some.inj executed
        rfl
      refine ⟨system, rfl, here, ?_⟩
      refine @evict_clearsMapped _ _ _ oneChunkConfig _ (by decide)
        (System.reach_of_execute executed fun start begins => ?_) 1 none 0 1 ⟨0, 0, 0, true⟩ here
      cases Option.some.inj begins
      decide +kernel

/-- The same, before the thread has inserted its chunk. -/
def popBeforeInsert (worker evictor : Thread) : List (Thread × Choice) :=
  (worker, .get 7) :: List.replicate 6 (worker, .run .smooth) ++
    (evictor, .evict) :: List.replicate 3 (evictor, .run .smooth)

/-- The clearing comes too early, and looks the chunk up in an empty table. -/
theorem evict_clearsUnmapped :
    ∃ system : ChunkSystem (Fin 2),
      ChunkRun oneChunkConfig EvictsSettled system ∧
      system.threads 0 = .get (.insert 7 ⟨0, 0, 0, false⟩) ∧
      system.threads 1 = .evict none (.clear 0 1 ⟨0, 0, 0, true⟩) ∧
      (system.cache.cacheMap.dataMap 0).lookup 0 = none ∧
      ¬ ClearsMapped system.cache.cacheMap ⟨0, 0, 0, true⟩ := by
  cases executed : System.execute (chunkCode oneChunkConfig) oneChunkConfig
      (chunkInit 1 1) (popBeforeInsert (0 : Fin 2) 1) with
  | none => cases executed
  | some system =>
      have nothing : (system.cache.cacheMap.dataMap 0).lookup 0 = none := by
        cases Option.some.inj executed
        rfl
      refine ⟨system, System.reach_of_execute executed fun start begins => ?_, ?_, ?_, nothing, ?_⟩
      · cases Option.some.inj begins
        decide +kernel
      · cases Option.some.inj executed
        rfl
      · cases Option.some.inj executed
        rfl
      · intro given
        obtain ⟨id, entry, listed, _⟩ := given
        rw [nothing] at listed
        cases listed

end ZNCache
