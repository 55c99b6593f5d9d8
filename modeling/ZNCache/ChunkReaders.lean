import ZNCache.ChunkCustodyRuns

/-!
# Readers of the zones that the GC resets

The GC clears a zone and resets it without a look at its readers.  The custody of the
zones holds in every run, and with it nobody comes to read a cleared zone; those who
read it before it was cleared may still do so when it is reset.
-/

set_option autoImplicit false

namespace ZNCache

open Tally Transition Duties

variable {Thread : Type} [DecidableEq Thread] {config : CacheConfig}

/-! ## Who comes to read and who comes to clear -/

section Step

variable {maxChunks : Nat} {thread : Thread} {choice : Choice} {cache after : ChunkCache Thread}
  {pc next : ThreadPc ChunkEvictPc}

/-- A thread comes to read a zone only by finding an identifier there. -/
theorem ThreadStep.reading (taken : ThreadStep (chunkCode config) thread cache pc choice after next)
    (small : ∀ id ∈ pc.seeks, id < 2 ^ 32) {zone : Nat}
    (member : zone ∈ (next.duties maxChunks).reading) :
    zone ∈ (pc.duties maxChunks).reading ∨
      ∃ id location, cache.cacheMap.Locates id location ∧ location.zone = zone := by
  have none : ∀ {one : ThreadPc ChunkEvictPc}, one.reads = 0 →
      zone ∉ (one.duties maxChunks).reading := by
    intro one nothing inReading
    rw [ThreadPc.duties_reading, nothing] at inReading
    exact Multiset.notMem_zero _ inReading
  cases taken with
  | call | callEvict | wakeUp | evict => exact absurd member (none rfl)
  | evicted caller => cases caller <;> exact absurd member (none rfl)
  | get ran =>
      cases ran with
      | find id =>
          have smallId := small id (by simp [ThreadPc.seeks, ThreadPc.lift, GetPc.seeks])
          have found := znCachemapFind_spec thread cache.cacheMap smallId
          generalize znCachemapFind thread cache.cacheMap id = answer at found member
          obtain ⟨result, map⟩ := answer
          cases found with
          | loc entry found located =>
              right
              rw [duties_afterFind] at member
              exact ⟨id, entry.location, ⟨entry, found, located, rfl⟩,
                (Multiset.mem_singleton.mp member).symm⟩
          | wait | claim => exact absurd member (none rfl)
      | acquire id =>
          generalize (zsmGetActiveZone _ cache.zoneState).ret = ret at member
          cases ret <;> exact absurd member (none rfl)
      | read | touch => exact .inl member
      | woken | release | countHit | write | writeFailed => exact absurd member (none rfl)
      | countMiss | giveBack | record | insert => exact absurd member (none rfl)
      | undoZone | undoMap => exact absurd member (none rfl)

theorem ThreadStep.clearing
    (taken : ThreadStep (chunkCode config) thread cache pc choice after next) {zone : Nat}
    (member : zone ∈ (next.duties maxChunks).cleared) :
    ∃ caller, pc = .evict caller (.gcClear zone) := by
  obtain ⟨_, caller, rfl⟩ := ThreadPc.duties_cleared _ member
  generalize here : ThreadPc.evict caller (ChunkEvictPc.gcReset zone) = next at taken
  cases taken with
  | call | callEvict | wakeUp => cases here
  | evicted other => cases other <;> cases here
  | evict other next ran =>
      obtain ⟨rfl, rfl⟩ := ThreadPc.evict.inj here
      cases chunkEvictStep_spec ran with
      | gcClear => exact ⟨caller, rfl⟩
  | get ran =>
      cases ran with
      | find id =>
          generalize (znCachemapFind thread cache.cacheMap id).1 = result at here
          cases result <;> cases here
      | acquire id =>
          generalize (zsmGetActiveZone _ cache.zoneState).ret = ret at here
          cases ret <;> cases here
      | _ => cases here

end Step

/-! ## Runs in which the GC clears quiet zones -/

def ThreadPc.clearing : ThreadPc ChunkEvictPc → Option Nat
  | .evict _ (.gcClear zone) => some zone
  | _ => none

theorem ThreadPc.clearing_eq_some {pc : ThreadPc ChunkEvictPc} {zone : Nat}
    (clears : pc.clearing = some zone) : ∃ caller, pc = .evict caller (.gcClear zone) := by
  unfold ThreadPc.clearing at clears
  split at clears
  next caller other =>
      cases Option.some.inj clears
      exact ⟨caller, rfl⟩
  next => cases clears

def ClearsQuiet (system : ChunkSystem Thread) (action : Thread × Choice) : Prop :=
  ∀ caller zone, system.threads action.1 = .evict caller (.gcClear zone) →
    (∀ thread, ∀ chunk ∈ (system.threads thread).pending,
      chunk.2.zone ≠ ChunkCache.zoneId system.cache zone) ∧
    system.cache.cacheMap.activeReaders (ChunkCache.zoneId system.cache zone) = 0

instance [Fintype Thread] (system : ChunkSystem Thread) (action : Thread × Choice) :
    Decidable (ClearsQuiet system action) :=
  decidable_of_iff
    (∀ zone ∈ (system.threads action.1).clearing,
      (∀ thread, ∀ chunk ∈ (system.threads thread).pending,
        chunk.2.zone ≠ ChunkCache.zoneId system.cache zone) ∧
      system.cache.cacheMap.activeReaders (ChunkCache.zoneId system.cache zone) = 0)
    ⟨fun quiet caller zone here => quiet zone (by rw [here]; rfl), fun quiet zone member => by
      obtain ⟨caller, here⟩ := ThreadPc.clearing_eq_some member
      exact quiet caller zone here⟩

structure ReadersSound [Fintype Thread] (maxChunks : Nat) (system : ChunkSystem Thread) :
    Prop extends CustodySound maxChunks system where
  unread : ∀ zone ∈ (tally (ThreadPc.duties maxChunks) system.threads).cleared,
    zone ∉ (tally (ThreadPc.duties maxChunks) system.threads).reading

variable [Fintype Thread]

theorem ReadersSound.step (fits : config.maxZoneChunks < 2 ^ 32)
    {system next : ChunkSystem Thread} {action : Thread × Choice}
    (sound : ReadersSound config.maxZoneChunks system) (quiet : ClearsQuiet system action)
    (taken : system.step (chunkCode config) action = some next) :
    ReadersSound config.maxZoneChunks next := by
  refine ⟨sound.toCustodySound.step fits
    (fun caller zone here => (quiet caller zone here).1) taken, ?_⟩
  obtain ⟨thread, choice⟩ := action
  obtain ⟨cache, pc, rfl, moved⟩ := System.step_spec taken
  have unread := sound.unread
  have custody := sound.custody
  simp only [System.advance]
  rw [tally_split _ _ thread] at unread custody
  rw [tally_update]
  simp only [add_cleared, add_reading, Multiset.mem_add, not_or] at unread ⊢
  intro zone cleared
  rcases cleared with mine | others
  · obtain ⟨_, _, rfl⟩ := ThreadPc.duties_cleared pc mine
    refine ⟨Multiset.notMem_zero _, fun reading => ?_⟩
    obtain ⟨caller, here⟩ := moved.clearing mine
    have own := custody.poolIds zone (.inr (by
      simp [here, ThreadPc.duties, ChunkEvictPc.duties, reclaims]))
    have nobody := (quiet caller zone here).2
    rw [ChunkCache.zoneId, own, custody.readers zone, Nat.cast_eq_zero] at nobody
    exact Multiset.count_eq_zero.mp nobody (Multiset.mem_add.mpr (.inr reading))
  · refine ⟨fun reading => ?_, (unread zone (.inr others)).2⟩
    rcases moved.reading (sound.seeks thread) reading with before | ⟨id, location, located, there⟩
    · exact (unread zone (.inr others)).1 before
    · exact custody.clearedEmpty zone (Multiset.mem_add.mpr (.inr others)) location.chunkOffset
        ⟨id, location, .inl located, by rw [ZnPair.place, there]⟩

omit [DecidableEq Thread] in
theorem ReadersSound.init {system : ChunkSystem Thread}
    (begins : chunkSystem config = some system) :
    ReadersSound config.maxZoneChunks system := by
  refine ⟨CustodySound.init begins, fun zone cleared => ?_⟩
  obtain ⟨_, _, _, _, idle⟩ := System.init_spec begins
  rw [tally_const_zero _ _ fun thread => by rw [idle thread]; rfl] at cleared
  exact absurd cleared (Multiset.notMem_zero _)

/-- `active_readers` counts the threads between their find and their decrement. -/
def ReadersCounted (system : ChunkSystem Thread) : Prop :=
  ∀ zone, system.cache.cacheMap.activeReaders zone =
    (((tally ThreadPc.reads system.threads).map fun chunk => chunk.2.zone).count zone : Int)

omit [Fintype Thread] [DecidableEq Thread] in
def ResetsUnread (system : ChunkSystem Thread) : Prop :=
  ∀ thread caller zone, system.threads thread = .evict caller (.gcReset zone) →
    system.cache.cacheMap.activeReaders (ChunkCache.zoneId system.cache zone) = 0 ∧
      ∀ reader, ∀ chunk ∈ (system.threads reader).reads,
        chunk.2.zone ≠ ChunkCache.zoneId system.cache zone

omit [DecidableEq Thread] in
theorem reading_tally (maxChunks : Nat) (threads : Thread → ThreadPc ChunkEvictPc) :
    (tally (ThreadPc.duties maxChunks) threads).reading =
      (tally ThreadPc.reads threads).map fun chunk => chunk.2.zone := by
  have parts : (tally (ThreadPc.duties maxChunks) threads).reading =
      tally (fun here => (ThreadPc.duties maxChunks here).reading) threads :=
    map_sum readingPart _ _
  have places : (tally ThreadPc.reads threads).map (fun chunk => chunk.2.zone) =
      tally (fun here => here.reads.map fun chunk => chunk.2.zone) threads :=
    map_sum (Multiset.mapAddMonoidHom fun chunk : Nat × ZnPair => chunk.2.zone) _ _
  rw [parts, places]
  exact Finset.sum_congr rfl fun thread _ => ThreadPc.duties_reading _

/-- In every interleaving in which the GC clears quiet zones only, it resets no zone
under a reader. -/
theorem gc_resetsUnread (fits : config.maxZoneChunks < 2 ^ 32) {system : ChunkSystem Thread}
    (reached : ChunkRun config ClearsQuiet system) :
    ReadersCounted system ∧ ResetsUnread system := by
  have sound : ReadersSound config.maxZoneChunks system :=
    reached.invariant (fun _ begins => ReadersSound.init begins)
      fun system action _ sound permitted taken => sound.step fits permitted taken
  have counted : ReadersCounted system := by
    intro zone
    rw [← reading_tally config.maxZoneChunks]
    exact sound.custody.readers zone
  refine ⟨counted, fun thread caller zone here => ?_⟩
  have cleared : zone ∈ (tally (ThreadPc.duties config.maxZoneChunks) system.threads).cleared :=
    (@mem_tally_part _ _ _ _ _ _ clearedPart _ _ _).mpr ⟨thread, by
      rw [here]
      exact Multiset.mem_singleton_self zone⟩
  have own := sound.custody.poolIds zone (.inr (sound.custody.clearedKept zone cleared))
  have unread := sound.unread zone cleared
  rw [ChunkCache.zoneId, own]
  constructor
  · rw [sound.custody.readers zone, Multiset.count_eq_zero.mpr unread]
    rfl
  · intro reader chunk member same
    rw [reading_tally] at unread
    apply unread
    exact Multiset.mem_map.mpr ⟨chunk, mem_tally.mpr ⟨reader, member⟩, same⟩

/-- A thread misses identifier 7.  Another evicts its chunk and resets the zone. -/
def missThenReclaim (worker evictor : Thread) : List (Thread × Choice) :=
  (worker, .get 7) :: List.replicate 7 (worker, .run .smooth) ++
    (evictor, .evict) :: List.replicate 10 (evictor, .run .smooth)

theorem gc_resetsUnread_missThenReclaim :
    ∃ system : ChunkSystem (Fin 2),
      System.execute (chunkCode oneChunkConfig) oneChunkConfig (chunkInit 1 1)
        (missThenReclaim 0 1) = some system ∧
      system.threads 1 = .evict none (.gcReset 0) ∧
      ReadersCounted system ∧ ResetsUnread system := by
  cases executed : System.execute (chunkCode oneChunkConfig) oneChunkConfig
      (chunkInit 1 1) (missThenReclaim (0 : Fin 2) 1) with
  | none => cases executed
  | some system =>
      refine ⟨system, rfl, ?_, ?_⟩
      · cases Option.some.inj executed
        rfl
      · refine @gc_resetsUnread _ _ oneChunkConfig _ (by decide) _
          (System.reach_of_execute executed fun start begins => ?_)
        cases Option.some.inj begins
        decide +kernel

/-- Thread 0 finds identifier 7 in the only zone and is about to read it.  Thread 1
evicts the chunk and is about to reset the zone. -/
def reclaimUnderReader (worker evictor : Thread) : List (Thread × Choice) :=
  (worker, .get 7) :: List.replicate 7 (worker, .run .smooth) ++
    (worker, .get 7) :: (worker, .run .smooth) ::
    (evictor, .evict) :: List.replicate 10 (evictor, .run .smooth)

theorem gc_resets_underReader :
    ∃ system : ChunkSystem (Fin 2), ChunkRun oneChunkConfig (fun _ _ => True) system ∧
      ¬ ResetsUnread system ∧
      ∃ next, system.step (chunkCode oneChunkConfig) (1, .run .smooth) = some next ∧
        (next.cache.zoneState.state 0).state = .free ∧
        next.cache.cacheMap.activeReaders 0 = 1 ∧
        next.threads 0 = .get (.read 7 ⟨0, 0, 0, false⟩) ∧ next.cache.disk 0 0 = none := by
  cases executed : System.execute (chunkCode oneChunkConfig) oneChunkConfig
      (chunkInit 1 1) (reclaimUnderReader (0 : Fin 2) 1) with
  | none => cases executed
  | some system =>
      refine ⟨system, System.reach_of_execute executed fun start _ =>
        AllowedAlong.of_forall _ start fun _ _ _ => trivial, fun unread => ?_, ?_⟩
      · have quiet := (unread 1 none 0 (by cases Option.some.inj executed; rfl)).1
        have reading : system.cache.cacheMap.activeReaders 0 = 1 := by
          cases Option.some.inj executed
          rfl
        have own : ChunkCache.zoneId system.cache 0 = 0 := by
          cases Option.some.inj executed
          rfl
        rw [own, reading] at quiet
        exact absurd quiet (by decide)
      · cases Option.some.inj executed
        exact ⟨_, rfl, rfl, rfl, rfl, rfl⟩

end ZNCache
