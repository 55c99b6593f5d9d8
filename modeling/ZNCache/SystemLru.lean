import ZNCache.PromotionalLru
import ZNCache.SystemPlacement

/-!
# Which zone an evictor takes

In every interleaving the policy's queue lists the full zones that no thread has in
hand in the order in which threads last recorded or read them, and an evictor takes
the first.
-/

set_option autoImplicit false

namespace ZNCache

open Recency Tally Transition

variable {Thread : Type} [Fintype Thread] [DecidableEq Thread]

/-- What a thread's move is to the zones of the policy: the last chunk of a zone is
recorded, a chunk of it was read, or it is taken to be evicted. -/
def ThreadPc.zoneUses (lastChunk : Nat) : ThreadPc EvictPc → ThreadPc EvictPc → List (Use Nat)
  | get (.touch _ location _), _ => [.touch location.zone]
  | get (.record _ location), _ =>
      if location.chunkOffset = lastChunk then [.put location.zone] else []
  | evict _ (.loop _ _), evict _ (.clear _ _ zone) => [.drop zone]
  | _, _ => []

/-- A system and what its threads have done to the zones so far, the latest first. -/
structure UseLog (Thread : Type) where
  system : PromotionalSystem Thread
  history : List (Use Nat)

namespace UseLog

def step (config : CacheConfig) (log : UseLog Thread) (action : Thread × Choice) :
    Option (UseLog Thread) :=
  (log.system.step (promotionalCode config) action).map fun next =>
    ⟨next, (log.system.threads action.1).zoneUses log.system.cache.evictionPolicy.lastChunk
      (next.threads action.1) ++ log.history⟩

abbrev Run (config : CacheConfig) (log : UseLog Thread) : Prop :=
  Reach (step config) (fun _ action => CommandsSucceed action)
    (fun log => promotionalSystem config = some log.system ∧ log.history = []) log

variable {config : CacheConfig} {log : UseLog Thread}

omit [Fintype Thread] in
theorem Run.reached (run : Run config log) :
    PromotionalRun config (fun _ action => CommandsSucceed action) log.system := by
  induction run with
  | start begins => exact .start begins.1
  | step action before success taken ih =>
      obtain ⟨next, moved, rfl⟩ := Option.map_eq_some_iff.mp taken
      exact .step action ih success moved

def policyLog (log : UseLog Thread) : PolicyLog := ⟨log.system.cache.evictionPolicy, log.history⟩

end UseLog

section Step

variable {config : CacheConfig} {thread : Thread} {choice : Choice}
  {cache after : PromotionalCache Thread} {pc next : ThreadPc EvictPc}
  {nrZones : Nat} {history : List (Use Nat)}

omit [Fintype Thread] [DecidableEq Thread] in
theorem FgEvictStep.zoneUses {environment : Environment} {code : EvictPc}
    {later : Option EvictPc} (taken : FgEvictStep cache environment code after later)
    (sound : PolicyLog.Sound nrZones ⟨cache.evictionPolicy, history⟩) (caller : Option Nat)
    (next : ThreadPc EvictPc)
    (moves : next = later.elim (afterEvict caller) (ThreadPc.evict caller)) :
    PolicyLog.Sound nrZones ⟨after.evictionPolicy,
      (ThreadPc.evict caller code).zoneUses cache.evictionPolicy.lastChunk next ++ history⟩ := by
  subst moves
  cases taken with
  | take i freeZones zone policy answer =>
      cases free : environment.lockFree with
      | false => rw [free] at answer; cases answer
      | true =>
          rw [free] at answer
          have passed := sound.getZoneToEvict.2.2
          rw [answer] at passed
          exact passed
  | nothing i freeZones policy answer =>
      cases sound.mapped.takesNothing answer
      cases caller <;> exact sound
  | enough => cases caller <;> exact sound
  | start | clear | wait | reset => exact sound

omit [Fintype Thread] in
theorem ThreadStep.zoneUses
    (moved : ThreadStep (promotionalCode config) thread cache pc choice after next)
    (sound : PolicyLog.Sound nrZones ⟨cache.evictionPolicy, history⟩)
    (inDevice : ∀ chunk ∈ pc.uses, chunk.2.zone < nrZones)
    (absent : ∀ id location, pc = .get (.record id location) →
      location.chunkOffset = cache.evictionPolicy.lastChunk →
      location.zone ∉ cache.evictionPolicy.zones) :
    PolicyLog.Sound nrZones
      ⟨after.evictionPolicy, pc.zoneUses cache.evictionPolicy.lastChunk next ++ history⟩ := by
  cases moved with
  | call | callEvict | wakeUp => exact sound
  | evict caller later ran => exact (fgEvictStep_spec ran).zoneUses sound caller _ rfl
  | evicted caller ran => exact (fgEvictStep_spec ran).zoneUses sound caller _ rfl
  | get ran =>
      cases ran with
      | touch id location data policy updated =>
          have inside : location.zone < nrZones := inDevice (id, location) (by
            simp [ThreadPc.uses, ThreadPc.reads, ThreadPc.lift, GetPc.reads])
          have allowed : PolicyLog.Allowed nrZones ⟨cache.evictionPolicy, history⟩
              (.update location .read) := ⟨inside, fun puts => by cases puts⟩
          obtain ⟨policy', updated', later⟩ := sound.update allowed
          cases Option.some.inj (updated.symm.trans updated')
          exact later
      | record id location policy updated =>
          have inside : location.zone < nrZones := inDevice (id, location) (by
            simp [ThreadPc.uses, ThreadPc.pending, ThreadPc.lift, GetPc.pending])
          have allowed : PolicyLog.Allowed nrZones ⟨cache.evictionPolicy, history⟩
              (.update location .write) := by
            refine ⟨inside, fun puts => ?_⟩
            have last : location.chunkOffset = cache.evictionPolicy.lastChunk := by
              by_contra notLast
              simp [PolicyLog.useOf, notLast] at puts
            have unused := absent id location rfl last
            rw [sound.recent.mem, not_not] at unused
            exact unused
          obtain ⟨policy', updated', later⟩ := sound.update allowed
          cases Option.some.inj (updated.symm.trans updated')
          have same : (PolicyLog.useOf cache.evictionPolicy location .write).toList =
              (ThreadPc.get (.record id location) : ThreadPc EvictPc).zoneUses
                cache.evictionPolicy.lastChunk (.get (.insert id location)) := by
            simp only [PolicyLog.useOf, ThreadPc.zoneUses]
            split <;> rfl
          rw [← same]
          exact later
      | find | woken | read | release | countHit | acquire | write => exact sound
      | writeFailed | countMiss | giveBack | insert | undoZone | undoMap => exact sound

end Step

namespace UseLog

variable {config : CacheConfig} {log : UseLog Thread}

/-- The queue of a reachable system is by recency of what its threads did. -/
theorem Run.sound (someChunk : 1 ≤ config.chunkSz) (chunkFits : config.chunkSz ≤ config.zoneCap)
    (fits : config.maxZoneChunks < 2 ^ 32) (run : Run config log) :
    log.policyLog.Sound config.nrZones := by
  induction run with
  | start begins =>
      obtain ⟨_, _, _, policy, _⟩ := System.init_spec begins.1
      rw [policyLog, policy, begins.2]
      exact PolicyLog.Sound.init
  | @step state later action before success taken ih =>
      have reached := Run.reached before
      have owned := ZonesOwned.of_run fits (fun _ _ success => success) reached
      obtain ⟨next, stepped, rfl⟩ := Option.map_eq_some_iff.mp taken
      obtain ⟨thread, choice⟩ := action
      obtain ⟨cache, pc, rfl, moved⟩ := System.step_spec stepped
      simp only [policyLog, System.advance, Function.update_self]
      refine moved.zoneUses ih (fun chunk member => ?_) fun id location here last => ?_
      · exact (inUse_inDevice someChunk chunkFits fits (fun _ _ success => success) reached
          (.inr ⟨thread, member⟩)).1
      · rw [owned.lastChunk] at last
        have mine : location.zone ∈ (state.system.threads thread).ownsFull config := by
          simp [here, ThreadPc.ownsFull, GetPc.fills, last]
        exact (owned.owner_unique mine).1

/-- In every interleaving the policy's queue holds the full zones that no thread has in
hand, in the order of their last use, and the zone that an evictor takes is full and was
used before every other zone of the queue. -/
theorem evictor_takes_leastRecent (someChunk : 1 ≤ config.chunkSz)
    (chunkFits : config.chunkSz ≤ config.zoneCap) (fits : config.maxZoneChunks < 2 ^ 32)
    (run : Run config log) :
    (∀ zone, zone ∈ log.system.cache.evictionPolicy.zones ↔
      IsFull log.system.cache.zoneState zone ∧
        ∀ thread, zone ∉ (log.system.threads thread).ownsFull config) ∧
    ByRecency log.history log.system.cache.evictionPolicy.zones ∧
    ∀ thread caller i freeZones environment next zone,
      log.system.threads thread = .evict caller (.loop i freeZones) →
      log.system.step (promotionalCode config) (thread, .run environment) = some next →
      next.threads thread = .evict caller (.clear i freeZones zone) →
      IsFull log.system.cache.zoneState zone ∧
        ∀ other ∈ log.system.cache.evictionPolicy.zones, other ≠ zone →
          usedAt log.history zone < usedAt log.history other := by
  have sound := run.sound someChunk chunkFits fits
  have owned := ZonesOwned.of_run fits (fun _ _ success => success) run.reached
  have queued : ∀ zone, zone ∈ log.system.cache.evictionPolicy.zones ↔
      IsFull log.system.cache.zoneState zone ∧
        ∀ thread, zone ∉ (log.system.threads thread).ownsFull config := by
    intro zone
    constructor
    · intro member
      exact ⟨owned.owner.mpr (.inl member), fun thread mine =>
        (owned.owner_unique mine).1 member⟩
    · intro given
      exact (owned.owner.mp given.1).resolve_right fun someone =>
        someone.elim given.2
  refine ⟨queued, sound.recent, ?_⟩
  intro thread caller i freeZones environment next zone here taken there
  obtain ⟨cache, pc, rfl, moved⟩ := System.step_spec taken
  simp only [System.advance, Function.update_self] at there
  rw [here] at moved
  cases moved with
  | evicted _ ran => cases caller <;> cases there
  | evict _ later ran =>
      cases there
      have passed : FgEvictStep log.system.cache environment (.loop i freeZones) cache
          (some (.clear i freeZones zone)) := fgEvictStep_spec ran
      cases passed with
      | take _ _ _ policy answer =>
          have zones := (sound.mapped.takes answer).2.1
          have recent := sound.recent
          simp only [policyLog] at zones recent
          rw [zones] at recent
          refine ⟨(queued zone).mp (by rw [zones]; exact List.mem_cons_self) |>.1, ?_⟩
          intro other member apart
          rw [zones] at member
          exact (List.pairwise_cons.mp recent.sorted).1 other
            ((List.mem_cons.mp member).resolve_left apart)

def twoZoneConfig : CacheConfig := { oneChunkConfig with nrZones := 2 }

/-- One thread fills both zones and reads the first again; the other is about to ask the
policy for a zone. -/
def readBeforeEviction (reader evictor : Thread) : List (Thread × Choice) :=
  (reader, .get 7) :: List.replicate 7 (reader, .run .smooth) ++
    (reader, .get 8) :: List.replicate 7 (reader, .run .smooth) ++
    (reader, .get 7) :: List.replicate 3 (reader, .run .smooth) ++
    [(evictor, .evict), (evictor, .run .smooth)]

theorem evictor_takes_leastRecent_readBeforeEviction :
    ∃ (start log : UseLog (Fin 2)) (next : PromotionalSystem (Fin 2)),
      promotionalSystem twoZoneConfig = some start.system ∧
      runActions (step twoZoneConfig) start (readBeforeEviction 0 1) = some log ∧
      log.system.step (promotionalCode twoZoneConfig) (1, .run .smooth) = some next ∧
      next.threads 1 = .evict none (.clear 0 0 1) ∧
      usedAt log.history 1 < usedAt log.history 0 := by
  cases begins : (promotionalSystem twoZoneConfig : Option (PromotionalSystem (Fin 2))) with
  | none => cases begins
  | some system =>
      cases ran : runActions (step twoZoneConfig) ⟨system, []⟩
          (readBeforeEviction 0 1) with
      | none => cases Option.some.inj begins; cases ran
      | some log =>
          have run : Run twoZoneConfig log :=
            Reach.of_runActions (readBeforeEviction 0 1) (.start ⟨begins, rfl⟩)
              (.of_forall _ _ (by
                simp [readBeforeEviction, CommandsSucceed, Environment.smooth])) ran
          obtain ⟨_, _, oldest⟩ := evictor_takes_leastRecent (by decide) (by decide)
            (by decide) run
          cases taken : log.system.step (promotionalCode twoZoneConfig) (1, .run .smooth) with
          | none =>
              cases Option.some.inj begins
              cases Option.some.inj ran
              cases taken
          | some next =>
              have there : next.threads 1 = .evict none (.clear 0 0 1) := by
                cases Option.some.inj begins
                cases Option.some.inj ran
                cases Option.some.inj taken
                rfl
              refine ⟨⟨system, []⟩, log, next, rfl, ran, taken, there, ?_⟩
              refine (oldest 1 none 0 0 .smooth next 1 ?_ taken there).2 0 ?_ (by decide)
              · cases Option.some.inj begins
                cases Option.some.inj ran
                rfl
              · cases Option.some.inj begins
                cases Option.some.inj ran
                decide

end UseLog

end ZNCache
