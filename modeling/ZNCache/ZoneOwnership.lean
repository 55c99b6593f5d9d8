import ZNCache.SingleWriter

/-!
# Who owns a full zone

A full zone passes from the writer of its last chunk to the policy's queue, from
there to an evictor, and from the evictor to the free queue.  In every
interleaving it is in exactly one of these hands.
-/

set_option autoImplicit false

namespace ZNCache

open Tally Transition

variable {Thread : Type} [DecidableEq Thread]

/-- The zone whose last chunk the thread has given back but not yet recorded. -/
def GetPc.fills (config : CacheConfig) : GetPc → Multiset Nat
  | record _ location =>
      if location.chunkOffset = u32 (u32 config.maxZoneChunks - 1) then {location.zone} else 0
  | find _ | asleep _ | read _ _ | touch _ _ _ | release _ _ _ | countHit _ _ => 0
  | acquire _ | write _ _ | countMiss _ _ | giveBack _ _ | insert _ _ => 0
  | undoZone _ _ | undoMap _ => 0

/-- The zone between `do_evict` and `zsm_evict`. -/
def EvictPc.takes : EvictPc → Multiset Nat
  | start | loop _ _ => 0
  | clear _ _ zone | wait _ _ zone | reset _ _ zone => {zone}

/-- The full zones that a thread answers for. -/
def ThreadPc.ownsFull (config : CacheConfig) : ThreadPc EvictPc → Multiset Nat
  | idle => 0
  | get pc => pc.fills config
  | evict _ code => code.takes

structure FullZones (manager : ZoneStateManager) (listed : Multiset Nat) : Prop where
  nodup : listed.Nodup
  iff : ∀ zone, zone ∈ listed ↔ IsFull manager zone

structure Owned (config : CacheConfig) (cache : PromotionalCache Thread)
    (pairs : Multiset ZnPair) (hands : Multiset Nat) : Prop where
  zones : ZonesSound cache.zoneState pairs
  nrZones : cache.zoneState.numZones = config.nrZones
  maxChunks : cache.zoneState.maxZoneChunks = config.maxZoneChunks
  policyMax : cache.evictionPolicy.zoneMaxChunks = u32 config.maxZoneChunks
  consistent : cache.evictionPolicy.Consistent
  full : FullZones cache.zoneState (Multiset.ofList cache.evictionPolicy.zones + hands)

section Step

variable {config : CacheConfig} {cache after : PromotionalCache Thread}
  {pairs : Multiset ZnPair} {hands : Multiset Nat}

omit [DecidableEq Thread] in
theorem Owned.lastChunk (owns : Owned config cache pairs hands) :
    cache.evictionPolicy.lastChunk = u32 (u32 config.maxZoneChunks - 1) := by
  rw [ZnPolicyPromotional.lastChunk, owns.policyMax]

theorem FullZones.congr {manager manager' : ZoneStateManager} {listed listed' : Multiset Nat}
    (full : FullZones manager listed) (same : listed' = listed)
    (sameFull : ∀ zone, IsFull manager' zone ↔ IsFull manager zone) :
    FullZones manager' listed' :=
  ⟨same ▸ full.nodup, fun zone => by rw [same, full.iff, sameFull]⟩

theorem GetStep.fills_eq_zero {thread : Thread} {environment : Environment} {pc : GetPc}
    {next : ThreadPc EvictPc}
    (taken : GetStep (promotionalCode config) thread cache environment pc after next)
    (notGiveBack : ∀ id location, pc ≠ .giveBack id location) :
    next.ownsFull config = 0 := by
  cases taken with
  | find id => cases (znCachemapFind thread cache.cacheMap id).1 <;> rfl
  | acquire id => cases (zsmGetActiveZone environment.commandRet cache.zoneState).ret <;> rfl
  | giveBack id location => exact absurd rfl (notGiveBack id location)
  | woken | read | touch | release | countHit | write | writeFailed => rfl
  | countMiss | record | insert | undoZone | undoMap => rfl

theorem GetStep.owned {thread : Thread} {environment : Environment} {pc : GetPc}
    {next : ThreadPc EvictPc} (fits : config.maxZoneChunks < 2 ^ 32)
    (taken : GetStep (promotionalCode config) thread cache environment pc after next)
    (success : environment.commandRet = 0)
    (owns : Owned config cache (pc.holds + pairs) (pc.fills config + hands)) :
    Owned config after (next.holds + pairs) (next.ownsFull config + hands) := by
  obtain ⟨zones, shape⟩ := taken.zones success owns.zones
  have fullAfter := taken.full success owns.zones
  have nrZones := shape.numZones.trans owns.nrZones
  have maxChunks := shape.maxZoneChunks.trans owns.maxChunks
  have none := taken.fills_eq_zero
  cases taken with
  | giveBack id location =>
      refine ⟨zones, nrZones, maxChunks, owns.policyMax, owns.consistent, ?_⟩
      have isHeld : location ∈ (GetPc.giveBack id location).holds + pairs := by
        simp [GetPc.holds]
      have outstanding := owns.zones.outstanding isHeld
      have notFull : ¬ IsFull cache.zoneState location.zone := by
        intro given
        obtain ⟨_, full⟩ := given
        simp [outstanding.1] at full
      have small : location.chunkOffset < 2 ^ 32 := by
        rw [← outstanding.2.1]
        exact owns.zones.entries.offsetSmall _
      have full := owns.full
      rw [GetPc.fills, zero_add] at full
      have unlisted : location.zone ∉
          Multiset.ofList cache.evictionPolicy.zones + hands := fun member =>
        notFull ((full.iff _).mp member)
      have closes := closes_iff_lastChunk fits small
      rw [← owns.maxChunks] at closes
      rw [ThreadPc.ownsFull, GetPc.fills, ← owns.maxChunks]
      split
      next last =>
          rw [Multiset.singleton_add, Multiset.add_cons]
          refine ⟨Multiset.nodup_cons.mpr ⟨unlisted, full.nodup⟩, fun zone => ?_⟩
          rw [Multiset.mem_cons, full.iff, fullAfter]
          simp [closes.mpr last, or_comm]
      next notLast =>
          rw [zero_add]
          refine full.congr rfl fun zone => ?_
          rw [fullAfter]
          simp [mt closes.mp notLast]
  | record id location policy updated =>
      by_cases last : location.chunkOffset = u32 (u32 config.maxZoneChunks - 1)
      · have full := owns.full
        rw [GetPc.fills, if_pos last, Multiset.singleton_add, Multiset.add_cons] at full
        have unlisted := (Multiset.nodup_cons.mp full.nodup).1
        rw [Multiset.mem_add, not_or] at unlisted
        obtain ⟨policy', updated', consistent, queued, sameMax⟩ :=
          owns.consistent.update_filled (last.trans owns.lastChunk.symm)
            (by simpa using unlisted.1)
        cases Option.some.inj (updated.symm.trans updated')
        refine ⟨zones, nrZones, maxChunks, sameMax.trans owns.policyMax, consistent, ?_⟩
        refine full.congr ?_ fun _ => Iff.rfl
        simp only [queued, ← Multiset.coe_add, ThreadPc.ownsFull, GetPc.fills, zero_add]
        rw [add_right_comm, Multiset.coe_singleton, add_comm, Multiset.singleton_add]
      · have notLast : location.chunkOffset ≠ cache.evictionPolicy.lastChunk := by
          rw [owns.lastChunk]
          exact last
        cases Option.some.inj
          (updated.symm.trans (ZnPolicyPromotional.update_notFilled notLast))
        have full := owns.full
        rw [GetPc.fills, if_neg last] at full
        exact ⟨zones, nrZones, maxChunks, owns.policyMax, owns.consistent, full⟩
  | touch id location data policy updated =>
      obtain ⟨policy', updated', consistent, sameZones, sameMax⟩ :=
        owns.consistent.update_read_perm location
      cases Option.some.inj (updated.symm.trans updated')
      refine ⟨zones, nrZones, maxChunks, sameMax.trans owns.policyMax, consistent, ?_⟩
      exact owns.full.congr (by rw [Multiset.coe_eq_coe.mpr sameZones]; rfl) fun _ => Iff.rfl
  | find | woken | read | release | countHit | acquire | write | writeFailed | countMiss
  | insert | undoZone | undoMap =>
      refine ⟨zones, nrZones, maxChunks, owns.policyMax, owns.consistent, ?_⟩
      rw [none (by simp)]
      exact owns.full.congr rfl fun zone => (fullAfter zone).trans (by simp)

omit [DecidableEq Thread] in
theorem FgEvictStep.owned {environment : Environment} {pc : EvictPc} {next : Option EvictPc}
    (taken : FgEvictStep cache environment pc after next)
    (success : environment.commandRet = 0)
    (owns : Owned config cache pairs (pc.takes + hands)) :
    Owned config after pairs ((next.elim 0 EvictPc.takes) + hands) := by
  cases taken with
  | start | enough | clear | wait => exact ⟨owns.zones, owns.nrZones, owns.maxChunks,
      owns.policyMax, owns.consistent, owns.full⟩
  | nothing i freeZones policy answer =>
      cases owns.consistent.takesNothing answer
      exact owns
  | take i freeZones zone policy answer =>
      obtain ⟨consistent, zones, sameMax⟩ := owns.consistent.takes answer
      refine ⟨owns.zones, owns.nrZones, owns.maxChunks, sameMax.trans owns.policyMax,
        consistent, ?_⟩
      refine owns.full.congr ?_ fun _ => Iff.rfl
      simp only [zones, EvictPc.takes, Option.elim_some, zero_add]
      rw [← Multiset.cons_coe, Multiset.cons_add, Multiset.singleton_add, Multiset.add_cons]
  | reset i freeZones zone =>
      have full := owns.full
      rw [EvictPc.takes, Multiset.singleton_add, Multiset.add_cons] at full
      have zoneFull : IsFull cache.zoneState zone := (full.iff zone).mp (by simp)
      obtain ⟨zones, freed⟩ := owns.zones.evict zoneFull
      obtain ⟨unlisted, nodup⟩ := Multiset.nodup_cons.mp full.nodup
      rw [← success] at zones freed
      refine ⟨zones, ?_, ?_, owns.policyMax, owns.consistent, ?_⟩
      · simp only [ZnCache.evictZone, freed]
        exact owns.nrZones
      · simp only [ZnCache.evictZone, freed]
        exact owns.maxChunks
      · simp only [Option.elim_some, EvictPc.takes, zero_add]
        refine ⟨nodup, fun other => ?_⟩
        simp only [ZnCache.evictZone, freed, freed_full]
        rw [← full.iff other, Multiset.mem_cons]
        by_cases same : other = zone
        · subst same
          simpa [ZnCache.evictZone] using unlisted
        · simp [same]

theorem ThreadStep.owned {thread : Thread} {choice : Choice} {pc next : ThreadPc EvictPc}
    (fits : config.maxZoneChunks < 2 ^ 32)
    (taken : ThreadStep (promotionalCode config) thread cache pc choice after next)
    (success : ∀ environment, choice = .run environment → environment.commandRet = 0)
    (owns : Owned config cache (pc.holds + pairs) (pc.ownsFull config + hands)) :
    Owned config after (next.holds + pairs) (next.ownsFull config + hands) := by
  cases taken with
  | call | callEvict => exact owns
  | wakeUp id => exact ⟨owns.zones, owns.nrZones, owns.maxChunks, owns.policyMax,
      owns.consistent, owns.full⟩
  | get ran => exact ran.owned fits (success _ rfl) owns
  | evict caller next ran => exact (fgEvictStep_spec ran).owned (success _ rfl) owns
  | evicted caller ran =>
      have passed := (fgEvictStep_spec ran).owned (success _ rfl) owns
      cases caller <;> exact passed

end Step

/-! ## Runs -/

/-- Every libzbd command of the step succeeds; chunk transfers may fail. -/
def CommandsSucceed (action : Thread × Choice) : Prop :=
  ∀ environment, action.2 = .run environment → environment.commandRet = 0

def Choice.commandRet : Choice → Int
  | .run environment => environment.commandRet
  | .get _ | .evict | .wakeUp => 0

omit [DecidableEq Thread] in
theorem commandsSucceed_iff (action : Thread × Choice) :
    CommandsSucceed action ↔ action.2.commandRet = 0 := by
  constructor
  · intro success
    cases same : action.2 with
    | run environment => exact success environment same
    | get | evict | wakeUp => rfl
  · intro zero environment same
    rw [same] at zero
    exact zero

instance (action : Thread × Choice) : Decidable (CommandsSucceed action) :=
  decidable_of_iff _ (commandsSucceed_iff action).symm

def ZonesOwned [Fintype Thread] (config : CacheConfig) (system : PromotionalSystem Thread) :
    Prop :=
  Owned config system.cache (tally ThreadPc.holds system.threads)
    (tally (ThreadPc.ownsFull config) system.threads)

section Run

variable [Fintype Thread] {config : CacheConfig} {system next : PromotionalSystem Thread}

omit [DecidableEq Thread] in
theorem ZonesOwned.init (begins : promotionalSystem config = some system) :
    ZonesOwned config system := by
  obtain ⟨small, zoneState, _, policy, idle⟩ := System.init_spec begins
  unfold ZonesOwned
  rw [tally_const_zero _ _ fun thread => by rw [idle thread]; rfl,
    tally_const_zero _ _ fun thread => by rw [idle thread]; rfl]
  constructor
  · rw [zoneState]
    exact ZonesSound.init small _ _ _ _ _
  · rw [zoneState]
    rfl
  · rw [zoneState]
    rfl
  · rw [policy]
    rfl
  · rw [policy]
    exact ZnPolicyPromotional.consistent_init _
  · rw [policy, zoneState]
    constructor
    · exact Multiset.nodup_zero
    · simp [IsFull, zsmInit, ZnPolicyPromotional.zones, promotionalInit]

theorem ZonesOwned.step (fits : config.maxZoneChunks < 2 ^ 32)
    {action : Thread × Choice} (owned : ZonesOwned config system)
    (success : CommandsSucceed action)
    (taken : system.step (promotionalCode config) action = some next) :
    ZonesOwned config next := by
  obtain ⟨thread, choice⟩ := action
  obtain ⟨cache, pc, rfl, moved⟩ := System.step_spec taken
  unfold ZonesOwned at owned ⊢
  rw [tally_split _ _ thread, tally_split _ _ thread] at owned
  simp only [System.advance]
  rw [tally_update, tally_update]
  exact moved.owned fits success owned

theorem ZonesOwned.of_run (fits : config.maxZoneChunks < 2 ^ 32)
    {allowed : PromotionalSystem Thread → Thread × Choice → Prop}
    (success : ∀ system action, allowed system action → CommandsSucceed action)
    (reached : PromotionalRun config allowed system) : ZonesOwned config system :=
  reached.invariant (fun _ begins => ZonesOwned.init begins)
    fun system action _ owned permitted taken =>
      owned.step fits (success system action permitted) taken

end Run

/-! ## Situations -/

inductive ZoneSituation
  | free
  | active
  | writing
  | queued
  | filled
  | evicting
  deriving DecidableEq, Repr

def Fills (config : CacheConfig) (system : PromotionalSystem Thread) (zone : Nat)
    (thread : Thread) : Prop :=
  ∃ id location, system.threads thread = .get (.record id location) ∧
    location.zone = zone ∧ location.chunkOffset + 1 = config.maxZoneChunks

def Evicts (system : PromotionalSystem Thread) (zone : Nat) (thread : Thread) : Prop :=
  ∃ caller code, system.threads thread = .evict caller code ∧ zone ∈ code.takes

def InSituation (config : CacheConfig) (system : PromotionalSystem Thread) (zone : Nat) :
    ZoneSituation → Prop
  | .free =>
      (system.cache.zoneState.state zone).state = .free ∧
        system.cache.zoneState.free.count zone = 1
  | .active =>
      (system.cache.zoneState.state zone).state = .active ∧
        system.cache.zoneState.active.count zone = 1
  | .writing =>
      (system.cache.zoneState.state zone).state = .writeOccuring ∧
        ∃! thread, zone ∈ (system.threads thread).holds.map ZnPair.zone
  | .queued =>
      (system.cache.zoneState.state zone).state = .full ∧
        system.cache.evictionPolicy.zones.count zone = 1
  | .filled =>
      (system.cache.zoneState.state zone).state = .full ∧
        zone ∉ system.cache.evictionPolicy.zones ∧ ∃! thread, Fills config system zone thread
  | .evicting =>
      (system.cache.zoneState.state zone).state = .full ∧
        zone ∉ system.cache.evictionPolicy.zones ∧ ∃! thread, Evicts system zone thread

section Situations

variable [Fintype Thread] {config : CacheConfig} {system : PromotionalSystem Thread}

omit [Fintype Thread] [DecidableEq Thread] in
theorem ownsFull_fills {zone : Nat} {thread : Thread} (someChunk : 0 < config.maxZoneChunks)
    (fits : config.maxZoneChunks < 2 ^ 32) :
    zone ∈ (system.threads thread).ownsFull config ↔
      Fills config system zone thread ∨ Evicts system zone thread := by
  have last : ∀ offset : Nat, offset = u32 (u32 config.maxZoneChunks - 1) ↔
      offset + 1 = config.maxZoneChunks := by
    intro offset
    unfold u32
    omega
  unfold Fills Evicts
  cases system.threads thread with
  | idle => simp [ThreadPc.ownsFull]
  | evict caller code => simp [ThreadPc.ownsFull]
  | get pc =>
      cases pc with
      | record id location =>
          simp only [ThreadPc.ownsFull, GetPc.fills, last]
          split
          next isLast => simp [isLast, eq_comm]
          next notLast =>
              simp only [Multiset.notMem_zero, reduceCtorEq, false_and, exists_false,
                or_false, false_iff]
              intro given
              obtain ⟨other, place, same, _, isLast⟩ := given
              cases same
              exact notLast isLast
      | _ => simp [ThreadPc.ownsFull, GetPc.fills]

omit [DecidableEq Thread] in
theorem ZonesOwned.owner (owned : ZonesOwned config system) {zone : Nat} :
    IsFull system.cache.zoneState zone ↔ zone ∈ system.cache.evictionPolicy.zones ∨
      ∃ thread, zone ∈ (system.threads thread).ownsFull config := by
  rw [← owned.full.iff, Multiset.mem_add, Multiset.mem_coe, mem_tally]

theorem ZonesOwned.owner_unique (owned : ZonesOwned config system) {zone : Nat}
    {thread : Thread} (mine : zone ∈ (system.threads thread).ownsFull config) :
    zone ∉ system.cache.evictionPolicy.zones ∧
      ∀ other, zone ∈ (system.threads other).ownsFull config → other = thread := by
  obtain ⟨_, nodup, apart⟩ := Multiset.nodup_add.mp owned.full.nodup
  refine ⟨fun queued => ?_, fun other yours => tally_unique nodup yours mine⟩
  exact Multiset.disjoint_left.mp apart (Multiset.mem_coe.mpr queued)
    (mem_tally.mpr ⟨thread, mine⟩)

def ZoneSituation.condition : ZoneSituation → ZnZoneCondition
  | free => .free
  | active => .active
  | writing => .writeOccuring
  | queued | filled | evicting => .full

omit [Fintype Thread] [DecidableEq Thread] in
theorem InSituation.state {zone : Nat} {situation : ZoneSituation}
    (here : InSituation config system zone situation) :
    (system.cache.zoneState.state zone).state = situation.condition := by
  cases situation <;> exact here.1

theorem ZonesOwned.situation_unique (owned : ZonesOwned config system)
    (someChunk : 0 < config.maxZoneChunks) (fits : config.maxZoneChunks < 2 ^ 32) {zone : Nat}
    {first second : ZoneSituation} (one : InSituation config system zone first)
    (two : InSituation config system zone second) : first = second := by
  have queued_apart : (system.cache.evictionPolicy.zones.count zone = 1) →
      zone ∉ system.cache.evictionPolicy.zones → False := fun once absent => by
    simp [List.count_eq_zero_of_not_mem absent] at once
  have hands_apart : (∃! thread, Fills config system zone thread) →
      (∃! thread, Evicts system zone thread) → False := by
    intro given also
    obtain ⟨filler, fills, _⟩ := given
    obtain ⟨evictor, evicts, _⟩ := also
    have same := (owned.owner_unique ((ownsFull_fills someChunk fits).mpr (.inl fills))).2
      evictor ((ownsFull_fills someChunk fits).mpr (.inr evicts))
    obtain ⟨_, _, getting, _⟩ := fills
    obtain ⟨_, _, evicting, _⟩ := evicts
    rw [same, getting] at evicting
    cases evicting
  have sameCondition := one.state.symm.trans two.state
  cases first <;> cases second <;> try cases sameCondition
  case queued.filled => exact (queued_apart one.2 two.2.1).elim
  case queued.evicting => exact (queued_apart one.2 two.2.1).elim
  case filled.queued => exact (queued_apart two.2 one.2.1).elim
  case evicting.queued => exact (queued_apart two.2 one.2.1).elim
  case filled.evicting => exact (hands_apart one.2.2 two.2.2).elim
  case evicting.filled => exact (hands_apart two.2.2 one.2.2).elim
  all_goals rfl

theorem ZonesOwned.full_situation (owned : ZonesOwned config system)
    (someChunk : 0 < config.maxZoneChunks) (fits : config.maxZoneChunks < 2 ^ 32) {zone : Nat}
    (full : IsFull system.cache.zoneState zone) :
    ∃ situation, InSituation config system zone situation := by
  have queueNodup := (Multiset.nodup_add.mp owned.full.nodup).1
  rcases owned.owner.mp full with queued | ⟨thread, mine⟩
  · exact ⟨.queued, full.2, List.count_eq_one_of_mem queueNodup queued⟩
  · obtain ⟨unqueued, unique⟩ := owned.owner_unique mine
    rcases (ownsFull_fills someChunk fits).mp mine with fills | evicts
    · refine ⟨.filled, full.2, unqueued, thread, fills, fun other fillsToo => ?_⟩
      exact unique other ((ownsFull_fills someChunk fits).mpr (.inl fillsToo))
    · refine ⟨.evicting, full.2, unqueued, thread, evicts, fun other evictsToo => ?_⟩
      exact unique other ((ownsFull_fills someChunk fits).mpr (.inr evictsToo))

theorem ZonesOwned.situation (owned : ZonesOwned config system)
    (someChunk : 0 < config.maxZoneChunks) (fits : config.maxZoneChunks < 2 ^ 32) {zone : Nat}
    (below : zone < config.nrZones) :
    ∃ situation, InSituation config system zone situation := by
  have partition := owned.zones.partition
  rw [← owned.nrZones] at below
  cases state : (system.cache.zoneState.state zone).state with
  | free =>
      have queued := (partition.freeIff zone).mpr ⟨below, state⟩
      exact ⟨.free, state, List.count_eq_one_of_mem partition.freeNodup queued⟩
  | active =>
      have queued := (partition.activeIff zone).mpr ⟨below, state⟩
      exact ⟨.active, state, List.count_eq_one_of_mem partition.activeNodup queued⟩
  | writeOccuring =>
      obtain ⟨pair, inTally, atZone⟩ :=
        Multiset.mem_map.mp ((partition.heldIff zone).mpr ⟨below, state⟩)
      obtain ⟨thread, holds⟩ := mem_tally.mp inTally
      refine ⟨.writing, state, thread, Multiset.mem_map.mpr ⟨pair, holds, atZone⟩, ?_⟩
      intro other member
      obtain ⟨pair', holds', atZone'⟩ := Multiset.mem_map.mp member
      have same := partition.held_unique inTally (mem_tally.mpr ⟨other, holds'⟩)
        (atZone.trans atZone'.symm)
      subst same
      exact tally_unique (Multiset.Nodup.of_map _ partition.heldNodup) holds' holds
  | full => exact owned.full_situation someChunk fits ⟨below, state⟩

end Situations

/-- In every interleaving whose libzbd commands succeed, every zone is in exactly
one situation, and whoever resets a zone finds it full. -/
theorem zone_situation [Fintype Thread] {config : CacheConfig} (someChunk : 1 ≤ config.chunkSz)
    (chunkFits : config.chunkSz ≤ config.zoneCap) (fits : config.maxZoneChunks < 2 ^ 32)
    {system : PromotionalSystem Thread}
    (reached : PromotionalRun config (fun _ action => CommandsSucceed action) system) :
    (∀ zone, zone < config.nrZones →
      ∃! situation, InSituation config system zone situation) ∧
    ∀ thread caller i freeZones zone,
      system.threads thread = .evict caller (.reset i freeZones zone) →
      (zsmEvict 0 system.cache.zoneState zone).asserts = true := by
  have owned := ZonesOwned.of_run fits (fun _ _ success => success) reached
  have positive : 0 < config.maxZoneChunks := Nat.div_pos chunkFits someChunk
  constructor
  · intro zone below
    obtain ⟨situation, here⟩ := owned.situation positive fits below
    exact ⟨situation, here, fun other there =>
      owned.situation_unique positive fits there here⟩
  · intro thread caller i freeZones zone here
    have full : IsFull system.cache.zoneState zone := by
      refine owned.owner.mpr (.inr ⟨thread, ?_⟩)
      simp [here, ThreadPc.ownsFull, EvictPc.takes]
    exact zsmEvict_asserts_of_full full.2 (backendRet_zero _)

/-- One thread fills the only zone and has yet to record it. -/
theorem zone_situation_filled :
    ∃ system : PromotionalSystem (Fin 2),
      System.execute (promotionalCode oneChunkConfig) oneChunkConfig (promotionalInit 1)
        [(0, .get 7), (0, .run .smooth), (0, .run .smooth), (0, .run .smooth),
          (0, .run .smooth), (0, .run .smooth)] = some system ∧
      ∃! situation, InSituation oneChunkConfig system 0 situation := by
  cases executed : System.execute (promotionalCode oneChunkConfig) oneChunkConfig
      (promotionalInit 1) [((0 : Fin 2), .get 7), (0, .run .smooth), (0, .run .smooth),
        (0, .run .smooth), (0, .run .smooth), (0, .run .smooth)] with
  | none => cases executed
  | some system =>
      refine ⟨system, rfl, ?_⟩
      exact (@zone_situation _ _ _ oneChunkConfig (by decide) (by decide) (by decide) _
        (System.reach_of_execute executed fun start _ =>
          AllowedAlong.of_forall _ start (by simp [CommandsSucceed, Environment.smooth]))).1
          0 (by decide)

end ZNCache
