import ZNCache.ChunkCustody
import ZNCache.SingleWriter

/-!
# The custody in every run

Each section of `zn_cache_get`, of the eviction and of the GC keeps the custody, and
with it every interleaving of theirs does.
-/

set_option autoImplicit false

namespace ZNCache

open Tally Transition ZoneStateManager ZnPolicyChunk Duties

/-! ## Sections of `zn_cache_get` -/

section Get

variable {Thread : Type} [DecidableEq Thread] {config : CacheConfig} {maxChunks : Nat}
  {rest : Duties}

abbrev CacheCustody (maxChunks : Nat) (cache : ChunkCache Thread) (duties : Duties) : Prop :=
  ChunkCustody maxChunks cache.zoneState cache.cacheMap cache.evictionPolicy duties

omit [DecidableEq Thread] in
theorem znPolicyChunkUpdate_read {policy after : ZnPolicyChunk Thread} {location : ZnPair}
    (updated : znPolicyChunkUpdate policy location .read = some after) :
    after.invalidPqueue = policy.invalidPqueue ∧ after.zonePool = policy.zonePool ∧
      after.maxZoneChunks = policy.maxZoneChunks ∧ after.holder = policy.holder := by
  unfold znPolicyChunkUpdate at updated
  dsimp only at updated
  split at updated
  next => simp at updated
  next =>
      split at updated
      next =>
          cases Option.some.inj updated
          exact ⟨rfl, rfl, rfl, rfl⟩
      next =>
          split at updated
          next => simp at updated
          next =>
              cases Option.some.inj updated
              exact ⟨rfl, rfl, rfl, rfl⟩

theorem GetStep.custody {thread : Thread} {cache after : ChunkCache Thread}
    {environment : Environment} {pc : GetPc} {next : ThreadPc ChunkEvictPc}
    (fits : maxChunks < 2 ^ 32)
    (taken : GetStep (chunkCode config) thread cache environment pc after next)
    (small : ∀ id ∈ pc.seeks, id < 2 ^ 32)
    (custody : CacheCustody maxChunks cache (pc.duties maxChunks + rest)) :
    CacheCustody maxChunks after (next.duties maxChunks + rest) := by
  cases taken with
  | find id =>
      have smallId := small id (by simp [GetPc.seeks])
      rw [duties_afterFind]
      rw [GetPc.duties, zero_add] at custody
      have found := znCachemapFind_spec thread cache.cacheMap smallId
      generalize znCachemapFind thread cache.cacheMap id = answer at found
      obtain ⟨result, map⟩ := answer
      cases found with
      | loc entry found located => exact custody.addReader entry.location.zone
      | wait entry found busy =>
          have unlocated : entry.type ≠ .loc := by simp [busy]
          obtain ⟨keys, listed⟩ := custody.keys.setEntry custody.listed smallId
            { entry with writeFinished := entry.writeFinished ++ [thread] } unlocated
          rw [zero_add]
          exact custody.setMap keys listed (fun _ _ => locates_setEntry unlocated) rfl
      | claim entry unclaimed busy =>
          have unlocated : entry.type ≠ .loc := by simp [busy]
          obtain ⟨keys, listed⟩ := custody.keys.setEntry custody.listed smallId entry unlocated
          rw [zero_add]
          exact custody.setMap keys listed (fun _ _ => locates_setEntry unlocated) rfl
  | touch id location data policy updated =>
      obtain ⟨heap, pool, sameMax, _⟩ := znPolicyChunkUpdate_read updated
      refine custody.setPolicy ?_ ?_ ?_ sameMax
      · rw [heap]
      · rw [heap]
        exact custody.allocated
      · intro zone
        rw [pool]
  | release id location data =>
      rw [ThreadPc.duties, GetPc.duties, zero_add]
      exact custody.dropReader
  | acquire id =>
      rw [GetPc.duties, zero_add] at custody
      obtain ⟨success, nothing⟩ := custody.getActiveZone
        (zsmGetActiveZone_answer environment.commandRet cache.zoneState)
      rcases duties_afterGetActiveZone id
          (zsmGetActiveZone environment.commandRet cache.zoneState).ret with
        ⟨pair, handed, duties⟩ | ⟨none, duties⟩
      · refine duties.symm ▸ success pair handed
      · refine duties.symm ▸ (zero_add rest).symm ▸ nothing none
  | giveBack id location =>
      exact custody.returnActiveZone fits id (zsmReturnActiveZone_spec _ _ _)
  | record id location policy updated => exact custody.record updated
  | insert id location answer inserted =>
      obtain ⟨smallId, located⟩ := custody.keys.insert inserted
      rw [ThreadPc.duties, zero_add]
      simp only [located]
      exact custody.insert smallId
  | undoZone id location =>
      rw [ThreadPc.duties, GetPc.duties, zero_add]
      exact custody.failedToWrite
  | undoMap id answer failed =>
      obtain ⟨keys, listed, readers, located⟩ := custody.keys.fail custody.listed failed
      exact custody.setMap keys listed located readers
  | woken | read | countHit | write | writeFailed | countMiss => exact custody

end Get

/-! ## Sections of the eviction and of the GC -/

section Evict

variable {Thread : Type} {config : CacheConfig} {maxChunks : Nat} {rest : Duties}

theorem evictChunk_zones {policy after : ZnPolicyChunk Thread} {pair : ZnPair}
    (evicted : evictChunk policy = some (pair, after)) :
    after.invalidPqueue.zones.Perm policy.invalidPqueue.zones ∧
      (policy.invalidPqueue.Allocated → after.invalidPqueue.Allocated) ∧
      (∀ zone, (after.zonePool zone).zoneId = (policy.zonePool zone).zoneId) ∧
      after.maxZoneChunks = policy.maxZoneChunks := by
  unfold evictChunk at evicted
  cases popped : policy.lruQueue.popHead with
  | none => simp [popped] at evicted
  | some head =>
      obtain ⟨position, queue⟩ := head
      rw [popped] at evicted
      obtain ⟨rfl, rfl⟩ := Prod.mk.inj (Option.some.inj evicted)
      refine ⟨(ZnMinheap.zones_updateByEntry _ _ _).1, (ZnMinheap.zones_updateByEntry _ _ _).2,
        fun zone => ?_, rfl⟩
      exact zoneId_setSlot _ _ _ _ zone

def dutiesAfter : Option ChunkEvictPc → Duties
  | some pc => pc.duties
  | none => 0

theorem ChunkEvictStep.custody {thread : Thread} {cache after : ChunkCache Thread}
    {environment : Environment} {pc : ChunkEvictPc} {next : Option ChunkEvictPc}
    (taken : ChunkEvictStep config thread cache environment pc after next)
    (settled : ∀ zone, pc = .gcClear zone → ∀ chunk ∈ rest.pending,
      chunk.2.zone ≠ cache.zoneId zone)
    (restCleared : ∀ zone ∈ rest.cleared, zone ∈ rest.reclaimed)
    (custody : CacheCustody maxChunks cache (pc.duties + rest)) :
    CacheCustody maxChunks after (dutiesAfter next + rest) := by
  cases taken with
  | lock nr unheld =>
      exact custody.setPolicy (List.Perm.refl _) custody.allocated (fun _ => rfl) rfl
  | pop i nr pair policy evicted =>
      obtain ⟨zones, allocated, sameIds, sameMax⟩ := evictChunk_zones evicted
      rw [ChunkEvictPc.duties, zero_add] at custody
      exact (ChunkCustody.pops_iff _).mpr
        (custody.setPolicy zones (allocated custody.allocated) sameIds sameMax)
  | mark i nr pair =>
      refine custody.setZones (le_of_eq rfl) (fun _ => id) (fun _ => id) ?_ ?_ rfl
      · intro zone
        by_cases same : zone = pair.zone
        · subst same
          simp [zsmMarkChunkInvalid]
        · simp [zsmMarkChunkInvalid, same]
      · intro zone
        by_cases same : zone = pair.zone
        · subst same
          simp [zsmMarkChunkInvalid]
        · simp [zsmMarkChunkInvalid, same]
  | clear i nr pair answer cleared =>
      obtain ⟨keys, listed, readers, located⟩ := custody.keys.clearChunk custody.listed cleared
      have emptied := custody.setMap keys listed
        (fun id place here => (located id place here).1) readers
      rw [dutiesAfter, ChunkEvictPc.duties, zero_add]
      exact (ChunkCustody.pops_iff _).mp emptied
  | gcTake freeZones handle heap extracted =>
      rw [ChunkEvictPc.duties, zero_add] at custody
      exact custody.reclaim extracted
  | gcAcquire zone chunk location inZone used handed =>
      have answer := zsmGetActiveZone_answer environment.commandRet cache.zoneState
      have acquired := (custody.getActiveZone answer).1 location handed
      rw [← add_assoc] at acquired
      exact acquired
  | gcInsert zone chunk location answer inserted =>
      obtain ⟨small, located⟩ := custody.keys.insert inserted
      rw [ChunkEvictPc.duties, add_assoc] at custody
      simp only [located]
      exact (custody.migrate small).setPolicy (List.Perm.refl _) custody.allocated
        (fun other => zoneId_moveSlot _ _ _ other) rfl
  | gcClear zone answer cleared =>
      have own : cache.zoneId zone = zone :=
        custody.poolIds zone (.inr (by simp [ChunkEvictPc.duties, reclaims]))
      have apart := settled zone rfl
      rw [own] at cleared apart
      have emptied := ChunkCustody.clearZone custody apart cleared
      rw [← add_assoc] at emptied
      exact emptied
  | gcReset zone =>
      have own : cache.zoneId zone = zone :=
        custody.poolIds zone (.inr (by simp [ChunkEvictPc.duties, reclaims]))
      rw [ChunkEvictPc.duties, add_assoc] at custody
      rw [dutiesAfter, ChunkEvictPc.duties, zero_add]
      apply custody.resetZone restCleared
      rw [own]
      exact zsmEvict_spec environment.commandRet cache.zoneState zone
  | leave =>
      exact custody.setPolicy (List.Perm.refl _) custody.allocated (fun _ => rfl) rfl
  | turnedAway | popped | gcEnough | gcShort | gcDone | gcSkip => exact custody
  | gcScanned | gcRead | gcWrite | gcCount => exact custody

end Evict

/-! ## Runs -/

section Run

variable {Thread : Type} [DecidableEq Thread] {config : CacheConfig} {rest : Duties}

theorem ThreadStep.custody {thread : Thread} {choice : Choice} {cache after : ChunkCache Thread}
    {pc next : ThreadPc ChunkEvictPc} (fits : config.maxZoneChunks < 2 ^ 32)
    (taken : ThreadStep (chunkCode config) thread cache pc choice after next)
    (small : ∀ id ∈ pc.seeks, id < 2 ^ 32)
    (settled : ∀ caller zone, pc = .evict caller (.gcClear zone) → ∀ chunk ∈ rest.pending,
      chunk.2.zone ≠ cache.zoneId zone)
    (restCleared : ∀ zone ∈ rest.cleared, zone ∈ rest.reclaimed)
    (custody : CacheCustody config.maxZoneChunks cache
      (pc.duties config.maxZoneChunks + rest)) :
    CacheCustody config.maxZoneChunks after (next.duties config.maxZoneChunks + rest) := by
  cases taken with
  | call | callEvict => exact custody
  | wakeUp id =>
      obtain ⟨dataMap, readers, located⟩ := cache.cacheMap.wakeUp_locates thread id
      refine custody.setMap (custody.keys.wakeUp thread id) ?_ located readers
      intro other location here
      rw [dataMap]
      exact custody.listed other location (located other location here)
  | get ran => exact ran.custody fits small custody
  | evict caller next ran =>
      apply (chunkEvictStep_spec ran).custody _ restCleared custody
      exact fun zone same => settled caller zone (by rw [same])
  | evicted caller ran =>
      rw [duties_afterEvict]
      apply (chunkEvictStep_spec ran).custody _ restCleared custody
      exact fun zone same => settled caller zone (by rw [same])

/-- A step of a thread that clears a zone is taken when no chunk of the zone is pending. -/
def GcSettled (system : ChunkSystem Thread) (action : Thread × Choice) : Prop :=
  ∀ caller zone, system.threads action.1 = .evict caller (.gcClear zone) →
    ∀ thread, ∀ chunk ∈ (system.threads thread).pending,
      chunk.2.zone ≠ ChunkCache.zoneId system.cache zone

theorem gcSettled_solo {system : ChunkSystem Unit} (action : Unit × Choice) :
    GcSettled system action := by
  intro caller zone here other chunk member
  rw [show other = action.1 from rfl, here] at member
  exact absurd member (Multiset.notMem_zero _)

structure CustodySound [Fintype Thread] (maxChunks : Nat) (system : ChunkSystem Thread) :
    Prop where
  seeks : ∀ thread, ∀ id ∈ (system.threads thread).seeks, id < 2 ^ 32
  custody : CacheCustody maxChunks system.cache
    (tally (ThreadPc.duties maxChunks) system.threads)

variable [Fintype Thread]

omit [DecidableEq Thread] in
theorem CustodySound.init {system : ChunkSystem Thread}
    (begins : chunkSystem config = some system) :
    CustodySound config.maxZoneChunks system := by
  obtain ⟨_, zones, emptyMap, policy, idle⟩ := System.init_spec begins
  have nothing : tally (ThreadPc.duties config.maxZoneChunks) system.threads = 0 :=
    tally_const_zero _ _ fun thread => by rw [idle thread]; rfl
  refine ⟨fun thread id member => ?_, ?_⟩
  · rw [idle thread] at member
    exact absurd member (Multiset.notMem_zero _)
  · rw [CacheCustody, zones, emptyMap, policy, nothing]
    exact ChunkCustody.init config.nrZones config.zoneCap config.zoneSize config.chunkSz
      config.maxActive config.backend

theorem CustodySound.split {maxChunks : Nat} {system : ChunkSystem Thread}
    (sound : CustodySound maxChunks system) (thread : Thread) :
    CacheCustody maxChunks system.cache ((system.threads thread).duties maxChunks +
      others (ThreadPc.duties maxChunks) system.threads thread) := by
  rw [← tally_split]
  exact sound.custody

theorem CustodySound.step (fits : config.maxZoneChunks < 2 ^ 32)
    {system next : ChunkSystem Thread} {action : Thread × Choice}
    (sound : CustodySound config.maxZoneChunks system) (settled : GcSettled system action)
    (taken : system.step (chunkCode config) action = some next) :
    CustodySound config.maxZoneChunks next := by
  have below := System.getsBelow_of_step taken
  obtain ⟨thread, choice⟩ := action
  obtain ⟨cache, pc, rfl, moved⟩ := System.step_spec taken
  constructor
  · intro other id member
    by_cases same : other = thread
    · subst same
      simp only [System.advance, Function.update_self] at member
      rcases moved.seeks member with sought | called
      · exact sound.seeks other id sought
      · exact below id called
    · simp only [System.advance, Function.update_of_ne same] at member
      exact sound.seeks other id member
  · simp only [System.advance]
    rw [tally_update]
    apply moved.custody fits (sound.seeks thread) _ _ (sound.split thread)
    · intro caller zone here chunk member
      obtain ⟨other, _, pending⟩ := mem_others_pending.mp member
      exact settled caller zone here other chunk pending
    · intro zone member
      obtain ⟨other, apart, cleared⟩ := (@mem_others_part _ _ _ _ _ _ _ clearedPart _ _ _ _).mp
        member
      exact (@mem_others_part _ _ _ _ _ _ _ reclaimedPart _ _ _ _).mpr
        ⟨other, apart, (ThreadPc.duties_cleared _ cleared).1⟩

abbrev ChunkRun (config : CacheConfig)
    (allowed : ChunkSystem Thread → Thread × Choice → Prop) (system : ChunkSystem Thread) :
    Prop :=
  Reach (System.step (chunkCode config)) allowed (chunkSystem config = some ·) system

theorem CustodySound.of_reach (fits : config.maxZoneChunks < 2 ^ 32)
    {allowed : ChunkSystem Thread → Thread × Choice → Prop}
    (settled : ∀ system action, allowed system action → GcSettled system action)
    {system : ChunkSystem Thread} (reached : ChunkRun config allowed system) :
    CustodySound config.maxZoneChunks system :=
  reached.invariant (fun _ begins => CustodySound.init begins)
    fun system action _ sound permitted taken =>
      sound.step fits (settled system action permitted) taken

end Run

end ZNCache
