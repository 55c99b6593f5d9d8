import ZNCache.SystemPlacement

/-!
# What the counting functions report

The functions by which tests and metrics look at a running cache: the numbers of active,
free and full zones, and the size of what the policy can evict.
-/

set_option autoImplicit false

namespace ZNCache

open Tally Transition

def zsmGetNumActiveZones (manager : ZoneStateManager) : Nat := manager.activeZones

/-- The loop over `state`, with its `uint32_t` counter. -/
def zsmGetNumFullZones (manager : ZoneStateManager) : Nat :=
  (List.range manager.numZones).foldl
    (fun count zone => if (manager.state zone).state = .full then u32 (count + 1) else count) 0

def zsmGetNumInvalidChunks (manager : ZoneStateManager) (zone : Nat) : Nat :=
  (manager.state zone).invalid.length

/-- `zn_evict_policy_get_cache_size` for `ZN_EVICT_PROMOTE_ZONE`, in 64-bit arithmetic. -/
def znEvictPolicyGetCacheSize (zoneCap : Nat) (policy : ZnPolicyPromotional) : Nat :=
  policy.zones.length * zoneCap % 2 ^ 64

section Counts

variable {manager : ZoneStateManager} {held : Multiset ZnPair}

def zonesIn (manager : ZoneStateManager) (condition : ZnZoneCondition) : Finset Nat :=
  (Finset.range manager.numZones).filter fun zone => (manager.state zone).state = condition

theorem zsmGetNumFullZones_eq (small : manager.numZones < 2 ^ 32) :
    zsmGetNumFullZones manager = (zonesIn manager .full).card := by
  have counts : ∀ bound, bound ≤ manager.numZones →
      (List.range bound).foldl (fun count zone =>
        if (manager.state zone).state = .full then u32 (count + 1) else count) 0 =
      ((Finset.range bound).filter fun zone => (manager.state zone).state = .full).card := by
    intro bound
    induction bound with
    | zero => exact fun _ => rfl
    | succ bound ih =>
        intro within
        have before := ih (Nat.le_of_succ_le within)
        rw [List.range_succ, List.foldl_append, before, Finset.range_add_one,
          Finset.filter_insert]
        have fewer : ((Finset.range bound).filter fun zone =>
            (manager.state zone).state = .full).card ≤ bound :=
          (Finset.card_filter_le _ _).trans_eq (Finset.card_range bound)
        simp only [List.foldl_cons, List.foldl_nil]
        split
        next isFull =>
            rw [Finset.card_insert_of_notMem (by simp)]
            exact_mod_cast u32_of_nat (by omega)
        next => rfl
  exact counts manager.numZones (Nat.le_refl _)

theorem ZonePartition.free_card (partition : ZonePartition manager held) :
    manager.free.length = (zonesIn manager .free).card := by
  rw [← List.toFinset_card_of_nodup partition.freeNodup]
  congr 1
  ext zone
  rw [List.mem_toFinset, partition.freeIff, zonesIn, Finset.mem_filter, Finset.mem_range]

/-- Every zone is free, in play or full. -/
theorem ZonePartition.counts_add (partition : ZonePartition manager held)
    (small : manager.numZones < 2 ^ 32) :
    zsmGetNumActiveZones manager + zsmGetNumFreeZones manager + zsmGetNumFullZones manager =
      manager.numZones := by
  have inPlay := partition.inPlay_card
  rw [zsmGetNumActiveZones, partition.activeZones_eq small, ← inPlay, zsmGetNumFreeZones,
    partition.free_card, zsmGetNumFullZones_eq small]
  have split : (Finset.range manager.numZones).card =
      ((Finset.range manager.numZones).filter fun zone =>
        (manager.state zone).state = .active ∨ (manager.state zone).state = .writeOccuring).card +
      (zonesIn manager .free).card + (zonesIn manager .full).card := by
    rw [zonesIn, zonesIn, ← Finset.card_union_of_disjoint, ← Finset.card_union_of_disjoint]
    · congr 1
      ext zone
      simp only [Finset.mem_union, Finset.mem_filter, Finset.mem_range]
      cases (manager.state zone).state <;> simp
    · rw [Finset.disjoint_left]
      intro zone either
      simp only [Finset.mem_union, Finset.mem_filter] at either ⊢
      rcases either with ⟨_, active | writing⟩ | ⟨_, free⟩ <;> simp [*]
    · rw [Finset.disjoint_left]
      intro zone inPlay
      simp only [Finset.mem_filter] at inPlay ⊢
      rcases inPlay.2 with active | writing <;> simp [*]
  rw [← split, Finset.card_range]

end Counts

section Run

variable {Thread : Type} [Fintype Thread] [DecidableEq Thread] {config : CacheConfig}
  {system : PromotionalSystem Thread}

omit [DecidableEq Thread] in
theorem ZonesOwned.full_card (owned : ZonesOwned config system) :
    (zonesIn system.cache.zoneState .full).card =
      system.cache.evictionPolicy.zones.length +
        (tally (ThreadPc.ownsFull config) system.threads).card := by
  obtain ⟨nodup, iff⟩ := owned.full
  rw [← Multiset.coe_card, ← Multiset.card_add, ← Multiset.toFinset_card_of_nodup nodup]
  congr 1
  ext zone
  rw [Multiset.mem_toFinset, iff, zonesIn, Finset.mem_filter, Finset.mem_range, IsFull]

/-- In every interleaving the numbers of active, free and full zones add up to the zones of
the device, and the reported cache size is the capacity of the full zones less those that
threads have in hand. -/
theorem reported_counts (fits : config.maxZoneChunks < 2 ^ 32)
    (device : config.zoneCap * config.nrZones < 2 ^ 64)
    (reached : PromotionalRun config (fun _ action => CommandsSucceed action) system) :
    zsmGetNumActiveZones system.cache.zoneState + zsmGetNumFreeZones system.cache.zoneState +
        zsmGetNumFullZones system.cache.zoneState = config.nrZones ∧
      znEvictPolicyGetCacheSize config.zoneCap system.cache.evictionPolicy +
          config.zoneCap * (tally (ThreadPc.ownsFull config) system.threads).card =
        config.zoneCap * zsmGetNumFullZones system.cache.zoneState ∧
      ((∀ thread, system.threads thread = .idle) →
        znEvictPolicyGetCacheSize config.zoneCap system.cache.evictionPolicy =
          config.zoneCap * zsmGetNumFullZones system.cache.zoneState) := by
  have owned := ZonesOwned.of_run fits (fun _ _ success => success) reached
  have small := owned.zones.counts
  have total := owned.zones.partition.counts_add small
  have full := owned.full_card
  rw [owned.nrZones] at total
  rw [← zsmGetNumFullZones_eq small] at full
  have size : znEvictPolicyGetCacheSize config.zoneCap system.cache.evictionPolicy =
      config.zoneCap * system.cache.evictionPolicy.zones.length := by
    have inside : config.zoneCap * system.cache.evictionPolicy.zones.length ≤
        config.zoneCap * config.nrZones := Nat.mul_le_mul_left _ (by omega)
    rw [znEvictPolicyGetCacheSize, Nat.mul_comm]
    exact Nat.mod_eq_of_lt (by omega)
  have whole : znEvictPolicyGetCacheSize config.zoneCap system.cache.evictionPolicy +
      config.zoneCap * (tally (ThreadPc.ownsFull config) system.threads).card =
        config.zoneCap * zsmGetNumFullZones system.cache.zoneState := by
    rw [size, full, Nat.mul_add]
  refine ⟨total, whole, fun idle => ?_⟩
  rw [tally_const_zero _ _ fun thread => by rw [idle thread]; rfl] at whole
  simpa using whole

end Run

/-- The only zone is full and a reader of its chunk is under way. -/
theorem reported_counts_missThenHit :
    ∃ system : PromotionalSystem (Fin 2),
      System.execute (promotionalCode oneChunkConfig) oneChunkConfig (promotionalInit 1)
        (missThenHit 0) = some system ∧
      zsmGetNumFullZones system.cache.zoneState = 1 ∧
      zsmGetNumActiveZones system.cache.zoneState + zsmGetNumFreeZones system.cache.zoneState +
        zsmGetNumFullZones system.cache.zoneState = 1 := by
  cases executed : System.execute (promotionalCode oneChunkConfig) oneChunkConfig
      (promotionalInit 1) (missThenHit (0 : Fin 2)) with
  | none => cases executed
  | some system =>
      refine ⟨system, rfl, ?_, (@reported_counts _ _ _ oneChunkConfig system (by decide)
        (by decide) (System.reach_of_execute executed fun start _ =>
          AllowedAlong.of_forall _ start ?_)).1⟩
      · cases Option.some.inj executed
        rfl
      · simp [missThenHit, CommandsSucceed, Environment.smooth]

end ZNCache
