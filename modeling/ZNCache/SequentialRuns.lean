import ZNCache.SequentialGet

/-!
# The calls of one thread are runs

Every call that returns passes through the sections that threads interleave, one after the
other, with nothing in between.
-/

set_option autoImplicit false

namespace ZNCache

open Transition ZnPolicyPromotional

def Choice.Smooth : Choice → Prop
  | .get _ => True
  | .run environment => environment = .smooth
  | .evict | .wakeUp => False

/-- The only thread stands here when the cache is this. -/
def Stands (config : CacheConfig) (cache : PromotionalCache Unit) (pc : ThreadPc EvictPc) : Prop :=
  Reach (System.step (promotionalCode config)) (fun _ action => action.2.Smooth)
    (promotionalSystem config = some ·) ⟨cache, fun _ => pc⟩

section Sections

variable {config : CacheConfig} {cache after : PromotionalCache Unit}

theorem Stands.init (begins : znInitCache config (promotionalInit config.maxZoneChunks) =
    some cache) : Stands config cache .idle := by
  apply Reach.start
  simp [promotionalSystem, System.init, begins]

theorem Stands.move {pc next : ThreadPc EvictPc} {choice : Choice} (stands : Stands config cache pc)
    (smooth : choice.Smooth) (taken : System.step (promotionalCode config)
      (⟨cache, fun _ => pc⟩ : PromotionalSystem Unit) ((), choice) =
        some (System.advance ⟨cache, fun _ => pc⟩ () after next)) :
    Stands config after next := by
  have same : (System.advance ⟨cache, fun _ => pc⟩ () after next : PromotionalSystem Unit) =
      ⟨after, fun _ => next⟩ := by
    rw [System.advance, System.mk.injEq]
    exact ⟨rfl, funext fun _ => Function.update_self ..⟩
  rw [Stands, ← same]
  exact Reach.step ((), choice) stands smooth taken

theorem Stands.call {id : Nat} (stands : Stands config cache .idle) (small : id < 2 ^ 32) :
    Stands config cache (.get (.find id)) := by
  apply @Stands.move _ _ _ _ _ (.get id) stands trivial
  simp only [System.step, if_pos small]

theorem Stands.get {pc : GetPc} {next : ThreadPc EvictPc} (stands : Stands config cache (.get pc))
    (ran : getStep (promotionalCode config) () cache .smooth pc = some (after, next)) :
    Stands config after next := by
  apply @Stands.move _ _ _ _ _ (.run .smooth) stands rfl
  cases pc <;> simp [System.step, ran]

theorem Stands.evict {caller : Option Nat} {pc : EvictPc} {next : Option EvictPc}
    (stands : Stands config cache (.evict caller pc))
    (ran : fgEvictStep config.evictLowThreshZones cache .smooth pc = some (after, next)) :
    Stands config after (next.elim (afterEvict caller) (.evict caller)) := by
  apply @Stands.move _ _ _ _ _ (.run .smooth) stands rfl
  cases next <;> simp [System.step, promotionalCode, ran]

end Sections

theorem getZoneToEvict_zones {policy after : ZnPolicyPromotional} {zone : Nat}
    (taken : znPolicyPromotionalGetZoneToEvict true policy = (some zone, after)) :
    policy.zones = zone :: after.zones := by
  unfold znPolicyPromotionalGetZoneToEvict at taken
  cases popped : policy.lruQueue.popHead with
  | none => simp [popped] at taken
  | some head =>
      simp only [popped, if_true, Prod.mk.injEq, Option.some.injEq] at taken
      obtain ⟨rfl, rfl⟩ := taken
      exact LinkedQueue.popHead_items popped

section Calls

variable {config : CacheConfig} {after : DeviceCache}

/-- By induction on the zones in the queue: each pass takes one. -/
theorem Stands.fgEvictLoop {freeZones : Nat} {caller : Option Nat} (zones : Nat) :
    ∀ {i : Nat} {state : DeviceCache},
      ZNCache.fgEvictLoop config freeZones zones i state = some after →
      state.cache.evictionPolicy.zones.length = zones →
      Stands config state.cache (.evict caller (.loop i freeZones)) →
      Stands config after.cache (afterEvict caller) := by
  induction zones with
  | zero =>
      intro i state ran empty stands
      cases Option.some.inj ran
      have popped := LinkedQueue.popHead_none.mpr (List.length_eq_zero_iff.mp empty)
      apply @Stands.evict _ _ _ _ _ none stands
      simp [fgEvictStep, znPolicyPromotionalGetZoneToEvict, Environment.smooth, popped]
  | succ zones ih =>
      intro i state ran length stands
      rw [ZNCache.fgEvictLoop] at ran
      split at ran
      next more =>
          cases answer : znPolicyPromotionalGetZoneToEvict true state.cache.evictionPolicy with
          | mk zone policy =>
          rw [answer] at ran
          have asked : fgEvictStep config.evictLowThreshZones state.cache .smooth
              (.loop i freeZones) =
                some ({ state.cache with evictionPolicy := policy },
                  zone.map (.clear i freeZones)) := by
            simp only [fgEvictStep, if_pos more, Environment.smooth, answer]
          have clears := stands.evict asked
          cases zone with
          | none =>
              cases Option.some.inj ran
              exact clears
          | some zone =>
              dsimp only at ran
              cases cleared : znCachemapClearZone state.cache.cacheMap zone with
              | none => simp [cleared] at ran
              | some answered =>
                  simp only [cleared] at ran
                  split at ran
                  next => cases ran
                  next idle =>
                      let swept : PromotionalCache Unit :=
                        { state.cache with evictionPolicy := policy, cacheMap := answered.state }
                      have clearing : fgEvictStep config.evictLowThreshZones
                          { state.cache with evictionPolicy := policy } .smooth
                          (.clear i freeZones zone) =
                            some (swept, some (.wait i freeZones zone)) := by
                        simp only [fgEvictStep, cleared, swept]
                      have waiting : fgEvictStep config.evictLowThreshZones swept .smooth
                          (.wait i freeZones zone) =
                            some (swept, some (.reset i freeZones zone)) := if_neg idle
                      have resetting : fgEvictStep config.evictLowThreshZones swept .smooth
                          (.reset i freeZones zone) =
                            some (swept.evictZone 0 zone, some (.loop (u32 (i + 1)) freeZones)) :=
                        rfl
                      refine ih ran ?_ (((clears.evict clearing).evict waiting).evict resetting)
                      have fewer := getZoneToEvict_zones answer
                      rw [fewer, List.length_cons] at length
                      exact Nat.succ.inj length
      next done =>
          cases Option.some.inj ran
          apply @Stands.evict _ _ _ _ _ none stands
          rw [fgEvictStep, if_neg done]

theorem Stands.znFgEvict {state : DeviceCache} {caller : Option Nat}
    (ran : ZNCache.znFgEvict config state = some after)
    (stands : Stands config state.cache (.evict caller .start)) :
    Stands config after.cache (afterEvict caller) := by
  have loops := @Stands.evict _ _ _ _ _
    (some (.loop 0 (zsmGetNumFreeZones state.cache.zoneState))) stands rfl
  exact Stands.fgEvictLoop _ ran (LinkedQueue.length_eq _).symm loops

theorem Stands.acquireLoop {id : Nat} {found : Option ZnPair} (passes : Nat) :
    ∀ {state : DeviceCache}, ZNCache.acquireLoop config passes state = some (found, after) →
      Stands config state.cache (.get (.acquire id)) →
      Stands config after.cache (.get (found.elim (.undoMap id) (.write id))) := by
  induction passes with
  | zero => intro state ran stands; cases ran
  | succ passes ih =>
      intro state ran stands
      rw [ZNCache.acquireLoop] at ran
      have asked : Stands config
          { state.cache with zoneState := (zsmGetActiveZone 0 state.cache.zoneState).state }
          (afterGetActiveZone id .start (zsmGetActiveZone 0 state.cache.zoneState).ret) :=
        stands.get rfl
      cases answer : (zsmGetActiveZone 0 state.cache.zoneState).ret with
      | success location =>
          simp only [answer, Option.some.injEq, Prod.mk.injEq] at ran
          obtain ⟨rfl, rfl⟩ := ran
          rw [answer] at asked
          exact asked
      | retry =>
          simp only [answer] at ran
          rw [answer] at asked
          exact ih ran asked
      | error =>
          simp only [answer, Option.some.injEq, Prod.mk.injEq] at ran
          obtain ⟨rfl, rfl⟩ := ran
          rw [answer] at asked
          exact asked
      | evict =>
          simp only [answer] at ran
          rw [answer] at asked
          obtain ⟨evicted, freed, later⟩ := Option.bind_eq_some_iff.mp ran
          exact ih later (Stands.znFgEvict freed asked)

theorem Stands.znCacheHit {ioSize id : Nat} {state : DeviceCache} {location : ZnPair}
    {result : GetResult} (ran : ZNCache.znCacheHit config ioSize state location =
      some (result, after)) (stands : Stands config state.cache (.get (.read id location))) :
    Stands config after.cache .idle := by
  unfold ZNCache.znCacheHit at ran
  have touches := stands.get rfl
  split at ran
  next => cases ran
  next =>
      split at ran
      next => cases ran
      next policy updated =>
          cases Option.some.inj ran
          have releases : Stands config { state.cache with evictionPolicy := policy }
              (.get (.release id location _)) :=
            touches.get (by simp only [getStep, promotionalCode, updated]; rfl)
          have counts := releases.get rfl
          exact counts.get rfl

theorem Stands.znCacheFill {ioSize id : Nat} {randomBuffer : List UInt8} {state : DeviceCache}
    {location : ZnPair} {result : GetResult}
    (ran : ZNCache.znCacheFill config ioSize randomBuffer id location state = some (result, after))
    (stands : Stands config state.cache (.get (.write id location))) :
    Stands config after.cache .idle := by
  unfold ZNCache.znCacheFill at ran
  have counts := stands.get rfl
  have returns := counts.get rfl
  have records := returns.get rfl
  dsimp only at ran
  split at ran
  next => cases ran
  next =>
      split at ran
      next => cases ran
      next policy updated =>
          have inserts := records.get (by simp only [getStep, promotionalCode, updated]; rfl)
          split at ran
          next => cases ran
          next answer inserted =>
              cases Option.some.inj ran
              exact inserts.get (by simp only [getStep, inserted]; rfl)

/-- A call that returns leaves behind what the system of threads can reach. -/
theorem Stands.znCacheGet {ioSize passes id : Nat} {randomBuffer : List UInt8} {state : DeviceCache}
    {result : GetResult} (ran : ZNCache.znCacheGet config ioSize passes randomBuffer state id =
      some (result, after)) (small : id < 2 ^ 32) (stands : Stands config state.cache .idle) :
    Stands config after.cache .idle := by
  have found : Stands config
      { state.cache with cacheMap := (znCachemapFind () state.cache.cacheMap id).2 }
      (afterFind id (znCachemapFind () state.cache.cacheMap id).1) :=
    (stands.call small).get rfl
  rw [ZNCache.znCacheGet] at ran
  cases answer : (znCachemapFind () state.cache.cacheMap id).1 with
  | loc location =>
      simp only [answer] at ran
      rw [answer] at found
      exact Stands.znCacheHit ran found
  | wait =>
      simp only [answer] at ran
      cases ran
  | cond =>
      simp only [answer] at ran
      rw [answer] at found
      split at ran
      next => cases ran
      next location ready acquired =>
          exact Stands.znCacheFill ran (Stands.acquireLoop _ acquired found)
      next refused acquired =>
          have undoes : Stands config refused.cache (.get (.undoMap id)) :=
            Stands.acquireLoop _ acquired found
          split at ran
          next => cases ran
          next answer failed =>
              cases Option.some.inj ran
              exact undoes.get (by simp only [getStep, failed])

/-- By induction on the calls. -/
theorem Stands.znCacheGets {ioSize passes : Nat} {randomBuffer : List UInt8} (ids : List Nat) :
    ∀ {state : DeviceCache} {results : List GetResult},
      ZNCache.znCacheGets config ioSize passes randomBuffer state ids = some (results, after) →
      (∀ id ∈ ids, id < 2 ^ 32) → Stands config state.cache .idle →
      Stands config after.cache .idle := by
  induction ids with
  | nil =>
      intro state results ran small stands
      cases Option.some.inj ran
      exact stands
  | cons id rest ih =>
      intro state results ran small stands
      rw [ZNCache.znCacheGets] at ran
      split at ran
      next => cases ran
      next result next first =>
          obtain ⟨later, ranRest, same⟩ := Option.map_eq_some_iff.mp ran
          obtain ⟨laterResults, last⟩ := later
          cases same
          exact ih ranRest (fun other member => small other (List.mem_cons_of_mem _ member))
            (Stands.znCacheGet first (small id List.mem_cons_self) stands)

end Calls

end ZNCache
