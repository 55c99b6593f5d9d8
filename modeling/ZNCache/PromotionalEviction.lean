import ZNCache.WorkerSteps

/-!
# Evicting under the promotional policy

The sections of `zn_fg_evict` for `ZN_EVICT_PROMOTE_ZONE`.  The loop test reads
nothing shared, so it belongs to the section of the policy call that follows it.
-/

set_option autoImplicit false

namespace ZNCache

/-- Where a thread stands in `zn_fg_evict`, with its loop counter, the number of free
zones it read first, and the zone it took from the policy. -/
inductive EvictPc
  | start
  | loop (i freeZones : Nat)
  | clear (i freeZones zone : Nat)
  | wait (i freeZones zone : Nat)
  | reset (i freeZones zone : Nat)
  deriving DecidableEq, Repr

variable {Thread : Type}

abbrev PromotionalCache (Thread : Type) := ZnCache Thread ZnPolicyPromotional

def fgEvictStep (lowThresh : Nat) (cache : PromotionalCache Thread)
    (environment : Environment) :
    EvictPc → Option (PromotionalCache Thread × Option EvictPc)
  | .start => some (cache, some (.loop 0 (zsmGetNumFreeZones cache.zoneState)))
  | .loop i freeZones =>
      if (i : Int) < threshMinus lowThresh freeZones then
        let answer :=
          znPolicyPromotionalGetZoneToEvict environment.lockFree cache.evictionPolicy
        some ({ cache with evictionPolicy := answer.2 }, answer.1.map (.clear i freeZones))
      else some (cache, none)
  | .clear i freeZones zone =>
      match znCachemapClearZone cache.cacheMap zone with
      | none => none
      | some answer =>
          some ({ cache with cacheMap := answer.state }, some (.wait i freeZones zone))
  | .wait i freeZones zone =>
      -- `while (active_readers[zone] > 0)` yields until the test fails
      if 0 < cache.cacheMap.activeReaders zone then none
      else some (cache, some (.reset i freeZones zone))
  | .reset i freeZones zone =>
      some (cache.evictZone environment.commandRet zone, some (.loop (u32 (i + 1)) freeZones))

def promotionalCode (config : CacheConfig) :
    EvictionCode Thread ZnPolicyPromotional EvictPc where
  update := znPolicyPromotionalUpdate
  start := .start
  evictStep := fun _ cache pc environment =>
    fgEvictStep config.evictLowThreshZones cache environment pc

abbrev PromotionalSystem (Thread : Type) := System Thread ZnPolicyPromotional EvictPc

def promotionalSystem (config : CacheConfig) : Option (PromotionalSystem Thread) :=
  System.init config (promotionalInit config.maxZoneChunks)

inductive FgEvictStep (cache : PromotionalCache Thread) (environment : Environment) :
    EvictPc → PromotionalCache Thread → Option EvictPc → Prop
  | start :
      FgEvictStep cache environment .start cache
        (some (.loop 0 (zsmGetNumFreeZones cache.zoneState)))
  | enough (i freeZones : Nat) : FgEvictStep cache environment (.loop i freeZones) cache none
  | nothing (i freeZones : Nat) (policy : ZnPolicyPromotional)
      (answer : znPolicyPromotionalGetZoneToEvict environment.lockFree cache.evictionPolicy =
        (none, policy)) :
      FgEvictStep cache environment (.loop i freeZones)
        { cache with evictionPolicy := policy } none
  | take (i freeZones zone : Nat) (policy : ZnPolicyPromotional)
      (answer : znPolicyPromotionalGetZoneToEvict environment.lockFree cache.evictionPolicy =
        (some zone, policy)) :
      FgEvictStep cache environment (.loop i freeZones)
        { cache with evictionPolicy := policy } (some (.clear i freeZones zone))
  | clear (i freeZones zone : Nat) (answer : Outcome (CacheMap Thread) Unit)
      (cleared : znCachemapClearZone cache.cacheMap zone = some answer) :
      FgEvictStep cache environment (.clear i freeZones zone)
        { cache with cacheMap := answer.state } (some (.wait i freeZones zone))
  | wait (i freeZones zone : Nat) (drained : cache.cacheMap.activeReaders zone ≤ 0) :
      FgEvictStep cache environment (.wait i freeZones zone) cache
        (some (.reset i freeZones zone))
  | reset (i freeZones zone : Nat) :
      FgEvictStep cache environment (.reset i freeZones zone)
        (cache.evictZone environment.commandRet zone) (some (.loop (u32 (i + 1)) freeZones))

theorem fgEvictStep_spec {lowThresh : Nat} {cache after : PromotionalCache Thread}
    {environment : Environment} {pc : EvictPc} {next : Option EvictPc}
    (taken : fgEvictStep lowThresh cache environment pc = some (after, next)) :
    FgEvictStep cache environment pc after next := by
  cases pc with
  | start => cases Option.some.inj taken; exact .start
  | loop i freeZones =>
      simp only [fgEvictStep] at taken
      split at taken
      · cases answer :
          znPolicyPromotionalGetZoneToEvict environment.lockFree cache.evictionPolicy with
        | mk zone policy =>
            rw [answer] at taken
            cases Option.some.inj taken
            cases zone with
            | none => exact .nothing i freeZones policy answer
            | some zone => exact .take i freeZones zone policy answer
      · cases Option.some.inj taken
        exact .enough i freeZones
  | clear i freeZones zone =>
      simp only [fgEvictStep] at taken
      cases cleared : znCachemapClearZone cache.cacheMap zone with
      | none => simp [cleared] at taken
      | some answer =>
          rw [cleared] at taken
          cases Option.some.inj taken
          exact .clear i freeZones zone answer cleared
  | wait i freeZones zone =>
      simp only [fgEvictStep] at taken
      split at taken
      · simp at taken
      next drained =>
          cases Option.some.inj taken
          exact .wait i freeZones zone (Int.not_lt.mp drained)
  | reset i freeZones zone => cases Option.some.inj taken; exact .reset i freeZones zone

end ZNCache
