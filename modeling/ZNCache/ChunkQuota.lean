import ZNCache.ChunkLru

/-!
# How many chunks an eviction takes

The quota of `zn_policy_chunk_evict` for any integer that the build writes into the
threshold macros.  The subtraction that yields it is unsigned and nothing bounds it.
-/

set_option autoImplicit false

namespace ZNCache

open ZnPolicyChunk

variable {Thread : Type}

/-- `free_chunks`. -/
def freeChunks (policy : ZnPolicyChunk Thread) : Nat :=
  u32 (policy.totalChunks - policy.lruQueue.length)

/-- `free_chunks > EVICT_HIGH_THRESH_CHUNKS`: an `int` constant is converted to
`uint32_t`, any other constant is wider and keeps its value. -/
def freeAbove (highThresh : Int) (policy : ZnPolicyChunk Thread) : Bool :=
  if -2 ^ 31 < highThresh ∧ highThresh < 2 ^ 31 then
    decide (u32 highThresh < freeChunks policy)
  else decide (highThresh < freeChunks policy)

/-- `zn_policy_chunk_evict` gets to its loop. -/
def EntersLoop (highThresh : Int) (policy : ZnPolicyChunk Thread) : Prop :=
  policy.lruQueue.length ≠ 0 ∧ freeAbove highThresh policy = false

instance (highThresh : Int) (policy : ZnPolicyChunk Thread) :
    Decidable (EntersLoop highThresh policy) :=
  inferInstanceAs (Decidable (_ ∧ _))

/-- `nr_evict`. -/
def quota (lowThresh : Int) (policy : ZnPolicyChunk Thread) : Nat :=
  u32 (lowThresh - freeChunks policy)

/-- A mark that is not negative is the one that `chunkEvictStep` compares with. -/
theorem entersLoop_iff {highThresh : Nat} {policy : ZnPolicyChunk Thread} :
    EntersLoop highThresh policy ↔ enoughFreeChunks highThresh policy = false := by
  have compared : freeAbove highThresh policy = decide (highThresh < freeChunks policy) := by
    unfold freeAbove
    split
    next small =>
        have same : u32 highThresh = highThresh := by
          exact_mod_cast u32_of_nat (show highThresh < 2 ^ 32 by omega)
        rw [same]
    next => simp
  rw [EntersLoop, compared, decide_eq_false_iff_not]
  simp [enoughFreeChunks, freeChunks]

theorem quota_eq_nrEvict (lowThresh : Nat) (policy : ZnPolicyChunk Thread) :
    quota lowThresh policy = nrEvict lowThresh policy := rfl

/-! ## The loop -/

theorem evictChunk_length {policy after : ZnPolicyChunk Thread} {pair : ZnPair}
    (evicted : evictChunk policy = some (pair, after)) :
    policy.lruQueue.length = after.lruQueue.length + 1 := by
  obtain ⟨position, queue, popped, _, sameQueue, _⟩ := evictChunk_spec evicted
  rw [LinkedQueue.length_eq, LinkedQueue.popHead_items popped, sameQueue, List.length_cons,
    LinkedQueue.length_eq]

/-- With as many chunks queued as it has passes the loop ends. -/
theorem evictChunks_ends (passes : Nat) :
    ∀ policy : ZnPolicyChunk Thread, passes ≤ policy.lruQueue.length →
      ∃ places after, evictChunks passes policy = some (places, after) ∧
        after.lruQueue.length = policy.lruQueue.length - passes := by
  induction passes with
  | zero => exact fun policy _ => ⟨[], policy, rfl, rfl⟩
  | succ passes ih =>
      intro policy enough
      cases queued : policy.lruQueue.items with
      | nil => simp [LinkedQueue.length_eq, queued] at enough
      | cons place rest =>
          obtain ⟨pair, middle, evicted, _⟩ := evictChunk_returns queued
          have one := evictChunk_length evicted
          obtain ⟨places, after, ran, left⟩ := ih middle (by omega)
          refine ⟨pair.place :: places, after, ?_, by omega⟩
          simp only [evictChunks, evicted, ran, Option.map_some]

/-- With fewer it takes from an empty queue. -/
theorem evictChunks_runsOut (passes : Nat) :
    ∀ policy : ZnPolicyChunk Thread, policy.lruQueue.length < passes →
      evictChunks passes policy = none := by
  induction passes with
  | zero => exact fun _ short => absurd short (Nat.not_lt_zero _)
  | succ passes ih =>
      intro policy short
      cases evicted : evictChunk policy with
      | none => simp only [evictChunks, evicted]
      | some taken =>
          obtain ⟨pair, middle⟩ := taken
          have one := evictChunk_length evicted
          simp only [evictChunks, evicted, ih middle (by omega), Option.map_none]

/-! ## The quota -/

/-- The quota is queued, and its eviction fills the free chunks of `total` up to the mark,
if they are below it. -/
def QuotaMet (lowThresh : Int) (total : Nat) (policy : ZnPolicyChunk Thread) : Prop :=
  quota lowThresh policy ≤ policy.lruQueue.length ∧
    ∃ places after, evictChunks (quota lowThresh policy) policy = some (places, after) ∧
      (total : Int) - after.lruQueue.length = max lowThresh (total - policy.lruQueue.length)

/-- Free chunks below the mark are as many too few as `uint32_t` can say and as the device
has chunks; free chunks above it are a multiple of 2^32 too many. -/
def MarkInReach (lowThresh : Int) (total free : Nat) : Prop :=
  (free ≤ lowThresh ∧ lowThresh ≤ total ∧ lowThresh - free < 2 ^ 32) ∨
    (lowThresh < free ∧ (2 ^ 32 : Int) ∣ free - lowThresh)

theorem quotaMet_iff {lowThresh : Int} {total : Nat} {policy : ZnPolicyChunk Thread}
    (counts : policy.totalChunks = u32 total) (within : policy.lruQueue.length ≤ total) :
    QuotaMet lowThresh total policy ↔
      MarkInReach lowThresh total (total - policy.lruQueue.length) := by
  have wraps : (quota lowThresh policy : Int) =
      (lowThresh - (total - policy.lruQueue.length)) % 2 ^ 32 := by
    unfold quota freeChunks
    rw [counts]
    unfold u32
    omega
  have ends : QuotaMet lowThresh total policy ↔
      quota lowThresh policy ≤ policy.lruQueue.length ∧
        (total : Int) - (policy.lruQueue.length - quota lowThresh policy : Nat) =
          max lowThresh (total - policy.lruQueue.length) := by
    refine and_congr_right fun enough => ?_
    obtain ⟨places, after, ran, left⟩ := evictChunks_ends _ policy enough
    rw [← left]
    constructor
    · intro given
      obtain ⟨places', after', ran', met⟩ := given
      rw [ran] at ran'
      cases Option.some.inj ran'
      exact met
    · exact fun met => ⟨places, after, ran, met⟩
  rw [ends, MarkInReach]
  generalize quota lowThresh policy = nr at wraps
  generalize policy.lruQueue.length = length at wraps within
  by_cases below : (total - length : Nat) ≤ lowThresh
  · rw [max_eq_left (by omega)]
    omega
  · rw [max_eq_right (by omega)]
    omega

/-- `total` may be the product that `total_chunks` holds the low 32 bits of. -/
theorem chunkQuota_iff {highThresh lowThresh : Int} {total : Nat}
    {policy : ZnPolicyChunk Thread} (counts : policy.totalChunks = u32 total)
    (within : policy.lruQueue.length ≤ total) :
    (EntersLoop highThresh policy → QuotaMet lowThresh total policy) ↔
      (EntersLoop highThresh policy →
        MarkInReach lowThresh total (total - policy.lruQueue.length)) :=
  imp_congr_right fun _ => quotaMet_iff counts within

/-- One chunk on a device of four, with the default marks of 6 and 12: nine chunks are to
be evicted. -/
theorem chunkQuota_overruns :
    ∃ log, ChunkLog.Run 1 4 log ∧ EntersLoop 6 log.policy ∧
      log.policy.totalChunks = 4 ∧ log.policy.lruQueue.length = 1 ∧
      quota 12 log.policy = 9 ∧ evictChunks (quota 12 log.policy) log.policy = none ∧
      ¬ QuotaMet 12 4 log.policy := by
  cases ran : Transition.runActions ChunkLog.step (ChunkLog.init 1 4)
      [.update ⟨0, 0, 0, false⟩ .write] with
  | none => cases ran
  | some log =>
      have reached : ChunkLog.Run 1 4 log :=
        Transition.Reach.of_runActions _ (Transition.Reach.start rfl) (by decide) ran
      have length : log.policy.lruQueue.length = 1 := by
        cases Option.some.inj ran
        decide
      have nine : quota 12 log.policy = 9 := by
        cases Option.some.inj ran
        decide
      refine ⟨log, reached, ?_, ?_, length, nine, ?_, ?_⟩
      · cases Option.some.inj ran
        decide
      · cases Option.some.inj ran
        decide
      · rw [nine]
        exact evictChunks_runsOut 9 _ (by omega)
      · intro given
        obtain ⟨enough, _⟩ := given
        omega

/-- Four of six chunks in use and a low mark of three: one is evicted. -/
theorem chunkQuota_met :
    ∃ log, ChunkLog.Run 2 3 log ∧ (EntersLoop 6 log.policy → QuotaMet 3 6 log.policy) := by
  cases ran : Transition.runActions ChunkLog.step (ChunkLog.init 2 3)
      [.update ⟨0, 0, 0, false⟩ .write, .update ⟨0, 1, 0, false⟩ .write,
        .update ⟨0, 2, 0, false⟩ .write, .update ⟨1, 0, 0, false⟩ .write] with
  | none => cases ran
  | some log =>
      have reached : ChunkLog.Run 2 3 log :=
        Transition.Reach.of_runActions _ (Transition.Reach.start rfl) (by decide) ran
      have length : log.policy.lruQueue.length = 4 := by
        cases Option.some.inj ran
        decide
      have counts : log.policy.totalChunks = u32 (6 : Nat) := by
        cases Option.some.inj ran
        decide
      refine ⟨log, reached, (chunkQuota_iff counts (by omega)).mpr fun _ => ?_⟩
      rw [length]
      exact Or.inl (by decide)

end ZNCache
