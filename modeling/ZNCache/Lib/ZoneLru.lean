import Mathlib.Data.List.Sort

/-!
# A cache whose zones are emptied whole

Missed items fill one zone at a time, and the zone comes from the free ones, first in,
first out.  A full zone was last used when it was filled or when one of its items was
last found there.  When every zone is full, those used least recently are emptied and
freed in that order.
-/

set_option autoImplicit false

/-- A full zone, what was put into it, and when it was last used. -/
structure FullZone (Zone Id Data : Type) where
  zone : Zone
  chunks : List (Id × Data)
  used : Nat

def FullZone.holds {Zone Id Data : Type} [DecidableEq Id] (entry : FullZone Zone Id Data)
    (id : Id) : Bool :=
  entry.chunks.any fun chunk => decide (chunk.1 = id)

def FullZone.touch {Zone Id Data : Type} [DecidableEq Id] (id : Id) (now : Nat)
    (entry : FullZone Zone Id Data) : FullZone Zone Id Data :=
  if entry.holds id then { entry with used := now } else entry

structure ZoneLru (Zone Id Data : Type) where
  clock : Nat
  free : List Zone
  filling : Option (Zone × List (Id × Data))
  full : List (FullZone Zone Id Data)

namespace ZoneLru

variable {Zone Id Data : Type}

def init (zones : List Zone) : ZoneLru Zone Id Data := ⟨0, zones, none, []⟩

def chunks (cache : ZoneLru Zone Id Data) : List (Id × Data) :=
  cache.filling.elim [] Prod.snd ++ cache.full.flatMap FullZone.chunks

/-- The full zones, least recently used first. -/
def ranked (cache : ZoneLru Zone Id Data) : List (FullZone Zone Id Data) :=
  cache.full.insertionSort fun one other => one.used ≤ other.used

def evict (zones : Nat) (cache : ZoneLru Zone Id Data) : ZoneLru Zone Id Data :=
  { cache with
    free := cache.free ++ (cache.ranked.take zones).map FullZone.zone
    full := cache.ranked.drop zones }

def makeRoom (zones : Nat) (cache : ZoneLru Zone Id Data) : ZoneLru Zone Id Data :=
  if cache.filling.isNone ∧ cache.free = [] then cache.evict zones else cache

def putBack (capacity : Nat) (zone : Zone) (chunks : List (Id × Data))
    (cache : ZoneLru Zone Id Data) : ZoneLru Zone Id Data :=
  if chunks.length = capacity then
    { cache with filling := none, full := cache.full ++ [⟨zone, chunks, cache.clock⟩] }
  else { cache with filling := some (zone, chunks) }

def fill (capacity : Nat) (chunk : Id × Data) (cache : ZoneLru Zone Id Data) :
    ZoneLru Zone Id Data :=
  match cache.filling, cache.free with
  | some (zone, chunks), _ => cache.putBack capacity zone (chunks ++ [chunk])
  | none, zone :: rest => { cache with free := rest }.putBack capacity zone [chunk]
  | none, [] => cache

def tick (cache : ZoneLru Zone Id Data) : ZoneLru Zone Id Data :=
  { cache with clock := cache.clock + 1 }

section Items

variable [DecidableEq Id]

def stored (cache : ZoneLru Zone Id Data) (id : Id) : Option Data :=
  (cache.chunks.find? fun chunk => decide (chunk.1 = id)).map Prod.snd

def touch (id : Id) (cache : ZoneLru Zone Id Data) : ZoneLru Zone Id Data :=
  { cache with full := cache.full.map (FullZone.touch id cache.clock) }

/-- Looks an item up and stores it when it is not there.  The answer is whether it was
there, with its data. -/
def get (capacity zones : Nat) (chunk : Id × Data) (cache : ZoneLru Zone Id Data) :
    (Bool × Data) × ZoneLru Zone Id Data :=
  match cache.stored chunk.1 with
  | some data => ((true, data), (cache.touch chunk.1).tick)
  | none => ((false, chunk.2), ((cache.makeRoom zones).fill capacity chunk).tick)

def answers (capacity zones : Nat) :
    ZoneLru Zone Id Data → List (Id × Data) → List (Bool × Data)
  | _, [] => []
  | cache, chunk :: rest =>
      (cache.get capacity zones chunk).1 ::
        answers capacity zones (cache.get capacity zones chunk).2 rest

end Items

/-! ## The order of use -/

section Ranks

variable {cache : ZoneLru Zone Id Data} {ordered : List (FullZone Zone Id Data)}

theorem ranked_perm (cache : ZoneLru Zone Id Data) : cache.ranked.Perm cache.full :=
  List.perm_insertionSort _ _

/-- There is one order of use when no two zones were used at once. -/
theorem ranked_eq (same : ordered.Perm cache.full)
    (sorted : ordered.Pairwise fun one other => one.used < other.used) :
    cache.ranked = ordered := by
  have total : Std.Total fun one other : FullZone Zone Id Data => one.used ≤ other.used :=
    ⟨fun one other => Nat.le_total one.used other.used⟩
  have trans : IsTrans (FullZone Zone Id Data) fun one other => one.used ≤ other.used :=
    ⟨fun _ _ _ => Nat.le_trans⟩
  apply List.Perm.eq_of_pairwise _ (List.pairwise_insertionSort _ _)
    (sorted.imp fun less => Nat.le_of_lt less) ((ranked_perm cache).trans same.symm)
  intro one other member otherMember before after
  have inOrdered : one ∈ ordered :=
    ((ranked_perm cache).trans same.symm).mem_iff.mp member
  have distinct : (ordered.map FullZone.used).Nodup :=
    List.pairwise_map.mpr (sorted.imp fun less => Nat.ne_of_lt less)
  exact List.inj_on_of_nodup_map distinct inOrdered otherMember (Nat.le_antisymm before after)

/-- No two zones were used at once, and all were used in the past. -/
structure Timely (cache : ZoneLru Zone Id Data) : Prop where
  distinct : cache.ranked.Pairwise fun one other => one.used < other.used
  past : ∀ entry ∈ cache.ranked, entry.used < cache.clock

theorem Timely.init (zones : List Zone) : Timely (init zones : ZoneLru Zone Id Data) :=
  ⟨List.Pairwise.nil, fun _ member => absurd member List.not_mem_nil⟩

theorem Timely.tick (timely : Timely cache) : Timely cache.tick :=
  ⟨timely.distinct, fun entry member => Nat.lt_succ_of_lt (timely.past entry member)⟩

theorem Timely.useNow {after : ZoneLru Zone Id Data} {earlier : List (FullZone Zone Id Data)}
    {entry : FullZone Zone Id Data} (timely : Timely cache)
    (kept : earlier.Sublist cache.ranked) (now : entry.used = cache.clock)
    (same : (earlier ++ [entry]).Perm after.full) (sameClock : after.clock = cache.clock) :
    after.ranked = earlier ++ [entry] ∧ Timely after.tick := by
  have sorted : (earlier ++ [entry]).Pairwise fun one other => one.used < other.used := by
    rw [List.pairwise_append]
    refine ⟨timely.distinct.sublist kept, List.pairwise_singleton _ _,
      fun one member other last => ?_⟩
    rw [List.mem_singleton.mp last, now]
    exact timely.past one (kept.subset member)
  have ranks := ranked_eq same sorted
  have ticked : after.tick.ranked = earlier ++ [entry] := ranks
  refine ⟨ranks, ?_, ?_⟩
  · rw [ticked]
    exact sorted
  · rw [ticked]
    intro one member
    change one.used < after.clock + 1
    rw [sameClock]
    rcases List.mem_append.mp member with before | last
    · exact Nat.lt_succ_of_lt (timely.past one (kept.subset before))
    · rw [List.mem_singleton.mp last, now]
      exact Nat.lt_succ_self _

theorem Timely.putBack {base : ZoneLru Zone Id Data} {zone : Zone} {chunks : List (Id × Data)}
    (timely : Timely cache) (sameFull : base.full = cache.full)
    (sameClock : base.clock = cache.clock) (capacity : Nat) :
    (base.putBack capacity zone chunks).ranked = cache.ranked ++
        (if chunks.length = capacity then [⟨zone, chunks, cache.clock⟩] else []) ∧
      Timely (base.putBack capacity zone chunks).tick := by
  by_cases last : chunks.length = capacity
  · rw [if_pos last]
    apply timely.useNow (List.Sublist.refl _) rfl
    · simp only [ZoneLru.putBack, if_pos last, sameFull, sameClock]
      exact (ranked_perm cache).append_right _
    · simp only [ZoneLru.putBack, if_pos last, sameClock]
  · have ranks : (base.putBack capacity zone chunks).ranked = cache.ranked := by
      simp only [ZoneLru.putBack, if_neg last, ranked, sameFull]
    have now : (base.putBack capacity zone chunks).clock = cache.clock := by
      simp only [ZoneLru.putBack, if_neg last, sameClock]
    rw [if_neg last, List.append_nil]
    refine ⟨ranks, Timely.tick ⟨?_, ?_⟩⟩
    · rw [ranks]
      exact timely.distinct
    · rw [ranks, now]
      exact timely.past

theorem Timely.evict (timely : Timely cache) (zones : Nat) :
    (cache.evict zones).ranked = cache.ranked.drop zones ∧ Timely (cache.evict zones) := by
  have kept := List.drop_sublist zones cache.ranked
  have ranks : (cache.evict zones).ranked = cache.ranked.drop zones :=
    ranked_eq (List.Perm.refl _) (timely.distinct.sublist kept)
  refine ⟨ranks, ?_, ?_⟩
  · rw [ranks]
    exact timely.distinct.sublist kept
  · rw [ranks]
    exact fun entry member => timely.past entry (kept.subset member)

/-- One more zone is the first of those that are left. -/
theorem Timely.evict_succ (timely : Timely cache) (zones : Nat) :
    cache.evict (zones + 1) = (cache.evict zones).evict 1 := by
  have ranks := (timely.evict zones).1
  conv_rhs => rw [ZoneLru.evict, ranks]
  simp only [ZoneLru.evict, List.take_add, List.drop_drop, List.map_append, List.append_assoc]

theorem evict_all {zones more : Nat} (enough : cache.ranked.length ≤ zones)
    (noLess : zones ≤ more) : cache.evict more = cache.evict zones := by
  simp only [ZoneLru.evict, List.take_of_length_le enough,
    List.take_of_length_le (enough.trans noLess), List.drop_eq_nil_of_le enough,
    List.drop_eq_nil_of_le (enough.trans noLess)]

theorem evict_min {bound : Nat} (atMost : cache.ranked.length ≤ bound) (zones : Nat) :
    cache.evict (min zones bound) = cache.evict zones := by
  rcases Nat.le_total zones bound with less | more
  · rw [Nat.min_eq_left less]
  · rw [Nat.min_eq_right more, evict_all atMost more]

theorem makeRoom_min {bound : Nat} (atMost : cache.ranked.length ≤ bound) (zones : Nat) :
    cache.makeRoom (min zones bound) = cache.makeRoom zones := by
  rw [makeRoom, makeRoom, evict_min atMost]

end Ranks

/-! ## What is stored where -/

section Holding

variable {cache : ZoneLru Zone Id Data} {zone : Zone} {held : List (Id × Data)}

def Holds (cache : ZoneLru Zone Id Data) (zone : Zone) (held : List (Id × Data)) : Prop :=
  cache.filling = some (zone, held) ∨
    ∃ entry ∈ cache.ranked, entry.zone = zone ∧ entry.chunks = held

theorem holds_iff_full : cache.Holds zone held ↔
    cache.filling = some (zone, held) ∨
      ∃ entry ∈ cache.full, entry.zone = zone ∧ entry.chunks = held := by
  simp only [Holds, (ranked_perm cache).mem_iff]

theorem holds_tick : cache.tick.Holds zone held ↔ cache.Holds zone held := Iff.rfl

theorem mem_chunks {chunk : Id × Data} :
    chunk ∈ cache.chunks ↔ ∃ zone held, cache.Holds zone held ∧ chunk ∈ held := by
  have inFull : chunk ∈ cache.full.flatMap FullZone.chunks ↔
      ∃ entry ∈ cache.ranked, chunk ∈ entry.chunks := by
    rw [List.mem_flatMap]
    simp only [(ranked_perm cache).mem_iff]
  rw [chunks, List.mem_append, inFull]
  constructor
  · intro either
    rcases either with here | ⟨entry, member, here⟩
    · cases filling : cache.filling with
      | none => simp [filling] at here
      | some pair =>
          rw [filling] at here
          exact ⟨pair.1, pair.2, .inl filling, here⟩
    · exact ⟨entry.zone, entry.chunks, .inr ⟨entry, member, rfl, rfl⟩, here⟩
  · intro given
    obtain ⟨zone, held, filling | ⟨entry, member, rfl, rfl⟩, here⟩ := given
    · rw [filling]
      exact .inl here
    · exact .inr ⟨entry, member, here⟩

variable [DecidableEq Id] {id : Id}

theorem stored_eq_none :
    cache.stored id = none ↔
      ∀ zone held, cache.Holds zone held → ∀ chunk ∈ held, chunk.1 ≠ id := by
  rw [stored, Option.map_eq_none_iff, List.find?_eq_none]
  constructor
  · intro absent zone held here chunk member
    simpa using absent chunk (mem_chunks.mpr ⟨zone, held, here, member⟩)
  · intro absent chunk member
    obtain ⟨zone, held, here, inHeld⟩ := mem_chunks.mp member
    simpa using absent zone held here chunk inHeld

theorem stored_eq_some {data : Data} (found : cache.stored id = some data) :
    ∃ zone held, cache.Holds zone held ∧ (id, data) ∈ held := by
  obtain ⟨chunk, first, rfl⟩ := Option.map_eq_some_iff.mp found
  have same : chunk.1 = id := by simpa using List.find?_some first
  obtain ⟨zone, held, here, member⟩ := mem_chunks.mp (List.mem_of_find?_eq_some first)
  exact ⟨zone, held, here, same ▸ member⟩

theorem holds_iff {entry : FullZone Zone Id Data} :
    entry.holds id = true ↔ ∃ chunk ∈ entry.chunks, chunk.1 = id := by
  simp [FullZone.holds]

theorem map_touch_none {entries : List (FullZone Zone Id Data)} {now : Nat}
    (nowhere : ∀ entry ∈ entries, entry.holds id = false) :
    entries.map (FullZone.touch id now) = entries := by
  refine (List.map_congr_left fun entry member => ?_).trans (List.map_id _)
  simp [FullZone.touch, nowhere entry member]

theorem touch_none (nowhere : ∀ entry ∈ cache.ranked, entry.holds id = false) :
    cache.touch id = cache := by
  rw [touch, map_touch_none fun entry member =>
    nowhere entry ((ranked_perm cache).mem_iff.mpr member)]

theorem Timely.touch (timely : Timely cache) {before after : List (FullZone Zone Id Data)}
    {entry : FullZone Zone Id Data} (split : cache.ranked = before ++ entry :: after)
    (here : entry.holds id = true)
    (elsewhere : ∀ other ∈ before ++ after, other.holds id = false) :
    (cache.touch id).ranked = before ++ after ++ [{ entry with used := cache.clock }] ∧
      Timely (cache.touch id).tick := by
  have kept : (before ++ after).Sublist cache.ranked := by
    rw [split]
    exact List.Sublist.append_left (List.sublist_cons_self _ _) _
  have moved : cache.ranked.map (FullZone.touch id cache.clock) =
      before ++ { entry with used := cache.clock } :: after := by
    rw [split, List.map_append, List.map_cons,
      map_touch_none fun other member => elsewhere other (List.mem_append_left _ member),
      map_touch_none fun other member => elsewhere other (List.mem_append_right _ member)]
    simp [FullZone.touch, here]
  refine timely.useNow kept rfl ?_ rfl
  refine List.Perm.trans ?_ ((ranked_perm cache).map _)
  rw [moved, List.append_assoc]
  exact List.perm_append_comm.append_left before

theorem holds_touch : (cache.touch id).Holds zone held ↔ cache.Holds zone held := by
  have kept : ∀ entry : FullZone Zone Id Data,
      (entry.touch id cache.clock).zone = entry.zone ∧
        (entry.touch id cache.clock).chunks = entry.chunks := by
    intro entry
    unfold FullZone.touch
    split <;> exact ⟨rfl, rfl⟩
  rw [holds_iff_full, holds_iff_full]
  simp only [touch, List.mem_map, exists_exists_and_eq_and, kept]

end Holding

section Moving

variable {cache : ZoneLru Zone Id Data} {zone other : Zone} {held more : List (Id × Data)}

theorem putBack_free {capacity : Nat} :
    (cache.putBack capacity zone more).free = cache.free := by
  unfold putBack
  split <;> rfl

theorem putBack_filling {capacity : Nat} :
    (cache.putBack capacity zone more).filling =
      if more.length = capacity then none else some (zone, more) := by
  unfold putBack
  split <;> rfl

theorem holds_putBack {capacity : Nat}
    (own : ∀ filling, cache.filling = some filling → filling.1 = zone)
    (outside : ∀ entry ∈ cache.ranked, entry.zone ≠ zone) :
    (cache.putBack capacity zone more).Holds other held ↔
      other = zone ∧ held = more ∨ other ≠ zone ∧ cache.Holds other held := by
  have outsideFull : ∀ entry ∈ cache.full, entry.zone ≠ zone := fun entry member =>
    outside entry ((ranked_perm cache).mem_iff.mpr member)
  have elsewhere : other ≠ zone → cache.filling ≠ some (other, held) := fun apart filling =>
    apart (own _ filling)
  rw [holds_iff_full, holds_iff_full]
  unfold putBack
  split
  next =>
      simp only [reduceCtorEq, false_or, List.mem_append, List.mem_singleton]
      constructor
      · intro given
        obtain ⟨entry, member | rfl, rfl, rfl⟩ := given
        · exact .inr ⟨outsideFull entry member, .inr ⟨entry, member, rfl, rfl⟩⟩
        · exact .inl ⟨rfl, rfl⟩
      · intro either
        rcases either with ⟨rfl, rfl⟩ | ⟨apart, filling | ⟨entry, member, here⟩⟩
        · exact ⟨_, .inr rfl, rfl, rfl⟩
        · exact absurd filling (elsewhere apart)
        · exact ⟨entry, .inl member, here⟩
  next =>
      simp only [Option.some.injEq, Prod.mk.injEq]
      constructor
      · intro either
        rcases either with ⟨rfl, rfl⟩ | ⟨entry, member, rfl, rfl⟩
        · exact .inl ⟨rfl, rfl⟩
        · exact .inr ⟨outsideFull entry member, .inr ⟨entry, member, rfl, rfl⟩⟩
      · intro either
        rcases either with ⟨rfl, rfl⟩ | ⟨apart, filling | full⟩
        · exact .inl ⟨rfl, rfl⟩
        · exact absurd filling (elsewhere apart)
        · exact .inr full

section Filling

theorem fill_filling {capacity : Nat} (filling : cache.filling = some (zone, held))
    (chunk : Id × Data) :
    cache.fill capacity chunk = cache.putBack capacity zone (held ++ [chunk]) := by
  unfold fill
  rw [filling]

theorem fill_free {capacity : Nat} {rest : List Zone} (noFilling : cache.filling = none)
    (head : cache.free = zone :: rest) (chunk : Id × Data) :
    cache.fill capacity chunk =
      ({ cache with free := rest } : ZoneLru Zone Id Data).putBack capacity zone [chunk] := by
  unfold fill
  rw [noFilling, head]

variable {kept : List (Id × Data)} {chunk item : Id × Data} {place : Nat}

theorem holds_own
    (own : cache.filling = some (zone, held) ∨ cache.filling = none ∧ held = [])
    (outside : ∀ entry ∈ cache.ranked, entry.zone ≠ zone) (here : cache.Holds zone kept) :
    kept = held := by
  rcases here with same | ⟨entry, member, there, _⟩
  · rcases own with filling | ⟨none, _⟩
    · cases Option.some.inj (filling.symm.trans same)
      rfl
    · cases none.symm.trans same
  · exact absurd there (outside entry member)

theorem stores_putBack {capacity : Nat}
    (own : cache.filling = some (zone, held) ∨ cache.filling = none ∧ held = [])
    (outside : ∀ entry ∈ cache.ranked, entry.zone ≠ zone) :
    (∃ after, (cache.putBack capacity zone (held ++ [chunk])).Holds other after ∧
        after[place]? = some item) ↔
      other = zone ∧ place = held.length ∧ item = chunk ∨
        ∃ before, cache.Holds other before ∧ before[place]? = some item := by
  have ownZone : ∀ filling, cache.filling = some filling → filling.1 = zone := by
    intro filling here
    rcases own with same | ⟨none, _⟩
    · cases Option.some.inj (same.symm.trans here)
      rfl
    · cases none.symm.trans here
  constructor
  · intro put
    obtain ⟨after, here, atPlace⟩ := put
    rcases (holds_putBack ownZone outside).mp here with ⟨rfl, rfl⟩ | ⟨_, stays⟩
    · rcases Nat.lt_or_ge place held.length with old | new
      · rw [List.getElem?_append_left old] at atPlace
        refine .inr ⟨held, ?_, atPlace⟩
        rcases own with filling | ⟨_, rfl⟩
        · exact .inl filling
        · cases old
      · rw [List.getElem?_append_right new, List.getElem?_singleton] at atPlace
        split at atPlace
        next first => exact .inl ⟨rfl, by omega, (Option.some.inj atPlace).symm⟩
        next => cases atPlace
    · exact .inr ⟨after, stays, atPlace⟩
  · intro either
    rcases either with ⟨rfl, rfl, rfl⟩ | ⟨before, here, atPlace⟩
    · exact ⟨_, (holds_putBack ownZone outside).mpr (.inl ⟨rfl, rfl⟩), by simp⟩
    · by_cases same : other = zone
      · subst same
        cases holds_own own outside here
        refine ⟨_, (holds_putBack ownZone outside).mpr (.inl ⟨rfl, rfl⟩), ?_⟩
        rw [List.getElem?_append_left (List.getElem?_eq_some_iff.mp atPlace).1]
        exact atPlace
      · exact ⟨before, (holds_putBack ownZone outside).mpr (.inr ⟨same, here⟩), atPlace⟩

end Filling

/-- The zone used least recently is emptied, and the others stay. -/
theorem Timely.holds_evict (timely : Timely cache) {entry : FullZone Zone Id Data}
    {rest : List (FullZone Zone Id Data)} (first : cache.ranked = entry :: rest)
    (distinct : (cache.ranked.map FullZone.zone).Nodup)
    (notFilling : ∀ filling, cache.filling = some filling → filling.1 ≠ entry.zone) :
    (cache.evict 1).Holds other held ↔ cache.Holds other held ∧ other ≠ entry.zone := by
  have ranks := (timely.evict 1).1
  rw [first, List.drop_one, List.tail_cons] at ranks
  rw [first, List.map_cons, List.nodup_cons] at distinct
  rw [Holds, Holds, ranks, first]
  simp only [List.mem_cons]
  constructor
  · intro either
    rcases either with filling | ⟨one, member, rfl, rfl⟩
    · exact ⟨.inl filling, notFilling _ filling⟩
    · exact ⟨.inr ⟨one, .inr member, rfl, rfl⟩, fun same =>
        distinct.1 (same ▸ List.mem_map_of_mem member)⟩
  · intro given
    obtain ⟨filling | ⟨one, rfl | member, rfl, rfl⟩, apart⟩ := given
    · exact .inl filling
    · exact absurd rfl apart
    · exact .inr ⟨one, member, rfl, rfl⟩

end Moving

/-! ## Items that always have the same data -/

section Genuine

variable {cache : ZoneLru Zone Id Data} {dataOf : Id → Data}

/-- Whatever is stored of an item is its data. -/
def Genuine (dataOf : Id → Data) (cache : ZoneLru Zone Id Data) : Prop :=
  ∀ zone held, cache.Holds zone held → ∀ chunk ∈ held, chunk.2 = dataOf chunk.1

theorem Genuine.init (zones : List Zone) : Genuine dataOf (init zones) := by
  intro zone held holds
  rcases holds with filling | ⟨entry, member, _⟩
  · cases filling
  · cases member

theorem Genuine.makeRoom (genuine : Genuine dataOf cache) (zones : Nat) :
    Genuine dataOf (cache.makeRoom zones) := by
  unfold ZoneLru.makeRoom
  split
  next =>
      intro zone held holds
      rcases holds_iff_full.mp holds with filling | ⟨entry, member, here⟩
      · exact genuine zone held (.inl filling)
      · exact genuine zone held (.inr ⟨entry, List.mem_of_mem_drop member, here⟩)
  next => exact genuine

theorem Genuine.putBack (genuine : Genuine dataOf cache) {zone : Zone}
    {held : List (Id × Data)} (known : ∀ chunk ∈ held, chunk.2 = dataOf chunk.1) (id : Id)
    (capacity : Nat) :
    Genuine dataOf (cache.putBack capacity zone (held ++ [(id, dataOf id)])) := by
  have more : ∀ chunk ∈ held ++ [(id, dataOf id)], chunk.2 = dataOf chunk.1 := by
    intro chunk member
    rcases List.mem_append.mp member with old | new
    · exact known chunk old
    · cases List.mem_singleton.mp new
      rfl
  have stays : ∀ other kept, (∃ entry ∈ cache.full, entry.zone = other ∧ entry.chunks = kept) →
      ∀ chunk ∈ kept, chunk.2 = dataOf chunk.1 := fun other kept full =>
    genuine other kept (holds_iff_full.mpr (.inr full))
  intro other kept holds
  have full := holds_iff_full.mp holds
  unfold ZoneLru.putBack at full
  split at full
  next =>
      rcases full with filling | ⟨entry, member, rfl, rfl⟩
      · cases filling
      · rcases List.mem_append.mp member with old | new
        · exact stays _ _ ⟨entry, old, rfl, rfl⟩
        · cases List.mem_singleton.mp new
          exact more
  next =>
      rcases full with filling | full
      · cases filling
        exact more
      · exact stays other kept full

theorem Genuine.fill (genuine : Genuine dataOf cache) (id : Id) (capacity : Nat) :
    Genuine dataOf (cache.fill capacity (id, dataOf id)) := by
  unfold ZoneLru.fill
  split
  next _ _ zone held filling =>
      exact genuine.putBack (genuine zone held (.inl filling)) id capacity
  next _ _ zone rest noFilling head =>
      have emptier : Genuine dataOf ({ cache with free := rest } : ZoneLru Zone Id Data) := genuine
      have nothing : ∀ chunk ∈ ([] : List (Id × Data)), chunk.2 = dataOf chunk.1 :=
        fun _ member => absurd member List.not_mem_nil
      exact emptier.putBack nothing id capacity
  next => exact genuine

variable [DecidableEq Id]

theorem Genuine.get (genuine : Genuine dataOf cache) (id : Id) (capacity zones : Nat) :
    (cache.get capacity zones (id, dataOf id)).1.2 = dataOf id ∧
      Genuine dataOf (cache.get capacity zones (id, dataOf id)).2 := by
  unfold ZoneLru.get
  split
  next data found =>
      obtain ⟨zone, held, holds, member⟩ := stored_eq_some found
      refine ⟨genuine zone held holds _ member, fun other kept touched => ?_⟩
      exact genuine other kept (holds_touch.mp (holds_tick.mp touched))
  next => exact ⟨rfl, (genuine.makeRoom zones).fill id capacity⟩

/-- Every lookup is answered with the data of its item. -/
theorem Genuine.answers (genuine : Genuine dataOf cache) (capacity zones : Nat)
    (ids : List Id) :
    (cache.answers capacity zones (ids.map fun id => (id, dataOf id))).map Prod.snd =
      ids.map dataOf := by
  induction ids generalizing cache with
  | nil => rfl
  | cons id rest ih =>
      obtain ⟨own, later⟩ := genuine.get id capacity zones
      simp only [List.map_cons, ZoneLru.answers, own, ih later]

end Genuine

end ZoneLru
