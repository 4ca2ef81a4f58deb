import Mathlib.Data.List.Rotate
import Mathlib.Data.List.TakeWhile
import Hansa.Verif.CacheRun

/-!
# Which of several equal answers is served

The scan keeps the first of the entries that score highest, and a hit moves that entry to the
back. An insertion replaces nothing. So an older entry that scores as much for an embedding as
the entry inserted for it comes before that entry, and lookups that are repeated serve the equal
entries in turn. Where no older entry scores as much, the latest answer is served until the next
insertion, whatever is looked up in between.
-/

namespace Hansa

open BundleCache

variable {Bundle : Type}

/-! ## Equal entries -/

/-- The entries that score as much for a unit vector as the vector does, next eviction first. -/
def BundleCache.equals (cache : BundleCache Bundle) (unit : List Float32) :
    List (Entry Bundle) :=
  cache.entries.filter fun e => dot unit unit ≤ dot unit e.centreUnit

/-- A vector's score against itself reaches the threshold, and no entry scores more. -/
structure Leads (threshold : Float32) (unit : List Float32) (entries : List (Entry Bundle)) :
    Prop where
  /-- The score is a hit. -/
  reaches : threshold ≤ dot unit unit
  /-- The score is maximal. -/
  highest : ∀ e ∈ entries, ¬ dot unit unit < dot unit e.centreUnit

/-- The answers of `get` for one embedding, at one time after another. -/
def BundleCache.getEach (cache : BundleCache Bundle) (embedding : List Float32) :
    List Nat → List (Option Bundle)
  | [] => []
  | now :: times =>
    (cache.get embedding now).2 :: (cache.get embedding now).1.getEach embedding times

/-- A maximal score stays so among fewer entries. -/
theorem Leads.subset {threshold : Float32} {unit : List Float32}
    {entries fewer : List (Entry Bundle)} (leads : Leads threshold unit entries)
    (kept : ∀ e ∈ fewer, e ∈ entries) : Leads threshold unit fewer where
  reaches := leads.reaches
  highest := fun e member => leads.highest e (kept e member)

/-- The first entry that scores as much is the one that the scan finds. -/
theorem Leads.isBest {threshold : Float32} {unit : List Float32}
    {before after : List (Entry Bundle)} {entry : Entry Bundle}
    (leads : Leads threshold unit (before ++ entry :: after))
    (equal : dot unit unit ≤ dot unit entry.centreUnit)
    (first : ∀ e ∈ before, ¬ dot unit unit ≤ dot unit e.centreUnit) :
    IsBest threshold unit (before ++ entry :: after) before entry after := by
  obtain ⟨low, atLow, own, atOwn, reaches⟩ := (Float32.le_iff_place _ _).mp leads.reaches
  obtain ⟨own', atOwn', score, atScore, least⟩ := (Float32.le_iff_place _ _).mp equal
  obtain rfl : own = own' := Option.mem_unique atOwn atOwn'
  have inside : entry ∈ before ++ entry :: after := by simp
  have most : score ≤ own := by
    by_contra above
    have more := (Float32.lt_iff_place _ _).mpr ⟨own, atOwn, score, atScore, not_le.mp above⟩
    exact leads.highest entry inside more
  obtain rfl : own = score := le_antisymm least most
  refine ⟨rfl, (Float32.le_iff_place _ _).mpr ⟨low, atLow, own, atScore, reaches⟩, ?_, ?_⟩
  · intro e member past
    obtain ⟨_, _, other, atOther, _⟩ := (Float32.le_iff_place _ _).mp past
    have less : other < own := by
      by_contra least
      exact first e member
        ((Float32.le_iff_place _ _).mpr ⟨own, atOwn, other, atOther, not_lt.mp least⟩)
    exact (Float32.lt_iff_place _ _).mpr ⟨other, atOther, own, atScore, less⟩
  · intro e member above
    obtain ⟨score', atScore', other, atOther, less⟩ := (Float32.lt_iff_place _ _).mp above
    obtain rfl : own = score' := Option.mem_unique atScore atScore'
    have behind : e ∈ before ++ entry :: after := by simp [member]
    exact leads.highest e behind
      ((Float32.lt_iff_place _ _).mpr ⟨own, atOwn, other, atOther, less⟩)

/-! ## One lookup -/

/-- Expiry keeps the equal entries while none of them is past its lifetime. -/
theorem equals_live {cache : BundleCache Bundle} {unit : List Float32} {now : Nat}
    (alive : ∀ e ∈ cache.equals unit, now - e.insertedAt ≤ cache.ttl) :
    (cache.expire now).equals unit = cache.equals unit := by
  have none_ : (cache.entries.takeWhile (stale cache.ttl now)).filter
      (fun e => dot unit unit ≤ dot unit e.centreUnit) = [] := by
    refine List.filter_eq_nil_iff.mpr fun e member equal => ?_
    have past := stale_iff.mp (List.mem_takeWhile_imp (l := cache.entries) member)
    have inside := (List.takeWhile_sublist _).subset member
    exact past (alive e (List.mem_filter.mpr ⟨inside, equal⟩))
  have whole : cache.equals unit = (cache.entries.takeWhile (stale cache.ttl now) ++
      cache.entries.dropWhile (stale cache.ttl now)).filter
        (fun e => dot unit unit ≤ dot unit e.centreUnit) := by
    rw [List.takeWhile_append_dropWhile]
    rfl
  rw [whole, List.filter_append, none_, List.nil_append]
  rfl

/-- What a lookup leaves was there before. -/
theorem mem_of_mem_get {cache : BundleCache Bundle} {embedding : List Float32} {now : Nat}
    {e : Entry Bundle} (member : e ∈ (cache.get embedding now).1.entries) : e ∈ cache.entries := by
  rcases get_spec cache embedding now with
    ⟨_, same | expired⟩ | ⟨_, before, entry, after, _, _, is, _, moved⟩
  · exact same ▸ member
  · rw [expired] at member
    exact (live_sublist cache now).subset member
  · rw [moved] at member
    apply (live_sublist cache now).subset
    rw [is.split]
    simp only [List.mem_append, List.mem_cons, List.not_mem_nil, or_false] at member ⊢
    tauto

/-- A lookup serves the first of the equal entries and moves it behind the others. -/
theorem get_equals {cache : BundleCache Bundle} {embedding unit : List Float32} {now : Nat}
    {first : Entry Bundle} {rest : List (Entry Bundle)} (fits : embedding.length = cache.dim)
    (normalised : unitNormalise embedding = some unit)
    (leads : Leads cache.hitThreshold unit cache.entries)
    (equal : cache.equals unit = first :: rest)
    (alive : ∀ e ∈ cache.equals unit, now - e.insertedAt ≤ cache.ttl) :
    (cache.get embedding now).2 = some first.bundle ∧
      (cache.get embedding now).1.equals unit = (cache.equals unit).rotate 1 := by
  have kept := (equals_live alive).trans equal
  obtain ⟨before, after, split, others, scores, later⟩ := List.filter_eq_cons_iff.mp kept
  have here : cache.live now = before ++ first :: after := split
  have front : ∀ e ∈ before, ¬ dot unit unit ≤ dot unit e.centreUnit := by simpa using others
  have own : dot unit unit ≤ dot unit first.centreUnit := by simpa using scores
  have alive' := leads.subset fun e => (live_sublist cache now).subset (a := e)
  have best := here ▸ (here ▸ alive').isBest own front
  rcases get_spec cache embedding now with
    ⟨miss, _⟩ | ⟨unit', before', entry', after', _, normalised', is, served, moved⟩
  · exact absurd miss (get_ne_none fits normalised best)
  · obtain rfl := Option.some.inj (normalised.symm.trans normalised')
    obtain ⟨rfl, rfl, rfl⟩ := best.unique is
    refine ⟨served, ?_⟩
    have ahead : before.filter (fun e => dot unit unit ≤ dot unit e.centreUnit) = [] :=
      List.filter_eq_nil_iff.mpr others
    have own' : [first].filter (fun e => dot unit unit ≤ dot unit e.centreUnit) = [first] :=
      List.filter_cons_of_pos scores
    rw [equal, List.rotate_cons_succ, List.rotate_zero, equals, moved, List.filter_append,
      List.filter_append, ahead, later, own', List.nil_append]

/-! ## Repeated lookups -/

/-- Repeated lookups serve the equal entries in turn, while none of them expires. -/
theorem getEach_equals {cache : BundleCache Bundle} {embedding unit : List Float32}
    {times : List Nat} (fits : embedding.length = cache.dim)
    (normalised : unitNormalise embedding = some unit)
    (leads : Leads cache.hitThreshold unit cache.entries) (some_ : cache.equals unit ≠ [])
    (alive : ∀ e ∈ cache.equals unit, ∀ now ∈ times, now - e.insertedAt ≤ cache.ttl) :
    cache.getEach embedding times = (List.range times.length).map fun k =>
      ((cache.equals unit).rotate k).head?.map Entry.bundle := by
  induction times generalizing cache with
  | nil => rfl
  | cons now times ih =>
    obtain ⟨first, rest, equal⟩ := List.exists_cons_of_ne_nil some_
    obtain ⟨served, turned⟩ := get_equals fits normalised leads equal
      fun e member => alive e member now List.mem_cons_self
    have settings := get_sameSettings cache embedding now
    have leads' : Leads (cache.get embedding now).1.hitThreshold unit
        (cache.get embedding now).1.entries := by
      rw [settings.hitThreshold]
      exact leads.subset fun e => mem_of_mem_get
    have some' : (cache.get embedding now).1.equals unit ≠ [] := by
      rwa [turned, ne_eq, List.rotate_eq_nil_iff]
    have alive' : ∀ e ∈ (cache.get embedding now).1.equals unit, ∀ then_ ∈ times,
        then_ - e.insertedAt ≤ (cache.get embedding now).1.ttl := by
      intro e member then_ later
      rw [settings.ttl]
      rw [turned, List.mem_rotate] at member
      exact alive e member then_ (List.mem_cons_of_mem now later)
    have fits' : embedding.length = (cache.get embedding now).1.dim :=
      fits.trans settings.dim.symm
    rw [BundleCache.getEach, served, ih fits' leads' some' alive', turned, List.length_cons,
      List.range_succ_eq_map, List.map_cons, List.map_map, List.rotate_zero, equal]
    refine congrArg _ (List.map_congr_left fun k _ => ?_)
    rw [List.rotate_rotate, Nat.add_comm]
    rfl

/-! ## Lookups of any kind -/

/-- A call that looks something up. -/
def CacheCall.IsLookup : CacheCall Bundle → Prop
  | .get .. => True
  | .len .. => True
  | .insert .. => False
  | .invalidateAll => False

/-- The only entry that scores as much for a vector is the one at hand. -/
structure Alone (unit : List Float32) (entry : Entry Bundle) (first : BundleCache Bundle)
    (cache : BundleCache Bundle) : Prop where
  /-- No other entry scores as much. -/
  equal : cache.equals unit = [entry]
  /-- What is left was there at first. -/
  kept : ∀ e ∈ cache.entries, e ∈ first.entries
  /-- The dimension is as it was. -/
  dim : cache.dim = first.dim
  /-- The threshold is as it was. -/
  threshold : cache.hitThreshold = first.hitThreshold
  /-- The lifetime is as it was. -/
  lifetime : cache.ttl = first.ttl

/-- Moving an entry to the back leaves the entry alone. -/
theorem filter_moved {before after : List (Entry Bundle)} {e entry : Entry Bundle}
    {p : Entry Bundle → Bool} (alone : (before ++ e :: after).filter p = [entry]) :
    (before ++ after ++ [e]).filter p = [entry] := by
  have moved : (before ++ after ++ [e]).Perm (before ++ e :: after) :=
    (List.perm_append_singleton e (before ++ after)).trans List.perm_middle.symm
  exact List.perm_singleton.mp (alone ▸ moved.filter p)

/-- A lookup within the lifetime leaves the entry alone. -/
theorem Alone.lookup {unit : List Float32} {entry : Entry Bundle} {first : BundleCache Bundle}
    {s t : ClockedCache Bundle} {call : CacheCall Bundle} (alone : Alone unit entry first s.cache)
    (step : call.Step s t) (isLookup : call.IsLookup)
    (alive : t.clock - entry.insertedAt ≤ first.ttl) : Alone unit entry first t.cache := by
  have live : ∀ now, now - entry.insertedAt ≤ first.ttl →
      (s.cache.expire now).equals unit = [entry] := by
    intro now young
    rw [equals_live, alone.equal]
    intro e member
    rw [alone.equal, List.mem_singleton] at member
    rw [member, alone.lifetime]
    exact young
  obtain ⟨-, rfl⟩ := step
  cases call with
  | insert => exact isLookup.elim
  | invalidateAll => exact isLookup.elim
  | len now =>
    exact ⟨live now alive, fun e member => alone.kept e ((live_sublist s.cache now).subset member),
      alone.dim, alone.threshold, alone.lifetime⟩
  | get embedding now =>
    have settings := get_sameSettings s.cache embedding now
    refine ⟨?_, fun e member => alone.kept e (mem_of_mem_get member), settings.dim.trans alone.dim,
      settings.hitThreshold.trans alone.threshold, settings.ttl.trans alone.lifetime⟩
    show (s.cache.get embedding now).1.equals unit = [entry]
    rw [equals]
    rcases get_spec s.cache embedding now with
      ⟨_, same | expired⟩ | ⟨_, before, e, after, _, _, is, _, moved⟩
    · rw [same]
      exact alone.equal
    · rw [expired]
      exact live now alive
    · have here := live now alive
      rw [equals, show (s.cache.expire now).entries = s.cache.live now from rfl, is.split] at here
      rw [moved]
      exact filter_moved here

/-- A call that looks something up does not set the clock back. -/
theorem CacheCall.IsLookup.clock_le {s t : ClockedCache Bundle} {call : CacheCall Bundle}
    (isLookup : call.IsLookup) (step : call.Step s t) : s.clock ≤ t.clock := by
  obtain ⟨inOrder, rfl⟩ := step
  cases call with
  | insert => exact isLookup.elim
  | invalidateAll => exact isLookup.elim
  | get embedding now => exact inOrder
  | len now => exact inOrder

/-- Lookups within the lifetime leave the entry alone. -/
theorem Alone.lookups {unit : List Float32} {entry : Entry Bundle} {s t : ClockedCache Bundle}
    {lookups : List (CacheCall Bundle)} (alone : Alone unit entry s.cache s.cache)
    (each : ∀ call ∈ lookups, call.IsLookup) (run : Run CacheCall.Step s lookups t)
    (alive : t.clock - entry.insertedAt ≤ s.cache.ttl) : Alone unit entry s.cache t.cache := by
  induction run with
  | nil => exact alone
  | @concat lookups call mid t before next ih =>
    have isLookup := each call (by simp)
    have later := isLookup.clock_le next
    have kept := ih (fun call' member => each call' (by simp [member])) (by omega)
    exact kept.lookup next isLookup alive

/-! ## After an insertion -/

/-- An insertion of an embedding with a unit vector puts it behind the entries that stay. -/
theorem insert_entries {cache : BundleCache Bundle} {embedding unit : List Float32}
    (bundle : Bundle) (now insertedAt : Nat) (fits : embedding.length = cache.dim)
    (normalised : unitNormalise embedding = some unit) :
    (cache.insert embedding bundle now insertedAt).entries =
      evict cache.capacity (cache.live now) ++ [⟨unit, bundle, insertedAt⟩] := by
  unfold BundleCache.insert
  rw [if_neg (not_not_intro fits)]
  simp only [normalised]
  rfl

/-- What is served for an embedding after its insertion: the entries that score as much, in
turn, while none of them expires; and the bundle inserted last, if there is no other, until the
next insertion or its expiry. -/
structure ServesEqualsInTurn (embedding unit : List Float32) (bundle : Bundle)
    (insertedAt : Nat) (s : ClockedCache Bundle) : Prop where
  /-- The new entry is the last of those that score as much. -/
  latest : ∃ older, s.cache.equals unit = older ++ [⟨unit, bundle, insertedAt⟩]
  /-- Repeated lookups go round. -/
  inTurn : ∀ times : List Nat,
    (∀ e ∈ s.cache.equals unit, ∀ now ∈ times, now - e.insertedAt ≤ s.cache.ttl) →
      s.cache.getEach embedding times = (List.range times.length).map fun k =>
        ((s.cache.equals unit).rotate k).head?.map Entry.bundle
  /-- Where no older entry scores as much, every lookup serves the new bundle. -/
  alone : s.cache.equals unit = [⟨unit, bundle, insertedAt⟩] →
    ∀ (lookups : List (CacheCall Bundle)) (t : ClockedCache Bundle) (now : Nat),
      (∀ call ∈ lookups, call.IsLookup) → Run CacheCall.Step s lookups t → t.clock ≤ now →
        now - insertedAt ≤ s.cache.ttl → (t.cache.get embedding now).2 = some bundle

/-- After every run that ends with the insertion of an embedding whose own score is a hit and is
maximal, its equals are served in turn, and it alone if it has none. -/
theorem latest_answer_in_turn {start s : ClockedCache Bundle} {calls : List (CacheCall Bundle)}
    {embedding unit : List Float32} {bundle : Bundle} {now insertedAt : Nat}
    (run : Run CacheCall.Step start (calls ++ [.insert embedding bundle now insertedAt]) s)
    (fits : embedding.length = s.cache.dim) (normalised : unitNormalise embedding = some unit)
    (leads : Leads s.cache.hitThreshold unit s.cache.entries) :
    ServesEqualsInTurn embedding unit bundle insertedAt s := by
  have latest : ∃ older, s.cache.equals unit = older ++ [⟨unit, bundle, insertedAt⟩] := by
    obtain ⟨mid, -, -, rfl⟩ := run.last_step
    have fits' : embedding.length = mid.cache.dim := fits.trans (insert_sameSettings ..).dim
    have entries := insert_entries bundle now insertedAt fits' normalised
    obtain ⟨_, _, own, atOwn, _⟩ := (Float32.le_iff_place _ _).mp leads.reaches
    have self : dot unit unit ≤ dot unit unit :=
      (Float32.le_iff_place _ _).mpr ⟨own, atOwn, own, atOwn, le_rfl⟩
    refine ⟨(evict mid.cache.capacity (mid.cache.live now)).filter fun e =>
      dot unit unit ≤ dot unit e.centreUnit, ?_⟩
    rw [equals, show (CacheCall.apply mid (.insert embedding bundle now insertedAt)).cache.entries =
      _ from entries, List.filter_append]
    refine congrArg _ (List.filter_cons_of_pos ?_)
    exact decide_eq_true self
  refine ⟨latest, fun times alive => ?_, fun alone lookups t then_ each later order young => ?_⟩
  · obtain ⟨older, equal⟩ := latest
    exact getEach_equals fits normalised leads (by simp [equal]) alive
  · have first : Alone unit ⟨unit, bundle, insertedAt⟩ s.cache s.cache :=
      ⟨alone, fun _ member => member, rfl, rfl, rfl⟩
    have still := first.lookups each later (by
      show t.clock - insertedAt ≤ s.cache.ttl
      omega)
    have leads' : Leads t.cache.hitThreshold unit t.cache.entries := by
      rw [still.threshold]
      exact leads.subset still.kept
    refine (get_equals (fits.trans still.dim.symm) normalised leads' still.equal ?_).1
    intro e member
    rw [still.equal, List.mem_singleton] at member
    rw [member, still.lifetime]
    exact young

/-! ## One query, cached twice -/

/-- One query is cached twice, with two answers. -/
def repeatedCalls : List (CacheCall Nat) := [.insert [1.0] 1 0 0, .insert [1.0] 2 5 5]

/-- What the two insertions leave. -/
def repeatedClocked : ClockedCache Nat := repeatedCalls.foldl CacheCall.apply ⟨sampleCache, 0⟩

/-- The two insertions are a run. -/
theorem repeatedCalls_run : Run CacheCall.Step ⟨sampleCache, 0⟩
    ([.insert [1.0] 1 0 0] ++ [.insert [1.0] 2 5 5]) repeatedClocked := by
  have none_ : Run CacheCall.Step ⟨sampleCache, 0⟩ [] ⟨sampleCache, 0⟩ := Run.nil
  have first := CacheCall.runs none_ (.insert [1.0] 1 0 0) (show 0 ≤ 0 ∧ 0 ≤ 0 by decide)
  exact CacheCall.runs first (.insert [1.0] 2 5 5) (show 0 ≤ 5 ∧ 5 ≤ 5 by decide)

/-- The vector of length one is its own unit vector. -/
theorem unitNormalise_one : unitNormalise [1.0] = some [1.0] := by decide +kernel

/-- The query has the dimension of the cache. -/
theorem repeatedClocked_fits :
    ([1.0] : List Float32).length = repeatedClocked.cache.dim := by decide +kernel

/-- The query's own score is a hit, and no entry scores more. -/
theorem repeatedClocked_leads :
    Leads repeatedClocked.cache.hitThreshold [1.0] repeatedClocked.cache.entries where
  reaches := by decide +kernel
  highest := by
    have each : (repeatedClocked.cache.entries.all fun e =>
        !decide (dot [1.0] [1.0] < dot [1.0] e.centreUnit)) = true := by decide +kernel
    intro e member
    simpa using List.all_eq_true.mp each e member

/-- The first answer is served, also where the second is the latest. -/
theorem older_answer_served :
    ¬ ∀ (start s : ClockedCache Nat) (calls : List (CacheCall Nat))
      (embedding unit : List Float32) (bundle now insertedAt : Nat),
      Run CacheCall.Step start (calls ++ [.insert embedding bundle now insertedAt]) s →
        embedding.length = s.cache.dim → unitNormalise embedding = some unit →
          Leads s.cache.hitThreshold unit s.cache.entries →
            ∀ then_, s.clock ≤ then_ → then_ - insertedAt ≤ s.cache.ttl →
              (s.cache.get embedding then_).2 = some bundle := by
  intro claim
  have older : (repeatedClocked.cache.get [1.0] 6).2 = some 1 := by decide +kernel
  have clock : repeatedClocked.clock ≤ 6 := by decide
  have young : 6 - 5 ≤ repeatedClocked.cache.ttl := by decide +kernel
  have latest := claim _ _ _ [1.0] [1.0] 2 5 5 repeatedCalls_run repeatedClocked_fits
    unitNormalise_one repeatedClocked_leads 6 clock young
  cases older.symm.trans latest

/-- The two answers are served in turn. -/
theorem latest_answer_in_turn_sample :
    ServesEqualsInTurn [1.0] [1.0] 2 5 repeatedClocked :=
  latest_answer_in_turn repeatedCalls_run repeatedClocked_fits unitNormalise_one
    repeatedClocked_leads

end Hansa
