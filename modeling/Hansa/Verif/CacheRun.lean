import Hansa.Cache
import Hansa.Library.Prefix
import Hansa.Library.Transition
import Mathlib.Data.List.Induction

/-!
# What the bundle cache serves

Expiry looks at the front of the buffer only, so it drops every stale entry exactly while the
entries stand in the order of their insertion times. An insertion keeps that order. A lookup
keeps it when the entry it moves to the back is no older than the entries behind it, and
breaks it otherwise: from then on a stale entry can hide behind a younger one, be counted and
be served.
-/

namespace Hansa

open BundleCache

variable {Bundle : Type}

/-! ## Calls and runs -/

/-- A call on the cache, with what its clock reads return. -/
inductive CacheCall (Bundle : Type) where
  /-- `insert`, which reads the clock twice. -/
  | insert (embedding : List Float32) (bundle : Bundle) (now insertedAt : Nat)
  /-- `get`. -/
  | get (embedding : List Float32) (now : Nat)
  /-- `len`. -/
  | len (now : Nat)
  /-- `invalidate_all`. -/
  | invalidateAll

/-- A cache and the last time its clock was read. -/
structure ClockedCache (Bundle : Type) where
  /-- The cache. -/
  cache : BundleCache Bundle
  /-- No later read of the clock is before this. -/
  clock : Nat

namespace CacheCall

/-- The clock never goes back. -/
def InOrder (clock : Nat) : CacheCall Bundle → Prop
  | insert _ _ now insertedAt => clock ≤ now ∧ now ≤ insertedAt
  | get _ now => clock ≤ now
  | len now => clock ≤ now
  | invalidateAll => True

/-- What a call leaves. -/
def apply (s : ClockedCache Bundle) : CacheCall Bundle → ClockedCache Bundle
  | insert embedding bundle now insertedAt =>
    ⟨s.cache.insert embedding bundle now insertedAt, insertedAt⟩
  | get embedding now => ⟨(s.cache.get embedding now).1, now⟩
  | len now => ⟨(s.cache.len now).1, now⟩
  | invalidateAll => ⟨s.cache.invalidateAll, s.clock⟩

/-- One call at a time the clock can show. -/
def Step (s : ClockedCache Bundle) (call : CacheCall Bundle) (t : ClockedCache Bundle) : Prop :=
  call.InOrder s.clock ∧ t = call.apply s

end CacheCall

/-- The bundle was inserted by one of the calls, at the given time. -/
def InsertedBy (calls : List (CacheCall Bundle)) (bundle : Bundle) (time : Nat) : Prop :=
  ∃ embedding now, CacheCall.insert embedding bundle now time ∈ calls

/-- What the next call may return: bundles inserted within the lifetime, and the number of the
entries that are within it. -/
structure ServesFresh (ttl : Nat) (calls : List (CacheCall Bundle)) (s : ClockedCache Bundle) :
    Prop where
  /-- A bundle that `get` returns was inserted at most `ttl` ago. -/
  served : ∀ embedding now bundle, s.clock ≤ now → (s.cache.get embedding now).2 = some bundle →
    ∃ time, InsertedBy calls bundle time ∧ time ≤ now ∧ now - time ≤ ttl
  /-- `len` counts the entries within their lifetime and no others. -/
  counted : ∀ now, s.clock ≤ now →
    (s.cache.len now).2 = s.cache.entries.countP (fun e => now - e.insertedAt ≤ ttl)

/-! ## Which entry is hit -/

/-- The scan's choice: past the threshold, above every earlier entry past the threshold, and
not below any later one. -/
structure IsBest (threshold : Float32) (unit : List Float32) (entries before : List (Entry Bundle))
    (entry : Entry Bundle) (after : List (Entry Bundle)) : Prop where
  /-- Where the entry stands. -/
  split : entries = before ++ entry :: after
  /-- Its score reaches the threshold. -/
  reaches : threshold ≤ dot unit entry.centreUnit
  /-- Earlier entries that reach the threshold score less. -/
  first : ∀ e ∈ before, threshold ≤ dot unit e.centreUnit →
    dot unit e.centreUnit < dot unit entry.centreUnit
  /-- No later entry scores more. -/
  highest : ∀ e ∈ after, ¬ dot unit entry.centreUnit < dot unit e.centreUnit

/-- Two entries cannot both be the best. -/
theorem IsBest.unique {threshold : Float32} {unit : List Float32} {entries before before' after
    after' : List (Entry Bundle)} {entry entry' : Entry Bundle}
    (best : IsBest threshold unit entries before entry after)
    (best' : IsBest threshold unit entries before' entry' after') :
    before = before' ∧ entry = entry' ∧ after = after' := by
  have same := best.split.symm.trans best'.split
  rcases List.append_eq_append_iff.mp same with ⟨gap, rfl, rest⟩ | ⟨gap, rfl, rest⟩
  · cases gap with
    | nil => simpa using rest
    | cons x gap =>
      obtain ⟨rfl, rfl⟩ := List.cons.inj rest
      exact absurd (best'.first entry (by simp) best.reaches) (best.highest entry' (by simp))
  · cases gap with
    | nil => simpa [eq_comm] using rest
    | cons x gap =>
      obtain ⟨rfl, rfl⟩ := List.cons.inj rest
      exact absurd (best.first entry' (by simp) best'.reaches) (best'.highest entry (by simp))

/-- An entry that misses the threshold or does not beat the best leaves it the best. -/
theorem IsBest.keep {threshold : Float32} {unit : List Float32} {entries before after}
    {entry e : Entry Bundle} (best : IsBest threshold unit entries before entry after)
    (misses : ¬ (threshold ≤ dot unit e.centreUnit ∧
      dot unit entry.centreUnit < dot unit e.centreUnit)) :
    IsBest threshold unit (entries ++ [e]) before entry (after ++ [e]) where
  split := by rw [best.split, List.append_assoc, List.cons_append]
  reaches := best.reaches
  first := best.first
  highest := by
    intro x member
    rcases List.mem_append.mp member with inside | last
    · exact best.highest x inside
    · obtain rfl := List.mem_singleton.mp last
      exact fun above => misses ⟨Float32.le_of_le_of_lt best.reaches above, above⟩

/-- An entry that beats the best beats every entry past the threshold. -/
theorem IsBest.replace {threshold : Float32} {unit : List Float32} {entries before after}
    {entry e : Entry Bundle} (best : IsBest threshold unit entries before entry after)
    (reaches : threshold ≤ dot unit e.centreUnit)
    (beats : dot unit entry.centreUnit < dot unit e.centreUnit) :
    IsBest threshold unit (entries ++ [e]) entries e [] where
  split := rfl
  reaches := reaches
  first := by
    intro x member past
    rw [best.split, List.mem_append, List.mem_cons] at member
    rcases member with inside | rfl | inside
    · exact Float32.lt_trans_place (best.first x inside past) beats
    · exact beats
    · exact Float32.lt_of_not_lt_of_lt (Float32.isSome_place_of_le past)
        (best.highest x inside) beats
  highest := fun _ absent => nomatch absent

/-- What the scan has found after some entries. -/
def ScanFound (threshold : Float32) (unit : List Float32) (entries : List (Entry Bundle)) :
    Option (Nat × Float32) → Prop
  | none => ∀ e ∈ entries, ¬ threshold ≤ dot unit e.centreUnit
  | some (idx, score) => ∃ before entry after, IsBest threshold unit entries before entry after ∧
      idx = before.length ∧ score = dot unit entry.centreUnit

/-- One turn of the scan. -/
theorem ScanFound.better {threshold : Float32} {unit : List Float32}
    {entries : List (Entry Bundle)} {best : Option (Nat × Float32)}
    (found : ScanFound threshold unit entries best) (e : Entry Bundle) :
    ScanFound threshold unit (entries ++ [e])
      (BundleCache.better threshold unit best (e, entries.length)) := by
  unfold BundleCache.better
  cases best with
  | none =>
    by_cases reaches : threshold ≤ dot unit e.centreUnit
    · rw [if_pos ⟨reaches, rfl⟩]
      exact ⟨entries, e, [], ⟨rfl, reaches, fun x member past => absurd past (found x member),
        fun _ absent => nomatch absent⟩, rfl, rfl⟩
    · rw [if_neg (fun both => reaches both.1)]
      intro x member
      rcases List.mem_append.mp member with inside | last
      · exact found x inside
      · rwa [List.mem_singleton.mp last]
  | some lead =>
    obtain ⟨before, entry, after, is, at_, score⟩ := found
    by_cases beats : threshold ≤ dot unit e.centreUnit ∧ lead.2 < dot unit e.centreUnit
    · rw [if_pos ⟨beats.1, by simpa using beats.2⟩]
      exact ⟨entries, e, [], is.replace beats.1 (score ▸ beats.2), rfl, rfl⟩
    · rw [if_neg (fun both => beats ⟨both.1, by simpa using both.2⟩)]
      exact ⟨before, entry, after ++ [e], is.keep (score ▸ beats), at_, score⟩

/-- The scan finds the best entry, if there is one. -/
theorem scan_found (threshold : Float32) (unit : List Float32) (entries : List (Entry Bundle)) :
    ScanFound threshold unit entries (scan threshold unit entries) := by
  induction entries using List.reverseRecOn with
  | nil => exact fun _ absent => nomatch absent
  | append_singleton entries e ih =>
    have turn := ih.better e
    rwa [scan, List.zipIdx_append, List.foldl_append, Nat.zero_add]

/-- Touching an entry returns its bundle and moves it to the back. -/
theorem touch_entry {cache : BundleCache Bundle} {before after : List (Entry Bundle)}
    {entry : Entry Bundle} (split : cache.entries = before ++ entry :: after) :
    (cache.touch before.length).2 = some entry.bundle ∧
      (cache.touch before.length).1.entries = before ++ after ++ [entry] := by
  have at_ : cache.entries[before.length]? = some entry := by simp [split]
  have moved : cache.entries.eraseIdx before.length = before ++ after := by
    simp [split, List.eraseIdx_append_of_length_le]
  unfold touch
  split
  · next absent => rw [at_] at absent; cases absent
  · next found =>
    obtain rfl := Option.some.inj (at_.symm.trans found)
    exact ⟨rfl, congrArg (· ++ [entry]) moved⟩

/-- Two caches that differ in their entries at most. -/
structure BundleCache.SameSettings (cache next : BundleCache Bundle) : Prop where
  /-- The dimension is as it was. -/
  dim : next.dim = cache.dim
  /-- The capacity is as it was. -/
  capacity : next.capacity = cache.capacity
  /-- The lifetime is as it was. -/
  ttl : next.ttl = cache.ttl
  /-- The threshold is as it was. -/
  hitThreshold : next.hitThreshold = cache.hitThreshold

/-- Moving an entry changes nothing else. -/
theorem touch_sameSettings (cache : BundleCache Bundle) (idx : Nat) :
    cache.SameSettings (cache.touch idx).1 := by
  unfold touch
  split <;> exact ⟨rfl, rfl, rfl, rfl⟩

/-- What `get` does: nothing but expiry, or the best live entry is returned and moves to the
back. -/
theorem get_spec (cache : BundleCache Bundle) (embedding : List Float32) (now : Nat) :
    ((cache.get embedding now).2 = none ∧ ((cache.get embedding now).1.entries = cache.entries ∨
        (cache.get embedding now).1.entries = cache.live now)) ∨
      ∃ unit before entry after, embedding.length = cache.dim ∧
        unitNormalise embedding = some unit ∧
        IsBest cache.hitThreshold unit (cache.live now) before entry after ∧
        (cache.get embedding now).2 = some entry.bundle ∧
        (cache.get embedding now).1.entries = before ++ after ++ [entry] := by
  unfold BundleCache.get
  split
  · exact .inl ⟨rfl, .inl rfl⟩
  · next fits =>
    split
    · exact .inl ⟨rfl, .inl rfl⟩
    · next unit normalised =>
      have found := scan_found cache.hitThreshold unit (cache.expire now).entries
      split
      · exact .inl ⟨rfl, .inr rfl⟩
      · next idx score best =>
        rw [best] at found
        obtain ⟨before, entry, after, is, rfl, _⟩ := found
        have touched := touch_entry is.split
        exact .inr ⟨unit, before, entry, after, not_not.mp fits, normalised, is,
          touched.1, touched.2⟩

/-- A lookup changes nothing but the entries. -/
theorem get_sameSettings (cache : BundleCache Bundle) (embedding : List Float32) (now : Nat) :
    cache.SameSettings (cache.get embedding now).1 := by
  unfold BundleCache.get
  split
  · exact ⟨rfl, rfl, rfl, rfl⟩
  · split
    · exact ⟨rfl, rfl, rfl, rfl⟩
    · split
      · exact ⟨rfl, rfl, rfl, rfl⟩
      · next idx _ _ =>
        obtain ⟨dim, capacity, ttl, threshold⟩ := touch_sameSettings (cache.expire now) idx
        exact ⟨dim, capacity, ttl, threshold⟩

/-- What `insert` leaves: the entries as they were, or room made among the live ones and the
new entry at the back. -/
theorem insert_spec (cache : BundleCache Bundle) (embedding : List Float32) (bundle : Bundle)
    (now insertedAt : Nat) :
    (cache.insert embedding bundle now insertedAt).entries = cache.entries ∨
      ∃ unit, (cache.insert embedding bundle now insertedAt).entries =
        evict cache.capacity (cache.live now) ++ [⟨unit, bundle, insertedAt⟩] := by
  unfold BundleCache.insert
  split
  · exact .inl rfl
  · split
    · exact .inl rfl
    · next unit _ => exact .inr ⟨unit, rfl⟩

/-- An insertion changes nothing but the entries. -/
theorem insert_sameSettings (cache : BundleCache Bundle) (embedding : List Float32)
    (bundle : Bundle) (now insertedAt : Nat) :
    cache.SameSettings (cache.insert embedding bundle now insertedAt) := by
  unfold BundleCache.insert
  split
  · exact ⟨rfl, rfl, rfl, rfl⟩
  · split <;> exact ⟨rfl, rfl, rfl, rfl⟩

/-- A lookup that has a best live entry returns a bundle. -/
theorem get_ne_none {cache : BundleCache Bundle} {embedding : List Float32} {now : Nat}
    {unit : List Float32} {before after : List (Entry Bundle)} {entry : Entry Bundle}
    (fits : embedding.length = cache.dim) (normalised : unitNormalise embedding = some unit)
    (is : IsBest cache.hitThreshold unit (cache.live now) before entry after) :
    (cache.get embedding now).2 ≠ none := by
  have found := scan_found cache.hitThreshold unit (cache.expire now).entries
  unfold BundleCache.get
  rw [if_neg (not_not.mpr fits)]
  simp only [normalised]
  split
  · next none_ =>
    rw [none_] at found
    exact absurd is.reaches (found entry (by show entry ∈ cache.live now; simp [is.split]))
  · next idx score best =>
    rw [best] at found
    obtain ⟨before, entry, after, is, rfl, _⟩ := found
    simp [(touch_entry is.split).1]

/-! ## Entries in the order of their insertion -/

/-- The entries stand in the order of their insertion times, all of them past. -/
structure InInsertionOrder (calls : List (CacheCall Bundle)) (s : ClockedCache Bundle) : Prop where
  /-- No entry is younger than one behind it. -/
  sorted : s.cache.entries.Pairwise (fun a b => a.insertedAt ≤ b.insertedAt)
  /-- No entry was inserted in the future. -/
  past : ∀ e ∈ s.cache.entries, e.insertedAt ≤ s.clock
  /-- Every entry was inserted by a call. -/
  inserted : ∀ e ∈ s.cache.entries, InsertedBy calls e.bundle e.insertedAt

/-- A stale entry is past its lifetime. -/
theorem stale_iff {ttl now : Nat} {e : Entry Bundle} :
    stale ttl now e = true ↔ ¬ now - e.insertedAt ≤ ttl := by
  rw [stale, decide_eq_true_iff, not_le]

/-- In insertion order, expiry leaves the entries within their lifetime and no others. -/
theorem dropWhile_stale {ttl : Nat} {entries : List (Entry Bundle)}
    (sorted : entries.Pairwise (fun a b => a.insertedAt ≤ b.insertedAt)) (now : Nat) :
    entries.dropWhile (stale ttl now) = entries.filter (fun e => now - e.insertedAt ≤ ttl) := by
  have first : entries.HeldFirst (stale ttl now) := by
    refine sorted.imp (fun {a b} older past => ?_)
    rw [stale_iff] at past ⊢
    omega
  rw [first.dropWhile_eq]
  refine List.filter_congr (fun e _ => ?_)
  have within : (!stale ttl now e) = true ↔ decide (now - e.insertedAt ≤ ttl) = true := by
    rw [Bool.not_eq_true', ← Bool.not_eq_true, stale_iff, not_not, decide_eq_true_iff]
  exact Bool.eq_iff_iff.mpr within

/-- The live entries are among the entries. -/
theorem live_sublist (cache : BundleCache Bundle) (now : Nat) :
    (cache.live now).Sublist cache.entries :=
  List.dropWhile_sublist _

/-- In insertion order, the cache serves no stale entry and counts none. -/
theorem InInsertionOrder.servesFresh {calls : List (CacheCall Bundle)} {s : ClockedCache Bundle}
    (ordered : InInsertionOrder calls s) : ServesFresh s.cache.ttl calls s where
  served := by
    intro embedding now bundle later hit
    rcases get_spec s.cache embedding now with ⟨miss, _⟩ | ⟨_, _, entry, _, _, _, is, found, _⟩
    · rw [miss] at hit
      cases hit
    · obtain rfl := Option.some.inj (found.symm.trans hit)
      have alive : entry ∈ s.cache.live now := by simp [is.split]
      have inside := (live_sublist s.cache now).subset alive
      rw [live, dropWhile_stale ordered.sorted, List.mem_filter, decide_eq_true_iff] at alive
      exact ⟨entry.insertedAt, ordered.inserted entry inside,
        (ordered.past entry inside).trans later, alive.2⟩
  counted := by
    intro now _
    show (s.cache.live now).length = _
    rw [live, dropWhile_stale ordered.sorted, List.countP_eq_length_filter]

/-- Fewer entries are still in insertion order, at any later time. -/
theorem InInsertionOrder.sublist {calls : List (CacheCall Bundle)} {s t : ClockedCache Bundle}
    (ordered : InInsertionOrder calls s) (fewer : t.cache.entries.Sublist s.cache.entries)
    (later : s.clock ≤ t.clock) : InInsertionOrder calls t where
  sorted := ordered.sorted.sublist fewer
  past := fun e member => (ordered.past e (fewer.subset member)).trans later
  inserted := fun e member => ordered.inserted e (fewer.subset member)

/-- An insertion stays one in a longer run. -/
theorem InInsertionOrder.weaken {calls : List (CacheCall Bundle)} {s : ClockedCache Bundle}
    (ordered : InInsertionOrder calls s) (call : CacheCall Bundle) :
    InInsertionOrder (calls ++ [call]) s where
  sorted := ordered.sorted
  past := ordered.past
  inserted := by
    intro e member
    obtain ⟨embedding, now, made⟩ := ordered.inserted e member
    exact ⟨embedding, now, List.mem_append_left _ made⟩

/-! ## What a call does to the order -/

/-- A lookup hits an entry that is no older than the live entries behind it. -/
def HitsYoungest (cache : BundleCache Bundle) (embedding : List Float32) (now : Nat) : Prop :=
  embedding.length = cache.dim → ∀ unit ∈ unitNormalise embedding, ∀ before entry after,
    IsBest cache.hitThreshold unit (cache.live now) before entry after →
      ∀ e ∈ after, e.insertedAt ≤ entry.insertedAt

/-- The condition on a call: every call but a lookup meets it. -/
def CacheCall.MovesYoungest (s : ClockedCache Bundle) : CacheCall Bundle → Prop
  | .get embedding now => HitsYoungest s.cache embedding now
  | _ => True

/-- Moving an entry to the back keeps the order if it is no older than the entries it passes. -/
theorem pairwise_moved {before after : List (Entry Bundle)} {entry : Entry Bundle}
    (sorted : (before ++ entry :: after).Pairwise (fun a b => a.insertedAt ≤ b.insertedAt))
    (youngest : ∀ e ∈ after, e.insertedAt ≤ entry.insertedAt) :
    (before ++ after ++ [entry]).Pairwise (fun a b => a.insertedAt ≤ b.insertedAt) := by
  obtain ⟨front, back, across⟩ := List.pairwise_append.mp sorted
  have rest := (List.pairwise_cons.mp back).2
  refine List.pairwise_append.mpr ⟨List.pairwise_append.mpr ⟨front, rest, ?_⟩,
    List.pairwise_singleton _ _, ?_⟩
  · exact fun a inside b member => across a inside b (List.mem_cons_of_mem _ member)
  · intro a inside b last
    obtain rfl := List.mem_singleton.mp last
    rcases List.mem_append.mp inside with early | late
    · exact across a early b List.mem_cons_self
    · exact youngest a late

/-- A lookup that hits no older entry than those behind it keeps the order. -/
theorem InInsertionOrder.get {calls : List (CacheCall Bundle)} {s : ClockedCache Bundle}
    (ordered : InInsertionOrder calls s) {embedding : List Float32} {now : Nat}
    (later : s.clock ≤ now) (youngest : HitsYoungest s.cache embedding now) :
    InInsertionOrder calls ⟨(s.cache.get embedding now).1, now⟩ := by
  rcases get_spec s.cache embedding now with
    ⟨_, same | expired⟩ | ⟨unit, before, entry, after, fits, normalised, is, _, moved⟩
  · exact ordered.sublist (same ▸ List.Sublist.refl _) later
  · exact ordered.sublist (expired ▸ live_sublist s.cache now) later
  · have alive : InInsertionOrder calls ⟨s.cache.expire now, now⟩ :=
      ordered.sublist (live_sublist s.cache now) later
    have kept : ∀ e ∈ before ++ after ++ [entry], e ∈ s.cache.live now := by
      intro e member
      rw [is.split]
      simp only [List.mem_append, List.mem_cons] at member ⊢
      tauto
    constructor
    · rw [moved]
      exact pairwise_moved (is.split ▸ alive.sorted) (youngest fits unit normalised _ _ _ is)
    · exact fun e member => alive.past e (kept e (moved ▸ member))
    · exact fun e member => alive.inserted e (kept e (moved ▸ member))

/-- An insertion keeps the order: the new entry is the youngest. -/
theorem InInsertionOrder.insert {calls : List (CacheCall Bundle)} {s : ClockedCache Bundle}
    (ordered : InInsertionOrder calls s) {embedding : List Float32} {bundle : Bundle}
    {now insertedAt : Nat} (later : s.clock ≤ now) (next : now ≤ insertedAt) :
    InInsertionOrder (calls ++ [.insert embedding bundle now insertedAt])
      ⟨s.cache.insert embedding bundle now insertedAt, insertedAt⟩ := by
  have before := ordered.weaken (.insert embedding bundle now insertedAt)
  rcases insert_spec s.cache embedding bundle now insertedAt with same | ⟨unit, pushed⟩
  · exact before.sublist (same ▸ List.Sublist.refl _) (later.trans next)
  · have kept := before.sublist (t := ⟨s.cache.expire now, insertedAt⟩)
      (live_sublist s.cache now) (later.trans next)
    have fewer : (evict s.cache.capacity (s.cache.live now)).Sublist (s.cache.live now) :=
      List.drop_sublist _ _
    constructor
    · rw [pushed]
      refine List.pairwise_append.mpr
        ⟨kept.sorted.sublist fewer, List.pairwise_singleton _ _, ?_⟩
      intro a inside b last
      obtain rfl := List.mem_singleton.mp last
      exact kept.past a (fewer.subset inside)
    · intro e member
      rw [pushed, List.mem_append, List.mem_singleton] at member
      rcases member with inside | rfl
      · exact kept.past e (fewer.subset inside)
      · exact Nat.le_refl _
    · intro e member
      rw [pushed, List.mem_append, List.mem_singleton] at member
      rcases member with inside | rfl
      · exact kept.inserted e (fewer.subset inside)
      · exact ⟨embedding, now, by simp⟩

/-- One call that meets the condition keeps the entries in insertion order. -/
theorem InInsertionOrder.step {calls : List (CacheCall Bundle)} {s t : ClockedCache Bundle}
    {call : CacheCall Bundle} (ordered : InInsertionOrder calls s) (step : call.Step s t)
    (youngest : call.MovesYoungest s) : InInsertionOrder (calls ++ [call]) t := by
  obtain ⟨inOrder, rfl⟩ := step
  cases call with
  | insert embedding bundle now insertedAt => exact ordered.insert inOrder.1 inOrder.2
  | get embedding now => exact (ordered.get inOrder youngest).weaken _
  | len now =>
    have later : InInsertionOrder calls ⟨s.cache.expire now, now⟩ :=
      ordered.sublist (live_sublist s.cache now) inOrder
    exact later.weaken _
  | invalidateAll =>
    have cleared : InInsertionOrder calls ⟨s.cache.invalidateAll, s.clock⟩ :=
      ordered.sublist (List.nil_sublist _) (Nat.le_refl _)
    exact cleared.weaken _

/-- In a run whose lookups meet the condition, the entries stand in insertion order. -/
theorem run_inInsertionOrder {start s : ClockedCache Bundle} {calls : List (CacheCall Bundle)}
    (empty : start.cache.entries = [])
    (run : Run (fun s (call : CacheCall Bundle) t => call.Step s t ∧ call.MovesYoungest s)
      start calls s) : InInsertionOrder calls s := by
  exact run.labelled (fun t calls => InInsertionOrder calls t)
    ⟨by simp [empty], by simp [empty], by simp [empty]⟩
    (fun s call t calls ordered next => ordered.step next.1 next.2)

/-- No call changes the settings. -/
theorem CacheCall.Step.sameSettings {s t : ClockedCache Bundle} {call : CacheCall Bundle}
    (step : call.Step s t) : s.cache.SameSettings t.cache := by
  obtain ⟨_, rfl⟩ := step
  cases call with
  | insert embedding bundle now insertedAt => exact insert_sameSettings ..
  | get embedding now => exact get_sameSettings ..
  | len now => exact ⟨rfl, rfl, rfl, rfl⟩
  | invalidateAll => exact ⟨rfl, rfl, rfl, rfl⟩

/-- In every run whose lookups only hit entries no older than the live entries behind them,
the cache returns bundles within their lifetime and counts exactly the entries within it. -/
theorem cache_serves_fresh {dim capacity ttl start : Nat} {hitThreshold : Float32}
    {calls : List (CacheCall Bundle)} {s : ClockedCache Bundle}
    (run : Run (fun s (call : CacheCall Bundle) t => call.Step s t ∧ call.MovesYoungest s)
      ⟨withConfig dim capacity ttl hitThreshold, start⟩ calls s) :
    ServesFresh ttl calls s := by
  have lifetime : s.cache.ttl = ttl :=
    run.invariant (fun t => t.cache.ttl = ttl) rfl
      (fun _ _ _ kept next => next.1.sameSettings.ttl.trans kept)
  exact lifetime ▸ (run_inInsertionOrder rfl run).servesFresh

/-! ## Where the order breaks -/

/-- Entries within their lifetime are counted where they stand, so a stale entry behind a live
one is counted too many. -/
theorem countP_lt_length_dropWhile {ttl now : Nat} {entries before after : List (Entry Bundle)}
    {e : Entry Bundle} (split : entries = before ++ e :: after) (young : now - e.insertedAt ≤ ttl)
    (old : ∃ x ∈ after, ¬ now - x.insertedAt ≤ ttl) :
    entries.countP (fun e => now - e.insertedAt ≤ ttl) <
      (entries.dropWhile (stale ttl now)).length := by
  subst split
  induction before with
  | nil =>
    rw [List.nil_append, List.dropWhile_cons_of_neg (by rw [stale_iff]; exact not_not.mpr young)]
    obtain ⟨x, member, past⟩ := old
    refine lt_of_le_of_ne List.countP_le_length (fun all => past ?_)
    simpa using List.countP_eq_length.mp all x (List.mem_cons_of_mem _ member)
  | cons x before ih =>
    by_cases past : stale ttl now x = true
    · have late := stale_iff.mp past
      rw [List.cons_append, List.dropWhile_cons_of_pos past,
        List.countP_cons_of_neg (by simpa only [decide_eq_true_eq] using late)]
      exact ih
    · rw [List.cons_append, List.dropWhile_cons_of_neg past, List.length_cons]
      have less := ih.trans_le (List.dropWhile_sublist _).length_le
      rw [List.countP_cons]
      split <;> omega

/-- The condition on a lookup is exact: in insertion order, the count stays right at all later
times if and only if the lookup hits an entry no older than the live entries behind it. -/
theorem InInsertionOrder.hitsYoungest_iff {calls : List (CacheCall Bundle)}
    {s : ClockedCache Bundle} (ordered : InInsertionOrder calls s) {embedding : List Float32}
    {now : Nat} (later : s.clock ≤ now) :
    HitsYoungest s.cache embedding now ↔
      ∀ then_ ≥ now, ((s.cache.get embedding now).1.len then_).2 =
        (s.cache.get embedding now).1.entries.countP
          (fun e => then_ - e.insertedAt ≤ s.cache.ttl) := by
  constructor
  · intro youngest then_ after_
    have counted := (ordered.get later youngest).servesFresh.counted then_ after_
    rwa [(get_sameSettings ..).ttl] at counted
  · intro counted fits unit normalised before entry after is e member
    by_contra older
    rcases get_spec s.cache embedding now with
      ⟨miss, _⟩ | ⟨unit', before', entry', after', _, normalised', is', _, moved⟩
    · exact absurd miss (get_ne_none fits normalised is)
    · obtain rfl := Option.some.inj (normalised.symm.trans normalised')
      obtain ⟨rfl, rfl, rfl⟩ := is.unique is'
      have alive : e ∈ s.cache.live now := by simp [is.split, member]
      rw [live, dropWhile_stale ordered.sorted, List.mem_filter, decide_eq_true_iff] at alive
      have right := counted (e.insertedAt + s.cache.ttl) (by omega)
      obtain ⟨front, back, rfl⟩ := List.mem_iff_append.mp member
      refine absurd right (ne_of_gt ?_)
      show _ < ((s.cache.get embedding now).1.live _).length
      rw [live, (get_sameSettings ..).ttl]
      have split : (s.cache.get embedding now).1.entries =
          (before ++ front) ++ e :: (back ++ [entry]) := by simp [moved]
      exact countP_lt_length_dropWhile split (by omega) ⟨entry, by simp, by omega⟩

/-! ## A stale hit -/

/-- A cache of one-dimensional embeddings with a lifetime of ten. -/
def sampleCache : BundleCache Nat := withConfig 1 16 10 0.98

/-- Two opposite queries are cached, then the first is looked up. -/
def sampleCalls : List (CacheCall Nat) :=
  [.insert [1.0] 1 0 0, .insert [-1.0] 2 5 5, .get [1.0] 6]

/-- What the calls of the sample leave. -/
def sampleClocked : ClockedCache Nat := sampleCalls.foldl CacheCall.apply ⟨sampleCache, 0⟩

/-- A call at a time the clock can show extends a run. -/
theorem CacheCall.runs {start s : ClockedCache Bundle} {calls : List (CacheCall Bundle)}
    (run : Run CacheCall.Step start calls s) (call : CacheCall Bundle)
    (inOrder : call.InOrder s.clock) : Run CacheCall.Step start (calls ++ [call]) (call.apply s) :=
  run.concat ⟨inOrder, rfl⟩

/-- The calls of the sample are a run. -/
theorem sampleCalls_run : Run CacheCall.Step ⟨sampleCache, 0⟩ sampleCalls sampleClocked := by
  have none_ : Run CacheCall.Step ⟨sampleCache, 0⟩ [] ⟨sampleCache, 0⟩ := Run.nil
  have first := CacheCall.runs none_ (.insert [1.0] 1 0 0) (show 0 ≤ 0 ∧ 0 ≤ 0 by decide)
  have second := CacheCall.runs first (.insert [-1.0] 2 5 5) (show 0 ≤ 5 ∧ 5 ≤ 5 by decide)
  exact CacheCall.runs second (.get [1.0] 6) (show 5 ≤ 6 by decide)

/-- A bundle inserted at time 0 with a lifetime of 10 is returned at time 12: the hit at time 6
moved it behind an entry inserted at time 5. -/
theorem stale_bundle_served :
    ¬ ∀ (dim capacity ttl start : Nat) (hitThreshold : Float32) (calls : List (CacheCall Nat))
      (s : ClockedCache Nat),
      Run CacheCall.Step ⟨withConfig dim capacity ttl hitThreshold, start⟩ calls s →
        ServesFresh ttl calls s := by
  intro claim
  have hit : (sampleClocked.cache.get [1.0] 12).2 = some 1 := by decide +kernel
  have clock : sampleClocked.clock ≤ 12 := by decide
  obtain ⟨time, ⟨embedding, now, made⟩, _, young⟩ :=
    (claim 1 16 10 0 0.98 _ _ sampleCalls_run).served _ _ _ clock hit
  simp only [sampleCalls, List.mem_cons, CacheCall.insert.injEq, reduceCtorEq, List.not_mem_nil,
    or_false] at made
  omega

/-- Two opposite queries are cached. -/
def oppositeCalls : List (CacheCall Nat) := [.insert [1.0] 1 0 0, .insert [-1.0] 2 5 5]

/-- What these calls leave. -/
def oppositeClocked : ClockedCache Nat := oppositeCalls.foldl CacheCall.apply ⟨sampleCache, 0⟩

/-- These calls are a run that meets the condition on lookups. -/
theorem oppositeCalls_run : Run (fun s (call : CacheCall Nat) t =>
    call.Step s t ∧ call.MovesYoungest s) ⟨sampleCache, 0⟩ oppositeCalls oppositeClocked := by
  have first : CacheCall.Step ⟨sampleCache, 0⟩ (.insert [1.0] 1 0 0) _ :=
    ⟨show 0 ≤ 0 ∧ 0 ≤ 0 by decide, rfl⟩
  have second : CacheCall.Step (CacheCall.apply ⟨sampleCache, 0⟩ (.insert [1.0] 1 0 0))
    (.insert [-1.0] 2 5 5) _ := ⟨show 0 ≤ 5 ∧ 5 ≤ 5 by decide, rfl⟩
  exact (Run.nil.concat ⟨first, trivial⟩).concat ⟨second, trivial⟩

/-- The second query hits its own entry, behind which nothing stands. -/
theorem hitsYoungest_opposite : HitsYoungest oppositeClocked.cache [-1.0] 6 := by
  intro _ unit normalised before entry after is e member
  have isUnit : unitNormalise [-1.0] = some [-1.0] := by decide +kernel
  obtain rfl := Option.some.inj (isUnit.symm.trans normalised)
  have centres : (oppositeClocked.cache.live 6).map Entry.centreUnit = [[1.0], [-1.0]] := by
    decide +kernel
  rw [is.split, List.map_append, List.map_cons] at centres
  cases before with
  | nil =>
    -- The first entry is the opposite one, which is not hit.
    have opposite : ¬ oppositeClocked.cache.hitThreshold ≤ dot [-1.0] [1.0] := by decide +kernel
    have isFirst : entry.centreUnit = [1.0] := (List.cons.inj centres).1
    exact absurd (isFirst ▸ is.reaches) opposite
  | cons x before =>
    have count := congrArg List.length centres
    simp only [List.map_cons, List.cons_append, List.length_cons, List.length_append,
      List.length_map, List.length_nil] at count
    rw [List.eq_nil_of_length_eq_zero (show after.length = 0 by omega)] at member
    cases member

/-- What looking up the second query leaves. -/
def lookedUpClocked : ClockedCache Nat := CacheCall.apply oppositeClocked (.get [-1.0] 6)

/-- The second query is looked up and hits; later the first has expired, and is dropped. -/
theorem cache_serves_fresh_sample :
    ServesFresh 10 (oppositeCalls ++ [.get [-1.0] 6]) lookedUpClocked ∧
      (oppositeClocked.cache.get [-1.0] 6).2 = some 2 ∧
      (lookedUpClocked.cache.get [1.0] 12).2 = none ∧ (lookedUpClocked.cache.len 12).2 = 1 :=
  ⟨cache_serves_fresh (oppositeCalls_run.concat
    ⟨⟨show 5 ≤ 6 by decide, rfl⟩, hitsYoungest_opposite⟩), by decide +kernel⟩

end Hansa
