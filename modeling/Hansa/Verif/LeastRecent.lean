import Mathlib.Data.List.Dedup
import Mathlib.Data.List.Pairwise
import Mathlib.Data.List.TakeWhile
import Hansa.Verif.CacheRun

/-!
# Which entry is evicted

A bundle is used when it is inserted and whenever it is returned. While no bundle is inserted
twice, so that bundles can be told apart, the buffer holds the end of the bundles in the order of
their last use. An insertion that the cache rejects counts as none. What is missing from the
buffer has expired, or as many bundles as it takes were used after it. So no bundle is evicted
while one that was used before it is kept.
-/

namespace Hansa

open BundleCache

/-! ## The order of last use -/

section Order

variable {α : Type} [DecidableEq α]

/-- The elements of a log in the order of their last use. -/
def byLastUse (log : List α) : List α := log.dedup

/-- One more use moves an element to the end. -/
theorem byLastUse_concat (log : List α) (a : α) :
    byLastUse (log ++ [a]) = (byLastUse log).filter (· ≠ a) ++ [a] := by
  unfold byLastUse
  induction log with
  | nil => rfl
  | cons b log ih =>
    rw [List.cons_append]
    by_cases again : b ∈ log
    · rw [List.dedup_cons_of_mem again, List.dedup_cons_of_mem (List.mem_append_left _ again), ih]
    · rw [List.dedup_cons_of_notMem again]
      by_cases same : b = a
      · have last : b ∈ log ++ [a] := by simp [same]
        rw [List.dedup_cons_of_mem last, ih, List.filter_cons_of_neg (by simp [same])]
      · have fresh : b ∉ log ++ [a] := by simp [again, same]
        rw [List.dedup_cons_of_notMem fresh, ih, List.filter_cons_of_pos (by simp [same])]
        rfl

/-- What is used first is one more. -/
theorem byLastUse_new {log : List α} {a : α} (fresh : a ∉ log) :
    byLastUse (log ++ [a]) = byLastUse log ++ [a] := by
  rw [byLastUse_concat, List.filter_eq_self.mpr]
  intro b member
  have inside : b ∈ log := List.mem_dedup.mp member
  simpa using fun same : b = a => fresh (same ▸ inside)

/-- What is used again leaves its place. -/
theorem byLastUse_again {log before after : List α} {a : α}
    (split : byLastUse log = before ++ a :: after) :
    byLastUse (log ++ [a]) = before ++ after ++ [a] := by
  have once : (before ++ a :: after).Nodup := split ▸ List.nodup_dedup log
  obtain ⟨fresh, _⟩ := List.nodup_cons.mp (List.nodup_middle.mp once)
  have others : (before ++ after).filter (· ≠ a) = before ++ after := by
    apply List.filter_eq_self.mpr
    intro b member
    simpa using fun same : b = a => fresh (same ▸ member)
  rw [byLastUse_concat, split, List.filter_append, List.filter_cons_of_neg (by simp),
    ← List.filter_append, others]

end Order

/-! ## The log of a run -/

variable {Bundle : Type}

/-- An embedding that a cache of a dimension takes as a key. -/
def IsKey (dim : ℕ) (embedding : List Float32) : Prop :=
  embedding.length = dim ∧ (unitNormalise embedding).isSome

instance (dim : ℕ) (embedding : List Float32) : Decidable (IsKey dim embedding) :=
  inferInstanceAs (Decidable (_ ∧ _))

/-- The bundle that a call inserts, unless it is rejected. -/
def CacheCall.inserted (dim : ℕ) : CacheCall Bundle → Option Bundle
  | .insert embedding bundle _ _ => if IsKey dim embedding then some bundle else none
  | _ => none

/-- A call inserted a bundle at a time, and was not rejected. -/
def StoredBy (dim : ℕ) (calls : List (CacheCall Bundle)) (bundle : Bundle) (time : ℕ) : Prop :=
  ∃ embedding now, IsKey dim embedding ∧ .insert embedding bundle now time ∈ calls

/-- The log behind a call: the bundle that is inserted or returned comes last. -/
def CacheCall.record (s : ClockedCache Bundle) (log : List Bundle) :
    CacheCall Bundle → List Bundle
  | .insert embedding bundle _ _ =>
    if IsKey s.cache.dim embedding then log ++ [bundle] else log
  | .get embedding now => log ++ (s.cache.get embedding now).2.toList
  | .len _ => log
  | .invalidateAll => []

/-- What some calls leave, and the bundles that they use since the last invalidation. -/
def history (start : ClockedCache Bundle) (calls : List (CacheCall Bundle)) :
    ClockedCache Bundle × List Bundle :=
  calls.foldl (fun past call => (call.apply past.1, call.record past.1 past.2)) (start, [])

/-- One more call. -/
theorem history_concat (start : ClockedCache Bundle) (calls : List (CacheCall Bundle))
    (call : CacheCall Bundle) :
    history start (calls ++ [call]) =
      (call.apply (history start calls).1,
        call.record (history start calls).1 (history start calls).2) := by
  rw [history, List.foldl_append]
  rfl

variable {calls : List (CacheCall Bundle)} {dim : ℕ}

/-- An insertion stays one in a longer run. -/
theorem StoredBy.weaken {bundle : Bundle} {time : ℕ} (made : StoredBy dim calls bundle time)
    (call : CacheCall Bundle) : StoredBy dim (calls ++ [call]) bundle time := by
  obtain ⟨embedding, now, key, member⟩ := made
  exact ⟨embedding, now, key, List.mem_append_left _ member⟩

/-- A bundle that is inserted once is inserted at one time. -/
theorem StoredBy.unique {bundle : Bundle} {time time' : ℕ}
    (apart : (calls.filterMap (CacheCall.inserted dim)).Nodup)
    (made : StoredBy dim calls bundle time) (made' : StoredBy dim calls bundle time') :
    time = time' := by
  obtain ⟨embedding, now, key, member⟩ := made
  obtain ⟨embedding', now', key', member'⟩ := made'
  have different := List.pairwise_filterMap.mp apart
  have symmetric : Std.Symm fun a a' : CacheCall Bundle =>
      ∀ b, a.inserted dim = some b → ∀ b', a'.inserted dim = some b' → b ≠ b' :=
    ⟨fun _ _ other b isB b' isB' => (other b' isB' b isB).symm⟩
  by_contra other
  have two : CacheCall.insert embedding bundle now time ≠
      .insert embedding' bundle now' time' := by simp [other]
  exact different.forall member member' two bundle (if_pos key) bundle (if_pos key') rfl

/-- Stale entries are past their lifetime. -/
theorem stale_front (cache : BundleCache Bundle) {now : ℕ} {e : Entry Bundle}
    (member : e ∈ cache.entries.takeWhile (stale cache.ttl now)) :
    cache.ttl < now - e.insertedAt := not_le.mp (stale_iff.mp (List.mem_takeWhile_imp member))

/-- What cannot be a key changes nothing. -/
theorem insert_rejected {cache : BundleCache Bundle} {embedding : List Float32}
    (bundle : Bundle) (now insertedAt : ℕ)
    (rejected : ¬ IsKey cache.dim embedding) :
    cache.insert embedding bundle now insertedAt = cache := by
  unfold BundleCache.insert
  split
  · rfl
  · next fits =>
    split
    · rfl
    · next unit normalised =>
      have accepted : (unitNormalise embedding).isSome := Option.isSome_of_eq_some normalised
      exact absurd ⟨not_not.mp fits, accepted⟩ rejected

variable [DecidableEq Bundle]

/-- The buffer holds the bundles that were used last. -/
structure KeepsRecent (calls : List (CacheCall Bundle)) (s : ClockedCache Bundle)
    (log : List Bundle) : Prop where
  /-- The buffer is the end of the bundles in the order of their last use. -/
  recent : s.cache.entries.map Entry.bundle <:+ byLastUse log
  /-- A bundle within its lifetime is there while fewer than the buffer takes were used after
  it. -/
  kept : ∀ before bundle after time, byLastUse log = before ++ bundle :: after →
    after.length < s.cache.capacity → StoredBy s.cache.dim calls bundle time →
    s.clock - time ≤ s.cache.ttl → bundle :: after <:+ s.cache.entries.map Entry.bundle

/-! ## What has left the buffer -/

/-- The entries in the order of their last use, those that have left the buffer first. -/
structure Evicts (calls : List (CacheCall Bundle)) (s : ClockedCache Bundle) (log : List Bundle)
    (gone : List (Entry Bundle)) : Prop where
  /-- The log names them in this order. -/
  order : byLastUse log = (gone ++ s.cache.entries).map Entry.bundle
  /-- Each was inserted by a call. -/
  inserted : ∀ e ∈ gone ++ s.cache.entries, StoredBy s.cache.dim calls e.bundle e.insertedAt
  /-- What has left has expired, or enough others were used after it. -/
  reason : ∀ before e after, gone = before ++ e :: after →
    s.cache.ttl < s.clock - e.insertedAt ∨
      s.cache.capacity ≤ after.length + s.cache.entries.length

variable {s t : ClockedCache Bundle} {log log' : List Bundle}
  {gone : List (Entry Bundle)}

/-- Of two splits of a list at an element, one is inside of the other. -/
theorem append_eq_append_cons {α : Type} {front back before after : List α} {a : α}
    (split : front ++ back = before ++ a :: after) :
    (∃ middle, front = before ++ a :: middle ∧ after = middle ++ back) ∨
      ∃ middle, back = middle ++ a :: after := by
  rcases List.append_eq_append_iff.mp split with ⟨middle, rfl, rfl⟩ | ⟨middle, rfl, rest⟩
  · exact .inr ⟨middle, rfl⟩
  · cases middle with
    | nil => exact .inr ⟨[], rest.symm⟩
    | cons b middle =>
      obtain ⟨rfl, rfl⟩ := List.cons.inj rest
      exact .inl ⟨middle, rfl, rfl⟩

/-- The front of the buffer leaves it, and what is new comes last. -/
theorem Evicts.drop (evicts : Evicts calls s log gone) {out kept new : List (Entry Bundle)}
    (call : CacheCall Bundle) (split : s.cache.entries = out ++ kept)
    (left : t.cache.entries = kept ++ new) (settings : s.cache.SameSettings t.cache)
    (later : s.clock ≤ t.clock) (order : byLastUse log' = byLastUse log ++ new.map Entry.bundle)
    (made : ∀ e ∈ new, StoredBy t.cache.dim (calls ++ [call]) e.bundle e.insertedAt)
    (reason : ∀ e ∈ out, t.cache.ttl < t.clock - e.insertedAt ∨
      t.cache.capacity ≤ t.cache.entries.length) :
    Evicts (calls ++ [call]) t log' (gone ++ out) := by
  have whole : gone ++ out ++ t.cache.entries = gone ++ s.cache.entries ++ new := by
    rw [left, split]
    simp only [List.append_assoc]
  have counted : out.length + kept.length = s.cache.entries.length := by
    rw [split, List.length_append]
  have counted' : t.cache.entries.length = kept.length + new.length := by
    rw [left, List.length_append]
  refine ⟨?_, ?_, ?_⟩
  · rw [order, evicts.order, whole]
    exact List.map_append.symm
  · intro e member
    rw [whole] at member
    rcases List.mem_append.mp member with old | fresh
    · exact settings.dim ▸ (evicts.inserted e old).weaken call
    · exact made e fresh
  · intro before e after isGone
    rcases append_eq_append_cons isGone with ⟨middle, earlier, rest⟩ | ⟨middle, isOut⟩
    · rw [settings.ttl, settings.capacity, rest, List.length_append]
      rcases evicts.reason before e middle earlier with expired | full
      · exact .inl (by omega)
      · exact .inr (by omega)
    · rcases reason e (by simp [isOut]) with expired | full
      · exact .inl expired
      · exact .inr (by omega)

/-- The entry that is hit is used last. -/
theorem Evicts.hit (evicts : Evicts calls s log gone) {before after : List (Entry Bundle)}
    {entry : Entry Bundle} (split : s.cache.entries = before ++ entry :: after)
    (moved : t.cache.entries = before ++ after ++ [entry])
    (settings : s.cache.SameSettings t.cache) (clock : s.clock ≤ t.clock) :
    Evicts calls t (log ++ [entry.bundle]) gone := by
  have place : byLastUse log = (gone ++ before).map Entry.bundle ++
      entry.bundle :: after.map Entry.bundle := by
    rw [evicts.order, split]
    simp
  have length : t.cache.entries.length = s.cache.entries.length := by
    rw [moved, split]
    simp only [List.length_append, List.length_cons, List.length_nil]
    omega
  refine ⟨?_, ?_, ?_⟩
  · rw [byLastUse_again place, moved]
    simp
  · intro e member
    rw [settings.dim]
    apply evicts.inserted e
    rw [moved] at member
    rw [split]
    simp only [List.mem_append, List.mem_cons, List.not_mem_nil, or_false] at member ⊢
    tauto
  · intro front e back isGone
    rw [settings.ttl, settings.capacity, length]
    rcases evicts.reason front e back isGone with expired | full
    · exact .inl (by omega)
    · exact .inr full

/-- A buffer in this order keeps what was used last. -/
theorem Evicts.keepsRecent (evicts : Evicts calls s log gone)
    (apart : (calls.filterMap (CacheCall.inserted s.cache.dim)).Nodup) :
    KeepsRecent calls s log := by
  have order := evicts.order
  rw [List.map_append] at order
  refine ⟨order ▸ List.suffix_append .., ?_⟩
  intro before bundle after time split few made young
  rw [order] at split
  rcases append_eq_append_cons split with ⟨middle, earlier, rest⟩ | ⟨middle, inside⟩
  · exfalso
    obtain ⟨front, back, isGone, _, isBack⟩ := List.map_eq_append_iff.mp earlier
    obtain ⟨e, later, isBack', isBundle, isMiddle⟩ := List.map_eq_cons_iff.mp isBack
    rw [isBack'] at isGone
    have member : e ∈ gone ++ s.cache.entries := by simp [isGone]
    have same := StoredBy.unique apart made (isBundle ▸ evicts.inserted e member)
    rw [rest, ← isMiddle, List.length_append, List.length_map, List.length_map] at few
    rcases evicts.reason front e later isGone with expired | full
    · omega
    · omega
  · rw [inside]
    exact List.suffix_append ..

/-! ## The calls -/

/-- Nothing leaves the buffer while only the clock moves. -/
theorem Evicts.wait (evicts : Evicts calls s log gone) (call : CacheCall Bundle)
    (same : t.cache.entries = s.cache.entries) (settings : s.cache.SameSettings t.cache)
    (later : s.clock ≤ t.clock) : Evicts (calls ++ [call]) t log gone := by
  have last : t.cache.entries = s.cache.entries ++ [] := by rw [same, List.append_nil]
  have waited := evicts.drop call (List.nil_append _).symm last settings later
    (List.append_nil _).symm (fun _ absent => nomatch absent) fun _ absent => nomatch absent
  rwa [List.append_nil] at waited

/-- Expiry drops the stale entries at the front. -/
theorem Evicts.expire (evicts : Evicts calls s log gone) (call : CacheCall Bundle) {now : ℕ}
    (expired : t.cache.entries = s.cache.live now) (settings : s.cache.SameSettings t.cache)
    (later : s.clock ≤ now) (clock : t.clock = now) :
    Evicts (calls ++ [call]) t log
      (gone ++ s.cache.entries.takeWhile (stale s.cache.ttl now)) := by
  have last : t.cache.entries = s.cache.live now ++ [] := by rw [expired, List.append_nil]
  have whole := List.takeWhile_append_dropWhile (p := stale s.cache.ttl now) (l := s.cache.entries)
  apply evicts.drop call whole.symm last settings (clock ▸ later) (List.append_nil _).symm
    (fun _ absent => nomatch absent)
  intro e member
  rw [settings.ttl, clock]
  exact .inl (stale_front s.cache member)

/-- A lookup uses the bundle that it returns. -/
theorem Evicts.get (evicts : Evicts calls s log gone) (embedding : List Float32) {now : ℕ}
    (later : s.clock ≤ now) :
    ∃ gone', Evicts (calls ++ [.get embedding now]) ⟨(s.cache.get embedding now).1, now⟩
      (log ++ (s.cache.get embedding now).2.toList) gone' := by
  have settings := get_sameSettings s.cache embedding now
  rcases get_spec s.cache embedding now with
    ⟨miss, entries⟩ | ⟨_, before, entry, after, _, _, is, served, moved⟩
  · rw [miss, Option.toList_none, List.append_nil]
    rcases entries with same | expired
    · exact ⟨gone, evicts.wait _ same settings later⟩
    · exact ⟨_, evicts.expire _ expired settings later rfl⟩
  · have alive : Evicts (calls ++ [.get embedding now]) ⟨s.cache.expire now, now⟩ log _ :=
      evicts.expire _ rfl ⟨rfl, rfl, rfl, rfl⟩ later rfl
    rw [served]
    exact ⟨_, alive.hit is.split moved ⟨settings.dim, settings.capacity, settings.ttl,
      settings.hitThreshold⟩ le_rfl⟩

/-- An insertion evicts the front of a full buffer. -/
theorem Evicts.insert (evicts : Evicts calls s log gone) {embedding : List Float32}
    {bundle : Bundle} {now insertedAt : ℕ} (later : s.clock ≤ now) (next : now ≤ insertedAt)
    (fresh : bundle ∉ log) (accepted : embedding.length = s.cache.dim)
    {unit : List Float32} (normalised : unitNormalise embedding = some unit) :
    ∃ gone', Evicts (calls ++ [.insert embedding bundle now insertedAt])
      ⟨s.cache.insert embedding bundle now insertedAt, insertedAt⟩ (log ++ [bundle]) gone' := by
  have settings := insert_sameSettings s.cache embedding bundle now insertedAt
  have entries : (s.cache.insert embedding bundle now insertedAt).entries =
      evict s.cache.capacity (s.cache.live now) ++ [⟨unit, bundle, insertedAt⟩] := by
    rw [BundleCache.insert, if_neg (not_not_intro accepted)]
    simp only [normalised]
    rfl
  generalize counted : (s.cache.live now).length + 1 - s.cache.capacity = n
  have whole : s.cache.entries = s.cache.entries.takeWhile (stale s.cache.ttl now) ++
      (s.cache.live now).take n ++ (s.cache.live now).drop n := by
    rw [List.append_assoc, List.take_append_drop]
    exact List.takeWhile_append_dropWhile.symm
  rw [evict, counted] at entries
  refine ⟨_, evicts.drop _ whole entries settings (later.trans next) ?_ ?_ ?_⟩
  · rw [byLastUse_new fresh]
    rfl
  · intro e member
    rw [List.mem_singleton.mp member, settings.dim]
    exact ⟨embedding, now, ⟨accepted, Option.isSome_of_eq_some normalised⟩, by simp⟩
  · intro e member
    rw [settings.ttl, settings.capacity]
    rcases List.mem_append.mp member with expired | evicted
    · have old := stale_front s.cache expired
      left
      show s.cache.ttl < insertedAt - e.insertedAt
      omega
    · have some_ : 0 < n := by
        by_contra none_
        rw [show n = 0 by omega] at evicted
        exact absurd evicted List.not_mem_nil
      have length : (s.cache.insert embedding bundle now insertedAt).entries.length =
          (s.cache.live now).length - n + 1 := by
        rw [entries, List.length_append, List.length_drop, List.length_singleton]
      right
      show s.cache.capacity ≤ (s.cache.insert embedding bundle now insertedAt).entries.length
      omega

/-- A call leaves the entries in the order of their last use. -/
theorem Evicts.step {call : CacheCall Bundle} (evicts : Evicts calls s log gone)
    (next : call.Step s t)
    (apart : ((calls ++ [call]).filterMap (CacheCall.inserted s.cache.dim)).Nodup) :
    ∃ gone', Evicts (calls ++ [call]) t (call.record s log) gone' := by
  have settings := next.sameSettings
  obtain ⟨inOrder, isT⟩ := next
  subst isT
  cases call with
  | len now => exact ⟨_, evicts.expire _ rfl settings inOrder rfl⟩
  | invalidateAll =>
    exact ⟨[], rfl, (fun _ absent => nomatch absent), fun before e after absent => by
      simp at absent⟩
  | get embedding now => exact evicts.get embedding inOrder
  | insert embedding bundle now insertedAt =>
    by_cases accepted : IsKey s.cache.dim embedding
    · obtain ⟨unit, normalised⟩ := Option.isSome_iff_exists.mp accepted.2
      have fresh : bundle ∉ log := by
        intro used
        rw [← List.mem_dedup, ← byLastUse, evicts.order] at used
        obtain ⟨e, member, isBundle⟩ := List.mem_map.mp used
        obtain ⟨embedding', now', key, made⟩ := evicts.inserted e member
        have earlier : e.bundle ∈ calls.filterMap (CacheCall.inserted s.cache.dim) :=
          List.mem_filterMap.mpr ⟨_, made, if_pos key⟩
        have again : bundle ∈ [CacheCall.insert embedding bundle now insertedAt].filterMap
            (CacheCall.inserted s.cache.dim) :=
          List.mem_filterMap.mpr ⟨_, List.mem_singleton_self _, if_pos accepted⟩
        rw [List.filterMap_append] at apart
        exact List.disjoint_of_nodup_append apart (isBundle ▸ earlier) again
      rw [CacheCall.record, if_pos accepted]
      exact evicts.insert inOrder.1 inOrder.2 fresh accepted.1 normalised
    · have same := congrArg BundleCache.entries (insert_rejected bundle now insertedAt accepted)
      rw [CacheCall.record, if_neg accepted]
      exact ⟨gone, evicts.wait _ same settings (inOrder.1.trans inOrder.2)⟩

/-- In every run of a new cache, no bundle of which is inserted twice, the buffer is the end of
the bundles in the order of their last use, and a bundle within its lifetime has left it only if
as many as the buffer takes were used after it. -/
theorem cache_keeps_recent {capacity ttl time : ℕ} {hitThreshold : Float32}
    (run : Run CacheCall.Step ⟨withConfig dim capacity ttl hitThreshold, time⟩ calls s)
    (apart : (calls.filterMap (CacheCall.inserted dim)).Nodup) :
    KeepsRecent calls s (history ⟨withConfig dim capacity ttl hitThreshold, time⟩ calls).2 := by
  have ⟨_, same, ordered⟩ := run.labelled (fun s calls =>
    (history ⟨withConfig dim capacity ttl hitThreshold, time⟩ calls).1 = s ∧ s.cache.dim = dim ∧
      ((calls.filterMap (CacheCall.inserted dim)).Nodup → ∃ gone, Evicts calls s
        (history ⟨withConfig dim capacity ttl hitThreshold, time⟩ calls).2 gone)) ?_ ?_
  · obtain ⟨gone, evicts⟩ := ordered apart
    exact evicts.keepsRecent (same ▸ apart)
  · exact ⟨rfl, rfl, fun _ => ⟨[], rfl, (fun _ absent => nomatch absent),
      fun before e after absent => by simp at absent⟩⟩
  · intro s call t calls ⟨isS, same, ordered⟩ next
    rw [history_concat, isS]
    refine ⟨next.2.symm, next.sameSettings.dim.trans same, fun apart => ?_⟩
    have apart' := apart
    rw [List.filterMap_append] at apart'
    obtain ⟨gone, evicts⟩ := ordered (List.nodup_append.mp apart').1
    exact evicts.step next (same ▸ apart)

/-- A buffer of two: the bundle that was looked up stays, the other is evicted, and inserting it
again under a key of another dimension is rejected. -/
def crowdedCalls : List (CacheCall Nat) :=
  [.insert [1.0] 1 0 0, .insert [-1.0] 2 1 1, .get [1.0] 2, .insert [-1.0] 3 3 3,
    .insert [1.0, 0.0] 2 4 4]

/-- What the calls of the crowded buffer leave. -/
def crowdedClocked : ClockedCache Nat := crowdedCalls.foldl CacheCall.apply
  ⟨withConfig 1 2 10 0.98, 0⟩

/-- The calls of the crowded buffer are a run. -/
theorem crowdedCalls_run :
    Run CacheCall.Step ⟨withConfig 1 2 10 0.98, 0⟩ crowdedCalls crowdedClocked := by
  have none_ : Run CacheCall.Step ⟨withConfig 1 2 10 0.98, 0⟩ []
    (⟨withConfig 1 2 10 0.98, 0⟩ : ClockedCache Nat) := Run.nil
  have first := CacheCall.runs none_ (.insert [1.0] 1 0 0) (show 0 ≤ 0 ∧ 0 ≤ 0 by decide)
  have second := CacheCall.runs first (.insert [-1.0] 2 1 1) (show 0 ≤ 1 ∧ 1 ≤ 1 by decide)
  have third := CacheCall.runs second (.get [1.0] 2) (show 1 ≤ 2 by decide)
  have fourth := CacheCall.runs third (.insert [-1.0] 3 3 3) (show 2 ≤ 3 ∧ 3 ≤ 3 by decide)
  exact CacheCall.runs fourth (.insert [1.0, 0.0] 2 4 4) (show 3 ≤ 4 ∧ 4 ≤ 4 by decide)

/-- The first bundle was returned behind the insertion of the second, so it outlives it. -/
theorem cache_keeps_recent_sample :
    byLastUse (history ⟨withConfig 1 2 10 0.98, 0⟩ crowdedCalls).2 = [2, 1, 3] ∧
      crowdedClocked.cache.entries.map Entry.bundle = [1, 3] ∧
      KeepsRecent crowdedCalls crowdedClocked
        (history ⟨withConfig 1 2 10 0.98, 0⟩ crowdedCalls).2 := by
  have log : byLastUse (history ⟨withConfig 1 2 10 0.98, 0⟩ crowdedCalls).2 = [2, 1, 3] := by
    decide +kernel
  have buffer : crowdedClocked.cache.entries.map Entry.bundle = [1, 3] := by decide +kernel
  exact ⟨log, buffer, cache_keeps_recent crowdedCalls_run (by decide +kernel)⟩

end Hansa
