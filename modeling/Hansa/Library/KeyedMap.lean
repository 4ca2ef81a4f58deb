import Mathlib.Data.List.AList
import Mathlib.Data.List.Sort

/-!
# Finite maps whose records name their own key

A keyed map is a finite map in which every record is stored under the key it names. The
invariant is part of the value, so a listing of the records loses nothing: the records in
key order (`sorted`) determine the map and are determined by its lookups alone, whatever the
order of insertion was. `Lists` states this against any lookup function, so a listing can be
compared with an abstract map that is not itself a data structure.
-/

/-- A finite map from keys to records, each record under its own key. -/
structure KeyedMap {κ ρ : Type*} (key : ρ → κ) where
  /-- The stored records. -/
  entries : AList (fun _ : κ => ρ)
  /-- Every record is stored under its own key. -/
  keyed : ∀ entry ∈ entries.entries, key entry.2 = entry.1

namespace KeyedMap

variable {κ ρ : Type*} {key : ρ → κ}

/-- `records` lists a lookup function in strict key order. -/
structure Lists [LT κ] (key : ρ → κ) (lookup : κ → Option ρ) (records : List ρ) : Prop where
  /-- The keys increase strictly. -/
  increasing : records.Pairwise (fun a b => key a < key b)
  /-- The records are exactly those found under their own key. -/
  mem_iff : ∀ r, r ∈ records ↔ lookup (key r) = some r

/-- Two listings of one lookup function are equal. -/
theorem Lists.unique [Preorder κ] {lookup : κ → Option ρ} {records records' : List ρ}
    (first : Lists key lookup records) (second : Lists key lookup records') :
    records = records' := by
  have nodup : ∀ {l : List ρ}, l.Pairwise (fun a b => key a < key b) → l.Nodup := fun increasing =>
    increasing.imp (fun lt same => absurd (congrArg key same) lt.ne)
  refine List.Perm.eq_of_pairwise ?_ first.increasing
    second.increasing ?_
  · intro a b _ _ lt gt
    exact absurd gt lt.asymm
  · refine (List.perm_ext_iff_of_nodup (nodup first.increasing) (nodup second.increasing)).mpr ?_
    intro r
    rw [first.mem_iff, second.mem_iff]

/-- The map without records. -/
def empty : KeyedMap key := ⟨∅, by simp⟩

variable [DecidableEq κ]

/-- The record stored under a key. -/
def get? (m : KeyedMap key) (k : κ) : Option ρ := m.entries.lookup k

/-- A key is looked up to a record exactly when the map holds the record under it. -/
theorem get?_eq_some {m : KeyedMap key} {k : κ} {r : ρ} :
    m.get? k = some r ↔ (⟨k, r⟩ : Sigma fun _ : κ => ρ) ∈ m.entries.entries :=
  AList.mem_lookup_iff

/-- Store a record under its own key, in place of any record there. -/
def insert (m : KeyedMap key) (r : ρ) : KeyedMap key where
  entries := m.entries.insert (key r) r
  keyed := by
    intro entry member
    rw [AList.entries_insert, List.mem_cons] at member
    rcases member with rfl | member
    · rfl
    · exact m.keyed entry (List.kerase_sublist _ _ |>.subset member)

/-- Remove the record under a key. -/
def erase (m : KeyedMap key) (k : κ) : KeyedMap key where
  entries := m.entries.erase k
  keyed := fun entry member => m.keyed entry (List.kerase_sublist k _ |>.subset member)

/-- Store records one after another. -/
def insertAll (m : KeyedMap key) (records : List ρ) : KeyedMap key := records.foldl insert m

/-- The empty map holds nothing. -/
@[simp] theorem get?_empty (k : κ) : (empty : KeyedMap key).get? k = none := rfl

/-- An insertion changes the lookup of one key. -/
@[simp] theorem get?_insert (m : KeyedMap key) (r : ρ) :
    (m.insert r).get? = Function.update m.get? (key r) (some r) := by
  funext k
  by_cases same : k = key r
  · subst same
    simp [get?, insert]
  · simp [get?, insert, same, AList.lookup_insert_ne]

/-- A removal changes the lookup of one key. -/
@[simp] theorem get?_erase (m : KeyedMap key) (k : κ) :
    (m.erase k).get? = Function.update m.get? k none := by
  funext k'
  by_cases same : k' = k
  · subst same
    simp [get?, erase]
  · simp [get?, erase, same, AList.lookup_erase_ne]

/-- Storing a list finds its last record of each key, and what was there before elsewhere. -/
theorem get?_insertAll (m : KeyedMap key) (records : List ρ) :
    (m.insertAll records).get? =
      records.foldl (fun lookup r => Function.update lookup (key r) (some r)) m.get? := by
  induction records generalizing m with
  | nil => rfl
  | cons r records ih =>
    simp only [insertAll, List.foldl_cons] at ih ⊢
    rw [ih, get?_insert]

variable [LinearOrder κ]

/-- A list with strictly increasing keys, stored into the empty map, is found record by record. -/
theorem insertAll_finds {records : List ρ}
    (increasing : records.Pairwise (fun a b => key a < key b)) (r : ρ) (m : KeyedMap key)
    (fresh : ∀ a ∈ records, m.get? (key a) = none) (k : κ) :
    (m.insertAll records).get? k = some r ↔ m.get? k = some r ∨ r ∈ records ∧ key r = k := by
  induction records generalizing m with
  | nil => simp [insertAll]
  | cons a records ih =>
    obtain ⟨above, rest⟩ := List.pairwise_cons.mp increasing
    have later : ∀ b ∈ records, (m.insert a).get? (key b) = none := by
      intro b hb
      rw [get?_insert, Function.update_of_ne (above b hb).ne']
      exact fresh b (List.mem_cons_of_mem a hb)
    have step := ih rest (m.insert a) later
    simp only [insertAll, List.foldl_cons] at step ⊢
    rw [step, get?_insert]
    by_cases same : k = key a
    · subst same
      have none := fresh a List.mem_cons_self
      simp only [Function.update_self, Option.some.injEq, none, reduceCtorEq, false_or,
        List.mem_cons]
      constructor
      · rintro (rfl | ⟨hr, found⟩)
        · exact ⟨.inl rfl, rfl⟩
        · exact ⟨.inr hr, found⟩
      · rintro ⟨rfl | hr, found⟩
        · exact .inl rfl
        · exact absurd found (above r hr).ne'
    · rw [Function.update_of_ne same]
      constructor
      · rintro (found | ⟨hr, found⟩)
        · exact .inl found
        · exact .inr ⟨List.mem_cons_of_mem a hr, found⟩
      · rintro (found | ⟨hr, found⟩)
        · exact .inl found
        · rcases List.mem_cons.mp hr with rfl | hr
          · exact absurd found.symm same
          · exact .inr ⟨hr, found⟩

/-- The records in key order. -/
def sorted (m : KeyedMap key) : List ρ :=
  (m.entries.entries.map Sigma.snd).insertionSort (fun a b => key a ≤ key b)

/-- The sorted records list the lookups. -/
theorem sorted_lists (m : KeyedMap key) : Lists key m.get? m.sorted := by
  have total : Std.Total (fun a b : ρ => key a ≤ key b) := ⟨fun a b => le_total (key a) (key b)⟩
  have trans : IsTrans ρ (fun a b => key a ≤ key b) := ⟨fun _ _ _ => le_trans⟩
  have perm := List.perm_insertionSort (fun a b : ρ => key a ≤ key b)
    (m.entries.entries.map Sigma.snd)
  constructor
  · have ordered := List.pairwise_insertionSort (fun a b : ρ => key a ≤ key b)
      (m.entries.entries.map Sigma.snd)
    have distinct : m.sorted.Pairwise (fun a b => key a ≠ key b) := by
      refine (perm.pairwise_iff (fun different => different.symm)).mpr ?_
      rw [List.pairwise_map]
      have keys : m.entries.entries.Pairwise (fun a b => a.1 ≠ b.1) := by
        simpa [List.NodupKeys, List.keys, List.Nodup, List.pairwise_map] using m.entries.nodupKeys
      refine keys.imp_of_mem ?_
      intro a b ha hb different
      rwa [m.keyed a ha, m.keyed b hb]
    exact (ordered.and distinct).imp (fun both => lt_of_le_of_ne both.1 both.2)
  · intro r
    rw [get?_eq_some, sorted, perm.mem_iff, List.mem_map]
    constructor
    · rintro ⟨entry, member, rfl⟩
      rw [m.keyed entry member]
      exact member
    · exact fun member => ⟨⟨key r, r⟩, member, rfl⟩

/-- Reading a listing back into a map restores the lookups it lists. -/
theorem Lists.get?_insertAll {lookup : κ → Option ρ} {records : List ρ}
    (lists : Lists key lookup records) (keyed : ∀ k r, lookup k = some r → key r = k) :
    ((empty : KeyedMap key).insertAll records).get? = lookup := by
  funext k
  apply Option.ext
  intro r
  rw [insertAll_finds lists.increasing r empty (fun _ _ => rfl) k]
  simp only [get?_empty, reduceCtorEq, false_or, lists.mem_iff]
  constructor
  · rintro ⟨found, rfl⟩
    exact found
  · intro found
    obtain rfl := keyed k r found
    exact ⟨found, rfl⟩

end KeyedMap
