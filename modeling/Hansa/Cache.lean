import Hansa.Float

/-!
# The bundle cache

A small buffer of context bundles keyed by query embeddings. Entries stand in the order in
which they are to be evicted, oldest first; a lookup moves the entry it finds to the back.
Stale entries are dropped from the front before every operation. An `Instant` is the number of
nanoseconds a monotonic clock shows; a bundle is only cloned, so its type is a parameter.
-/

namespace Hansa

/-- `Entry`: one cached bundle. -/
structure Entry (Bundle : Type) where
  /-- The query embedding that produced the bundle, at unit length. -/
  centreUnit : List Float32
  /-- The bundle to return. -/
  bundle : Bundle
  /-- The time of the insertion. -/
  insertedAt : Nat
  deriving DecidableEq

/-- `BundleCache`: the buffer never holds more than its capacity. -/
structure BundleCache (Bundle : Type) where
  /-- Length of the embeddings that are accepted. -/
  dim : Nat
  /-- Number of distinct queries held. -/
  capacity : Nat
  /-- How long an entry may be served. -/
  ttl : Nat
  /-- Least cosine of a hit. -/
  hitThreshold : Float32
  /-- The entries, next eviction first. -/
  entries : List (Entry Bundle)
  /-- There is room for one entry at least. -/
  nonzero : 0 < capacity
  /-- The buffer is within its capacity. -/
  bounded : entries.length ≤ capacity

/-- `unit_normalise`: none for the zero vector and where the norm is not finite. -/
def unitNormalise (v : List Float32) : Option (List Float32) :=
  let norm := (v.foldl (fun norm x => norm + x * x) 0.0).sqrt
  if !norm.isFinite || norm == 0.0 then none else some (v.map (· / norm))

/-- `dot`. -/
def dot (a b : List Float32) : Float32 := FloatLike.sum (List.zipWith (· * ·) a b)

namespace BundleCache

variable {Bundle : Type}

/-- `BundleCache::DEFAULT_TTL`. -/
def defaultTtl : Nat := 60 * 1000000000

/-- `BundleCache::DEFAULT_CAPACITY`. -/
def defaultCapacity : Nat := 16

/-- `BundleCache::DEFAULT_HIT_THRESHOLD`. -/
def defaultHitThreshold : Float32 := 0.98

/-- `BundleCache::with_config`. -/
def withConfig (dim capacity ttl : Nat) (hitThreshold : Float32) : BundleCache Bundle where
  dim := dim
  capacity := max capacity 1
  ttl := ttl
  hitThreshold := hitThreshold
  entries := []
  nonzero := by omega
  bounded := Nat.zero_le _

/-- `BundleCache::new`. -/
def new (dim : Nat) : BundleCache Bundle :=
  withConfig dim defaultCapacity defaultTtl defaultHitThreshold

variable (cache : BundleCache Bundle)

/-- `now.duration_since(entry.inserted_at) > ttl`; a difference below zero counts as zero. -/
def stale (ttl : Nat) (now : Nat) (entry : Entry Bundle) : Bool :=
  ttl < now - entry.insertedAt

/-- The entries that `expire` leaves: it stops at the first that is not stale. -/
def live (now : Nat) : List (Entry Bundle) := cache.entries.dropWhile (stale cache.ttl now)

/-- Expiry only drops entries. -/
theorem live_length_le (now : Nat) : (cache.live now).length ≤ cache.capacity :=
  (List.dropWhile_sublist _).length_le.trans cache.bounded

/-- `expire`. -/
def expire (now : Nat) : BundleCache Bundle :=
  { cache with entries := cache.live now, bounded := cache.live_length_le now }

/-- `BundleCache::len`. -/
def len (now : Nat) : BundleCache Bundle × Nat :=
  (cache.expire now, (cache.expire now).entries.length)

/-- One turn of the scan in `get`: a better score past the threshold takes the lead. -/
def better (threshold : Float32) (unit : List Float32) (best : Option (Nat × Float32))
    (candidate : Entry Bundle × Nat) : Option (Nat × Float32) :=
  let score := dot unit candidate.1.centreUnit
  if threshold ≤ score ∧ best.all (fun lead => lead.2 < score) then some (candidate.2, score)
  else best

/-- The scan in `get`: index and score of the entry that is hit. -/
def scan (threshold : Float32) (unit : List Float32) (entries : List (Entry Bundle)) :
    Option (Nat × Float32) :=
  entries.zipIdx.foldl (better threshold unit) none

/-- `entries.remove(idx)` and `entries.push_back` keep the number of entries. -/
theorem moved_length_le {entries : List (Entry Bundle)} {capacity idx : Nat} {entry : Entry Bundle}
    (room : entries.length ≤ capacity) (found : entries[idx]? = some entry) :
    (entries.eraseIdx idx ++ [entry]).length ≤ capacity := by
  obtain ⟨inside, _⟩ := List.getElem?_eq_some_iff.mp found
  rw [List.length_append, List.length_eraseIdx_of_lt inside, List.length_singleton]
  omega

/-- The end of `get`: the entry that is hit moves to the back. -/
def touch (idx : Nat) : BundleCache Bundle × Option Bundle :=
  match found : cache.entries[idx]? with
  | none => (cache, none)
  | some entry =>
    ({ cache with
        entries := cache.entries.eraseIdx idx ++ [entry]
        bounded := moved_length_le cache.bounded found }, some entry.bundle)

/-- `BundleCache::get`. -/
def get (embedding : List Float32) (now : Nat) : BundleCache Bundle × Option Bundle :=
  if embedding.length ≠ cache.dim then (cache, none)
  else match unitNormalise embedding with
    | none => (cache, none)
    | some unit =>
      match scan cache.hitThreshold unit (cache.expire now).entries with
      | none => (cache.expire now, none)
      | some (idx, _) => (cache.expire now).touch idx

/-- The entries after `while entries.len() >= capacity { entries.pop_front() }`. -/
def evict (capacity : Nat) (entries : List (Entry Bundle)) : List (Entry Bundle) :=
  entries.drop (entries.length + 1 - capacity)

/-- Eviction makes room for one entry. -/
theorem evict_length_lt {entries : List (Entry Bundle)} {capacity : Nat} (nonzero : 0 < capacity)
    (entry : Entry Bundle) : (evict capacity entries ++ [entry]).length ≤ capacity := by
  rw [evict, List.length_append, List.length_drop, List.length_singleton]
  omega

/-- `BundleCache::insert`: the clock is read at expiry, and again for the new entry. -/
def insert (embedding : List Float32) (bundle : Bundle) (now insertedAt : Nat) :
    BundleCache Bundle :=
  if embedding.length ≠ cache.dim then cache
  else match unitNormalise embedding with
    | none => cache
    | some unit =>
      let cache := cache.expire now
      { cache with
        entries := evict cache.capacity cache.entries ++ [⟨unit, bundle, insertedAt⟩]
        bounded := evict_length_lt cache.nonzero _ }

/-- `BundleCache::invalidate_all`. -/
def invalidateAll : BundleCache Bundle := { cache with entries := [], bounded := Nat.zero_le _ }

end BundleCache

end Hansa
