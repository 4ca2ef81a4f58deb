import Hansa.Library.ReplacedFile
import Hansa.Verif.HeadFile

/-!
# Calls that record heads at the same time

`check_and_record` reads the cached head, compares, and replaces the file without a lock, so a
call can compare with a head that is no longer the cached one. When no call opens the temporary
file while another holds it, and a call renames only while the cache file is the one it read, the
cached head only moves forward.
-/

namespace Hansa

open ReplacedFile

variable {ι : Type*} {cache : HeadCache} {hansa : HansaId} {calls : ι → UInt64 × Bytes 32}

/-- The content that a call of `check_and_record` writes, by the head it was called with. -/
def recordUpdate (cache : HeadCache) (hansa : HansaId) (calls : ι → UInt64 × Bytes 32) (call : ι) :
    Update UInt8 Fault :=
  cache.checkAndRecord hansa (calls call).1 (calls call).2

/-- The sequence number in the cache, if there is one. -/
def cachedSeq (cache : HeadCache) (hansa : HansaId) (file : Option (List UInt8)) : Option UInt64 :=
  match cache.load hansa file with
  | .ok (some head) => some head.1
  | .ok none | .error _ => none

/-- The cache moved forward from one state to a later one. -/
structure Forward (cache : HeadCache) (hansa : HansaId) (calls : ι → UInt64 × Bytes 32)
    (s t : State ι UInt8) : Prop where
  /-- The cached number did not decrease. -/
  cached : ∀ seq ∈ cachedSeq cache hansa s.disk.read,
    ∃ seq' ∈ cachedSeq cache hansa t.disk.read, seq ≤ seq'
  /-- A call that succeeded since has no number below one that was recorded already. -/
  recorded : ∀ call, t.phase call = .succeeded → s.phase call ≠ .succeeded →
    ∀ earlier, s.phase earlier = .succeeded → (calls earlier).1 ≤ (calls call).1

/-- A stored head is the cached one. -/
theorem cachedSeq_store (cache : HeadCache) (hansa : HansaId) (seq : UInt64) (hash : Bytes 32) :
    cachedSeq cache hansa (some (HeadCache.store seq hash)) = some seq := by
  rw [cachedSeq, HeadCache.load_store]

/-- A check that passes finds no larger number. -/
theorem cachedSeq_le {seq : UInt64} {hash : Bytes 32} {file : Option (List UInt8)}
    {stored : List UInt8} (passes : cache.checkAndRecord hansa seq hash file = .ok stored) :
    ∀ seq' ∈ cachedSeq cache hansa file, seq' ≤ seq := by
  intro seq' cached
  obtain ⟨head, loaded, -, forward⟩ := HeadCache.checkAndRecord_eq_ok.mp passes
  rw [cachedSeq, loaded] at cached
  cases head with
  | none => cases cached
  | some head =>
    obtain rfl := Option.some.inj cached
    rcases forward head rfl with above | ⟨same, -⟩
    · exact UInt64.le_of_lt above
    · exact same ▸ UInt64.le_refl _

/-- A call that takes effect replaces the cached number by its own, which is not smaller. -/
theorem cachedSeq_atomic {before after : Option (List UInt8)} {call : ι}
    (atomic : Atomic (recordUpdate cache hansa calls) before call after) :
    cachedSeq cache hansa after = some (calls call).1 ∧
      ∀ seq ∈ cachedSeq cache hansa before, seq ≤ (calls call).1 := by
  obtain ⟨new, passes, rfl⟩ := atomic
  refine ⟨?_, cachedSeq_le passes⟩
  rw [HeadCache.eq_store_of_checkAndRecord passes]
  exact cachedSeq_store cache hansa _ _

variable [DecidableEq ι] {start mid last : State ι UInt8} {actions more : List (Action ι)}

/-- In an unraced run no recorded head is above the cached one. -/
theorem recorded_le_cached (starts : start.Start)
    (run : UnracedRun (recordUpdate cache hansa calls) start actions mid) :
    ∀ call, mid.phase call = .succeeded →
      ∃ seq ∈ cachedSeq cache hansa mid.disk.read, (calls call).1 ≤ seq := by
  induction run with
  | nil =>
    intro call succeeded
    cases (starts.idle call).symm.trans succeeded
  | concat before step ih =>
    intro call succeeded
    cases step.effect (orderly_of_run starts before) with
    | none same unchanged =>
      rw [same]
      exact ih call ((unchanged call).mp succeeded)
    | one atomic new grown =>
      obtain ⟨cached, above⟩ := cachedSeq_atomic atomic
      refine ⟨_, cached, ?_⟩
      rcases (grown call).mp succeeded with earlier | rfl
      · obtain ⟨seq, was, below⟩ := ih call earlier
        exact UInt64.le_trans below (above seq was)
      · exact UInt64.le_refl _

/-- Between any two states of an unraced run the cache moves forward. -/
theorem forward_of_unraced (starts : start.Start)
    (run : UnracedRun (recordUpdate cache hansa calls) start actions mid)
    (later : UnracedRun (recordUpdate cache hansa calls) mid more last) :
    Forward cache hansa calls mid last := by
  induction later with
  | nil => exact ⟨fun seq cached => ⟨seq, cached, UInt64.le_refl _⟩,
      fun call after before => absurd after before⟩
  | @concat labels label s t before step ih =>
    have orderly : Orderly s := before.invariant Orderly (orderly_of_run starts run)
      fun _ _ _ orderly step => step.orderly orderly
    cases step.effect orderly with
    | none same unchanged =>
      refine ⟨same ▸ ih.cached, fun call after => ih.recorded call ((unchanged call).mp after)⟩
    | @one moved atomic new grown =>
      obtain ⟨cached, above⟩ := cachedSeq_atomic atomic
      constructor
      · intro seq was
        obtain ⟨seq', between, forward⟩ := ih.cached seq was
        exact ⟨_, cached, UInt64.le_trans forward (above seq' between)⟩
      · intro call after unfinished earlier recorded
        rcases (grown call).mp after with already | rfl
        · exact ih.recorded call already unfinished earlier recorded
        · obtain ⟨seq, was, below⟩ := recorded_le_cached starts run earlier recorded
          obtain ⟨seq', between, forward⟩ := ih.cached seq was
          exact UInt64.le_trans below (UInt64.le_trans forward (above seq' between))

/-- In a run by a schedule in which no call opens the temporary file while another holds it, or
renames after another has replaced the file that it read, the cache moves forward between any two
states. -/
theorem head_moves_forward (starts : start.Start)
    (run : Run (Step (recordUpdate cache hansa calls)) start actions mid)
    (later : Run (Step (recordUpdate cache hansa calls)) mid more last)
    (scheduled : Scheduled (actions ++ more)) : Forward cache hansa calls mid last := by
  obtain ⟨first, second⟩ := unraced_append starts run later scheduled
  exact forward_of_unraced starts first second

/-! ## Two calls -/

/-- Two calls, the first with the later head. -/
def twoHeads (call : Bool) : UInt64 × Bytes 32 := (if call then 5 else 3, Vector.replicate 32 0)

/-- What they write. -/
def twoUpdates : Bool → Update UInt8 Fault := recordUpdate ⟨⟨[]⟩⟩ ⟨Vector.replicate 32 0⟩ twoHeads

/-- Without a cached head each of them passes. -/
theorem twoUpdates_none (call : Bool) :
    twoUpdates call none = .ok (HeadCache.store (twoHeads call).1 (twoHeads call).2) := rfl

/-- The call with three and then the call with five record their heads, in turn. -/
theorem head_moves_forward_in_turn : ∃ mid last : State Bool UInt8,
    mid.phase false = .succeeded ∧ last.phase true = .succeeded ∧
    cachedSeq ⟨⟨[]⟩⟩ ⟨Vector.replicate 32 0⟩ mid.disk.read = some 3 ∧
    cachedSeq ⟨⟨[]⟩⟩ ⟨Vector.replicate 32 0⟩ last.disk.read = some 5 ∧
    Forward ⟨⟨[]⟩⟩ ⟨Vector.replicate 32 0⟩ twoHeads mid last := by
  have passes : twoUpdates true (some (HeadCache.store 3 (twoHeads false).2)) =
      .ok (HeadCache.store 5 (twoHeads true).2) :=
    HeadCache.checkAndRecord_store.mpr ⟨rfl, .inl (by decide)⟩
  obtain ⟨actions, more, mid, last, run, later, scheduled, held, succeeded, held', succeeded', -⟩ :=
    exists_in_turn (by decide) (twoUpdates_none false) passes
  refine ⟨mid, last, succeeded, succeeded', ?_, ?_, head_moves_forward State.start_empty
    (run.mono fun _ _ _ step => step.2) (later.mono fun _ _ _ step => step.2) scheduled⟩
  · rw [held]
    exact cachedSeq_store _ _ 3 _
  · rw [held']
    exact cachedSeq_store _ _ 5 _

/-- Two calls that both read before either writes: the cached number goes back from five to
three, and the call with three succeeds after five was recorded. -/
theorem overlapping_calls_regress : ∃ actions more mid last,
    Run (Step twoUpdates) (State.empty Bool UInt8) actions mid ∧
    Run (Step twoUpdates) mid more last ∧
    mid.phase true = .succeeded ∧ mid.phase false ≠ .succeeded ∧ last.phase false = .succeeded ∧
    cachedSeq ⟨⟨[]⟩⟩ ⟨Vector.replicate 32 0⟩ mid.disk.read = some 5 ∧
    cachedSeq ⟨⟨[]⟩⟩ ⟨Vector.replicate 32 0⟩ last.disk.read = some 3 := by
  obtain ⟨actions, more, mid, last, run, later, held, succeeded, unfinished, held', succeeded',
    -⟩ :=
    exists_overlap (by decide) (twoUpdates_none true) (twoUpdates_none false)
  refine ⟨actions, more, mid, last, run, later, succeeded, unfinished, succeeded', ?_, ?_⟩
  · rw [held]
    exact cachedSeq_store _ _ 5 _
  · rw [held']
    exact cachedSeq_store _ _ 3 _

end Hansa
