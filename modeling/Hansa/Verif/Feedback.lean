import Hansa.Verif.Attribution
import Hansa.Verif.ExactFactor
import Hansa.Verif.ManifestRace

/-!
# Feedback and the usefulness factor

A useful hit never lowers a peer's factor, whichever regime it is in before and after, because
the clock does not run backwards. Returns never raise it, with one exception: a peer that was
marked useful before it was ever counted as queried has the factor of the unknown, and its first
counted return takes it to the factor of the useful.
-/

namespace Hansa

open Exact (num)
open PeerManifest

/-! ## Bumps of one manifest -/

variable {e : ℝ → ℝ} {m : PeerManifest}

/-- A saturated sum is at least its first summand. -/
theorem le_saturatingAdd (x y : UInt64) : x.toNat ≤ (UInt64.saturatingAdd x y).toNat := by
  have below := x.toNat_lt
  rw [UInt64.saturatingAdd]
  by_cases fits : x.toNat + y.toNat < 2 ^ 64
  · rw [if_pos fits, UInt64.toNat_add, Nat.mod_eq_of_lt fits]
    exact Nat.le_add_right _ _
  · rw [if_neg fits, UInt64.toNat_ofNat']
    omega

/-- A counter that counted keeps counting. -/
theorem saturatingAdd_ne_zero {x : UInt64} (some_ : x ≠ 0) (y : UInt64) :
    UInt64.saturatingAdd x y ≠ 0 := by
  have least := le_saturatingAdd x y
  have positive := toNat_pos_iff.mpr some_
  exact toNat_pos_iff.mp (by omega)

/-- A useful hit does not lower the factor of a manifest that was last useful before it. -/
theorem realFactor_useful_mono (nonneg : ∀ x ≤ 0, 0 ≤ e x) (mono : MonotoneOn e (Set.Iic 0))
    {delta time : UInt64} (earlier : m.lastUsefulAt ≤ time) (now : UInt64) :
    realFactor e m now ≤ realFactor e ((Bump.useful delta time).apply m) now := by
  let after := (Bump.useful delta time).apply m
  have returns : after.totalHits = m.totalHits := rfl
  by_cases useless : m.usefulHits = 0
  · by_cases still : after.usefulHits = 0
    · -- Nothing was counted.
      rw [realFactor, realFactor, returns, if_pos useless, if_pos still]
    · exact (realFactor_le_one useless).trans (one_le_realFactor nonneg still)
  have useful : after.usefulHits ≠ 0 := saturatingAdd_ne_zero useless delta
  by_cases returned : m.totalHits = 0
  · rw [realFactor_neutral (.inl returned), realFactor_neutral (.inl (returns.trans returned))]
  · rw [realFactor_useful returned useless, realFactor_useful (returns ▸ returned) useful]
    have hits := le_saturatingAdd m.usefulHits delta
    have ages : now.toNat - time.toNat ≤ now.toNat - m.lastUsefulAt.toNat :=
      Nat.sub_le_sub_left (UInt64.le_iff_toNat_le.mp earlier) _
    apply usefulValue_mono (Nat.cast_nonneg _) (Nat.cast_le.mpr hits)
      (Nat.cast_pos.mpr (toNat_pos_iff.mpr returned)) le_rfl (nonneg _ (age_nonpos _))
    apply mono (age_nonpos _) (age_nonpos _)
    exact div_le_div_of_nonneg_right (neg_le_neg (Nat.cast_le.mpr ages)) (by norm_num)

/-- A return does not raise the factor, except that of a useful peer without a return. -/
theorem realFactor_total_anti (nonneg : ∀ x ≤ 0, 0 ≤ e x) (delta now : UInt64)
    (seen : ¬ (m.totalHits = 0 ∧ m.usefulHits ≠ 0)) :
    realFactor e ((Bump.total delta).apply m) now ≤ realFactor e m now := by
  let after := (Bump.total delta).apply m
  have hits : after.usefulHits = m.usefulHits := rfl
  have returns := le_saturatingAdd m.totalHits delta
  rcases regimes m with neutral | cold | ⟨returned, useful⟩
  · have useless : m.usefulHits = 0 := by
      rcases neutral with unknown | ⟨useless, _⟩
      · exact not_not.mp fun useful => seen ⟨unknown, useful⟩
      · exact useless
    rw [realFactor_neutral neutral]
    exact realFactor_le_one (hits.trans useless)
  · obtain ⟨useless, judged⟩ := isCold_iff.mp cold
    have past : trialReturns ≤ after.totalHits :=
      UInt64.le_trans judged (UInt64.le_iff_toNat_le.mpr returns)
    have colder : after.isCold = true := isCold_iff.mpr ⟨hits.trans useless, past⟩
    rw [realFactor_cold cold, realFactor_cold colder]
    exact coldValue_anti (Nat.cast_le.mpr (Nat.sub_le_sub_right returns 20))
  · have still : after.totalHits ≠ 0 := saturatingAdd_ne_zero returned delta
    rw [realFactor_useful returned useful, realFactor_useful still useful]
    exact usefulValue_mono (Nat.cast_nonneg _) le_rfl
      (Nat.cast_pos.mpr (toNat_pos_iff.mpr returned)) (Nat.cast_le.mpr returns)
      (nonneg _ (age_nonpos _)) le_rfl

/-! ## Feedback over time -/

/-- A call that feeds back on a peer, at a time of the clock. -/
inductive Feedback where
  /-- `bump_total`. -/
  | total (peer : TenantId) (delta now : UInt64)
  /-- `bump_useful`. -/
  | useful (peer : TenantId) (delta now : UInt64)

/-- The time of a call. -/
def Feedback.now : Feedback → UInt64
  | total _ _ now => now
  | useful _ _ now => now

/-- What a call does to the manifests. -/
def Feedback.apply (store : ManifestStore) : Feedback → ManifestStore
  | total peer delta _ => store.bumpTotal peer delta
  | useful peer delta now => store.bumpUseful peer delta now

/-- Manifests and the time of the last call, before and after another one. -/
def FedBack (s : ManifestStore × UInt64) (call : Feedback) (t : ManifestStore × UInt64) : Prop :=
  s.2 ≤ call.now ∧ t = (call.apply s.1, call.now)

/-- No manifest was useful after the time, and each is its peer's own. -/
structure Timely (s : ManifestStore × UInt64) : Prop where
  /-- A manifest is kept in the file of its peer. -/
  coherent : s.1.Coherent
  /-- The last useful hits are in the past. -/
  past : ∀ peer, (s.1.read peer).lastUsefulAt ≤ s.2

/-- A call keeps the last useful hits in the past. -/
theorem Timely.fedBack {s t : ManifestStore × UInt64} {call : Feedback} (timely : Timely s)
    (next : FedBack s call t) : Timely t := by
  obtain ⟨ordered, rfl⟩ := next
  have earlier : ∀ peer, (s.1.read peer).lastUsefulAt ≤ call.now :=
    fun peer => UInt64.le_trans (timely.past peer) ordered
  -- Only the manifest that is written changes, and it keeps its own last hit or has a new one.
  have written : ∀ (peer : TenantId) (m : PeerManifest), m.peerId = (s.1.read peer).peerId →
      m.lastUsefulAt ≤ call.now → Timely (s.1.write m, call.now) := by
    intro peer m own past
    refine ⟨timely.coherent.write m, fun other => ?_⟩
    by_cases same : other = peer
    · subst same
      have held : (s.1.write m).read other = m := by
        rw [ManifestStore.write, own, timely.coherent.read, ManifestStore.read,
          Function.update_self, Option.getD_some]
      rw [held]
      exact past
    · have kept : (s.1.write m).read other = s.1.read other := by
        rw [ManifestStore.read, timely.coherent.write_other own same]
        rfl
      rw [kept]
      exact earlier other
  cases call with
  | total peer delta now => exact written peer _ rfl (earlier peer)
  | useful peer delta now => exact written peer _ rfl (UInt64.le_refl _)

/-- Calls from no manifests on keep the last useful hits in the past. -/
theorem Timely.run {calls : List Feedback} {s : ManifestStore × UInt64}
    (run : Run FedBack (fun _ => none, 0) calls s) : Timely s := by
  apply run.invariant Timely _ fun s call t timely next => timely.fedBack next
  exact ⟨fun _ _ held => (Option.some_ne_none _ held.symm).elim, fun _ => UInt64.le_refl _⟩

/-- Whether one factor is at most another, over the true numbers of both. -/
theorem le_factorWith {m' : PeerManifest} {now : UInt64} :
    FloatLike.le (factorWith e m now) (factorWith e m' now) = true ↔
      realFactor e m now ≤ realFactor e m' now := by
  rw [factorWith_eq, factorWith_eq, le_num]

/-- Whatever feedback was given before, a useful hit does not lower a peer's factor. A return
does not raise it either, except that it does not lower that of a peer which was useful without
a counted return. -/
theorem feedback_moves_factor (nonneg : ∀ x ≤ 0, 0 ≤ e x) (mono : MonotoneOn e (Set.Iic 0))
    {calls : List Feedback} {store : ManifestStore} {clock : UInt64}
    (run : Run FedBack (fun _ => none, 0) calls (store, clock)) {time : UInt64}
    (later : clock ≤ time) (peer : TenantId) (delta now : UInt64) :
    FloatLike.le (factorWith e (store.read peer) now)
        (factorWith e ((store.bumpUseful peer delta time).read peer) now) = true ∧
      if (store.read peer).totalHits = 0 ∧ (store.read peer).usefulHits ≠ 0 then
        FloatLike.le (factorWith e (store.read peer) now)
          (factorWith e ((store.bumpTotal peer delta).read peer) now) = true
      else
        FloatLike.le (factorWith e ((store.bumpTotal peer delta).read peer) now)
          (factorWith e (store.read peer) now) = true := by
  have timely := Timely.run run
  have earlier : (store.read peer).lastUsefulAt ≤ time :=
    UInt64.le_trans (timely.past peer) later
  obtain ⟨total, useful⟩ := read_bump_store store (timely.coherent.read peer) delta time
  rw [total, useful]
  refine ⟨le_factorWith.mpr (realFactor_useful_mono nonneg mono earlier now), ?_⟩
  by_cases unseen : (store.read peer).totalHits = 0 ∧ (store.read peer).usefulHits ≠ 0
  · rw [if_pos unseen, le_factorWith, realFactor_neutral (.inl unseen.1)]
    have hits : ((Bump.total delta).apply (store.read peer)).usefulHits ≠ 0 := unseen.2
    exact one_le_realFactor nonneg hits
  · rw [if_neg unseen, le_factorWith]
    exact realFactor_total_anti nonneg delta now unseen

/-- One peer, returned four times and marked useful once. -/
def markedStore : ManifestStore :=
  ManifestStore.bumpUseful (ManifestStore.bumpTotal (fun _ => none) (countedPeer 0 0).peerId 4)
    (countedPeer 0 0).peerId 1 100

/-- It is reached by these calls. -/
theorem run_markedStore : Run FedBack (fun _ => none, 0)
    [.total (countedPeer 0 0).peerId 4 50, .useful (countedPeer 0 0).peerId 1 100]
    (markedStore, 100) :=
  (Run.nil.concat ⟨by decide, rfl⟩).concat ⟨by decide, rfl⟩

/-- A second useful hit does not lower its factor, and another return does not raise it. -/
theorem feedback_moves_factor_sample :
    FloatLike.le (factorWith Real.exp (markedStore.read (countedPeer 0 0).peerId) 300)
        (factorWith Real.exp ((markedStore.bumpUseful (countedPeer 0 0).peerId 1 200).read
          (countedPeer 0 0).peerId) 300) = true ∧
      FloatLike.le (factorWith Real.exp ((markedStore.bumpTotal (countedPeer 0 0).peerId 1).read
          (countedPeer 0 0).peerId) 300)
        (factorWith Real.exp (markedStore.read (countedPeer 0 0).peerId) 300) = true := by
  have counted : ¬ ((markedStore.read (countedPeer 0 0).peerId).totalHits = 0 ∧
      (markedStore.read (countedPeer 0 0).peerId).usefulHits ≠ 0) := by decide
  have moves := feedback_moves_factor (fun x _ => (Real.exp_pos x).le)
    (Real.exp_strictMono.monotone.monotoneOn _) run_markedStore
    (show (100 : UInt64) ≤ 200 by decide) (countedPeer 0 0).peerId 1 300
  rwa [if_neg counted] at moves

/-- One peer, marked useful before it was ever counted as queried. -/
def markedFirst : ManifestStore :=
  ManifestStore.bumpUseful (fun _ => none) (countedPeer 0 0).peerId 1 100

/-- The call that marks it. -/
def markFirst : Feedback := .useful (countedPeer 0 0).peerId 1 100

/-- It is reached by that call. -/
theorem run_markedFirst : Run FedBack (fun _ => none, 0) [markFirst] (markedFirst, 100) :=
  Run.nil.concat ⟨by decide, rfl⟩

/-- A return after a useful hit, with none before, takes the factor from one to three halves. -/
theorem return_raises_factor :
    Run FedBack (fun _ => none, 0) [markFirst] (markedFirst, 100) ∧
      FloatLike.lt (factorWith Real.exp (markedFirst.read (countedPeer 0 0).peerId) 100)
        (factorWith Real.exp ((markedFirst.bumpTotal (countedPeer 0 0).peerId 1).read
          (countedPeer 0 0).peerId) 100) = true := by
  refine ⟨run_markedFirst, ?_⟩
  have before : markedFirst.read (countedPeer 0 0).peerId =
      ⟨(countedPeer 0 0).peerId, 1, 0, 100⟩ := by decide
  have after : (markedFirst.bumpTotal (countedPeer 0 0).peerId 1).read (countedPeer 0 0).peerId =
      ⟨(countedPeer 0 0).peerId, 1, 1, 100⟩ := by decide
  have unknown : realFactor Real.exp ⟨(countedPeer 0 0).peerId, 1, 0, 100⟩ 100 = 1 :=
    realFactor_neutral (.inl rfl)
  have useful : realFactor Real.exp ⟨(countedPeer 0 0).peerId, 1, 1, 100⟩ 100 = 1 + 0.5 := by
    have ratio : ((1 : UInt64).toNat : ℝ) = 1 := Nat.cast_one
    have age : (((100 : UInt64).toNat - (100 : UInt64).toNat : Nat) : ℝ) = 0 := Nat.cast_zero
    rw [realFactor_useful (by decide) (by decide), usefulValue, ratio, age, neg_zero, zero_div,
      Real.exp_zero]
    norm_num
  rw [before, after, factorWith_eq, factorWith_eq, lt_num, unknown, useful]
  norm_num

end Hansa
