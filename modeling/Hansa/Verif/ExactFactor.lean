import Hansa.Manifest
import Hansa.Verif.ExactArithmetic

/-!
# The regimes of the usefulness factor

Over exact numbers the factor of a manifest is a real number, given by one expression for each
regime. The exponential is left open: all that matters of it is what it makes of a number that
is not positive. A peer is cold from its twentieth return on, while the factor falls below one
only from its twenty-first.
-/

namespace Hansa

open Exact (num)
open PeerManifest

/-- The exponential, with a function of our choice on the real numbers. -/
noncomputable def expWith (e : ℝ → ℝ) : Exact → Exact
  | .num x => num (e x)
  | .infinite true => num 0
  | .infinite false => .infinite false
  | .nan => .nan

/-- Exact numbers with that exponential. -/
noncomputable abbrev exactWith (e : ℝ → ℝ) : FloatLike Exact :=
  { (inferInstance : FloatLike Exact) with exp := expWith e }

/-- The usefulness factor over these numbers. -/
noncomputable def factorWith (e : ℝ → ℝ) (m : PeerManifest) (now : UInt64) : Exact :=
  @usefulnessFactor Exact (exactWith e) m now

/-- The value of a cold peer's factor, by the returns past its trial. -/
noncomputable def coldValue (excess : ℝ) : ℝ := 1 - 0.8 * min (excess / 20) 1

/-- The value of a useful peer's factor, by its hits and the age of the last one. -/
noncomputable def usefulValue (e : ℝ → ℝ) (useful total age : ℝ) : ℝ :=
  1 + min (useful / total * e (-age / 86400)) 0.5

/-- The value of the factor. -/
noncomputable def realFactor (e : ℝ → ℝ) (m : PeerManifest) (now : UInt64) : ℝ :=
  if m.totalHits = 0 then 1
  else if m.usefulHits = 0 then
    if m.totalHits < trialReturns then 1 else coldValue (m.totalHits.toNat - 20 : Nat)
  else
    usefulValue e m.usefulHits.toNat m.totalHits.toNat (now.toNat - m.lastUsefulAt.toNat : Nat)

variable {e : ℝ → ℝ} {m : PeerManifest} {now : UInt64}

/-- The length of a trial, as a number. -/
theorem cast_trialReturns : (PeerManifest.cast trialReturns : Exact) = num 20 :=
  congrArg num (Nat.cast_ofNat (n := 20))

/-- Whether a peer was ever queried. -/
theorem toNat_pos_iff {n : UInt64} : 0 < n.toNat ↔ n ≠ 0 := by
  rw [Nat.pos_iff_ne_zero, ne_eq, ne_eq, ← UInt64.toNat_inj]
  rfl

/-- A factor is a real number, given by its regime. -/
theorem factorWith_eq (e : ℝ → ℝ) (m : PeerManifest) (now : UInt64) :
    factorWith e m now = num (realFactor e m now) := by
  unfold factorWith usefulnessFactor realFactor
  by_cases returned : m.totalHits = 0
  · rw [if_pos returned, if_pos returned]
    exact Exact.literal_one
  rw [if_neg returned, if_neg returned]
  by_cases useful : m.usefulHits = 0
  · rw [if_pos useful, if_pos useful]
    by_cases trial : m.totalHits < trialReturns
    · rw [if_pos trial, if_pos trial]
      exact Exact.literal_one
    rw [if_neg trial, if_neg trial]
    have past : trialReturns ≤ m.totalHits := UInt64.not_lt.mp trial
    have excess : (m.totalHits - trialReturns).toNat = m.totalHits.toNat - 20 :=
      UInt64.toNat_sub_of_le _ _ past
    show (1.0 : Exact) - num 0.8 * FloatLike.min
      (num (m.totalHits - trialReturns).toNat / PeerManifest.cast trialReturns) 1.0 = _
    rw [excess, cast_trialReturns, Exact.literal_one, Exact.num_div (by norm_num), min_num,
      Exact.num_mul, Exact.num_sub]
    rfl
  · rw [if_neg useful, if_neg useful]
    have some_ : (m.totalHits.toNat : ℝ) ≠ 0 :=
      Nat.cast_ne_zero.mpr (toNat_pos_iff.mpr returned).ne'
    have age : (UInt64.ofNat (now.toNat - m.lastUsefulAt.toNat)).toNat =
        now.toNat - m.lastUsefulAt.toNat := by
      apply UInt64.toNat_ofNat_of_lt'
      exact (Nat.sub_le _ _).trans_lt now.toNat_lt
    show (1.0 : Exact) + FloatLike.min (num m.usefulHits.toNat / num m.totalHits.toNat *
      expWith e (-num (UInt64.ofNat (now.toNat - m.lastUsefulAt.toNat)).toNat / num 86400.0))
      (num 0.5) = _
    have halfLife : num 86400.0 = num 86400 := congrArg num (by norm_num)
    rw [age, halfLife, Exact.num_div some_, Exact.num_neg, Exact.num_div (by norm_num), expWith,
      Exact.num_mul, min_num, Exact.literal_one, Exact.num_add]
    rfl

/-- With the true exponential it is the factor of the program over exact numbers. -/
theorem usefulnessFactor_eq (m : PeerManifest) (now : UInt64) :
    m.usefulnessFactor (F := Exact) now = num (realFactor Real.exp m now) :=
  factorWith_eq Real.exp m now

/-! ## Regimes -/

/-- Who is cold. -/
theorem isCold_iff : m.isCold = true ↔ m.usefulHits = 0 ∧ trialReturns ≤ m.totalHits := by
  rw [isCold, Bool.and_eq_true, decide_eq_true_iff, decide_eq_true_iff]

/-- The factor of a peer that was never queried, or is in its trial. -/
theorem realFactor_neutral
    (neutral : m.totalHits = 0 ∨ m.usefulHits = 0 ∧ m.totalHits < trialReturns) :
    realFactor e m now = 1 := by
  rw [realFactor]
  rcases neutral with unknown | ⟨useless, trial⟩
  · rw [if_pos unknown]
  · rw [if_pos useless, if_pos trial, ite_self]

/-- The factor of a cold peer. -/
theorem realFactor_cold (cold : m.isCold = true) :
    realFactor e m now = coldValue (m.totalHits.toNat - 20 : Nat) := by
  obtain ⟨useless, past⟩ := isCold_iff.mp cold
  have judged : ¬ m.totalHits < trialReturns := UInt64.not_lt.mpr past
  have returned : m.totalHits ≠ 0 := fun none => judged (none ▸ by decide)
  rw [realFactor, if_neg returned, if_pos useless, if_neg judged]

/-- The factor of a useful peer. -/
theorem realFactor_useful (returned : m.totalHits ≠ 0) (useful : m.usefulHits ≠ 0) :
    realFactor e m now = usefulValue e m.usefulHits.toNat m.totalHits.toNat
      (now.toNat - m.lastUsefulAt.toNat : Nat) := by
  rw [realFactor, if_neg returned, if_neg useful]

/-- A peer is neutral, cold or useful. -/
theorem regimes (m : PeerManifest) :
    (m.totalHits = 0 ∨ m.usefulHits = 0 ∧ m.totalHits < trialReturns) ∨ m.isCold = true ∨
      m.totalHits ≠ 0 ∧ m.usefulHits ≠ 0 := by
  by_cases returned : m.totalHits = 0
  · exact .inl (.inl returned)
  by_cases useful : m.usefulHits = 0
  · by_cases trial : m.totalHits < trialReturns
    · exact .inl (.inr ⟨useful, trial⟩)
    · have judged : trialReturns ≤ m.totalHits := UInt64.not_lt.mp trial
      exact .inr (.inl (isCold_iff.mpr ⟨useful, judged⟩))
  · exact .inr (.inr ⟨returned, useful⟩)

/-- More returns make a cold peer colder. -/
theorem coldValue_anti {excess more : ℝ} (le : excess ≤ more) :
    coldValue more ≤ coldValue excess := by
  have pull : min (excess / 20) 1 ≤ min (more / 20) 1 := by gcongr
  rw [coldValue, coldValue]
  linarith

/-- At the end of its trial a peer is not yet cold. -/
theorem coldValue_zero : coldValue 0 = 1 := by
  rw [coldValue, zero_div, min_eq_left zero_le_one, mul_zero, sub_zero]

/-- One return more, and it is. -/
theorem coldValue_lt {excess : ℝ} (some_ : 0 < excess) : coldValue excess < 1 := by
  have pull : 0 < min (excess / 20) 1 := lt_min (by positivity) one_pos
  rw [coldValue]
  linarith

/-- A cold peer keeps what the cap leaves. -/
theorem coldValue_low (excess : ℝ) : 1 - 0.8 ≤ coldValue excess := by
  have pull : min (excess / 20) 1 ≤ 1 := min_le_right _ _
  rw [coldValue]
  linarith

/-- A useful peer's bias is capped. -/
theorem usefulValue_high (e : ℝ → ℝ) (useful total age : ℝ) :
    usefulValue e useful total age ≤ 1 + 0.5 := by
  have bias : min (useful / total * e (-age / 86400)) 0.5 ≤ 0.5 := min_le_right _ _
  rw [usefulValue]
  linarith

/-- A useful peer's bias is none against it. -/
theorem usefulValue_low {useful total age : ℝ} (hits : 0 ≤ useful) (returns : 0 ≤ total)
    (recent : 0 ≤ e (-age / 86400)) : 1 ≤ usefulValue e useful total age := by
  have bias : 0 ≤ min (useful / total * e (-age / 86400)) 0.5 :=
    le_min (by positivity) (by norm_num)
  rw [usefulValue]
  linarith

/-- More hits, or more recent ones, are a greater bias; so are fewer returns. -/
theorem usefulValue_mono {useful more total fewer age younger : ℝ} (hits : 0 ≤ useful)
    (moreHits : useful ≤ more) (returns : 0 < fewer) (fewerReturns : fewer ≤ total)
    (recent : 0 ≤ e (-age / 86400))
    (moreRecent : e (-age / 86400) ≤ e (-younger / 86400)) :
    usefulValue e useful total age ≤ usefulValue e more fewer younger := by
  have hitsMore : 0 ≤ more := hits.trans moreHits
  have ratio : useful / total ≤ more / fewer := by gcongr
  have bias : useful / total * e (-age / 86400) ≤ more / fewer * e (-younger / 86400) := by
    gcongr
  have capped := min_le_min_right 0.5 bias
  rw [usefulValue, usefulValue]
  linarith

/-- The age of the last hit counts against it. -/
theorem age_nonpos (age : Nat) : -(age : ℝ) / 86400 ≤ 0 :=
  div_nonpos_of_nonpos_of_nonneg (neg_nonpos.mpr (Nat.cast_nonneg age)) (by norm_num)

/-- A useful peer's factor is at least one. -/
theorem one_le_realFactor (nonneg : ∀ x ≤ 0, 0 ≤ e x) (useful : m.usefulHits ≠ 0) :
    1 ≤ realFactor e m now := by
  by_cases returned : m.totalHits = 0
  · rw [realFactor_neutral (.inl returned)]
  · rw [realFactor_useful returned useful]
    exact usefulValue_low (Nat.cast_nonneg _) (Nat.cast_nonneg _) (nonneg _ (age_nonpos _))

/-- A useless peer's factor is at most one. -/
theorem realFactor_le_one (useless : m.usefulHits = 0) : realFactor e m now ≤ 1 := by
  rcases regimes m with neutral | cold | ⟨_, useful⟩
  · rw [realFactor_neutral neutral]
  · rw [realFactor_cold cold, ← coldValue_zero]
    exact coldValue_anti (Nat.cast_nonneg _)
  · exact absurd useless useful

/-- Every factor keeps to the caps. -/
theorem realFactor_bounds (nonneg : ∀ x ≤ 0, 0 ≤ e x) (m : PeerManifest) (now : UInt64) :
    1 - 0.8 ≤ realFactor e m now ∧ realFactor e m now ≤ 1 + 0.5 := by
  by_cases useless : m.usefulHits = 0
  · have most : realFactor e m now ≤ 1 := realFactor_le_one useless
    constructor
    · rcases regimes m with neutral | cold | ⟨_, useful⟩
      · rw [realFactor_neutral neutral]
        norm_num
      · rw [realFactor_cold cold]
        exact coldValue_low _
      · exact absurd useless useful
    · linarith
  · have least : 1 ≤ realFactor e m now := one_le_realFactor nonneg useless
    constructor
    · linarith
    · rw [realFactor]
      by_cases returned : m.totalHits = 0
      · rw [if_pos returned]
        norm_num
      · rw [if_neg returned, if_neg useless]
        exact usefulValue_high _ _ _ _

/-! ## What the regimes promise -/

/-- What is documented of a factor. -/
structure InRegimes (m : PeerManifest) (f : Exact) : Prop where
  /-- It is not below what the cap of a cold streak leaves. -/
  low : FloatLike.le (1.0 - negativeBiasCap) f = true
  /-- It is not above what the cap of a bias allows. -/
  high : FloatLike.le f (1.0 + biasCap) = true
  /-- It is below one for the cold, and for no one else. -/
  cold : FloatLike.lt f 1.0 = true ↔ m.isCold = true
  /-- It is one for the unknown and for those in their trial. -/
  neutral : m.totalHits = 0 ∨ m.usefulHits = 0 ∧ m.totalHits < trialReturns → f = 1.0
  /-- It is at least one for the useful. -/
  useful : 0 < m.usefulHits → FloatLike.le 1.0 f = true

/-- What is documented of a factor, as a real number. -/
theorem inRegimes_num {f : ℝ} (low : 1 - 0.8 ≤ f) (high : f ≤ 1 + 0.5)
    (cold : f < 1 ↔ m.isCold = true)
    (neutral : m.totalHits = 0 ∨ m.usefulHits = 0 ∧ m.totalHits < trialReturns → f = 1)
    (useful : 0 < m.usefulHits → 1 ≤ f) : InRegimes m (num f) where
  low := by
    have cap : (1.0 : Exact) - negativeBiasCap = num (1 - 0.8) := by
      rw [Exact.literal_one]
      exact Exact.num_sub 1 0.8
    rw [cap, le_num]
    exact low
  high := by
    have cap : (1.0 : Exact) + biasCap = num (1 + 0.5) := by
      rw [Exact.literal_one]
      exact Exact.num_add 1 0.5
    rw [cap, le_num]
    exact high
  cold := by
    rw [Exact.literal_one, lt_num]
    exact cold
  neutral regime := by
    rw [Exact.literal_one, neutral regime]
  useful hits := by
    rw [Exact.literal_one, le_num]
    exact useful hits

/-- The factor is in its regime, except at the very end of a trial without a useful hit: there
the peer counts as cold, and its factor is still one. -/
theorem inRegimes_iff (unit : ∀ x ≤ 0, 0 < e x ∧ e x ≤ 1) (m : PeerManifest) (now : UInt64) :
    InRegimes m (factorWith e m now) ↔ ¬ (m.usefulHits = 0 ∧ m.totalHits = trialReturns) := by
  rw [factorWith_eq]
  constructor
  · rintro promised ⟨useless, edge⟩
    have cold : m.isCold = true := isCold_iff.mpr ⟨useless, UInt64.le_of_eq edge.symm⟩
    have below := promised.cold.mpr cold
    rw [realFactor_cold cold, edge, Exact.literal_one, lt_num] at below
    have still : coldValue (trialReturns.toNat - 20 : Nat) = 1 := by
      rw [← coldValue_zero]
      exact congrArg coldValue Nat.cast_zero
    exact absurd below still.not_lt
  · intro inside
    have nonneg : ∀ x ≤ 0, 0 ≤ e x := fun x nonpos => (unit x nonpos).1.le
    obtain ⟨low, high⟩ := realFactor_bounds nonneg m now
    apply inRegimes_num low high
    · by_cases cold : m.isCold = true
      · -- Past the end of the trial, by the exception.
        obtain ⟨useless, judged⟩ := isCold_iff.mp cold
        have edge : m.totalHits.toNat ≠ 20 :=
          fun edge => inside ⟨useless, UInt64.toNat_inj.mp edge⟩
        have atLeast : 20 ≤ m.totalHits.toNat := UInt64.le_iff_toNat_le.mp judged
        have past : 0 < m.totalHits.toNat - 20 := by omega
        rw [realFactor_cold cold]
        exact iff_of_true (coldValue_lt (Nat.cast_pos.mpr past)) cold
      · have warm : 1 ≤ realFactor e m now := by
          rcases regimes m with neutral | cold' | ⟨_, useful⟩
          · rw [realFactor_neutral neutral]
          · exact absurd cold' cold
          · exact one_le_realFactor nonneg useful
        exact iff_of_false warm.not_gt cold
    · exact realFactor_neutral
    · intro hits
      exact one_le_realFactor nonneg (UInt64.pos_iff_ne_zero.mp hits)

/-- A manifest with some counts. -/
def countedPeer (useful total : UInt64) : PeerManifest :=
  ⟨⟨Vector.replicate 16 0⟩, useful, total, 0⟩

/-- The true exponential will do, and a peer with hits as well as returns. -/
theorem inRegimes_iff_sample :
    InRegimes (countedPeer 3 10) (factorWith Real.exp (countedPeer 3 10) 1000) ↔
      ¬ ((3 : UInt64) = 0 ∧ (10 : UInt64) = trialReturns) :=
  inRegimes_iff (fun _ nonpos => ⟨Real.exp_pos _, Real.exp_le_one_iff.mpr nonpos⟩) _ _

/-- After twenty returns and no useful hit, a peer is cold at a factor of one. -/
theorem cold_at_one :
    (countedPeer 0 20).isCold = true ∧ factorWith Real.exp (countedPeer 0 20) 0 = 1.0 ∧
      ¬ InRegimes (countedPeer 0 20) (factorWith Real.exp (countedPeer 0 20) 0) := by
  have cold : (countedPeer 0 20).isCold = true := by decide
  have one : factorWith Real.exp (countedPeer 0 20) 0 = 1.0 := by
    rw [factorWith_eq, realFactor_cold cold, Exact.literal_one, ← coldValue_zero]
    exact congrArg (fun x => num (coldValue x)) Nat.cast_zero
  refine ⟨cold, one, fun promised => ?_⟩
  have below := promised.cold.mpr cold
  rw [one, Exact.literal_one, lt_num] at below
  exact lt_irrefl 1 below

end Hansa
