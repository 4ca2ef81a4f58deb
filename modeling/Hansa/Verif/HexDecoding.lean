import Hansa.Hex
import Hansa.Verif.LogFile

/-!
# What the hex decoders accept

The decoders are meant to read the hex text of a value, in either case of letters, and to
report anything else. They test the length in bytes, cut the string at byte offsets and parse
with a general integer parser. So a pair may be a plus sign and a digit, and a pair may end
inside a character. A text of the right length is read as meant exactly when it is hex, or when
a pair that is no number at all comes before every cut inside a character.
-/

namespace Hansa

/-! ## Hex text -/

/-- A character of `0-9`, `a-f` or `A-F`. -/
def IsHexChar (ch : Char) : Prop :=
  ch.isDigit ∨ 'a' ≤ ch ∧ ch ≤ 'f' ∨ 'A' ≤ ch ∧ ch ≤ 'F'

instance : DecidablePred IsHexChar := fun _ => inferInstanceAs (Decidable (_ ∨ _))

/-- The hex texts of `n` bytes. -/
def IsHexText (n : Nat) (s : String) : Prop :=
  s.toList.length = 2 * n ∧ ∀ ch ∈ s.toList, IsHexChar ch

/-- A decoder of `n` bytes does on the text what it is for: it returns a value exactly on hex
text, the value is written as the text in lower case, and it does not panic. -/
structure DecodesHex (n : Nat) (s : String) (returns : Bytes n → Prop) (panics : Prop) : Prop where
  /-- A value is returned exactly on hex text. -/
  accepts : (∃ b, returns b) ↔ IsHexText n s
  /-- A returned value is written as the text. -/
  encodes : ∀ b, returns b → encodeHex b.toList = s.toLower
  /-- Other text is reported. -/
  reports : ¬ panics

/-- The number that the pair of bytes with index `i` is read as. -/
def pairValue (bytes : List UInt8) (i : Nat) : Option UInt8 := do
  let a ← bytes[2 * i]?
  let b ← bytes[2 * i + 1]?
  fromStrRadix16 a b

/-- The pair of bytes with index `i` does not end inside a character. -/
def PairEnds (bytes : List UInt8) (i : Nat) : Prop :=
  bytes[2 * i + 2]?.any isContinuation = false

/-- A text of `2 * n` bytes is hex, or a pair that is no number comes before every pair that
ends inside a character. -/
def ReadsAsHex (n : Nat) (s : String) : Prop :=
  (utf8 s).length = 2 * n →
    (∀ ch ∈ s.toList, IsHexChar ch) ∨
      ∃ i < n, pairValue (utf8 s) i = none ∧ ∀ j ≤ i, PairEnds (utf8 s) j

/-- A hex character is one byte, a digit, and is written as the digit in lower case. -/
theorem IsHexChar.digit {ch : Char} (hex : IsHexChar ch) :
    String.utf8EncodeChar ch = [UInt8.ofNat ch.toNat] ∧
      isContinuation (UInt8.ofNat ch.toNat) = false ∧ UInt8.ofNat ch.toNat ≠ 43 ∧
      ∃ d < 16, hexDigit (UInt8.ofNat ch.toNat) = some (UInt8.ofNat d) ∧
        d.digitChar = ch.toLower := by
  have each : ∀ n : Fin 128, IsHexChar (Char.ofNat n) →
      isContinuation (UInt8.ofNat n) = false ∧ UInt8.ofNat n ≠ 43 ∧
        ∃ d < 16, hexDigit (UInt8.ofNat n) = some (UInt8.ofNat d) ∧
          d.digitChar = (Char.ofNat n).toLower := by
    decide +kernel
  have small : ch.toNat < 128 := by
    rcases hex with digit | letter | letter
    · have bounds : 48 ≤ ch.toNat ∧ ch.toNat ≤ 57 := by
        simpa [Char.isDigit, UInt32.le_iff_toNat_le] using digit
      omega
    · have bound : ch.toNat ≤ 102 := letter.2
      omega
    · have bound : ch.toNat ≤ 70 := letter.2
      omega
  have here := each ⟨ch.toNat, small⟩
  rw [Char.ofNat_toNat] at here
  exact ⟨utf8EncodeChar_ascii small, here hex⟩

/-- The bytes of hex characters. -/
theorem utf8_of_hex {s : String} (hex : ∀ ch ∈ s.toList, IsHexChar ch) :
    utf8 s = s.toList.map fun ch => UInt8.ofNat ch.toNat := by
  rw [utf8_eq_flatMap]
  generalize s.toList = chars at hex
  induction chars with
  | nil => rfl
  | cons ch chars ih =>
    have single := (hex ch List.mem_cons_self).digit.1
    have rest := ih fun c member => hex c (List.mem_cons_of_mem _ member)
    rw [List.flatMap_cons, single, rest]
    rfl

/-- A hex text has one byte for each character. -/
theorem IsHexText.length {n : Nat} {s : String} (hex : IsHexText n s) :
    (utf8 s).length = 2 * n := by
  rw [utf8_of_hex hex.2, List.length_map, hex.1]

/-- A digit is a hex character, in lower case. -/
theorem isHexChar_digitChar {n : Nat} (small : n < 16) :
    IsHexChar n.digitChar ∧ n.digitChar.toLower = n.digitChar := by
  have each : ∀ n < 16, IsHexChar n.digitChar ∧ n.digitChar.toLower = n.digitChar := by decide
  exact each n small

/-- Written bytes are hex text, in lower case. -/
theorem isHexText_encodeHex {n : Nat} (bytes : Bytes n) :
    IsHexText n (encodeHex bytes.toList) ∧
      (encodeHex bytes.toList).toLower = encodeHex bytes.toList := by
  have chars : (encodeHex bytes.toList).toList =
      bytes.toList.flatMap fun b => (hexByte b).toList := by
    rw [encodeHex, String.toList_join, List.flatMap_map]
  have digit : ∀ ch ∈ (encodeHex bytes.toList).toList, IsHexChar ch ∧ ch.toLower = ch := by
    intro ch member
    rw [chars] at member
    obtain ⟨b, _, inside⟩ := List.mem_flatMap.mp member
    have below := b.toNat_lt
    rw [hexByte, String.toList_ofList] at inside
    rcases List.mem_cons.mp inside with rfl | inside
    · exact isHexChar_digitChar (by omega)
    · rw [List.mem_singleton.mp inside]
      exact isHexChar_digitChar (by omega)
  refine ⟨⟨?_, fun ch member => (digit ch member).1⟩, ?_⟩
  · rw [chars, List.length_flatMap]
    simp [hexByte, Nat.mul_comm]
  · apply String.toList_inj.mp
    change (String.map Char.toLower (encodeHex bytes.toList)).toList = _
    rw [String.toList_map]
    exact (List.map_congr_left fun ch member => (digit ch member).2).trans (List.map_id' _)

/-! ## The loop -/

/-- An index up to which a condition holds is the first one, or comes after it. -/
theorem exists_lt_succ_upTo_iff {P Q : Nat → Prop} {n : Nat} :
    (∃ i < n + 1, P i ∧ ∀ j ≤ i, Q j) ↔
      Q 0 ∧ (P 0 ∨ ∃ i < n, P (i + 1) ∧ ∀ j ≤ i, Q (j + 1)) := by
  constructor
  · rintro ⟨i, below, here, all⟩
    refine ⟨all 0 (Nat.zero_le i), ?_⟩
    cases i with
    | zero => exact .inl here
    | succ i =>
      exact .inr ⟨i, Nat.lt_of_succ_lt_succ below, here, fun j atMost =>
        all (j + 1) (Nat.succ_le_succ atMost)⟩
  · rintro ⟨start, here | ⟨i, below, here, all⟩⟩
    · refine ⟨0, Nat.succ_pos n, here, fun j atMost => ?_⟩
      obtain rfl := Nat.le_zero.mp atMost
      exact start
    · refine ⟨i + 1, Nat.succ_lt_succ below, here, fun j atMost => ?_⟩
      cases j with
      | zero => exact start
      | succ j => exact all j (Nat.le_of_succ_le_succ atMost)

/-- The loop returns an error exactly when a pair that is no number comes before every pair
that ends inside a character. -/
theorem decodeHexPairs_custom {n : Nat} {bytes : List UInt8} (full : bytes.length = 2 * n) :
    (∃ text, decodeHexPairs n bytes = .error (.custom text)) ↔
      ∃ i < n, pairValue bytes i = none ∧ ∀ j ≤ i, PairEnds bytes j := by
  induction n generalizing bytes with
  | zero => simp [decodeHexPairs]
  | succ n ih =>
    match bytes, full with
    | a :: b :: rest, full =>
      have shorter : rest.length = 2 * n := by
        simp only [List.length_cons] at full
        omega
      have first : pairValue (a :: b :: rest) 0 = fromStrRadix16 a b := rfl
      have ends : PairEnds (a :: b :: rest) 0 ↔ rest.head?.any isContinuation = false := by
        rw [List.head?_eq_getElem?]
        rfl
      have later : (∃ i < n, pairValue (a :: b :: rest) (i + 1) = none ∧
          ∀ j ≤ i, PairEnds (a :: b :: rest) (j + 1)) ↔
          ∃ text, decodeHexPairs n rest = .error (.custom text) := (ih shorter).symm
      rw [exists_lt_succ_upTo_iff, later, first, ends]
      by_cases boundary : rest.head?.any isContinuation = true
      · have panics : decodeHexPairs (n + 1) (a :: b :: rest) = .error .panic := by
          rw [decodeHexPairs, if_pos boundary]
        rw [panics, boundary]
        exact iff_of_false (fun ⟨_, same⟩ => nomatch same) fun both => nomatch both.1
      · have atStart := Bool.eq_false_of_not_eq_true boundary
        cases number : fromStrRadix16 a b with
        | none =>
          have refused :
              decodeHexPairs (n + 1) (a :: b :: rest) = .error (.custom invalidDigit) := by
            rw [decodeHexPairs, if_neg boundary, number]
          exact iff_of_true ⟨_, refused⟩ ⟨atStart, .inl rfl⟩
        | some x =>
          have step : (∃ text, decodeHexPairs (n + 1) (a :: b :: rest) = .error (.custom text)) ↔
              ∃ text, decodeHexPairs n rest = .error (.custom text) := by
            rw [decodeHexPairs, if_neg boundary, number]
            cases decodeHexPairs n rest <;> simp [bind, Except.bind]
          rw [step]
          exact ⟨fun failed => ⟨atStart, .inr failed⟩,
            fun both => both.2.resolve_left fun none_ => nomatch none_⟩

/-- The loop reads hex characters as the bytes that are written so. -/
theorem decodeHexPairs_hex {n : Nat} {chars : List Char} (full : chars.length = 2 * n)
    (hex : ∀ ch ∈ chars, IsHexChar ch) :
    ∃ bytes : Bytes n, decodeHexPairs n (chars.map fun ch => UInt8.ofNat ch.toNat) = .ok bytes ∧
      bytes.toList.flatMap (fun b => (hexByte b).toList) = chars.map Char.toLower := by
  induction n generalizing chars with
  | zero =>
    obtain rfl : chars = [] := List.eq_nil_of_length_eq_zero full
    exact ⟨#v[], rfl, rfl⟩
  | succ n ih =>
    match chars, full with
    | high :: low :: rest, full =>
      have shorter : rest.length = 2 * n := by
        simp only [List.length_cons] at full
        omega
      have restHex : ∀ ch ∈ rest, IsHexChar ch := fun ch member =>
        hex ch (List.mem_cons_of_mem _ (List.mem_cons_of_mem _ member))
      obtain ⟨bytes, decoded, written⟩ := ih shorter restHex
      obtain ⟨_, _, unsigned, h, hSmall, isHigh, highChar⟩ :=
        (hex high List.mem_cons_self).digit
      obtain ⟨_, _, _, l, lSmall, isLow, lowChar⟩ :=
        (hex low (List.mem_cons_of_mem _ List.mem_cons_self)).digit
      have boundary :
          (rest.map fun ch => UInt8.ofNat ch.toNat).head?.any isContinuation = false := by
        cases rest with
        | nil => rfl
        | cons ch rest => exact (restHex ch List.mem_cons_self).digit.2.1
      have number : fromStrRadix16 (UInt8.ofNat high.toNat) (UInt8.ofNat low.toNat) =
          some (UInt8.ofNat h * 16 + UInt8.ofNat l) := by
        rw [fromStrRadix16, if_neg unsigned, isHigh, isLow]
        rfl
      have value : (UInt8.ofNat h * 16 + UInt8.ofNat l).toNat = 16 * h + l := by
        have sixteen : (16 : UInt8).toNat = 16 := rfl
        simp only [UInt8.toNat_add, UInt8.toNat_mul, UInt8.toNat_ofNat', sixteen]
        omega
      have digits : (hexByte (UInt8.ofNat h * 16 + UInt8.ofNat l)).toList =
          [high.toLower, low.toLower] := by
        have highDigit : (16 * h + l) / 16 = h := by omega
        have lowDigit : (16 * h + l) % 16 = l := by omega
        rw [hexByte, String.toList_ofList, value, highDigit, lowDigit, highChar, lowChar]
      refine ⟨(#v[UInt8.ofNat h * 16 + UInt8.ofNat l] ++ bytes).cast (Nat.add_comm 1 n), ?_, ?_⟩
      · show decodeHexPairs (n + 1) (_ :: _ :: rest.map fun ch => UInt8.ofNat ch.toNat) = _
        rw [decodeHexPairs, boundary, if_neg Bool.false_ne_true, number, decoded]
        rfl
      · rw [Vector.toList_cast, Vector.toList_append, List.flatMap_append, written]
        show (hexByte _).toList ++ [] ++ _ = _
        rw [digits]
        rfl

/-! ## The decoders -/

/-- A decoder behind the test of the length does what it is for exactly on the texts that read
as hex. -/
theorem decodeHexText_decodes {n : Nat} (wrongLength : Nat → String) (s : String) :
    DecodesHex n s (fun b => decodeHexText n wrongLength s = .ok b)
      (decodeHexText n wrongLength s = .error .panic) ↔ ReadsAsHex n s := by
  by_cases full : (utf8 s).length = 2 * n
  · have loop : decodeHexText n wrongLength s = decodeHexPairs n (utf8 s) := by
      rw [decodeHexText, if_neg (by omega)]
    have ofHex : (∀ ch ∈ s.toList, IsHexChar ch) → IsHexText n s ∧
        ∃ b, decodeHexPairs n (utf8 s) = .ok b ∧ encodeHex b.toList = s.toLower := by
      intro hex
      have count : s.toList.length = 2 * n := by
        rw [utf8_of_hex hex, List.length_map] at full
        exact full
      obtain ⟨b, decoded, written⟩ := decodeHexPairs_hex count hex
      refine ⟨⟨count, hex⟩, b, ?_, ?_⟩
      · rw [utf8_of_hex hex, decoded]
      · apply String.toList_inj.mp
        rw [encodeHex, String.toList_join, List.flatMap_map, written]
        exact String.toList_map.symm
    rw [loop]
    constructor
    · intro does _
      cases outcome : decodeHexPairs n (utf8 s) with
      | ok b => exact .inl (does.accepts.mp ⟨b, outcome⟩).2
      | error fault =>
        cases fault with
        | custom text => exact .inr ((decodeHexPairs_custom full).mp ⟨text, outcome⟩)
        | panic => exact absurd outcome does.reports
    · intro reads
      rcases reads full with hex | reported
      · obtain ⟨isHex, b, decoded, written⟩ := ofHex hex
        rw [decoded]
        refine ⟨⟨fun _ => isHex, fun _ => ⟨b, rfl⟩⟩, ?_, nofun⟩
        intro b' same
        rw [← Except.ok.inj same]
        exact written
      · obtain ⟨text, refused⟩ := (decodeHexPairs_custom full).mpr reported
        rw [refused]
        refine ⟨⟨nofun, ?_⟩, nofun, nofun⟩
        intro isHex
        obtain ⟨_, b, decoded, _⟩ := ofHex isHex.2
        rw [refused] at decoded
        cases decoded
  · have refused : decodeHexText n wrongLength s =
        .error (.custom (wrongLength (utf8 s).length)) := by
      rw [decodeHexText, if_pos (by omega)]
    rw [refused]
    refine ⟨fun _ same => absurd same full, fun _ => ⟨⟨nofun, ?_⟩, nofun, nofun⟩⟩
    exact fun isHex => absurd isHex.length full

/-- Whether a decoder does what it is for depends on what it returns and on when it panics. -/
theorem DecodesHex.congr {n : Nat} {s : String} {returns returns' : Bytes n → Prop}
    {panics panics' : Prop} (same : ∀ b, returns b ↔ returns' b) (same' : panics ↔ panics') :
    DecodesHex n s returns panics ↔ DecodesHex n s returns' panics' := by
  have equal : returns = returns' := funext fun b => propext (same b)
  rw [equal, propext same']

/-- A decoder whose bytes are wrapped in a type. -/
theorem decodeHexText_map_decodes {α : Type} {n : Nat} {make : Bytes n → α}
    (injective : Function.Injective make) (wrongLength : Nat → String) (s : String) :
    DecodesHex n s (fun b => (decodeHexText n wrongLength s).map make = .ok (make b))
      ((decodeHexText n wrongLength s).map make = .error .panic) ↔ ReadsAsHex n s := by
  rw [← decodeHexText_decodes wrongLength s]
  apply DecodesHex.congr
  · intro b
    cases decodeHexText n wrongLength s with
    | ok b' => simp [Except.map, injective.eq_iff]
    | error fault => simp [Except.map]
  · cases decodeHexText n wrongLength s <;> simp [Except.map]

/-- The decoder of a listed id returns what the other decoder of tenant ids returns, without
its errors. -/
theorem parseTenantHex_eq (hex : String) :
    parseTenantHex hex = HexResult.discard (TenantIdHex.deserialize hex) := by
  rw [parseTenantHex, TenantIdHex.deserialize, decodeHexText]
  by_cases full : (utf8 hex).length = 32
  · simp only [full, ne_eq, not_true_eq_false, if_false]
    rcases decodeHexPairs 16 (utf8 hex) with (_ | _) | _ <;> rfl
  · rw [if_pos full, if_pos full]
    rfl

/-- Without its errors a decoder returns the same values. -/
theorem HexResult.discard_eq_some {α : Type} {outcome : HexResult α} {x : α} :
    HexResult.discard outcome = .ok (some x) ↔ outcome = .ok x := by
  rcases outcome with (_ | _) | _ <;> simp [HexResult.discard]

/-- Without its errors a decoder panics on the same texts. -/
theorem HexResult.discard_eq_panic {α : Type} {outcome : HexResult α} :
    HexResult.discard outcome = .error .panic ↔ outcome = .error .panic := by
  rcases outcome with (_ | _) | _ <;> simp [HexResult.discard]

/-- The decoder of a listed id does what it is for exactly when the other one does. -/
theorem parseTenantHex_decodes (s : String) :
    DecodesHex 16 s (fun b => parseTenantHex s = .ok (some ⟨b⟩))
      (parseTenantHex s = .error .panic) ↔ ReadsAsHex 16 s := by
  have other := decodeHexText_map_decodes (fun _ _ => TenantId.mk.inj)
    (fun length => "expected 32-char hex tenant id, got " ++ toString length) s
  rw [← other, parseTenantHex_eq, TenantIdHex.deserialize]
  exact DecodesHex.congr (fun _ => HexResult.discard_eq_some) HexResult.discard_eq_panic

/-- Each decoder does what it is for exactly on the texts that read as hex of its width. -/
theorem decoders_decode_iff (s : String) :
    (DecodesHex 32 s (fun b => HashHex.deserialize s = .ok b)
        (HashHex.deserialize s = .error .panic) ↔ ReadsAsHex 32 s) ∧
      (DecodesHex 16 s (fun b => TenantIdHex.deserialize s = .ok ⟨b⟩)
        (TenantIdHex.deserialize s = .error .panic) ↔ ReadsAsHex 16 s) ∧
      (∀ n, DecodesHex n s (fun b => unhex n s = .ok b) (unhex n s = .error .panic) ↔
        ReadsAsHex n s) ∧
      (DecodesHex 32 s (fun b => HansaId.deserialize s = .ok ⟨b⟩)
        (HansaId.deserialize s = .error .panic) ↔ ReadsAsHex 32 s) ∧
      (DecodesHex 16 s (fun b => parseTenantHex s = .ok (some ⟨b⟩))
        (parseTenantHex s = .error .panic) ↔ ReadsAsHex 16 s) := by
  have hash := decodeHexText_decodes (n := 32) (fun _ => "expected 64-char hex hash") s
  have tenant := decodeHexText_map_decodes (fun _ _ => TenantId.mk.inj)
    (fun length => "expected 32-char hex tenant id, got " ++ toString length) s
  have hansa := decodeHexText_map_decodes (fun _ _ => HansaId.mk.inj)
    (fun length => "expected 64-char hex hansa id, got " ++ toString length) s
  exact ⟨hash, tenant, fun n => decodeHexText_decodes _ s, hansa, parseTenantHex_decodes s⟩

/-- Sixteen pairs of a plus sign and a digit. -/
def signedHex : String := String.join (List.replicate 16 "+a")

/-- Thirty-two bytes with a letter of two bytes at an odd offset. -/
def splitHex : String := "0é" ++ String.join (List.replicate 29 "0")

/-- The decoders of tenant ids return a value on a text with signs, and panic on a text with a
character that two slices share. -/
theorem tenantHex_not_exact :
    (TenantIdHex.deserialize signedHex = .ok ⟨Vector.replicate 16 10⟩ ∧
        parseTenantHex signedHex = .ok (some ⟨Vector.replicate 16 10⟩) ∧
        ¬ IsHexText 16 signedHex) ∧
      TenantIdHex.deserialize splitHex = .error .panic ∧
        parseTenantHex splitHex = .error .panic := by
  refine ⟨⟨by decide +kernel, by decide +kernel, ?_⟩, by decide +kernel, by decide +kernel⟩
  intro isHex
  have plus : IsHexChar '+' := isHex.2 '+' (by decide +kernel)
  exact absurd plus (by decide)

/-! ## The remote listing -/

/-- A listed id that reads as hex is a tenant id or is skipped. -/
theorem parseTenantHex_reports {hex : String} (reads : ReadsAsHex 16 hex) :
    ∃ parsed, parseTenantHex hex = .ok parsed := by
  have reports := ((parseTenantHex_decodes hex).mpr reads).reports
  rw [parseTenantHex_eq, HexResult.discard_eq_panic] at reports
  rw [parseTenantHex_eq]
  cases outcome : TenantIdHex.deserialize hex with
  | ok tenantId => exact ⟨some tenantId, rfl⟩
  | error fault =>
    cases fault with
    | custom text => exact ⟨none, rfl⟩
    | panic => exact absurd outcome reports

variable {Disk : Type} {source : SagaSource Disk}

variable (source) in
/-- A listing whose ids read as hex is worked off. -/
theorem pullEntries_reports (peer : RemotePeer) {entries : List SagaEntry}
    (reads : ∀ entry ∈ entries, ReadsAsHex 16 entry.tenantIdHex) (downloaded : Nat)
    (disk : Disk) : ∃ after, pullEntries source peer downloaded disk entries = .ok after := by
  induction entries generalizing downloaded disk with
  | nil => exact ⟨_, rfl⟩
  | cons entry entries ih =>
    have later := ih fun e member => reads e (List.mem_cons_of_mem _ member)
    obtain ⟨parsed, isParsed⟩ := parseTenantHex_reports (reads entry List.mem_cons_self)
    rw [pullEntries]
    split
    · exact later downloaded disk
    · rw [isParsed]
      cases parsed with
      | none => exact later downloaded disk
      | some tenantId =>
        rcases fetched : source.fetchToPath disk peer tenantId (entry.tenantIdHex ++ ".saga")
          with ⟨_ | _, disk'⟩
        · simpa only [fetched] using later downloaded disk'
        · simpa only [fetched] using later (downloaded + 1) disk'

/-- Pulling sagas returns when every id that a remote lists reads as hex. -/
theorem HybridRegistry.pullSagasInto_reports (h : HybridRegistry) (disk : Disk)
    (reads : ∀ peer ∈ h.remotes, ∀ entries, source.list peer = .ok entries →
      ∀ entry ∈ entries, ReadsAsHex 16 entry.tenantIdHex) :
    ∃ after, h.pullSagasInto source disk = .ok after := by
  have remotes : ∀ peers : List RemotePeer, (∀ peer ∈ peers, ∀ entries,
      source.list peer = .ok entries → ∀ entry ∈ entries, ReadsAsHex 16 entry.tenantIdHex) →
      ∀ downloaded disk, ∃ after, pullRemotes source downloaded disk peers = .ok after := by
    intro peers
    induction peers with
    | nil => exact fun _ downloaded disk => ⟨_, rfl⟩
    | cons peer peers ih =>
      intro reads downloaded disk
      have later := ih fun p member => reads p (List.mem_cons_of_mem _ member)
      rw [pullRemotes]
      cases listed : source.list peer with
      | error _ => exact later downloaded disk
      | ok entries =>
        have here := reads peer List.mem_cons_self entries listed
        obtain ⟨after, pulled⟩ := pullEntries_reports source peer here downloaded disk
        simp only [pulled, bind, Except.bind]
        exact later after.1 after.2
  exact remotes h.remotes reads 0 disk

end Hansa
