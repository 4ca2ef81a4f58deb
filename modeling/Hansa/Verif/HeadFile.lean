import Mathlib.Tactic.IntervalCases
import Hansa.HeadCache
import Hansa.Verif.LogFile

/-!
# The head cache reads back what it stored

A stored head is a decimal number and sixty-four lowercase hexadecimal digits, so the next
load finds the same number and the same hash. A check against a stored head then compares the
new head with the one that was stored last.
-/

namespace Hansa

/-! ## Words -/

/-- Digits of a number are not white space. -/
theorem isWhitespace_of_isDigit {ch : Char} (digit : ch.isDigit = true) :
    isWhitespace ch = false := by
  have bounds : 48 ≤ ch.toNat ∧ ch.toNat ≤ 57 := by
    simpa [Char.isDigit, UInt32.le_iff_toNat_le] using digit
  simp [isWhitespace]
  omega

/-- Hexadecimal digits are not white space. -/
theorem isWhitespace_digitChar {n : Nat} (small : n < 16) :
    isWhitespace n.digitChar = false := by
  interval_cases n <;> decide

/-- Two words on a line are read back. -/
theorem splitWhitespace_line {first second : List Char} (filled : first ≠ [])
    (filled' : second ≠ []) (plain : ∀ ch ∈ first, isWhitespace ch = false)
    (plain' : ∀ ch ∈ second, isWhitespace ch = false) :
    splitWhitespace (String.ofList (first ++ ' ' :: (second ++ ['\n']))) =
      [String.ofList first, String.ofList second] := by
  have split : (first ++ ' ' :: (second ++ ['\n'])).splitOnP isWhitespace =
      [first, second, []] := by
    rw [List.splitOnP_append_cons_of_forall_mem plain ' ' (by decide),
      List.splitOnP_append_cons_of_forall_mem plain' '\n' (by decide), List.splitOnP_nil]
  simp [splitWhitespace, String.toList_ofList, split, filled, filled']

/-! ## The number -/

/-- The decimal digits of a number parse as the number. -/
theorem parseU64_toDigits (seq : UInt64) :
    parseU64 (String.ofList (Nat.toDigits 10 seq.toNat)) = some seq := by
  have digits : ∀ ch ∈ Nat.toDigits 10 seq.toNat, ch.isDigit = true :=
    fun ch member => Nat.isDigit_of_mem_toDigits (by decide) (by decide) member
  have filled : Nat.toDigits 10 seq.toNat ≠ [] := Nat.toDigits_ne_nil
  unfold parseU64
  simp only [String.toList_ofList]
  split
  · next rest shape =>
    have plus := digits '+' (by rw [shape]; exact List.mem_cons_self)
    exact absurd plus (by decide)
  · rw [if_pos ⟨filled, List.all_eq_true.mpr digits⟩, Nat.ofDigitChars_ten_toDigits,
      if_pos seq.toNat_lt, UInt64.ofNat_toNat]

/-! ## The hash -/

/-- The byte of a hexadecimal digit. -/
def hexDigitByte (n : Nat) : UInt8 := UInt8.ofNat (if n < 10 then 48 + n else 87 + n)

/-- A byte is written as two bytes, its digits. -/
theorem utf8_hexByte (b : UInt8) :
    utf8 (hexByte b) = [hexDigitByte (b.toNat / 16), hexDigitByte (b.toNat % 16)] := by
  have each : ∀ n : Fin 256, utf8 (hexByte (UInt8.ofNat n)) =
      [hexDigitByte ((UInt8.ofNat n).toNat / 16), hexDigitByte ((UInt8.ofNat n).toNat % 16)] := by
    decide +kernel
  have same := each ⟨b.toNat, b.toNat_lt⟩
  rwa [UInt8.ofNat_toNat] at same

/-- The digits of a byte are read back as the byte. -/
theorem fromStrRadix16_hexDigitByte (b : UInt8) :
    fromStrRadix16 (hexDigitByte (b.toNat / 16)) (hexDigitByte (b.toNat % 16)) = some b := by
  have each : ∀ n : Fin 256, fromStrRadix16 (hexDigitByte ((UInt8.ofNat n).toNat / 16))
      (hexDigitByte ((UInt8.ofNat n).toNat % 16)) = some (UInt8.ofNat n) := by
    decide +kernel
  have same := each ⟨b.toNat, b.toNat_lt⟩
  rwa [UInt8.ofNat_toNat] at same

/-- A hexadecimal digit starts a character. -/
theorem isContinuation_hexDigitByte {n : Nat} (small : n < 16) :
    isContinuation (hexDigitByte n) = false := by
  interval_cases n <;> decide

/-- The bytes of digits are read back. -/
theorem parseHash_hex (bytes : List UInt8) :
    parseHash (bytes.flatMap fun b => utf8 (hexByte b)) = .ok (some bytes) := by
  induction bytes with
  | nil => rfl
  | cons b bytes ih =>
    have boundary :
        (bytes.flatMap fun b => utf8 (hexByte b)).head?.any isContinuation = false := by
      cases bytes with
      | nil => rfl
      | cons b' bytes =>
        have small : b'.toNat / 16 < 16 := by
          have below := b'.toNat_lt
          omega
        rw [List.flatMap_cons, utf8_hexByte]
        exact isContinuation_hexDigitByte small
    rw [List.flatMap_cons, utf8_hexByte]
    show parseHash (_ :: _ :: bytes.flatMap fun b => utf8 (hexByte b)) = _
    rw [parseHash, boundary, if_neg Bool.false_ne_true, fromStrRadix16_hexDigitByte, ih]
    rfl

/-- The bytes of a text are those of its parts. -/
theorem utf8_join (parts : List String) : utf8 (String.join parts) = parts.flatMap utf8 := by
  have step : ∀ start : String, utf8 (parts.foldl (· ++ ·) start) =
      utf8 start ++ parts.flatMap utf8 := by
    induction parts with
    | nil => exact fun start => (List.append_nil _).symm
    | cons part parts ih =>
      intro start
      rw [List.foldl_cons, ih, utf8_append, List.append_assoc, List.flatMap_cons]
  exact (step "").trans (by rw [utf8_empty, List.nil_append])

/-! ## The file -/

namespace HeadCache

/-- The line of a head, as characters. -/
theorem line_eq (seq : UInt64) (hash : Bytes 32) :
    toString seq.toNat ++ " " ++ String.join (hash.toList.map hexByte) ++ "\n" =
      String.ofList (Nat.toDigits 10 seq.toNat ++
        ' ' :: ((String.join (hash.toList.map hexByte)).toList ++ ['\n'])) := by
  apply String.toList_inj.mp
  simp [String.toList_append]

/-- The hexadecimal digits of a hash are no white space. -/
theorem plain_hex {n : Nat} (hash : Bytes n) :
    ∀ ch ∈ (String.join (hash.toList.map hexByte)).toList, isWhitespace ch = false := by
  intro ch member
  rw [String.toList_join, List.flatMap_map] at member
  obtain ⟨b, _, inside⟩ := List.mem_flatMap.mp member
  have below := b.toNat_lt
  rw [hexByte, String.toList_ofList] at inside
  rcases List.mem_cons.mp inside with rfl | inside
  · exact isWhitespace_digitChar (by omega)
  · obtain rfl := List.mem_singleton.mp inside
    exact isWhitespace_digitChar (by omega)

/-- 32 bytes are read as themselves. -/
theorem hashOf_toList (hash : Bytes 32) : hashOf hash.toList = some hash := by
  have full : hash.toList.toArray.size = 32 := by simp
  rw [hashOf, dif_pos full, Option.some.injEq]
  exact Vector.toArray_inj.mp (Array.toArray_toList ..)

/-- A stored head is loaded. -/
theorem load_store (cache : HeadCache) (hansa : HansaId) (seq : UInt64) (hash : Bytes 32) :
    cache.load hansa (some (store seq hash)) = .ok (some (seq, hash)) := by
  have bytes : utf8 (String.join (hash.toList.map hexByte)) =
      hash.toList.flatMap fun b => utf8 (hexByte b) := by
    rw [utf8_join, List.flatMap_map]
  have length : (utf8 (String.join (hash.toList.map hexByte))).length = 64 := by
    rw [bytes, List.length_flatMap]
    simp [utf8_hexByte]
  have filled : (String.join (hash.toList.map hexByte)).toList ≠ [] := by
    intro empty
    have none_ : String.join (hash.toList.map hexByte) = "" := String.toList_eq_nil_iff.mp empty
    rw [none_] at length
    cases length
  have words : splitWhitespace (toString seq.toNat ++ " " ++
        String.join (hash.toList.map hexByte) ++ "\n") =
      [String.ofList (Nat.toDigits 10 seq.toNat), String.join (hash.toList.map hexByte)] := by
    rw [line_eq, splitWhitespace_line Nat.toDigits_ne_nil filled _ (plain_hex hash),
      String.ofList_toList]
    exact fun ch member => isWhitespace_of_isDigit
      (Nat.isDigit_of_mem_toDigits (by decide) (by decide) member)
  have parsed : parse (toString seq.toNat ++ " " ++ String.join (hash.toList.map hexByte) ++
      "\n") = .ok (some (seq, hash)) := by
    simp only [parse, words, parseU64_toDigits, length, ne_eq, not_true_eq_false, if_false]
    rw [bytes, parseHash_hex]
    simp [bind, Except.bind, hashOf_toList]
  simp only [load, store, fromUtf8_utf8, parsed]
  rfl

/-- A head is no regression when its number is larger, or when it is the same head. -/
theorem not_regressed_iff {seq seq' : UInt64} {hash hash' : Bytes 32} :
    ¬ (seq' < seq ∨ seq' = seq ∧ hash' ≠ hash) ↔ seq < seq' ∨ seq = seq' ∧ hash = hash' := by
  rw [not_or, UInt64.not_lt, not_and_not_right]
  constructor
  · rintro ⟨atLeast, same⟩
    rcases UInt64.lt_or_eq_of_le atLeast with above | equal
    · exact .inl above
    · exact .inr ⟨equal, (same equal.symm).symm⟩
  · rintro (above | ⟨rfl, rfl⟩)
    · exact ⟨UInt64.le_of_lt above, fun equal => absurd (equal ▸ above) (UInt64.lt_irrefl _)⟩
    · exact ⟨UInt64.le_refl _, fun _ => rfl⟩

/-- A head passes the cache when the file can be read, and what it holds is no later head. -/
theorem checkAndRecord_eq_ok {cache : HeadCache} {hansa : HansaId} {seq : UInt64}
    {hash : Bytes 32} {file : Option (List UInt8)} {stored : List UInt8} :
    cache.checkAndRecord hansa seq hash file = .ok stored ↔
      ∃ head, cache.load hansa file = .ok head ∧ stored = store seq hash ∧
        ∀ cached ∈ head, cached.1 < seq ∨ cached.1 = seq ∧ cached.2 = hash := by
  constructor
  · intro passes
    obtain ⟨head, loaded, compared⟩ := Except.bind_eq_ok.mp passes
    refine ⟨head, loaded, ?_⟩
    cases head with
    | none => exact ⟨(Except.ok.inj compared).symm, fun _ absent => nomatch absent⟩
    | some cached =>
      by_cases regressed : seq < cached.1 ∨ seq = cached.1 ∧ hash ≠ cached.2
      · cases (if_pos regressed).symm.trans compared
      · have stores := Except.ok.inj ((if_neg regressed).symm.trans compared)
        refine ⟨stores.symm, fun cached' isCached => ?_⟩
        obtain rfl := Option.some.inj isCached
        exact not_regressed_iff.mp regressed
  · rintro ⟨head, loaded, rfl, forward⟩
    refine Except.bind_eq_ok.mpr ⟨head, loaded, ?_⟩
    cases head with
    | none => rfl
    | some cached => exact if_neg (not_regressed_iff.mpr (forward cached rfl))

/-- Whatever head passes the cache is stored. -/
theorem eq_store_of_checkAndRecord {cache : HeadCache} {hansa : HansaId} {seq : UInt64}
    {hash : Bytes 32} {file : Option (List UInt8)} {stored : List UInt8}
    (passes : cache.checkAndRecord hansa seq hash file = .ok stored) : stored = store seq hash := by
  obtain ⟨_, -, stores, -⟩ := checkAndRecord_eq_ok.mp passes
  exact stores

/-- A later head is stored when its number is larger, or when it is the same head. -/
theorem checkAndRecord_store {cache : HeadCache} {hansa : HansaId} {seq seq' : UInt64}
    {hash hash' : Bytes 32} {file : List UInt8} :
    cache.checkAndRecord hansa seq' hash' (some (store seq hash)) = .ok file ↔
      file = store seq' hash' ∧ (seq < seq' ∨ seq = seq' ∧ hash = hash') := by
  rw [checkAndRecord_eq_ok, load_store]
  constructor
  · rintro ⟨head, loaded, stores, forward⟩
    obtain rfl := Except.ok.inj loaded
    exact ⟨stores, forward (seq, hash) rfl⟩
  · rintro ⟨stores, forward⟩
    refine ⟨some (seq, hash), rfl, stores, fun cached isCached => ?_⟩
    obtain rfl := Option.some.inj isCached
    exact forward

end HeadCache

end Hansa
