import Hansa.Key
import Hansa.Verif.HeadFile

/-!
# Keys read back

The text that the file keystore writes for a key is loaded as the key.
-/

namespace Hansa

/-- A text without white space at its ends is not trimmed. -/
theorem trim_eq {text : String} (plain : ∀ ch ∈ text.toList, isWhitespace ch = false) :
    trim text = text := by
  have kept : ∀ chars : List Char, (∀ ch ∈ chars, isWhitespace ch = false) →
      chars.dropWhile isWhitespace = chars := by
    intro chars none_
    cases chars with
    | nil => rfl
    | cons ch chars =>
      rw [List.dropWhile_cons_of_neg]
      rw [none_ ch List.mem_cons_self]
      exact Bool.false_ne_true
  rw [trim, kept _ plain, kept _ (fun ch member => plain ch (List.mem_reverse.mp member)),
    List.reverse_reverse, String.ofList_toList]

namespace FileKeystore

/-- The digits of a byte are decoded to the byte. -/
theorem hexNibble_hexDigitByte (b : UInt8) : ∃ high low,
    hexNibble (hexDigitByte (b.toNat / 16)) = .ok high ∧
      hexNibble (hexDigitByte (b.toNat % 16)) = .ok low ∧ ((high <<< 4) ||| low) = b := by
  have each : ∀ n : Fin 256,
      hexDigit (hexDigitByte ((UInt8.ofNat n).toNat / 16)) =
          some (UInt8.ofNat ((UInt8.ofNat n).toNat / 16)) ∧
        hexDigit (hexDigitByte ((UInt8.ofNat n).toNat % 16)) =
          some (UInt8.ofNat ((UInt8.ofNat n).toNat % 16)) ∧
        ((UInt8.ofNat ((UInt8.ofNat n).toNat / 16) <<< 4) |||
          UInt8.ofNat ((UInt8.ofNat n).toNat % 16)) = UInt8.ofNat n := by
    decide +kernel
  have same := each ⟨b.toNat, b.toNat_lt⟩
  rw [UInt8.ofNat_toNat] at same
  obtain ⟨high, low, whole⟩ := same
  exact ⟨_, _, by rw [hexNibble, high], by rw [hexNibble, low], whole⟩

/-- Encoded bytes are decoded. -/
theorem decodePairs_hex (bytes : List UInt8) :
    decodePairs (bytes.flatMap fun b => utf8 (hexByte b)) = .ok bytes := by
  induction bytes with
  | nil => rfl
  | cons b bytes ih =>
    obtain ⟨high, low, isHigh, isLow, whole⟩ := hexNibble_hexDigitByte b
    rw [List.flatMap_cons, utf8_hexByte]
    show decodePairs (_ :: _ :: bytes.flatMap fun b => utf8 (hexByte b)) = _
    simp only [decodePairs, isHigh, isLow, ih, bind, Except.bind, whole]

/-- A stored key is loaded, whatever its slot. -/
theorem load_content (slot : String) (key : HansaKey) :
    load slot (some (utf8 (content key))) = .ok key := by
  have bytes : utf8 (content key) = key.bytes.toList.flatMap fun b => utf8 (hexByte b) := by
    rw [content, encodeHex, utf8_join, List.flatMap_map]
  have even : (utf8 (content key)).length % 2 = 0 := by
    rw [bytes, List.length_flatMap]
    simp [utf8_hexByte]
  have decoded : decodeHex (content key) = .ok key.bytes.toList := by
    rw [decodeHex, if_neg (by simp [even]), bytes, decodePairs_hex]
  have plain : trim (content key) = content key := trim_eq (HeadCache.plain_hex key.bytes)
  simp only [load, fromUtf8_utf8, plain, decoded, bind, Except.bind, HansaKey.fromSlice,
    HeadCache.hashOf_toList]

end FileKeystore

end Hansa
