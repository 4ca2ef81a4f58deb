import Hansa.Render

/-!
# What a renderer writes besides contents

Marks, labels and numbers are made of letters, digits and a few signs: none has a line end, and
none but a list of labels has a comma or a quote. So contents are the only text of a bundle that
can.
-/

namespace Hansa

/-- A character that ends no line and no field, and is no quote. -/
def isPlain (c : Char) : Bool := c ≠ '\n' && c ≠ ',' && c ≠ '"'

/-- A text of such characters. -/
def Plain (text : List Char) : Prop := ∀ c ∈ text, isPlain c = true

instance (text : List Char) : Decidable (Plain text) :=
  List.decidableBAll (isPlain · = true) text

namespace Plain

variable {text more : List Char}

/-- A plain text has no line end. -/
theorem no_newline (plain : Plain text) : '\n' ∉ text :=
  fun member => absurd (plain _ member) (by decide)

/-- Two plain texts are one. -/
theorem append (plain : Plain text) (others : Plain more) : Plain (text ++ more) := by
  intro c member
  rcases List.mem_append.mp member with first | second
  · exact plain c first
  · exact others c second

/-- A plain character repeated. -/
theorem replicate (n : Nat) {c : Char} (plain : isPlain c = true) :
    Plain (List.replicate n c) := by
  intro d member
  rw [List.eq_of_mem_replicate member]
  exact plain

end Plain

/-! ## Digits -/

/-- Digits are plain. -/
theorem isPlain_of_isDigit {c : Char} (digit : c.isDigit = true) : isPlain c = true := by
  have bounds : '0' ≤ c ∧ c ≤ '9' := by
    rw [Char.isDigit, Bool.and_eq_true, decide_eq_true_iff, decide_eq_true_iff] at digit
    exact digit
  have other : ∀ d : Char, d.isDigit = false → c ≠ d := by
    rintro d none_ rfl
    rw [none_] at digit
    cases digit
  rw [isPlain, decide_eq_true (other '\n' (by decide)), decide_eq_true (other ',' (by decide)),
    decide_eq_true (other '"' (by decide))]
  rfl

/-- So are those of any base. -/
theorem isPlain_digitChar (n : Nat) : isPlain (Nat.digitChar n) = true := by
  by_cases small : n < 16
  · have each : ∀ d : Fin 16, isPlain (Nat.digitChar d) = true := by decide
    exact each ⟨n, small⟩
  · have star : Nat.digitChar n = '*' := by
      unfold Nat.digitChar
      repeat rw [if_neg (by omega)]
    rw [star]
    rfl

/-- A natural number is written in digits. -/
theorem plain_toDigits (n : Nat) : Plain (Nat.toDigits 10 n) :=
  fun _ member => isPlain_of_isDigit (Nat.isDigit_of_mem_toDigits (by decide) (by decide) member)

/-- A natural number is written in digits. -/
theorem toList_toString (n : Nat) : (toString n).toList = Nat.toDigits 10 n :=
  Nat.toList_repr

/-! ## Numbers -/

/-- A decimal number is plain. -/
theorem plain_decimalText (places units : Nat) : Plain (decimalText places units).toList := by
  simp only [decimalText, String.toList_append, toList_toString, String.toList_ofList]
  have point : Plain ".".toList := by decide
  exact ((plain_toDigits _).append point).append
    ((Plain.replicate _ (by decide)).append (plain_toDigits _))

/-- A sign is plain. -/
theorem plain_signText (sign : Float.Model.UnpackedFloat.Sign) :
    Plain (signText sign).toList := by
  cases sign <;> decide

/-- A signed text is plain. -/
theorem plain_signed (sign : Float.Model.UnpackedFloat.Sign) {text : String}
    (plain : Plain text.toList) : Plain (signText sign ++ text).toList := by
  rw [String.toList_append]
  exact (plain_signText sign).append plain

/-- A float is plain, also when it is no number. -/
theorem plain_unpackedText (places : Nat) (x : Float.Model.UnpackedFloat) :
    Plain (unpackedText places x).toList := by
  cases x with
  | notANumber => exact (by decide : Plain "NaN".toList)
  | infinity sign => exact plain_signed sign (by decide : Plain "inf".toList)
  | zero sign => exact plain_signed sign (plain_decimalText _ _)
  | finite sign mantissa exponent positive => exact plain_signed sign (plain_decimalText _ _)

/-- So is an `f32`. -/
theorem plain_fixedText (places : Nat) (x : Float32) : Plain (fixedText places x).toList :=
  plain_unpackedText places _

/-! ## Origins -/

/-- A mark is plain. -/
theorem isPlain_originMark (origin : HitOrigin) : isPlain (originMark origin) = true := by
  cases origin with
  | «local» => decide
  | remote tenantId =>
    rw [originMark, fromDigit]
    split
    · exact isPlain_digitChar _
    · decide

/-- A byte in hex is plain. -/
theorem plain_hexByte (b : UInt8) : Plain (hexByte b).toList := by
  rw [hexByte, String.toList_ofList]
  intro c member
  rcases List.mem_cons.mp member with rfl | second
  · exact isPlain_digitChar _
  · rw [List.mem_singleton.mp second]
    exact isPlain_digitChar _

/-- A label is plain. -/
theorem plain_originLabel (origin : HitOrigin) : Plain (originLabel origin).toList := by
  cases origin with
  | «local» => exact (by decide : Plain "LOCAL".toList)
  | remote tenantId =>
    rw [originLabel, shortId, String.toList_append, String.toList_append]
    have peer : Plain "peer-".toList := by decide
    exact peer.append ((plain_hexByte _).append (plain_hexByte _))

end Hansa
