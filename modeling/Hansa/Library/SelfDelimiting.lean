import Mathlib.Data.List.Basic
import Mathlib.Algebra.Order.Ring.Nat

/-!
# Self-delimiting encodings

An encoding is self-delimiting on a domain when its output, followed by anything, determines
both the value and what follows. Fields written one after another are then read apart one
after another, so a record is unambiguous as soon as each of its fields is. The domain
carries the bounds under which a field keeps this: a length that fits its prefix, say.
-/

/-- On `domain`, an output followed by anything determines the value and what follows. -/
def SelfDelimiting {α σ : Type*} (domain : α → Prop) (encode : α → List σ) : Prop :=
  ∀ ⦃a b : α⦄ ⦃s t : List σ⦄, domain a → domain b → encode a ++ s = encode b ++ t → a = b ∧ s = t

namespace SelfDelimiting

variable {α β σ : Type*} {domain : α → Prop} {encode : α → List σ}

/-- A self-delimiting encoding is injective on its domain. -/
theorem injective (delimited : SelfDelimiting domain encode) {a b : α} (ha : domain a)
    (hb : domain b) (same : encode a = encode b) : a = b :=
  (@delimited a b [] [] ha hb (by rw [same])).1

/-- An injective encoding of constant width is self-delimiting. -/
theorem of_width (width : Nat) (constant : ∀ a, (encode a).length = width)
    (injective : ∀ a b, domain a → domain b → encode a = encode b → a = b) :
    SelfDelimiting domain encode := by
  intro a b s t ha hb same
  obtain ⟨front, rest⟩ := List.append_inj same (by rw [constant, constant])
  exact ⟨injective a b ha hb front, rest⟩

/-- A header of constant width in front of a self-delimiting body needs no law of its own. -/
theorem after_header (delimited : SelfDelimiting domain encode) (header : α → List σ) {width : Nat}
    (constant : ∀ a, (header a).length = width) :
    SelfDelimiting domain (fun a => header a ++ encode a) := by
  intro a b s t ha hb same
  simp only [List.append_assoc] at same
  exact delimited ha hb (List.append_inj same (by rw [constant, constant])).2

/-- Elements written one after another are read apart when their number is known. -/
theorem flatMap (delimited : SelfDelimiting domain encode) :
    ∀ {xs ys : List α} {s t : List σ}, xs.length = ys.length → (∀ x ∈ xs, domain x) →
      (∀ y ∈ ys, domain y) → xs.flatMap encode ++ s = ys.flatMap encode ++ t → xs = ys ∧ s = t
  | [], [], _, _, _, _, _, same => ⟨rfl, by simpa using same⟩
  | x :: xs, y :: ys, s, t, size, hx, hy, same => by
    simp only [List.flatMap_cons, List.append_assoc] at same
    obtain ⟨rfl, rest⟩ := delimited (hx x List.mem_cons_self) (hy y List.mem_cons_self) same
    obtain ⟨rfl, rfl⟩ := flatMap delimited (by simpa using size)
      (fun x hx' => hx x (List.mem_cons_of_mem _ hx'))
      (fun y hy' => hy y (List.mem_cons_of_mem _ hy')) rest
    exact ⟨rfl, rfl⟩

/-- A list written after its own length is self-delimiting. -/
theorem counted (delimited : SelfDelimiting domain encode) {fits : Nat → Prop}
    {count : Nat → List σ} (counts : SelfDelimiting fits count) :
    SelfDelimiting (fun xs : List α => fits xs.length ∧ ∀ x ∈ xs, domain x)
      (fun xs => count xs.length ++ xs.flatMap encode) := by
  intro xs ys s t hx hy same
  simp only [List.append_assoc] at same
  obtain ⟨size, rest⟩ := counts hx.1 hy.1 same
  exact flatMap delimited size hx.2 hy.2 rest

/-- A string of symbols written after its own length is self-delimiting. -/
theorem prefixed {fits : Nat → Prop} {count : Nat → List σ} (counts : SelfDelimiting fits count) :
    SelfDelimiting (fun xs : List σ => fits xs.length) (fun xs => count xs.length ++ xs) := by
  intro xs ys s t hx hy same
  simp only [List.append_assoc] at same
  obtain ⟨size, rest⟩ := counts hx hy same
  exact List.append_inj rest size

/-- An optional value behind one of two distinct tags is self-delimiting. -/
theorem option (delimited : SelfDelimiting domain encode) {absent present : σ}
    (distinct : absent ≠ present) :
    SelfDelimiting (fun value : Option α => ∀ a ∈ value, domain a)
      (fun value => value.elim [absent] (fun a => present :: encode a)) := by
  intro a b s t ha hb same
  cases a with
  | none =>
    cases b with
    | none => exact ⟨rfl, by simpa using same⟩
    | some b => exact absurd (List.cons.inj same).1 distinct
  | some a =>
    cases b with
    | none => exact absurd (List.cons.inj same).1 distinct.symm
    | some b =>
      obtain ⟨rfl, rest⟩ := delimited (ha a rfl) (hb b rfl) (List.cons.inj same).2
      exact ⟨rfl, rest⟩

/-- Two self-delimiting fields in order. -/
theorem pair {domain' : β → Prop} {encode' : β → List σ} (first : SelfDelimiting domain encode)
    (second : SelfDelimiting domain' encode') :
    SelfDelimiting (fun p : α × β => domain p.1 ∧ domain' p.2)
      (fun p => encode p.1 ++ encode' p.2) := by
  intro p q s t hp hq same
  simp only [List.append_assoc] at same
  obtain ⟨left, rest⟩ := first hp.1 hq.1 same
  obtain ⟨right, tail⟩ := second hp.2 hq.2 rest
  exact ⟨Prod.ext left right, tail⟩

/-- Reading a value through an injective view keeps self-delimitation. -/
theorem comap (delimited : SelfDelimiting domain encode) {view : β → α}
    (injective : ∀ a b, domain (view a) → domain (view b) → view a = view b → a = b) :
    SelfDelimiting (fun b => domain (view b)) (fun b => encode (view b)) := by
  intro a b s t ha hb same
  obtain ⟨same, rest⟩ := delimited ha hb same
  exact ⟨injective a b ha hb same, rest⟩

end SelfDelimiting

/-- The `width` base-256 digits of a natural, least significant first. -/
def littleEndian : Nat → Nat → List UInt8
  | 0, _ => []
  | width + 1, value => UInt8.ofNat value :: littleEndian width (value / 256)

/-- Every word has its declared width. -/
@[simp] theorem length_littleEndian (width value : Nat) :
    (littleEndian width value).length = width := by
  induction width generalizing value with
  | zero => rfl
  | succ width ih => simp [littleEndian, ih]

/-- Words of one width are self-delimiting on the values that fit the width. -/
theorem littleEndian_selfDelimiting (width : Nat) :
    SelfDelimiting (· < 256 ^ width) (littleEndian width) := by
  refine SelfDelimiting.of_width width (length_littleEndian width) ?_
  induction width with
  | zero =>
    intro a b ha hb _
    simp only [pow_zero] at ha hb
    omega
  | succ width ih =>
    intro a b ha hb same
    simp only [pow_succ] at ha hb
    obtain ⟨digit, rest⟩ := List.cons.inj same
    have low : a % 256 = b % 256 := by
      simpa [UInt8.toNat_ofNat'] using congrArg UInt8.toNat digit
    have high : a / 256 = b / 256 :=
      ih _ _ (Nat.div_lt_of_lt_mul (by omega)) (Nat.div_lt_of_lt_mul (by omega)) rest
    omega

/-! ## Without a delimiter -/

/-- The boundary between two strings can move: what one pair has at the end of its first string,
the other has at the start of its second one. -/
def BoundaryMoves {σ : Type*} (first second first' second' : List σ) : Prop :=
  ∃ moved, moved ≠ [] ∧
    (first' = first ++ moved ∧ second = moved ++ second' ∨
      first = first' ++ moved ∧ second' = moved ++ second)

/-- Two strings written one after the other are read apart unless the boundary can move. -/
theorem append_pair_iff {σ : Type*} {first second first' second' : List σ} :
    (first ++ second = first' ++ second' → first = first' ∧ second = second') ↔
      ¬ BoundaryMoves first second first' second' := by
  constructor
  · rintro apart ⟨moved, some_, ⟨rfl, rfl⟩ | ⟨rfl, rfl⟩⟩
    · have same := (apart (List.append_assoc _ _ _).symm).1
      exact some_ (List.self_eq_append_right.mp same)
    · have same := (apart (List.append_assoc _ _ _)).1
      exact some_ (List.append_right_eq_self.mp same)
  · intro fixed same
    rcases List.append_eq_append_iff.mp same with ⟨moved, longer, rest⟩ | ⟨moved, longer, rest⟩
    · have none_ : moved = [] :=
        not_not.mp fun some_ => fixed ⟨moved, some_, .inl ⟨longer, rest⟩⟩
      rw [none_, List.append_nil] at longer
      rw [none_, List.nil_append] at rest
      exact ⟨longer.symm, rest⟩
    · have none_ : moved = [] :=
        not_not.mp fun some_ => fixed ⟨moved, some_, .inr ⟨longer, rest⟩⟩
      rw [none_, List.append_nil] at longer
      rw [none_, List.nil_append] at rest
      exact ⟨longer, rest.symm⟩
