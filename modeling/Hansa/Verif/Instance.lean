import Mathlib.Tactic.DeriveCountable
import Mathlib.Data.Countable.Basic
import Mathlib.Logic.Equiv.List
import Hansa.Verif.Canonical
import Hansa.Verif.RegistryRun

/-!
# Primitives that meet the assumptions

The development takes the cryptographic primitives and the JSON encoding as parameters and
states what it relies on as hypotheses. Here are parameters that satisfy them, so that no
theorem holds for lack of an instance: a hash that keeps every key apart and a signature that
is a mark of key and message; and a JSON encoding that writes the number of a link in unary.
-/

namespace Hansa

/-! ## Primitives -/

/-- A list cut or padded with zeros to a fixed width. -/
def toWidth (n : Nat) (bytes : List UInt8) : Bytes n := Vector.ofFn fun i => bytes.getD i 0

/-- A vector is its own bytes at its width. -/
theorem toWidth_toList {n : Nat} (v : Bytes n) : toWidth n v.toList = v := by
  ext i inside
  simp [toWidth, List.getD_eq_getElem?_getD]

/-- A hash that keeps an id's preimage, and of other bytes the sequence number and the start
of the body. -/
def sampleHash (bytes : List UInt8) : Bytes 32 :=
  if bytes.length = 43 then toWidth 32 (bytes.drop 11)
  else toWidth 32 (bytes.take 8 ++ (bytes.drop 40).take 24)

/-- A mark that shows who signed and the hash of what was signed. -/
def sampleMark (key : SkipperPub) (msg : List UInt8) : Sig :=
  ⟨toWidth 64 (key.asBytes.toList ++ (sampleHash msg).toList)⟩

/-- A development build, with primitives whose keys are the seeds themselves. -/
def sampleBuild : Build where
  profile := .dev
  blake3 := sampleHash
  verifyingKey skipper := ⟨skipper.seed⟩
  signBytes skipper msg := sampleMark ⟨skipper.seed⟩ msg
  verifyStrict key msg sig := sig = sampleMark key msg

/-- The sample signatures verify. -/
theorem sampleBuild_correct : sampleBuild.Correct := by
  intro skipper msg
  simp only [sampleBuild, decide_true]

/-- The sample id of a key is the key. -/
theorem fromSkipper_sampleBuild (key : SkipperPub) :
    HansaId.fromSkipper sampleBuild key = ⟨key.asBytes⟩ := by
  have domain : hansaIdV2Domain.length = 11 := by decide
  have whole : (hansaIdV2Domain ++ key.asBytes.toList).length = 43 := by
    rw [List.length_append, domain, Vector.length_toList]
  have dropped : (hansaIdV2Domain ++ key.asBytes.toList).drop 11 = key.asBytes.toList := by
    rw [← domain, List.drop_left]
  simp only [HansaId.fromSkipper, sampleBuild, sampleHash, if_pos whole, dropped, toWidth_toList]

/-- Sample ids keep keys apart. -/
theorem fromSkipper_sampleBuild_injective :
    Function.Injective (HansaId.fromSkipper sampleBuild) := by
  rintro ⟨a⟩ ⟨b⟩ same
  rw [fromSkipper_sampleBuild, fromSkipper_sampleBuild] at same
  exact congrArg SkipperPub.mk (HansaId.mk.inj same)

/-- The start of a statement's body, and of what follows it. -/
def Statement.bodyStart (s : Statement) : List UInt8 :=
  (s.body.encode ++ s.signedBy.asBytes.toList).take 24

/-- A list of the right length is kept at its width. -/
theorem toList_toWidth {n : Nat} {bytes : List UInt8} (width : bytes.length = n) :
    (toWidth n bytes).toList = bytes := by
  apply List.ext_getElem
  · rw [Vector.length_toList, width]
  · intro i _ inside
    simp [toWidth, List.getD_eq_getElem?_getD, inside]

/-- The sample hash of a statement is its number and the start of its body. -/
theorem toList_sampleHash (s : Statement) :
    (s.hash sampleBuild).toList = littleEndian 8 s.seq.toNat ++ s.bodyStart := by
  have long : 72 ≤ s.canonical.length := by
    rw [Statement.canonical_eq]
    simp only [List.length_append, length_littleEndian, Vector.length_toList]
    omega
  have number : s.canonical.take 8 = littleEndian 8 s.seq.toNat := by
    rw [Statement.canonical_eq, List.take_left' (length_littleEndian 8 _)]
  have start : (s.canonical.drop 40).take 24 = s.bodyStart := by
    rw [Statement.canonical_eq, ← List.append_assoc, List.drop_left' (by
      rw [List.length_append, length_littleEndian, Vector.length_toList]), Statement.bodyStart]
  have width : (s.canonical.take 8 ++ (s.canonical.drop 40).take 24).length = 32 := by
    rw [List.length_append, List.length_take, List.length_take, List.length_drop]
    omega
  have other : s.canonical.length ≠ 43 := by omega
  rw [← number, ← start, ← toList_toWidth width]
  simp only [Statement.hash, sampleBuild, sampleHash, if_neg other]

/-- Statements with different numbers have different sample hashes. -/
theorem sampleHash_ne_of_seq {s s' : Statement} (different : s.seq ≠ s'.seq) :
    s.hash sampleBuild ≠ s'.hash sampleBuild := by
  intro same
  have bytes := congrArg Vector.toList same
  rw [toList_sampleHash, toList_sampleHash] at bytes
  have numbers := List.append_inj_left bytes (by simp)
  exact different (UInt64.toNat_inj.mp ((littleEndian_selfDelimiting 8).injective
    s.seq.toNat_lt s'.seq.toNat_lt numbers))

/-- Statements whose bodies start differently have different sample hashes. -/
theorem sampleHash_ne_of_bodyStart {s s' : Statement} (different : s.bodyStart ≠ s'.bodyStart) :
    s.hash sampleBuild ≠ s'.hash sampleBuild := by
  intro same
  have bytes := congrArg Vector.toList same
  rw [toList_sampleHash, toList_sampleHash] at bytes
  exact different (List.append_inj_right bytes (by simp))

/-! ## Links can be numbered -/

/-- There are countably many bytes. -/
instance countableUInt8 : Countable UInt8 :=
  Function.Injective.countable (f := UInt8.toNat) fun _ _ => UInt8.toNat_inj.mp

/-- There are countably many 32-bit words. -/
instance countableUInt32 : Countable UInt32 :=
  Function.Injective.countable (f := UInt32.toNat) fun _ _ => UInt32.toNat_inj.mp

/-- There are countably many 64-bit words. -/
instance countableUInt64 : Countable UInt64 :=
  Function.Injective.countable (f := UInt64.toNat) fun _ _ => UInt64.toNat_inj.mp

/-- There are countably many signed 64-bit words. -/
instance countableInt64 : Countable Int64 :=
  Function.Injective.countable (f := Int64.toInt) fun _ _ => Int64.toInt_inj.mp

/-- There are countably many byte strings of a width. -/
instance countableBytes (n : Nat) : Countable (Bytes n) :=
  Function.Injective.countable (f := Vector.toList) fun _ _ => Vector.toList_inj.mp

/-- There are countably many strings. -/
instance countableString : Countable String := Function.Injective.countable utf8_injective

deriving instance Countable for SkipperPub
deriving instance Countable for Sig
deriving instance Countable for HansaId
deriving instance Countable for TenantId
deriving instance Countable for PathBuf
deriving instance Countable for TenantLocation
deriving instance Countable for MemberRecord
deriving instance Countable for Genesis
deriving instance Countable for Body
deriving instance Countable for Statement
deriving instance Countable for Link

/-- A number for every link. -/
noncomputable def linkNumber : Link → Nat := (exists_injective_nat Link).choose

/-- Links with one number are equal. -/
theorem linkNumber_injective : Function.Injective linkNumber :=
  (exists_injective_nat Link).choose_spec

/-! ## Bytes of characters -/

/-- The characters of a string of JSON white space. -/
theorem jsonSpace_chars {blank : String} (spaces : ∀ b ∈ utf8 blank, isJsonSpace b) :
    ∀ ch ∈ blank.toList, ch.toNat ∈ [32, 9, 10, 13] := by
  intro ch member
  obtain ⟨b, head⟩ := List.exists_mem_of_ne_nil _ (String.utf8EncodeChar_ne_nil (c := ch))
  have space := spaces b (by
    rw [utf8_eq_flatMap, List.mem_flatMap]
    exact ⟨ch, member, head⟩)
  have values : b.toNat ∈ [32, 9, 10, 13] := by
    simp only [isJsonSpace, List.mem_cons, List.not_mem_nil, or_false, decide_eq_true_eq] at space
    rcases space with rfl | rfl | rfl | rfl <;> decide
  have ascii : b.toNat < 128 := by
    simp only [List.mem_cons, List.not_mem_nil, or_false] at values
    omega
  rw [char_of_ascii_byte head ascii]
  exact values

/-- A byte below 128 of a string is one of its characters. -/
theorem exists_char_of_byte {s : String} {b : UInt8} (member : b ∈ utf8 s)
    (ascii : b.toNat < 128) : ∃ ch ∈ s.toList, ch.toNat = b.toNat := by
  rw [utf8_eq_flatMap, List.mem_flatMap] at member
  obtain ⟨ch, inside, byte⟩ := member
  exact ⟨ch, inside, char_of_ascii_byte byte ascii⟩

/-! ## Links in unary -/

/-- The object that stands for a link. -/
noncomputable def linkText (link : Link) : String :=
  "\x7b" ++ String.ofList (List.replicate (linkNumber link) '1') ++ "\x7d"

/-- The characters of the object. -/
theorem toList_linkText (link : Link) :
    (linkText link).toList = '{' :: (List.replicate (linkNumber link) '1' ++ ['}']) := by
  simp [linkText, String.toList_append]

/-- What a text behind white space stands for. -/
def Denotes (text : String) (link : Link) : Prop :=
  link.IsUtf8 ∧ ∃ blank, (∀ b ∈ utf8 blank, isJsonSpace b) ∧ text = blank ++ linkText link

open Classical in
/-- An encoding of links as unary numbers in braces. -/
noncomputable def sampleJson : LinkJson where
  toString link :=
    if link.IsUtf8 then .ok (linkText link) else .error "path contains invalid UTF-8 characters"
  fromStr text :=
    if denoted : ∃ link, Denotes text link then .ok denoted.choose else .error "expected a link"

/-- What stands before the first brace, and what follows it. -/
theorem append_brace_cancel {a b : String} {s t : List Char}
    (first : ∀ ch ∈ a.toList, ch ≠ '{') (second : ∀ ch ∈ b.toList, ch ≠ '{')
    (same : a.toList ++ '{' :: s = b.toList ++ '{' :: t) : a = b ∧ s = t := by
  have cut : ∀ {l : List Char} (rest : List Char), (∀ ch ∈ l, ch ≠ '{') →
      (l ++ '{' :: rest).span (· ≠ '{') = (l, '{' :: rest) := by
    intro l rest plain
    have all : ∀ ch ∈ l, decide (ch ≠ '{') = true := by simpa using plain
    rw [List.span_eq_takeWhile_dropWhile, List.takeWhile_append_of_pos all,
      List.dropWhile_append_of_pos all]
    simp
  have parts := congrArg (List.span (· ≠ '{')) same
  rw [cut s first, cut t second] at parts
  obtain ⟨before, after⟩ := Prod.mk.inj parts
  exact ⟨String.toList_inj.mp before, (List.cons.inj after).2⟩

/-- White space has no brace. -/
theorem jsonSpace_ne_brace {blank : String} (spaces : ∀ b ∈ utf8 blank, isJsonSpace b) :
    ∀ ch ∈ blank.toList, ch ≠ '{' := by
  rintro ch member rfl
  exact absurd (jsonSpace_chars spaces '{' member) (by decide)

/-- A text stands for one link at most. -/
theorem Denotes.unique {text : String} {link link' : Link} (first : Denotes text link)
    (second : Denotes text link') : link = link' := by
  obtain ⟨-, blank, spaces, rfl⟩ := first
  obtain ⟨-, blank', spaces', same⟩ := second
  have chars := congrArg String.toList same
  rw [String.toList_append, String.toList_append, toList_linkText, toList_linkText] at chars
  have units :=
    (append_brace_cancel (jsonSpace_ne_brace spaces) (jsonSpace_ne_brace spaces') chars).2
  have lengths := congrArg List.length units
  simp only [List.length_append, List.length_replicate, List.length_singleton] at lengths
  exact linkNumber_injective (by omega)

/-- The sample parser reads what a text stands for. -/
theorem sampleJson_fromStr {text : String} {link : Link} :
    sampleJson.fromStr text = .ok link ↔ Denotes text link := by
  simp only [sampleJson]
  constructor
  · intro read
    split at read
    · rename_i denoted
      obtain rfl := Except.ok.inj read
      exact denoted.choose_spec
    · cases read
  · intro denotes
    have denoted : ∃ link, Denotes text link := ⟨link, denotes⟩
    rw [dif_pos denoted, denoted.choose_spec.unique denotes]

/-- A text that stands for nothing is an error. -/
theorem sampleJson_refuses {text : String} (nothing : ∀ link, ¬ Denotes text link) :
    ∃ e, sampleJson.fromStr text = .error e := by
  cases read : sampleJson.fromStr text with
  | error e => exact ⟨e, rfl⟩
  | ok link => exact absurd (sampleJson_fromStr.mp read) (nothing link)

/-- The sample encoder writes the object of a link that has valid paths. -/
theorem sampleJson_toString {link : Link} {text : String} :
    sampleJson.toString link = .ok text ↔ link.IsUtf8 ∧ text = linkText link := by
  simp only [sampleJson]
  split
  · rename_i valid
    simp [valid, eq_comm]
  · rename_i invalid
    simp [invalid]

/-- The sample encoding is lawful. -/
theorem sampleJson_lawful : sampleJson.Lawful where
  encodes link valid := ⟨_, sampleJson_toString.mpr ⟨valid, rfl⟩⟩
  refuses link invalid := by
    simp only [sampleJson, if_neg invalid]
    exact ⟨_, rfl⟩
  object link text encoded := ⟨_, (sampleJson_toString.mp encoded).2⟩
  oneLine link text encoded newline := by
    obtain ⟨-, rfl⟩ := sampleJson_toString.mp encoded
    obtain ⟨ch, member, value⟩ := exists_char_of_byte newline (by decide)
    rw [toList_linkText] at member
    have plain : ch = '{' ∨ ch = '1' ∨ ch = '}' := by
      simp only [List.mem_cons, List.mem_append, List.mem_replicate, List.not_mem_nil,
        or_false] at member
      tauto
    rcases plain with rfl | rfl | rfl <;> exact absurd value (by decide)
  roundTrip blank link text spaces encoded := by
    obtain ⟨valid, rfl⟩ := sampleJson_toString.mp encoded
    exact sampleJson_fromStr.mpr ⟨valid, blank, spaces, rfl⟩
  strictSpace blank link text white other encoded := by
    obtain ⟨-, rfl⟩ := sampleJson_toString.mp encoded
    refine sampleJson_refuses ?_
    rintro link' ⟨-, blank', spaces, same⟩
    have chars := congrArg String.toList same
    rw [String.toList_append, String.toList_append, toList_linkText, toList_linkText] at chars
    have plain : ∀ ch ∈ blank.toList, ch ≠ '{' := by
      rintro ch member rfl
      exact absurd (List.all_eq_true.mp white '{' member) (by decide)
    obtain ⟨rfl, -⟩ := append_brace_cancel plain (jsonSpace_ne_brace spaces) chars
    obtain ⟨b, member, unspaced⟩ := other
    exact unspaced (spaces b member)
  trailing first link link' text read encoded := by
    obtain ⟨-, rfl⟩ := sampleJson_toString.mp encoded
    obtain ⟨-, blank, spaces, rfl⟩ := sampleJson_fromStr.mp read
    refine sampleJson_refuses ?_
    rintro link'' ⟨-, blank', spaces', same⟩
    have chars := congrArg String.toList same
    simp only [String.toList_append, toList_linkText, List.append_assoc, List.cons_append] at chars
    obtain ⟨-, rest⟩ :=
      append_brace_cancel (jsonSpace_ne_brace spaces) (jsonSpace_ne_brace spaces') chars
    have brace : '{' ∈ List.replicate (linkNumber link'') '1' ++ ['}'] := by
      rw [← rest]
      simp
    simp at brace
  utf8 text link read := (sampleJson_fromStr.mp read).1

/-! ## A founded hansa -/

/-- Skippers told apart by one byte. -/
def sampleSkipper (n : UInt8) : Skipper := ⟨Vector.replicate 32 n⟩

/-- Tenants told apart by one byte. -/
def sampleTenant (n : UInt8) : TenantId := ⟨Vector.replicate 16 n⟩

/-- Members told apart by one byte. -/
def sampleMember (n : UInt8) : MemberRecord :=
  { tenantId := sampleTenant n, tenantLocation := .http "" none, embeddingDim := 3, joinedAt := 0 }

/-- The id of a sample skipper. -/
def sampleId (n : UInt8) : HansaId := .fromSkipper sampleBuild ((sampleSkipper n).pub sampleBuild)

/-- A directory of which a skipper founded the hansa. -/
noncomputable def sampleDir (n : UInt8) : HansaDir :=
  HansaDir.initial.append (genesisLink sampleBuild (sampleSkipper n) 3 0)
    (linkText (genesisLink sampleBuild (sampleSkipper n) 3 0))

/-- The founded directory reads as its genesis, wherever it is. -/
theorem readLog_sampleDir (n : UInt8) (path : PathBuf) :
    readLog sampleJson path (sampleDir n).log =
      .ok [genesisLink sampleBuild (sampleSkipper n) 3 0] :=
  readLog_single sampleJson_lawful path (sampleJson_toString.mpr ⟨trivial, rfl⟩)

end Hansa
