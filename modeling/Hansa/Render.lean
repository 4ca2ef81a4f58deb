import Hansa.Context

/-!
# Rendering a bundle

A bundle is rendered as text for a prompt: as markdown, with a header and the quoted content of
each item, in a compact form of one line an item, or as TOON, a table of rows whose fields are
quoted where they have to be. Items are marked by where they came from. Contents are any text,
and only the markdown form splits them at their line ends.
-/

namespace Hansa

/-! ## Numbers -/

/-- The nearest natural number to a quotient; halves go to the even one. -/
def roundHalfEven (n d : Nat) : Nat :=
  let q := n / d
  let r := n % d
  if d < 2 * r || 2 * r = d && q % 2 = 1 then q + 1 else q

/-- A number of units in the last of some decimal places. -/
def decimalText (places units : Nat) : String :=
  let fraction := Nat.toDigits 10 (units % 10 ^ places)
  toString (units / 10 ^ places) ++ "." ++
    String.ofList (List.replicate (places - fraction.length) '0' ++ fraction)

/-- The sign of a number in front of its digits. -/
def signText : Float.Model.UnpackedFloat.Sign → String
  | .positive => ""
  | .negative => "-"

/-- A float with some decimal places, of which there is at least one. -/
def unpackedText (places : Nat) : Float.Model.UnpackedFloat → String
  | .notANumber => "NaN"
  | .infinity sign => signText sign ++ "inf"
  | .zero sign => signText sign ++ decimalText places 0
  | .finite sign mantissa exponent _ =>
    signText sign ++ decimalText places (roundHalfEven
      (mantissa * 10 ^ places * 2 ^ exponent.toNat) (2 ^ (-exponent).toNat))

/-- The format `{:.n}` of an `f32`: exact, and rounded once. -/
def fixedText (places : Nat) (x : Float32) : String := unpackedText places x.toModel.unpack

/-! ## Lines -/

/-- `split_inclusive('\n')`, as pieces without their newline and whether they had one. -/
def splitInclusive : List Char → List (List Char × Bool)
  | [] => []
  | c :: rest =>
    if c = '\n' then ([], true) :: splitInclusive rest
    else match splitInclusive rest with
      | [] => [([c], false)]
      | (line, ended) :: lines => (c :: line, ended) :: lines

/-- What `str::lines` yields of a piece: a carriage return goes with its newline. -/
def lineText (piece : List Char × Bool) : String :=
  String.ofList
    (if piece.2 ∧ piece.1.getLast? = some '\r' then piece.1.dropLast else piece.1)

/-- `str::lines`. -/
def strLines (text : String) : List String := (splitInclusive text.toList).map lineText

/-! ## Origins -/

/-- `char::from_digit` in base 16. -/
def fromDigit (d : Nat) : Option Char := if d < 16 then some (Nat.digitChar d) else none

/-- `short_id`. -/
def shortId (id : TenantId) : String := hexByte id.bytes[0] ++ hexByte id.bytes[1]

/-- `origin_label`. -/
def originLabel : HitOrigin → String
  | .local => "LOCAL"
  | .remote tenantId => "peer-" ++ shortId tenantId

/-- The mark of an origin: a letter for the own tenant, the high digit of the id for a peer. -/
def originMark : HitOrigin → Char
  | .local => 'L'
  | .remote tenantId => (fromDigit (tenantId.bytes[0] >>> 4).toNat).getD '?'

namespace ContextItem

variable {F : Type} (item : ContextItem F)

/-- `ContextItem::origin_label`. -/
def originLabel : String := Hansa.originLabel item.origin

/-- `ContextItem::sources_label`. -/
def sourcesLabel : String :=
  match item.sources with
  | first :: other :: rest =>
    Hansa.originLabel first ++ " + " ++ ", ".intercalate ((other :: rest).map Hansa.originLabel)
  | _ => item.originLabel

end ContextItem

/-! ## Renderers -/

/-- `csv_field`. -/
def csvField (s : String) : String :=
  if s.toList.contains ',' || s.toList.contains '"' || s.toList.contains '\n' then
    "\"" ++ String.ofList (s.toList.flatMap fun c => if c = '"' then ['"', '"'] else [c]) ++ "\""
  else s

/-- The header of an item in markdown. -/
def markdownHeader (item : ContextItem Float32) : String :=
  let sourcesPart :=
    if 1 < item.sources.length then ", " ++ toString item.sources.length ++ " sources" else ""
  "### " ++ item.sourcesLabel ++ " (sim=" ++ fixedText 3 item.similarity ++ ", ~" ++
    toString item.tokens.toNat ++ " tokens" ++ sourcesPart ++ ")"

namespace ContextBundle

variable {F : Type}

/-- `ContextBundle::render_markdown`. -/
def renderMarkdown (bundle : ContextBundle Float32) : String :=
  String.join (bundle.items.map fun item =>
    markdownHeader item ++ "\n\n" ++
      String.join ((strLines item.content).map fun line => "> " ++ line ++ "\n") ++ "\n")

/-- `ContextBundle::render_compact`. -/
def renderCompact (bundle : ContextBundle F) : String :=
  String.join (bundle.items.map fun item =>
    "[" ++ String.singleton (originMark item.origin) ++ "] " ++ item.content ++ "\n")

/-- `ContextBundle::render_toon`. -/
def renderToon (bundle : ContextBundle Float32) : String :=
  "items[" ++ toString bundle.items.length ++ "]:\n" ++ "  src,sim,text\n" ++
    String.join (bundle.items.map fun item =>
      "  " ++ String.singleton (originMark item.origin) ++ "," ++ fixedText 2 item.similarity ++
        "," ++ csvField item.content ++ "\n")

end ContextBundle

end Hansa
