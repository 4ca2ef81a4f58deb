import Hansa.Registry

/-!
# The head cache

A returning member remembers the head of the chain it last verified, a sequence number and a
hash, in one line of text outside the registry. The next open refuses a head with a smaller
number, or with the same number and another hash; any head with a larger number replaces it.
The text is read back by splitting at white space, so a slice of the second word that starts
or ends inside a character panics.
-/

namespace Hansa

/-- The first words of a text, `str::split_whitespace`. -/
def splitWhitespace (text : String) : List String :=
  ((text.toList.splitOnP isWhitespace).filter (· ≠ [])).map String.ofList

/-- `str::parse::<u64>`: decimal digits behind an optional plus sign. -/
def parseU64 (text : String) : Option UInt64 :=
  let digits := match text.toList with
    | '+' :: rest => rest
    | chars => chars
  if digits ≠ [] ∧ digits.all Char.isDigit then
    let n := Nat.ofDigitChars 10 digits 0
    if n < 2 ^ 64 then some (UInt64.ofNat n) else none
  else none

/-- `char::to_digit(16)` of an ASCII byte. -/
def hexDigit (b : UInt8) : Option UInt8 :=
  if 48 ≤ b ∧ b ≤ 57 then some (b - 48)
  else if 97 ≤ b ∧ b ≤ 102 then some (b - 87)
  else if 65 ≤ b ∧ b ≤ 70 then some (b - 55)
  else none

/-- `u8::from_str_radix(_, 16)` on two bytes: a plus sign may stand for the first digit. -/
def fromStrRadix16 (a b : UInt8) : Option UInt8 :=
  if a = 43 then hexDigit b
  else do
    let high ← hexDigit a
    let low ← hexDigit b
    some (high * 16 + low)

/-- The loop of `HeadCache::load` over the pairs of the second word. A slice that ends inside a
character panics; a pair that is no number ends the parse. -/
def parseHash : List UInt8 → Result (Option (List UInt8))
  | a :: b :: rest =>
    if rest.head?.any isContinuation then .error .panic
    else match fromStrRadix16 a b with
      | none => .ok none
      | some x => do
        let xs ← parseHash rest
        .ok (xs.map (x :: ·))
  | _ => .ok (some [])

/-- `HeadCache`: the directory of last verified heads. -/
structure HeadCache where
  /-- The directory. -/
  dir : PathBuf

namespace HeadCache

/-- `HeadCache::path`. -/
def path (cache : HeadCache) (hansa : HansaId) : PathBuf := cache.dir.join (hansa.asHex ++ ".head")

/-- The bytes of a hash, if there are 32 of them. -/
def hashOf (bytes : List UInt8) : Option (Bytes 32) :=
  if full : bytes.toArray.size = 32 then some ⟨bytes.toArray, full⟩ else none

/-- The closure `parse` of `HeadCache::load`. -/
def parse (text : String) : Result (Option (UInt64 × Bytes 32)) :=
  match splitWhitespace text with
  | first :: rest =>
    match parseU64 first, rest with
    | some seq, hex :: _ =>
      if (utf8 hex).length ≠ 64 then .ok none
      else do
        let hash ← parseHash (utf8 hex)
        .ok ((hash.bind hashOf).map (seq, ·))
    | _, _ => .ok none
  | [] => .ok none

/-- `HeadCache::load`, on the content of the file. -/
def load (cache : HeadCache) (hansa : HansaId) (file : Option (List UInt8)) :
    Result (Option (UInt64 × Bytes 32)) :=
  match file with
  | none => .ok none
  | some bytes =>
    match fromUtf8 bytes with
    | none => fail (.io "stream did not contain valid UTF-8")
    | some text => do
      match ← parse text with
      | some head => .ok (some head)
      | none => fail (.registryMalformed ("head cache " ++ (cache.path hansa).toStringLossy))

/-- The content that `HeadCache::store` writes. -/
def store (seq : UInt64) (hash : Bytes 32) : List UInt8 :=
  utf8 (toString seq.toNat ++ " " ++ String.join (hash.toList.map hexByte) ++ "\n")

/-- `HeadCache::check_and_record`: the content of the file afterwards. -/
def checkAndRecord (cache : HeadCache) (hansa : HansaId) (seq : UInt64) (hash : Bytes 32)
    (file : Option (List UInt8)) : Result (List UInt8) := do
  match ← cache.load hansa file with
  | none => .ok (store seq hash)
  | some (cseq, chash) =>
    if seq < cseq ∨ seq = cseq ∧ hash ≠ chash then fail .chainRegressed
    else .ok (store seq hash)

end HeadCache

end Hansa
