import Hansa.Key
import Hansa.Membrane

/-!
# Context assembly

Hits of a membrane query become a bundle in three phases. The filter drops hits below a
threshold and up to three kinds of duplicates: payloads with the key of an earlier item,
sentences with the key of an earlier sentence, and embeddings near that of an earlier item. The
origin of a dropped duplicate is added to the item it duplicates. The items that are left are
ranked by a score, and put into the bundle while the budgets last.
-/

namespace Hansa

/-! ## Text -/

/-- `String::from_utf8_lossy`. -/
def fromUtf8Lossy (bytes : List UInt8) : String :=
  (fromUtf8 bytes).getD (lossyChunks bytes.length bytes)

/-- `str::trim_end`. -/
def trimEnd (text : String) : String :=
  String.ofList (text.toList.reverse.dropWhile isWhitespace).reverse

/-- What context assembly uses of other code. -/
structure ContextEnv where
  /-- The build. -/
  profile : Profile
  /-- The implementation of `sort_by`. -/
  sort : StdSort
  /-- `blake3::hash`, among the primitives. -/
  crypto : Crypto
  /-- `char::to_lowercase`, from the tables of Unicode. -/
  toLowercase : Char → List Char

/-- The loop of `blake3_normalised`: letters in lower case, white space as single spaces. -/
def normaliseLoop (toLowercase : Char → List Char) (prevSpace : Bool) (normalised : List Char) :
    List Char → List Char
  | [] => normalised
  | c :: rest =>
    if isWhitespace c then
      normaliseLoop toLowercase true
        (if !prevSpace && !normalised.isEmpty then normalised ++ [' '] else normalised) rest
    else normaliseLoop toLowercase false (normalised ++ toLowercase c) rest

/-- `blake3_normalised`: the key under which texts count as the same. -/
def ContextEnv.key (env : ContextEnv) (content : String) : Bytes 32 :=
  env.crypto.blake3
    (utf8 (trimEnd (String.ofList (normaliseLoop env.toLowercase false [] content.toList))))

/-- The characters that end a sentence. -/
def isSentenceEnd (c : Char) : Bool := c = '.' || c = '!' || c = '?'

/-- The loop of `split_sentences`, with the sentence read so far. The source scans bytes; those
it looks for stand for themselves in UTF-8. -/
def splitLoop (current : List Char) : List Char → List (List Char)
  | [] => if current = [] then [] else [current]
  | [c] => [current ++ [c]]
  | c :: next :: rest =>
    if isSentenceEnd c && (next = ' ' || next = '\n') then
      (current ++ [c]) :: splitLoop [next] rest
    else splitLoop (current ++ [c]) (next :: rest)

/-- `split_sentences`: cuts behind a sentence end that a space or a line feed follows. -/
def splitSentences (content : String) : List String :=
  (splitLoop [] content.toList).map String.ofList

/-- `str::is_char_boundary`. -/
def isCharBoundary (bytes : List UInt8) (i : Nat) : Bool :=
  i = 0 || i = bytes.length || bytes[i]?.any (!isContinuation ·)

/-- A slice of a string between two byte offsets: it panics unless both lie between characters,
in this order. -/
def sliceText (content : String) (start stop : Nat) : Result String :=
  if start ≤ stop ∧ isCharBoundary (utf8 content) start ∧ isCharBoundary (utf8 content) stop then
    match fromUtf8 ((utf8 content).extract start stop) with
    | some text => .ok text
    | none => .error .panic
  else .error .panic

/-- The bytes at this offset are `.`, `!` or `?` and a space or a line feed. -/
def endsSentenceAt (bytes : List UInt8) (i : Nat) : Bool :=
  bytes[i]?.any (fun b => b = 46 || b = 33 || b = 63) &&
    bytes[i + 1]?.any (fun b => b = 32 || b = 10)

/-- The loop of `split_sentences`, on the bytes and offsets that the source has. -/
def scanSentences (content : String) (start i : Nat) (out : List String) :
    Result (List String) :=
  if i < (utf8 content).length then
    if endsSentenceAt (utf8 content) i then do
      let piece ← sliceText content start (i + 1)
      scanSentences content (i + 1) (i + 1 + 1) (out ++ [piece])
    else scanSentences content start (i + 1) out
  else if start < (utf8 content).length then do
    let piece ← sliceText content start (utf8 content).length
    .ok (out ++ [piece])
  else .ok out
termination_by (utf8 content).length - i

/-- `split_sentences`, on bytes. -/
def splitSentencesBytes (content : String) : Result (List String) :=
  scanSentences content 0 0 []

/-- What the loop of `dedup_sentences` has found. -/
structure Sentences where
  /-- The sentences that are kept. -/
  keptParts : List String
  /-- Number of sentences dropped. -/
  dropped : Nat
  /-- The keys of all sentences seen. -/
  seen : List (Bytes 32)

/-- One turn of the loop of `dedup_sentences`. -/
def keepSentence (key : String → Bytes 32) (s : Sentences) (sentence : String) : Sentences :=
  let trimmed := trim sentence
  if trimmed = "" then s
  else if key trimmed ∈ s.seen then { s with dropped := s.dropped + 1 }
  else { s with seen := s.seen ++ [key trimmed], keptParts := s.keptParts ++ [trimmed] }

/-- The loop of `dedup_sentences`. -/
def keepSentences (key : String → Bytes 32) (seen : List (Bytes 32)) (content : String) :
    Sentences :=
  (splitSentences content).foldl (keepSentence key) ⟨[], 0, seen⟩

/-- The end of `dedup_sentences`: the text rebuilt from the sentences that are kept. -/
def rebuild (keptParts : List String) : String :=
  let rebuilt := ". ".intercalate keptParts
  if rebuilt = "" then ""
  else if rebuilt.toList.getLast?.any isSentenceEnd then rebuilt
  else rebuilt ++ "."

/-- A text behind the deduplication of its sentences. -/
structure Deduped where
  /-- The text that is left. -/
  content : String
  /-- Number of sentences dropped. -/
  dropped : Nat
  /-- The keys of all sentences seen, this text's included. -/
  seen : List (Bytes 32)

/-- `dedup_sentences`. -/
def dedupSentences (key : String → Bytes 32) (content : String) (seen : List (Bytes 32)) :
    Deduped :=
  let s := keepSentences key seen content
  ⟨rebuild s.keptParts, s.dropped, s.seen⟩

/-! ## Items and bundles -/

/-- `ContextItem`: one item of a bundle. -/
structure ContextItem (F : Type) where
  /-- Where the record came from. -/
  origin : HitOrigin
  /-- Record identifier. -/
  recordId : UInt64
  /-- Similarity score from the producing tenant. -/
  similarity : F
  /-- The text. -/
  content : String
  /-- Tokens of the text. -/
  tokens : UInt64
  /-- The key of the payload. -/
  dedupKey : Bytes 32
  /-- Vector of the record, where the backend supplied it. -/
  embedding : Option (List F)
  /-- The origins that contributed to the item, its own first. -/
  sources : List HitOrigin

/-- `attribute_source`: add an origin unless it is listed. -/
def attributeSource (sources : List HitOrigin) (origin : HitOrigin) : List HitOrigin :=
  if origin ∈ sources then sources else sources ++ [origin]

/-- `attribute_source` on the sources of an item. -/
def ContextItem.attributed {F : Type} (origin : HitOrigin) (item : ContextItem F) :
    ContextItem F :=
  { item with sources := attributeSource item.sources origin }

/-- `ContextBundle`. -/
structure ContextBundle (F : Type) where
  /-- The items, in ranking order. -/
  items : List (ContextItem F)
  /-- Sum of the items' tokens. -/
  totalTokens : UInt64
  /-- Hits with the key of an earlier item. -/
  droppedDuplicates : Nat
  /-- Hits below the threshold. -/
  droppedBelowThreshold : Nat
  /-- Items for which the budgets left no room. -/
  droppedOverBudget : Nat
  /-- Sentences removed from hits. -/
  droppedRedundantSentences : Nat
  /-- Hits near an earlier item. -/
  droppedSemanticDuplicates : Nat

/-- `ContextBundle::default`. -/
def ContextBundle.empty {F : Type} : ContextBundle F := ⟨[], 0, 0, 0, 0, 0, 0⟩

/-- `ContextBuilder`. -/
structure ContextBuilder (F : Type) where
  /-- The hits. -/
  hits : List (MembraneHit F)
  /-- Least similarity. -/
  minSimilarity : F
  /-- Most tokens of a bundle. -/
  tokenBudget : Option UInt64
  /-- Most items of a bundle. -/
  recordBudget : Option Nat
  /-- Whether payloads are deduplicated. -/
  dedup : Bool
  /-- Whether sentences are deduplicated. -/
  sentenceDedup : Bool
  /-- The least cosine of a semantic duplicate, when these are dropped. -/
  semanticDedup : Option F
  /-- `Tokenizer::count`. -/
  tokenizer : String → UInt64
  /-- `Ranker::score`. -/
  ranker : ContextItem F → F

/-- `CharCountTokenizer::count`. -/
def charCountTokenizer (text : String) : UInt64 :=
  let chars := text.toList.length
  UInt64.ofNat (max ((chars + 3) / 4) (if chars = 0 then 0 else 1))

variable {F : Type} [FloatLike F]

/-- `ContextBuilder::from_hits`. -/
def ContextBuilder.fromHits (hits : List (MembraneHit F)) : ContextBuilder F where
  hits := hits
  minSimilarity := -FloatLike.infinity
  tokenBudget := none
  recordBudget := none
  dedup := true
  sentenceDedup := false
  semanticDedup := none
  tokenizer := charCountTokenizer
  ranker := ContextItem.similarity

/-! ## Semantic duplicates -/

/-- `unit_normalise`: none for the zero vector and where the norm is not finite. -/
def Context.unitNormalise (v : List F) : Option (List F) :=
  let norm := FloatLike.sqrt (v.foldl (fun norm x => norm + x * x) 0.0)
  if !FloatLike.isFinite norm || FloatLike.eq norm 0.0 then none else some (v.map (· / norm))

/-- `dot`: vectors of different lengths are far apart. -/
def Context.dot (a b : List F) : F :=
  if a.length ≠ b.length then -FloatLike.infinity
  else FloatLike.sum (List.zipWith (· * ·) a b)

/-! ## The filter -/

/-- What the filter holds between two hits. -/
structure FilterState (F : Type) where
  /-- The bundle, with its counters. -/
  bundle : ContextBundle F
  /-- The keys of the items, with their indices. -/
  seenRecord : List (Bytes 32 × Nat)
  /-- The keys of the sentences seen. -/
  seenSentence : List (Bytes 32)
  /-- The unit vectors of the items that have one, with their indices. -/
  seenUnitVecs : List (List F × Nat)
  /-- The items. -/
  eligible : List (ContextItem F)

/-- The filter before the first hit. -/
def FilterState.start : FilterState F := ⟨.empty, [], [], [], []⟩

/-- How the body of the loop is left for one hit. -/
inductive Exit (F : Type) where
  /-- The similarity is below the threshold. -/
  | belowThreshold
  /-- The payload has the key of the item with this index. -/
  | duplicate (winner : Nat)
  /-- Nothing is left of the text. -/
  | redundant (text : Deduped)
  /-- The embedding is near that of the item with this index. -/
  | semanticDuplicate (text : Deduped) (winner : Nat)
  /-- The hit becomes an item, and its unit vector is remembered. -/
  | kept (text : Deduped) (unit : Option (List F))

namespace ContextBuilder

variable (b : ContextBuilder F) (env : ContextEnv)

/-- The text of a hit behind the deduplication of its sentences, where that is on. -/
def textOf (seen : List (Bytes 32)) (raw : String) : Deduped :=
  if b.sentenceDedup then dedupSentences env.key raw seen else ⟨raw, 0, seen⟩

/-- The unit vector that is compared and remembered. -/
def unitOf (hit : MembraneHit F) : Option (List F) :=
  if b.semanticDedup.isSome then hit.embedding.bind Context.unitNormalise else none

/-- The first item whose unit vector is near. -/
def nearDuplicate (unit : Option (List F)) (seen : List (List F × Nat)) : Option Nat := do
  let threshold ← b.semanticDedup
  let unit ← unit
  let near ← seen.find? fun other => FloatLike.le threshold (Context.dot unit other.1)
  some near.2

/-- How the body of the loop is left for a hit. -/
def exit (filter : FilterState F) (hit : MembraneHit F) : Exit F :=
  if FloatLike.lt hit.similarity b.minSimilarity then .belowThreshold
  else
    let raw := fromUtf8Lossy hit.payload
    match if b.dedup then filter.seenRecord.find? (·.1 = env.key raw) else none with
    | some (_, winner) => .duplicate winner
    | none =>
      let text := b.textOf env filter.seenSentence raw
      if b.sentenceDedup ∧ trim text.content = "" then .redundant text
      else match b.nearDuplicate (b.unitOf hit) filter.seenUnitVecs with
        | some winner => .semanticDuplicate text winner
        | none => .kept text (b.unitOf hit)

/-- The item that a hit becomes. -/
def itemOf (hit : MembraneHit F) (content : String) : ContextItem F :=
  { origin := hit.origin
    recordId := hit.recordId
    similarity := hit.similarity
    content
    tokens := b.tokenizer content
    dedupKey := env.key (fromUtf8Lossy hit.payload)
    embedding := hit.embedding
    sources := [hit.origin] }

/-- The filter behind a hit. -/
def leave (filter : FilterState F) (hit : MembraneHit F) : Exit F → FilterState F
  | .belowThreshold =>
    { filter with bundle.droppedBelowThreshold := filter.bundle.droppedBelowThreshold + 1 }
  | .duplicate winner =>
    { filter with
      bundle.droppedDuplicates := filter.bundle.droppedDuplicates + 1
      eligible := filter.eligible.modify winner (ContextItem.attributed hit.origin) }
  | .redundant text =>
    { filter with
      bundle.droppedRedundantSentences := filter.bundle.droppedRedundantSentences + text.dropped
      seenSentence := text.seen }
  | .semanticDuplicate text winner =>
    { filter with
      bundle.droppedSemanticDuplicates := filter.bundle.droppedSemanticDuplicates + 1
      seenSentence := text.seen
      eligible := filter.eligible.modify winner (ContextItem.attributed hit.origin) }
  | .kept text unit =>
    { filter with
      bundle.droppedRedundantSentences := filter.bundle.droppedRedundantSentences + text.dropped
      seenRecord := filter.seenRecord ++
        [(env.key (fromUtf8Lossy hit.payload), filter.eligible.length)]
      seenSentence := text.seen
      seenUnitVecs := filter.seenUnitVecs ++ (unit.map (·, filter.eligible.length)).toList
      eligible := filter.eligible ++ [b.itemOf env hit text.content] }

/-- The body of the filter loop. -/
def filterHit (filter : FilterState F) (hit : MembraneHit F) : FilterState F :=
  b.leave env filter hit (b.exit env filter hit)

/-- Phase 1: the filter behind all hits. -/
def filter : FilterState F := b.hits.foldl (b.filterHit env) .start

/-- Phase 2: the items by descending score. -/
def rank : Result (List (ContextItem F)) :=
  env.sort.sortBy (fun x y => descending (b.ranker x) (b.ranker y)) (b.filter env).eligible

end ContextBuilder

/-! ## The budgets -/

namespace ContextBuilder

variable (b : ContextBuilder F) (env : ContextEnv)

/-- The test of the token budget for the next item. -/
def overTokens (bundle : ContextBundle F) (item : ContextItem F) : Result Bool :=
  match b.tokenBudget with
  | none => .ok false
  | some budget => do
    let sum ← UInt64.addIn env.profile bundle.totalTokens item.tokens
    .ok (budget < sum)

/-- The body of the budget loop. -/
def budgetStep (bundle : ContextBundle F) (item : ContextItem F) : Result (ContextBundle F) := do
  if ← b.overTokens env bundle item then
    .ok { bundle with droppedOverBudget := bundle.droppedOverBudget + 1 }
  else if b.recordBudget.any (· ≤ bundle.items.length) then
    .ok { bundle with droppedOverBudget := bundle.droppedOverBudget + 1 }
  else do
    let total ← UInt64.addIn env.profile bundle.totalTokens item.tokens
    .ok { bundle with totalTokens := total, items := bundle.items ++ [item] }

/-- `ContextBuilder::build`. -/
def build : Result (ContextBundle F) := do
  let ranked ← b.rank env
  ranked.foldlM (b.budgetStep env) (b.filter env).bundle

end ContextBuilder

end Hansa
