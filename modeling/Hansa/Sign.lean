import Hansa.Error
import Hansa.Library.SelfDelimiting

/-!
# Signing primitives

The skipper signs with ed25519 and links are hashed with blake3. Both live in other crates,
so they are the fields of `Crypto`, which every definition above takes as a parameter; what
is relied on is stated where it is used. This module owns what the crate adds to them: the
domain tags, the framing of a signed message, and the canonical writer.
-/

namespace Hansa

/-- `[u8; n]`. -/
abbrev Bytes (n : Nat) := Vector UInt8 n

/-- The bytes of a string, `str::as_bytes`. -/
def utf8 (s : String) : List UInt8 := s.toByteArray.data.toList

/-- Strings with the same bytes are equal. -/
theorem utf8_injective : Function.Injective utf8 := by
  intro s t same
  apply String.toByteArray_inj.mp
  exact ByteArray.ext (Array.toList_inj.mp same)

/-- `SkipperPub`: a public verifying key, compared by its compressed bytes. -/
structure SkipperPub where
  /-- The compressed public key. -/
  asBytes : Bytes 32
  deriving DecidableEq

/-- `Sig`: a detached ed25519 signature. -/
structure Sig where
  /-- The raw signature bytes. -/
  asBytes : Bytes 64
  deriving DecidableEq

/-- `Skipper`: a signing authority, given by its secret seed. -/
structure Skipper where
  /-- The secret seed, `Skipper::to_seed`. -/
  seed : Bytes 32
  deriving DecidableEq

/-- The primitives taken from `ed25519-dalek` and `blake3`. -/
structure Crypto where
  /-- `blake3::hash`. -/
  blake3 : List UInt8 → Bytes 32
  /-- `SigningKey::verifying_key`. -/
  verifyingKey : Skipper → SkipperPub
  /-- `SigningKey::sign` on the framed message. -/
  signBytes : Skipper → List UInt8 → Sig
  /-- `VerifyingKey::verify_strict` on the framed message. -/
  verifyStrict : SkipperPub → List UInt8 → Sig → Bool

/-- `DOMAIN_GENESIS`: domain tag for the genesis record signature. -/
def domainGenesis : List UInt8 := utf8 "hansa.genesis.v2\x00"

/-- `DOMAIN_LINK`: domain tag for link signatures. -/
def domainLink : List UInt8 := utf8 "hansa.link.v2\x00"

/-- `framed`: prepend the domain tag to the message. -/
def framed (domain msg : List UInt8) : List UInt8 := domain ++ msg

namespace Skipper

/-- `Skipper::public`. -/
def pub (c : Crypto) (skipper : Skipper) : SkipperPub := c.verifyingKey skipper

/-- `Skipper::sign`: sign `msg` under `domain`. -/
def sign (c : Crypto) (skipper : Skipper) (domain msg : List UInt8) : Sig :=
  c.signBytes skipper (framed domain msg)

end Skipper

/-- `SkipperPub::verify`: strict verification over the framed message. -/
def SkipperPub.verify (c : Crypto) (key : SkipperPub) (domain msg : List UInt8) (sig : Sig) :
    Result Unit :=
  if c.verifyStrict key (framed domain msg) sig then .ok () else fail .badSignature

/-- A key's own signatures verify, under every domain. -/
def Crypto.Correct (c : Crypto) : Prop :=
  ∀ skipper msg, c.verifyStrict (c.verifyingKey skipper) msg (c.signBytes skipper msg) = true

/-- `verify` accepts exactly what strict verification accepts. -/
theorem SkipperPub.verify_eq_ok {c : Crypto} {key : SkipperPub} {domain msg : List UInt8}
    {sig : Sig} :
    key.verify c domain msg sig = .ok () ↔ c.verifyStrict key (framed domain msg) sig = true := by
  unfold SkipperPub.verify
  split <;> simp_all [fail]

/-- The two domain tags differ within their common length, so no message is framed alike
under both. -/
theorem framed_genesis_ne_link (msg msg' : List UInt8) :
    framed domainGenesis msg ≠ framed domainLink msg' := by
  intro same
  have tags := congrArg (List.take 7) same
  simp only [framed] at tags
  rw [List.take_append_of_le_length (by decide), List.take_append_of_le_length (by decide)] at tags
  exact absurd tags (by decide)

/-! ## The canonical writer -/

/-- `canonical::Writer`: builder for canonical signing bytes. -/
structure Writer where
  /-- The bytes written so far. -/
  bytes : List UInt8

namespace Writer

/-- `Writer::new`. -/
def new : Writer := ⟨[]⟩

/-- Append one byte. -/
def u8 (w : Writer) (x : UInt8) : Writer := ⟨w.bytes ++ [x]⟩

/-- Append a little-endian `u32`. -/
def u32 (w : Writer) (x : UInt32) : Writer := ⟨w.bytes ++ littleEndian 4 x.toNat⟩

/-- Append a little-endian `u64`. -/
def u64 (w : Writer) (x : UInt64) : Writer := ⟨w.bytes ++ littleEndian 8 x.toNat⟩

/-- Append a little-endian `i64`. -/
def i64 (w : Writer) (x : Int64) : Writer := ⟨w.bytes ++ littleEndian 8 x.toUInt64.toNat⟩

/-- Append a fixed-width block with no length prefix. -/
def fixed (w : Writer) (block : List UInt8) : Writer := ⟨w.bytes ++ block⟩

/-- Append a byte string behind its length, cast to `u32`. -/
def prefixed (w : Writer) (block : List UInt8) : Writer :=
  ⟨w.bytes ++ (littleEndian 4 (block.length % 2 ^ 32) ++ block)⟩

/-- Append a string behind its length. -/
def str (w : Writer) (s : String) : Writer := w.prefixed (utf8 s)

/-- `Writer::finish`. -/
def finish (w : Writer) : List UInt8 := w.bytes

end Writer

end Hansa
