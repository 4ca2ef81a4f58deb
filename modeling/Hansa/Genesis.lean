import Hansa.Member

/-!
# The genesis record

The genesis is a hansa's root of trust, signed by the skipper under its own domain. It pins
the skipper key, the embedding dimension and, through `HansaId::from_skipper`, the identity.
-/

namespace Hansa

/-- `HansaId`: public identifier of a hansa. -/
structure HansaId where
  /-- The raw bytes. -/
  asBytes : Bytes 32
  deriving DecidableEq

/-- `format!("{b:02x}")`. -/
def hexByte (b : UInt8) : String :=
  String.ofList [Nat.digitChar (b.toNat / 16), Nat.digitChar (b.toNat % 16)]

/-- `HansaId::as_hex`: 64 lowercase characters. -/
def HansaId.asHex (id : HansaId) : String := String.join (id.asBytes.toList.map hexByte)

/-- `HANSA_ID_V2_DOMAIN`. -/
def hansaIdV2Domain : List UInt8 := utf8 "hansa-id-v2"

/-- `HansaId::from_skipper`: the identity that commits to a skipper's public key. -/
def HansaId.fromSkipper (c : Crypto) (key : SkipperPub) : HansaId :=
  ⟨c.blake3 (hansaIdV2Domain ++ key.asBytes.toList)⟩

/-- `GENESIS_V`: current genesis format version. -/
def genesisV : UInt8 := 2

/-- `Genesis`: root-of-trust record for a hansa. -/
structure Genesis where
  /-- Format version. -/
  v : UInt8
  /-- The hansa id. -/
  hansaId : HansaId
  /-- The skipper's public verifying key. -/
  skipperPub : SkipperPub
  /-- Embedding dimension pinned for every member. -/
  embeddingDim : UInt32
  /-- Unix seconds at founding. -/
  createdAt : Int64
  /-- Reserved hook for in-band skipper rotation. -/
  rotationAllowed : Bool
  deriving DecidableEq

namespace Genesis

/-- `Genesis::canonical`. -/
def canonical (g : Genesis) : List UInt8 :=
  Writer.new
    |>.u8 g.v
    |>.fixed g.hansaId.asBytes.toList
    |>.fixed g.skipperPub.asBytes.toList
    |>.u32 g.embeddingDim
    |>.i64 g.createdAt
    |>.u8 (if g.rotationAllowed then 1 else 0)
    |>.finish

/-- `Genesis::found`: build and sign a genesis for `skipper`. -/
def found (c : Crypto) (skipper : Skipper) (embeddingDim : UInt32) (createdAt : Int64)
    (rotationAllowed : Bool) : Genesis × Sig :=
  let skipperPub := skipper.pub c
  let g : Genesis :=
    { v := genesisV
      hansaId := HansaId.fromSkipper c skipperPub
      skipperPub
      embeddingDim
      createdAt
      rotationAllowed }
  (g, skipper.sign c domainGenesis g.canonical)

/-- `Genesis::verify`: version, id binding, signature, in this order. -/
def verify (c : Crypto) (g : Genesis) (sig : Sig) : Result Unit :=
  if g.v ≠ genesisV then
    fail (.malformedCrypto ("unsupported genesis version " ++ toString g.v.toNat))
  else if HansaId.fromSkipper c g.skipperPub ≠ g.hansaId then fail .idMismatch
  else g.skipperPub.verify c domainGenesis g.canonical sig

/-- `Genesis::verify_for`: also compare with the id a joiner was given. -/
def verifyFor (c : Crypto) (g : Genesis) (expected : HansaId) (sig : Sig) : Result Unit :=
  if g.hansaId ≠ expected then fail .idMismatch else g.verify c sig

/-- What a verified genesis satisfies. -/
structure Valid (c : Crypto) (g : Genesis) (sig : Sig) : Prop where
  /-- The version is recognised. -/
  version : g.v = genesisV
  /-- The id commits to the skipper. -/
  bound : HansaId.fromSkipper c g.skipperPub = g.hansaId
  /-- The skipper signed the record. -/
  signed : c.verifyStrict g.skipperPub (framed domainGenesis g.canonical) sig = true

/-- Verification accepts exactly the valid records. -/
theorem verify_eq_ok {c : Crypto} {g : Genesis} {sig : Sig} :
    g.verify c sig = .ok () ↔ g.Valid c sig := by
  unfold verify
  by_cases version : g.v = genesisV
  · by_cases bound : HansaId.fromSkipper c g.skipperPub = g.hansaId
    · rw [if_neg (not_not_intro version), if_neg (not_not_intro bound), SkipperPub.verify_eq_ok]
      exact ⟨fun signed => ⟨version, bound, signed⟩, fun valid => valid.signed⟩
    · rw [if_neg (not_not_intro version), if_pos bound]
      exact ⟨fun refused => (nomatch refused), fun valid => absurd valid.bound bound⟩
  · rw [if_pos version]
    exact ⟨fun refused => (nomatch refused), fun valid => absurd valid.version version⟩

/-- Verification for an id accepts exactly the valid records of that id. -/
theorem verifyFor_eq_ok {c : Crypto} {g : Genesis} {expected : HansaId} {sig : Sig} :
    g.verifyFor c expected sig = .ok () ↔ g.hansaId = expected ∧ g.Valid c sig := by
  unfold verifyFor
  by_cases same : g.hansaId = expected
  · rw [if_neg (not_not_intro same), verify_eq_ok]
    exact ⟨fun valid => ⟨same, valid⟩, fun both => both.2⟩
  · rw [if_pos same]
    exact ⟨fun refused => (nomatch refused), fun both => absurd both.1 same⟩

/-- A skipper's own genesis is valid. -/
theorem found_valid {c : Crypto} (correct : c.Correct) (skipper : Skipper)
    (embeddingDim : UInt32) (createdAt : Int64) (rotationAllowed : Bool) :
    (found c skipper embeddingDim createdAt rotationAllowed).1.Valid c
      (found c skipper embeddingDim createdAt rotationAllowed).2 :=
  ⟨rfl, rfl, correct skipper _⟩

end Genesis

end Hansa
