import Hansa.HeadCache

/-!
# Keys and their store

A hansa's symmetric key is derived from a passphrase, with the name of the hansa as salt, and
the skipper of the local model from the key. `FileKeystore` keeps one key a slot, as the hex
text of a file that is named after the slot. A slot is any string, so several slots may name
one file; which files paths name is left to the operating system.
-/

namespace Hansa

/-- `blake3::Hasher::new_derive_key`, by the context and the bytes that are hashed. -/
structure KeyDerivation where
  /-- The first 32 bytes of the output. -/
  deriveKey : String → List UInt8 → Bytes 32

/-- `HansaKey`: the secret that identifies membership in a trust group. -/
structure HansaKey where
  /-- The raw bytes, `HansaKey::raw`. -/
  bytes : Bytes 32
  deriving DecidableEq

namespace HansaKey

/-- `HansaKey::from_passphrase`: the salt is hashed in front of the passphrase. -/
def fromPassphrase (kdf : KeyDerivation) (passphrase : String) (salt : List UInt8) : HansaKey :=
  ⟨kdf.deriveKey "hansa.key.v1" (salt ++ utf8 passphrase)⟩

/-- `HansaKey::from_slice`. -/
def fromSlice (slice : List UInt8) : Result HansaKey :=
  match HeadCache.hashOf slice with
  | some bytes => .ok ⟨bytes⟩
  | none => fail (.invalidKeyLength slice.length)

end HansaKey

/-- `Skipper::from_hansa_key`: the key-holder is the skipper. -/
def Skipper.fromHansaKey (kdf : KeyDerivation) (key : HansaKey) : Skipper :=
  ⟨kdf.deriveKey "hansa.skipper.from-key.v1" key.bytes.toList⟩

/-! ## Hex text -/

/-- `str::trim`. -/
def trim (text : String) : String :=
  String.ofList
    ((text.toList.dropWhile isWhitespace).reverse.dropWhile isWhitespace).reverse

/-- `encode_hex`. -/
def encodeHex (bytes : List UInt8) : String := String.join (bytes.map hexByte)

namespace FileKeystore

/-- `hex_nibble`. -/
def hexNibble (b : UInt8) : Result UInt8 :=
  match hexDigit b with
  | some digit => .ok digit
  | none => fail (.invariant ("invalid hex byte: 0x" ++ String.ofList (Nat.toDigits 16 b.toNat)))

/-- The loop of `decode_hex` over the pairs of bytes. -/
def decodePairs : List UInt8 → Result (List UInt8)
  | a :: b :: rest => do
    let high ← hexNibble a
    let low ← hexNibble b
    let bytes ← decodePairs rest
    .ok (((high <<< 4) ||| low) :: bytes)
  | _ => .ok []

/-- `decode_hex` of the keystore. -/
def decodeHex (input : String) : Result (List UInt8) :=
  if (utf8 input).length % 2 ≠ 0 then
    fail (.invariant ("hex string has odd length: " ++ toString (utf8 input).length))
  else decodePairs (utf8 input)

end FileKeystore

/-! ## The store -/

/-- `PathBuf::push`: an absolute component replaces the path. -/
def PathBuf.push (path : PathBuf) (component : String) : PathBuf :=
  if (utf8 component).head? = some 47 then ⟨utf8 component⟩ else path.join component

/-- `FileKeystore`: the directory of the key files. -/
structure FileKeystore where
  /-- The directory. -/
  root : PathBuf

namespace FileKeystore

/-- `FileKeystore::path_for`. -/
def pathFor (store : FileKeystore) (slot : String) : PathBuf := store.root.push (slot ++ ".key")

/-- `FileKeystore::load`, from the content of the slot's file. -/
def load (slot : String) : Option (List UInt8) → Result HansaKey
  | none => fail (.keyNotFound slot)
  | some content =>
    match fromUtf8 content with
    | none => fail (.io "stream did not contain valid UTF-8")
    | some text => do
      let bytes ← decodeHex (trim text)
      HansaKey.fromSlice bytes

/-- The text that `FileKeystore::store` writes. -/
def content (key : HansaKey) : String := encodeHex key.bytes.toList

end FileKeystore

end Hansa
