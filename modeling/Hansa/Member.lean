import Mathlib.Data.List.Lex
import Hansa.Sign

/-!
# Member records

A member is a tenant id, the place its tenant is reachable at, and the dimension it serves.
The canonical encoding of a record covers every field, the location variant included, so a
signature over it vouches for where the member lives. A path is a string of bytes; its
encoding goes through `to_string_lossy`, which is exact on valid UTF-8 only.
-/

namespace Hansa

/-- `TenantId`: the 16-byte id of a tenant. -/
structure TenantId where
  /-- The raw bytes. -/
  bytes : Bytes 16
  deriving DecidableEq

namespace TenantId

/-- The bytes as numbers, in the order `[u8; 16]::cmp` compares them. -/
def digits (t : TenantId) : List Nat := t.bytes.toList.map UInt8.toNat

/-- Ids with the same digits are equal. -/
theorem digits_injective : Function.Injective digits := by
  rintro ⟨a⟩ ⟨b⟩ same
  have bytes := List.map_injective_iff.mpr (fun _ _ => UInt8.toNat_inj.mp) same
  exact congrArg TenantId.mk (Vector.toList_inj.mp bytes)

/-- Tenant ids are ordered by their bytes. -/
instance : LinearOrder TenantId := LinearOrder.lift' digits digits_injective

end TenantId

/-! ## Paths -/

/-- The string a byte sequence encodes, if it is valid UTF-8. -/
def fromUtf8 (bytes : List UInt8) : Option String := String.fromUTF8? ⟨⟨bytes⟩⟩

/-- The bytes of a string decode to the string. -/
@[simp] theorem fromUtf8_utf8 (s : String) : fromUtf8 (utf8 s) = some s := by
  have whole : (⟨⟨utf8 s⟩⟩ : ByteArray) = s.toByteArray := by simp [utf8]
  simp only [fromUtf8, whole, String.fromUTF8?, dif_pos s.isValidUTF8]
  rfl

/-- Bytes that decode to a string are the bytes of that string. -/
theorem eq_utf8_of_fromUtf8 {bytes : List UInt8} {s : String} (decoded : fromUtf8 bytes = some s) :
    bytes = utf8 s := by
  unfold fromUtf8 String.fromUTF8? at decoded
  split at decoded
  · obtain rfl := Option.some.inj decoded
    rfl
  · cases decoded

/-- A continuation byte of a UTF-8 sequence. -/
def isContinuation (b : UInt8) : Bool := 0x80 ≤ b && b ≤ 0xBF

/-- Whether a second byte may follow a lead byte in well-formed UTF-8. -/
def isSecond (lead second : UInt8) : Bool :=
  if lead = 0xE0 then 0xA0 ≤ second && second ≤ 0xBF
  else if lead = 0xED then 0x80 ≤ second && second ≤ 0x9F
  else if lead = 0xF0 then 0x90 ≤ second && second ≤ 0xBF
  else if lead = 0xF4 then 0x80 ≤ second && second ≤ 0x8F
  else 0xC2 ≤ lead && lead ≤ 0xF3 && isContinuation second

/-- Length of the first well-formed sequence, or of the first maximal ill-formed part. -/
def chunkLength : List UInt8 → Nat
  | lead :: second :: tail =>
    if lead < 0x80 || !isSecond lead second then 1
    else if lead < 0xE0 then 2
    else match tail with
      | third :: tail =>
        if !isContinuation third then 2
        else if lead < 0xF0 then 3
        else match tail with
          | fourth :: _ => if isContinuation fourth then 4 else 3
          | [] => 3
      | [] => 2
  | _ => 1

/-- Chunk by chunk decoding; each ill-formed part becomes one replacement character. -/
def lossyChunks : Nat → List UInt8 → String
  | 0, _ => ""
  | _ + 1, [] => ""
  | fuel + 1, bytes =>
    let width := chunkLength bytes
    (fromUtf8 (bytes.take width)).getD "\uFFFD" ++ lossyChunks fuel (bytes.drop width)

/-- `PathBuf`, as the bytes of its `OsString`. -/
structure PathBuf where
  /-- The bytes of the path. -/
  bytes : List UInt8
  deriving DecidableEq

namespace PathBuf

/-- `Path::to_string_lossy`. -/
def toStringLossy (path : PathBuf) : String :=
  (fromUtf8 path.bytes).getD (lossyChunks path.bytes.length path.bytes)

/-- `Path::join` with a relative component. -/
def join (path : PathBuf) (component : String) : PathBuf :=
  let separated := if path.bytes.getLast?.all (· = 47) then path.bytes else path.bytes ++ [47]
  ⟨separated ++ utf8 component⟩

/-- The path is valid UTF-8, so JSON can carry it. -/
def IsUtf8 (path : PathBuf) : Prop := (fromUtf8 path.bytes).isSome

instance (path : PathBuf) : Decidable path.IsUtf8 :=
  inferInstanceAs (Decidable ((fromUtf8 path.bytes).isSome = true))

/-- A valid path is exactly the bytes of its lossy string. -/
theorem bytes_of_isUtf8 {path : PathBuf} (valid : path.IsUtf8) :
    path.bytes = utf8 path.toStringLossy := by
  obtain ⟨s, decoded⟩ := Option.isSome_iff_exists.mp valid
  simp only [toStringLossy, decoded, Option.getD_some]
  exact eq_utf8_of_fromUtf8 decoded

end PathBuf

/-! ## Records -/

/-- `TenantLocation`: where a tenant is reachable. -/
inductive TenantLocation where
  /-- A directory of this machine. -/
  | path (path : PathBuf)
  /-- A RESP3 endpoint, with user and password. -/
  | resp3 (endpoint : String) (auth : Option (String × String))
  /-- An HTTP base URL, with a bearer token. -/
  | http (baseUrl : String) (bearer : Option String)
  deriving DecidableEq

/-- `MemberRecord`: one member of a hansa. -/
structure MemberRecord where
  /-- Stable id of the member's tenant. -/
  tenantId : TenantId
  /-- Where the tenant lives. -/
  tenantLocation : TenantLocation
  /-- Embedding dimension. -/
  embeddingDim : UInt32
  /-- Unix seconds when the member joined. -/
  joinedAt : Int64
  deriving DecidableEq

namespace MemberRecord

/-- `MemberRecord::canonical`. -/
def canonical (m : MemberRecord) : List UInt8 :=
  let w := Writer.new
    |>.fixed m.tenantId.bytes.toList
    |>.u32 m.embeddingDim
    |>.i64 m.joinedAt
  let w := match m.tenantLocation with
    | .path path => (w.u8 0).str path.toStringLossy
    | .resp3 endpoint auth =>
      let w := (w.u8 1).str endpoint
      match auth with
      | none => w.u8 0
      | some (user, pass) => ((w.u8 1).str user).str pass
    | .http baseUrl bearer =>
      let w := (w.u8 2).str baseUrl
      match bearer with
      | none => w.u8 0
      | some token => (w.u8 1).str token
  w.finish

/-- Every path of the record is valid UTF-8. -/
def IsUtf8 (m : MemberRecord) : Prop :=
  match m.tenantLocation with
  | .path path => path.IsUtf8
  | _ => True

instance (m : MemberRecord) : Decidable m.IsUtf8 := by
  unfold IsUtf8
  split <;> infer_instance

end MemberRecord

end Hansa
