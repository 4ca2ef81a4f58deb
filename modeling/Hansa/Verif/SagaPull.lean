import Hansa.Library.StateErrors
import Hansa.Verif.HexDecoding
import Hansa.Verif.KeyFile

/-!
# What pulled sagas overwrite

A remote lists the tenants whose sagas it serves by names of its own choice, and a name is joined
to the directory of sagas before it is decoded. The test for fetching comes first, the decoder
second, and only a name that is decoded is written to. Such a name has 32 characters, hex digits
or plus signs, so it stays in the directory; and the name of a tenant's saga is decoded as that
tenant.
-/

namespace Hansa

/-! ## Names that are decoded -/

/-- A name that is decoded as a tenant. -/
structure ListedAs (hex : String) (tenantId : TenantId) : Prop where
  /-- It has the length of a tenant id. -/
  length : hex.toList.length = 32
  /-- It consists of hex digits and plus signs. -/
  plain : ∀ ch ∈ hex.toList, IsHexChar ch ∨ ch = '+'
  /-- If it is the name of a tenant, it is decoded as that one. -/
  own : ∀ u : TenantId, hex = encodeHex u.bytes.toList → u = tenantId

/-- A byte that is read as a digit is a hex character. -/
theorem isHexChar_of_hexDigit {b d : UInt8} (digit : hexDigit b = some d) :
    b.toNat < 128 ∧ IsHexChar (Char.ofNat b.toNat) := by
  have each : ∀ n : Fin 256, (hexDigit (UInt8.ofNat n)).isSome →
      (UInt8.ofNat n).toNat < 128 ∧ IsHexChar (Char.ofNat (UInt8.ofNat n).toNat) := by
    decide +kernel
  have here := each ⟨b.toNat, b.toNat_lt⟩
  rw [UInt8.ofNat_toNat] at here
  exact here (by rw [digit]; rfl)

/-- The bytes of pairs that are decoded. -/
theorem bytes_of_decodeHexPairs {n : Nat} {bytes : List UInt8} (full : bytes.length = 2 * n)
    {value : Bytes n} (decoded : decodeHexPairs n bytes = .ok value) :
    ∀ b ∈ bytes, b.toNat < 128 ∧
      (IsHexChar (Char.ofNat b.toNat) ∨ Char.ofNat b.toNat = '+') := by
  induction n generalizing bytes with
  | zero =>
    rw [List.eq_nil_of_length_eq_zero full]
    exact fun b none_ => absurd none_ List.not_mem_nil
  | succ n ih =>
    rcases bytes with _ | ⟨a, _ | ⟨b, rest⟩⟩
    · rw [List.length_nil] at full
      omega
    · rw [List.length_singleton] at full
      omega
    · have shorter : rest.length = 2 * n := by
        simp only [List.length_cons] at full
        omega
      rw [decodeHexPairs] at decoded
      split at decoded
      · cases decoded
      · split at decoded
        · cases decoded
        · next x number =>
          obtain ⟨value', inner, _⟩ := Except.bind_eq_ok.mp decoded
          have later := ih shorter inner
          have pair : (a = 43 ∨ ∃ d, hexDigit a = some d) ∧ ∃ d, hexDigit b = some d := by
            unfold fromStrRadix16 at number
            split at number
            · next plus => exact ⟨.inl plus, _, number⟩
            · obtain ⟨high, isHigh, low⟩ := Option.bind_eq_some_iff.mp number
              obtain ⟨low, isLow, _⟩ := Option.bind_eq_some_iff.mp low
              exact ⟨.inr ⟨high, isHigh⟩, low, isLow⟩
          intro c member
          have second : b.toNat < 128 ∧
              (IsHexChar (Char.ofNat b.toNat) ∨ Char.ofNat b.toNat = '+') := by
            obtain ⟨d, digit⟩ := pair.2
            exact ⟨(isHexChar_of_hexDigit digit).1, .inl (isHexChar_of_hexDigit digit).2⟩
          rcases List.mem_cons.mp member with rfl | member
          · rcases pair.1 with rfl | ⟨d, digit⟩
            · exact ⟨by decide, .inr (by decide)⟩
            · exact ⟨(isHexChar_of_hexDigit digit).1, .inl (isHexChar_of_hexDigit digit).2⟩
          · rcases List.mem_cons.mp member with rfl | member
            · exact second
            · exact later c member

/-- Different bytes are written differently. -/
theorem encodeHex_injective : Function.Injective encodeHex := by
  intro bytes bytes' same
  have decoded : ∀ bytes, FileKeystore.decodePairs (utf8 (encodeHex bytes)) = .ok bytes := by
    intro bytes
    rw [encodeHex, utf8_join, List.flatMap_map]
    exact FileKeystore.decodePairs_hex bytes
  have equal := (decoded bytes).symm.trans (same ▸ decoded bytes')
  exact Except.ok.inj equal

/-- What the decoder of listed ids accepts. -/
theorem listedAs_of_parse {hex : String} {tenantId : TenantId}
    (parsed : parseTenantHex hex = .ok (some tenantId)) : ListedAs hex tenantId := by
  obtain ⟨full, value, decoded⟩ : (utf8 hex).length = 32 ∧
      ∃ value, decodeHexPairs 16 (utf8 hex) = .ok value := by
    rw [parseTenantHex] at parsed
    split at parsed
    · cases parsed
    · next full =>
      refine ⟨of_not_not full, ?_⟩
      cases outcome : decodeHexPairs 16 (utf8 hex) with
      | ok value => exact ⟨value, rfl⟩
      | error fault =>
        rw [outcome] at parsed
        cases fault <;> cases parsed
  have bytes := bytes_of_decodeHexPairs full decoded
  have plain : ∀ ch ∈ hex.toList, ch.toNat < 128 ∧ (IsHexChar ch ∨ ch = '+') := by
    intro ch member
    obtain ⟨b, inside⟩ := List.exists_mem_of_ne_nil _ (String.utf8EncodeChar_ne_nil (c := ch))
    have known := bytes b (by rw [utf8_eq_flatMap]; exact List.mem_flatMap.mpr ⟨ch, member, inside⟩)
    have same := char_of_ascii_byte inside known.1
    rw [← same, Char.ofNat_toNat] at known
    exact known
  refine ⟨?_, fun ch member => (plain ch member).2, ?_⟩
  · have single : (utf8 hex).length = hex.toList.length := by
      rw [utf8_eq_flatMap, List.length_flatMap]
      have ones : hex.toList.map (fun ch => (String.utf8EncodeChar ch).length) =
          hex.toList.map fun _ => 1 := by
        refine List.map_congr_left fun ch member => ?_
        rw [utf8EncodeChar_ascii (plain ch member).1, List.length_singleton]
      rw [ones]
      simp
    rw [← single, full]
  · intro u written
    obtain ⟨isHex, lower⟩ := isHexText_encodeHex u.bytes
    rw [← written] at isHex lower
    have does := (parseTenantHex_decodes hex).mpr fun _ => .inl isHex.2
    have same := does.encodes tenantId.bytes parsed
    rw [lower, written] at same
    have bytes := encodeHex_injective same
    exact congrArg TenantId.mk (Vector.toList_inj.mp bytes).symm

/-! ## Fetches -/

section Fetches

variable {Disk : Type} {source : SagaSource Disk}

/-- A remote lists a tenant by a name that is decoded as the tenant, with a time; the file that the
name is joined to. -/
def ServesSaga (source : SagaSource Disk) (peer : RemotePeer) (file : String) (tenantId : TenantId)
    (modified : Int64) : Prop :=
  ∃ entries entry, source.list peer = .ok entries ∧ entry ∈ entries ∧
    file = entry.tenantIdHex ++ ".saga" ∧ ListedAs entry.tenantIdHex tenantId ∧
      modified = entry.lastModified

/-- Disks that fetches leave, with the number of those that succeeded. Each fetch is for a tenant
that a remote serves, to a file that was to be fetched. -/
inductive Pulled (source : SagaSource Disk) (peers : List RemotePeer) (start : Disk) :
    Nat → Disk → Prop where
  /-- Nothing was fetched. -/
  | start : Pulled source peers start 0 start
  /-- One more saga was fetched. -/
  | fetched {n : Nat} {disk : Disk} {peer : RemotePeer} {dest : String} {tenantId : TenantId}
      {modified : Int64} (before : Pulled source peers start n disk) (asked : peer ∈ peers)
      (serves : ServesSaga source peer dest tenantId modified)
      (older : shouldFetch (source.metadata disk dest) modified = true) :
      Pulled source peers start
        (n + (source.fetchToPath disk peer tenantId dest).1.toBool.toNat)
        (source.fetchToPath disk peer tenantId dest).2

/-- A listing is worked off by fetches. -/
theorem pullEntries_pulled {peers : List RemotePeer} {start : Disk} {peer : RemotePeer}
    {entries todo : List SagaEntry} {n m : Nat} {disk after : Disk} (asked : peer ∈ peers)
    (answered : source.list peer = .ok entries) (listed : ∀ entry ∈ todo, entry ∈ entries)
    (before : Pulled source peers start n disk)
    (pulled : pullEntries source peer n disk todo = .ok (m, after)) :
    Pulled source peers start m after := by
  induction todo generalizing n disk with
  | nil =>
    obtain ⟨rfl, rfl⟩ := Prod.mk.inj (Except.ok.inj pulled)
    exact before
  | cons entry todo ih =>
    have later := fun e member => listed e (List.mem_cons_of_mem entry member)
    have here := listed entry List.mem_cons_self
    rw [pullEntries] at pulled
    split at pulled
    · exact ih later before pulled
    · next older =>
      split at pulled
      · cases pulled
      · exact ih later before pulled
      · next tenantId parsed =>
        have serves : ServesSaga source peer (entry.tenantIdHex ++ ".saga") tenantId
            entry.lastModified :=
          ⟨entries, entry, answered, here, rfl, listedAs_of_parse parsed, rfl⟩
        have step := before.fetched asked serves (Bool.eq_true_of_not_eq_false older)
        split at pulled
        · next disk' outcome =>
          rw [outcome] at step
          exact ih later step pulled
        · next disk' outcome =>
          rw [outcome] at step
          exact ih later step pulled

/-- The remotes are worked off by fetches. -/
theorem pullRemotes_pulled {peers todo : List RemotePeer} {start : Disk} {n m : Nat}
    {disk after : Disk} (asked : ∀ peer ∈ todo, peer ∈ peers)
    (before : Pulled source peers start n disk)
    (pulled : pullRemotes source n disk todo = .ok (m, after)) :
    Pulled source peers start m after := by
  induction todo generalizing n disk with
  | nil =>
    obtain ⟨rfl, rfl⟩ := Prod.mk.inj (Except.ok.inj pulled)
    exact before
  | cons peer todo ih =>
    have later := fun p member => asked p (List.mem_cons_of_mem peer member)
    rw [pullRemotes] at pulled
    split at pulled
    · exact ih later before pulled
    · next entries answered =>
      obtain ⟨⟨k, mid⟩, worked, rest⟩ := Except.bind_eq_ok.mp pulled
      have step := pullEntries_pulled (asked peer List.mem_cons_self) answered
        (fun _ member => member) before worked
      exact ih later step rest

/-- What a fetch does to the files of the directory: it writes no file but its own, and leaves
there what was there, or something that the remote sent for the tenant. -/
structure SagaSource.Writes (source : SagaSource Disk)
    (file : Disk → String → Option (List UInt8))
    (sent : RemotePeer → TenantId → Option (List UInt8) → Prop) : Prop where
  /-- Other files keep their content. -/
  elsewhere : ∀ disk peer tenantId dest name, name ≠ dest →
    file (source.fetchToPath disk peer tenantId dest).2 name = file disk name
  /-- Other files keep their time. -/
  times : ∀ disk peer tenantId dest name modified, name ≠ dest →
    shouldFetch (source.metadata (source.fetchToPath disk peer tenantId dest).2 name) modified =
      shouldFetch (source.metadata disk name) modified
  /-- The file of the fetch. -/
  there : ∀ disk peer tenantId dest,
    file (source.fetchToPath disk peer tenantId dest).2 dest = file disk dest ∨
      sent peer tenantId (file (source.fetchToPath disk peer tenantId dest).2 dest)

/-- A file that was not to be fetched is as it was, and so is its time; another is as it was or was
sent for a tenant that it is named after. -/
def Contained (source : SagaSource Disk) (peers : List RemotePeer)
    (file : Disk → String → Option (List UInt8))
    (sent : RemotePeer → TenantId → Option (List UInt8) → Prop) (start disk : Disk)
    (name : String) : Prop :=
  (file disk name = file start name ∧
    ∀ modified, shouldFetch (source.metadata disk name) modified =
      shouldFetch (source.metadata start name) modified) ∨
  (∃ peer ∈ peers, ∃ tenantId modified, ServesSaga source peer name tenantId modified ∧
    shouldFetch (source.metadata start name) modified = true) ∧
  (file disk name = file start name ∨
    ∃ peer ∈ peers, ∃ tenantId modified, ServesSaga source peer name tenantId modified ∧
      sent peer tenantId (file disk name))

variable {file : Disk → String → Option (List UInt8)}
  {sent : RemotePeer → TenantId → Option (List UInt8) → Prop}

/-- Fetches leave every file contained. -/
theorem Pulled.contained {peers : List RemotePeer} {start after : Disk} {n : Nat}
    (writes : source.Writes file sent) (pulled : Pulled source peers start n after)
    (name : String) : Contained source peers file sent start after name := by
  induction pulled with
  | start => exact .inl ⟨rfl, fun _ => rfl⟩
  | @fetched n disk peer dest tenantId modified before asked serves older ih =>
    by_cases isDest : name = dest
    · subst isDest
      right
      have first : ∃ peer ∈ peers, ∃ tenantId modified,
          ServesSaga source peer name tenantId modified ∧
            shouldFetch (source.metadata start name) modified = true := by
        rcases ih with ⟨_, times⟩ | ⟨newer, _⟩
        · exact ⟨peer, asked, tenantId, modified, serves, times modified ▸ older⟩
        · exact newer
      refine ⟨first, ?_⟩
      rcases writes.there disk peer tenantId name with kept | fresh
      · rw [kept]
        rcases ih with ⟨same, _⟩ | ⟨_, origin⟩
        · exact .inl same
        · exact origin
      · exact .inr ⟨peer, asked, tenantId, modified, serves, fresh⟩
    · have content := writes.elsewhere disk peer tenantId dest name isDest
      have times := fun m => writes.times disk peer tenantId dest name m isDest
      unfold Contained
      simp only [content, times]
      exact ih

/-- Whatever the remotes list and send, when the pull returns, a file has changed only where a
remote lists a tenant by a name of 32 hex digits and plus signs, the file is that name with the
ending of sagas, and it was to be fetched; and what it has then was sent for that tenant, which is
the file's own if it is the saga file of a tenant. -/
theorem HybridRegistry.pullSagasInto_contained {h : HybridRegistry} {disk after : Disk} {n : Nat}
    (writes : source.Writes file sent) (pulled : h.pullSagasInto source disk = .ok (n, after))
    (name : String) : Contained source h.remotes file sent disk after name :=
  (pullRemotes_pulled (fun _ member => member) .start pulled).contained writes name

end Fetches

/-- Files with their times. -/
abbrev TimedFiles := String → Option (List UInt8 × SystemTime)

/-- A remote that lists a name outside the directory and two tenants, and sends a tenant's id. -/
def sampleSource : SagaSource TimedFiles where
  list _ := .ok [⟨"../../x", 5⟩, ⟨"000102030405060708090a0b0c0d0e0f", 5⟩,
    ⟨"101112131415161718191a1b1c1d1e1f", 5⟩]
  metadata disk name := (disk name).map fun content => some content.2
  fetchToPath disk _ tenantId dest :=
    (.ok (), Function.update disk dest (some (tenantId.bytes.toList, 10 ^ 10)))

/-- Both tenants have a file: the one is older than at the remote, the other is not. -/
def sampleFiles : TimedFiles
  | "000102030405060708090a0b0c0d0e0f.saga" => some ([], 4 * 10 ^ 9)
  | "101112131415161718191a1b1c1d1e1f.saga" => some ([], 5 * 10 ^ 9)
  | _ => none

/-- A registry with one remote. -/
def sampleRemotes : HybridRegistry where
  localRegistry := ⟨⟨[]⟩⟩
  remotes := [⟨"http://x:9000", fun _ => .ok []⟩]
  distinct := by decide

/-- A pull fetches the older file, and its files are contained. -/
theorem HybridRegistry.pullSagasInto_contained_sample : ∃ after,
    sampleRemotes.pullSagasInto sampleSource sampleFiles = .ok (1, after) ∧
      ∀ name, Contained sampleSource sampleRemotes.remotes
        (fun disk name => (disk name).map Prod.fst)
        (fun _ tenantId content => content = some tenantId.bytes.toList) sampleFiles after
        name := by
  have writes : sampleSource.Writes (fun disk name => (disk name).map Prod.fst)
      (fun _ tenantId content => content = some tenantId.bytes.toList) := by
    refine ⟨fun disk _ tenantId dest name other => ?_, fun disk _ tenantId dest name _ other => ?_,
      fun disk _ tenantId dest => .inr ?_⟩
    · exact congrArg (Option.map Prod.fst) (Function.update_of_ne other _ _)
    · show shouldFetch ((Function.update disk dest _ name).map _) _ = _
      rw [Function.update_of_ne other]
      rfl
    · exact congrArg (Option.map Prod.fst) (Function.update_self dest _ disk)
  have counted : (sampleRemotes.pullSagasInto sampleSource sampleFiles).map Prod.fst =
      (.ok 1 : Result Nat) := by
    decide +kernel
  cases pulled : sampleRemotes.pullSagasInto sampleSource sampleFiles with
  | error fault =>
    rw [pulled] at counted
    cases counted
  | ok out =>
    rw [pulled] at counted
    have one : out.1 = 1 := Except.ok.inj counted
    refine ⟨out.2, by rw [← one], HybridRegistry.pullSagasInto_contained writes pulled⟩

end Hansa
