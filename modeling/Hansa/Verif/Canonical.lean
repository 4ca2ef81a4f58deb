import Hansa.Chain

/-!
# The signed encoding is unambiguous

The canonical bytes are self-delimiting field by field, so two statements with the same bytes
are the same statement. The bounds are those of the length prefixes: a string or a member
list shorter than 2³², and paths that are valid UTF-8. The length written in front of a whole
member record needs no bound, because the record delimits itself.
-/

namespace Hansa

/-! ## Fields -/

/-- A string fits its length prefix. -/
abbrev Fits (s : String) : Prop := (utf8 s).length < 2 ^ 32

/-- A `u32` field is self-delimiting. -/
theorem u32_selfDelimiting :
    SelfDelimiting (fun _ => True) (fun x : UInt32 => littleEndian 4 x.toNat) :=
  fun _ _ _ _ _ _ same =>
    (littleEndian_selfDelimiting 4).comap (fun _ _ _ _ => UInt32.toNat_inj.mp)
      (UInt32.toNat_lt _) (UInt32.toNat_lt _) same

/-- A `u64` field is self-delimiting. -/
theorem u64_selfDelimiting :
    SelfDelimiting (fun _ => True) (fun x : UInt64 => littleEndian 8 x.toNat) :=
  fun _ _ _ _ _ _ same =>
    (littleEndian_selfDelimiting 8).comap (fun _ _ _ _ => UInt64.toNat_inj.mp)
      (UInt64.toNat_lt _) (UInt64.toNat_lt _) same

/-- An `i64` field is self-delimiting. -/
theorem i64_selfDelimiting :
    SelfDelimiting (fun _ => True) (fun x : Int64 => littleEndian 8 x.toUInt64.toNat) :=
  u64_selfDelimiting.comap (fun a b _ _ same => by
    cases a
    cases b
    exact congrArg Int64.ofUInt64 same)

/-- A fixed-width block is self-delimiting. -/
theorem fixed_selfDelimiting (n : Nat) :
    SelfDelimiting (fun _ => True) (fun block : Bytes n => block.toList) :=
  SelfDelimiting.of_width n (fun _ => Vector.length_toList) (fun _ _ _ _ => Vector.toList_inj.mp)

/-- A string behind its length is self-delimiting while the length fits. -/
theorem str_selfDelimiting :
    SelfDelimiting Fits
      (fun s => littleEndian 4 ((utf8 s).length % 2 ^ 32) ++ utf8 s) := by
  intro a b s t ha hb same
  simp only [Nat.mod_eq_of_lt ha, Nat.mod_eq_of_lt hb] at same
  exact (SelfDelimiting.prefixed (littleEndian_selfDelimiting 4)).comap
    (fun _ _ _ _ same => utf8_injective same) ha hb same

/-! ## Members -/

/-- Every variable-length field of a location fits its prefix, and a path is valid UTF-8. -/
def TenantLocation.Sized : TenantLocation → Prop
  | .path p => p.IsUtf8 ∧ p.bytes.length < 2 ^ 32
  | .resp3 endpoint auth => Fits endpoint ∧ ∀ a ∈ auth, Fits a.1 ∧ Fits a.2
  | .http baseUrl bearer => Fits baseUrl ∧ ∀ token ∈ bearer, Fits token

/-- The part of a member's canonical bytes that encodes its location. -/
def TenantLocation.encode : TenantLocation → List UInt8
  | .path p => 0 :: (Writer.new.str p.toStringLossy).bytes
  | .resp3 endpoint auth => 1 :: ((Writer.new.str endpoint).bytes ++
      auth.elim [0] (fun a => 1 :: ((Writer.new.str a.1).bytes ++ (Writer.new.str a.2).bytes)))
  | .http baseUrl bearer => 2 :: ((Writer.new.str baseUrl).bytes ++
      bearer.elim [0] (fun token => 1 :: (Writer.new.str token).bytes))

/-- A member's canonical bytes are its fields in order. -/
theorem MemberRecord.canonical_eq (m : MemberRecord) :
    m.canonical = m.tenantId.bytes.toList ++ (littleEndian 4 m.embeddingDim.toNat ++
      (littleEndian 8 m.joinedAt.toUInt64.toNat ++ m.tenantLocation.encode)) := by
  obtain ⟨id, location, dim, joined⟩ := m
  cases location with
  | path path =>
    simp [canonical, TenantLocation.encode, Writer.new, Writer.fixed, Writer.u32, Writer.i64,
      Writer.u8, Writer.str, Writer.prefixed, Writer.finish]
  | resp3 endpoint auth =>
    cases auth <;>
      simp [canonical, TenantLocation.encode, Writer.new, Writer.fixed, Writer.u32, Writer.i64,
        Writer.u8, Writer.str, Writer.prefixed, Writer.finish]
  | http baseUrl bearer =>
    cases bearer <;>
      simp [canonical, TenantLocation.encode, Writer.new, Writer.fixed, Writer.u32, Writer.i64,
        Writer.u8, Writer.str, Writer.prefixed, Writer.finish]

/-- A written string is self-delimiting while its length fits. -/
theorem writeStr_selfDelimiting : SelfDelimiting Fits (fun s => (Writer.new.str s).bytes) :=
  str_selfDelimiting

/-- A location is self-delimiting. -/
theorem TenantLocation.encode_selfDelimiting :
    SelfDelimiting TenantLocation.Sized TenantLocation.encode := by
  intro a b s t ha hb same
  cases a with
  | path p =>
    cases b with
    | path q =>
      simp only [encode, List.cons_append, List.cons.injEq, true_and] at same
      obtain ⟨lossy, rest⟩ := writeStr_selfDelimiting
        (by simpa [Fits, ← PathBuf.bytes_of_isUtf8 ha.1] using ha.2)
        (by simpa [Fits, ← PathBuf.bytes_of_isUtf8 hb.1] using hb.2) same
      have bytes : p.bytes = q.bytes := by
        rw [PathBuf.bytes_of_isUtf8 ha.1, PathBuf.bytes_of_isUtf8 hb.1, lossy]
      exact ⟨congrArg TenantLocation.path (congrArg PathBuf.mk bytes), rest⟩
    | resp3 => simp [encode] at same
    | http => simp [encode] at same
  | resp3 endpoint auth =>
    cases b with
    | path => simp [encode] at same
    | resp3 endpoint' auth' =>
      simp only [encode, List.cons_append, List.cons.injEq, true_and, List.append_assoc] at same
      obtain ⟨rfl, afterEndpoint⟩ := writeStr_selfDelimiting ha.1 hb.1 same
      obtain ⟨rfl, rest⟩ := SelfDelimiting.option
        (writeStr_selfDelimiting.pair writeStr_selfDelimiting) (by decide) ha.2 hb.2 afterEndpoint
      exact ⟨rfl, rest⟩
    | http => simp [encode] at same
  | http baseUrl bearer =>
    cases b with
    | path => simp [encode] at same
    | resp3 => simp [encode] at same
    | http baseUrl' bearer' =>
      simp only [encode, List.cons_append, List.cons.injEq, true_and, List.append_assoc] at same
      obtain ⟨rfl, afterUrl⟩ := writeStr_selfDelimiting ha.1 hb.1 same
      obtain ⟨rfl, rest⟩ := SelfDelimiting.option writeStr_selfDelimiting (by decide)
        ha.2 hb.2 afterUrl
      exact ⟨rfl, rest⟩

/-- Every variable-length field of a member fits its prefix. -/
def MemberRecord.Sized (m : MemberRecord) : Prop := m.tenantLocation.Sized

/-- A member record is self-delimiting. -/
theorem MemberRecord.canonical_selfDelimiting :
    SelfDelimiting MemberRecord.Sized MemberRecord.canonical := by
  rintro ⟨id, location, dim, joined⟩ ⟨id', location', dim', joined'⟩ s t ha hb same
  simp only [canonical_eq, List.append_assoc] at same
  obtain ⟨ids, afterId⟩ := fixed_selfDelimiting 16 trivial trivial same
  obtain ⟨rfl, afterDim⟩ := u32_selfDelimiting trivial trivial afterId
  obtain ⟨rfl, afterJoined⟩ := i64_selfDelimiting trivial trivial afterDim
  obtain ⟨rfl, rest⟩ := TenantLocation.encode_selfDelimiting ha hb afterJoined
  obtain rfl : id = id' := congrArg TenantId.mk ids
  exact ⟨rfl, rest⟩

/-- A member record behind its own length is self-delimiting, even where the length wraps. -/
theorem prefixedMember_selfDelimiting :
    SelfDelimiting MemberRecord.Sized (fun m => (Writer.new.prefixed m.canonical).bytes) := by
  intro a b s t ha hb same
  simp only [Writer.prefixed, Writer.new, List.nil_append] at same
  exact MemberRecord.canonical_selfDelimiting.after_header
    (fun m => littleEndian 4 (m.canonical.length % 2 ^ 32))
    (fun _ => length_littleEndian _ _) ha hb same

/-! ## The genesis record -/

/-- A flag byte determines its flag. -/
theorem flag_selfDelimiting :
    SelfDelimiting (fun _ => True) (fun flag : Bool => [if flag then (1 : UInt8) else 0]) :=
  SelfDelimiting.of_width 1 (fun _ => rfl) (by decide)

/-- A genesis record is self-delimiting: all its fields have constant width. -/
theorem Genesis.canonical_selfDelimiting :
    SelfDelimiting (fun _ => True) Genesis.canonical := by
  rintro ⟨v, ⟨id⟩, ⟨key⟩, dim, created, rotation⟩ ⟨v', ⟨id'⟩, ⟨key'⟩, dim', created', rotation'⟩
    s t - - same
  simp only [canonical, Writer.new, Writer.u8, Writer.u32, Writer.i64, Writer.fixed,
    Writer.finish, List.nil_append, List.append_assoc] at same
  obtain ⟨rfl, afterVersion⟩ := List.cons.inj same
  obtain ⟨rfl, afterId⟩ := fixed_selfDelimiting 32 trivial trivial afterVersion
  obtain ⟨rfl, afterKey⟩ := fixed_selfDelimiting 32 trivial trivial afterId
  obtain ⟨rfl, afterDim⟩ := u32_selfDelimiting trivial trivial afterKey
  obtain ⟨rfl, afterCreated⟩ := i64_selfDelimiting trivial trivial afterDim
  obtain ⟨rfl, rest⟩ := flag_selfDelimiting trivial trivial afterCreated
  exact ⟨rfl, rest⟩

/-! ## Bodies and statements -/

/-- Every variable-length field of a body fits its prefix. -/
def Body.Sized : Body → Prop
  | .genesis _ => True
  | .admitMember member _ => member.Sized
  | .revoke _ _ reason => ∀ text ∈ reason, Fits text
  | .checkpoint members .. => members.length < 2 ^ 32 ∧ ∀ m ∈ members, m.Sized

/-- The bytes a body adds to a writer. -/
def Body.encode (body : Body) : List UInt8 := (body.writeCanonical .new).bytes

/-- Prefixed blocks written in a row are appended in order. -/
theorem foldl_prefixed_bytes {α : Type} (encode : α → List UInt8) (xs : List α) (w : Writer) :
    (xs.foldl (fun w x => w.prefixed (encode x)) w).bytes =
      w.bytes ++ xs.flatMap (fun x => (Writer.new.prefixed (encode x)).bytes) := by
  induction xs generalizing w with
  | nil => simp
  | cons x xs ih =>
    rw [List.foldl_cons, ih]
    simp [Writer.prefixed, Writer.new]

/-- Writing a body appends its bytes, whatever was written before. -/
theorem Body.writeCanonical_bytes (body : Body) (w : Writer) :
    (body.writeCanonical w).bytes = w.bytes ++ body.encode := by
  cases body with
  | genesis g => simp [encode, writeCanonical, Writer.u8, Writer.fixed, Writer.new]
  | admitMember member memberPub =>
    cases memberPub <;>
      simp [encode, writeCanonical, Writer.u8, Writer.fixed, Writer.prefixed, Writer.new]
  | revoke tenantId time reason =>
    cases reason <;>
      simp [encode, writeCanonical, Writer.u8, Writer.fixed, Writer.i64, Writer.str,
        Writer.prefixed, Writer.new]
  | checkpoint members embeddingDim time =>
    simp [encode, writeCanonical, foldl_prefixed_bytes, Writer.u8, Writer.u32, Writer.i64,
      Writer.new]

/-- A genesis body is a tag and the genesis bytes. -/
theorem Body.encode_genesis (g : Genesis) : (Body.genesis g).encode = 0 :: g.canonical := by
  simp [encode, writeCanonical, Writer.u8, Writer.fixed, Writer.new]

/-- An admit body is a tag, the prefixed member and the optional key. -/
theorem Body.encode_admitMember (member : MemberRecord) (memberPub : Option (Bytes 32)) :
    (Body.admitMember member memberPub).encode =
      1 :: ((Writer.new.prefixed member.canonical).bytes ++
        memberPub.elim [0] (fun key => 1 :: key.toList)) := by
  cases memberPub <;>
    simp [encode, writeCanonical, Writer.u8, Writer.fixed, Writer.prefixed, Writer.new]

/-- A revoke body is a tag, the tenant id, the time and the optional reason. -/
theorem Body.encode_revoke (tenantId : TenantId) (time : Int64) (reason : Option String) :
    (Body.revoke tenantId time reason).encode = 2 :: (tenantId.bytes.toList ++
      (littleEndian 8 time.toUInt64.toNat ++
        reason.elim [0] (fun text => 1 :: (Writer.new.str text).bytes))) := by
  cases reason <;>
    simp [encode, writeCanonical, Writer.u8, Writer.fixed, Writer.i64, Writer.str,
      Writer.prefixed, Writer.new]

/-- A checkpoint body is a tag, the dimension, the time and the counted members. -/
theorem Body.encode_checkpoint (members : List MemberRecord) (embeddingDim : UInt32)
    (time : Int64) :
    (Body.checkpoint members embeddingDim time).encode = 3 :: (littleEndian 4 embeddingDim.toNat ++
      (littleEndian 8 time.toUInt64.toNat ++ (littleEndian 4 (members.length % 2 ^ 32) ++
        members.flatMap (fun m => (Writer.new.prefixed m.canonical).bytes)))) := by
  simp [encode, writeCanonical, foldl_prefixed_bytes, Writer.u8, Writer.u32, Writer.i64,
    Writer.new]

/-- A body is self-delimiting. -/
theorem Body.encode_selfDelimiting : SelfDelimiting Body.Sized Body.encode := by
  intro a b s t ha hb same
  cases a with
  | genesis g =>
    cases b with
    | genesis g' =>
      simp only [encode_genesis, List.cons_append, List.cons.injEq, true_and] at same
      obtain ⟨rfl, rest⟩ := Genesis.canonical_selfDelimiting trivial trivial same
      exact ⟨rfl, rest⟩
    | admitMember => simp [encode_genesis, encode_admitMember] at same
    | revoke => simp [encode_genesis, encode_revoke] at same
    | checkpoint => simp [encode_genesis, encode_checkpoint] at same
  | admitMember member memberPub =>
    cases b with
    | genesis => simp [encode_genesis, encode_admitMember] at same
    | admitMember member' memberPub' =>
      simp only [encode_admitMember, List.cons_append, List.cons.injEq, true_and,
        List.append_assoc] at same
      obtain ⟨rfl, afterMember⟩ := prefixedMember_selfDelimiting ha hb same
      obtain ⟨rfl, rest⟩ := SelfDelimiting.option (fixed_selfDelimiting 32) (by decide)
        (fun _ _ => trivial) (fun _ _ => trivial) afterMember
      exact ⟨rfl, rest⟩
    | revoke => simp [encode_admitMember, encode_revoke] at same
    | checkpoint => simp [encode_admitMember, encode_checkpoint] at same
  | revoke tenantId time reason =>
    cases b with
    | genesis => simp [encode_genesis, encode_revoke] at same
    | admitMember => simp [encode_admitMember, encode_revoke] at same
    | revoke tenantId' time' reason' =>
      simp only [encode_revoke, List.cons_append, List.cons.injEq, true_and,
        List.append_assoc] at same
      obtain ⟨ids, afterId⟩ := fixed_selfDelimiting 16 trivial trivial same
      obtain ⟨rfl, afterTime⟩ := i64_selfDelimiting trivial trivial afterId
      obtain ⟨rfl, rest⟩ := SelfDelimiting.option writeStr_selfDelimiting (by decide)
        ha hb afterTime
      obtain rfl : tenantId = tenantId' := congrArg TenantId.mk ids
      exact ⟨rfl, rest⟩
    | checkpoint => simp [encode_revoke, encode_checkpoint] at same
  | checkpoint members embeddingDim time =>
    cases b with
    | genesis => simp [encode_genesis, encode_checkpoint] at same
    | admitMember => simp [encode_admitMember, encode_checkpoint] at same
    | revoke => simp [encode_revoke, encode_checkpoint] at same
    | checkpoint members' embeddingDim' time' =>
      simp only [encode_checkpoint, Nat.mod_eq_of_lt ha.1, Nat.mod_eq_of_lt hb.1,
        List.cons_append, List.cons.injEq, true_and, List.append_assoc] at same
      obtain ⟨rfl, afterDim⟩ := u32_selfDelimiting trivial trivial same
      obtain ⟨rfl, afterTime⟩ := i64_selfDelimiting trivial trivial afterDim
      rw [← List.append_assoc, ← List.append_assoc (littleEndian 4 members'.length)] at afterTime
      obtain ⟨rfl, rest⟩ := prefixedMember_selfDelimiting.counted
        (littleEndian_selfDelimiting 4) ha hb afterTime
      exact ⟨rfl, rest⟩

/-- Every variable-length field of a statement fits its prefix. -/
def Statement.Sized (s : Statement) : Prop := s.body.Sized

/-- A statement's canonical bytes are its fields in order. -/
theorem Statement.canonical_eq (s : Statement) :
    s.canonical = littleEndian 8 s.seq.toNat ++ (s.prev.toList ++
      (s.body.encode ++ s.signedBy.asBytes.toList)) := by
  simp [canonical, Writer.finish, Writer.fixed, Body.writeCanonical_bytes, Writer.u64, Writer.new]

/-- A statement is self-delimiting. -/
theorem Statement.canonical_selfDelimiting :
    SelfDelimiting Statement.Sized Statement.canonical := by
  rintro ⟨seq, prev, body, ⟨key⟩⟩ ⟨seq', prev', body', ⟨key'⟩⟩ s t ha hb same
  simp only [canonical_eq, List.append_assoc] at same
  obtain ⟨rfl, afterSeq⟩ := u64_selfDelimiting trivial trivial same
  obtain ⟨rfl, afterPrev⟩ := fixed_selfDelimiting 32 trivial trivial afterSeq
  obtain ⟨rfl, afterBody⟩ := Body.encode_selfDelimiting ha hb afterPrev
  obtain ⟨rfl, rest⟩ := fixed_selfDelimiting 32 trivial trivial afterBody
  exact ⟨rfl, rest⟩

/-! ## Signed messages -/

/-- The two domain tags of the crate. -/
def IsDomain (domain : List UInt8) : Prop := domain = domainGenesis ∨ domain = domainLink

/-- A framed message determines its domain and its message. -/
theorem framed_injective {domain domain' msg msg' : List UInt8} (first : IsDomain domain)
    (second : IsDomain domain') (same : framed domain msg = framed domain' msg') :
    domain = domain' ∧ msg = msg' := by
  rcases first with rfl | rfl <;> rcases second with rfl | rfl
  · exact ⟨rfl, List.append_cancel_left same⟩
  · exact absurd same (framed_genesis_ne_link msg msg')
  · exact absurd same.symm (framed_genesis_ne_link msg' msg)
  · exact ⟨rfl, List.append_cancel_left same⟩

/-- An object the skipper signs: a genesis record, or the statement of a link. -/
inductive SignedObject where
  /-- Signed by `Genesis::found`. -/
  | genesis (genesis : Genesis)
  /-- Signed by `Link::signed`. -/
  | link (statement : Statement)

/-- The framed bytes that the signature of an object covers. -/
def SignedObject.message : SignedObject → List UInt8
  | .genesis g => framed domainGenesis g.canonical
  | .link s => framed domainLink s.canonical

/-- Every variable-length field of the object fits its prefix. -/
def SignedObject.Sized : SignedObject → Prop
  | .genesis _ => True
  | .link s => s.Sized

/-- Equal canonical bytes are the bytes of one statement or one genesis record, equal framed
bytes carry one domain and one message, and so a signature covers one object only. -/
theorem canonical_unambiguous :
    (∀ s s' : Statement, s.Sized → s'.Sized → s.canonical = s'.canonical →
      s.seq = s'.seq ∧ s.prev = s'.prev ∧ s.body = s'.body ∧ s.signedBy = s'.signedBy) ∧
    (∀ g g' : Genesis, g.canonical = g'.canonical → g = g') ∧
    (∀ domain domain' msg msg', IsDomain domain → IsDomain domain' →
      framed domain msg = framed domain' msg' → domain = domain' ∧ msg = msg') ∧
    (∀ o o' : SignedObject, o.Sized → o'.Sized → o.message = o'.message → o = o') := by
  have statements : ∀ s s' : Statement, s.Sized → s'.Sized → s.canonical = s'.canonical → s = s' :=
    fun _ _ => Statement.canonical_selfDelimiting.injective
  have records : ∀ g g' : Genesis, g.canonical = g'.canonical → g = g' :=
    fun _ _ => Genesis.canonical_selfDelimiting.injective trivial trivial
  refine ⟨?_, records, fun _ _ _ _ => framed_injective, ?_⟩
  · intro s s' hs hs' same
    obtain rfl := statements s s' hs hs' same
    exact ⟨rfl, rfl, rfl, rfl⟩
  · intro o o' ho ho' same
    cases o with
    | genesis g =>
      cases o' with
      | genesis g' => exact congrArg _ (records g g' (List.append_cancel_left same))
      | link s' => exact absurd same (framed_genesis_ne_link _ _)
    | link s =>
      cases o' with
      | genesis g' => exact absurd same.symm (framed_genesis_ne_link _ _)
      | link s' => exact congrArg _ (statements s s' ho ho' (List.append_cancel_left same))

/-- A statement that admits a member whose endpoint takes these credentials. -/
def admitWithAuth (user pass : String) : Statement :=
  { seq := 1
    prev := Vector.replicate 32 0
    body := .admitMember
      { tenantId := ⟨Vector.replicate 16 7⟩
        tenantLocation := .resp3 "localhost:6379" (some (user, pass))
        embeddingDim := 3
        joinedAt := 0 } none
    signedBy := ⟨Vector.replicate 32 1⟩ }

/-- The statement is sized when its credentials are. -/
theorem admitWithAuth_sized {user pass : String} (userFits : Fits user) (passFits : Fits pass) :
    (admitWithAuth user pass).Sized := by
  refine ⟨show (utf8 "localhost:6379").length < 2 ^ 32 by decide, ?_⟩
  rintro auth ⟨⟩
  exact ⟨userFits, passFits⟩

/-- A letter moved from the password to the user name changes the signed bytes. -/
theorem canonical_unambiguous_auth :
    (admitWithAuth "a" "bc").canonical ≠ (admitWithAuth "ab" "c").canonical := by
  intro same
  obtain ⟨-, -, bodies, -⟩ := canonical_unambiguous.1 _ _
    (admitWithAuth_sized (show (utf8 "a").length < 2 ^ 32 by decide)
      (show (utf8 "bc").length < 2 ^ 32 by decide))
    (admitWithAuth_sized (show (utf8 "ab").length < 2 ^ 32 by decide)
      (show (utf8 "c").length < 2 ^ 32 by decide)) same
  exact absurd bodies (by decide)

end Hansa
