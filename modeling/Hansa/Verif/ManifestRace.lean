import Mathlib.Algebra.BigOperators.Group.Finset.Basic
import Hansa.HeadCache
import Hansa.Library.ReplacedFile
import Hansa.ManifestFile
import Hansa.Verif.LogFile

/-!
# Bumps at the same time

A bump reads the manifest and replaces its file without a lock, so a bump between the two is
lost, and two bumps share one temporary file. When no bump opens the temporary file while
another holds it, and the manifest is still the one that was read where a bump renames, every
bump counts: the counters are the sums of all bumps that returned, and all bumps return.
-/

namespace Hansa

open ReplacedFile

/-- What the manifests rely on of `serde_json`. -/
structure ManifestJson.Lawful (json : ManifestJson) : Prop where
  /-- An encoded manifest is read back. -/
  roundTrip : ∀ m, json.fromSlice (json.toVec m) = some m

/-! ## Counters -/

/-- The counter nearest to a number. -/
def saturate (n : Nat) : UInt64 := UInt64.ofNat (min n (2 ^ 64 - 1))

/-- A counter is nearest to its own number. -/
theorem saturate_toNat (x : UInt64) : saturate x.toNat = x := by
  have below := x.toNat_lt
  rw [saturate, min_eq_left (by omega), UInt64.ofNat_toNat]

/-- The number of a saturated counter. -/
theorem toNat_saturate (n : Nat) : (saturate n).toNat = min n (2 ^ 64 - 1) := by
  rw [saturate, UInt64.toNat_ofNat', Nat.mod_eq_of_lt (by omega)]

/-- Adding to a saturated counter is saturating the sum. -/
theorem saturatingAdd_saturate (n : Nat) (x : UInt64) :
    UInt64.saturatingAdd (saturate n) x = saturate (n + x.toNat) := by
  apply UInt64.toNat_inj.mp
  have below := x.toNat_lt
  rw [UInt64.saturatingAdd, toNat_saturate, toNat_saturate]
  split
  · rw [UInt64.toNat_add, toNat_saturate]
    omega
  · rw [UInt64.toNat_ofNat']
    omega

/-! ## Bumps one after another -/

variable {json : ManifestJson} {peer : TenantId} {ι : Type*} {bumps : ι → Bump}

/-- What a bump adds to the total. -/
def Bump.totalDelta : Bump → UInt64
  | total delta => delta
  | useful _ _ => 0

/-- What a bump adds to the useful hits. -/
def Bump.usefulDelta : Bump → UInt64
  | total _ => 0
  | useful delta _ => delta

/-- What each of several bumps writes. -/
def bumpUpdate (json : ManifestJson) (peer : TenantId) (bumps : ι → Bump) (call : ι) :
    Update UInt8 TenantId := bumpFile json peer (bumps call)

/-- A manifest that counts some bumps on top of a first one. -/
structure Counts (peer : TenantId) (bumps : ι → Bump) (first : PeerManifest) (taken : List ι)
    (m : PeerManifest) : Prop where
  /-- It is the peer's. -/
  own : m.peerId = peer
  /-- Its total counts the bumps. -/
  total : m.totalHits =
    saturate (first.totalHits.toNat + (taken.map fun call => (bumps call).totalDelta.toNat).sum)
  /-- Its useful hits count the bumps. -/
  useful : m.usefulHits =
    saturate (first.usefulHits.toNat + (taken.map fun call => (bumps call).usefulDelta.toNat).sum)

/-- A manifest counts no bumps on top of itself. -/
theorem Counts.nil {m : PeerManifest} (own : m.peerId = peer) : Counts peer bumps m [] m :=
  ⟨own, (saturate_toNat _).symm, (saturate_toNat _).symm⟩

/-- A bumped manifest counts one more. -/
theorem Counts.concat {first m : PeerManifest} {taken : List ι}
    (counts : Counts peer bumps first taken m) (call : ι) :
    Counts peer bumps first (taken ++ [call]) ((bumps call).apply m) := by
  obtain ⟨own, total, useful⟩ := counts
  cases isBump : bumps call with
  | total delta =>
    refine ⟨own, ?_, ?_⟩
    · simp only [Bump.apply, total, saturatingAdd_saturate, List.map_append, List.sum_append,
        List.map_singleton, List.sum_singleton, isBump, Bump.totalDelta, Nat.add_assoc]
    · simp [Bump.apply, useful, isBump, Bump.usefulDelta]
  | useful delta now =>
    refine ⟨own, ?_, ?_⟩
    · simp [Bump.apply, total, isBump, Bump.totalDelta]
    · simp only [Bump.apply, useful, saturatingAdd_saturate, List.map_append, List.sum_append,
        List.map_singleton, List.sum_singleton, isBump, Bump.usefulDelta, Nat.add_assoc]

/-- A bump leaves the id of the manifest. -/
theorem peerId_apply (bump : Bump) (m : PeerManifest) : (bump.apply m).peerId = m.peerId := by
  cases bump <;> rfl

/-- On the peer's own manifest, a bump on the file is a bump of what the file holds. -/
theorem bumpFile_own {file : Option (List UInt8)}
    (own : (readManifest json peer file).peerId = peer) (bump : Bump) :
    bumpFile json peer bump file = .ok (json.toVec (bump.apply (readManifest json peer file))) := by
  rw [bumpFile, if_pos ((peerId_apply bump _).trans own)]

/-- What was written is read. -/
theorem readManifest_toVec (lawful : json.Lawful) (m : PeerManifest) :
    readManifest json peer (some (json.toVec m)) = m := by
  rw [readManifest, Option.bind_some, lawful.roundTrip, Option.getD_some]

/-- Bumps that take effect at once and one after another are all counted. -/
theorem counts_of_serial (lawful : json.Lawful) {before after : Option (List UInt8)}
    {order : List ι} (own : (readManifest json peer before).peerId = peer)
    (serial : Run (Atomic (bumpUpdate json peer bumps)) before order after) :
    Counts peer bumps (readManifest json peer before) order (readManifest json peer after) := by
  refine serial.labelled (fun file taken => Counts peer bumps (readManifest json peer before) taken
    (readManifest json peer file)) (.nil own) ?_
  rintro file call _ taken counts ⟨new, computes, rfl⟩
  rw [bumpUpdate, bumpFile_own counts.own] at computes
  obtain rfl := Except.ok.inj computes
  rw [readManifest_toVec lawful]
  exact counts.concat call

/-- On the peer's own manifest, a bump on the file is the bump of the store. -/
theorem read_bump_store (store : ManifestStore) (own : (store.read peer).peerId = peer)
    (delta now : UInt64) :
    (store.bumpTotal peer delta).read peer = (Bump.total delta).apply (store.read peer) ∧
      (store.bumpUseful peer delta now).read peer =
        (Bump.useful delta now).apply (store.read peer) := by
  have written : ∀ m : PeerManifest, m.peerId = peer → (store.write m).read peer = m := by
    rintro m rfl
    rw [ManifestStore.write, ManifestStore.read, Function.update_self, Option.getD_some]
  exact ⟨written _ own, written _ own⟩

/-! ## Bumps that overlap -/

/-- In an unraced run on the peer's own manifest no bump fails, and the counters are the first
ones and the sums of all bumps that returned. -/
theorem manifest_counts_exact [DecidableEq ι] (lawful : json.Lawful) {start last : State ι UInt8}
    {actions : List (Action ι)} (starts : start.Start)
    (own : (readManifest json peer start.disk.read).peerId = peer)
    (run : UnracedRun (bumpUpdate json peer bumps) start actions last) :
    ∃ done : Finset ι, (∀ call, call ∈ done ↔ last.phase call = .succeeded) ∧
      (∀ call, last.phase call ≠ .failed) ∧
      (readManifest json peer last.disk.read).totalHits =
        saturate ((readManifest json peer start.disk.read).totalHits.toNat +
          ∑ call ∈ done, (bumps call).totalDelta.toNat) ∧
      (readManifest json peer last.disk.read).usefulHits =
        saturate ((readManifest json peer start.disk.read).usefulHits.toNat +
          ∑ call ∈ done, (bumps call).usefulDelta.toNat) := by
  obtain ⟨order, nodup, members, serial⟩ := serializable starts run
  have counts := counts_of_serial lawful own serial
  refine ⟨order.toFinset, fun call => by rw [List.mem_toFinset, members], ?_, ?_, ?_⟩
  · intro call failed
    obtain ⟨taken, mid, e, before, refuses⟩ := failed_of_run starts run failed
    obtain ⟨order', -, -, serial'⟩ := serializable starts before
    have own' := (counts_of_serial lawful own serial').own
    rw [bumpUpdate, bumpFile_own own'] at refuses
    cases refuses
  · rw [counts.total, List.sum_toFinset _ nodup]
  · rw [counts.useful, List.sum_toFinset _ nodup]

/-! ## Manifests as text -/

/-- The numbers of a manifest, in the order of the fields. -/
def manifestNumbers (m : PeerManifest) : List Nat :=
  m.peerId.bytes.toList.map UInt8.toNat ++
    [m.usefulHits.toNat, m.totalHits.toNat, m.lastUsefulAt.toNat]

/-- Numbers between commas. -/
def commaNumbers (numbers : List Nat) : List Char :=
  [','].intercalate (numbers.map (Nat.toDigits 10))

/-- A field of a record: its name, what stands around it, and its value. -/
def fieldText (name : String) (value : List Char) : List Char := name.toList ++ value

/-- The text of a manifest. -/
def manifestText (m : PeerManifest) : List Char :=
  fieldText "\x7b\"peer_id_bytes\":[" (commaNumbers (m.peerId.bytes.toList.map UInt8.toNat)) ++
    (fieldText "],\"useful_hits\":" (Nat.toDigits 10 m.usefulHits.toNat) ++
    (fieldText ",\"total_hits\":" (Nat.toDigits 10 m.totalHits.toNat) ++
    (fieldText ",\"last_useful_at\":" (Nat.toDigits 10 m.lastUsefulAt.toNat) ++
    fieldText "\x7d" [])))

/-- The manifest with the given numbers. -/
def manifestOfNumbers (numbers : List Nat) : Option PeerManifest :=
  match numbers.drop 16 with
  | [useful, total, last] =>
    if full : ((numbers.take 16).map UInt8.ofNat).toArray.size = 16 then
      some ⟨⟨⟨_, full⟩⟩, UInt64.ofNat useful, UInt64.ofNat total, UInt64.ofNat last⟩
    else none
  | _ => none

/-- Numbers and commas of a text. -/
def isNumeric (ch : Char) : Bool := ch.isDigit || ch = ','

/-- Manifests as the text that the derived encoding writes; a text is read by its numbers. -/
def sampleManifestJson : ManifestJson where
  toVec m := utf8 (String.ofList (manifestText m))
  fromSlice bytes := do
    let text ← fromUtf8 bytes
    let words := (text.toList.filter isNumeric).splitOn ','
    manifestOfNumbers (words.map fun word => Nat.ofDigitChars 10 word 0)

/-- The digits of a number have no comma. -/
theorem comma_notMem_toDigits (n : Nat) : ',' ∉ Nat.toDigits 10 n :=
  fun member => absurd (Nat.isDigit_of_mem_toDigits (by decide) (by decide) member) (by decide)

/-- The digits of a number are numeric. -/
theorem filter_toDigits (n : Nat) : (Nat.toDigits 10 n).filter isNumeric = Nat.toDigits 10 n := by
  refine List.filter_eq_self.mpr fun ch member => ?_
  rw [isNumeric, Nat.isDigit_of_mem_toDigits (by decide) (by decide) member]
  rfl

/-- One more number stands behind a comma. -/
theorem commaNumbers_cons_cons (n n' : Nat) (numbers : List Nat) :
    commaNumbers (n :: n' :: numbers) =
      Nat.toDigits 10 n ++ [','] ++ commaNumbers (n' :: numbers) :=
  List.intercalate_cons_cons

/-- Numbers between commas are numeric. -/
theorem filter_commaNumbers (numbers : List Nat) :
    (commaNumbers numbers).filter isNumeric = commaNumbers numbers := by
  induction numbers with
  | nil => rfl
  | cons n numbers ih =>
    cases numbers with
    | nil => simpa [commaNumbers] using filter_toDigits n
    | cons n' numbers =>
      rw [commaNumbers_cons_cons, List.filter_append, List.filter_append, filter_toDigits, ih]
      rfl

/-- A last number stands behind a comma. -/
theorem commaNumbers_concat {numbers : List Nat} (filled : numbers ≠ []) (n : Nat) :
    commaNumbers (numbers ++ [n]) = commaNumbers numbers ++ ',' :: Nat.toDigits 10 n := by
  induction numbers with
  | nil => exact absurd rfl filled
  | cons first numbers ih =>
    cases numbers with
    | nil => simp [commaNumbers]
    | cons second numbers =>
      rw [List.cons_append, List.cons_append, commaNumbers_cons_cons, commaNumbers_cons_cons,
        ← List.cons_append, ih (List.cons_ne_nil _ _), List.append_assoc _ (commaNumbers _)]

/-- Numbers between commas are read. -/
theorem read_commaNumbers {numbers : List Nat} (filled : numbers ≠ []) :
    ((commaNumbers numbers).splitOn ',').map (fun word => Nat.ofDigitChars 10 word 0) =
      numbers := by
  rw [commaNumbers, List.splitOn_intercalate, List.map_map]
  · exact (List.map_congr_left fun n _ => Nat.ofDigitChars_ten_toDigits).trans (List.map_id _)
  · intro word member
    obtain ⟨n, -, rfl⟩ := List.mem_map.mp member
    exact comma_notMem_toDigits n
  · simpa using filled

/-- The numeric characters of a field are those of its name and its value. -/
theorem filter_fieldText {name : String} {sep value : List Char}
    (plain : name.toList.filter isNumeric = sep) (numeric : value.filter isNumeric = value) :
    (fieldText name value).filter isNumeric = sep ++ value := by
  rw [fieldText, List.filter_append, plain, numeric]

/-- The numeric characters of a manifest's text are its numbers between commas. -/
theorem filter_manifestText (m : PeerManifest) :
    (manifestText m).filter isNumeric = commaNumbers (manifestNumbers m) := by
  have filled : m.peerId.bytes.toList.map UInt8.toNat ≠ [] :=
    List.ne_nil_of_length_pos (by simp)
  have opens : "\x7b\"peer_id_bytes\":[".toList.filter isNumeric = [] := by simp [isNumeric]
  have useful : "],\"useful_hits\":".toList.filter isNumeric = [','] := by simp [isNumeric]
  have total : ",\"total_hits\":".toList.filter isNumeric = [','] := by simp [isNumeric]
  have last : ",\"last_useful_at\":".toList.filter isNumeric = [','] := by simp [isNumeric]
  have closes : "\x7d".toList.filter isNumeric = [] := by simp [isNumeric]
  have numbers : manifestNumbers m = m.peerId.bytes.toList.map UInt8.toNat ++
      [m.usefulHits.toNat] ++ [m.totalHits.toNat] ++ [m.lastUsefulAt.toNat] := by
    simp [manifestNumbers]
  rw [numbers, commaNumbers_concat (by simp), commaNumbers_concat (by simp),
    commaNumbers_concat filled, manifestText]
  simp only [List.filter_append]
  rw [filter_fieldText opens (filter_commaNumbers _), filter_fieldText useful (filter_toDigits _),
    filter_fieldText total (filter_toDigits _), filter_fieldText last (filter_toDigits _),
    filter_fieldText closes rfl]
  simp

/-- A manifest is the one with its numbers. -/
theorem manifestOfNumbers_manifestNumbers (m : PeerManifest) :
    manifestOfNumbers (manifestNumbers m) = some m := by
  have sixteen : (m.peerId.bytes.toList.map UInt8.toNat).length = 16 := by simp
  have bytes : (m.peerId.bytes.toList.map UInt8.toNat).map UInt8.ofNat = m.peerId.bytes.toList := by
    rw [List.map_map]
    exact (List.map_congr_left fun b _ => UInt8.ofNat_toNat).trans (List.map_id _)
  have taken : (manifestNumbers m).take 16 = m.peerId.bytes.toList.map UInt8.toNat := by
    rw [manifestNumbers, List.take_left' sixteen]
  have dropped : (manifestNumbers m).drop 16 =
      [m.usefulHits.toNat, m.totalHits.toNat, m.lastUsefulAt.toNat] := by
    rw [manifestNumbers, List.drop_left' sixteen]
  have full : m.peerId.bytes.toList.toArray.size = 16 := by simp
  simp only [manifestOfNumbers, dropped, taken, bytes, dif_pos full, UInt64.ofNat_toNat]
  rfl

/-- The text of a manifest is read back. -/
theorem sampleManifestJson_lawful : sampleManifestJson.Lawful where
  roundTrip m := by
    have filled : manifestNumbers m ≠ [] := 
      List.append_ne_nil_of_right_ne_nil _ (List.cons_ne_nil _ _)
    simp only [sampleManifestJson, fromUtf8_utf8, bind, Option.bind, String.toList_ofList,
      filter_manifestText, read_commaNumbers filled]
    exact manifestOfNumbers_manifestNumbers m

/-! ## Two bumps -/

/-- A peer. -/
def somePeer : TenantId := ⟨Vector.replicate 16 0⟩

/-- Two bumps of the total by one. -/
def twoBumps (_ : Bool) : Bump := .total 1

/-- Without a file, each of them writes a total of one. -/
theorem bumpUpdate_none (call : Bool) : bumpUpdate sampleManifestJson somePeer twoBumps call none =
    .ok (sampleManifestJson.toVec ⟨somePeer, 0, 1, 0⟩) := rfl

/-- Two bumps in turn are both counted. -/
theorem manifest_counts_exact_in_turn : ∃ (last : State Bool UInt8) (done : Finset Bool),
    (∀ call, last.phase call = .succeeded) ∧
      (∀ call, call ∈ done ↔ last.phase call = .succeeded) ∧
      (readManifest sampleManifestJson somePeer last.disk.read).totalHits =
        saturate ((PeerManifest.empty somePeer).totalHits.toNat +
          ∑ call ∈ done, (twoBumps call).totalDelta.toNat) := by
  have second : bumpUpdate sampleManifestJson somePeer twoBumps false
      (some (sampleManifestJson.toVec ⟨somePeer, 0, 1, 0⟩)) =
      .ok (sampleManifestJson.toVec ⟨somePeer, 0, 2, 0⟩) := by
    have read : readManifest sampleManifestJson somePeer
        (some (sampleManifestJson.toVec ⟨somePeer, 0, 1, 0⟩)) = ⟨somePeer, 0, 1, 0⟩ :=
      readManifest_toVec sampleManifestJson_lawful _
    rw [bumpUpdate, bumpFile_own (by rw [read]), read]
    rfl
  obtain ⟨_, _, mid, last, run, later, -, -, succeeded, -, succeeded', others⟩ :=
    exists_in_turn (by decide) (bumpUpdate_none true) second
  obtain ⟨done, members, -, total, -⟩ :=
    manifest_counts_exact sampleManifestJson_lawful State.start_empty rfl (run.append later)
  refine ⟨last, done, fun call => ?_, members, total⟩
  cases call with
  | false => exact succeeded'
  | true => exact (others true (by decide)).trans succeeded

/-- Two bumps of the total by one that both read before either writes: both return, and the
total is one. -/
theorem overlapping_bumps_lost : ∃ actions last,
    Run (Step (bumpUpdate sampleManifestJson somePeer twoBumps)) (State.empty Bool UInt8)
      actions last ∧
    (∀ call, last.phase call = .succeeded) ∧
    (readManifest sampleManifestJson somePeer last.disk.read).totalHits = 1 := by
  obtain ⟨actions, more, mid, last, run, later, -, succeeded, -, held, succeeded', others⟩ :=
    exists_overlap (by decide) (bumpUpdate_none true) (bumpUpdate_none false)
  refine ⟨actions ++ more, last, run.append later, fun call => ?_, ?_⟩
  · cases call with
    | false => exact succeeded'
    | true => exact (others true (by decide)).trans succeeded
  · rw [held, readManifest_toVec sampleManifestJson_lawful]

end Hansa
