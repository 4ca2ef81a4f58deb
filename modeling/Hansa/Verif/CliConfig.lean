import Hansa.Cli.Config

/-!
# What changes of the configuration leave

The identity of an agent depends on the configuration by the tenant id that is listed first
under its two names. The commands change other members, the counter of a member, and the
active agent; only the removal of an agent can lose another one.
-/

namespace Hansa.Cli

/-! ## The encoding -/

/-- The laws of the encoding: what is written is read back, and integers have 64 bits with a
sign. -/
structure ConfigToml.Lawful (toml : ConfigToml) : Prop where
  /-- A configuration that is written is read back. -/
  roundTrip : ∀ config text, toml.toStringPretty config = .ok text → toml.fromStr text = .ok config
  /-- A counter is read as an integer that is not negative. -/
  range : ∀ text config, toml.fromStr text = .ok config →
    ∀ m ∈ config.members, m.nextRecordId.toNat < 2 ^ 63

/-- A written configuration is loaded. -/
theorem ConfigToml.Lawful.load_text {toml : ConfigToml} (lawful : toml.Lawful) (root : PathBuf)
    {config : Config} {text : String} (written : config.text toml = .ok text) :
    Config.load toml root (some (utf8 text)) = .ok config := by
  have encoded : toml.toStringPretty config = .ok text := by
    unfold Config.text at written
    split at written
    · next encoded =>
      rw [encoded, Except.ok.inj written]
    · cases written
  simp only [Config.load, fromUtf8_utf8, lawful.roundTrip config text encoded]

/-- A counter that is loaded has 63 bits. -/
theorem ConfigToml.Lawful.range_load {toml : ConfigToml} (lawful : toml.Lawful)
    {root : PathBuf} {file : Option (List UInt8)} {config : Config}
    (loaded : Config.load toml root file = .ok config) {m : Member}
    (member : m ∈ config.members) : m.nextRecordId.toNat < 2 ^ 63 := by
  unfold Config.load at loaded
  split at loaded
  · obtain rfl := Except.ok.inj loaded
    cases member
  · split at loaded
    · cases loaded
    · next text _ =>
      split at loaded
      · next read =>
        obtain rfl := Except.ok.inj loaded
        exact lawful.range text _ read m member
      · cases loaded

/-! ## What lists an agent -/

/-- What the identity of a member depends on. -/
def Member.names (m : Member) : String × String × String := (m.hansa, m.tenant, m.tenantIdHex)

/-- The tenant id of an agent, as the configuration writes it. -/
def Config.idHex (config : Config) (hansa tenant : String) : Option String :=
  (config.members.find? fun m => m.hansa = hansa ∧ m.tenant = tenant).map Member.tenantIdHex

/-- The id that is handed out is the counter, which is advanced. -/
theorem Member.allocRecordId_eq_ok {profile : Profile} {m m' : Member} {id : UInt64}
    (allocated : m.allocRecordId profile = .ok (id, m')) :
    id = m.nextRecordId ∧ m' = { m with nextRecordId := m.nextRecordId + 1 } := by
  unfold Member.allocRecordId at allocated
  split at allocated
  · cases allocated
  · obtain ⟨isId, isNext⟩ := Prod.mk.inj (Except.ok.inj allocated)
    exact ⟨isId.symm, isNext.symm⟩

namespace Config

variable {config config' : Config} {hansa tenant hex : String} {i : Nat} {m : Member}

/-- Members with the same names list the same agents. -/
theorem idHex_congr (same : config.members.map Member.names = config'.members.map Member.names) :
    config.idHex hansa tenant = config'.idHex hansa tenant := by
  have byNames : ∀ c : Config, c.idHex hansa tenant = ((c.members.map Member.names).find?
      fun n => n.1 = hansa ∧ n.2.1 = tenant).map (·.2.2) := by
    intro c
    rw [List.find?_map, Option.map_map]
    rfl
  rw [byNames, byNames, same]

/-- A member that is found has the names it was looked for, and is the one that is listed. -/
theorem member_of_find (found : config.find hansa tenant = some i) :
    ∃ m, config.members[i]? = some m ∧ m.hansa = hansa ∧ m.tenant = tenant ∧
      config.idHex hansa tenant = some m.tenantIdHex := by
  have listed : config.members.find? (fun m => m.hansa = hansa ∧ m.tenant = tenant) =
      (config.find hansa tenant).bind (config.members[·]?) :=
    List.find?_eq_bind_findIdx?_getElem?
  obtain ⟨inside, named, -⟩ := List.findIdx?_eq_some_iff_getElem.mp found
  rw [found, Option.bind_some, List.getElem?_eq_getElem inside] at listed
  obtain ⟨isHansa, isTenant⟩ := of_decide_eq_true named
  refine ⟨_, List.getElem?_eq_getElem inside, isHansa, isTenant, ?_⟩
  rw [idHex, listed]
  rfl

/-- The member at an index. -/
theorem member_eq_ok : config.member i = .ok m ↔ config.members[i]? = some m := by
  unfold member
  cases config.members[i]? with
  | none => simp
  | some m' =>
    exact ⟨fun out => congrArg some (Except.ok.inj out), fun out => by rw [Option.some.inj out]⟩

/-- The names of the members stay when a counter is assigned. -/
theorem names_setNextRecordId (config : Config) (i : Nat) (next : UInt64) :
    (config.setNextRecordId i next).members.map Member.names =
      config.members.map Member.names := by
  apply List.ext_getElem?
  intro j
  rw [setNextRecordId, List.getElem?_map, List.getElem?_map, List.getElem?_modify]
  cases config.members[j]? with
  | none => rfl
  | some m =>
    rw [Option.map_some]
    split <;> rfl

/-- Counters are not part of an identity. -/
theorem idHex_setNextRecordId (config : Config) (i : Nat) (next : UInt64) :
    (config.setNextRecordId i next).idHex hansa tenant = config.idHex hansa tenant :=
  idHex_congr (config.names_setNextRecordId i next)

/-- The member whose counter is assigned. -/
theorem getElem?_setNextRecordId (there : config.members[i]? = some m) (next : UInt64) :
    (config.setNextRecordId i next).members[i]? = some { m with nextRecordId := next } := by
  rw [setNextRecordId, List.getElem?_modify, there]
  exact congrArg some (if_pos rfl)

/-- The active agent is found by the names of the members. -/
theorem activeIndex_eq_ok : config.activeIndex = .ok i ↔ (config.members.map Member.names).findIdx?
    (fun n => keyOf n.1 n.2.1 = config.active) = some i := by
  rw [List.findIdx?_map]
  unfold activeIndex
  by_cases none_ : config.members = []
  · simp [none_, bail]
  · rw [if_neg none_]
    show _ ↔ config.members.findIdx? (fun m => keyOf m.hansa m.tenant = config.active) = _
    cases config.members.findIdx? (fun m => keyOf m.hansa m.tenant = config.active) with
    | none => simp [bail]
    | some j =>
      exact ⟨fun out => congrArg some (Except.ok.inj out), fun out => by rw [Option.some.inj out]⟩

/-- The active agent stays when a counter is assigned. -/
theorem activeIndex_setNextRecordId (active : config.activeIndex = .ok i) (j : Nat)
    (next : UInt64) : (config.setNextRecordId j next).activeIndex = .ok i := by
  rw [activeIndex_eq_ok, names_setNextRecordId]
  exact activeIndex_eq_ok.mp active

/-- The active agent is the first one with its names. -/
theorem find_of_activeIndex (active : config.activeIndex = .ok i)
    (there : config.members[i]? = some m) : config.find m.hansa m.tenant = some i := by
  have found := activeIndex_eq_ok.mp active
  rw [List.findIdx?_map] at found
  obtain ⟨inside, isActive, first⟩ := List.findIdx?_eq_some_iff_getElem.mp found
  obtain rfl : config.members[i] = m := by
    rw [List.getElem?_eq_getElem inside] at there
    exact Option.some.inj there
  refine List.findIdx?_eq_some_iff_getElem.mpr ⟨inside, by simp, fun j before => ?_⟩
  -- An earlier member of the same names would have been the active one.
  intro named
  obtain ⟨isHansa, isTenant⟩ := of_decide_eq_true named
  refine first j before ?_
  rw [Function.comp_apply, decide_eq_true_eq] at isActive ⊢
  rw [← isActive]
  exact congrArg₂ keyOf isHansa isTenant

/-- Adding an agent, or one that is listed with the same id, keeps every listed agent. -/
theorem idHex_upsertActive
    (own : ∀ i m', config.find m.hansa m.tenant = some i → config.members[i]? = some m' →
      m'.tenantIdHex = m.tenantIdHex)
    (listed : config.idHex hansa tenant = some hex) :
    (config.upsertActive m).idHex hansa tenant = some hex := by
  cases found : config.find m.hansa m.tenant with
  | none =>
    have appended : (config.upsertActive m).members = config.members ++ [m] := by
      simp only [upsertActive, found]
    obtain ⟨m', isFound, isHex⟩ := Option.map_eq_some_iff.mp listed
    rw [idHex, appended, List.find?_append, isFound]
    exact congrArg some isHex
  | some i =>
    obtain ⟨m', there, isHansa, isTenant, -⟩ := member_of_find found
    have replaced : (config.upsertActive m).members = config.members.set i m := by
      simp only [upsertActive, found]
    have same : m.names = m'.names := by
      rw [Member.names, Member.names, isHansa, isTenant, own i m' found there]
    rw [← listed]
    refine idHex_congr ?_
    rw [replaced, List.map_set, same]
    apply List.ext_getElem?
    intro j
    rw [List.getElem?_set]
    split
    · next isIndex =>
      subst isIndex
      rw [List.getElem?_map, there]
      simp [(List.getElem?_eq_some_iff.mp there).1]
    · rfl

/-- Removing an agent keeps those whose joined names differ. -/
theorem idHex_remove {hansa' tenant' : String}
    (different : keyOf hansa' tenant' ≠ keyOf hansa tenant) :
    (config.remove hansa' tenant').idHex hansa tenant = config.idHex hansa tenant := by
  have kept : (config.remove hansa' tenant').members =
      config.members.filter fun m => keyOf m.hansa m.tenant ≠ keyOf hansa' tenant' := rfl
  rw [idHex, kept, List.find?_filter]
  refine congrArg (fun p => (config.members.find? p).map Member.tenantIdHex) (funext fun m => ?_)
  by_cases named : m.hansa = hansa ∧ m.tenant = tenant
  · obtain ⟨rfl, rfl⟩ := named
    simp [Ne.symm different]
  · simp [named]

end Config

end Hansa.Cli
