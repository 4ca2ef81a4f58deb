import Hansa.Handle
import Hansa.Library.StateErrors
import Hansa.Verif.RegistryRun

/-!
# Running a handle

What each call of a handle does to the files, as equations: the member list is that of the
registry, and a query is built from it and from the saga files of the other members.
-/

namespace Hansa

variable {F : Type} {c : Build} {json : LinkJson} {h : Handle F} {disk disk' : Disk F}

/-! ## The two kinds of steps -/

/-- A registry call acts on the registry's directory alone. -/
theorem HandleM.run_registry {α : Type} (call : FileM α) (disk : Disk F) :
    (HandleM.registry call).run disk = match call.run disk.dir with
      | .ok a dir => .ok a { disk with dir }
      | .error fault dir => .error fault { disk with dir } := rfl

/-- A computation that does not touch the files, as an equation. -/
theorem HandleM.run_ofResult {α : Type} (result : Result α) (disk : Disk F) :
    (HandleM.ofResult result : HandleM F α).run disk = match result with
      | .ok a => .ok a disk
      | .error fault => .error fault disk := by
  cases result <;> rfl

/-- Reading the log leaves the files alone. -/
theorem HandleM.run_readChain (json : LinkJson) (r : FileRegistry) (hansa : HansaId)
    (disk : Disk F) : (HandleM.registry (r.readChain json hansa) : HandleM F _).run disk =
      (HandleM.ofResult (readLog json (r.logPath hansa) disk.dir.log)).run disk := by
  rw [HandleM.run_registry, Hansa.run_readChain]
  cases readLog json (r.logPath hansa) disk.dir.log <;> rfl

/-- A computation that does not touch the files. -/
theorem HandleM.run_ofResult_ok {α : Type} {result : Result α} {a : α} :
    (HandleM.ofResult result).run disk = .ok a disk' ↔ result = .ok a ∧ disk' = disk := by
  cases result with
  | ok b =>
    rw [HandleM.ofResult, EStateM.run_pure_ok, Except.ok.injEq]
    exact and_congr_left fun _ => eq_comm
  | error fault => exact ⟨fun out => (nomatch out), fun both => nomatch both.1⟩

/-! ## Members -/

/-- The members that a log shows to a reader who does not pin its root. -/
def membersOf (c : Build) (json : LinkJson) (path : PathBuf) (log : Option (List UInt8)) :
    Result (List MemberRecord) := do
  let chain ← readLog json path log
  if chain = [] then .ok []
  else do
    let out ← replay c chain none
    .ok out.active

/-- Members are shown by an empty log, and by a chain that replays. -/
theorem membersOf_ok {path : PathBuf} {log : Option (List UInt8)} {ms : List MemberRecord} :
    membersOf c json path log = .ok ms ↔ ∃ chain, readLog json path log = .ok chain ∧
      (chain = [] ∧ ms = [] ∨ ∃ out, replay c chain none = .ok out ∧ out.active = ms) := by
  unfold membersOf
  cases readLog json path log with
  | error fault => exact ⟨fun out => (nomatch out), fun ⟨_, same, _⟩ => nomatch same⟩
  | ok chain =>
    simp only [bind, Except.bind, Except.ok.injEq, exists_eq_left']
    by_cases empty : chain = []
    · subst empty
      have unread : ∀ out, replay c [] none ≠ .ok out := fun _ out => nomatch out
      simp only [if_true, true_and, unread, false_and, exists_false, or_false, Except.ok.injEq]
      exact eq_comm
    · simp only [empty, if_false, false_and, false_or]
      cases replay c chain none with
      | error fault => exact ⟨fun out => (nomatch out), fun ⟨_, same, _⟩ => nomatch same⟩
      | ok out => simp only [Except.ok.injEq, exists_eq_left']

/-- Reading the members leaves the files alone. -/
theorem Handle.run_members (disk : Disk F) : (h.members c json).run disk =
    (HandleM.ofResult (membersOf c json (h.registry.logPath h.id) disk.dir.log)).run disk := by
  rw [Handle.members, HandleM.run_registry, HandleM.run_ofResult, membersOf]
  cases read : readLog json (h.registry.logPath h.id) disk.dir.log with
  | error fault =>
    have failed : (h.registry.members c json h.id).run disk.dir = .error fault disk.dir := by
      simp only [FileRegistry.members, EStateM.run_bind, run_readChain_error read]
    rw [failed]
    rfl
  | ok chain =>
    rw [Hansa.run_members read]
    by_cases empty : chain = []
    · simp only [if_pos empty, bind, Except.bind]
    · simp only [if_neg empty, bind, Except.bind]
      cases replay c chain none <;> rfl

/-- A member list is read off a chain that replays, whichever key roots it. -/
theorem Handle.run_members_ok {ms : List MemberRecord} :
    (h.members c json).run disk = .ok ms disk' ↔
      disk' = disk ∧ ∃ chain, readLog json (h.registry.logPath h.id) disk.dir.log = .ok chain ∧
        (chain = [] ∧ ms = [] ∨ ∃ out, replay c chain none = .ok out ∧ out.active = ms) := by
  rw [h.run_members disk, HandleM.run_ofResult_ok, membersOf_ok, and_comm]

/-! ## Sagas -/

/-- The member's saga, if its file holds one. -/
def Disk.peerSaga (disk : Disk F) (m : MemberRecord) : Option (MemberRecord × Saga F) :=
  match disk.sagas m.tenantId with
  | some (.ok saga) => some (m, saga)
  | _ => none

/-- The member's saga file is there and cannot be read. -/
def Disk.Unreadable (disk : Disk F) (m : MemberRecord) : Prop :=
  ∃ e, disk.sagas m.tenantId = some (.error e)

/-- The members other than the handle's own. -/
def Handle.others (h : Handle F) (members : List MemberRecord) : List MemberRecord :=
  members.filter fun m => m.tenantId ≠ h.localTenantId

/-- A peer's saga file is read without touching the files. -/
theorem Handle.run_loadPeerSaga (disk : Disk F) (peer : TenantId) :
    (Handle.loadPeerSaga peer : HandleM F (Option (Saga F))).run disk =
      match disk.sagas peer with
      | none => .ok none disk
      | some (.error e) => .error (.err (.hull e)) disk
      | some (.ok saga) => .ok (some saga) disk := by
  simp only [Handle.loadPeerSaga, EStateM.run_bind, EStateM.run_get]
  rcases disk.sagas peer with _ | (e | saga) <;> rfl

/-- Loading the sagas returns those of the other members, unless one cannot be read. -/
theorem Handle.run_loadSagas (disk : Disk F) (members : List MemberRecord) :
    (∀ m ∈ h.others members, ¬ disk.Unreadable m) ∧
        (h.loadSagas members).run disk =
          .ok ((h.others members).filterMap disk.peerSaga) disk ∨
      (∃ m ∈ h.others members, disk.Unreadable m) ∧
        ∃ e, (h.loadSagas members).run disk = .error (.err (.hull e)) disk := by
  induction members with
  | nil => exact .inl ⟨fun _ absent => (nomatch absent), rfl⟩
  | cons m members ih =>
    by_cases own : m.tenantId = h.localTenantId
    · have skipped : h.others (m :: members) = h.others members := by simp [Handle.others, own]
      have step : (h.loadSagas (m :: members)).run disk = (h.loadSagas members).run disk := by
        rw [Handle.loadSagas, if_pos own]
      rw [skipped, step]
      exact ih
    · have kept : h.others (m :: members) = m :: h.others members := by simp [Handle.others, own]
      rw [kept, List.forall_mem_cons, List.exists_mem_cons_iff]
      have readable_of : (∀ e, disk.sagas m.tenantId ≠ some (.error e)) → ¬ disk.Unreadable m :=
        fun sound ⟨e, file⟩ => sound e file
      cases file : disk.sagas m.tenantId with
      | none =>
        have step : (h.loadSagas (m :: members)).run disk = (h.loadSagas members).run disk := by
          simp only [Handle.loadSagas, if_neg own, EStateM.run_bind, Handle.run_loadPeerSaga, file]
        have readable : ¬ disk.Unreadable m := readable_of (by simp [file])
        rw [step, List.filterMap_cons_none (by simp [Disk.peerSaga, file])]
        exact ih.imp (fun both => ⟨⟨readable, both.1⟩, both.2⟩)
          (fun both => ⟨.inr both.1, both.2⟩)
      | some content =>
        cases content with
        | error e =>
          refine .inr ⟨.inl ⟨e, file⟩, e, ?_⟩
          simp only [Handle.loadSagas, if_neg own, EStateM.run_bind, Handle.run_loadPeerSaga, file]
        | ok saga =>
          have step : (h.loadSagas (m :: members)).run disk =
              ((h.loadSagas members >>= fun sagas => pure ((m, saga) :: sagas)).run disk) := by
            simp only [Handle.loadSagas, if_neg own, EStateM.run_bind, Handle.run_loadPeerSaga,
              file]
          have readable : ¬ disk.Unreadable m := readable_of (by simp [file])
          rw [step, List.filterMap_cons_some (b := (m, saga)) (by simp [Disk.peerSaga, file]),
            EStateM.run_bind]
          rcases ih with ⟨all, out⟩ | ⟨some_, e, out⟩
          · rw [out]
            exact .inl ⟨⟨readable, all⟩, rfl⟩
          · rw [out]
            exact .inr ⟨.inr some_, e, rfl⟩

/-! ## Queries -/

variable [FloatLike F]

/-- The query that is built from a member list and the saga files. -/
def Handle.builtQuery (h : Handle F) (disk : Disk F) (opener : Option (PeerOpener F))
    (embedding : List F) (members : List MemberRecord) : MembraneQuery F :=
  { localTenant := h.localTenant
    localTenantId := h.localTenantId
    peerOpener := opener.getD Handle.placeholderOpener
    embedding
    members
    sagas := (h.others members).filterMap disk.peerSaga
    topK := 10
    budget := h.defaultBudget
    minSimilarity := -FloatLike.infinity
    localOnly := opener.isNone
    deadline := none }

/-- Building a query returns when the members can be read and no saga of another member is
unreadable. -/
theorem Handle.run_queryWith (opener : Option (PeerOpener F)) (embedding : List F)
    {ms : List MemberRecord} (listed : (h.members c json).run disk = .ok ms disk) :
    (∀ m ∈ h.others ms, ¬ disk.Unreadable m) ∧
        (h.queryWith c json opener embedding).run disk =
          .ok (h.builtQuery disk opener embedding ms) disk ∨
      (∃ m ∈ h.others ms, disk.Unreadable m) ∧
        ∃ e, (h.queryWith c json opener embedding).run disk = .error (.err (.hull e)) disk := by
  simp only [Handle.queryWith, EStateM.run_bind, listed]
  rcases h.run_loadSagas disk ms with ⟨all, out⟩ | ⟨some_, e, out⟩
  · rw [out]
    exact .inl ⟨all, rfl⟩
  · rw [out]
    exact .inr ⟨some_, e, rfl⟩

/-- A query that was built is built from a member list. -/
theorem Handle.run_queryWith_ok {opener : Option (PeerOpener F)} {embedding : List F}
    {q : MembraneQuery F} (built : (h.queryWith c json opener embedding).run disk = .ok q disk') :
    (h.members c json).run disk = .ok q.members disk ∧
      q = h.builtQuery disk opener embedding q.members := by
  obtain ⟨ms, mid, listed, rest⟩ := EStateM.run_bind_ok.mp built
  obtain rfl := (Handle.run_members_ok.mp listed).1
  rcases h.run_queryWith opener embedding listed with ⟨_, out⟩ | ⟨_, e, out⟩
  · obtain ⟨rfl, rfl⟩ := EStateM.Result.ok.inj (out.symm.trans built)
    exact ⟨listed, rfl⟩
  · rw [out] at built
    cases built

end Hansa
