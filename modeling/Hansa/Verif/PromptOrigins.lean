import Hansa.Verif.ContextBundle
import Hansa.Verif.MarkdownRendering
import Hansa.Verif.Outsiders

/-!
# Whose records a prompt quotes

A prompt is made of a query's hits: the hits become the items of a bundle, and the bundle is
rendered as sections of a header and a quoted text. After any run of registry calls, each section
quotes a record of the own tenant, or one that was found in the vault of a member, at the place
the member was admitted with; and its header names nobody else.
-/

namespace Hansa

/-! ## Items come from hits -/

namespace ContextBuilder

section Items

variable {F : Type} [FloatLike F] {b : ContextBuilder F} {env : ContextEnv}

/-- An item shows a hit, and lists origins of hits. -/
structure Shows (b : ContextBuilder F) (env : ContextEnv) (item : ContextItem F) : Prop where
  /-- The item is a hit's record, with the text that deduplication left of its payload. -/
  own : ∃ hit ∈ b.hits, item.record = hit.record ∧
    ∃ seen, item.content = (b.textOf env seen (rawText hit)).content
  /-- The sources are origins of hits. -/
  sources : ∀ origin ∈ item.sources, ∃ hit ∈ b.hits, hit.origin = origin

variable (b env) in
/-- The items of the filter show hits. -/
theorem filterAt_shows : ∀ i ≤ b.hits.length, ∀ item ∈ (b.filterAt env i).eligible,
    b.Shows env item := by
  apply filterAt_induction (P := fun _ st => ∀ item ∈ st.eligible, b.Shows env item)
  · exact fun _ none_ => nomatch none_
  · intro i hit exit found left leaves before
    have isHit : hit ∈ b.hits := List.mem_of_getElem? found
    have attributed : ∀ winner, ∀ item ∈ (b.filterAt env i).eligible.modify winner
        (ContextItem.attributed hit.origin), b.Shows env item := by
      intro winner item member
      obtain ⟨j, item', atIndex, same⟩ := mem_modify.mp member
      have shown := before item' (List.mem_of_getElem? atIndex)
      subst same
      split
      · refine ⟨shown.own, fun origin listed => ?_⟩
        rcases ContextItem.mem_sources_attributed.mp listed with old | rfl
        · exact shown.sources origin old
        · exact ⟨hit, isHit, rfl⟩
      · exact shown
    cases leaves with
    | belowThreshold => exact before
    | redundant => exact before
    | duplicate reaches on seen => exact attributed _
    | semanticDuplicate reaches isNew filled near => exact attributed _
    | kept reaches isNew filled far =>
      intro item member
      rcases List.mem_append.mp member with old | new
      · exact before item old
      · rw [List.mem_singleton.mp new]
        refine ⟨⟨hit, isHit, rfl, _, rfl⟩, fun origin listed => ⟨hit, isHit, ?_⟩⟩
        exact (List.mem_singleton.mp listed).symm

omit [FloatLike F] in
/-- The budget loop puts items of its list into the bundle. -/
theorem foldlM_budgetStep_subset {items : List (ContextItem F)} {bundle out : ContextBundle F}
    (done : items.foldlM (b.budgetStep env) bundle = .ok out) :
    ∀ item ∈ out.items, item ∈ bundle.items ∨ item ∈ items := by
  induction items generalizing bundle with
  | nil =>
    rw [← Except.ok.inj done]
    exact fun _ member => .inl member
  | cons first items ih =>
    obtain ⟨next, admitted, rest⟩ := Except.bind_eq_ok.mp done
    intro item member
    rcases ih rest item member with old | later
    · rcases budgetStep_cases admitted with rfl | rfl
      · exact .inl old
      · rcases List.mem_append.mp old with old | new
        · exact .inl old
        · rw [List.mem_singleton.mp new]
          exact .inr List.mem_cons_self
    · exact .inr (List.mem_cons_of_mem _ later)

/-- The items of a bundle show hits. -/
theorem build_shows {bundle : ContextBundle F} (built : b.build env = .ok bundle) :
    ∀ item ∈ bundle.items, b.Shows env item := by
  obtain ⟨ranked, sorted, filled⟩ := Except.bind_eq_ok.mp built
  intro item member
  have eligible : item ∈ (b.filter env).eligible := by
    rcases foldlM_budgetStep_subset filled item member with old | inside
    · rw [(b.filter_bundle env).1] at old
      cases old
    · exact (StdSort.perm_of_sortBy sorted).subset inside
  rw [← filterAt_length] at eligible
  exact filterAt_shows b env _ le_rfl item eligible

end Items

end ContextBuilder

/-! ## Hits come from members -/

section Hits

variable {c : Build} {json : LinkJson} {h : Handle Float32} {disk : Disk Float32}
  {opener : Option (PeerOpener Float32)} {embedding : List Float32}

/-- A hit is a record that the own tenant found, or one that was found among the shareable records
of another member after a run of calls, by the view that opening the member yields at its
place. -/
inductive FromMembers (h : Handle Float32) (opener : Option (PeerOpener Float32))
    (embedding : List Float32) (ops : List Op) : MembraneHit Float32 → Prop where
  /-- A record of the own tenant. -/
  | own {k : UInt32} {found : List (Hit Float32)} {raw : Hit Float32}
      (searched : h.localTenant.queryFiltered embedding k acceptAll = .ok found)
      (inside : raw ∈ found) : FromMembers h opener embedding ops (raw.toMembrane .local)
  /-- A record of a member. -/
  | other {m : MemberRecord} {opens : PeerOpener Float32} {view : ReadOnlyView Float32}
      {k : UInt32} {found : List (Hit Float32)} {raw : Hit Float32}
      (isMember : memberAfter ops m.tenantId = some m)
      (peer : m.tenantId ≠ h.localTenantId) (isOpener : opens ∈ opener)
      (opened : opens m.tenantId m.tenantLocation = .ok view)
      (searched : view.queryFiltered embedding k shareableOnly = .ok found)
      (inside : raw ∈ found) :
      FromMembers h opener embedding ops (raw.toMembrane (.remote view.tenantId))

/-- Where opened tenants report the ids they are opened for, a hit's origin is the own tenant or a
member. -/
theorem FromMembers.origin {ops : List Op} {hit : MembraneHit Float32}
    (known : FromMembers h opener embedding ops hit)
    (honest : ∀ opens ∈ opener, ∀ t location view, opens t location = .ok view →
      view.tenantId = t) :
    hit.origin = .local ∨
      ∃ t, hit.origin = .remote t ∧ (memberAfter ops t).isSome ∧ t ≠ h.localTenantId := by
  cases known with
  | own searched inside => exact .inl rfl
  | @other m opens view k found raw isMember peer isOpener opened searched inside =>
    have own := honest opens isOpener _ _ view opened
    refine .inr ⟨m.tenantId, ?_, Option.isSome_of_eq_some isMember, peer⟩
    rw [← own]
    rfl

/-- The hits that a query returns after a run of registry calls. -/
theorem Handle.fromMembers_of_answer {r : FileRegistry} {skipper : Skipper} (correct : c.Correct)
    (lawful : json.Lawful) {ops : List Op} {dir : HansaDir}
    (run : Run (fun dir op dir' => Op.Step c json r skipper dir op dir') .initial ops dir)
    (registry : h.registry = r) (id : h.id = .fromSkipper c (skipper.pub c))
    (stored : disk.dir = dir) {settings : QuerySettings Float32} {path : Path}
    {env : QueryEnv Float32} {hits : List (MembraneHit Float32)} {stats : MembraneStats}
    (answered : h.answer c json opener embedding settings path env disk = .ok (hits, stats)) :
    ∀ hit ∈ hits, FromMembers h opener embedding ops hit := by
  obtain ⟨records, listed, lists⟩ := Handle.members_of_run correct lawful run registry id stored
  rw [Handle.answer, Handle.run_queryWith_eq, listed] at answered
  cases loaded : h.sagasOf disk.sagas records with
  | error fault =>
    simp only [loaded] at answered
    cases answered
  | ok sagas =>
    simp only [loaded] at answered
    generalize isQuery : (h.queryOf opener embedding records sagas).configured settings = q
      at answered
    obtain ⟨merged, out, cut⟩ : ∃ merged, q.merge Float env path.collect = .ok merged ∧
        hits = truncateToBudget merged.hits q.budget.maxTotalRecords := by
      rw [executeOn_map] at answered
      cases out : q.merge Float env path.collect with
      | error fault =>
        rw [out] at answered
        cases answered
      | ok merged =>
        rw [out] at answered
        exact ⟨merged, rfl, (Prod.mk.inj (Except.ok.inj answered)).1.symm⟩
    obtain ⟨found, remote, searched, answers, whole, _, _⟩ := merge_ok out
    intro hit member
    rw [cut] at member
    rcases List.mem_append.mp (whole.subset (List.mem_of_mem_take member)) with own | other
    · obtain ⟨raw, inside, same⟩ := List.mem_map.mp own
      subst isQuery same
      exact .own searched inside
    · obtain ⟨peer, asked, inside⟩ := List.mem_flatMap.mp (answers.subset other)
      obtain ⟨_, saga, known⟩ := saga_of_asked asked
      obtain ⟨view, batch, opened, delivered⟩ := view_of_answer inside
      rw [answer_view opened delivered] at inside
      obtain ⟨raw, rawInside, same⟩ := List.mem_map.mp inside
      subst isQuery same
      obtain ⟨isMember, isOther⟩ := List.mem_filter.mp (Handle.mem_of_sagasOf loaded known)
      -- A query without an opener asks nobody.
      cases opener with
      | none =>
        rw [MembraneQuery.asked] at asked
        cases asked
      | some opens =>
        have isRecord := (lists.mem_iff _).mp isMember
        exact .other isRecord (of_decide_eq_true isOther) rfl opened delivered rawInside

/-! ## The prompt -/

/-- The sections of a prompt in markdown are those of the items. -/
theorem ContextBundle.sections_renderMarkdown (bundle : ContextBundle Float32) :
    sections (linesOf '\n' bundle.renderMarkdown.toList) = bundle.items.map fun item =>
      ((markdownHeader item).toList, (strLines item.content).map String.toList) := by
  have plain : ∀ line ∈ bundle.items.flatMap ContextItem.markdownLines, '\n' ∉ line := by
    intro line member
    obtain ⟨item, _, inside⟩ := List.mem_flatMap.mp member
    rcases List.mem_cons.mp inside with rfl | behind
    · exact newline_notMem_markdownHeader item
    · exact newline_notMem_quotedLines behind
  rw [toList_renderMarkdown, linesOf_writeLines plain, sections_markdownLines]

/-- After any run of registry calls with the skipper's key, each section of a prompt that is made
of a query's hits, on either path and under any settings, is the header and the quoted text of a
record. The own tenant found it, or a view of another tenant did among its shareable records; that
tenant is a member of the map that the calls leave, and was opened at the place it has there. If
opened tenants report the ids they are opened for, the header names the own tenant and such
tenants only. -/
theorem prompt_from_members {r : FileRegistry} {skipper : Skipper} (correct : c.Correct)
    (lawful : json.Lawful) {ops : List Op} {dir : HansaDir}
    (run : Run (fun dir op dir' => Op.Step c json r skipper dir op dir') .initial ops dir)
    (registry : h.registry = r) (id : h.id = .fromSkipper c (skipper.pub c))
    (stored : disk.dir = dir) {settings : QuerySettings Float32} {path : Path}
    {env : QueryEnv Float32} {hits : List (MembraneHit Float32)} {stats : MembraneStats}
    (answered : h.answer c json opener embedding settings path env disk = .ok (hits, stats))
    {b : ContextBuilder Float32} (fed : b.hits = hits) {context : ContextEnv}
    {bundle : ContextBundle Float32} (built : b.build context = .ok bundle) :
    ∀ part ∈ sections (linesOf '\n' bundle.renderMarkdown.toList), ∃ item ∈ bundle.items,
      part = ((markdownHeader item).toList, (strLines item.content).map String.toList) ∧
      (∃ hit, FromMembers h opener embedding ops hit ∧ item.record = hit.record ∧
        ∃ seen, item.content = (b.textOf context seen (ContextBuilder.rawText hit)).content) ∧
      ((∀ opens ∈ opener, ∀ t location view, opens t location = .ok view → view.tenantId = t) →
        ∀ origin ∈ item.sources, origin = .local ∨
          ∃ t, origin = .remote t ∧ (memberAfter ops t).isSome ∧ t ≠ h.localTenantId) := by
  have known := Handle.fromMembers_of_answer correct lawful run registry id stored answered
  rw [bundle.sections_renderMarkdown]
  intro part member
  obtain ⟨item, inside, same⟩ := List.mem_map.mp member
  have shown := ContextBuilder.build_shows built item inside
  obtain ⟨hit, isHit, record, text⟩ := shown.own
  rw [fed] at isHit
  refine ⟨item, inside, same.symm, ⟨hit, known hit isHit, record, text⟩, ?_⟩
  intro honest origin listed
  obtain ⟨source, isSource, isOrigin⟩ := shown.sources origin listed
  rw [fed] at isSource
  rw [← isOrigin]
  exact (known source isSource).origin honest

end Hits

/-! ## A prompt of one section -/

/-- The prompt that quotes the member's record. -/
theorem prompt_from_members_sample : ∃ dir stats bundle,
    (askingHandle sharingOpener).answer sampleBuild sampleJson (some sharingOpener) [1, 0, 0]
      singleSettings .sync sampleEnv { sagaDisk with dir } = .ok ([sharedHit 7], stats) ∧
    (ContextBuilder.fromHits [sharedHit 7]).build plainEnv = .ok bundle ∧
    (sections (linesOf '\n' bundle.renderMarkdown.toList)).map Prod.snd = [["Hi".toList]] ∧
    ∀ part ∈ sections (linesOf '\n' bundle.renderMarkdown.toList), ∃ item ∈ bundle.items,
      part = ((markdownHeader item).toList, (strLines item.content).map String.toList) ∧
      (∃ hit, FromMembers (askingHandle sharingOpener) (some sharingOpener) [1, 0, 0]
          admittingOps hit ∧ item.record = hit.record ∧
        ∃ seen, item.content = ((ContextBuilder.fromHits [sharedHit 7]).textOf plainEnv seen
          (ContextBuilder.rawText hit)).content) ∧
      ((∀ opens ∈ some sharingOpener, ∀ t location view, opens t location = .ok view →
          view.tenantId = t) →
        ∀ origin ∈ item.sources, origin = .local ∨
          ∃ t, origin = .remote t ∧ (memberAfter admittingOps t).isSome ∧ t ≠ sampleTenant 1) := by
  obtain ⟨dir, run⟩ := exists_run sampleBuild_correct sampleJson_lawful ⟨⟨[]⟩⟩ (sampleSkipper 1)
    admittingOps (by decide)
  obtain ⟨stats, answered⟩ := answer_admitting run
  have ranked : (ContextBuilder.fromHits [sharedHit 7]).Scored plainEnv ∧
      ContextBuilder.tokensOf ((ContextBuilder.fromHits [sharedHit 7]).filter plainEnv).eligible <
        2 ^ 64 := by
    unfold ContextBuilder.Scored
    decide +kernel
  have ordered : ((ContextBuilder.fromHits [sharedHit 7]).filter plainEnv).eligible.Pairwise
      fun x y => descending ((ContextBuilder.fromHits [sharedHit 7]).ranker x)
        ((ContextBuilder.fromHits [sharedHit 7]).ranker y) ≠ .gt := by decide +kernel
  have quoted : (fill (ContextBuilder.fromHits [sharedHit 7]).Within []
      ((ContextBuilder.fromHits [sharedHit 7]).filter plainEnv).eligible).map
        ContextItem.content = ["Hi"] := by decide +kernel
  obtain ⟨bundle, built, items, _⟩ := ContextBuilder.build_fill ranked.1 ranked.2
  rw [ContextBuilder.ranking_eq_self ordered] at items
  refine ⟨dir, stats, bundle, answered, built, ?_,
    prompt_from_members sampleBuild_correct sampleJson_lawful run rfl rfl rfl answered rfl built⟩
  calc (sections (linesOf '\n' bundle.renderMarkdown.toList)).map Prod.snd
      = (bundle.items.map ContextItem.content).map fun text =>
          (strLines text).map String.toList := by
        rw [bundle.sections_renderMarkdown, List.map_map, List.map_map]
        rfl
    _ = [["Hi".toList]] := by
        rw [items, quoted]
        decide

end Hansa
