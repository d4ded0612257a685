import SqlWorkflow.Proofs.Compile.Definitions
import SqlWorkflow.Proofs.Link.Verbatim

/-!
# Compiled SQL is the SQL that was written

A SQL-template file in which no placeholder opens is compiled to the SQL that
stands in it, and a plain file to its contents, whatever they are. Only the
blanks around a piece of SQL are taken off.
-/

namespace SqlWorkflow

namespace Action

/-- The body of an action of a kind holds SQL as it was written, without the
blanks around it. An incremental table is extended by the SQL that builds it. -/
inductive Holds (query : String)
    (preOps postOps : List String) : Kind → Body → Prop
  | table {kind : Kind} {t : Table} (hlike : kind.isTableLike = true)
      (htype : t.type = kind.tableType) (hquery : t.query = Text.trim query)
      (hpreOps : t.preOps = preOps.map Text.trim)
      (hpostOps : t.postOps = postOps.map Text.trim)
      (hincremental : kind = .incremental → t.incrementalQuery = some t.query ∧
        t.incrementalPreOps = t.preOps ∧ t.incrementalPostOps = t.postOps) :
      Holds query preOps postOps kind (.table t)
  | assertion :
      Holds query preOps postOps .assertion (.assertion ⟨Text.trim query, none⟩)

theorem variant_of_isTableLike {kind : Kind}
    (h : kind.isTableLike = true) : kind.variant = .table := by
  cases kind with
  | table | view | incremental => rfl
  | operation | assertion | declaration | notebook | dataPreparation => cases h

/-- Copied SQL is held by the table that it is put into. -/
theorem holds_copied {query : String} {preOps postOps : List String}
    {kind : Kind} {t : Table} (hlike : kind.isTableLike = true)
    (htype : t.type = kind.tableType) :
    Holds query preOps postOps kind
      ((Link.Sql.copied (Link.isIncremental (.table t))
        (.table query none preOps postOps)).applyTo (.table t)) := by
  cases hincremental : Link.isIncremental (.table t) with
  | true => exact .table hlike htype rfl rfl rfl fun _ => ⟨rfl, rfl, rfl⟩
  | false =>
    refine .table hlike htype rfl rfl rfl ?_
    rintro rfl
    rw [Link.isIncremental, htype] at hincremental
    cases hincremental

end Action

namespace Compile

variable {files : Project.Files} {evaluator : Script.Evaluator}
  {options : Options} {graph : Graph}

namespace Compilation

/-- The graph has an action for a definition, and the action holds given SQL as
it was written. Its linking is that of an action without SQL: the SQL adds
neither a dependency nor an error, and nothing of it is given to the script
runtime. -/
structure Copies (c : Compilation files evaluator options graph)
    (d : Definition) (query : String)
    (preOps postOps : List String) : Prop where
  registered : ∃ action, c.HasAction d action
  body : ∀ action, c.HasAction d action →
    action.fileName = d.fileName ∧
      Action.Holds query preOps postOps d.config.kind action.body
  dependencies : (c.outcome (d.entry c.settings)).action.dependencies =
    (c.outcome (d.entry c.settings).untemplated).action.dependencies
  faults : (c.outcome (d.entry c.settings)).faults =
    (c.outcome (d.entry c.settings).untemplated).faults
  requests : (c.outcome (d.entry c.settings)).requests = []

variable {c : Compilation files evaluator options graph} {d : Definition}
  {query : String} {preOps postOps : List String}

theorem copies_of_holds (hd : .definition d ∈ c.findings)
    (hcopied : ∀ rendering ∈
      Link.renderings (Link.isIncremental (d.action c.settings).body)
        d.pending.templates, Link.Copied d.pending.interpolate rendering.2)
    (hholds : Action.Holds query preOps postOps d.config.kind
      ((Link.Sql.copied (Link.isIncremental (d.action c.settings).body)
        d.pending.templates).applyTo (d.action c.settings).body)) :
    c.Copies d query preOps postOps := by
  have houtcome : c.outcome (d.entry c.settings) = _ :=
    Link.linkEntry_of_copied c.registry (surroundings c.context) hcopied
  refine ⟨c.exists_hasAction hd, ?_, ?_, ?_, ?_⟩
  · intro action haction
    rw [haction.eq_outcome, houtcome]
    exact ⟨rfl, hholds⟩
  all_goals
    rw [houtcome]
    rfl

/-- A table with templates that are copied holds their SQL. -/
theorem copies_of_table (hd : .definition d ∈ c.findings)
    (hlike : d.config.kind.isTableLike = true)
    (htemplates : d.pending.templates = .table query none preOps postOps)
    (hcopied : ∀ text ∈ query :: (preOps ++ postOps),
      Link.Copied d.pending.interpolate text) :
    c.Copies d query preOps postOps := by
  have hsound := sound_of_finding hd
  have hfits := (hsound.fits c.settings).1
  rw [htemplates] at hfits
  obtain ⟨t, hbody, htype⟩ : ∃ t, (d.action c.settings).body = .table t ∧
      t.type = d.config.kind.tableType := by
    cases hdetails : d.config.details with
    | table table =>
      have hbody : (d.action c.settings).body =
          bodyOf c.settings (.table table) d.content := by
        rw [Definition.action, hdetails]
      exact ⟨_, hbody, hsound.details.type table hdetails⟩
    | operation | assertion | declaration | notebook | dataPreparation =>
      have hvariant := hsound.details.variant
      rw [hdetails, Action.variant_of_isTableLike hlike] at hvariant
      cases hvariant
  apply copies_of_holds hd
  · rw [htemplates]
    intro rendering hmem
    apply hcopied
    rw [Link.renderings] at hmem
    rcases List.mem_append.1 hmem with hextending | hbuilding
    · split at hextending
      · obtain ⟨text, htext, rfl⟩ := List.mem_map.1 hextending
        exact htext
      · cases hextending
    · obtain ⟨text, htext, rfl⟩ := List.mem_map.1 hbuilding
      exact htext
  · rw [htemplates, hbody]
    exact Action.holds_copied hlike htype

/-- An assertion with a template that is copied holds its SQL. -/
theorem copies_of_assertion (hd : .definition d ∈ c.findings)
    (hkind : d.config.kind = .assertion)
    (htemplates : d.pending.templates = .assertion query)
    (hcopied : Link.Copied d.pending.interpolate query) :
    c.Copies d query preOps postOps := by
  have hbody : (d.action c.settings).body = .assertion ⟨"", none⟩ := by
    have hvariant := (sound_of_finding hd).details.variant
    rw [hkind] at hvariant
    cases hdetails : d.config.details <;> rw [hdetails] at hvariant <;>
      cases hvariant
    rw [Definition.action, hdetails]
    rfl
  apply copies_of_holds hd
  · rw [htemplates]
    intro rendering hmem
    cases List.mem_singleton.1 hmem
    exact hcopied
  · rw [htemplates, hbody, hkind]
    exact .assertion

end Compilation

theorem templatesOf_of_isTableLike {kind : Action.Kind}
    (h : kind.isTableLike = true) (blocks : Sqlx.Blocks) :
    templatesOf kind blocks =
      .table blocks.body none blocks.preOperations blocks.postOperations := by
  cases kind with
  | table | view | incremental => rfl
  | operation | assertion | declaration | notebook | dataPreparation => cases h

theorem contentOf_of_isTableLike {kind : Action.Kind}
    (h : kind.isTableLike = true) (file contents : String) :
    contentOf kind file contents =
      ([], .sql (.table contents none [] []) false none) := by
  cases kind with
  | table | view | incremental => rfl
  | operation | assertion | declaration | notebook | dataPreparation => cases h

/-- An entry for an action that needs a file yields a definition from the
contents of that file. -/
theorem EntryYields.exists_referring {files : Dictionary String} {path : String}
    {entry : Json} {findings : List Finding}
    (h : EntryYields files path entry findings) {kind : Action.Kind}
    {value : Json} (hentry : entryConfig path entry = .ok (kind, value))
    (hkind : kind ≠ .declaration) :
    ∃ d, .definition d ∈ findings ∧ d.config.kind = kind ∧
      referredFile? path entry = some d.fileName ∧
      ∃ contents, Dictionary.get? files d.fileName = some contents ∧
        d.content = (contentOf kind d.fileName contents).2 := by
  cases h with
  | declaration hdeclaration =>
    rw [hentry] at hdeclaration
    cases hdeclaration
    cases hkind rfl
  | @referring other value' config name contents hother _ hconfig hname hfile =>
    rw [hentry] at hother
    cases hother
    refine ⟨_, List.mem_append_right _ (List.mem_singleton_self _),
      (Action.kind_of_normalize hconfig).1, ?_, contents, hfile, rfl⟩
    rw [referredFile?, hentry]
    dsimp only
    rw [hconfig]
    dsimp only
    rw [hname]
    rfl

namespace Compilation

variable {c : Compilation files evaluator options graph} {d : Definition}

/-- What a SQL-template file defines holds the SQL of the file, if no
placeholder opens in it. -/
theorem copies_of_template {file : String × String} (hfile : file ∈ files)
    (hsource : SourceKind.of file.1 = .sqlTemplate) {blocks : Sqlx.Blocks}
    (hblocks : Sqlx.extractBlocks file.2 = .ok blocks)
    (hplain :
      ∀ text ∈ blocks.body :: (blocks.preOperations ++ blocks.postOperations),
        ¬ ['$', '{'] <:+: text.toList) (hd : .definition d ∈ c.findingsOf file)
    (hkind : d.config.kind.isTableLike = true ∨ d.config.kind = .assertion) :
    d.fileName = file.1 ∧
      c.Copies d blocks.body blocks.preOperations blocks.postOperations := by
  obtain ⟨hown, hsubset⟩ := c.readFile_eq hfile
  rw [readFile, hsource] at hown
  dsimp only at hown
  rw [readSqlFile, hblocks] at hown
  have hdefinition := ((yields_readBlocks hown).of_mem hd).definition
  have htemplates : d.pending.templates = templatesOf d.config.kind blocks :=
    congrArg (·.pending.templates) hdefinition
  have hcopied (text : String) (htext : text ∈
      blocks.body :: (blocks.preOperations ++ blocks.postOperations)) :
      Link.Copied d.pending.interpolate text := fun _ => hplain text htext
  refine ⟨congrArg Definition.fileName hdefinition, ?_⟩
  rcases hkind with hlike | hassertion
  · rw [templatesOf_of_isTableLike hlike] at htemplates
    exact copies_of_table (hsubset hd) hlike htemplates hcopied
  · rw [hassertion] at htemplates
    exact copies_of_assertion (hsubset hd) hassertion htemplates
      (hcopied _ List.mem_cons_self)

/-- A table or an assertion that is compiled from the contents of a plain file
holds them. -/
theorem copies_of_contents (hd : .definition d ∈ c.findings)
    (hkind : d.config.kind.isTableLike = true ∨ d.config.kind = .assertion)
    {contents : String}
    (hcontent : d.content = (contentOf d.config.kind d.fileName contents).2) :
    c.Copies d contents [] [] := by
  rcases hkind with hlike | hassertion
  · rw [contentOf_of_isTableLike hlike] at hcontent
    have hplain : d.pending.interpolate = false := by
      rw [Definition.pending, hcontent]
    apply copies_of_table hd hlike
    · rw [Definition.pending, hcontent]
    · intro text _
      exact Link.copied_of_plain hplain text
  · rw [hassertion] at hcontent
    have hplain : d.pending.interpolate = false := by
      rw [Definition.pending, hcontent]
      rfl
    apply copies_of_assertion hd hassertion
    · rw [Definition.pending, hcontent]
      rfl
    · exact Link.copied_of_plain hplain contents

/-- An entry of a listing for a table or an assertion yields a definition that
holds the contents of the file that it refers to. -/
theorem copies_of_entry {listing : String × String} (hlisting : listing ∈ files)
    (hsource : SourceKind.of listing.1 = .listing) {entries : List Json}
    (hentries : listedEntries listing.1 listing.2 = .ok entries) {entry : Json}
    (hentry : entry ∈ entries) {kind : Action.Kind} {value : Json}
    (hconfig : entryConfig listing.1 entry = .ok (kind, value))
    (hkind : kind.isTableLike = true ∨ kind = .assertion) :
    ∃ d, .definition d ∈ c.findingsOf listing ∧ d.config.kind = kind ∧
      referredFile? listing.1 entry = some d.fileName ∧
      ∃ contents, Dictionary.get? files d.fileName = some contents ∧
        c.Copies d contents [] [] := by
  obtain ⟨hown, hsubset⟩ := c.readFile_eq hlisting
  rw [readFile, hsource] at hown
  dsimp only [readListing, Reading.plain] at hown
  rw [listedFindings, hentries] at hown
  have hcollect : collect (readEntry c.context listing.1) entries =
      .ok (c.findingsOf listing) := by
    cases entries with
    | nil => cases hentry
    | cons => exact hown
  obtain ⟨findings, hfindings, hincluded⟩ :=
    exists_of_collect_eq_ok hcollect hentry
  have hneeds : kind ≠ .declaration := by
    rintro rfl
    rcases hkind with hlike | hassertion
    · cases hlike
    · cases hassertion
  obtain ⟨d, hd, rfl, hreferred, contents, hfile, hcontent⟩ :=
    (yields_readEntry hfindings).exists_referring hconfig hneeds
  exact ⟨d, hincluded hd, rfl, hreferred, contents, hfile,
    copies_of_contents (hsubset (hincluded hd)) hkind hcontent⟩

end Compilation

/-- Compiled SQL is the SQL that was written, but for the blanks around it. This
is so of a table or an assertion whose SQL-template file opens no placeholder in
its body or around it, and of one that a listing compiles from a plain file,
whatever the contents of that. -/
theorem sql_verbatim
    (h : (compile files evaluator options).result = .ok graph) :
    ∃ c : Compilation files evaluator options graph,
      (∀ file ∈ files, SourceKind.of file.1 = .sqlTemplate →
        ∀ blocks, Sqlx.extractBlocks file.2 = .ok blocks →
          (∀ text ∈
            blocks.body :: (blocks.preOperations ++ blocks.postOperations),
            ¬ ['$', '{'] <:+: text.toList) →
          ∀ d, .definition d ∈ c.findingsOf file →
            d.config.kind.isTableLike = true ∨ d.config.kind = .assertion →
            d.fileName = file.1 ∧
              c.Copies d blocks.body blocks.preOperations
                blocks.postOperations) ∧
        ∀ listing ∈ files, SourceKind.of listing.1 = .listing → ∀ entries,
          listedEntries listing.1 listing.2 = .ok entries → ∀ entry ∈ entries,
            ∀ kind value, entryConfig listing.1 entry = .ok (kind, value) →
              kind.isTableLike = true ∨ kind = .assertion →
              ∃ d, .definition d ∈ c.findingsOf listing ∧ d.config.kind = kind ∧
                referredFile? listing.1 entry = some d.fileName ∧
                ∃ contents, Dictionary.get? files d.fileName = some contents ∧
                  c.Copies d contents [] [] := by
  obtain ⟨c⟩ := exists_compilation h
  refine ⟨c, ?_, ?_⟩
  · intro file hfile hsource blocks hblocks hplain d hd hkind
    exact Compilation.copies_of_template hfile hsource hblocks hplain hd hkind
  · intro listing hlisting hsource entries hentries entry hentry kind value
      hconfig hkind
    exact Compilation.copies_of_entry hlisting hsource hentries hentry
      hconfig hkind

theorem Compilation.Copies.exists_mem
    {c : Compilation files evaluator options graph} {d : Definition}
    {query : String} {preOps postOps : List String}
    (h : c.Copies d query preOps postOps) :
    ∃ action ∈ graph.actions, action.fileName = d.fileName ∧
      Action.Holds query preOps postOps d.config.kind action.body := by
  obtain ⟨action, haction⟩ := h.registered
  obtain ⟨before, after, -, hplace⟩ := id haction
  exact ⟨action, List.mem_of_getElem? hplace, h.body action haction⟩

/-- A log with backslashes, quotation marks and a lone dollar sign in its SQL,
and a view on a plain file that is written like a template. -/
def copiedLog : Project.Files :=
  [("definitions/actions.yaml",
    "actions:\n- view:\n    filename: latest.sql\n"),
    ("definitions/latest.sql",
      "SELECT * FROM log WHERE day = '$\x7bday\x7d'\n"),
    ("definitions/log.sqlx", "config \x7b type: \"incremental\" \x7d\n" ++
      "pre_operations \x7b SET path = '''C:\\\\''' \x7d SELECT \x60é\x60, \"\\\"\", '$' FROM day\n"),
    ("workflow_settings.yaml", "")]

theorem sql_verbatim_copiedLog : ∃ graph : Graph,
    (compile copiedLog Script.noRuntime .default).result = .ok graph ∧
      (∃ latest ∈ graph.actions, latest.fileName = "definitions/latest.sql" ∧
        Action.Holds "SELECT * FROM log WHERE day = '$\x7bday\x7d'\n" []
          [] .view latest.body) ∧
      ∃ log ∈ graph.actions, log.fileName = "definitions/log.sqlx" ∧
        Action.Holds "\n SELECT \x60é\x60, \"\\\"\", '$' FROM day\n"
          [" SET path = '''C:\\\\''' "] [] .incremental log.body := by
  have hsome :
      (compile copiedLog Script.noRuntime .default).result.toOption.isSome =
        true := by
    decide +kernel
  cases hresult : (compile copiedLog Script.noRuntime .default).result with
  | error e =>
    rw [hresult] at hsome
    cases hsome
  | ok graph =>
    have hlisting : (listedEntries copiedLog[0].1 copiedLog[0].2).toOption.map
        (·.map fun entry =>
          ((entryConfig copiedLog[0].1 entry).toOption.map (·.1),
            referredFile? copiedLog[0].1 entry)) =
        some [(some .view, some "definitions/latest.sql")] := by decide +kernel
    have hblocks : (Sqlx.extractBlocks copiedLog[2].2).toOption =
        some ⟨some " type: \"incremental\" ", none,
          [" SET path = '''C:\\\\''' "], [],
          "\n SELECT \x60é\x60, \"\\\"\", '$' FROM day\n"⟩ := by decide +kernel
    have hsource : SourceKind.of copiedLog[2].1 = .sqlTemplate := by
      decide +kernel
    obtain ⟨c, htemplates, hlistings⟩ := sql_verbatim hresult
    refine ⟨graph, rfl, ?_, ?_⟩
    · obtain ⟨entries, hentries, hread⟩ := Option.map_eq_some_iff.1 hlisting
      obtain ⟨entry, rfl, hentry⟩ := List.map_eq_singleton_iff.1 hread
      obtain ⟨hview, hreferred⟩ := Prod.mk.inj hentry
      obtain ⟨⟨kind, value⟩, hconfig, rfl⟩ := Option.map_eq_some_iff.1 hview
      obtain ⟨d, -, hkind, hfileName, contents, hfile, hcopies⟩ :=
        hlistings copiedLog[0] (by decide) (by decide +kernel)
          _ (eq_ok_of_toOption hentries) entry (List.mem_singleton_self _)
          _ value (eq_ok_of_toOption hconfig) (.inl rfl)
      have hname : "definitions/latest.sql" = d.fileName :=
        Option.some.inj (hreferred.symm.trans hfileName)
      rw [← hname] at hfile
      have hlatest : Dictionary.get? copiedLog "definitions/latest.sql" =
          some "SELECT * FROM log WHERE day = '$\x7bday\x7d'\n" := by
        decide +kernel
      obtain rfl := Option.some.inj (hlatest.symm.trans hfile)
      rw [← hkind, hname]
      exact hcopies.exists_mem
    · have hfindings : c.findingsOf copiedLog[2] =
          (readSqlFile (contextOf copiedLog Script.noRuntime ⟨.empty, .empty⟩)
            copiedLog[2].1 copiedLog[2].2).findings.toOption.getD [] := by
        rw [Compilation.findingsOf, readFile, hsource]
        have hignores : Script.IgnoresConfig (contextOf copiedLog
            Script.noRuntime ⟨.empty, .empty⟩).evaluator := fun _ _ => rfl
        exact congrArg (·.toOption.getD [])
          (findings_readSqlFile copiedLog c.settings.active hignores _ _)
      have hkinds : (definitions (c.findingsOf copiedLog[2])).map
          (·.config.kind) = [.incremental] := by
        rw [hfindings]
        decide +kernel
      obtain ⟨d, hd, hkind⟩ := List.map_eq_singleton_iff.1 hkinds
      have hmem : .definition d ∈ c.findingsOf copiedLog[2] :=
        mem_definitions.1 (hd ▸ List.mem_singleton_self d)
      obtain ⟨hname, hcopies⟩ := htemplates copiedLog[2] (by decide) hsource
        _ (eq_ok_of_toOption hblocks) (by decide +kernel) d hmem
        (.inl (by rw [hkind]; rfl))
      rw [← hkind]
      obtain ⟨log, hlog, hfileName, hholds⟩ := hcopies.exists_mem
      exact ⟨log, hlog, hfileName.trans hname, hholds⟩

end Compile

end SqlWorkflow
