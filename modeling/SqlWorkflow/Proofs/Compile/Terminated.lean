import SqlWorkflow.Proofs.Compile.Definitions
import SqlWorkflow.Proofs.Compile.Edges
import SqlWorkflow.Proofs.Link.Verbatim
import SqlWorkflow.Proofs.Sqlx.Semicolon

/-!
# Graphs without errors and the ends of their SQL

A semicolon at the end of the SQL of a table or an assertion is an error, and it
is looked for in the SQL as it was written. So a graph without errors has no
such SQL. What is compiled has no semicolon at its end either if its end is
settled by what was written, but a placeholder may put one there.
-/

namespace SqlWorkflow

namespace Compile

open Link (renderings)
open Sqlx (hasTrailingSemicolon)

/-- All that is rendered for a table or an assertion was asked for a
semicolon. -/
theorem mem_unterminatedSql {isIncremental : Bool}
    {templates : Registry.Templates} {rendering : Bool × String}
    (h : rendering ∈ renderings isIncremental templates)
    (hoperation : ∀ queries, templates ≠ .operation queries) :
    rendering.2 ∈ unterminatedSql templates := by
  cases templates with
  | none => cases h
  | operation queries => cases hoperation queries rfl
  | assertion query =>
    cases List.mem_singleton.1 h
    exact List.mem_singleton_self query
  | table query incrementalQuery preOps postOps =>
    have hops (text : String) (htext : text ∈ preOps ++ postOps) :
        text ∈ unterminatedSql (.table query incrementalQuery preOps postOps) :=
      List.mem_cons_of_mem query (List.mem_append_right _ htext)
    rw [renderings] at h
    rcases List.mem_append.1 h with hextending | hbuilding
    · split at hextending
      · obtain ⟨text, htext, rfl⟩ := List.mem_map.1 hextending
        rcases List.mem_cons.1 htext with rfl | hop
        · cases incrementalQuery with
          | none => exact List.mem_cons_self
          | some extending =>
            exact List.mem_cons_of_mem query List.mem_cons_self
        · exact hops text hop
      · cases hextending
    · obtain ⟨text, htext, rfl⟩ := List.mem_map.1 hbuilding
      rcases List.mem_cons.1 htext with rfl | hop
      · exact List.mem_cons_self
      · exact hops text hop

variable {files : Project.Files} {evaluator : Script.Evaluator}
  {options : Options} {graph : Graph}

namespace Compilation

variable {c : Compilation files evaluator options graph} {d : Definition}
  {action : Action}

/-- An action of the graph is defined in the project or made for a parent. -/
theorem exists_hasAction_or_parent (h : action ∈ graph.actions) :
    (∃ d, c.HasAction d action) ∨ ∃ parent, action.parent? = some parent := by
  rw [c.actions_graph] at h
  obtain ⟨entry, hentry, rfl⟩ := List.mem_map.1 h
  rw [c.entries_registry] at hentry
  obtain ⟨d, hd, hadded⟩ := List.mem_flatMap.1 hentry
  rcases Definition.mem_entries hadded with rfl | ⟨hparent, -, -⟩
  · obtain ⟨action, haction⟩ := c.exists_hasAction (mem_definitions.1 hd)
    rw [← haction.eq_outcome]
    exact .inl ⟨d, haction⟩
  · have hkeys := congrArg (·.2.2)
      (Link.keysOf_linkEntry c.registry (surroundings c.context) entry)
    exact .inr ⟨_, hkeys.trans hparent⟩

variable (c d) in
/-- What a template of a definition is rendered to, before it is trimmed. -/
def rendered (rendering : Bool × String) : String :=
  (Link.scopeOf c.registry (surroundings c.context)
    (d.entry c.settings)).rendered d.pending.interpolate rendering

variable (c d) in
/-- A template of a definition does not end with a semicolon, and what is
compiled from it does not if its end is settled by the last stretch of the
template. -/
structure Unterminated (rendering : Bool × String) : Prop where
  template : hasTrailingSemicolon rendering.2 = false
  text_eq : c.text d rendering = Text.trim (c.rendered d rendering)
  compiled : ∃ before lead,
    Template.Renders d.pending.interpolate rendering.2.toList
      (c.rendered d rendering).toList before lead ∧
      (Sqlx.EndSettled before
        (Template.lastStretch d.pending.interpolate rendering.2.toList) lead
        (Template.copiedStretch d.pending.interpolate rendering.2.toList) →
        hasTrailingSemicolon (c.text d rendering) = false)

theorem unterminated_of_template {rendering : Bool × String}
    (h : hasTrailingSemicolon rendering.2 = false) :
    c.Unterminated d rendering := by
  have htext : c.text d rendering = Text.trim (c.rendered d rendering) :=
    Link.Scope.text_eq_trim_rendered _ _ _
  obtain ⟨before, lead, hrenders⟩ : ∃ before lead,
      Template.Renders d.pending.interpolate rendering.2.toList
        (c.rendered d rendering).toList before lead :=
    Link.Scope.exists_renders _ _ _
  refine ⟨h, htext, before, lead, hrenders, ?_⟩
  intro hsettled
  rw [← String.ofList_toList (s := rendering.2), hrenders.template_eq] at h
  have hcompiled :=
    hsettled.hasTrailingSemicolon_trim (Sqlx.reduced_copiedStretch _ _) h
  rw [← hrenders.rendered_eq, String.ofList_toList] at hcompiled
  rw [htext]
  exact hcompiled

/-- In a graph without errors no SQL that was asked for a semicolon ends with
one. -/
theorem hasTrailingSemicolon_eq_false (hclean : graph.diagnostics = [])
    (hd : .definition d ∈ c.findings) {sql : String}
    (hsql : sql ∈ unterminatedSql d.pending.templates) :
    hasTrailingSemicolon sql = false := by
  by_contra hterminated
  have hfound :
      (unterminatedSql d.pending.templates).any hasTrailingSemicolon = true :=
    List.any_eq_true.2 ⟨sql, hsql, by simpa using hterminated⟩
  have hdiagnostic := c.mem_diagnostics_of_finding hd
    (e := ⟨some (d.action c.settings).fileName,
      some (d.action c.settings).target.text, Sqlx.trailingSemicolonMessage⟩)
    (by rw [Finding.diagnostics, semicolonDiagnostics,
      if_pos hfound]; exact List.mem_singleton_self _)
  rw [hclean] at hdiagnostic
  cases hdiagnostic

end Compilation

/-- In a graph without errors no SQL of a table or of an assertion that the
project defines ends with a semicolon: not as it was written, and not as it was
compiled if its end is settled by what was written. -/
theorem unterminated_compile
    (h : (compile files evaluator options).result = .ok graph)
    (hclean : graph.diagnostics = []) :
    ∃ c : Compilation files evaluator options graph, ∀ action ∈ graph.actions,
      action.variant = .table ∨ action.variant = .assertion →
        action.parent? = none →
        ∃ d, c.HasAction d action ∧ action.body.sqlTexts =
          (renderings (Link.isIncremental action.body) d.pending.templates).map
            (c.text d) ∧
          ∀ rendering ∈
            renderings (Link.isIncremental action.body) d.pending.templates,
            c.Unterminated d rendering := by
  obtain ⟨c⟩ := exists_compilation h
  refine ⟨c, fun action haction hvariant hparent => ?_⟩
  rcases c.exists_hasAction_or_parent haction with ⟨d, hd⟩ | ⟨parent, hmade⟩
  · obtain ⟨-, -, hwritten⟩ := hd.written
    refine ⟨d, hd, hwritten.sqlTexts, ?_⟩
    intro rendering hrendering
    apply Compilation.unterminated_of_template
    apply c.hasTrailingSemicolon_eq_false hclean hd.finding_mem
    apply mem_unterminatedSql hrendering
    -- The SQL of an operation is not asked for a semicolon, but the action is
    -- not an operation.
    intro queries hqueries
    rw [hqueries] at hwritten
    have hoperation : action.variant = .operation :=
      hwritten.variant_of_operation
    rw [hoperation] at hvariant
    rcases hvariant with htable | hassertion
    · cases htable
    · cases hassertion
  · cases hparent.symm.trans hmade

/-- A project of one SQL-template file. -/
def single (contents : String) : Project.Files :=
  [("definitions/report.sqlx", contents),
    ("workflow_settings.yaml", "defaultLocation: EU\n")]

def singleSettings : Settings.Pair :=
  ⟨{ Settings.Config.empty with defaultLocation := some "EU" },
    { Settings.Config.empty with defaultLocation := some "EU" }⟩

def singleContext (contents : String) : Context :=
  contextOf (single contents) Script.noRuntime singleSettings

def singleFindings (contents : String) : List Finding :=
  (readFiles (singleContext contents)).findings.toOption.getD []

def singleGraph (contents : String) : Graph :=
  (finish (singleContext contents) version
    (Build.ofFindings singleSettings (singleFindings contents))).1

/-- The operation before a report, and its query up to its placeholder and after
it. There are semicolons in quotations and comments. -/
def reportSet : String := " SET note = ';' -- on;\n "

def reportStart : String := "\n SELECT id FROM $\x7bself()\x7d"

def reportEnd : String := " WHERE id > 0 -- done;\n"

def report : String :=
  "pre_operations \x7b" ++ (reportSet ++ ("\x7d" ++ (reportStart ++ reportEnd)))

theorem result_report :
    (compile (single report) Script.noRuntime .default).result =
      .ok (singleGraph report) :=
  result_compile (by decide +kernel) (by decide +kernel)

theorem diagnostics_report : (singleGraph report).diagnostics = [] := by
  have hadjacency : Graph.adjacency (Link.linked
      (Build.ofFindings singleSettings (singleFindings report)).registry
      (surroundings (singleContext report))) = [[]] := by decide +kernel
  rw [singleGraph, diagnostics_finish hadjacency (by cbv)]
  decide +kernel

theorem actions_report : (singleGraph report).actions.map (fun action =>
    (action.variant, action.parent?, Link.isIncremental action.body,
      action.body.sqlTexts)) =
    [(.table, none, false,
      ["SELECT id FROM \x60report\x60 WHERE id > 0 -- done;",
        "SET note = ';' -- on;"])] := by
  decide +kernel

/-- The templates of the report, each with what it is rendered to. -/
def reportRendered : List (String × String) :=
  [(reportStart ++ reportEnd, "\n SELECT id FROM \x60report\x60" ++ reportEnd),
    (reportSet, reportSet)]

/-- The scope in which a definition of the report is rendered. -/
def reportScope (d : Definition) : Link.Scope :=
  Link.scopeOf
    (Build.ofFindings singleSettings (singleFindings report)).registry
    (surroundings (singleContext report)) (d.entry singleSettings)

/-- The query is rendered with the address of the report, and the operation is
copied. -/
theorem rendered_report : (definitions (singleFindings report)).map (fun d =>
    (d.pending.interpolate,
      (renderings false d.pending.templates).map fun rendering =>
      (rendering.2,
        (reportScope d).rendered d.pending.interpolate rendering))) =
    [(true, reportRendered)] := by
  decide +kernel

theorem compilation_report (c : Compilation (single report) Script.noRuntime
      .default (singleGraph report)) :
    c.findings = singleFindings report ∧ ∀ d rendering,
      c.rendered d rendering =
        (reportScope d).rendered d.pending.interpolate rendering := by
  have hloaded : (Settings.load (single report) Options.default.override
      Options.default.version).toOption =
      some singleSettings := by decide +kernel
  have hsettings : c.settings = singleSettings := c.settings_eq hloaded
  have hfindings : c.findings = singleFindings report := c.findings_eq hloaded
  refine ⟨hfindings, ?_⟩
  intro d rendering
  rw [Compilation.rendered, Compilation.registry, Compilation.build,
    Compilation.context, hsettings, hfindings]
  rfl

/-- The end of the query is settled by what follows its placeholder, and that of
the operation by all of it. -/
theorem endSettled_report {template rendered : String}
    (h : (template, rendered) ∈ reportRendered) {before lead : List Char}
    (hrenders :
      Template.Renders true template.toList rendered.toList before lead) :
    Sqlx.EndSettled before (Template.lastStretch true template.toList) lead
      (Template.copiedStretch true template.toList) := by
  rcases List.mem_cons.1 h with hquery | hset
  · cases hquery
    apply Sqlx.endSettled_of_renders hrenders reportStart.toList
      "\n SELECT id FROM \x60report\x60".toList
    · decide +kernel
    · decide +kernel
    · decide +kernel
  · cases List.mem_singleton.1 hset
    apply Sqlx.endSettled_of_renders hrenders [] []
    · decide +kernel
    · decide +kernel
    · decide +kernel

theorem unterminated_report : ∃ graph : Graph,
    (compile (single report) Script.noRuntime .default).result = .ok graph ∧
      graph.diagnostics = [] ∧
      graph.actions.map (·.body.sqlTexts) =
        [["SELECT id FROM \x60report\x60 WHERE id > 0 -- done;",
          "SET note = ';' -- on;"]] ∧
      ∀ action ∈ graph.actions, ∀ sql ∈ action.body.sqlTexts,
        hasTrailingSemicolon sql = false := by
  obtain ⟨c, hactions⟩ := unterminated_compile result_report diagnostics_report
  obtain ⟨hfindings, hscope⟩ := compilation_report c
  obtain ⟨only, honly, hkind⟩ := List.map_eq_singleton_iff.1 actions_report
  obtain ⟨hvariant, hparent, hincremental, hsqlTexts⟩ : _ ∧ _ ∧ _ ∧ _ := by
    simpa using hkind
  obtain ⟨d, hd, hpair⟩ := List.map_eq_singleton_iff.1 rendered_report
  obtain ⟨hinterpolate, hrendered⟩ := Prod.mk.inj hpair
  refine ⟨singleGraph report, result_report, diagnostics_report, ?_, ?_⟩
  · rw [honly, List.map_singleton, hsqlTexts]
  · intro action haction sql hsql
    obtain rfl : action = only := List.mem_singleton.1 (honly ▸ haction)
    obtain ⟨e, he, htexts, hunterminated⟩ :=
      hactions action haction (.inl hvariant) hparent
    have hmem : e ∈ definitions (singleFindings report) :=
      hfindings ▸ mem_definitions.2 he.finding_mem
    obtain rfl : e = d := List.mem_singleton.1 (hd ▸ hmem)
    rw [htexts, hincremental] at hsql
    rw [hincremental] at hunterminated
    obtain ⟨rendering, hrendering, rfl⟩ := List.mem_map.1 hsql
    obtain ⟨-, -, before, lead, hrenders, hcompiled⟩ :=
      hunterminated rendering hrendering
    have hreported : (rendering.2, c.rendered e rendering) ∈
        reportRendered := by
      rw [← hrendered, hscope]
      exact List.mem_map_of_mem hrendering
    apply hcompiled
    rw [hinterpolate] at hrenders ⊢
    exact endSettled_report hreported hrenders

/-- A query that a placeholder ends with a semicolon. -/
def inserted : String := "SELECT 1$\x7b\";\"\x7d"

theorem diagnostics_inserted : (singleGraph inserted).diagnostics = [] := by
  have hadjacency : Graph.adjacency (Link.linked
      (Build.ofFindings singleSettings (singleFindings inserted)).registry
      (surroundings (singleContext inserted))) = [[]] := by decide +kernel
  rw [singleGraph, diagnostics_finish hadjacency (by cbv)]
  decide +kernel

/-- The semicolon is in the compiled query of a table, and the graph is without
errors. -/
theorem semicolon_inserted : ∃ graph : Graph,
    (compile (single inserted) Script.noRuntime .default).result = .ok graph ∧
      graph.diagnostics = [] ∧
      graph.actions.map (fun action => (action.variant, action.body.sqlTexts)) =
        [(.table, ["SELECT 1;"])] ∧
      hasTrailingSemicolon "SELECT 1;" = true := by
  refine ⟨singleGraph inserted, ?_, diagnostics_inserted, ?_, ?_⟩
  · exact result_compile (by decide +kernel) (by decide +kernel)
  · decide +kernel
  · decide +kernel

end Compile

end SqlWorkflow
