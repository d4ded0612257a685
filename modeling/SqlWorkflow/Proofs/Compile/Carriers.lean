import SqlWorkflow.Proofs.Compile.Definitions

/-!
# No SQL goes missing

A SQL-template file carries SQL in its body and its operation blocks, an entry
of a definition script in five of its fields. What a kind of action compiles
ends up in the action: its templates hold every piece of that SQL, and linking
writes what they are compiled to into the place for it. SQL that a kind does not
compile is reported when it stands in a SQL-template file. In an entry of a
script it is passed over.
-/

namespace SqlWorkflow

namespace Compile

open SqlWorkflow.Action (Kind)
open Sqlx (Blocks)
open Registry (Templates)

/-- The places in which a source carries SQL. -/
inductive Carrier
  | query
  | incrementalQuery
  | preOps
  | postOps
  | queries
  deriving DecidableEq

/-- The SQL of a SQL-template file; its body is the query. -/
def carriedByBlocks (blocks : Blocks) : Carrier → List String
  | .query => [blocks.body]
  | .preOps => blocks.preOperations
  | .postOps => blocks.postOperations
  | .incrementalQuery | .queries => []

/-- The SQL of an entry of a definition script. -/
def ScriptEntry.carried (entry : ScriptEntry) : Carrier → List String
  | .query => entry.query.toList
  | .incrementalQuery => entry.incrementalQuery.toList
  | .preOps => entry.preOps
  | .postOps => entry.postOps
  | .queries => entry.queries.getD []

/-- Whether SQL in a carrier is compiled for actions of a kind. -/
def compiles (kind : Kind) : Carrier → Bool
  | .query => kind.isTableLike || kind == .operation || kind == .assertion
  | .incrementalQuery => kind == .incremental
  | .preOps | .postOps => kind.isTableLike
  | .queries => kind == .operation

/-- Whether SQL in a carrier of an entry counts: queries take the place of a
query. -/
def ScriptEntry.counts (entry : ScriptEntry) (kind : Kind)
    (carrier : Carrier) : Bool :=
  compiles kind carrier &&
    !(kind == .operation && carrier == .query && entry.queries.isSome)

/-- SQL cut into the pieces that are compiled one by one: the query of an
operation holds several. -/
def piecesOf : Kind → Carrier → List String → List String
  | .operation, .query, texts => texts.flatMap Sqlx.splitStatements
  | _, _, texts => texts

/-- The templates for the SQL in a carrier. Those of an operation are its
queries. -/
def templatesIn : Templates → Carrier → List String
  | .table query _ _ _, .query => [query]
  | .table _ incrementalQuery _ _, .incrementalQuery => incrementalQuery.toList
  | .table _ _ preOps _, .preOps => preOps
  | .table _ _ _ postOps, .postOps => postOps
  | .operation queries, .query | .operation queries, .queries => queries
  | .assertion query, .query => [query]
  | _, _ => []

/-- Templates hold all pieces of the SQL of a source that counts, in order and
each in its place. -/
def HoldsPieces (kind : Kind) (carried : Carrier → List String)
    (counts : Carrier → Bool) (templates : Templates) : Prop :=
  ∀ carrier, counts carrier = true →
    List.Sublist (piecesOf kind carrier (carried carrier))
      (templatesIn templates carrier)

/-- The templates of a SQL-template file hold the SQL that its kind compiles. -/
theorem holdsPieces_templatesOf (kind : Kind) (blocks : Blocks) :
    HoldsPieces kind (carriedByBlocks blocks) (compiles kind)
      (templatesOf kind blocks) := by
  intro carrier hcounts
  cases kind with
  | table | view | incremental =>
    cases carrier with
    | query | preOps | postOps => exact .refl _
    | incrementalQuery => exact List.nil_sublist _
    | queries => cases hcounts
  | operation =>
    cases carrier with
    | query =>
      change List.Sublist ([blocks.body].flatMap Sqlx.splitStatements)
        (Sqlx.splitStatements blocks.body)
      rw [List.flatMap_singleton]
    | queries => exact List.nil_sublist _
    | incrementalQuery | preOps | postOps => cases hcounts
  | assertion =>
    cases carrier with
    | query => exact .refl _
    | incrementalQuery | preOps | postOps | queries => cases hcounts
  | declaration | notebook | dataPreparation => cases carrier <;> cases hcounts

theorem sublist_getD (text? : Option String) :
    List.Sublist text?.toList [text?.getD ""] := by
  cases text? with
  | none => exact List.nil_sublist _
  | some text => exact .refl _

/-- The statements of an operation are its queries if it has some, and else
those in its query. -/
theorem holdsPieces_operation (entry : ScriptEntry) :
    HoldsPieces .operation entry.carried (entry.counts .operation)
      (entry.templates .operate) := by
  intro carrier hcounts
  cases carrier with
  | query =>
    change List.Sublist (entry.query.toList.flatMap Sqlx.splitStatements)
      (entry.queries.getD ((entry.query.map Sqlx.splitStatements).getD []))
    cases hqueries : entry.queries with
    | some queries => simp [ScriptEntry.counts, hqueries] at hcounts
    | none => cases entry.query <;> simp
  | queries =>
    change List.Sublist (entry.queries.getD [])
      (entry.queries.getD ((entry.query.map Sqlx.splitStatements).getD []))
    cases entry.queries <;> simp
  | incrementalQuery | preOps | postOps => cases hcounts

/-- What is published is a table. -/
theorem ScriptEntry.isTableLike_of_publish {path : String} {index : Nat}
    {value : Json} {kind : Kind}
    (h : ScriptEntry.kind path index .publish value = .ok kind) :
    kind.isTableLike = true := by
  rw [ScriptEntry.kind] at h
  split at h
  · cases h
  · split at h
    · rename_i hlike
      cases h
      exact hlike
    · cases h

/-- The templates of an entry of a script hold the SQL that counts. -/
theorem holdsPieces_templates {path : String} {index : Nat} {verb : Verb}
    {value : Json} {kind : Kind}
    (h : ScriptEntry.kind path index verb value = .ok kind)
    (entry : ScriptEntry) :
    HoldsPieces kind entry.carried (entry.counts kind)
      (entry.templates verb) := by
  cases verb with
  | publish =>
    intro carrier hcounts
    have hlike := ScriptEntry.isTableLike_of_publish h
    cases kind with
    | table | view | incremental =>
      cases carrier with
      | query => exact sublist_getD entry.query
      | incrementalQuery | preOps | postOps => exact .refl _
      | queries => cases hcounts
    | operation | assertion | declaration | notebook | dataPreparation =>
      cases hlike
  | operate =>
    cases h
    exact holdsPieces_operation entry
  | assert =>
    intro carrier hcounts
    cases h
    cases carrier with
    | query => exact sublist_getD entry.query
    | incrementalQuery | preOps | postOps | queries => cases hcounts
  | declare =>
    intro carrier hcounts
    cases h
    cases carrier <;> cases hcounts

/-- A SQL-template file that defines nothing yields a message. -/
theorem BlocksYield.exists_message {path : String} {blocks : Blocks}
    {findings : List Finding} (h : BlocksYield path blocks findings)
    (hnone : ∀ d, .definition d ∉ findings) :
    ∃ message, .ofFile path message ∈ findings := by
  cases h with
  | failed message => exact ⟨message, List.mem_singleton_self _⟩
  | defined =>
    cases hnone _ (List.mem_append_right _ (List.mem_singleton_self _))

theorem hasOperationBlocks_of_mem {blocks : Blocks} {sql : String}
    (h : sql ∈ blocks.preOperations ∨ sql ∈ blocks.postOperations) :
    hasOperationBlocks blocks = true := by
  rw [hasOperationBlocks]
  rcases h with hpre | hpost
  · cases hops : blocks.preOperations with
    | nil => rw [hops] at hpre; cases hpre
    | cons => rfl
  · cases hops : blocks.postOperations with
    | nil => rw [hops] at hpost; cases hpost
    | cons => exact Bool.or_true _

/-- SQL that the kind of a SQL-template file does not compile is reported. -/
theorem BlocksYield.misplaced {path : String} {blocks : Blocks}
    {findings : List Finding} {d : Definition}
    (h : BlocksYield path blocks findings) (hd : .definition d ∈ findings)
    {carrier : Carrier} (hcompiles : compiles d.config.kind carrier = false)
    {sql : String} (hsql : sql ∈ carriedByBlocks blocks carrier)
    (hblank : Text.isBlankText sql = false) :
    .ofFile path operationBlocksMessage ∈ findings := by
  have hdefine := h.of_mem hd
  rw [hdefine.findings]
  apply List.mem_append_left
  cases hkind : d.config.kind with
  | table | view | incremental =>
    rw [hkind] at hcompiles
    cases carrier with
    | query | preOps | postOps => cases hcompiles
    | incrementalQuery | queries => cases hsql
  | operation | assertion =>
    have hblocks : hasOperationBlocks blocks = true := by
      rw [hkind] at hcompiles
      cases carrier with
      | query => cases hcompiles
      | preOps => exact hasOperationBlocks_of_mem (.inl hsql)
      | postOps => exact hasOperationBlocks_of_mem (.inr hsql)
      | incrementalQuery | queries => cases hsql
    rw [blockFindings, hblocks]
    exact List.mem_singleton_self _
  | declaration =>
    obtain ⟨hbody, hnone⟩ := hdefine.bodiless hkind
    cases carrier with
    | query =>
      rw [List.mem_singleton.1 hsql, hbody] at hblank
      cases hblank
    | preOps => cases (hasOperationBlocks_of_mem (.inl hsql)).symm.trans hnone
    | postOps => cases (hasOperationBlocks_of_mem (.inr hsql)).symm.trans hnone
    | incrementalQuery | queries => cases hsql
  | notebook => cases hdefine.kind.1 hkind
  | dataPreparation => cases hdefine.kind.2 hkind

variable {files : Project.Files} {evaluator : Script.Evaluator}
  {options : Options} {graph : Graph}

/-- The graph has a diagnostic about a file. -/
def Reports (graph : Graph) (file : String) : Prop :=
  ∃ e ∈ graph.diagnostics, e.fileName = some file

namespace Compilation

/-- The SQL of a source is kept: the graph has an action for the definition, the
templates of which hold all pieces of the SQL that counts, and linking wrote
what they are compiled to into the body of that action. -/
structure KeepsSql (c : Compilation files evaluator options graph)
    (d : Definition) (carried : Carrier → List String)
    (counts : Carrier → Bool) : Prop where
  registered : ∃ action, c.HasAction d action
  templates : HoldsPieces d.config.kind carried counts d.pending.templates
  written : ∀ action, c.HasAction d action →
    action.variant = d.config.kind.variant ∧
      (Link.isIncremental action.body = true ↔ d.config.kind = .incremental) ∧
        Link.Written (c.text d) d.pending.templates action.body

variable {c : Compilation files evaluator options graph} {d : Definition}
  {file : String × String}

theorem keepsSql (hd : .definition d ∈ c.findings)
    {carried : Carrier → List String} {counts : Carrier → Bool}
    (htemplates :
      HoldsPieces d.config.kind carried counts d.pending.templates) :
    c.KeepsSql d carried counts :=
  ⟨c.exists_hasAction hd, htemplates, fun _ haction => haction.written⟩

theorem reports_of_finding {path message : String}
    (h : .ofFile path message ∈ c.findings) : Reports graph path :=
  ⟨_, c.mem_diagnostics_of_finding h (List.mem_singleton_self _), rfl⟩

/-- Of a SQL-template file either all SQL is kept, or an error is recorded. -/
theorem keepsSql_of_template (hfile : file ∈ files)
    (hsource : SourceKind.of file.1 = .sqlTemplate) :
    ((∀ d, .definition d ∉ c.findingsOf file) → Reports graph file.1) ∧
      ∀ d, .definition d ∈ c.findingsOf file →
        ∃ blocks, Sqlx.extractBlocks file.2 = .ok blocks ∧
          c.KeepsSql d (carriedByBlocks blocks) (compiles d.config.kind) ∧
          ∀ carrier, compiles d.config.kind carrier = false →
            (∃ sql ∈ carriedByBlocks blocks carrier, Text.isBlankText sql =
              false) →
            Reports graph file.1 := by
  obtain ⟨hown, hsubset⟩ := c.readFile_eq hfile
  rw [readFile, hsource] at hown
  dsimp only at hown
  rw [readSqlFile] at hown
  cases hblocks : Sqlx.extractBlocks file.2 with
  | error e =>
    rw [hblocks] at hown
    have hfindings : c.findingsOf file = [.ofFile file.1 e.message] :=
      (Except.ok.inj hown).symm
    rw [hfindings] at hsubset ⊢
    refine ⟨fun _ => c.reports_of_finding (hsubset (List.mem_singleton_self _)),
      ?_⟩
    intro d hd
    cases List.mem_singleton.1 hd
  | ok blocks =>
    rw [hblocks] at hown
    have hyields := yields_readBlocks hown
    refine ⟨fun hnone => ?_, fun d hd => ⟨blocks, rfl, ?_, ?_⟩⟩
    · obtain ⟨message, hmessage⟩ := hyields.exists_message hnone
      exact c.reports_of_finding (hsubset hmessage)
    · apply keepsSql (hsubset hd)
      rw [congrArg (·.pending.templates) (hyields.of_mem hd).definition]
      exact holdsPieces_templatesOf d.config.kind blocks
    · rintro carrier hcompiles ⟨sql, hsql, hblank⟩
      exact c.reports_of_finding
        (hsubset (hyields.misplaced hd hcompiles hsql hblank))

/-- Of an entry of a definition script all SQL is kept that counts. -/
theorem keepsSql_of_script (hfile : file ∈ files)
    (hsource : SourceKind.of file.1 = .script) :
    Reports graph file.1 ∨ ∃ value entries,
      evaluator (definitionRequest c.context file.1 file.2) = .ok value ∧
        Json.Decode.list ScriptEntry.decode value = .ok entries ∧
        List.Forall₂ (fun entry finding => ∃ d, finding = .definition d ∧
          c.KeepsSql d entry.2.carried (entry.2.counts d.config.kind) ∧
          (entry.1 = .declare → entry.2.query = none ∧ entry.2.queries = none))
          entries (c.findingsOf file) := by
  obtain ⟨hown, hsubset⟩ := c.readFile_eq hfile
  rw [readFile, hsource] at hown
  have hyields := yields_readScriptFile hown
  generalize c.findingsOf file = findings at hyields hsubset
  cases hyields with
  | failed =>
    exact .inl (c.reports_of_finding (hsubset (List.mem_singleton_self _)))
  | @defined value entries findings hvalue hentries hfindings =>
    refine .inr ⟨value, entries, hvalue, hentries,
      List.forall₂_iff_get.2 ⟨hfindings.length_eq, ?_⟩⟩
    intro place hentry hplace
    have hyield := hfindings.get hentry hplace
    have hmem := hsubset (findings.get_mem ⟨place, hplace⟩)
    generalize findings.get ⟨place, hplace⟩ = finding at hyield hmem
    cases hyield with
    | @defined index value kind config name hkind hconfig hbody =>
      obtain ⟨rfl, -⟩ := Action.kind_of_normalize hconfig
      exact ⟨_, rfl, keepsSql hmem (holdsPieces_templates hkind _), hbody⟩

end Compilation

/-- Whatever a project is compiled to, the SQL of its sources is not lost. A
SQL-template file has all its SQL in the action that it defines, or an error is
recorded about it. An entry of a definition script has in its action all SQL
that counts; if it declares, it has no query at all. -/
theorem sql_kept (h : (compile files evaluator options).result = .ok graph) :
    ∃ c : Compilation files evaluator options graph,
      (∀ file ∈ files, SourceKind.of file.1 = .sqlTemplate →
        ((∀ d, .definition d ∉ c.findingsOf file) → Reports graph file.1) ∧
          ∀ d, .definition d ∈ c.findingsOf file →
            ∃ blocks, Sqlx.extractBlocks file.2 = .ok blocks ∧
              c.KeepsSql d (carriedByBlocks blocks) (compiles d.config.kind) ∧
              ∀ carrier, compiles d.config.kind carrier = false →
                (∃ sql ∈ carriedByBlocks blocks carrier, Text.isBlankText sql =
                  false) → Reports graph file.1) ∧
        ∀ file ∈ files, SourceKind.of file.1 = .script →
          Reports graph file.1 ∨ ∃ value entries,
            evaluator (definitionRequest c.context file.1 file.2) = .ok value ∧
              Json.Decode.list ScriptEntry.decode value = .ok entries ∧
              List.Forall₂ (fun entry finding => ∃ d, finding = .definition d ∧
                c.KeepsSql d entry.2.carried (entry.2.counts d.config.kind) ∧
                (entry.1 = .declare →
                  entry.2.query = none ∧ entry.2.queries = none))
                entries (c.findingsOf file) := by
  obtain ⟨c⟩ := exists_compilation h
  refine ⟨c, ?_, ?_⟩
  · intro file hfile hsource
    exact c.keepsSql_of_template hfile hsource
  · intro file hfile hsource
    exact c.keepsSql_of_script hfile hsource

/-- A script that operates with a statement to run before. -/
def cleanup : Project.Files :=
  [("definitions/op.js", "x"),
    ("workflow_settings.yaml", "defaultLocation: EU\n")]

def cleanupValue : Json :=
  .object [("action", .string "operate"), ("name", .string "cleanup"),
    ("query", .string "DELETE FROM t"),
    ("preOps", .array [.string "DECLARE x INT64"])]

def cleanupEntry : ScriptEntry :=
  { ScriptEntry.empty with
    verb := some .operate
    name := some "cleanup"
    query := some "DELETE FROM t"
    preOps := ["DECLARE x INT64"] }

def cleanupRuntime : Script.Evaluator := fun _ => .ok (.array [cleanupValue])

def cleanupSettings : Settings.Config :=
  { Settings.Config.empty with defaultLocation := some "EU" }

def cleanupContext : Context :=
  contextOf cleanup cleanupRuntime ⟨cleanupSettings, cleanupSettings⟩

def cleanupBuild : Build :=
  Build.ofFindings ⟨cleanupSettings, cleanupSettings⟩
    ((readFiles cleanupContext).findings.toOption.getD [])

theorem result_cleanup : (compile cleanup cleanupRuntime .default).result =
    .ok (finish cleanupContext version cleanupBuild).1 :=
  result_compile (by decide +kernel) (by decide +kernel)

theorem diagnostics_cleanup :
    (finish cleanupContext version cleanupBuild).1.diagnostics = [] := by
  have hadjacency : Graph.adjacency
      (Link.linked cleanupBuild.registry (surroundings cleanupContext)) =
      [[]] := by decide +kernel
  rw [diagnostics_finish hadjacency (by cbv)]
  decide +kernel

theorem not_reports_cleanup (file : String) :
    ¬ Reports (finish cleanupContext version cleanupBuild).1 file := by
  rintro ⟨e, he, -⟩
  rw [diagnostics_cleanup] at he
  cases he

/-- The query of the entry counts, and is kept. -/
theorem sql_kept_cleanup :
    ∃ graph : Graph,
      (compile cleanup cleanupRuntime .default).result = .ok graph ∧
      ∃ (c : Compilation cleanup cleanupRuntime .default graph)
        (d : Definition),
      c.findingsOf ("definitions/op.js", "x") = [.definition d] ∧
        c.KeepsSql d cleanupEntry.carried (cleanupEntry.counts d.config.kind) ∧
        cleanupEntry.counts .operation .query = true ∧
        cleanupEntry.carried .query = ["DELETE FROM t"] := by
  refine ⟨_, result_cleanup, ?_⟩
  obtain ⟨c, -, hscripts⟩ := sql_kept result_cleanup
  rcases hscripts ("definitions/op.js", "x") List.mem_cons_self
    (by decide +kernel) with
    hreports | ⟨value, entries, hvalue, hentries, hkept⟩
  · cases not_reports_cleanup _ hreports
  · have hdecode : Json.Decode.list ScriptEntry.decode (.array [cleanupValue]) =
        .ok [(.operate, cleanupEntry)] := rfl
    obtain rfl := Except.ok.inj hvalue
    obtain rfl := Except.ok.inj (hdecode.symm.trans hentries)
    generalize hfindings : c.findingsOf ("definitions/op.js", "x") =
      findings at hkept
    obtain ⟨finding, rest, ⟨d, rfl, hkeeps, -⟩, hrest, rfl⟩ :=
      List.forall₂_cons_left_iff.1 hkept
    cases hrest
    exact ⟨c, d, hfindings, hkeeps, rfl, rfl⟩

/-- The operations of the entry are nowhere in the graph, and nothing is
reported. -/
theorem preOps_passedOver : ∃ graph : Graph,
    (compile cleanup cleanupRuntime .default).result = .ok graph ∧
      ScriptEntry.decode cleanupValue = .ok (.operate, cleanupEntry) ∧
      cleanupEntry.carried .preOps = ["DECLARE x INT64"] ∧
      compiles .operation .preOps = false ∧
      graph.actions.map (·.body) = [.operation ⟨["DELETE FROM t"], false⟩] ∧
      ¬ Reports graph "definitions/op.js" := by
  refine ⟨_, result_cleanup, rfl, rfl, rfl, by decide +kernel, ?_⟩
  exact not_reports_cleanup "definitions/op.js"

end Compile

end SqlWorkflow
