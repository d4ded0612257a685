import Mathlib.Data.String.Basic
import SqlWorkflow.Proofs.Action.Checks
import SqlWorkflow.Proofs.Compile.SourceEntries
import SqlWorkflow.Proofs.Graph.Lists

/-!
# The inventory of a graph

A graph has one action for each entry of a file, followed by the assertions for
its data checks, and nothing else. The actions stand in the order of the
entries, and the entries in that of the files, whose paths order them. Each
action is in one of six lists, that of its variant.
-/

namespace SqlWorkflow

namespace Dictionary

variable {α : Type} {dictionary : Dictionary α}

theorem mem_keys_insert {key wanted : String} {value : α} :
    wanted ∈ (insert key value dictionary).map Prod.fst ↔
      wanted = key ∨ wanted ∈ dictionary.map Prod.fst := by
  induction dictionary with
  | nil => simp [insert]
  | cons pair rest ih =>
    obtain ⟨k, v⟩ := pair
    rw [insert]
    split
    · simp
    · split
      · rename_i hkey
        simp [hkey]
      · rw [List.map_cons, List.mem_cons, ih, List.map_cons, List.mem_cons]
        exact or_left_comm

/-- Adding a pair keeps the keys in order. -/
theorem ordered_insert (h : (dictionary.map Prod.fst).Pairwise (· < ·))
    (key : String) (value : α) :
    ((insert key value dictionary).map Prod.fst).Pairwise (· < ·) := by
  induction dictionary with
  | nil => exact List.pairwise_singleton _ _
  | cons pair rest ih =>
    obtain ⟨k, v⟩ := pair
    obtain ⟨hfirst, hrest⟩ := List.pairwise_cons.1 h
    rw [insert]
    split
    · rename_i hlt
      refine List.pairwise_cons.2 ⟨?_, h⟩
      intro other hother
      rcases List.mem_cons.1 hother with rfl | hlater
      · exact hlt
      · exact hlt.trans (hfirst other hlater)
    · split
      · rename_i hkey
        rw [hkey]
        exact h
      · rename_i hle hne
        refine List.pairwise_cons.2 ⟨?_, ih hrest⟩
        intro other hother
        rcases mem_keys_insert.1 hother with rfl | hlater
        · exact lt_of_le_of_ne (not_lt.1 hle) (Ne.symm hne)
        · exact hfirst other hlater

end Dictionary

/-- The files of a project are in the order of their paths. -/
theorem Project.Files.ordered_ofList (files : List (String × String)) :
    ((ofList files).map Prod.fst).Pairwise (· < ·) := by
  rw [ofList]
  suffices h : ∀ project : Files, (project.map Prod.fst).Pairwise (· < ·) →
      ((files.foldl (fun project file => insert project file.1 file.2)
        project).map Prod.fst).Pairwise (· < ·) from h [] .nil
  induction files with
  | nil => exact fun _ h => h
  | cons file rest ih =>
    exact fun project h => ih _ (Dictionary.ordered_insert h _ _)

namespace Compile

/-- A definition gives rise to an action and to assertions. The action has all
that the definition gives it and the variant of the kind of the config; there is
one assertion for each group of key columns, and one more if a column must not
be null or there is a condition on rows. -/
structure Definition.GivesRise (settings : Settings.Pair) (d : Definition)
    (own : Action) (assertions : List Action) : Prop where
  lasting : own.lasting = (d.action settings).lasting
  variant : own.variant = d.config.kind.variant
  targets : assertions.map (fun assertion =>
    (⟨assertion.target, assertion.canonical⟩ : Target.Resolved)) =
    d.config.checks.words.map
      (Target.assertionTargets settings own.canonical d.config.database)
  length : assertions.length =
    d.config.checks.uniqueKeys.length + if d.config.checks.nonNull = [] ∧
    d.config.checks.rowConditions = [] then 0 else 1
  made : ∀ assertion ∈ assertions, assertion.variant = .assertion ∧
    assertion.parent? = some own.target

section

variable {files : Project.Files} {evaluator : Script.Evaluator}
  {options : Options} {graph : Graph}

namespace Compilation

variable (c : Compilation files evaluator options graph)

/-- A group of actions is what the definition that an entry makes gives rise
to. -/
def Accounts (path : String) (entry : SourceEntry)
    (group : List Action) : Prop :=
  ∃ d own assertions, entry.Makes files path d ∧
    group = own :: assertions ∧ d.GivesRise c.settings own assertions

/-- The actions of the graph for a definition. -/
def groupOf (d : Definition) : List Action :=
  (d.entries c.settings).map fun entry => (c.outcome entry).action

theorem actions_eq_flatten :
    graph.actions =
      (files.map fun file =>
        (definitions (c.findingsOf file)).map c.groupOf).flatten.flatten := by
  have hdefinitions : definitions c.findings = files.flatMap fun file =>
      definitions (c.findingsOf file) := by
    rw [c.findings_eq_flatMap, definitions, List.filterMap_flatMap]
    rfl
  rw [c.actions_graph, c.entries_registry, hdefinitions, List.map_flatMap,
    List.flatMap_assoc]
  simp only [List.flatMap_def, List.flatten_flatten, List.map_map]
  rfl

variable {c}

theorem givesRise {d : Definition} (hsound : d.Sound) :
    d.GivesRise c.settings (c.outcome (d.entry c.settings)).action
      ((d.assertions c.settings).map fun assertion =>
        (c.outcome ⟨assertion, .nothing⟩).action) where
  lasting := (Link.keeps_linkEntry c.registry (surroundings c.context)
    (d.entry c.settings)).lasting
  variant := (c.variant_outcome _).trans (hsound.fits c.settings).2
  targets := by
    rw [← Action.Checks.map_fst_queries_eq_words c.settings.active.warehouse
      (d.action c.settings).target, Definition.assertions,
      Registry.assertionsFor, List.map_map, List.map_map, List.map_map]
    rfl
  length := by
    rw [← Action.Checks.length_words, List.length_map, Definition.assertions,
      Registry.assertionsFor, List.length_map, ← List.length_map (·.1),
      Action.Checks.map_fst_queries_eq_words]
  made := by
    intro assertion hassertion
    obtain ⟨registered, hregistered, rfl⟩ := List.mem_map.1 hassertion
    obtain ⟨check, -, rfl⟩ := List.mem_map.1 hregistered
    exact ⟨c.variant_outcome _, c.parent?_outcome _⟩

theorem accounts_groupOf {path : String} {entry : SourceEntry} {d : Definition}
    (hmakes : entry.Makes files path d) (hsound : d.Sound) :
    c.Accounts path entry (c.groupOf d) := by
  refine ⟨d, _, _, hmakes, ?_, givesRise hsound⟩
  rw [groupOf, Definition.entries, List.map_cons, List.map_map]
  rfl

/-- Each entry of a file has its group of actions in the graph. -/
theorem accounts_of_mem {file : String × String} (hfile : file ∈ files) :
    List.Forall₂ (c.Accounts file.1) (sourceEntries c.context file.1 file.2)
      ((definitions (c.findingsOf file)).map c.groupOf) := by
  obtain ⟨hread, hsubset⟩ := c.readFile_eq hfile
  have hsound : ∀ d ∈ definitions (c.findingsOf file), d.Sound := fun d hd =>
    sound_of_finding (hsubset (mem_definitions.1 hd))
  rw [List.forall₂_map_right_iff]
  -- The variant of an action needs the definition to be sound, so both facts go
  -- together along the lists.
  have hboth :=
    (List.forall₂_and_left _ _).2 ⟨hsound, (makes_readFile hread).flip⟩
  refine hboth.flip.imp ?_
  rintro entry d ⟨hd, hmakes⟩
  exact accounts_groupOf hmakes hd

end Compilation

/-- The actions of a graph, in order, are one for each entry of each file, in
the order of the paths, each followed by the assertions for its data checks; and
each is in one list of the graph. -/
theorem inventory_compile :
    (∀ files : List (String × String),
      ((Project.Files.ofList files).map Prod.fst).Pairwise (· < ·)) ∧
    ∀ (files : Project.Files) (evaluator : Script.Evaluator) (options : Options)
      (graph : Graph), (compile files evaluator options).result = .ok graph →
        graph.Listed ∧
          ∃ (c : Compilation files evaluator options graph)
            (groups : List (List (List Action))),
            graph.actions = groups.flatten.flatten ∧
              List.Forall₂ (fun file => List.Forall₂ (c.Accounts file.1)
                (sourceEntries c.context file.1 file.2)) files groups := by
  refine ⟨Project.Files.ordered_ofList, ?_⟩
  intro files evaluator options graph hgraph
  obtain ⟨c⟩ := exists_compilation hgraph
  refine ⟨graph.listed, c, _, c.actions_eq_flatten, ?_⟩
  rw [List.forall₂_map_right_iff, List.forall₂_same]
  exact fun file hfile => Compilation.accounts_of_mem hfile

end

/-- A listing, a script, a SQL-template file, and files without entries. -/
def market : Project.Files :=
  [("definitions/actions.yaml", "actions:\n- declaration:\n    name: lookup\n"),
    ("definitions/build.js", "x"), ("definitions/report.sqlx", "SELECT 1"),
    ("definitions/stray.sql", "SELECT 2"),
    ("workflow_settings.yaml", "defaultLocation: EU\n")]

/-- The runtime answers with orders that have an identifier and are not
empty. -/
def marketRuntime : Script.Evaluator := fun _ =>
  .ok
    (.array [.object [("action", .string "publish"), ("name", .string "orders"),
      ("config", .object [("assertions", .object [("uniqueKey", .array
        [.string "id"]), ("rowConditions", .array [.string "size > 0"])])]),
      ("query", .string "SELECT 1 AS id, 2 AS size")]])

def marketGraph : Graph :=
  (finish (contextOf market marketRuntime locatedSettings) version
    (Build.ofFindings locatedSettings ((readFiles (contextOf market
      marketRuntime locatedSettings)).findings.toOption.getD []))).1

theorem loaded_market : (Settings.load market Options.default.override
    Options.default.version).toOption = some locatedSettings := by
  decide +kernel

theorem result_market :
    (compile market marketRuntime .default).result = .ok marketGraph :=
  result_compile loaded_market (by decide +kernel)

theorem actions_market : marketGraph.actions.map
    (fun action => (action.variant, action.target.name)) =
    [(.declaration, "lookup"), (.table, "orders"),
      (.assertion, "orders_assertions_uniqueKey_0"),
      (.assertion, "orders_assertions_rowConditions"), (.table, "report")] := by
  decide +kernel

theorem inventory_market : ∃ graph : Graph,
    (compile market marketRuntime .default).result = .ok graph ∧
      graph.actions.map (fun action => (action.variant, action.target.name)) =
        [(.declaration, "lookup"), (.table, "orders"),
          (.assertion, "orders_assertions_uniqueKey_0"),
          (.assertion, "orders_assertions_rowConditions"), (.table, "report")] ∧
      graph.Listed ∧
      ∃ (c : Compilation market marketRuntime .default graph)
        (groups : List (List (List Action))),
        market.map (fun file =>
          (sourceEntries c.context file.1 file.2).length) = [1, 1, 1, 0, 0] ∧
          graph.actions = groups.flatten.flatten ∧
          List.Forall₂ (fun file => List.Forall₂ (c.Accounts file.1)
            (sourceEntries c.context file.1 file.2)) market groups := by
  obtain ⟨hlisted, c, groups, hactions, haccounts⟩ :=
    inventory_compile.2 market marketRuntime .default marketGraph result_market
  have hcontext : c.context =
      contextOf market marketRuntime locatedSettings := by
    rw [Compilation.context, c.settings_eq loaded_market]
  refine ⟨marketGraph, result_market, actions_market, hlisted, c, groups, ?_,
    hactions, haccounts⟩
  rw [hcontext]
  decide +kernel

end Compile

end SqlWorkflow
