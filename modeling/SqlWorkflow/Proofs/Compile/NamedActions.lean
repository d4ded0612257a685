import SqlWorkflow.Proofs.Action.Acceptance
import SqlWorkflow.Proofs.Compile.Duplicates
import SqlWorkflow.Proofs.Compile.Edges
import SqlWorkflow.Proofs.Compile.SourceEntries
import SqlWorkflow.Proofs.Sqlx.FileName

/-!
# Actions without a name

A name that a config gives is never empty, and neither is the name of an
assertion for a data check. A name that is taken from a file can be empty: of a
file name that is nothing but the marker of data preparations, with an extension
or without one, nothing is left. Just the actions that take their name from such
a file have none.
-/

namespace SqlWorkflow

theorem Target.assertionName_ne_empty (parent : Target)
    (word : String) : assertionName parent word ≠ "" := by
  intro hempty
  have hmark := mark_infix_assertionName parent word
  rw [hempty] at hmark
  cases List.eq_nil_of_infix_nil hmark

namespace Compile

open Sqlx (Nameless Blocks)

/-! ## Names of definitions -/

namespace Definition

/-- The name that a config gives is not empty, and where it gives none the name
is taken from a file of the project. -/
structure Named (paths : List String) (d : Definition) : Prop where
  given : d.config.name ≠ some ""
  taken : d.config.name = none →
    d.defaultName = Sqlx.actionName d.fileName ∧ d.fileName ∈ paths

variable {paths : List String} {d : Definition}

theorem Named.of_name {name : String} (h : d.config.name = some name)
    (hne : name ≠ "") : d.Named paths where
  given := by
    rw [h]
    exact fun heq => hne (Option.some.inj heq)
  taken hnone := by
    rw [h] at hnone
    cases hnone

/-- A definition has no name just when its config gives none and nothing is left
of the name of its file. -/
theorem Named.explicit_name (h : d.Named paths) :
    d.explicit.name = "" ↔ d.config.name = none ∧ Nameless d.fileName := by
  rw [← Sqlx.actionName_eq_empty_iff]
  change d.config.name.getD d.defaultName = "" ↔ _
  cases hname : d.config.name with
  | none =>
    rw [Option.getD_none, (h.taken hname).1]
    simp
  | some name =>
    rw [Option.getD_some]
    refine iff_of_false ?_ nofun
    rintro rfl
    exact h.given hname

end Definition

variable {context : Context} {path : String} {paths : List String}
  {findings : List Finding}

theorem BlocksYield.named {blocks : Blocks}
    (h : BlocksYield path blocks findings) (hpath : path ∈ paths) :
    ∀ d ∈ definitions findings, d.Named paths := by
  cases h with
  | failed => exact List.forall_mem_nil _
  | defined hkind hconfig =>
    rw [definitions_append, definitions_blockFindings, List.nil_append]
    refine List.forall_mem_singleton.2 ⟨?_, ?_⟩
    · exact (Action.obeys_of_normalize hconfig).name.notEmpty
    · exact fun _ => ⟨rfl, hpath⟩

theorem named_readEntries {index : Nat} {entries : List (Verb × ScriptEntry)}
    (h : readEntries path index entries = .ok findings) :
    ∀ d ∈ definitions findings, d.Named paths := by
  induction entries generalizing index findings with
  | nil =>
    cases h
    exact List.forall_mem_nil _
  | cons first rest ih =>
    obtain ⟨verb, entry⟩ := first
    rw [readEntries] at h
    split at h
    · cases h
    · rename_i finding hfinding
      obtain ⟨others, hothers, rfl⟩ := Text.exists_of_map_eq_ok h
      obtain ⟨_, _, config, name, _, _, _, ⟨hname, hne⟩, _, rfl⟩ :=
        ScriptEntry.defined_of_read hfinding
      exact List.forall_mem_cons.2 ⟨.of_name hname hne, ih hothers⟩

theorem named_readScriptFile {text : String}
    (h : (readScriptFile context path text).findings = .ok findings) :
    ∀ d ∈ definitions findings, d.Named paths := by
  rw [readScriptFile] at h
  split at h
  · cases h
    exact List.forall_mem_nil _
  · dsimp only at h
    rw [readScriptValue] at h
    split at h
    · cases h
    · exact named_readEntries h

theorem EntryYields.named {files : Dictionary String} {entry : Json}
    (h : EntryYields files path entry findings) :
    ∀ d ∈ definitions findings, d.Named (files.map Prod.fst) := by
  cases h with
  | declaration hentry hconfig =>
    have hname := (Action.obeys_of_normalize hconfig).name
    obtain ⟨name, hsome⟩ :=
      Option.ne_none_iff_exists'.1 (hname.declaration rfl nofun)
    refine List.forall_mem_singleton.2 (.of_name hsome ?_)
    rintro rfl
    exact hname.notEmpty hsome
  | referring hentry hkind hconfig hname hfile =>
    rw [definitions_append, definitions_contentOf, List.nil_append]
    refine List.forall_mem_singleton.2 ⟨?_, fun _ => ⟨rfl, ?_⟩⟩
    · exact (Action.obeys_of_normalize hconfig).name.notEmpty
    · apply Dictionary.contains_eq_true_iff.1
      rw [Dictionary.contains, hfile]
      rfl

theorem named_readListing {text : String}
    (h : (readListing context path text).findings = .ok findings) :
    ∀ d ∈ definitions findings, d.Named (context.files.map Prod.fst) := by
  change listedFindings context path text = .ok findings at h
  rw [listedFindings] at h
  split at h
  · cases h
  · cases h
  · intro d hd
    obtain ⟨entry, -, own, hown, hmem⟩ :=
      exists_of_mem_collect h (mem_definitions.1 hd)
    exact (yields_readEntry hown).named d (mem_definitions.2 hmem)

/-- What a file of a project defines is named, whatever form the file has. -/
theorem named_readFile {file : String × String} (hfile : file ∈ context.files)
    (h : (readFile context file).findings = .ok findings) :
    ∀ d ∈ definitions findings, d.Named (context.files.map Prod.fst) := by
  rw [readFile] at h
  split at h
  · rw [readSqlFile] at h
    split at h
    · cases h
      exact List.forall_mem_nil _
    · exact (yields_readBlocks h).named (List.mem_map_of_mem hfile)
  · exact named_readScriptFile h
  · exact named_readListing h
  · cases h
    exact List.forall_mem_nil _

/-! ## Names of actions -/

variable {files : Project.Files} {evaluator : Script.Evaluator}
  {options : Options} {graph : Graph}

namespace Compilation

variable {c : Compilation files evaluator options graph} {d : Definition}
  {action : Action}

theorem named_of_finding (h : .definition d ∈ c.findings) :
    d.Named (files.map Prod.fst) := by
  obtain ⟨file, hfile, own, hown, hd⟩ := exists_of_mem_collect c.collect_eq h
  have hmem : file ∈ c.context.files := hfile
  exact named_readFile hmem hown d (mem_definitions.2 hd)

variable (c) in
/-- The canonical settings put nothing before a name. -/
theorem tablePrefix_canonical : c.settings.canonical.tablePrefix = none := by
  have hloaded := c.loaded
  rw [Settings.load] at hloaded
  split at hloaded
  · cases hloaded
  · obtain ⟨_, -, hsettings⟩ := Text.exists_of_map_eq_ok hloaded
    rw [← hsettings]
    rfl

variable (c) in
/-- Linking keeps the canonical target of an action. -/
theorem canonical_outcome (entry : Registry.Entry) :
    (c.outcome entry).action.canonical = entry.action.canonical :=
  congrArg (·.2.1)
    (Link.keysOf_linkEntry c.registry (surroundings c.context) entry)

/-- The canonical name of an action is the one that its definition gives it. -/
theorem HasAction.canonical_name (h : c.HasAction d action) :
    action.canonical.name = d.explicit.name := by
  rw [h.eq_outcome, c.canonical_outcome]
  change (if roleOf d.config.kind = .declaration then d.explicit.name
    else Target.withPrefix c.settings.canonical.tablePrefix d.explicit.name) = _
  rw [c.tablePrefix_canonical]
  exact ite_self _

/-- An action of the graph is defined in the project, or is an assertion for a
data check and has a name. -/
theorem exists_hasAction_or_named (h : action ∈ graph.actions) :
    (∃ d, c.HasAction d action) ∨ action.canonical.name ≠ "" := by
  rw [c.actions_graph] at h
  obtain ⟨entry, hentry, rfl⟩ := List.mem_map.1 h
  rw [c.entries_registry] at hentry
  obtain ⟨d, hd, hadded⟩ := List.mem_flatMap.1 hentry
  rcases List.mem_cons.1 hadded with rfl | hassertion
  · obtain ⟨action, haction⟩ := c.exists_hasAction (mem_definitions.1 hd)
    rw [← haction.eq_outcome]
    exact .inl ⟨d, haction⟩
  · obtain ⟨assertion, hmem, rfl⟩ := List.mem_map.1 hassertion
    obtain ⟨check, -, rfl⟩ := List.mem_map.1 hmem
    rw [c.canonical_outcome]
    change _ ∨ Target.withPrefix c.settings.canonical.tablePrefix _ ≠ ""
    rw [c.tablePrefix_canonical]
    exact .inr (Target.assertionName_ne_empty _ _)

end Compilation

/-- Just the actions without a name of their own that are defined in, or
compiled from, a file of the project of whose name nothing is left have no name.
So in a project without such a file every action has one. -/
theorem nameless_iff
    (h : (compile files evaluator options).result = .ok graph) :
    ∃ c : Compilation files evaluator options graph,
      (∀ action ∈ graph.actions, action.canonical.name = "" ↔
        ∃ d, c.HasAction d action ∧ d.config.name = none ∧ Nameless d.fileName ∧
          d.fileName ∈ files.map Prod.fst) ∧
        ((∀ path ∈ files.map Prod.fst, ¬ Nameless path) →
          ∀ action ∈ graph.actions, action.canonical.name ≠ "") := by
  obtain ⟨c⟩ := exists_compilation h
  have hiff : ∀ action ∈ graph.actions, action.canonical.name = "" ↔
      ∃ d, c.HasAction d action ∧ d.config.name = none ∧ Nameless d.fileName ∧
        d.fileName ∈ files.map Prod.fst := by
    intro action haction
    constructor
    · intro hempty
      rcases c.exists_hasAction_or_named haction with ⟨d, hd⟩ | hname
      · have hnamed : d.Named (files.map Prod.fst) :=
          Compilation.named_of_finding hd.finding_mem
        rw [hd.canonical_name] at hempty
        obtain ⟨hnone, hnameless⟩ := hnamed.explicit_name.1 hempty
        exact ⟨d, hd, hnone, hnameless, (hnamed.taken hnone).2⟩
      · cases hname hempty
    · rintro ⟨d, hd, hnone, hnameless, -⟩
      rw [hd.canonical_name]
      exact (Compilation.named_of_finding hd.finding_mem).explicit_name.2
        ⟨hnone, hnameless⟩
  refine ⟨c, hiff, fun hpaths action haction hempty => ?_⟩
  obtain ⟨d, -, -, hnameless, hpath⟩ := (hiff action haction).1 hempty
  exact hpaths d.fileName hpath hnameless

/-- Two files of whose names nothing is left. The second gives a name to its
action. -/
def markers : Project.Files :=
  [("definitions/.dp.sqlx", "SELECT 1"),
    ("definitions/sales/.dp.sqlx",
      "config \x7b type: \"table\", name: \"sales\" \x7d\nSELECT 2"),
    ("workflow_settings.yaml", "defaultLocation: EU\n")]

def markersFindings : List Finding :=
  (readFiles (contextOf markers Script.noRuntime
    locatedSettings)).findings.toOption.getD []

def markersGraph : Graph :=
  (finish (contextOf markers Script.noRuntime locatedSettings) version
    (Build.ofFindings locatedSettings markersFindings)).1

theorem result_markers :
    (compile markers Script.noRuntime .default).result = .ok markersGraph :=
  result_compile (by decide +kernel) (by decide +kernel)

theorem names_markers :
    markersGraph.actions.map (·.canonical.name) = ["", "sales"] := by
  decide +kernel

theorem exists_nameless_markers :
    ∃ action ∈ markersGraph.actions, action.canonical.name = "" := by
  apply List.mem_map.1
  rw [names_markers]
  exact List.mem_cons_self

theorem diagnostics_markers : markersGraph.diagnostics = [] := by
  have hadjacency : Graph.adjacency
      (Link.linked (Build.ofFindings locatedSettings markersFindings).registry
        (surroundings (contextOf markers Script.noRuntime locatedSettings))) =
      [[], []] := by decide +kernel
  rw [markersGraph, diagnostics_finish hadjacency (by cbv)]
  decide +kernel

/-- A graph without errors has an action without a name. -/
theorem exists_nameless : ∃ graph : Graph,
    (compile markers Script.noRuntime .default).result = .ok graph ∧
      graph.diagnostics = [] ∧
      ∃ action ∈ graph.actions, action.canonical.name = "" :=
  ⟨markersGraph, result_markers, diagnostics_markers, exists_nameless_markers⟩

theorem nameless_markers :
    (compile markers Script.noRuntime .default).result = .ok markersGraph ∧
      ∃ c : Compilation markers Script.noRuntime .default markersGraph,
        ∃ action ∈ markersGraph.actions, ∃ d, c.HasAction d action ∧
          d.config.name = none ∧ Nameless d.fileName := by
  obtain ⟨c, hiff, -⟩ := nameless_iff result_markers
  obtain ⟨action, haction, hempty⟩ := exists_nameless_markers
  obtain ⟨d, hd, hnone, hnameless, -⟩ := (hiff action haction).1 hempty
  exact ⟨result_markers, c, action, haction, d, hd, hnone, hnameless⟩

end Compile

end SqlWorkflow
