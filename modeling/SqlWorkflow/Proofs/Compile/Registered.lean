import SqlWorkflow.Proofs.Compile.Readings
import SqlWorkflow.Proofs.Graph.Order

/-!
# What a compilation registers

A compilation that ends with a graph has read all files without a fatal error.
Every definition that they yield is registered, with the assertions for its data
checks after it, and the graph holds at the same place what linking makes of it.
The diagnostics about what was read are in the graph.
-/

namespace SqlWorkflow

/-- Assertions for data checks are registered with nothing left to be done for
them. -/
theorem Registry.entries_synthesize (r : Registry) (settings : Settings.Pair)
    (warehouse : Warehouse) (parent : Action) (parentDatabase : Option String)
    (checks : Action.Checks) :
    (r.synthesize settings warehouse parent parentDatabase checks).entries =
      r.entries ++
        (assertionsFor settings warehouse parent parentDatabase checks).map
          (⟨·, .nothing⟩) :=
  (gains_synthesize r settings warehouse parent parentDatabase checks).entries

namespace Compile

namespace Definition

/-- The entry of the action that a definition defines. -/
def entry (settings : Settings.Pair) (d : Definition) : Registry.Entry :=
  ⟨d.action settings, d.pending⟩

/-- The assertions for the data checks of a definition. -/
def assertions (settings : Settings.Pair) (d : Definition) : List Action :=
  Registry.assertionsFor settings settings.active.warehouse
    (d.action settings) d.config.database d.config.checks

/-- What a definition adds to the registry: its action, then the assertions for
its data checks. -/
def entries (settings : Settings.Pair) (d : Definition) : List Registry.Entry :=
  d.entry settings :: (d.assertions settings).map (⟨·, .nothing⟩)

end Definition

def definitions (findings : List Finding) : List Definition :=
  findings.filterMap Finding.definition?

theorem mem_definitions {findings : List Finding} {d : Definition} :
    d ∈ definitions findings ↔ .definition d ∈ findings := by
  rw [definitions, List.mem_filterMap]
  constructor
  · rintro ⟨finding, hmem, heq⟩
    cases finding with
    | diagnostic => cases heq
    | definition => cases heq; exact hmem
  · intro hmem
    exact ⟨_, hmem, rfl⟩

/-- The diagnostics that a finding adds to the log. -/
def Finding.diagnostics (settings : Settings.Pair) : Finding → List Diagnostic
  | .diagnostic d => [d]
  | .definition d =>
    semicolonDiagnostics (d.action settings) d.pending.templates

namespace Build

theorem entries_define (settings : Settings.Pair) (build : Build)
    (d : Definition) :
    (build.define settings d).registry.entries =
      build.registry.entries ++ d.entries settings := by
  rw [define, Registry.entries_synthesize]
  exact List.append_assoc build.registry.entries [d.entry settings] _

/-- The registry holds what the definitions add, in the order in which they are
read. -/
theorem entries_ofFindings (settings : Settings.Pair)
    (findings : List Finding) :
    (ofFindings settings findings).registry.entries =
      (definitions findings).flatMap (Definition.entries settings) := by
  induction findings using List.reverseRecOn with
  | nil => rfl
  | append_singleton findings finding ih =>
    rw [ofFindings_concat, definitions, List.filterMap_append,
      List.flatMap_append, ← definitions, ← ih]
    cases finding with
    | diagnostic d => exact (List.append_nil _).symm
    | definition d =>
      rw [add, entries_define]
      exact congrArg _ (List.append_nil _).symm

/-- The log of the first phase holds what the findings add to it. -/
theorem mem_diagnostics_ofFindings {settings : Settings.Pair}
    {findings : List Finding} {e : Diagnostic} :
    e ∈ (ofFindings settings findings).diagnostics ↔
      ∃ finding ∈ findings, e ∈ finding.diagnostics settings := by
  induction findings using List.reverseRecOn with
  | nil => simp [ofFindings, empty]
  | append_singleton findings finding ih =>
    have hstep : e ∈ (ofFindings settings (findings ++ [finding])).diagnostics ↔
        e ∈ (ofFindings settings findings).diagnostics ∨
          e ∈ finding.diagnostics settings := by
      rw [ofFindings_concat]
      cases finding with
      | diagnostic d =>
        exact Diagnostics.mem_record.trans
          (or_congr_right List.mem_singleton.symm)
      | definition d => exact Diagnostics.mem_recordAll
    rw [hstep, ih]
    simp only [List.mem_append, List.mem_singleton, or_and_right, exists_or,
      exists_eq_left]

end Build

/-- What several items yield together is what each of them yields, in order. -/
theorem eq_of_collect_eq_ok {α : Type}
    {read : α → Except CompileError (List Finding)} {as : List α}
    {findings : List Finding} (h : collect read as = .ok findings) :
    (∀ a ∈ as, read a = .ok ((read a).toOption.getD [])) ∧
      findings = as.flatMap fun a => (read a).toOption.getD [] := by
  induction as generalizing findings with
  | nil =>
    cases h
    exact ⟨nofun, rfl⟩
  | cons first rest ih =>
    rw [collect] at h
    split at h
    · cases h
    · rename_i own hown
      have hfirst : (read first).toOption.getD [] = own := by rw [hown]; rfl
      obtain ⟨others, hrest, rfl⟩ := Text.exists_of_map_eq_ok h
      obtain ⟨hall, rfl⟩ := ih hrest
      rw [List.flatMap_cons, hfirst]
      exact ⟨List.forall_mem_cons.2 ⟨by rw [hfirst, hown], hall⟩, rfl⟩

/-- What one of several items yields is among what they yield together. -/
theorem exists_of_collect_eq_ok {α : Type}
    {read : α → Except CompileError (List Finding)} {as : List α}
    {findings : List Finding} (h : collect read as = .ok findings) {a : α}
    (ha : a ∈ as) : ∃ own, read a = .ok own ∧ own ⊆ findings := by
  obtain ⟨hall, rfl⟩ := eq_of_collect_eq_ok h
  exact ⟨_, hall a ha, fun _ hfinding => List.mem_flatMap.2 ⟨a, ha, hfinding⟩⟩

/-- All that several items yield together is yielded by one of them. -/
theorem exists_of_mem_collect {α : Type}
    {read : α → Except CompileError (List Finding)} {as : List α}
    {findings : List Finding} (h : collect read as = .ok findings)
    {finding : Finding} (hmem : finding ∈ findings) :
    ∃ a ∈ as, ∃ own, read a = .ok own ∧ finding ∈ own := by
  obtain ⟨hall, rfl⟩ := eq_of_collect_eq_ok h
  obtain ⟨a, ha, hfinding⟩ := List.mem_flatMap.1 hmem
  exact ⟨a, ha, _, hall a ha, hfinding⟩

theorem eq_ok_of_toOption {ε α : Type} {e : Except ε α} {a : α}
    (h : e.toOption = some a) : e = .ok a := by
  cases e with
  | error => cases h
  | ok => exact congrArg Except.ok (Option.some.inj h)

/-- A compilation ends with a graph if the settings can be loaded and all files
can be read. -/
theorem result_compile {files : Project.Files} {evaluator : Script.Evaluator}
    {options : Options} {settings : Settings.Pair}
    (hloaded : (Settings.load files options.override options.version).toOption =
      some settings)
    (hread : (readFiles (contextOf files evaluator
      settings)).findings.toOption.isSome = true) :
    (compile files evaluator options).result =
      .ok (finish (contextOf files evaluator settings) options.version
        (Build.ofFindings settings ((readFiles (contextOf files evaluator
          settings)).findings.toOption.getD []))).1 := by
  obtain ⟨findings, hfindings⟩ := Option.isSome_iff_exists.1 hread
  apply compile_eq_ok_iff.2
  refine ⟨settings, findings, eq_ok_of_toOption hloaded,
    eq_ok_of_toOption hfindings, ?_⟩
  rw [hfindings, Option.getD_some]

/-- The settings of a project that only says where its data lies. -/
def locatedSettings : Settings.Pair :=
  ⟨{ Settings.Config.empty with defaultLocation := some "EU" },
    { Settings.Config.empty with defaultLocation := some "EU" }⟩

/-- Where no cycle is found, the diagnostics of a graph are those about the
files and the links, about duplicates and about the settings. -/
theorem diagnostics_finish {context : Context} {build : Build}
    {adjacency : List (List Nat)} (hadjacency : Graph.adjacency
      (Link.linked build.registry (surroundings context)) = adjacency)
    (hcycles : Graph.cycles adjacency = []) (version : String) :
    (finish context version build).1.diagnostics =
      (linkDiagnostics (Link.outcomes build.registry (surroundings context))
        build.diagnostics).recordAll (Graph.duplicateDiagnostics
          (Link.linked build.registry (surroundings context)) ++
          Graph.settingsDiagnostics context.config) := by
  have hnone : Graph.cycleDiagnostics
      (Link.linked build.registry (surroundings context)) = [] := by
    rw [Graph.cycleDiagnostics, hadjacency, hcycles, List.filterMap_nil]
  change Diagnostics.recordAll _ (_ ++ (Graph.cycleDiagnostics
    (Link.linked build.registry (surroundings context)) ++ _)) = _
  rw [hnone]
  rfl

/-- A compilation that ends with a graph, with the settings that it loads and
the findings that it reads on the way. -/
structure Compilation (files : Project.Files) (evaluator : Script.Evaluator)
    (options : Options) (graph : Graph) where
  settings : Settings.Pair
  findings : List Finding
  loaded : Settings.load files options.override options.version = .ok settings
  read : (readFiles (contextOf files evaluator settings)).findings =
    .ok findings
  finished : graph = (finish (contextOf files evaluator settings)
    options.version (Build.ofFindings settings findings)).1

section

variable {files : Project.Files} {evaluator : Script.Evaluator}
  {options : Options} {graph : Graph}

theorem exists_compilation
    (h : (compile files evaluator options).result = .ok graph) :
    Nonempty (Compilation files evaluator options graph) := by
  obtain ⟨settings, findings, hloaded, hread, hfinished⟩ :=
    compile_eq_ok_iff.1 h
  exact ⟨⟨settings, findings, hloaded, hread, hfinished⟩⟩

namespace Compilation

variable (c : Compilation files evaluator options graph)

theorem settings_eq {settings : Settings.Pair}
    (hloaded : (Settings.load files options.override options.version).toOption =
      some settings) : c.settings = settings :=
  Except.ok.inj (c.loaded.symm.trans (eq_ok_of_toOption hloaded))

theorem findings_eq {settings : Settings.Pair}
    (hloaded : (Settings.load files options.override options.version).toOption =
      some settings) :
    c.findings =
      (readFiles (contextOf files evaluator settings)).findings.toOption.getD
        [] := by
  rw [← c.settings_eq hloaded, c.read]
  rfl

def context : Context := contextOf files evaluator c.settings

def build : Build := Build.ofFindings c.settings c.findings

def registry : Registry := c.build.registry

/-- What linking makes of an entry of the registry. -/
def outcome (entry : Registry.Entry) : Link.Outcome :=
  Link.linkEntry c.registry (surroundings c.context) entry

/-- The findings of a file, none if it cannot be read. -/
def findingsOf (file : String × String) : List Finding :=
  (readFile c.context file).findings.toOption.getD []

/-- The graph has an action for a definition: the definition is read, and the
action stands at the place at which the definition is registered after all that
is read before it. -/
def HasAction (d : Definition) (action : Action) : Prop :=
  ∃ before after, c.findings = before ++ .definition d :: after ∧
    graph.actions[(Build.ofFindings c.settings before).registry.size]? =
      some action

theorem reachable_registry : Registry.Reachable c.registry :=
  Build.reachable_ofFindings c.settings c.findings

theorem entries_registry :
    c.registry.entries =
      (definitions c.findings).flatMap (Definition.entries c.settings) :=
  Build.entries_ofFindings c.settings c.findings

theorem actions_graph :
    graph.actions = c.registry.entries.map fun entry =>
      (c.outcome entry).action := by
  have hlinked := Link.actions_linked c.registry (surroundings c.context)
  rw [Link.outcomes, List.map_map] at hlinked
  exact (congrArg Graph.actions c.finished).trans hlinked

/-- Linking leaves an action in its variant. -/
theorem variant_outcome (entry : Registry.Entry) :
    (c.outcome entry).action.variant = entry.action.variant :=
  Link.variant_applyTo _ _

theorem parent?_outcome (entry : Registry.Entry) :
    (c.outcome entry).action.parent? = entry.action.parent? :=
  congrArg (·.2.2)
    (Link.keysOf_linkEntry c.registry (surroundings c.context) entry)

theorem mem_diagnostics_of_finding {finding : Finding}
    (hfinding : finding ∈ c.findings) {e : Diagnostic}
    (he : e ∈ finding.diagnostics c.settings) : e ∈ graph.diagnostics := by
  have hbuild : e ∈ c.build.diagnostics :=
    Build.mem_diagnostics_ofFindings.2 ⟨finding, hfinding, he⟩
  rw [c.finished]
  exact Diagnostics.mem_recordAll.2
    (.inl (Diagnostics.mem_recordAll.2 (.inl hbuild)))

theorem collect_eq :
    collect (fun file => (readFile c.context file).findings) files =
      .ok c.findings :=
  (findings_all (readFile c.context) files).symm.trans c.read

/-- The findings of a project are those of its files, in order. -/
theorem findings_eq_flatMap : c.findings = files.flatMap c.findingsOf :=
  (eq_of_collect_eq_ok c.collect_eq).2

/-- Every file was read, and all that it yields is among what the files yield
together. -/
theorem readFile_eq {file : String × String} (hfile : file ∈ files) :
    (readFile c.context file).findings = .ok (c.findingsOf file) ∧
      c.findingsOf file ⊆ c.findings := by
  refine ⟨(eq_of_collect_eq_ok c.collect_eq).1 file hfile, ?_⟩
  rw [findings_eq_flatMap]
  exact fun _ hfinding => List.mem_flatMap.2 ⟨file, hfile, hfinding⟩

variable {c} {d : Definition} {action : Action}

/-- A definition among others is registered at the place which the number of
actions before it gives. -/
theorem entries_getElem? {before after : List Finding}
    (h : c.findings = before ++ .definition d :: after) :
    c.registry.entries[(Build.ofFindings c.settings before).registry.size]? =
      some (d.entry c.settings) := by
  have hsplit : c.registry.entries =
      (Build.ofFindings c.settings before).registry.entries ++
        (d.entry c.settings :: ((d.assertions c.settings).map (⟨·, .nothing⟩) ++
          (definitions after).flatMap (Definition.entries c.settings))) := by
    rw [c.entries_registry, h, Build.entries_ofFindings, definitions,
      List.filterMap_append, List.flatMap_append]
    rfl
  rw [hsplit, Registry.size, List.getElem?_append_right (Nat.le_refl _),
    Nat.sub_self]
  rfl

theorem exists_hasAction (h : .definition d ∈ c.findings) :
    ∃ action, c.HasAction d action := by
  obtain ⟨before, after, hsplit⟩ := List.append_of_mem h
  refine ⟨(c.outcome (d.entry c.settings)).action, before, after, hsplit, ?_⟩
  rw [c.actions_graph, List.getElem?_map, c.entries_getElem? hsplit]
  rfl

/-- The action for a definition is what linking makes of its entry. -/
theorem HasAction.eq_outcome (h : c.HasAction d action) :
    action = (c.outcome (d.entry c.settings)).action := by
  obtain ⟨before, after, hsplit, hplace⟩ := h
  rw [c.actions_graph, List.getElem?_map, c.entries_getElem? hsplit] at hplace
  exact (Option.some.inj hplace).symm

theorem HasAction.finding_mem (h : c.HasAction d action) :
    .definition d ∈ c.findings := by
  obtain ⟨before, after, hsplit, -⟩ := h
  rw [hsplit]
  exact List.mem_append_right before List.mem_cons_self

end Compilation

end

end Compile

end SqlWorkflow
