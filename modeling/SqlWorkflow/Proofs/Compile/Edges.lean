import SqlWorkflow.Proofs.Compile.Registered
import SqlWorkflow.Proofs.Graph.Lists
import SqlWorkflow.Proofs.Link.Dependencies

/-!
# Edges lead to actions

An action may be given dependencies in four ways: with its registration, by the
config, by the calls in its SQL, and as the assertions of what it depends on.
None of them makes up a target: all that a reference, a call or a parent leads
to is the target of a registered action. So whatever is wrong with a project,
every edge of its graph ends at an action of the graph.
-/

namespace SqlWorkflow

namespace Registry

def targets (r : Registry) : List Target := r.actions.map (·.target)

/-- Registered actions depend on registered targets only, and those that were
made for a parent depend on the parent alone, with nothing left to be added. -/
structure Anchored (r : Registry) : Prop where
  dependencies : ∀ entry ∈ r.entries, entry.action.dependencies ⊆ r.targets
  parent : ∀ entry ∈ r.entries, ∀ parent, entry.action.parent? = some parent →
    entry.action.dependencies = [parent] ∧ entry.pending = .nothing

theorem anchored_empty : Anchored .empty where
  dependencies _ h := nomatch h
  parent _ h := nomatch h

end Registry

namespace Link

theorem target_mem_of_site? {r : Registry} {reference : Reference} {site : Site}
    (h : site? r reference = some site) : site.target ∈ r.targets := by
  obtain ⟨target, htarget, rfl⟩ := Option.map_eq_some_iff.1 h
  rw [Registry.target?] at htarget
  split at htarget
  · obtain ⟨action, haction, rfl⟩ := Option.map_eq_some_iff.1 htarget
    rw [Registry.action?_eq] at haction
    exact List.mem_map.2 ⟨action, List.mem_of_getElem? haction, rfl⟩
  · cases htarget
  · cases htarget

theorem includedWith_subset (r : Registry) (surroundings : Surroundings)
    (entry : Registry.Entry) (parent : Target) :
    includedWith r surroundings entry parent ⊆ r.targets := by
  intro target htarget
  rw [includedWith] at htarget
  split at htarget
  · obtain ⟨action, haction, rfl⟩ :=
      List.mem_map.1 (List.mem_of_mem_filter htarget)
    exact List.mem_map.2 ⟨action, List.mem_of_mem_filter haction, rfl⟩
  · cases htarget

/-- Linking leads from an action to registered targets, besides those that it
depended on before. -/
theorem mem_targets_of_mem_dependenciesOf {r : Registry}
    {surroundings : Surroundings} {entry : Registry.Entry} {target : Target}
    (h : target ∈ dependenciesOf r surroundings entry) :
    target ∈ entry.action.dependencies ∨ target ∈ r.targets := by
  rw [dependenciesOf, List.mem_eraseDups, List.mem_append, List.mem_append] at h
  rcases h with (hbefore | hsite) | hincluded
  · exact Or.inl hbefore
  · obtain ⟨site, hfound, rfl⟩ := List.mem_map.1 hsite
    obtain ⟨reference, -, hreference⟩ := List.mem_filterMap.1 hfound
    exact Or.inr (target_mem_of_site? hreference)
  · obtain ⟨parent, -, hparent⟩ := List.mem_flatMap.1 hincluded
    exact Or.inr (includedWith_subset r surroundings entry parent hparent)

/-- An action for which nothing is left to be done keeps its dependencies. -/
theorem dependenciesOf_nothing (r : Registry) (surroundings : Surroundings)
    {entry : Registry.Entry} (h : entry.pending = .nothing) :
    dependenciesOf r surroundings entry =
      entry.action.dependencies.eraseDups := by
  have hsites : sitesOf r surroundings entry = [] := by
    rw [sitesOf, callsOf, h]
    rfl
  rw [dependenciesOf, hsites]
  simp

/-- All edges of a linked action of an anchored registry lead to registered
actions. -/
theorem edges_linkEntry {r : Registry} (hindexed : Registry.Indexed r)
    (h : r.Anchored) (surroundings : Surroundings) {entry : Registry.Entry}
    (hentry : entry ∈ r.entries) :
    (linkEntry r surroundings entry).action.dependencies ⊆ r.targets ∧
      (linkEntry r surroundings entry).action.dependencies.Nodup ∧
      ∀ parent, (linkEntry r surroundings entry).action.parent? = some parent →
        (linkEntry r surroundings entry).action.dependencies = [parent] := by
  rw [dependencies_linkEntry hindexed]
  refine ⟨?_, ?_, ?_⟩
  · intro target htarget
    rcases mem_targets_of_mem_dependenciesOf htarget with hbefore | hregistered
    · exact h.dependencies entry hentry hbefore
    · exact hregistered
  · rw [dependenciesOf, ← Target.distinct_eq_eraseDups]
    exact Target.nodup_distinct _
  · intro parent hparent
    have hkeys := congrArg (·.2.2) (keysOf_linkEntry r surroundings entry)
    obtain ⟨hdependencies, hpending⟩ :=
      h.parent entry hentry parent (hkeys.symm.trans hparent)
    rw [dependenciesOf_nothing r surroundings hpending, hdependencies]
    rfl

end Link

namespace Compile

/-- An action that is defined in a project is made for no parent. -/
theorem Definition.parent?_action (d : Definition) (settings : Settings.Pair) :
    (d.action settings).parent? = none := by
  obtain ⟨fileName, config, defaultName, content⟩ := d
  cases hdetails : config.details <;> cases content <;>
    simp [Definition.action, Action.parent?, bodyOf, hdetails]

/-- What a definition adds depends on nothing yet, but for the assertions, which
depend on its action. -/
theorem Definition.mem_entries {settings : Settings.Pair} {d : Definition}
    {entry : Registry.Entry} (h : entry ∈ d.entries settings) :
    entry = d.entry settings ∨
      entry.action.parent? = some (d.action settings).target ∧
        entry.action.dependencies = [(d.action settings).target] ∧
        entry.pending = .nothing := by
  rcases List.mem_cons.1 h with rfl | hassertion
  · exact Or.inl rfl
  · obtain ⟨assertion, hmem, rfl⟩ := List.mem_map.1 hassertion
    obtain ⟨check, -, rfl⟩ := List.mem_map.1 hmem
    exact Or.inr ⟨rfl, rfl, rfl⟩

theorem Build.targets_define (settings : Settings.Pair) (build : Build)
    (d : Definition) :
    (build.define settings d).registry.targets =
      build.registry.targets ++ (d.entries settings).map (·.action.target) := by
  simp only [Registry.targets, Registry.actions, entries_define,
    List.map_append, List.map_map, Function.comp_def]

/-- Taking in a definition keeps a registry anchored. -/
theorem Build.anchored_define {build : Build} (h : build.registry.Anchored)
    (settings : Settings.Pair)
    (d : Definition) : (build.define settings d).registry.Anchored where
  dependencies entry hentry := by
    rw [entries_define] at hentry
    rw [targets_define]
    rcases List.mem_append.1 hentry with hold | hnew
    · exact List.Subset.trans (h.dependencies entry hold)
        (List.subset_append_left _ _)
    · rcases Definition.mem_entries hnew with rfl | ⟨-, hdependencies, -⟩
      · exact List.nil_subset _
      · rw [hdependencies, List.cons_subset]
        exact ⟨List.mem_append_right _ List.mem_cons_self, List.nil_subset _⟩
  parent entry hentry parent hparent := by
    rw [entries_define] at hentry
    rcases List.mem_append.1 hentry with hold | hnew
    · exact h.parent entry hold parent hparent
    · rcases Definition.mem_entries hnew with
        rfl | ⟨hmade, hdependencies, hpending⟩
      · cases (d.parent?_action settings).symm.trans hparent
      · rw [hmade] at hparent
        cases hparent
        exact ⟨hdependencies, hpending⟩

/-- The first phase of a compilation builds an anchored registry. -/
theorem Build.anchored_ofFindings (settings : Settings.Pair)
    (findings : List Finding) :
    (Build.ofFindings settings findings).registry.Anchored := by
  induction findings using List.reverseRecOn with
  | nil => exact Registry.anchored_empty
  | append_singleton findings finding ih =>
    rw [ofFindings_concat]
    cases finding with
    | diagnostic d => exact ih
    | definition d => exact anchored_define ih settings d

theorem Compilation.targets_registry {files : Project.Files}
    {evaluator : Script.Evaluator} {options : Options} {graph : Graph}
    (c : Compilation files evaluator options graph) :
    graph.actions.map (·.target) = c.registry.targets := by
  rw [c.actions_graph, Registry.targets, Registry.actions, List.map_map,
    List.map_map]
  rfl

/-- No edge of a graph leads nowhere, whatever is wrong with the project: the
dependencies of every action are targets of the graph, none of them twice, and
an assertion that was made for a parent depends on the parent alone. The targets
of the graph are those of its actions, each once. -/
theorem edges_compile {files : Project.Files} {evaluator : Script.Evaluator}
    {options : Options} {graph : Graph}
    (h : (compile files evaluator options).result = .ok graph) :
    (∀ action ∈ graph.actions, action.dependencies ⊆ graph.targets ∧
      action.dependencies.Nodup ∧ ∀ parent, action.parent? = some parent →
        parent ∈ graph.targets ∧ action.dependencies = [parent]) ∧
      ∀ target, graph.targets.count target =
        if ∃ action ∈ graph.actions, action.target = target then 1 else 0 := by
  obtain ⟨c⟩ := exists_compilation h
  have hmem (target : Target) : target ∈ graph.targets ↔
      target ∈ c.registry.targets := by
    rw [Graph.targets_eq_distinct, Target.mem_distinct, c.targets_registry]
  constructor
  · intro action haction
    rw [c.actions_graph] at haction
    obtain ⟨entry, hentry, rfl⟩ := List.mem_map.1 haction
    obtain ⟨hsubset, hnodup, hparent⟩ :=
      Link.edges_linkEntry c.reachable_registry.indexed
        (Build.anchored_ofFindings c.settings c.findings)
        (surroundings c.context) hentry
    have htargets : (c.outcome entry).action.dependencies ⊆ graph.targets := by
      intro target htarget
      exact (hmem target).2 (hsubset htarget)
    refine ⟨htargets, hnodup, ?_⟩
    intro parent hmade
    have hdependencies : (c.outcome entry).action.dependencies = [parent] :=
      hparent parent hmade
    refine ⟨htargets ?_, hdependencies⟩
    rw [hdependencies]
    exact List.mem_singleton_self parent
  · intro target
    rw [Graph.targets_eq_distinct, (Target.nodup_distinct _).count]
    simp only [Target.mem_distinct, List.mem_map]

/-- Orders with a key that is checked, and a report that asks for their checks
and for two actions that there are not. -/
def orphanedReport : Project.Files :=
  [("definitions/orders.sqlx",
    "config \x7b assertions: \x7b uniqueKey: [\"id\"] \x7d \x7d SELECT 1 AS id"),
    ("definitions/report.sqlx",
      "config \x7b dependencies: [\"returns\"], dependOnDependencyAssertions: true \x7d\n" ++
        "SELECT * FROM $\x7bref(\"orders\")\x7d JOIN $\x7bref(\"users\")\x7d"),
    ("workflow_settings.yaml", "")]

theorem edges_orphanedReport : ∃ graph : Graph,
    (compile orphanedReport Script.noRuntime .default).result = .ok graph ∧
      graph.actions.map (fun action => action.dependencies.map (·.name)) =
        [[], ["orders"], ["orders", "orders_assertions_uniqueKey_0"]] ∧
      (∀ action ∈ graph.actions, action.dependencies ⊆ graph.targets ∧
        action.dependencies.Nodup) ∧
      ∀ target ∈ graph.actions.map (·.target),
        graph.targets.count target = 1 := by
  have hnames :
      (compile orphanedReport Script.noRuntime .default).result.toOption.map
        (·.actions.map fun action => action.dependencies.map (·.name)) =
        some [[], ["orders"], ["orders", "orders_assertions_uniqueKey_0"]] := by
    decide +kernel
  cases hresult : (compile orphanedReport Script.noRuntime .default).result with
  | error e =>
    rw [hresult] at hnames
    cases hnames
  | ok graph =>
    rw [hresult] at hnames
    obtain ⟨hedges, hcount⟩ := edges_compile hresult
    refine ⟨graph, rfl, Option.some.inj hnames, fun action haction => ?_,
      fun target htarget => ?_⟩
    · exact ⟨(hedges action haction).1, (hedges action haction).2.1⟩
    · rw [hcount target, if_pos (List.mem_map.1 htarget)]

end Compile

end SqlWorkflow
