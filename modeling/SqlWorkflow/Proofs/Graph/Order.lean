import SqlWorkflow.Proofs.Graph.Search
import SqlWorkflow.Proofs.Link.Linked

/-!
# An order of execution

A graph that is reported without diagnostics can be executed: no two of its
actions share a target or a canonical target, and the actions can be put into an
order in which each comes after all that it depends on. The order is the one in
which the search for cycles leaves the actions.
-/

namespace SqlWorkflow.Graph

open Registry (Indexed)

/-- Every action comes after all actions of the list that it depends on. -/
def Executable (order : List Action) : Prop :=
  ∀ before action after, order = before ++ action :: after →
    ∀ other ∈ order, other.target ∈ action.dependencies → other ∈ before

/-- In a list without repetitions, what comes before a member stands in front of
it. -/
theorem mem_of_pair_sublist {α : Type} {before after : List α} {a b : α}
    (hnodup : (before ++ a :: after).Nodup)
    (h : [b, a].Sublist (before ++ a :: after)) : b ∈ before := by
  induction before with
  | nil =>
    have hnotin : a ∉ after := (List.nodup_cons.1 hnodup).1
    rcases List.sublist_cons_iff.1 h with hafter | ⟨rest, heq, hrest⟩
    · exact absurd (hafter.subset (by simp)) hnotin
    · cases heq
      exact absurd (hrest.subset (by simp)) hnotin
  | cons first before ih =>
    rcases List.sublist_cons_iff.1 h with hlater | ⟨rest, heq, _⟩
    · exact List.mem_cons_of_mem _ (ih (List.nodup_cons.1 hnodup).2 hlater)
    · cases heq
      exact List.mem_cons_self

theorem filterMap_getElem?_range {α : Type} (as : List α) :
    (List.range as.length).filterMap (fun place => as[place]?) = as := by
  induction as with
  | nil => rfl
  | cons a as ih =>
    rw [List.length_cons, List.range_succ_eq_map, List.filterMap_cons,
      List.filterMap_map]
    simpa [Function.comp_def] using ih

section

variable {r : Registry}

theorem length_adjacency (r : Registry) :
    (adjacency r).length = r.actions.length :=
  List.length_map _

theorem lt_of_mem_adjacency (h : Indexed r) {targets : List Nat}
    (htargets : targets ∈ adjacency r) {place : Nat}
    (hplace : place ∈ targets) : place < (adjacency r).length := by
  obtain ⟨action, -, rfl⟩ := List.mem_map.1 htargets
  obtain ⟨target, -, htarget⟩ := List.mem_filterMap.1 hplace
  obtain ⟨other, hother, -⟩ := h.target_of_placeOf? htarget
  rw [length_adjacency]
  exact (List.getElem?_eq_some_iff.1 hother).1

/-- If targets are distinct, an action that depends on another has an edge to
it. -/
theorem mem_adjacency (h : Indexed r)
    (hdistinct : (r.actions.map (·.target)).Nodup) {action other : Action}
    {place : Nat} (hplace : r.actions[place]? = some action)
    (hother : other ∈ r.actions)
    (hdepends : other.target ∈ action.dependencies) :
    ∃ (hlt : place < (adjacency r).length) (goal : Nat),
      goal ∈ (adjacency r)[place] ∧ r.actions[goal]? = some other := by
  obtain ⟨hlt, hget⟩ := List.getElem?_eq_some_iff.1 hplace
  obtain ⟨goal, hgoal⟩ := h.exists_placeOf? hother
  obtain ⟨found, hfound, htarget⟩ := h.target_of_placeOf? hgoal
  have hsame : found = other :=
    List.inj_on_of_nodup_map hdistinct (List.mem_of_getElem? hfound)
      hother htarget
  have hedge : goal ∈ action.dependencies.filterMap r.placeOf? :=
    List.mem_filterMap.2 ⟨other.target, hdepends, hgoal⟩
  refine ⟨by rw [length_adjacency]; exact hlt, goal, ?_, hsame ▸ hfound⟩
  simpa only [adjacency, List.getElem_map, hget] using hedge

theorem cycles_eq_nil (hclean : cycleDiagnostics r = []) :
    cycles (adjacency r) = [] := by
  rw [List.eq_nil_iff_forall_not_mem]
  intro cycle hcycle
  obtain ⟨hne, hnodes⟩ := mem_of_mem_searchFrom hcycle
  obtain ⟨first, rest, rfl⟩ := List.exists_cons_of_ne_nil hne
  have hfirst : first < r.actions.length := by
    rcases hnodes first List.mem_cons_self with hpath | hfresh
    · cases hpath
    · rwa [List.mem_range, length_adjacency] at hfresh
  have hnone := List.filterMap_eq_nil_iff.1 hclean _ hcycle
  simp [cycleDiagnostic, Registry.action?_eq, hfirst] at hnone

/-- Without duplicates and cycles, the actions have an order of execution. -/
theorem exists_executable (h : Indexed r)
    (hdistinct : (r.actions.map (·.target)).Nodup)
    (hacyclic : cycles (adjacency r) = []) :
    ∃ order : List Action, order.Perm r.actions ∧ Executable order := by
  have hvalid : ∀ targets ∈ adjacency r, ∀ place ∈ targets, place <
      (adjacency r).length := by
    intro targets htargets place hplace
    exact lt_of_mem_adjacency h htargets hplace
  obtain ⟨places, hperm, hback⟩ := exists_order_of_cycles hvalid
  have hall : (List.range (adjacency r).length).filterMap
      (fun place => r.actions[place]?) =
      r.actions := by
    rw [length_adjacency]
    exact filterMap_getElem?_range r.actions
  have horder :
      (places.filterMap fun place => r.actions[place]?).Perm r.actions := by
    have hplaces := hperm.filterMap fun place => r.actions[place]?
    rwa [hall] at hplaces
  refine ⟨_, horder, ?_⟩
  intro before action after hsplit other hother hdepends
  have hnodup : (before ++ action :: after).Nodup := by
    rw [← hsplit, horder.nodup_iff]
    exact hdistinct.of_map _
  obtain ⟨place, hmem, hplace⟩ := List.mem_filterMap.1
    (hsplit ▸ List.mem_append_right before List.mem_cons_self :
      action ∈ places.filterMap fun place => r.actions[place]?)
  obtain ⟨hlt, goal, hgoal, hfound⟩ :=
    mem_adjacency h hdistinct hplace (horder.mem_iff.1 hother) hdepends
  have hedge : (place, goal) ∈
      (edgeList (adjacency r)).diff (closingEdges (cycles (adjacency r))) := by
    have htargets : goal ∈ (adjacency r)[place]?.getD [] := by
      rw [List.getElem?_eq_getElem hlt]
      exact hgoal
    rw [hacyclic]
    exact mem_edgeList.2 htargets
  have hactions :=
    (hback place goal hedge).filterMap fun place => r.actions[place]?
  simp only [List.filterMap_cons, hfound, hplace, List.filterMap_nil,
    hsplit] at hactions
  exact mem_of_pair_sublist hnodup hactions

/-- Actions about which validation finds nothing are distinct and have an order
of execution. -/
theorem executable_of_validate (h : Indexed r) {config : Settings.Config}
    (hclean : validate r config = []) :
    (r.actions.map (·.target)).Nodup ∧ (r.actions.map (·.canonical)).Nodup ∧
      ∃ order : List Action, order.Perm r.actions ∧ Executable order := by
  obtain ⟨hduplicates, hrest⟩ := List.append_eq_nil_iff.1 hclean
  obtain ⟨hcycles, -⟩ := List.append_eq_nil_iff.1 hrest
  obtain ⟨htargets, hcanonicals⟩ := List.append_eq_nil_iff.1 hduplicates
  have hdistinct := h.nodup_targets (List.map_eq_nil_iff.1 htargets)
  exact ⟨hdistinct, h.nodup_canonicals (List.map_eq_nil_iff.1 hcanonicals),
    exists_executable h hdistinct (cycles_eq_nil hcycles)⟩

end

end SqlWorkflow.Graph

namespace SqlWorkflow.Compile

open Registry (Reachable)

/-- A compilation has a graph if the settings and all files can be read. -/
theorem compile_eq_ok_iff {files : Project.Files} {evaluator : Script.Evaluator}
    {options : Options} {graph : Graph} :
    (compile files evaluator options).result = .ok graph ↔ ∃ settings findings,
      Settings.load files options.override options.version = .ok settings ∧
        (readFiles (contextOf files evaluator settings)).findings =
          .ok findings ∧
        graph = (finish (contextOf files evaluator settings) options.version
          (Build.ofFindings settings findings)).1 := by
  constructor
  · intro h
    rw [compile] at h
    split at h
    · cases h
    · rename_i settings hsettings
      simp only [withSettings] at h
      split at h
      · cases h
      · rename_i findings hfindings
        cases h
        exact ⟨settings, findings, hsettings, hfindings, rfl⟩
  · rintro ⟨settings, findings, hsettings, hfindings, rfl⟩
    simp only [compile, hsettings, withSettings, hfindings]

/-- A graph holds the linked actions of a registry, and the diagnostics of their
validation. -/
theorem exists_linked_of_compile {files : Project.Files}
    {evaluator : Script.Evaluator} {options : Options} {graph : Graph}
    (h : (compile files evaluator options).result = .ok graph) :
    ∃ (r : Registry) (context : Context), Reachable r ∧
      graph.actions = (Link.linked r (surroundings context)).actions ∧
      ∀ d ∈
        Graph.validate (Link.linked r (surroundings context)) context.config,
        d ∈ graph.diagnostics := by
  obtain ⟨settings, findings, -, -, rfl⟩ := compile_eq_ok_iff.1 h
  refine ⟨(Build.ofFindings settings findings).registry, contextOf files
    evaluator settings, Build.reachable_ofFindings settings findings, rfl, ?_⟩
  intro d hd
  exact Diagnostics.mem_recordAll.2 (Or.inr hd)

/-- A graph without diagnostics has distinct actions, which can be executed in
some order. -/
theorem executable_of_clean {files : Project.Files}
    {evaluator : Script.Evaluator} {options : Options} {graph : Graph}
    (h : (compile files evaluator options).result = .ok graph)
    (hclean : graph.diagnostics = []) :
    (graph.actions.map (·.target)).Nodup ∧
      (graph.actions.map (·.canonical)).Nodup ∧ ∃ order : List Action,
        order.Perm graph.actions ∧ Graph.Executable order := by
  obtain ⟨r, context, hreachable, hactions, hdiagnostics⟩ :=
    exists_linked_of_compile h
  rw [hactions]
  have hnothing : Graph.validate (Link.linked r (surroundings context))
      context.config = [] := by
    rw [List.eq_nil_iff_forall_not_mem]
    intro d hd
    have hreported := hdiagnostics d hd
    rw [hclean] at hreported
    cases hreported
  exact Graph.executable_of_validate
    (Link.indexed_linked hreachable.indexed _) hnothing

/-- Two tables, of which one is read by the other. -/
def ledger : Project.Files :=
  [("definitions/entries.sqlx", "SELECT 1 AS id"),
    ("definitions/totals.sqlx", "SELECT id FROM $\x7bref(\"entries\")\x7d"),
    ("workflow_settings.yaml", "")]

/-- Options that say where the data lies. -/
def located : Options :=
  { Options.default with
    override := { Settings.Override.empty with defaultLocation := some "EU" } }

def ledgerContext : Context :=
  contextOf ledger Script.noRuntime ⟨located.override.apply .empty, .empty⟩

def ledgerBuild : Build :=
  Build.ofFindings ⟨ledgerContext.config, .empty⟩
    ((readFiles ledgerContext).findings.toOption.getD [])

theorem executable_ledger : ∃ graph : Graph,
    (compile ledger Script.noRuntime located).result = .ok graph ∧
      graph.diagnostics = [] ∧
      graph.actions.map (·.dependencies.length) = [0, 1] ∧
      (graph.actions.map (·.target)).Nodup ∧
      (graph.actions.map (·.canonical)).Nodup ∧ ∃ order : List Action,
        order.Perm graph.actions ∧ Graph.Executable order := by
  have hread : ∃ findings, (readFiles ledgerContext).findings =
      .ok findings := by
    have hsome : (readFiles ledgerContext).findings.toOption.isSome := by
      decide +kernel
    cases hfindings : (readFiles ledgerContext).findings with
    | error e => rw [hfindings] at hsome; cases hsome
    | ok findings => exact ⟨findings, rfl⟩
  obtain ⟨findings, hfindings⟩ := hread
  have hresult : (compile ledger Script.noRuntime located).result =
      .ok (finish ledgerContext version ledgerBuild).1 := by
    refine compile_eq_ok_iff.2
      ⟨⟨ledgerContext.config, .empty⟩, findings, rfl, hfindings, ?_⟩
    rw [ledgerBuild, hfindings]
    rfl
  have hcycles : Graph.cycleDiagnostics
      (Link.linked ledgerBuild.registry (surroundings ledgerContext)) = [] := by
    have hadjacency : Graph.adjacency (Link.linked ledgerBuild.registry
        (surroundings ledgerContext)) = [[], [0]] := by
      decide +kernel
    have hnone : Graph.cycles [[], [0]] = [] := by cbv
    rw [Graph.cycleDiagnostics, hadjacency, hnone, List.filterMap_nil]
  have hclean :
      (finish ledgerContext version ledgerBuild).1.diagnostics = [] := by
    change Diagnostics.recordAll _ (_ ++
      (Graph.cycleDiagnostics (Link.linked ledgerBuild.registry
        (surroundings ledgerContext)) ++ _)) = []
    rw [hcycles]
    decide +kernel
  have hdependencies : (finish ledgerContext version ledgerBuild).1.actions.map
    (·.dependencies.length) = [0, 1] := by decide +kernel
  exact ⟨_, hresult, hclean, hdependencies, executable_of_clean hresult hclean⟩

end SqlWorkflow.Compile
