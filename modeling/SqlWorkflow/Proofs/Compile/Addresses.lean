import SqlWorkflow.Proofs.Compile.Edges
import SqlWorkflow.Proofs.Link.Evaluated
import SqlWorkflow.Proofs.Link.Written
import SqlWorkflow.Proofs.Warehouse.Address

/-!
# Addresses of actions

In SQL an action stands as the address of its target, which `ref`, `resolve` and
`self` give. Without errors the targets of all actions are different, but their
addresses need not be: they are put together from the parts of the targets, and
what is equal when it is put together is told by the parts.
-/

namespace SqlWorkflow

namespace Link

theorem Scope.eval_call {scope : Scope} {callee : Expr} {arguments : List Expr}
    {call : Call} (h : call? callee arguments = some call)
    (expand : String → Rendered String) :
    scope.eval expand (.call callee arguments) =
      scope.resolve call.reference call.depends := by
  rw [call?] at h
  split at h
  · rename_i hcallee
    obtain ⟨reference, hreference, rfl⟩ := Option.map_eq_some_iff.1 h
    rw [eval, hcallee]
    dsimp only
    rw [resolveArguments, hreference]
  · rename_i hcallee
    obtain ⟨reference, hreference, rfl⟩ := Option.map_eq_some_iff.1 h
    rw [eval, hcallee]
    dsimp only
    rw [resolveArguments, hreference]
  · cases h

/-- A call stands for the address of the action at a place: `self` in the scope
of this action, or `ref` and `resolve` of a reference that finds it. -/
inductive Scope.Addresses (scope : Scope) (place : Nat) : Expr → Prop
  | own {callee : Expr} {arguments : List Expr}
      (hcallee : Builtin.of? callee = some .self)
      (hplace : scope.registry.targets[place]? = some scope.selfTarget) :
      Addresses scope place (.call callee arguments)
  | found {callee : Expr} {arguments : List Expr} {call : Call}
      {target : Target} (hcall : call? callee arguments = some call)
      (hfind : scope.registry.find call.reference = .found place target) :
      Addresses scope place (.call callee arguments)

/-- The value of such a call is the address of the target that is registered at
the place. -/
theorem Scope.Addresses.value_eq {scope : Scope} {place : Nat} {e : Expr}
    (h : scope.Addresses place e) (hindexed : scope.registry.Indexed) :
    ∃ target, scope.registry.targets[place]? = some target ∧
      (scope.eval scope.inner e).value = scope.address target := by
  cases h with
  | own hcallee hplace =>
    refine ⟨_, hplace, ?_⟩
    rw [eval, hcallee]
    rfl
  | @found callee arguments call target hcall hfind =>
    obtain ⟨⟨action, hplace, -, rfl⟩, -⟩ :=
      ((hindexed.findExact call.reference).found_iff _ _).1 hfind
    refine ⟨action.target, ?_, ?_⟩
    · rw [Registry.targets, List.getElem?_map, hplace]
      rfl
    · rw [eval_call hcall, resolve, hfind]

end Link

namespace Compile

open Link (Scope)

variable {files : Project.Files} {evaluator : Script.Evaluator}
  {options : Options} {graph : Graph}

/-- The targets of a graph without errors are all different. -/
theorem nodup_targets_of_clean
    (h : (compile files evaluator options).result = .ok graph)
    (hclean : graph.diagnostics = []) :
    (graph.actions.map (·.target)).Nodup := by
  obtain ⟨r, context, hreachable, hactions, hdiagnostics⟩ :=
    exists_linked_of_compile h
  have hnothing : Graph.validate (Link.linked r (surroundings context))
      context.config = [] := by
    rw [List.eq_nil_iff_forall_not_mem]
    intro d hd
    have hreported := hdiagnostics d hd
    rw [hclean] at hreported
    cases hreported
  rw [hactions]
  exact (Graph.executable_of_validate (Link.indexed_linked hreachable.indexed _)
    hnothing).1

/-- In a graph without errors calls are rendered to the addresses of the actions
that they stand for, and the actions have different targets. What two of them
have to be like to share an address is told by their parts. -/
theorem addresses_compile
    (h : (compile files evaluator options).result = .ok graph)
    (hclean : graph.diagnostics = []) :
    ∃ c : Compilation files evaluator options graph,
      (∀ (scope : Scope) (place : Nat) (e : Expr), scope.registry = c.registry →
        scope.surroundings = surroundings c.context → scope.Addresses place e →
        ∃ action, graph.actions[place]? = some action ∧
          (scope.eval scope.inner e).value =
            .string (graph.config.warehouse.quoteTarget action.target)) ∧
        ∀ (place other : Nat) (action otherAction : Action),
          graph.actions[place]? = some action →
            graph.actions[other]? = some otherAction → place ≠ other →
            action.target ≠ otherAction.target ∧
              graph.config.warehouse.ToldBy action.target
                otherAction.target := by
  obtain ⟨c⟩ := exists_compilation h
  refine ⟨c, ?_, ?_⟩
  · intro scope place e hregistry hsurroundings haddresses
    have hindexed : scope.registry.Indexed := by
      rw [hregistry]
      exact c.reachable_registry.indexed
    obtain ⟨target, hplace, hvalue⟩ := haddresses.value_eq hindexed
    rw [hregistry, ← c.targets_registry, List.getElem?_map] at hplace
    obtain ⟨action, haction, rfl⟩ := Option.map_eq_some_iff.1 hplace
    have hconfig : graph.config = scope.surroundings.config := by
      rw [hsurroundings]
      exact congrArg Graph.config c.finished
    exact ⟨action, haction, by rw [hvalue, hconfig]; rfl⟩
  · intro place other action otherAction haction hother hplaces
    have hne : action.target ≠ otherAction.target := by
      intro heq
      apply hplaces
      have hlt : place < (graph.actions.map (·.target)).length := by
        rw [List.length_map]
        exact (List.getElem?_eq_some_iff.1 haction).1
      apply (List.getElem?_inj hlt (nodup_targets_of_clean h hclean)).1
      rw [List.getElem?_map, List.getElem?_map, haction, hother]
      exact congrArg some heq
    exact ⟨hne, Warehouse.toldBy_of_ne _ hne⟩

/-- A script that declares the orders of two shops, and a report on them. -/
def shops : Project.Files :=
  [("definitions/orders.js", "x"),
    ("definitions/report.sqlx",
      "SELECT * FROM $\x7bref(\"shop\", \"eu.orders\")\x7d, $\x7bref(\"shop.eu\", \"orders\")\x7d"),
    ("workflow_settings.yaml", "defaultLocation: EU\n")]

def declared (schema name : String) : Json :=
  .object [("action", .string "declare"),
    ("config", .object [("schema", .string schema), ("name", .string name)])]

/-- The orders are in two schemas. The dot that one of them has in its name the
other has in its schema. -/
def shopsRuntime : Script.Evaluator := fun _ =>
  .ok (.array [declared "shop" "eu.orders", declared "shop.eu" "orders"])

def shopsContext : Context := contextOf shops shopsRuntime locatedSettings

def shopsBuild : Build :=
  Build.ofFindings locatedSettings
    ((readFiles shopsContext).findings.toOption.getD [])

def shopsGraph : Graph := (finish shopsContext version shopsBuild).1

theorem result_shops :
    (compile shops shopsRuntime .default).result = .ok shopsGraph :=
  result_compile (by decide +kernel) (by decide +kernel)

theorem diagnostics_shops : shopsGraph.diagnostics = [] := by
  have hadjacency : Graph.adjacency
      (Link.linked shopsBuild.registry (surroundings shopsContext)) =
      [[], [], [0, 1]] := by decide +kernel
  rw [shopsGraph, diagnostics_finish hadjacency (by cbv)]
  decide +kernel

theorem warehouse_shops : shopsGraph.config.warehouse = .bigquery := rfl

theorem actions_shops : shopsGraph.actions.map
    (fun action => (action.target, action.body.sqlTexts)) =
    [(⟨none, some "shop", "eu.orders"⟩, []),
      (⟨none, some "shop.eu", "orders"⟩, []), (⟨none, none, "report"⟩,
        ["SELECT * FROM \x60shop.eu.orders\x60, \x60shop.eu.orders\x60"])] := by
  decide +kernel

/-- The action at a place has the target and the SQL that are listed there. -/
theorem exists_action_shops (place : Nat) {target : Target}
    {texts : List String} (h : (shopsGraph.actions.map fun action =>
      (action.target, action.body.sqlTexts))[place]? = some (target, texts)) :
    ∃ action, shopsGraph.actions[place]? = some action ∧
      action.target = target ∧ action.body.sqlTexts = texts := by
  rw [List.getElem?_map] at h
  obtain ⟨action, haction, hpair⟩ := Option.map_eq_some_iff.1 h
  exact ⟨action, haction, congrArg Prod.fst hpair, congrArg Prod.snd hpair⟩

/-- The two declarations have different targets and the same address, so the
report reads one of them twice. -/
theorem address_shared : ∃ graph : Graph,
    (compile shops shopsRuntime .default).result = .ok graph ∧
      graph.diagnostics = [] ∧
      ∃ first ∈ graph.actions, ∃ second ∈ graph.actions,
        ∃ report ∈ graph.actions, first.target ≠ second.target ∧
          graph.config.warehouse.quoteTarget first.target =
            graph.config.warehouse.quoteTarget second.target ∧
          report.body.sqlTexts = ["SELECT * FROM " ++
            (graph.config.warehouse.quoteTarget first.target ++
              (", " ++ graph.config.warehouse.quoteTarget second.target))] := by
  obtain ⟨first, hfirst, hfirstTarget, -⟩ :=
    exists_action_shops 0 (by rw [actions_shops]; rfl)
  obtain ⟨second, hsecond, hsecondTarget, -⟩ :=
    exists_action_shops 1 (by rw [actions_shops]; rfl)
  obtain ⟨report, hreport, -, htexts⟩ :=
    exists_action_shops 2 (by rw [actions_shops]; rfl)
  refine ⟨shopsGraph, result_shops, diagnostics_shops, first,
    List.mem_of_getElem? hfirst, second, List.mem_of_getElem? hsecond, report,
    List.mem_of_getElem? hreport, ?_⟩
  rw [htexts, hfirstTarget, hsecondTarget, warehouse_shops]
  decide +kernel

/-- The pieces between the dots tell the report from the declarations, but not
one declaration from the other. -/
theorem addresses_shops : ∃ first second report : Action,
    shopsGraph.actions[0]? = some first ∧ shopsGraph.actions[1]? = some second ∧
      shopsGraph.actions[2]? = some report ∧
        shopsGraph.config.warehouse.quoteTarget first.target =
          shopsGraph.config.warehouse.quoteTarget second.target ∧
        shopsGraph.config.warehouse.quoteTarget first.target ≠
          shopsGraph.config.warehouse.quoteTarget report.target := by
  obtain ⟨first, hfirst, hfirstTarget, -⟩ :=
    exists_action_shops 0 (by rw [actions_shops]; rfl)
  obtain ⟨second, hsecond, hsecondTarget, -⟩ :=
    exists_action_shops 1 (by rw [actions_shops]; rfl)
  obtain ⟨report, hreport, hreportTarget, -⟩ :=
    exists_action_shops 2 (by rw [actions_shops]; rfl)
  obtain ⟨c, -, htold⟩ := addresses_compile result_shops diagnostics_shops
  obtain ⟨-, hsecondTold⟩ := htold 0 1 first second hfirst hsecond (by decide)
  obtain ⟨-, hreportTold⟩ := htold 0 2 first report hfirst hreport (by decide)
  refine ⟨first, second, report, hfirst, hsecond, hreport, ?_, ?_⟩
  · rw [hsecondTold.components warehouse_shops, hfirstTarget, hsecondTarget]
    decide +kernel
  · rw [Ne, hreportTold.components warehouse_shops, hfirstTarget, hreportTarget]
    decide +kernel

end Compile

end SqlWorkflow
