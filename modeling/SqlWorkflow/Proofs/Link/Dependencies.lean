import Mathlib.Data.List.Count
import SqlWorkflow.Proofs.Link.Calls
import SqlWorkflow.Proofs.Link.Linked

/-!
# The dependencies of a linked action

Linking gives an action the targets of its declared dependencies and of the
calls in its templates, and after them the assertions of those targets about
which this is said. What is said about a target depends only on which values its
places give, and if they give both, the disagreement is reported once.
-/

namespace SqlWorkflow

namespace Target

/-- Adding targets one by one keeps the first occurrence of each that is not
there yet. -/
theorem foldl_addTo (known targets : List Target) :
    targets.foldl addTo known =
      known ++ (targets.filter (· ∉ known)).eraseDups := by
  induction targets generalizing known with
  | nil => simp
  | cons target targets ih =>
    rw [List.foldl_cons, ih, addTo]
    by_cases hmem : target ∈ known
    · simp [hmem]
    · rw [if_neg hmem, List.filter_cons_of_pos (by simpa using hmem),
        List.eraseDups_cons, List.filter_filter, List.append_assoc,
        List.singleton_append]
      congr 3
      apply List.filter_congr
      intro other _
      by_cases hother : other = target <;> simp [hother]

theorem distinct_eq_eraseDups (targets : List Target) :
    distinct targets = targets.eraseDups := by
  rw [distinct, foldl_addTo, List.nil_append]
  simp

theorem nodup_distinct (targets : List Target) : (distinct targets).Nodup := by
  suffices h : ∀ known : List Target, known.Nodup →
      (targets.foldl addTo known).Nodup from h [] .nil
  induction targets with
  | nil =>
    intro known h
    exact h
  | cons target targets ih =>
    intro known h
    apply ih
    exact nodup_addTo h target

theorem mem_distinct {targets : List Target} {target : Target} :
    target ∈ distinct targets ↔ target ∈ targets := by
  rw [distinct_eq_eraseDups, List.mem_eraseDups]

/-- Targets that are told again add nothing. -/
theorem distinct_append_of_subset {known again : List Target}
    (h : again ⊆ known) (after : List Target) :
    distinct (known ++ again ++ after) = distinct (known ++ after) := by
  have hknown : again.foldl addTo (distinct known) = distinct known := by
    have hnone : again.filter (· ∉ distinct known) = [] := by
      rw [List.filter_eq_nil_iff]
      intro target htarget
      simpa using mem_distinct.2 (h htarget)
    rw [foldl_addTo, hnone, List.eraseDups_nil, List.append_nil]
  calc
    distinct (known ++ again ++ after) =
      after.foldl addTo (again.foldl addTo (distinct known)) := by
      rw [distinct, List.foldl_append, List.foldl_append]
      rfl
    _ = after.foldl addTo (distinct known) := by rw [hknown]
    _ = distinct (known ++ after) := List.foldl_append.symm

theorem distinct_concat (targets : List Target) (target : Target) :
    distinct (targets ++ [target]) = addTo (distinct targets) target := by
  rw [distinct, List.foldl_append]
  rfl

theorem distinct_of_nodup {targets : List Target}
    (h : targets.Nodup) : distinct targets = targets := by
  induction targets using List.reverseRecOn with
  | nil => rfl
  | append_singleton targets target ih =>
    obtain ⟨hnodup, -, hfresh⟩ := List.nodup_append.1 h
    have hnot : target ∉ targets :=
      fun hmem => hfresh target hmem target (List.mem_singleton_self _) rfl
    rw [distinct_concat, ih hnodup, addTo, if_neg hnot]

end Target

namespace Link

open Registry (Indexed Reachable)

/-- The values that places give for the assertions of a target. -/
def explicitly (sites : List Site) (target : Target) : List Bool :=
  sites.filterMap fun site =>
    if site.target = target then site.includeDependentAssertions else none

/-- What values amount to: the one that is given, or the default if none is;
nothing if both are. -/
def flag? (byDefault : Bool) (values : List Bool) : Option Bool :=
  if true ∈ values ∧ false ∈ values then none
  else if true ∈ values then some true
  else if false ∈ values then some false
  else some byDefault

namespace Demand

def ofValues (values : List Bool) : Demand :=
  if true ∈ values ∧ false ∈ values then .conflicting
  else if true ∈ values then .said true
  else if false ∈ values then .said false
  else .unsaid

theorem merge_ofValues (values : List Bool) (value : Option Bool) :
    (ofValues values).merge value = ofValues (values ++ value.toList) := by
  by_cases htrue : true ∈ values <;> by_cases hfalse : false ∈ values <;>
    rcases value with _ | _ | _ <;> simp [ofValues, merge, htrue, hfalse]

end Demand

theorem explicitly_concat (sites : List Site) (site : Site) (target : Target) :
    explicitly (sites ++ [site]) target =
      explicitly sites target ++ if site.target = target then
        site.includeDependentAssertions.toList else [] := by
  rw [explicitly, List.filterMap_append]
  congr 1
  by_cases h : site.target = target
  · cases hvalue : site.includeDependentAssertions <;> simp [h, hvalue]
  · simp [h]

theorem explicitly_eq_nil {sites : List Site} {target : Target}
    (h : target ∉ sites.map (·.target)) : explicitly sites target = [] := by
  rw [explicitly, List.filterMap_eq_nil_iff]
  intro site hsite
  apply if_neg
  intro heq
  apply h
  rw [← heq]
  exact List.mem_map_of_mem hsite

/-- One more place changes the demand on its own target only, and adds the
target if it is new. -/
theorem Demands.add_map (site : Site) (demand : Target → Demand)
    {targets : List Target} (hnodup : targets.Nodup)
    (hfresh : site.target ∉ targets → demand site.target = .unsaid) :
    Demands.add site (targets.map fun target => (target, demand target)) =
      (Target.addTo targets site.target).map fun target =>
        (target, if site.target = target
          then (demand target).merge site.includeDependentAssertions
          else demand target) := by
  induction targets with
  | nil =>
    have hunsaid := hfresh List.not_mem_nil
    cases hvalue : site.includeDependentAssertions <;> simp [Demands.add,
      Target.addTo, hunsaid, Demand.ofSite, Demand.merge, hvalue]
  | cons target targets ih =>
    obtain ⟨hnotin, hnodup⟩ := List.nodup_cons.1 hnodup
    by_cases heq : target = site.target
    · have hmem : site.target ∈ target :: targets := heq ▸ List.mem_cons_self
      rw [Target.addTo, if_pos hmem, List.map_cons, List.map_cons, Demands.add,
        if_pos heq, if_pos heq.symm]
      congr 1
      apply List.map_congr_left
      intro other hother
      rw [if_neg]
      intro hsame
      exact hnotin (heq.trans hsame ▸ hother)
    · have hadd : Target.addTo (target :: targets) site.target =
          target :: Target.addTo targets site.target := by
        by_cases hmem : site.target ∈ targets <;>
          simp [Target.addTo, hmem, Ne.symm heq]
      rw [hadd, List.map_cons, List.map_cons, Demands.add, if_neg heq,
        if_neg (Ne.symm heq),
        ih hnodup fun hmem => hfresh (by simp [hmem, Ne.symm heq])]

/-- What places say about each target is what their values amount to. -/
theorem Demands.ofSites_eq (sites : List Site) :
    Demands.ofSites sites =
      (Target.distinct (sites.map (·.target))).map fun target =>
      (target, Demand.ofValues (explicitly sites target)) := by
  induction sites using List.reverseRecOn with
  | nil => rfl
  | append_singleton sites site ih =>
    have hstep : Demands.ofSites (sites ++ [site]) =
        Demands.add site (Demands.ofSites sites) := by
      rw [Demands.ofSites, List.foldl_append]
      rfl
    rw [hstep, ih, Demands.add_map site _ (Target.nodup_distinct _) ?_,
      List.map_append, List.map_singleton, Target.distinct_concat]
    · apply List.map_congr_left
      intro target _
      rw [explicitly_concat]
      split
      · rw [Demand.merge_ofValues]
      · rw [List.append_nil]
    · intro hnotin
      rw [Target.mem_distinct] at hnotin
      rw [explicitly_eq_nil hnotin]
      rfl

theorem Demand.ofValues_congr {values others : List Bool}
    (h : ∀ value, value ∈ values ↔ value ∈ others) :
    Demand.ofValues values = Demand.ofValues others := by
  simp only [Demand.ofValues, h]

/-- Places that are told again add nothing to what is said about their
targets. -/
theorem Demands.ofSites_append_of_subset {sites again : List Site}
    (h : again ⊆ sites) :
    Demands.ofSites (sites ++ again) = Demands.ofSites sites := by
  have htargets :=
    Target.distinct_append_of_subset (List.map_subset (·.target) h) []
  rw [List.append_nil, List.append_nil] at htargets
  rw [ofSites_eq, ofSites_eq, List.map_append, htargets]
  apply List.map_congr_left
  intro target _
  congr 1
  apply Demand.ofValues_congr
  intro value
  have hagain : explicitly again target ⊆ explicitly sites target :=
    List.filterMap_subset _ h
  rw [explicitly, List.filterMap_append, List.mem_append]
  exact or_iff_left_of_imp fun hmem => hagain hmem

theorem flag?_eq_none_iff {byDefault : Bool} {values : List Bool} :
    flag? byDefault values = none ↔ true ∈ values ∧ false ∈ values := by
  by_cases htrue : true ∈ values <;> by_cases hfalse : false ∈ values <;>
    simp [flag?, htrue, hfalse]

/-- The assertions of a target are demanded if its flag is true. -/
theorem demandedTargets_map (r : Registry) (self : Target) (byDefault : Bool)
    (values : Target → List Bool) (targets : List Target) :
    demandedTargets r self byDefault
        (targets.map fun target => (target, Demand.ofValues (values target))) =
      targets.flatMap fun target =>
        if flag? byDefault (values target) = some true then
          assertionTargets r self target else [] := by
  rw [demandedTargets, List.flatMap_map]
  apply List.flatMap_congr
  intro target _
  by_cases htrue : true ∈ values target <;> by_cases hfalse : false ∈
    values target <;> simp [Demand.ofValues, flag?, htrue, hfalse]

/-- The conflicts are about the targets for which both values are given. -/
theorem conflicts_map (byDefault : Bool) (values : Target → List Bool)
    (targets : List Target) :
    conflicts
      (targets.map fun target => (target, Demand.ofValues (values target))) =
      (targets.filter fun target => flag? byDefault (values target) = none).map
        .conflict := by
  induction targets with
  | nil => rfl
  | cons target targets ih =>
    rw [List.map_cons, conflicts, List.filterMap_cons, List.filter_cons]
    rw [conflicts] at ih
    by_cases htrue : true ∈ values target <;> by_cases hfalse : false ∈
      values target <;> simp [Demand.ofValues, flag?, htrue, hfalse, ih]

/-- The assertions of a target are the actions that have it for their parent,
the action itself apart. -/
theorem assertionTargets_eq {r : Registry} (h : Indexed r)
    (self parent : Target) :
    assertionTargets r self parent =
      ((r.actions.filter fun action => action.parent? = some parent).map
        (·.target)).filter (· ≠ self) := by
  rw [assertionTargets, ← h.filterMap_assertionsOf, List.map_filterMap]

theorem declaredSites_fst (r : Registry) (self : Target)
    (references : List Reference) :
    (declaredSites r self references).1 = references.filterMap (site? r) := by
  induction references with
  | nil => rfl
  | cons reference rest ih =>
    have hsite := site?_eq r reference
    rw [declaredSites]
    cases hfind : r.find reference with
    | found place target =>
      rw [hfind] at hsite
      rw [List.filterMap_cons_some hsite, ← ih]
    | missing =>
      rw [hfind] at hsite
      rw [List.filterMap_cons_none hsite, ← ih]
    | ambiguous candidates =>
      rw [hfind] at hsite
      rw [List.filterMap_cons_none hsite, ← ih]

theorem conflict_not_mem_declaredSites (r : Registry) (self : Target)
    (references : List Reference) (target : Target) :
    .conflict target ∉ (declaredSites r self references).2 := by
  induction references with
  | nil => exact List.not_mem_nil
  | cons reference rest ih =>
    rw [declaredSites]
    cases r.find reference <;> simpa using ih

/-- The places that have a say in the dependencies of an action: its declared
dependencies, then the calls in its templates, as far as they lead to
targets. -/
def sitesOf (r : Registry) (surroundings : Surroundings)
    (entry : Registry.Entry) : List Site :=
  (entry.pending.dependencies ++ callsOf r surroundings entry).filterMap
    (site? r)

def flagOf (r : Registry) (surroundings : Surroundings) (entry : Registry.Entry)
    (target : Target) : Option Bool :=
  flag? entry.pending.dependOnDependencyAssertions
    (explicitly (sitesOf r surroundings entry) target)

/-- The targets of the assertions that were made for a parent, the action itself
apart, if the flag of the parent is true. -/
def includedWith (r : Registry) (surroundings : Surroundings)
    (entry : Registry.Entry) (parent : Target) : List Target :=
  if flagOf r surroundings entry parent = some true then
    ((r.actions.filter fun action => action.parent? = some parent).map
      (·.target)).filter (· ≠ entry.action.target)
  else []

/-- The dependencies of an action: those it was registered with, the targets of
its places, and the assertions that are included with each of these targets. -/
def dependenciesOf (r : Registry) (surroundings : Surroundings)
    (entry : Registry.Entry) : List Target :=
  let targets := (sitesOf r surroundings entry).map (·.target)
  (entry.action.dependencies ++ targets ++
    targets.eraseDups.flatMap (includedWith r surroundings entry)).eraseDups

theorem declared_append_rendered (r : Registry) (surroundings : Surroundings)
    (entry : Registry.Entry) :
    (declaredSites r entry.action.target entry.pending.dependencies).1 ++
      (renderedSql r surroundings entry).notes.sites =
      sitesOf r surroundings entry := by
  calc
    (declaredSites r entry.action.target entry.pending.dependencies).1 ++
        (renderedSql r surroundings entry).notes.sites =
      entry.pending.dependencies.filterMap (site? r) ++
        (callsOf r surroundings entry).filterMap (site? r) := by
      rw [declaredSites_fst, (accounts_renderedSql r surroundings entry).sites]
    _ = sitesOf r surroundings entry := by
      rw [sitesOf, List.filterMap_append]

theorem dependencies_linkEntry {r : Registry} (h : Indexed r)
    (surroundings : Surroundings) (entry : Registry.Entry) :
    (linkEntry r surroundings entry).action.dependencies =
      dependenciesOf r surroundings entry := by
  have hdemanded : demandedTargets r entry.action.target
      entry.pending.dependOnDependencyAssertions
      (Demands.ofSites (sitesOf r surroundings entry)) =
      ((sitesOf r surroundings entry).map (·.target)).eraseDups.flatMap
        (includedWith r surroundings entry) := by
    rw [Demands.ofSites_eq, demandedTargets_map, Target.distinct_eq_eraseDups]
    apply List.flatMap_congr
    intro target _
    rw [assertionTargets_eq h, includedWith, flagOf]
  calc
    (linkEntry r surroundings entry).action.dependencies =
      Target.distinct (entry.action.dependencies ++
        ((sitesOf r surroundings entry).map (·.target) ++ demandedTargets r
          entry.action.target entry.pending.dependOnDependencyAssertions
          (Demands.ofSites (sitesOf r surroundings entry)))) := by
      rw [← declared_append_rendered]
      rfl
    _ = dependenciesOf r surroundings entry := by
      rw [hdemanded, Target.distinct_eq_eraseDups, dependenciesOf,
        List.append_assoc]

theorem count_conflict_linkEntry (r : Registry) (surroundings : Surroundings)
    (entry : Registry.Entry) (target : Target) :
    (linkEntry r surroundings entry).faults.count (.conflict target) =
      if flagOf r surroundings entry target = none then 1 else 0 := by
  have hrendered := (accounts_renderedSql r surroundings entry).faults target
  have hdeclared := conflict_not_mem_declaredSites r entry.action.target
    entry.pending.dependencies target
  have hinjective : Function.Injective Fault.conflict := by
    intro left right heq
    exact Fault.conflict.inj heq
  have hmem : flagOf r surroundings entry target = none →
      target ∈ (sitesOf r surroundings entry).map (·.target) := by
    intro hnone
    by_contra hnotin
    rw [flagOf, flag?_eq_none_iff, explicitly_eq_nil hnotin] at hnone
    exact List.not_mem_nil hnone.1
  have hfaults : (linkEntry r surroundings entry).faults =
      (renderedSql r surroundings entry).notes.faults ++
        ((declaredSites r entry.action.target entry.pending.dependencies).2 ++
          conflicts (Demands.ofSites (sitesOf r surroundings entry))) := by
    rw [← declared_append_rendered]
    rfl
  calc
    (linkEntry r surroundings entry).faults.count (.conflict target) =
      (conflicts (Demands.ofSites (sitesOf r surroundings entry))).count
        (.conflict target) := by
      rw [hfaults, List.count_append, List.count_append,
        List.count_eq_zero_of_not_mem hrendered,
        List.count_eq_zero_of_not_mem hdeclared, Nat.zero_add, Nat.zero_add]
    _ = ((Target.distinct ((sitesOf r surroundings entry).map
        (·.target))).filter fun other =>
        flagOf r surroundings entry other = none).count target := by
      rw [Demands.ofSites_eq,
        conflicts_map entry.pending.dependOnDependencyAssertions,
        List.count_map_of_injective _ _ hinjective]
      rfl
    _ = if flagOf r surroundings entry target = none then 1 else 0 := by
      rw [((Target.nodup_distinct _).filter _).count]
      apply if_congr _ rfl rfl
      rw [List.mem_filter, Target.mem_distinct, decide_eq_true_iff]
      constructor
      · intro hfiltered
        exact hfiltered.2
      · intro hnone
        exact ⟨hmem hnone, hnone⟩

/-- Linking gives every action the dependencies that its places call for,
whichever registry it stands in. Where a target has both values, this is one
fault of the action, and one diagnostic in a log without repetitions. -/
theorem link_dependencies {r : Registry} (h : Reachable r)
    (surroundings : Surroundings) {place : Nat} {entry : Registry.Entry}
    (hentry : r.entries[place]? = some entry) :
    ∃ outcome, (outcomes r surroundings)[place]? = some outcome ∧
      (linked r surroundings).actions[place]? = some outcome.action ∧
      outcome.action.dependencies = dependenciesOf r surroundings entry ∧
      ∀ target, outcome.faults.count (.conflict target) =
        (if flagOf r surroundings entry target = none then 1 else 0) ∧
        (flagOf r surroundings entry target = none →
          ∀ log : Diagnostics, log.Nodup →
            (Compile.linkDiagnostics (outcomes r surroundings) log).count
              ⟨some entry.action.fileName, some entry.action.target.text,
                (Fault.conflict target).message⟩ = 1) := by
  have houtcome : (outcomes r surroundings)[place]? =
      some (linkEntry r surroundings entry) := by
    rw [outcomes, List.getElem?_map, hentry, Option.map_some]
  refine ⟨linkEntry r surroundings entry, houtcome, ?_,
    dependencies_linkEntry h.indexed surroundings entry, fun target => ⟨?_, ?_⟩⟩
  · rw [actions_linked, List.getElem?_map, houtcome, Option.map_some]
  · exact count_conflict_linkEntry r surroundings entry target
  · intro hnone log hlog
    have hfault : .conflict target ∈
        (linkEntry r surroundings entry).faults := by
      rw [← List.count_pos_iff, count_conflict_linkEntry, if_pos hnone]
      exact Nat.one_pos
    rw [Compile.linkDiagnostics,
      (Diagnostics.nodup_recordAll hlog _).count, if_pos]
    rw [Diagnostics.mem_recordAll, List.mem_flatMap]
    apply Or.inr
    exact ⟨_, List.mem_of_getElem? houtcome, List.mem_map.2 ⟨_, hfault, rfl⟩⟩

def shopAction (name : String) (body : Action.Body) : Action :=
  ⟨⟨none, some "shop", name⟩, ⟨none, some "shop", name⟩,
    "definitions/" ++ name ++ ".sqlx", false, [], [], false, none, [], body⟩

/-- Orders and users, each with a key that is checked, and a report on them that
asks for the checks of the orders, and both for those of the users and against
them. -/
def shop : Registry :=
  let key : Action.Checks := ⟨[["id"]], [], []⟩
  let report : Registry.Pending :=
    { dependencies := [⟨none, none, "orders", some true⟩,
      ⟨none, none, "users", some true⟩]
      dependOnDependencyAssertions := false
      templates := .operation ["SELECT $\x7bref(\"orders\")\x7d",
        "$\x7bref(\x7bname: \"users\", includeDependentAssertions: false\x7d)\x7d"]
      interpolate := true
      script := none }
  let orders := shopAction "orders" .declaration
  let users := shopAction "users" .declaration
  let tables := ((Registry.empty.register orders .nothing).synthesize
    ⟨.empty, .empty⟩ .bigquery orders none key).register users .nothing
  (tables.synthesize ⟨.empty, .empty⟩ .bigquery users none key).register
    (shopAction "report" (.operation ⟨[], false⟩)) report

theorem link_dependencies_shop :
    ((linked shop ⟨.empty, Script.noRuntime, []⟩).actions[4]?).map
      (fun action => action.dependencies.map (·.name)) =
      some ["orders", "users", "shop_orders_assertions_uniqueKey_0"] ∧
      (Compile.linkDiagnostics (outcomes shop ⟨.empty, Script.noRuntime, []⟩)
        []).count ⟨some "definitions/report.sqlx", some "shop.report",
          (Fault.conflict ⟨none, some "shop", "users"⟩).message⟩ = 1 := by
  have hreachable : Reachable shop :=
    .register _ _ (.synthesize
      _ _ _ _ _ (.register _ _ (.synthesize _ _ _ _ _ (.register _ _ .empty))))
  have hreport : shop.entries[4]? = some shop.entries[4] := rfl
  obtain ⟨outcome, -, hlinked, hdependencies, hconflicts⟩ :=
    link_dependencies hreachable ⟨.empty, Script.noRuntime, []⟩ hreport
  constructor
  · rw [hlinked, Option.map_some, hdependencies]
    decide +kernel
  · exact (hconflicts ⟨none, some "shop", "users"⟩).2
      (by decide +kernel) [] .nil

end Link

end SqlWorkflow
