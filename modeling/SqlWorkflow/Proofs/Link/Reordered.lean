import Mathlib.Data.List.Perm.Basic
import SqlWorkflow.Proofs.Link.Alike
import SqlWorkflow.Proofs.Link.Dependencies
import SqlWorkflow.Proofs.Link.Kept

/-!
# Linking does not depend on the order of registration

The actions of a project may be registered in any order, also when several have
one target. Linking gives each of them the same SQL and the same dependencies,
makes the same requests for it, and reports the same faults, of which the
ambiguous ones may list their candidates in another order.
-/

namespace SqlWorkflow.Link

open Registry (Indexed entries_ofEntries indexed_ofEntries ofEntries)

/-- The outcomes of one action, with the same SQL and requests, the same
dependencies in some order, and faults that differ in the order of candidates at
most. -/
structure Outcome.Alike (left right : Outcome) : Prop where
  action : right.action =
    { left.action with dependencies := right.action.dependencies }
  dependencies : left.action.dependencies.Perm right.action.dependencies
  faults : List.Forall₂ Fault.Alike left.faults right.faults
  requests : left.requests = right.requests

/-- Diagnostics of one action that differ in the order of candidates at most. -/
structure DiagnosticAlike (left right : Diagnostic) : Prop where
  fileName : left.fileName = right.fileName
  actionName : left.actionName = right.actionName
  message : ∃ fault other, Fault.Alike fault other ∧
    left.message = fault.message ∧ right.message = other.message

theorem alike_renderedSql {r other : Registry} (hfind : r.Alike other)
    (surroundings : Surroundings) (entry : Registry.Entry) :
    (renderedSql r surroundings entry).Alike
      (renderedSql other surroundings entry) :=
  (scopeOf r surroundings entry).alike_sql hfind _ _ _

theorem alike_declaredSites {r other : Registry} (hfind : r.Alike other)
    (self : Target) (references : List Reference) :
    (declaredSites r self references).1 =
      (declaredSites other self references).1 ∧
      List.Forall₂ Fault.Alike (declaredSites r self references).2
        (declaredSites other self references).2 := by
  induction references with
  | nil => exact ⟨rfl, .nil⟩
  | cons reference rest ih =>
    obtain ⟨hsites, hfaults⟩ := ih
    have h := hfind reference
    simp only [declaredSites]
    generalize r.find reference = left at h ⊢
    generalize other.find reference = right at h ⊢
    cases h with
    | found place otherPlace target => exact ⟨congrArg (_ :: ·) hsites, hfaults⟩
    | missing => exact ⟨hsites, .cons (.same _) hfaults⟩
    | ambiguous hperm =>
      exact ⟨hsites, .cons (.ambiguous reference hperm) hfaults⟩

/-- The places that lead to targets, and the targets that they lead to, are the
same. -/
theorem sitesOf_eq_of_alike {r other : Registry} (hfind : r.Alike other)
    (surroundings : Surroundings) (entry : Registry.Entry) :
    sitesOf r surroundings entry = sitesOf other surroundings entry := by
  rw [← declared_append_rendered, ← declared_append_rendered,
    (alike_declaredSites hfind _ _).1,
    (alike_renderedSql hfind surroundings entry).sites]

/-- Permuted actions give the same assertions of a target, in some order. -/
theorem perm_assertionTargets {r other : Registry} (h : Indexed r)
    (hother : Indexed other) (hactions : r.actions.Perm other.actions)
    (self target : Target) :
    (assertionTargets r self target).Perm
      (assertionTargets other self target) := by
  rw [assertionTargets_eq h, assertionTargets_eq hother]
  exact ((hactions.filter _).map _).filter _

theorem perm_demandedTargets {r other : Registry} (h : Indexed r)
    (hother : Indexed other) (hactions : r.actions.Perm other.actions)
    (self : Target) (byDefault : Bool) (demands : Demands) :
    (demandedTargets r self byDefault demands).Perm
      (demandedTargets other self byDefault demands) := by
  apply List.Perm.flatMap_left
  rintro ⟨target, demand⟩ _
  have hperm := perm_assertionTargets h hother hactions self target
  cases demand with
  | conflicting => exact .nil
  | unsaid =>
    dsimp only
    split
    · exact hperm
    · exact .nil
  | said wanted =>
    dsimp only
    split
    · exact hperm
    · exact .nil

theorem perm_distinct {targets others : List Target} (h : targets.Perm others) :
    (Target.distinct targets).Perm (Target.distinct others) := by
  rw [List.perm_ext_iff_of_nodup (Target.nodup_distinct _)
    (Target.nodup_distinct _)]
  intro target
  rw [Target.mem_distinct, Target.mem_distinct, h.mem_iff]

/-- An action is linked alike in registries that have the same actions in
another order. -/
theorem alike_linkEntry {r other : Registry} (h : Indexed r)
    (hother : Indexed other) (hactions : r.actions.Perm other.actions)
    (hfind : r.Alike other) (surroundings : Surroundings)
    (entry : Registry.Entry) :
    (linkEntry r surroundings entry).Alike
      (linkEntry other surroundings entry) := by
  have hrendered := alike_renderedSql hfind surroundings entry
  have hsites := sitesOf_eq_of_alike hfind surroundings entry
  constructor
  · simp only [linkEntry, hrendered.value]
  · simp only [linkEntry]
    rw [declared_append_rendered, declared_append_rendered, hsites]
    apply perm_distinct
    exact ((perm_demandedTargets h hother hactions _ _ _).append_left
      _).append_left _
  · simp only [linkEntry]
    rw [declared_append_rendered, declared_append_rendered, hsites]
    exact List.rel_append hrendered.faults (List.rel_append
      (alike_declaredSites hfind _ _).2 (Fault.Alike.refl_all _))
  · exact hrendered.requests

theorem alike_linkEntry_of_perm {entries others : List Registry.Entry}
    (h : entries.Perm others) (surroundings : Surroundings)
    (entry : Registry.Entry) :
    (linkEntry (ofEntries entries) surroundings entry).Alike
      (linkEntry (ofEntries others) surroundings entry) :=
  alike_linkEntry (indexed_ofEntries entries) (indexed_ofEntries others)
    (Registry.perm_actions_ofEntries h) (Registry.alike_of_perm h)
    surroundings entry

/-- What is reported when actions are linked is reported for each order of
registration, up to the order of candidates. -/
theorem exists_diagnosticAlike {entries others : List Registry.Entry}
    (h : entries.Perm others) (surroundings : Surroundings)
    {diagnostic : Diagnostic} (hdiagnostic : diagnostic ∈
      Compile.linkDiagnostics (outcomes (ofEntries entries) surroundings) []) :
    ∃ other ∈
      Compile.linkDiagnostics (outcomes (ofEntries others) surroundings) [],
      DiagnosticAlike diagnostic other := by
  simp only [Compile.linkDiagnostics, Diagnostics.mem_recordAll,
    List.not_mem_nil, false_or, List.mem_flatMap, outcomes, entries_ofEntries,
    List.mem_map, Outcome.diagnostics] at hdiagnostic ⊢
  obtain ⟨_, ⟨entry, hentry, rfl⟩, fault, hfault, rfl⟩ := hdiagnostic
  have halike := alike_linkEntry_of_perm h surroundings entry
  obtain ⟨other, hother, hlike⟩ := exists_alike_of_mem halike.faults hfault
  refine ⟨_, ⟨_, ⟨entry, h.mem_iff.1 hentry, rfl⟩, other, hother, rfl⟩, ?_, ?_,
    fault, other, hlike, rfl, rfl⟩
  · dsimp only
    rw [halike.action]
  · dsimp only
    rw [halike.action]

/-- Linking does not depend on the order in which actions were registered. Every
reference finds the same target, nothing, or the same candidates. Every action
has the same SQL and the same dependencies, makes the same requests, and has the
same faults up to the order of candidates, and so has the log. -/
theorem link_of_perm {entries others : List Registry.Entry}
    (h : entries.Perm others) (surroundings : Surroundings) :
    (ofEntries entries).Alike (ofEntries others) ∧
      (∀ (place otherPlace : Nat) entry, entries[place]? = some entry →
        others[otherPlace]? = some entry → ∃ left right : Outcome,
        (outcomes (ofEntries entries) surroundings)[place]? = some left ∧
          (outcomes (ofEntries others) surroundings)[otherPlace]? = some right ∧
          (linked (ofEntries entries) surroundings).actions[place]? =
            some left.action ∧
          (linked (ofEntries others) surroundings).actions[otherPlace]? =
            some right.action ∧
          sitesOf (ofEntries entries) surroundings entry =
            sitesOf (ofEntries others) surroundings entry ∧ left.Alike right) ∧
      (∀ diagnostic ∈
        Compile.linkDiagnostics (outcomes (ofEntries entries) surroundings) [],
        ∃ other ∈
          Compile.linkDiagnostics (outcomes (ofEntries others) surroundings) [],
          DiagnosticAlike diagnostic other) ∧
      ∀ diagnostic ∈
        Compile.linkDiagnostics (outcomes (ofEntries others) surroundings) [],
        ∃ other ∈
          Compile.linkDiagnostics (outcomes (ofEntries entries) surroundings)
            [], DiagnosticAlike diagnostic other := by
  refine ⟨Registry.alike_of_perm h, ?_, fun _ => exists_diagnosticAlike h
    surroundings, fun _ => exists_diagnosticAlike h.symm surroundings⟩
  intro place otherPlace entry hentry hother
  have hleft : (outcomes (ofEntries entries) surroundings)[place]? =
      some (linkEntry (ofEntries entries) surroundings entry) := by
    rw [outcomes, entries_ofEntries, List.getElem?_map, hentry, Option.map_some]
  have hright : (outcomes (ofEntries others) surroundings)[otherPlace]? =
      some (linkEntry (ofEntries others) surroundings entry) := by
    rw [outcomes, entries_ofEntries, List.getElem?_map, hother, Option.map_some]
  refine ⟨_, _, hleft, hright, ?_, ?_,
    sitesOf_eq_of_alike (Registry.alike_of_perm h) _ _,
    alike_linkEntry_of_perm h surroundings entry⟩
  · rw [actions_linked, List.getElem?_map, hleft, Option.map_some]
  · rw [actions_linked, List.getElem?_map, hright, Option.map_some]

/-- A report that refers to orders without a schema, and with one. -/
def ordersReport : Registry.Entry where
  action := shopAction "report" (.operation ⟨[], false⟩)
  pending :=
    { dependencies := [.named "orders"]
      dependOnDependencyAssertions := false
      templates :=
        .operation ["SELECT * FROM $\x7bref(\"shop\", \"orders\")\x7d"]
      interpolate := true
      script := none }

/-- Orders in one schema twice, and in another. -/
def branchEntries : List Registry.Entry :=
  [⟨ordersIn "shop", .nothing⟩, ⟨ordersIn "shop", .nothing⟩,
    ⟨ordersIn "archive", .nothing⟩, ordersReport]

theorem link_of_perm_branches :
    branchEntries.Perm branchEntries.reverse ∧ ∃ left right : Outcome,
      (outcomes (ofEntries branchEntries) ⟨.empty, Script.noRuntime, []⟩)[3]? =
        some left ∧
        (outcomes (ofEntries branchEntries.reverse)
          ⟨.empty, Script.noRuntime, []⟩)[0]? = some right ∧ left.Alike right ∧
        left.faults =
          [.ambiguous (.named "orders") [⟨none, some "shop_dev", "orders"⟩,
            ⟨none, some "archive_dev", "orders"⟩]] ∧
        right.faults =
          [.ambiguous (.named "orders") [⟨none, some "archive_dev", "orders"⟩,
            ⟨none, some "shop_dev", "orders"⟩]] ∧
        right.action.body =
          .operation ⟨["SELECT * FROM \x60shop_dev.orders\x60"], false⟩ := by
  have hperm : branchEntries.Perm branchEntries.reverse :=
    (List.reverse_perm _).symm
  obtain ⟨-, heach, -⟩ := link_of_perm hperm ⟨.empty, Script.noRuntime, []⟩
  obtain ⟨left, right, hleft, hright, -, -, -, halike⟩ := heach 3 0 _ rfl rfl
  have hfaults : ((outcomes (ofEntries branchEntries)
      ⟨.empty, Script.noRuntime, []⟩)[3]?).map (·.faults) =
      some [.ambiguous (.named "orders") [⟨none, some "shop_dev", "orders"⟩,
        ⟨none, some "archive_dev", "orders"⟩]] := by
    decide +kernel
  have hothers : ((outcomes (ofEntries branchEntries.reverse)
      ⟨.empty, Script.noRuntime, []⟩)[0]?).map
      (fun outcome => (outcome.faults, outcome.action.body)) =
      some ([.ambiguous (.named "orders") [⟨none, some "archive_dev", "orders"⟩,
        ⟨none, some "shop_dev", "orders"⟩]],
        .operation ⟨["SELECT * FROM \x60shop_dev.orders\x60"], false⟩) := by
    decide +kernel
  rw [hleft] at hfaults
  rw [hright] at hothers
  simp only [Option.map_some, Option.some.injEq, Prod.mk.injEq]
    at hfaults hothers
  exact ⟨hperm, left, right, hleft, hright, halike, hfaults, hothers⟩

end SqlWorkflow.Link
