import SqlWorkflow.Proofs.Link.Linked
import SqlWorkflow.Proofs.Registry.Lookups

/-!
# What linking keeps

Linking fills in the dependencies and the SQL of the actions; all else of them
stays as it was registered. So however registering, making assertions and
linking follow each other, the indexes agree with the actions, and a lookup
answers what the actions tell.
-/

namespace SqlWorkflow

namespace Action

/-- A body without the SQL that linking may fill in. -/
def Body.withoutSql : Body → Body
  | .table t =>
    .table { t with
      query := ""
      incrementalQuery := none
      preOps := []
      postOps := []
      incrementalPreOps := []
      incrementalPostOps := [] }
  | .operation o => .operation { o with queries := [] }
  | .assertion a => .assertion { a with query := "" }
  | other => other

/-- All of an action but its dependencies and its SQL. -/
def lasting (action : Action) : Action :=
  { action with dependencies := [], body := action.body.withoutSql }

end Action

namespace Link

open Registry (Indexed IndexesExact FindExact)

/-- The second entry is the first one after linking. -/
structure Keeps (entry linked : Registry.Entry) : Prop where
  lasting : linked.action.lasting = entry.action.lasting
  pending : linked.pending = entry.pending
  body_of_none : entry.pending.templates = .none →
    linked.action.body = entry.action.body

/-- A registry after any actions were registered, assertions made and links
worked out, in any order. -/
inductive Evolved : Registry → Prop
  | empty : Evolved .empty
  | register {r : Registry} (action : Action) (pending : Registry.Pending)
      (h : Evolved r) : Evolved (r.register action pending)
  | synthesize {r : Registry} (settings : Settings.Pair) (warehouse : Warehouse)
      (parent : Action) (parentDatabase : Option String)
      (checks : Action.Checks) (h : Evolved r) :
      Evolved (r.synthesize settings warehouse parent parentDatabase checks)
  | link {r : Registry} (surroundings : Surroundings) (h : Evolved r) :
      Evolved (linked r surroundings)

theorem Evolved.indexed {r : Registry} (h : Evolved r) : Indexed r := by
  induction h with
  | empty => exact Registry.indexed_empty
  | register action pending _ ih =>
    exact ih.of_gains (Registry.gains_register _ action pending)
  | synthesize settings warehouse parent parentDatabase checks _ ih =>
    exact ih.of_gains (Registry.gains_synthesize _ settings warehouse parent
      parentDatabase checks)
  | link surroundings _ ih => exact indexed_linked ih surroundings

theorem entries_linked (r : Registry) (surroundings : Surroundings) :
    (linked r surroundings).entries = r.entries.map fun entry =>
      { entry with action := (linkEntry r surroundings entry).action } := by
  rw [linked, outcomes, Registry.withActions, List.map_map,
    List.zipWith_map_right, List.zipWith_self]
  rfl

theorem withoutSql_applyTo (sql : Sql) (body : Action.Body) :
    (sql.applyTo body).withoutSql = body.withoutSql := by
  cases body <;> cases sql <;> try rfl
  case table.table incremental _ _ => cases incremental <;> rfl

/-- Without templates there is no SQL to fill in. -/
theorem applyTo_renderedSql_of_none {r : Registry} {surroundings : Surroundings}
    {entry : Registry.Entry} (h : entry.pending.templates = .none) :
    (renderedSql r surroundings entry).value.applyTo entry.action.body =
      entry.action.body := by
  rw [renderedSql, h]
  cases entry.action.body <;> rfl

theorem keeps_linkEntry (r : Registry) (surroundings : Surroundings)
    (entry : Registry.Entry) :
    Keeps entry { entry with
      action := (linkEntry r surroundings entry).action } where
  lasting := by
    simp only [Action.lasting, linkEntry, withoutSql_applyTo]
  pending := rfl
  body_of_none := applyTo_renderedSql_of_none

theorem keeps_linked (r : Registry) (surroundings : Surroundings) :
    List.Forall₂ Keeps r.entries (linked r surroundings).entries := by
  rw [entries_linked, List.forall₂_map_right_iff, List.forall₂_same]
  intro entry _
  exact keeps_linkEntry r surroundings entry

/-- However a registry came about, its indexes list exactly the places of the
actions with each key, a lookup answers what the actions tell, and linking keeps
all of an action but its dependencies and the SQL that it has templates for. -/
theorem registry_exact {r : Registry} (h : Evolved r) :
    IndexesExact r ∧ (∀ reference, FindExact r reference) ∧ ∀ surroundings,
      List.Forall₂ Keeps r.entries (linked r surroundings).entries :=
  ⟨h.indexed.indexesExact, h.indexed.findExact, keeps_linked r⟩

def ordersIn (schema : String) : Action :=
  ⟨⟨none, some (schema ++ "_dev"), "orders"⟩, ⟨none, some schema, "orders"⟩,
    "definitions/" ++ schema ++ "/orders.sql", false, [], [], false, none, [],
    .operation ⟨["SELECT 1"], false⟩⟩

/-- Orders in two schemas, the first twice, linked after the second was
added. -/
def branches : Registry :=
  (linked ((Registry.empty.register (ordersIn "shop") .nothing).register
    (ordersIn "archive") .nothing) ⟨.empty, Script.noRuntime, []⟩).register
    (ordersIn "shop") .nothing

theorem registry_exact_branches :
    Evolved branches ∧ branches.byName.places "orders" = [0, 1, 2] ∧
      branches.find (.named "users") = .missing ∧
      branches.find (.qualified none "shop" "orders") =
        .found 0 ⟨none, some "shop_dev", "orders"⟩ ∧
      branches.find (.named "orders") =
        .ambiguous [⟨none, some "shop_dev", "orders"⟩,
          ⟨none, some "archive_dev", "orders"⟩] ∧
      branches.entries.map (·.action.lasting) =
        (linked branches ⟨.empty, Script.noRuntime, []⟩).entries.map
          (·.action.lasting) := by
  have hevolved : Evolved branches :=
    .register _ _ (.link _ (.register _ _ (.register _ _ .empty)))
  obtain ⟨-, hfind, hkeeps⟩ := registry_exact hevolved
  refine ⟨hevolved, by decide +kernel, ?_, ?_, ?_, ?_⟩
  · exact (hfind _).missing_iff.2 (by decide +kernel)
  · refine ((hfind _).found_iff _ _).2
      ⟨⟨ordersIn "shop", by decide +kernel⟩, ?_⟩
    have htargets : ∀ action ∈ branches.actions,
        Registry.Matches (.qualified none "shop" "orders") action →
          action.target = ⟨none, some "shop_dev", "orders"⟩ := by decide +kernel
    intro other action hplace hmatches
    exact ⟨Nat.zero_le other,
      htargets action (List.mem_of_getElem? hplace) hmatches⟩
  · exact ((hfind _).ambiguous_iff _).2 (by decide +kernel)
  · rw [← List.forall₂_eq_eq_eq, List.forall₂_map_left_iff,
      List.forall₂_map_right_iff]
    exact (hkeeps _).imp fun _ _ h => h.lasting.symm

end Link

end SqlWorkflow
