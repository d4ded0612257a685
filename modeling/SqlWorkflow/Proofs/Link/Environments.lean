import SqlWorkflow.Proofs.Link.Kept
import SqlWorkflow.Proofs.Registry.Reordered

/-!
# References in several environments

The settings of an environment may move every action: suffixes, a prefix and
other defaults change the targets, and leave the canonical targets as they are.
A reference that finds an action where nothing is moved still leads to that
action where it is, although it may lead to others as well, since the parts of a
reference may be those of either target. It is never lost, and never leads to
another action alone.
-/

namespace SqlWorkflow

namespace Registry

/-- A reference leads to a target: it finds an action that has the target, or
the target is a candidate. -/
inductive Leads (r : Registry) (reference : Reference) (target : Target) : Prop
  | found (place : Nat) (action : Action)
      (hfind : r.find reference = .found place target)
      (hplace : r.actions[place]? = some action)
      (htarget : action.target = target) : Leads r reference target
  | ambiguous (candidates : List Target)
      (hfind : r.find reference = .ambiguous candidates)
      (hmem : target ∈ candidates) : Leads r reference target

variable {r : Registry} {reference : Reference}

/-- A reference leads to the target of every action that it matches. -/
theorem FindExact.leads (h : FindExact r reference) {action : Action}
    (haction : action ∈ r.matching reference) :
    Leads r reference action.target := by
  cases hfind : r.find reference with
  | missing =>
    rw [h.missing_iff.1 hfind] at haction
    cases haction
  | found place target =>
    obtain ⟨⟨first, hplace, -, hfirst⟩, -⟩ := (h.found_iff place target).1 hfind
    obtain rfl := (h.targets_of_found hfind).2 action haction
    exact .found place first hfind hplace hfirst
  | ambiguous candidates =>
    apply Leads.ambiguous candidates hfind
    rw [((h.ambiguous_iff candidates).1 hfind).2, List.mem_eraseDups]
    exact List.mem_map_of_mem haction

/-- A reference that matches an action which has not been moved matches it
wherever it is moved. -/
theorem Matches.of_moved {action moved : Action} (h : Matches reference action)
    (hsame : action.target = action.canonical)
    (hcanonical : moved.canonical = action.canonical) :
    Matches reference moved := by
  obtain ⟨hname, hschema, hdatabase⟩ := h
  rw [hsame] at hschema hdatabase
  rw [Matches, hcanonical]
  exact ⟨hname, fun hgiven => Or.inr (or_self_iff.1 (hschema hgiven)),
    fun hgiven => Or.inr (or_self_iff.1 (hdatabase hgiven))⟩

/-- A reference with all its parts matches one target only, where no action has
been moved. -/
theorem Matches.target_eq {action : Action} (h : Matches reference action)
    (hsame : action.target = action.canonical)
    (hschema : reference.schema.isSome)
    (hdatabase : reference.database.isSome) :
    action.target = ⟨reference.database, reference.schema, reference.name⟩ := by
  obtain ⟨hname, hschemas, hdatabases⟩ := h
  rw [hsame] at hschemas hdatabases ⊢
  rw [or_self_iff.1 (hschemas hschema),
    or_self_iff.1 (hdatabases hdatabase), ← hname]

end Registry

namespace Link

open Registry (Leads Matches)

variable {settled moved : Registry}

/-- An action of a registry and the action at the same place of one with the
same canonical targets. -/
theorem exists_moved (hcanonical : moved.actions.map (·.canonical) =
      settled.actions.map (·.canonical)) {place : Nat} {action : Action}
    (hplace : settled.actions[place]? = some action) :
    ∃ other, moved.actions[place]? = some other ∧
      other.canonical = action.canonical := by
  have hsame := congrArg (·[place]?) hcanonical
  simp only [List.getElem?_map, hplace, Option.map_some] at hsame
  exact Option.map_eq_some_iff.1 hsame

/-- Two registries have the same actions, in one of which none has been moved. A
reference that finds an action there leads to the target of the same action in
the other registry. Where nothing has been moved, a reference with all its parts
is not ambiguous. -/
theorem leads_of_found (hsettled : Evolved settled) (hmoved : Evolved moved)
    (hcanonical : moved.actions.map (·.canonical) =
      settled.actions.map (·.canonical))
    (hsame : ∀ action ∈ settled.actions, action.target = action.canonical)
    (reference : Reference) :
    (∀ place target, settled.find reference = .found place target →
      ∃ action, moved.actions[place]? = some action ∧
        Leads moved reference action.target) ∧
      (reference.schema.isSome → reference.database.isSome →
        ∀ targets, settled.find reference ≠ .ambiguous targets) := by
  constructor
  · intro place target hfind
    obtain ⟨⟨action, hplace, hmatches, -⟩, -⟩ :=
      ((hsettled.indexed.findExact reference).found_iff place target).1 hfind
    obtain ⟨other, hother, hcanonicals⟩ := exists_moved hcanonical hplace
    have hstill : Matches reference other :=
      hmatches.of_moved (hsame action (List.mem_of_getElem? hplace)) hcanonicals
    refine ⟨other, hother, (hmoved.indexed.findExact reference).leads ?_⟩
    exact List.mem_filter.2 ⟨List.mem_of_getElem? hother, decide_eq_true hstill⟩
  · intro hschema hdatabase targets hfind
    have htarget : ∀ action ∈ settled.matching reference, action.target =
        ⟨reference.database, reference.schema, reference.name⟩ := by
      intro action haction
      obtain ⟨hmem, hmatches⟩ := List.mem_filter.1 haction
      exact (of_decide_eq_true hmatches).target_eq
        (hsame action hmem) hschema hdatabase
    obtain ⟨⟨left, hleft, right, hright, hne⟩, -⟩ :=
      ((hsettled.indexed.findExact reference).ambiguous_iff targets).1 hfind
    exact hne ((htarget left hleft).trans (htarget right hright).symm)

/-- Orders of a schema, in the schema where an environment puts them. -/
def ordersAt (schema place : String) : Action :=
  { ordersIn schema with
    target := ⟨some "prod", some place, "orders"⟩,
      canonical := ⟨some "prod", some schema, "orders"⟩ }

/-- Orders in two schemas, each in a place that is given. -/
def ordersOf (shop archive : String) : Registry :=
  (Registry.empty.register (ordersAt "shop" shop) .nothing).register
    (ordersAt "archive" archive) .nothing

/-- Where the archive is moved to the schema of the shop, the orders of the shop
are one of two candidates. -/
theorem leads_of_found_orders :
    (ordersOf "shop" "archive").find (.qualified none "shop" "orders") =
      .found 0 ⟨some "prod", some "shop", "orders"⟩ ∧
      (ordersOf "shop_dev" "shop").find (.qualified none "shop" "orders") =
        .ambiguous [⟨some "prod", some "shop_dev", "orders"⟩,
          ⟨some "prod", some "shop", "orders"⟩] ∧
      Leads (ordersOf "shop_dev" "shop") (.qualified none "shop" "orders")
        ⟨some "prod", some "shop_dev", "orders"⟩ ∧
      ∀ targets, (ordersOf "shop" "archive").find
        (.qualified (some "prod") "shop" "orders") ≠
        .ambiguous targets := by
  have hevolved (shop archive : String) : Evolved (ordersOf shop archive) :=
    .register _ _ (.register _ _ .empty)
  have hlookups := leads_of_found (hevolved "shop" "archive")
    (hevolved "shop_dev" "shop") rfl (by decide +kernel)
  have hfind :
      (ordersOf "shop" "archive").find (.qualified none "shop" "orders") =
        .found 0 ⟨some "prod", some "shop", "orders"⟩ := by decide +kernel
  obtain ⟨action, hplace, hleads⟩ :=
    (hlookups (.qualified none "shop" "orders")).1 _ _ hfind
  have haction : action = ordersAt "shop" "shop_dev" :=
    (Option.some.inj hplace).symm
  rw [haction] at hleads
  exact ⟨hfind, by decide +kernel, hleads,
    (hlookups (.qualified (some "prod") "shop" "orders")).2 rfl rfl⟩

end Link

end SqlWorkflow
