import SqlWorkflow.Proofs.Registry.Reordered
import SqlWorkflow.Proofs.Text.Pieces

/-!
# Candidates that are suggested

An ambiguity is reported with a text for each candidate: the schema and the name
of its target. Written as a dependency, the text leads back to the target if it
is read as this schema and this name, if the name is one that an action with the
target is found by, and if no other target is meant by both. References are
looked up by canonical name, and the text is taken from the effective target, so
a prefix of the environment makes all suggestions useless.
-/

namespace SqlWorkflow

/-- The name and the schema of a target hold no dot. -/
def Target.Undotted (t : Target) : Prop :=
  '.' ∉ t.name.toList ∧ ∀ schema ∈ t.schema, '.' ∉ schema.toList

/-- The text that is suggested for a target is read as its schema and its
name. -/
theorem Reference.parse_qualifiedName {t : Target} (h : t.Undotted) :
    Reference.parse t.qualifiedName = ⟨none, t.schema, t.name, none⟩ := by
  obtain ⟨database, schema, name⟩ := t
  obtain ⟨hname, hschema⟩ := h
  cases schema with
  | none =>
    have hpieces : Text.split '.' name = [name] := by
      rw [Text.split, Text.splitOn_of_not_mem hname, List.map_singleton,
        String.ofList_toList]
    have htext : Target.qualifiedName ⟨database, none, name⟩ = name := by
      simp [Target.qualifiedName, Target.dotted]
    rw [htext, Reference.parse, hpieces]
    rfl
  | some schema =>
    have htext : (Target.qualifiedName ⟨database, some schema, name⟩).toList =
        schema.toList ++ '.' :: name.toList := by
      simp [Target.qualifiedName, Target.dotted]
    have hpieces :
        Text.split '.' (Target.qualifiedName ⟨database, some schema, name⟩) =
          [schema, name] := by
      rw [Text.split, htext, Text.splitOn_append (hschema schema rfl),
        Text.splitOn_of_not_mem hname]
      simp
    rw [Reference.parse, hpieces]
    rfl

namespace Registry

variable {r : Registry}

/-- A reference finds a target if it matches some actions, and all of them have
the target. -/
theorem Indexed.exists_found_iff (h : Indexed r) (reference : Reference)
    (target : Target) :
    (∃ place, r.find reference = .found place target) ↔
      (∃ action ∈ r.actions, Matches reference action ∧
        action.target = target) ∧
        ∀ action ∈ r.actions, Matches reference action →
          action.target = target := by
  have hexact := h.findExact reference
  constructor
  · rintro ⟨place, hfind⟩
    obtain ⟨⟨action, hplace, hmatches, htarget⟩, hall⟩ :=
      (hexact.found_iff place target).1 hfind
    refine ⟨⟨action, List.mem_of_getElem? hplace, hmatches, htarget⟩, ?_⟩
    intro other hother hmatches
    obtain ⟨place, hplace⟩ := List.getElem?_of_mem hother
    exact (hall place other hplace hmatches).2
  · rintro ⟨⟨action, haction, hmatches, -⟩, hall⟩
    have hmatching : action ∈ r.matching reference :=
      List.mem_filter.2 ⟨haction, decide_eq_true hmatches⟩
    cases hfind : r.find reference with
    | missing =>
      rw [hexact.missing_iff.1 hfind] at hmatching
      cases hmatching
    | found place other =>
      obtain ⟨⟨first, hplace, hfirst, rfl⟩, -⟩ :=
        (hexact.found_iff place other).1 hfind
      obtain rfl := hall first (List.mem_of_getElem? hplace) hfirst
      exact ⟨place, rfl⟩
    | ambiguous targets =>
      obtain ⟨⟨left, hleft, right, hright, hne⟩, -⟩ :=
        (hexact.ambiguous_iff targets).1 hfind
      obtain ⟨hleft, hleftMatches⟩ := List.mem_filter.1 hleft
      obtain ⟨hright, hrightMatches⟩ := List.mem_filter.1 hright
      have hsame := (hall left hleft (of_decide_eq_true hleftMatches)).trans
        (hall right hright (of_decide_eq_true hrightMatches)).symm
      exact absurd hsame hne

/-- A candidate is the target of an action that matches the reference. -/
theorem FindExact.exists_of_mem {reference : Reference}
    (h : FindExact r reference) {candidates : List Target}
    (hfind : r.find reference = .ambiguous candidates) {t : Target}
    (ht : t ∈ candidates) :
    ∃ action ∈ r.actions, Matches reference action ∧ action.target = t := by
  rw [((h.ambiguous_iff candidates).1 hfind).2, List.mem_eraseDups] at ht
  obtain ⟨action, haction, htarget⟩ := List.mem_map.1 ht
  obtain ⟨hmem, hmatches⟩ := List.mem_filter.1 haction
  exact ⟨action, hmem, of_decide_eq_true hmatches, htarget⟩

/-- Every action that is found by the name of a target, and is in its schema
under either of its own targets, has this target. -/
def AloneIn (r : Registry) (t : Target) : Prop :=
  ∀ action ∈ r.actions, action.canonical.name = t.name →
    (t.schema.isSome →
      t.schema = action.target.schema ∨ t.schema = action.canonical.schema) →
    action.target = t

/-- A reference by the schema and the name of a target finds the target if an
action that has it is found by its name, and no other target is meant. -/
theorem Indexed.exists_found_schemaName_iff (h : Indexed r) (t : Target) :
    (∃ place, r.find ⟨none, t.schema, t.name, none⟩ = .found place t) ↔
      (∃ action ∈ r.actions, action.target = t ∧
        action.canonical.name = t.name) ∧ AloneIn r t := by
  have hmatches (action : Action) :
      Matches ⟨none, t.schema, t.name, none⟩ action ↔
        action.canonical.name = t.name ∧
          (t.schema.isSome → t.schema = action.target.schema ∨
            t.schema = action.canonical.schema) := by
    simp [Matches]
  have hnamed (action : Action) :
      Matches ⟨none, t.schema, t.name, none⟩ action ∧ action.target = t ↔
        action.target = t ∧ action.canonical.name = t.name := by
    rw [hmatches]
    constructor
    · rintro ⟨⟨hname, -⟩, htarget⟩
      exact ⟨htarget, hname⟩
    · rintro ⟨htarget, hname⟩
      exact ⟨⟨hname, fun _ => Or.inl (by rw [htarget])⟩, htarget⟩
  rw [h.exists_found_iff]
  simp only [hnamed]
  simp only [hmatches, and_imp, AloneIn]

/-- The text that is suggested for a candidate leads to its target exactly if
what it is read as matches actions with this target only. Without dots in the
schema and the name this means: the name is the one that was asked for, or
another action with the target is found by it, and the target is alone in its
schema. -/
theorem found_qualifiedName_iff (h : Reachable r) {reference : Reference}
    {candidates : List Target}
    (hfind : r.find reference = .ambiguous candidates) {t : Target}
    (ht : t ∈ candidates) :
    ((∃ place, r.find (Reference.parse t.qualifiedName) = .found place t) ↔
      (∃ action ∈ r.actions, Matches (Reference.parse t.qualifiedName) action ∧
        action.target = t) ∧
        ∀ action ∈ r.actions, Matches (Reference.parse t.qualifiedName) action →
          action.target = t) ∧
      (t.Undotted →
        ((∃ place, r.find (Reference.parse t.qualifiedName) = .found place t) ↔
          (t.name = reference.name ∨ ∃ action ∈ r.actions,
            action.target = t ∧ action.canonical.name = t.name) ∧
            AloneIn r t)) := by
  refine ⟨h.indexed.exists_found_iff _ t, fun hundotted => ?_⟩
  rw [Reference.parse_qualifiedName hundotted,
    h.indexed.exists_found_schemaName_iff]
  apply and_congr_left'
  constructor
  · exact Or.inr
  · rintro (hname | hnamed)
    · obtain ⟨action, haction, ⟨hcanonical, -⟩, htarget⟩ :=
        (h.indexed.findExact reference).exists_of_mem hfind ht
      exact ⟨action, haction, htarget, hcanonical.trans hname.symm⟩
    · exact hnamed

/-- Orders of a schema, under the settings of an environment. -/
def ordersUnder (settings : Settings.Pair) (schema : String) : Action :=
  let targets :=
    Target.resolveBoth settings ⟨none, some schema, "orders"⟩ .table
  ⟨targets.target, targets.canonical, "definitions/" ++ schema ++ "/orders.sql",
    false, [], [], false, none, [], .operation ⟨["SELECT 1"], false⟩⟩

/-- Orders of two schemas. -/
def salesAndReturns (settings : Settings.Pair) : Registry :=
  (Registry.empty.register (ordersUnder settings "sales") .nothing).register
    (ordersUnder settings "returns") .nothing

theorem found_qualifiedName_sales :
    (salesAndReturns ⟨.empty, .empty⟩).find (.named "orders") =
      .ambiguous
        [⟨none, some "sales", "orders"⟩, ⟨none, some "returns", "orders"⟩] ∧
      ∃ place, (salesAndReturns ⟨.empty, .empty⟩).find (Reference.parse
        (Target.qualifiedName ⟨none, some "sales", "orders"⟩)) =
        .found place ⟨none, some "sales", "orders"⟩ := by
  have hfind : (salesAndReturns ⟨.empty, .empty⟩).find (.named "orders") =
      .ambiguous [⟨none, some "sales", "orders"⟩,
        ⟨none, some "returns", "orders"⟩] := by decide +kernel
  have hundotted : Target.Undotted ⟨none, some "sales", "orders"⟩ := by
    refine ⟨by decide +kernel, ?_⟩
    rintro schema ⟨⟩
    decide +kernel
  have halone : AloneIn (salesAndReturns ⟨.empty, .empty⟩)
      ⟨none, some "sales", "orders"⟩ := by
    unfold AloneIn
    decide +kernel
  exact ⟨hfind, ((found_qualifiedName_iff (.register _ _ (.register _ _ .empty))
    hfind List.mem_cons_self).2 hundotted).2 ⟨Or.inl rfl, halone⟩⟩

/-- Under a prefix no suggestion leads anywhere: the texts have the prefix, and
actions are found without it. -/
theorem qualifiedName_missing :
    let settings : Settings.Pair :=
      ⟨{ Settings.Config.empty with tablePrefix := some "dev" }, .empty⟩
    Reachable (salesAndReturns settings) ∧
      (salesAndReturns settings).find (.named "orders") =
        .ambiguous [⟨none, some "sales", "dev_orders"⟩,
          ⟨none, some "returns", "dev_orders"⟩] ∧
      (salesAndReturns settings).find (Reference.parse
        (Target.qualifiedName ⟨none, some "sales", "dev_orders"⟩)) = .missing ∧
      (salesAndReturns settings).find (Reference.parse
        (Target.qualifiedName ⟨none, some "returns", "dev_orders"⟩)) =
        .missing :=
  ⟨.register _ _ (.register _ _ .empty), by decide +kernel, by
    decide +kernel, by decide +kernel⟩

end Registry

end SqlWorkflow
