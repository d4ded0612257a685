import Mathlib.Data.List.Induction
import SqlWorkflow.Proofs.Registry.Additions

/-!
# What the indexes of a registry hold

A registry is built by registering actions, one at a time or with the assertions
for their checks. Every registry built so has indexes that list, for each key,
exactly the places of the actions with that key, in the order of registration.
-/

namespace SqlWorkflow

namespace Registry

namespace Index

variable {κ : Type} [DecidableEq κ]

/-- If no key is repeated, every key has one place at most. -/
theorem length_places_le_one {index : Index κ} (h : index.repeated = [])
    (key : κ) : (places key index).length ≤ 1 := by
  induction index with
  | nil => exact Nat.zero_le 1
  | cons entry rest ih =>
    obtain ⟨k, ps⟩ := entry
    have hall := List.filter_eq_nil_iff.1 h
    have hrest : repeated rest = [] :=
      List.filter_eq_nil_iff.2 fun other hother =>
        hall other (List.mem_cons_of_mem _ hother)
    have hhead : ps.length ≤ 1 := by simpa using hall (k, ps) List.mem_cons_self
    rw [places]
    split
    · exact hhead
    · exact ih hrest

end Index

/-- The members of a list at the places where a condition holds are those that
satisfy it. -/
theorem filterMap_getElem?_findIdxs {α : Type} (p : α → Bool) (as : List α) :
    (as.findIdxs p).filterMap (fun place => as[place]?) = as.filter p := by
  induction as using List.reverseRecOn with
  | nil => rfl
  | append_singleton as a ih =>
    have hbefore :
        (as.findIdxs p).filterMap (fun place => (as ++ [a])[place]?) =
          (as.findIdxs p).filterMap (fun place => as[place]?) := by
      apply List.filterMap_congr
      intro place hplace
      have hlt : place < as.length := by
        simpa using List.lt_add_of_mem_findIdxs place hplace
      exact List.getElem?_append_left hlt
    rw [List.findIdxs_append, List.filterMap_append, hbefore, ih,
      List.filter_append]
    cases hp : p a <;> simp [hp]

/-- The indexes list exactly the places of the actions with each key. -/
structure Indexed (r : Registry) : Prop where
  byName : ∀ name, r.byName.places name =
    r.actions.findIdxs (fun action => action.canonical.name = name)
  byTarget : ∀ target, r.byTarget.places target =
    r.actions.findIdxs (fun action => action.target = target)
  byCanonical : ∀ target, r.byCanonical.places target =
    r.actions.findIdxs (fun action => action.canonical = target)
  byParent : ∀ parent, r.byParent.places parent =
    r.actions.findIdxs (fun action => action.parent? = some parent)

inductive Reachable : Registry → Prop
  | empty : Reachable .empty
  | register {r : Registry} (action : Action) (pending : Pending)
      (h : Reachable r) : Reachable (r.register action pending)
  | synthesize {r : Registry} (settings : Settings.Pair) (warehouse : Warehouse)
      (parent : Action) (parentDatabase : Option String)
      (checks : Action.Checks) (h : Reachable r) :
      Reachable (r.synthesize settings warehouse parent parentDatabase checks)

theorem indexed_empty : Indexed .empty where
  byName _ := rfl
  byTarget _ := rfl
  byCanonical _ := rfl
  byParent _ := rfl

/-- Entries at the end keep the indexes right. -/
theorem Indexed.of_gains {r next : Registry} {added : List Entry}
    (h : Indexed r) (hgains : Gains r next added) : Indexed next := by
  have hsplit (p : Action → Bool) : next.actions.findIdxs p =
      r.actions.findIdxs p ++
        added.findIdxs (fun entry => p entry.action) r.size := by
    rw [hgains.actions, List.findIdxs_append, List.findIdxs_map, length_actions,
      Nat.zero_add]
    rfl
  exact
    { byName := fun name => by rw [hsplit, hgains.byName, h.byName]
      byTarget := fun target => by rw [hsplit, hgains.byTarget, h.byTarget]
      byCanonical := fun target => by
        rw [hsplit, hgains.byCanonical, h.byCanonical]
      byParent := fun parent => by rw [hsplit, hgains.byParent, h.byParent] }

theorem Reachable.indexed {r : Registry} (h : Reachable r) : Indexed r := by
  induction h with
  | empty => exact indexed_empty
  | register action pending _ ih =>
    exact ih.of_gains (gains_register _ action pending)
  | synthesize settings warehouse parent parentDatabase checks _ ih =>
    exact ih.of_gains
      (gains_synthesize _ settings warehouse parent parentDatabase checks)

/-- What registering an action preserves, making assertions for data checks
preserves as well. -/
theorem preserved_synthesize {P : Registry → Prop}
    (hregister : ∀ r action pending, P r →
      P (Registry.register r action pending)) {r : Registry} (h : P r)
    (settings : Settings.Pair) (warehouse : Warehouse) (parent : Action)
    (parentDatabase : Option String) (checks : Action.Checks) :
    P (r.synthesize settings warehouse parent parentDatabase checks) := by
  rw [Registry.synthesize]
  generalize assertionsFor settings warehouse parent parentDatabase checks =
    assertions
  induction assertions generalizing r with
  | nil => exact h
  | cons assertion rest ih => exact ih (hregister r assertion .nothing h)

theorem action?_eq (r : Registry)
    (place : Nat) : r.action? place = r.actions[place]? := by
  rw [action?, actions, List.getElem?_map]

namespace Indexed

variable {r : Registry}

/-- A place that a target leads to is that of an action with the target. -/
theorem target_of_placeOf? (h : Indexed r) {target : Target} {place : Nat}
    (hplace : r.placeOf? target = some place) :
    ∃ action, r.actions[place]? = some action ∧ action.target = target := by
  rw [placeOf?, h.byTarget] at hplace
  have hmem := List.mem_of_head? hplace
  obtain ⟨hlt, hp⟩ := List.mem_findIdxs_iff_exists_getElem_pos.1 hmem
  exact ⟨r.actions[place], List.getElem?_eq_getElem hlt, of_decide_eq_true hp⟩

theorem exists_placeOf? (h : Indexed r) {action : Action}
    (haction : action ∈ r.actions) :
    ∃ place, r.placeOf? action.target = some place := by
  have hne :
      r.actions.findIdxs (fun other => other.target = action.target) ≠ [] := by
    intro hnil
    have hnone := List.findIdxs_eq_nil_iff.1 hnil action haction
    simp at hnone
  rw [placeOf?, h.byTarget]
  exact ⟨_, List.head?_eq_some_head hne⟩

/-- The places of the assertions of a target are those of the actions that have
it as their parent. -/
theorem filterMap_assertionsOf (h : Indexed r) (parent : Target) :
    (r.assertionsOf parent).filterMap r.action? =
      r.actions.filter (fun action => action.parent? = some parent) := by
  have hactions : r.action? = fun place => r.actions[place]? := by
    funext place
    exact r.action?_eq place
  rw [assertionsOf, h.byParent, hactions]
  exact filterMap_getElem?_findIdxs _ r.actions

end Indexed

theorem nodup_map_of_count {α β : Type} [DecidableEq β] (key : α → β)
    (as : List α)
    (h : ∀ b, as.countP (fun a => key a = b) ≤ 1) : (as.map key).Nodup := by
  rw [List.nodup_iff_count_le_one]
  intro b
  calc
    (as.map key).count b = as.countP (fun a => key a = b) := by
      rw [List.count_eq_countP, List.countP_map]
      apply List.countP_congr
      simp
    _ ≤ 1 := h b

theorem Indexed.nodup_targets {r : Registry} (h : Indexed r)
    (hnone : r.duplicateTargets = []) : (r.actions.map (·.target)).Nodup := by
  apply nodup_map_of_count
  intro target
  rw [← List.length_findIdxs, ← h.byTarget]
  exact Index.length_places_le_one hnone target

theorem Indexed.nodup_canonicals {r : Registry} (h : Indexed r)
    (hnone : r.duplicateCanonicals = []) :
    (r.actions.map (·.canonical)).Nodup := by
  apply nodup_map_of_count
  intro target
  rw [← List.length_findIdxs, ← h.byCanonical]
  exact Index.length_places_le_one hnone target

end Registry

end SqlWorkflow
