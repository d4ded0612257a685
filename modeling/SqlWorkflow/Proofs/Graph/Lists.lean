import Mathlib.Data.List.Perm.Basic
import SqlWorkflow.Graph.Basic

/-!
# The lists of a graph

The lists are filled action by action. What the whole pass gives is said here:
the list of a variant holds the actions of the variant in the order in which the
graph has them, so that the six lists cut the actions into classes, and no
action is counted twice or left out.
-/

namespace SqlWorkflow

/-- The variants, in the order of their lists in a graph. -/
def Action.Variant.all : List Variant :=
  [.table, .operation, .assertion, .declaration, .notebook, .dataPreparation]

theorem Action.Variant.nodup_all : Variant.all.Nodup := by decide

theorem Action.Variant.mem_all (variant : Variant) : variant ∈ Variant.all := by
  cases variant <;> decide

namespace Graph

namespace Lists

theorem ofVariant_push (lists : Lists) (action : Action)
    (variant : Action.Variant) :
    (lists.push action).ofVariant variant =
      lists.ofVariant variant ++ [action].filter (·.variant = variant) := by
  have hvariant : action.variant = action.body.variant := rfl
  rw [List.filter_singleton, hvariant, push]
  cases action.body <;> cases variant <;> simp [ofVariant, Action.Body.variant]

theorem targets_push (lists : Lists) (action : Action) :
    (lists.push action).targets =
      Target.addTo lists.targets action.target := by
  rw [push]
  cases action.body <;> rfl

/-- A pass over actions adds to the list of a variant those of the variant. -/
theorem ofVariant_foldl (lists : Lists) (actions : List Action)
    (variant : Action.Variant) :
    (actions.foldl push lists).ofVariant variant =
      lists.ofVariant variant ++ actions.filter (·.variant = variant) := by
  induction actions generalizing lists with
  | nil => rw [List.foldl_nil, List.filter_nil, List.append_nil]
  | cons action rest ih =>
    rw [List.foldl_cons, ih, ofVariant_push, List.append_assoc,
      ← List.filter_append, List.singleton_append]

theorem targets_foldl (lists : Lists) (actions : List Action) :
    (actions.foldl push lists).targets =
      (actions.map (·.target)).foldl Target.addTo lists.targets := by
  induction actions generalizing lists with
  | nil => rfl
  | cons action rest ih =>
    rw [List.foldl_cons, ih, targets_push, List.map_cons, List.foldl_cons]

/-- The six lists, one after the other, have as many actions as are counted. -/
theorem length_flatMap_ofVariant (lists : Lists) :
    (Action.Variant.all.flatMap lists.ofVariant).length = lists.size := by
  simp only [Action.Variant.all, List.flatMap_cons, List.flatMap_nil,
    List.length_append, List.length_nil, ofVariant, size]
  omega

end Lists

theorem ofVariant_eq_filter (graph : Graph) (variant : Action.Variant) :
    graph.ofVariant variant =
      graph.actions.filter (·.variant = variant) := by
  rw [ofVariant, lists, Lists.ofVariant_foldl]
  cases variant <;> rfl

theorem targets_eq_distinct (graph : Graph) :
    graph.targets = Target.distinct (graph.actions.map (·.target)) := by
  rw [targets, lists, Lists.targets_foldl, Target.distinct]

/-- The lists of a graph hold its actions, each in the list of its variant
only, and in the order in which the graph has them. -/
structure Listed (graph : Graph) : Prop where
  mem_ofVariant : ∀ action variant,
    action ∈ graph.ofVariant variant ↔
      action ∈ graph.actions ∧ variant = action.variant
  ordered : ∀ variant, (graph.ofVariant variant).Sublist graph.actions
  perm : (Action.Variant.all.flatMap graph.ofVariant).Perm graph.actions
  size : graph.size =
    (graph.ofVariant .table).length + (graph.ofVariant .operation).length +
      (graph.ofVariant .assertion).length +
      (graph.ofVariant .declaration).length +
      (graph.ofVariant .notebook).length +
      (graph.ofVariant .dataPreparation).length
  size_actions : graph.size = graph.actions.length

/-- The members of a list whose class is among some, class by class. -/
theorem perm_flatMap_filter {α κ : Type} [DecidableEq κ] (classOf : α → κ)
    {classes : List κ} (hnodup : classes.Nodup) (as : List α) :
    (classes.flatMap fun k => as.filter (classOf · = k)).Perm
      (as.filter (classOf · ∈ classes)) := by
  induction classes with
  | nil => simp
  | cons k ks ih =>
    obtain ⟨hfresh, hks⟩ := List.nodup_cons.1 hnodup
    have hfirst : (as.filter (classOf · ∈ k :: ks)).filter (classOf · = k) =
        as.filter (classOf · = k) := by
      rw [List.filter_filter]
      apply List.filter_congr
      intro a _
      simp +contextual
    have hrest : (as.filter (classOf · ∈ k :: ks)).filter
        (fun a => !decide (classOf a = k)) = as.filter (classOf · ∈ ks) := by
      rw [List.filter_filter]
      apply List.filter_congr
      intro a _
      by_cases hk : classOf a = k
      · simp [hk, hfresh]
      · simp [hk]
    have hcut := List.filter_append_perm (fun a => decide (classOf a = k))
      (as.filter (classOf · ∈ k :: ks))
    rw [hfirst, hrest] at hcut
    rw [List.flatMap_cons]
    exact ((ih hks).append_left _).trans hcut

theorem perm_flatMap_ofVariant (graph : Graph) :
    (Action.Variant.all.flatMap graph.ofVariant).Perm graph.actions := by
  have hall :
      graph.actions.filter (·.variant ∈ Action.Variant.all) = graph.actions :=
    List.filter_eq_self.2 fun action _ =>
      decide_eq_true (Action.Variant.mem_all action.variant)
  have hperm :=
    perm_flatMap_filter Action.variant Action.Variant.nodup_all graph.actions
  rw [hall] at hperm
  rw [funext graph.ofVariant_eq_filter]
  exact hperm

theorem listed (graph : Graph) : graph.Listed where
  mem_ofVariant action variant := by
    rw [ofVariant_eq_filter, List.mem_filter, decide_eq_true_iff, eq_comm]
  ordered variant := by
    rw [ofVariant_eq_filter]
    exact List.filter_sublist
  perm := graph.perm_flatMap_ofVariant
  size := rfl
  size_actions :=
    (Lists.length_flatMap_ofVariant graph.lists).symm.trans
      graph.perm_flatMap_ofVariant.length_eq

end Graph

end SqlWorkflow
