import SqlWorkflow.Compile.Basic
import SqlWorkflow.Proofs.Registry.Indexed

/-!
# Linking keeps the indexes exact

Linking replaces every action by one with the same target, canonical target and
parent. The indexes of the registry therefore hold for the linked actions as
well, and whatever is looked up later is looked up rightly.
-/

namespace SqlWorkflow

namespace Registry

def keysOf (action : Action) : Target × Target × Option Target :=
  (action.target, action.canonical, action.parent?)

theorem actions_withActions {r : Registry} {actions : List Action}
    (hlength : actions.length = r.size) :
    (r.withActions actions).actions = actions := by
  have hentries : r.entries.length = actions.length := hlength.symm
  apply List.ext_getElem
  · simp [Registry.actions, withActions, hentries]
  · simp [Registry.actions, withActions]

/-- Exchanging actions for others with the same keys keeps the indexes exact. -/
theorem Indexed.withActions {r : Registry} (h : Indexed r)
    {actions : List Action}
    (hkeys : actions.map keysOf = r.actions.map keysOf) :
    Indexed (r.withActions actions) := by
  have hlength : actions.length = r.size := by
    simpa [length_actions] using congrArg List.length hkeys
  have hplaces (p : Target × Target × Option Target → Bool) :
      (r.withActions actions).actions.findIdxs (p ∘ keysOf) =
        r.actions.findIdxs (p ∘ keysOf) := by
    rw [actions_withActions hlength, ← List.findIdxs_map,
      ← List.findIdxs_map, hkeys]
  exact
    { byName := fun name => (h.byName name).trans (hplaces fun keys =>
      keys.2.1.name = name).symm
      byTarget := fun target =>
        (h.byTarget target).trans (hplaces fun keys => keys.1 = target).symm
      byCanonical := fun target =>
        (h.byCanonical target).trans
          (hplaces fun keys => keys.2.1 = target).symm
      byParent := fun parent =>
        (h.byParent parent).trans
          (hplaces fun keys => keys.2.2 = some parent).symm }

end Registry

namespace Link

open Registry (Indexed Reachable keysOf)

/-- Filling in SQL leaves the parent of an assertion as it is. -/
theorem parent?_applyTo (action : Action) (dependencies : List Target)
    (sql : Sql) :
    { action with
      dependencies := dependencies, body := sql.applyTo action.body }.parent? =
      action.parent? := by
  obtain ⟨_, _, _, _, _, _, _, _, _, body⟩ := action
  cases body <;> cases sql <;> rfl

theorem keysOf_linkEntry (r : Registry) (surroundings : Surroundings)
    (entry : Registry.Entry) :
    keysOf (linkEntry r surroundings entry).action = keysOf entry.action := by
  have hparent := parent?_applyTo entry.action
    (linkEntry r surroundings entry).action.dependencies
    (renderedSql r surroundings entry).value
  change (_, _, _) = (_, _, _)
  rw [← hparent]
  rfl

/-- A linked registry has the keys of the one that was linked. -/
theorem indexed_linked {r : Registry} (h : Indexed r)
    (surroundings : Surroundings) : Indexed (linked r surroundings) := by
  apply h.withActions
  simp only [outcomes, Registry.actions, List.map_map]
  apply List.map_congr_left
  intro entry _
  exact keysOf_linkEntry r surroundings entry

theorem actions_linked (r : Registry) (surroundings : Surroundings) :
    (linked r surroundings).actions =
      (outcomes r surroundings).map (·.action) := by
  apply Registry.actions_withActions
  rw [List.length_map, outcomes, List.length_map]
  rfl

end Link

namespace Compile

open Registry (Reachable)

theorem Build.reachable_add {build : Build} (h : Reachable build.registry)
    (settings : Settings.Pair)
    (finding : Finding) : Reachable (build.add settings finding).registry := by
  cases finding with
  | diagnostic d => exact h
  | definition d => exact .synthesize _ _ _ _ _ (.register _ _ h)

/-- The first phase of a compilation builds a registry. -/
theorem Build.reachable_ofFindings (settings : Settings.Pair)
    (findings : List Finding) :
    Reachable (Build.ofFindings settings findings).registry := by
  suffices h : ∀ build : Build, Reachable build.registry →
      Reachable (findings.foldl (Build.add settings) build).registry from h
        .empty .empty
  induction findings with
  | nil =>
    intro build h
    exact h
  | cons finding rest ih =>
    intro build h
    apply ih
    exact Build.reachable_add h settings finding

end Compile

end SqlWorkflow
