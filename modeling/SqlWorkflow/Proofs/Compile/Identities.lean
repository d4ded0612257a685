import SqlWorkflow.Proofs.Action.Checks
import SqlWorkflow.Proofs.Graph.Lists
import SqlWorkflow.Proofs.Link.Linked

/-!
# What identifies the actions of a graph

Every action of a graph comes from a definition or from a data check of one. Its
variant and its canonical target follow from the definition and from the
canonical settings; the active settings, the SQL, and what linking does have no
part in them.
-/

namespace SqlWorkflow

/-- The variant of an action, and its canonical target. -/
def Action.identity (action : Action) : Action.Variant × Target :=
  (action.variant, action.canonical)

namespace Graph

/-- The canonical targets of the actions of a variant, in order. -/
def canonicalTargets (graph : Graph) (variant : Action.Variant) : List Target :=
  (graph.ofVariant variant).map (·.canonical)

theorem canonicalTargets_eq (graph : Graph) (variant : Action.Variant) :
    graph.canonicalTargets variant =
      ((graph.actions.map Action.identity).filter (·.1 = variant)).map
        (·.2) := by
  rw [canonicalTargets, ofVariant_eq_filter, List.filter_map, List.map_map]
  rfl

end Graph

namespace Link

theorem variant_applyTo (sql : Sql) (body : Action.Body) :
    (sql.applyTo body).variant = body.variant := by
  cases body <;> cases sql <;> rfl

/-- Linking changes the identity of no action. -/
theorem identities_linked (r : Registry) (surroundings : Surroundings) :
    (linked r surroundings).actions.map Action.identity =
      r.actions.map Action.identity := by
  rw [actions_linked, outcomes, Registry.actions, List.map_map, List.map_map,
    List.map_map]
  apply List.map_congr_left
  intro entry _
  exact Prod.ext (variant_applyTo _ _) rfl

end Link

namespace Registry

theorem actions_synthesize (r : Registry) (settings : Settings.Pair)
    (warehouse : Warehouse) (parent : Action) (parentDatabase : Option String)
    (checks : Action.Checks) :
    (r.synthesize settings warehouse parent parentDatabase checks).actions =
      r.actions ++
        assertionsFor settings warehouse parent parentDatabase checks := by
  rw [(gains_synthesize r settings warehouse parent parentDatabase
    checks).actions, List.map_map]
  exact congrArg (r.actions ++ ·) (List.map_id _)

/-- The assertions for data checks are identified by the canonical settings and
the canonical target of the action that is checked. -/
theorem identities_assertionsFor (settings : Settings.Pair)
    (warehouse : Warehouse) (parent : Action) (parentDatabase : Option String)
    (checks : Action.Checks) :
    (assertionsFor settings warehouse parent parentDatabase checks).map
      Action.identity =
      checks.words.map fun word =>
        (.assertion, Target.resolve settings.canonical ⟨parentDatabase, none,
          Target.assertionName parent.canonical word⟩ .assertion) := by
  rw [assertionsFor, ← Action.Checks.map_fst_queries_eq_words warehouse
    parent.target, List.map_map, List.map_map]
  rfl

end Registry

namespace Compile

/-- The content of a definition without its text. -/
def Content.bare : Content → Content
  | .sql _ _ _ => .sql .none false none
  | .notebook _ => .notebook ""
  | .preparation _ => .preparation (.yaml "")
  | .nothing => .nothing

theorem variant_bodyOf (settings other : Settings.Pair)
    (details : Action.Details) (content : Content) :
    (bodyOf settings details content).variant =
      (bodyOf other details content.bare).variant := by
  cases details <;> cases content <;> rfl

namespace Definition

/-- A definition without the text that its action is compiled from. -/
def bare (d : Definition) : Definition := { d with content := d.content.bare }

/-- The actions that a definition gives rise to: its own, and the assertions for
its data checks. -/
def registered (settings : Settings.Pair) (d : Definition) : List Action :=
  d.action settings :: Registry.assertionsFor settings settings.active.warehouse
    (d.action settings) d.config.database d.config.checks

/-- What identifies the actions of a definition under the canonical settings
themselves. -/
def identities (canonical : Settings.Config)
    (d : Definition) : List (Action.Variant × Target) :=
  (d.registered ⟨canonical, canonical⟩).map Action.identity

/-- The active settings have no part in what identifies the actions of a
definition. -/
theorem identities_registered (settings : Settings.Pair) (d : Definition) :
    (d.registered settings).map Action.identity =
      d.identities settings.canonical := by
  have hvariant : (d.action settings).variant =
      (d.action ⟨settings.canonical, settings.canonical⟩).variant :=
    (variant_bodyOf settings settings _ d.content).trans
      (variant_bodyOf _ settings _ d.content).symm
  have haction : (d.action settings).identity =
      (d.action ⟨settings.canonical, settings.canonical⟩).identity :=
    Prod.ext hvariant rfl
  rw [identities, registered, registered, List.map_cons, List.map_cons, haction,
    Registry.identities_assertionsFor, Registry.identities_assertionsFor]
  rfl

theorem identities_bare (canonical : Settings.Config) (d : Definition) :
    d.bare.identities canonical = d.identities canonical := by
  have haction : (d.bare.action ⟨canonical, canonical⟩).identity =
      (d.action ⟨canonical, canonical⟩).identity :=
    Prod.ext (variant_bodyOf _ _ _ d.content).symm rfl
  rw [identities, identities, registered, registered, List.map_cons,
    List.map_cons, haction]
  rfl

end Definition

def Finding.definition? : Finding → Option Definition
  | .diagnostic _ => none
  | .definition d => some d

/-- The definitions among findings, without the texts that their actions are
compiled from. -/
def outline (findings : List Finding) : List Definition :=
  findings.filterMap fun finding => finding.definition?.map Definition.bare

@[simp] theorem outline_append (findings others : List Finding) :
    outline (findings ++ others) = outline findings ++ outline others :=
  List.filterMap_append

theorem Build.ofFindings_concat (settings : Settings.Pair)
    (findings : List Finding) (finding : Finding) :
    Build.ofFindings settings (findings ++ [finding]) =
      (Build.ofFindings settings findings).add settings finding := by
  rw [Build.ofFindings, List.foldl_append]
  rfl

/-- What identifies the actions that are registered follows from the outline of
the findings and the canonical settings. -/
theorem Build.identities_ofFindings (settings : Settings.Pair)
    (findings : List Finding) :
    (Build.ofFindings settings findings).registry.actions.map Action.identity =
      (outline findings).flatMap
        (Definition.identities settings.canonical) := by
  induction findings using List.reverseRecOn with
  | nil => rfl
  | append_singleton findings finding ih =>
    rw [Build.ofFindings_concat, outline_append, List.flatMap_append, ← ih]
    cases finding with
    | diagnostic d => exact (List.append_nil _).symm
    | definition d =>
      have hactions : ((Build.ofFindings settings findings).add settings
          (.definition d)).registry.actions =
          (Build.ofFindings settings findings).registry.actions ++
            d.registered settings := by
        rw [Build.add, Build.define, Registry.actions_synthesize,
          Registry.actions_register, List.append_assoc]
        rfl
      have hd : (outline [.definition d]).flatMap
          (Definition.identities settings.canonical) =
          d.identities settings.canonical := by
        rw [← Definition.identities_bare]
        exact List.append_nil _
      rw [hactions, List.map_append, Definition.identities_registered, hd]

/-- What identifies the actions of a graph follows from the outline of what was
read and the canonical settings. -/
theorem identities_finish (context : Context) (version : String)
    (settings : Settings.Pair) (findings : List Finding) :
    (finish context version (Build.ofFindings settings findings)).1.actions.map
      Action.identity =
      (outline findings).flatMap
        (Definition.identities settings.canonical) := by
  rw [← Build.identities_ofFindings]
  exact Link.identities_linked _ (surroundings context)

end Compile

end SqlWorkflow
