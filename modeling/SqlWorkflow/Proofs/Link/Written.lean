import SqlWorkflow.Proofs.Link.Calls
import SqlWorkflow.Proofs.Link.Kept

/-!
# What linking writes

The templates of an action are compiled one by one, and what they are compiled
to is written into the body of the action. If the templates are of the variant
of the body, none of it is lost: every field of the linked action that holds SQL
holds its compiled templates, and an incremental table holds them in both modes.
-/

namespace SqlWorkflow

namespace Action

/-- The SQL that extends an incremental table, then that which builds the
table. -/
def Table.sqlTexts (t : Table) : List String :=
  (t.incrementalQuery.toList ++
    (t.incrementalPreOps ++ t.incrementalPostOps)) ++
    (t.query :: (t.preOps ++ t.postOps))

/-- All SQL of a body. -/
def Body.sqlTexts : Body → List String
  | .table t => t.sqlTexts
  | .operation o => o.queries
  | .assertion a => [a.query]
  | .declaration | .notebook _ | .dataPreparation _ => []

end Action

namespace Link

open Registry (Templates)

/-- Templates fit a body that has no SQL yet if they are of its variant. -/
inductive Fits : Templates → Action.Body → Prop
  | table (query : String) (incrementalQuery : Option String)
      (preOps postOps : List String) {t : Action.Table}
      (h : (Action.Body.table t).withoutSql = .table t) :
      Fits (.table query incrementalQuery preOps postOps) (.table t)
  | operation (queries : List String) (hasOutput : Bool) :
      Fits (.operation queries) (.operation ⟨[], hasOutput⟩)
  | assertion (query : String) (parent : Option Target) :
      Fits (.assertion query) (.assertion ⟨"", parent⟩)
  | declaration : Fits .none .declaration
  | notebook (notebook : Action.Notebook) : Fits .none (.notebook notebook)
  | dataPreparation (contents : Action.Preparation) :
      Fits .none (.dataPreparation contents)

/-- The SQL in a body is what templates of its variant are compiled to, each in
its place. What a template is compiled to in either mode is given by `text`;
just the incremental tables have SQL of the incremental mode, where a query for
that mode takes the place of the query. -/
inductive Written (text : Bool × String → String) :
    Templates → Action.Body → Prop
  | table {query : String} {incrementalQuery : Option String}
      {preOps postOps : List String} {t : Action.Table}
      (hquery : t.query = text (false, query))
      (hpreOps : t.preOps = preOps.map fun template => text (false, template))
      (hpostOps : t.postOps = postOps.map fun template =>
        text (false, template))
      (hincrementalQuery : t.incrementalQuery = if t.type = .incremental then
        some (text (true, incrementalQuery.getD query)) else none)
      (hincrementalPreOps : t.incrementalPreOps = if t.type = .incremental then
        preOps.map fun template => text (true, template) else [])
      (hincrementalPostOps : t.incrementalPostOps =
        if t.type = .incremental then
          postOps.map fun template => text (true, template) else []) :
      Written text (.table query incrementalQuery preOps postOps) (.table t)
  | operation (queries : List String) (hasOutput : Bool) :
      Written text (.operation queries) (.operation ⟨queries.map fun template =>
        text (false, template), hasOutput⟩)
  | assertion (query : String) (parent : Option Target) :
      Written text (.assertion query) (.assertion ⟨text (false, query), parent⟩)
  | declaration : Written text .none .declaration
  | notebook (notebook : Action.Notebook) :
      Written text .none (.notebook notebook)
  | dataPreparation (contents : Action.Preparation) :
      Written text .none (.dataPreparation contents)

/-- The SQL that is written into a body are its compiled templates, in the order
of rendering. -/
theorem Written.sqlTexts {text : Bool × String → String} {templates : Templates}
    {body : Action.Body} (h : Written text templates body) :
    body.sqlTexts = (renderings (isIncremental body) templates).map text := by
  cases h with
  | @table query incrementalQuery preOps postOps t hquery hpreOps hpostOps
      hincrementalQuery hincrementalPreOps hincrementalPostOps =>
    rw [Action.Body.sqlTexts, Action.Table.sqlTexts, hquery, hpreOps, hpostOps,
      hincrementalQuery, hincrementalPreOps, hincrementalPostOps]
    by_cases htype : t.type = .incremental
    · simp [isIncremental, renderings, htype, Function.comp_def]
    · simp [isIncremental, renderings, htype, Function.comp_def]
  | operation => exact (List.map_map ..).symm
  | assertion | declaration | notebook | dataPreparation => rfl

theorem Written.variant_of_operation {text : Bool × String → String}
    {queries : List String} {body : Action.Body}
    (h : Written text (.operation queries) body) :
    body.variant = .operation := by
  cases h with
  | operation => rfl

theorem Rendered.value_forEach {α β : Type} (f : α → Rendered β) (as : List α) :
    (Rendered.forEach f as).value = as.map fun a => (f a).value := by
  induction as with
  | nil => rfl
  | cons a as ih => exact congrArg ((f a).value :: ·) ih

namespace Scope

variable (scope : Scope)

/-- The SQL that a template is compiled to, in one of the two modes. -/
def text (interpolate : Bool) (rendering : Bool × String) : String :=
  ((scope.inMode rendering.1).compiled interpolate rendering.2).value

theorem value_compiledAll (interpolate incremental : Bool)
    (templates : List String) :
    ((scope.inMode incremental).compiledAll interpolate templates).value =
      templates.map fun template =>
        scope.text interpolate (incremental, template) :=
  Rendered.value_forEach _ templates

/-- What the templates of a table are compiled to: in both modes if it is
incremental, the SQL that extends it being compiled from the query for that, if
there is one. -/
theorem value_sql_table (isIncremental interpolate : Bool) (query : String)
    (incrementalQuery : Option String) (preOps postOps : List String) :
    (scope.sql isIncremental interpolate
      (.table query incrementalQuery preOps postOps)).value =
      .table (scope.text interpolate (false, query)) (if isIncremental then
          some
            { query := scope.text interpolate (true,
              incrementalQuery.getD query)
              preOps := preOps.map fun template =>
                scope.text interpolate (true, template)
              postOps := postOps.map fun template =>
                scope.text interpolate (true, template) }
        else none)
        (preOps.map fun template => scope.text interpolate (false, template))
        (postOps.map fun template =>
          scope.text interpolate (false, template)) := by
  have hbuild (templates : List String) :=
    scope.value_compiledAll interpolate false templates
  have hextend (templates : List String) :=
    scope.value_compiledAll interpolate true templates
  cases isIncremental with
  | false =>
    rw [← hbuild, ← hbuild]
    rfl
  | true =>
    rw [← hbuild, ← hbuild, ← hextend, ← hextend]
    rfl

end Scope

/-- Linking writes all templates of an action into its body. -/
theorem written_linkEntry (r : Registry) (surroundings : Surroundings)
    {entry : Registry.Entry}
    (h : Fits entry.pending.templates entry.action.body) :
    Written ((scopeOf r surroundings entry).text entry.pending.interpolate)
      entry.pending.templates (linkEntry r surroundings entry).action.body := by
  change Written
    _ _ (Sql.applyTo entry.action.body (renderedSql r surroundings entry).value)
  rw [renderedSql]
  generalize scopeOf r surroundings entry = scope,
    entry.pending.interpolate = interpolate
  generalize entry.pending.templates = templates, entry.action.body = body at h
  cases h with
  | @table query incrementalQuery preOps postOps t hempty =>
    obtain ⟨-, -, hincrementalQuery, -, -, hincrementalPreOps,
      hincrementalPostOps, -⟩ :=
      Action.Table.mk.inj (Action.Body.table.inj hempty)
    rw [scope.value_sql_table, isIncremental]
    by_cases htype : t.type = .incremental
    · rw [if_pos (by simpa using htype)]
      refine .table rfl rfl rfl ?_ ?_ ?_
      all_goals exact (if_pos htype).symm
    · rw [if_neg (by simpa using htype)]
      refine .table rfl rfl rfl ?_ ?_ ?_
      · exact hincrementalQuery.symm.trans (if_neg htype).symm
      · exact hincrementalPreOps.symm.trans (if_neg htype).symm
      · exact hincrementalPostOps.symm.trans (if_neg htype).symm
  | operation queries hasOutput =>
    have hvalue := scope.value_compiledAll interpolate false queries
    change Written _ _ (.operation
      ⟨((scope.inMode false).compiledAll interpolate queries).value, hasOutput⟩)
    rw [hvalue]
    exact .operation queries hasOutput
  | assertion query parent => exact .assertion query parent
  | declaration => exact .declaration
  | notebook notebook => exact .notebook notebook
  | dataPreparation contents => exact .dataPreparation contents

end Link

end SqlWorkflow
