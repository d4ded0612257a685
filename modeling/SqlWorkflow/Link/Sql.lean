import SqlWorkflow.Link.Render

/-!
# Compiled SQL

The SQL of an action is rendered template by template and trimmed. An
incremental table is rendered twice: once as it is built for the first time, and
once as it is extended. SQL that comes from a plain file is trimmed only.
-/

namespace SqlWorkflow.Link

open Registry (Templates)

/-- The SQL that extends an incremental table. -/
structure IncrementalSql where
  query : String
  preOps : List String
  postOps : List String
  deriving DecidableEq

inductive Sql
  | none
  | table (query : String) (incremental : Option IncrementalSql)
      (preOps postOps : List String)
  | operation (queries : List String)
  | assertion (query : String)
  deriving DecidableEq

namespace Scope

variable (scope : Scope)

def compiled (interpolate : Bool) (template : String) : Rendered String :=
  if interpolate then (scope.render template).map Text.trim
  else .plain (Text.trim template)

def compiledAll (interpolate : Bool)
    (templates : List String) : Rendered (List String) :=
  Rendered.forEach (scope.compiled interpolate) templates

/-- The same scope, in incremental mode. -/
def inIncrementalMode : Scope := { scope with incremental := true }

/-- The SQL that extends an incremental table. -/
def incrementalSql (interpolate : Bool) (query : String)
    (preOps postOps : List String) : Rendered IncrementalSql :=
  (scope.inIncrementalMode.compiled interpolate query).andThen fun query =>
    (scope.inIncrementalMode.compiledAll interpolate preOps).andThen
      fun preOps =>
      (scope.inIncrementalMode.compiledAll interpolate postOps).map
        fun postOps =>
        ⟨query, preOps, postOps⟩

/-- The SQL that builds a table, put together with that which extends it. -/
def tableSql (interpolate : Bool) (query : String)
    (preOps postOps : List String)
    (incremental : Option IncrementalSql) : Rendered Sql :=
  (scope.compiled interpolate query).andThen fun query =>
    (scope.compiledAll interpolate preOps).andThen fun preOps =>
      (scope.compiledAll interpolate postOps).map fun postOps =>
        .table query incremental preOps postOps

/-- The SQL of an action. `isIncremental` tells whether it is an incremental
table. -/
def sql (isIncremental interpolate : Bool) : Templates → Rendered Sql
  | .none => .plain .none
  | .table query incrementalQuery preOps postOps =>
    if isIncremental then
      (scope.incrementalSql interpolate
        (incrementalQuery.getD query) preOps postOps).andThen fun incremental =>
          scope.tableSql interpolate query preOps postOps (some incremental)
    else scope.tableSql interpolate query preOps postOps Option.none
  | .operation queries => (scope.compiledAll interpolate queries).map .operation
  | .assertion query => (scope.compiled interpolate query).map .assertion

end Scope

/-- Puts SQL that extends a table into it. -/
def IncrementalSql.applyTo (table : Action.Table)
    (sql : IncrementalSql) : Action.Table :=
  { table with
    incrementalQuery := some sql.query
    incrementalPreOps := sql.preOps
    incrementalPostOps := sql.postOps }

/-- Puts SQL into an action of the variant that it is for. -/
def Sql.applyTo (body : Action.Body) (sql : Sql) : Action.Body :=
  match body, sql with
  | .table t, .table query incremental preOps postOps =>
    let built := { t with query := query, preOps := preOps, postOps := postOps }
    .table (incremental.elim built (·.applyTo built))
  | .operation o, .operation queries => .operation { o with queries := queries }
  | .assertion a, .assertion query => .assertion { a with query := query }
  | other, _ => other

/-- Whether a body is that of an incremental table. -/
def isIncremental : Action.Body → Bool
  | .table table => table.type == .incremental
  | _ => false

end SqlWorkflow.Link
