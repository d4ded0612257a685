import SqlWorkflow.Expr.Parser
import SqlWorkflow.Link.Arguments
import SqlWorkflow.Link.Rendered
import SqlWorkflow.Registry.Lookup

/-!
# Rendering

The placeholders of a template are replaced by the values of their expressions.
An expression over literals and built-in names has a value here; any other goes
to the script runtime. A placeholder that cannot be evaluated leaves nothing in
the SQL and a fault in the notes.
-/

namespace SqlWorkflow.Link

structure Surroundings where
  config : Settings.Config
  evaluator : Script.Evaluator
  includes : Dictionary String

structure Scope where
  registry : Registry
  surroundings : Surroundings
  fileName : String
  selfTarget : Target
  /-- The script blocks of the file. -/
  script : Option String
  incremental : Bool

/-- Whether the value of an expression with arguments of a built-in function is
known here. -/
def Builtin.accepts (builtin : Builtin) (arguments : List Expr)
    (allNative : Bool) : Bool :=
  match builtin with
  | .ref | .resolve => (referenceOf? arguments).isSome
  | .self | .name | .schema | .database | .incremental => arguments.isEmpty
  | .when => (arguments.length == 2 || arguments.length == 3) && allNative

mutual

/-- Whether an expression has a value without a script runtime. -/
def isNative : Expr → Bool
  | .null | .bool _ | .number _ | .string _ | .template _ => true
  | .array items => allNative items
  | .object entries => entriesNative entries
  | .call callee arguments =>
    match Builtin.of? callee with
    | some builtin => builtin.accepts arguments (allNative arguments)
    | none => false
  | .ident name => (Setting.of? (.ident name)).isSome
  | .member base property => (Setting.of? (.member base property)).isSome

def allNative : List Expr → Bool
  | [] => true
  | e :: es => isNative e && allNative es

def entriesNative : List (String × Expr) → Bool
  | [] => true
  | (_, e) :: es => isNative e && entriesNative es

end

def truthy : Json → Bool
  | .null => false
  | .bool b => b
  | .number n => !n.isZero
  | .string s => !s.isEmpty
  | .array _ | .object _ => true

/-- The text that a value inserts into SQL. -/
def insertedText : Json → String
  | .null => ""
  | .string s => s
  | value => value.compact

namespace Scope

variable (scope : Scope)

/-- A string, or null if there is none. -/
def stringOrNull : Option String → Json
  | some s => .string s
  | none => .null

def settingValue : Setting → Json
  | .variable name =>
    stringOrNull (Dictionary.get? scope.surroundings.config.vars name)
  | .defaultDatabase => stringOrNull scope.surroundings.config.defaultDatabase
  | .defaultSchema => stringOrNull scope.surroundings.config.defaultSchema
  | .defaultLocation => stringOrNull scope.surroundings.config.defaultLocation

def address (target : Target) : Json :=
  .string (scope.surroundings.config.warehouse.quoteTarget target)

/-- The value of a reference; `depends` tells whether the place depends on its
target. -/
def resolve (reference : Reference) (depends : Bool) : Rendered Json :=
  match scope.registry.find reference with
  | .found _ target =>
    let sites :=
      if depends then [⟨target, reference.includeDependentAssertions⟩] else []
    ⟨scope.address target, ⟨sites, [], []⟩⟩
  | .missing => .faulty (.string "") (.unresolved reference)
  | .ambiguous candidates =>
    .faulty (.string "") (.ambiguous reference candidates)

def resolveArguments (arguments : List Expr) (depends : Bool) : Rendered Json :=
  match referenceOf? arguments with
  | some reference => scope.resolve reference depends
  | none => .plain .null

mutual

/-- The value of an expression. `expand` gives the text of a template inside
it. -/
def eval (expand : String → Rendered String) : Expr → Rendered Json
  | .null => .plain .null
  | .bool b => .plain (.bool b)
  | .number n => .plain (.number n)
  | .string s => .plain (.string s)
  | .template raw => (expand raw).map .string
  | .array items => (evalList expand items).map .array
  | .object entries =>
    (evalEntries expand entries).map fun pairs =>
      .object (Json.Members.ofList pairs)
  | .call callee arguments =>
    match Builtin.of? callee with
    | some .ref => scope.resolveArguments arguments true
    | some .resolve => scope.resolveArguments arguments false
    | some .self => .plain (scope.address scope.selfTarget)
    | some .name => .plain (.string scope.selfTarget.name)
    | some .schema => .plain (.string (scope.selfTarget.schema.getD ""))
    | some .database => .plain (.string (scope.selfTarget.database.getD ""))
    | some .incremental => .plain (.bool scope.incremental)
    | some .when => evalWhen expand arguments
    | none => .plain .null
  | .ident name =>
    .plain (((Setting.of? (.ident name)).map scope.settingValue).getD .null)
  | .member base property =>
    .plain (((Setting.of? (.member base property)).map scope.settingValue).getD
      .null)

/-- The value of a conditional: only the branch that is chosen is evaluated. -/
def evalWhen (expand : String → Rendered String) : List Expr → Rendered Json
  | [] => .plain .null
  | condition :: branches =>
    (eval expand condition).andThen fun value =>
      evalBranch expand (truthy value) branches

/-- The value of the branch for a condition; a second branch that is missing is
the empty string. -/
def evalBranch (expand : String → Rendered String)
    (condition : Bool) : List Expr → Rendered Json
  | [] => .plain (.string "")
  | [yes] => if condition then eval expand yes else .plain (.string "")
  | yes :: no :: _ => if condition then eval expand yes else eval expand no

def evalList (expand : String → Rendered String) :
    List Expr → Rendered (List Json)
  | [] => .plain []
  | e :: es =>
    (eval expand e).andThen fun v => (evalList expand es).map (v :: ·)

/-- The values of entries, with their keys. -/
def evalEntries (expand : String → Rendered String) :
    List (String × Expr) → Rendered (List (String × Json))
  | [] => .plain []
  | (key, e) :: es =>
    (eval expand e).andThen fun v => (evalEntries expand es).map ((key, v) :: ·)

end

/-- The request that a placeholder makes. -/
def request (source : String) : Script.Request where
  script := source
  fileName := scope.fileName
  purpose := .placeholder
  config := scope.surroundings.config
  includes := scope.surroundings.includes
  selfTarget := some scope.selfTarget
  incremental := scope.incremental
  preamble := scope.script

/-- The value that the script runtime gives to a placeholder. -/
def evaluate (source : String) : Rendered Json :=
  let request := scope.request source
  match scope.surroundings.evaluator request with
  | .ok value => ⟨value, ⟨[], [], [request]⟩⟩
  | .error message => ⟨.null, ⟨[], [.evaluation source message], [request]⟩⟩

def placeholder (expand : String → Rendered String)
    (source : String) : Rendered Json :=
  match Expr.parse source with
  | .ok e => if isNative e then scope.eval expand e else scope.evaluate source
  | .error _ => scope.evaluate source

/-- The text of a segment. `literal` tells whether plain text has escapes in
it. -/
def segmentText (expand : String → Rendered String) (literal : Bool) :
    Template.Segment → Rendered String
  | .text text => .plain (if literal then Expr.unescape text else text)
  | .placeholder source => (scope.placeholder expand source).map insertedText

/-- The text of a template of which the inner templates are expanded by
`expand`. A template that is not well formed is kept as it is. -/
def expandWith (expand : String → Rendered String) (literal : Bool)
    (template : String) : Rendered String :=
  match Template.segments template with
  | .error error => .faulty template (.template error)
  | .ok segments =>
    (Rendered.forEach (scope.segmentText expand literal) segments).map
      String.join

/-- The text of a template inside an expression, nested at most the given number
of times. -/
def expandInner : Nat → String → Rendered String
  | 0, template => .plain template
  | depth + 1, template => scope.expandWith (expandInner depth) true template

/-- The text of a template. A template inside it is shorter than it, so its
length bounds the nesting. -/
def render (template : String) : Rendered String :=
  scope.expandWith (scope.expandInner template.length) false template

end Scope

end SqlWorkflow.Link
