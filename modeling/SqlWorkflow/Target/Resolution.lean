import SqlWorkflow.Settings.Config

/-!
# Target resolution

An action names its target in part; the settings supply the rest. A part that
the action gives is used as it is. A default gets the suffix of the environment,
and the name gets the prefix, except that declarations, which stand for objects
that exist already, keep theirs. The canonical target of an action is resolved
with the canonical settings, so it is the same in every environment.
-/

namespace SqlWorkflow.Target

inductive Role
  | table
  | assertion
  | declaration
  deriving DecidableEq

/-- The parts of a target that an action gives. -/
structure Explicit where
  database : Option String
  schema : Option String
  name : String
  deriving DecidableEq

structure Resolved where
  target : Target
  canonical : Target
  deriving DecidableEq

/-- A default with the suffix of the environment, unless that is empty. -/
def withSuffix (value : String) (suffix : Option String) : String :=
  match suffix with
  | some s => if s.isEmpty then value else value ++ ("_" ++ s)
  | none => value

/-- A name with the prefix of the environment, unless that is empty. -/
def withPrefix (tablePrefix : Option String) (name : String) : String :=
  match tablePrefix with
  | some p => if p.isEmpty then name else p ++ ("_" ++ name)
  | none => name

/-- The schema that actions of a role are in by default. -/
def defaultSchema (config : Settings.Config) : Role → Option String
  | .assertion => some config.schemaOfAssertions
  | .table | .declaration => config.defaultSchema

/-- The target that an action has under some settings. -/
def resolve (config : Settings.Config) (explicit : Explicit)
    (role : Role) : Target where
  database := explicit.database <|>
    config.defaultDatabase.map fun d => withSuffix d config.databaseSuffix
  schema := explicit.schema <|>
    (defaultSchema config role).map fun s => withSuffix s config.schemaSuffix
  name := if role = .declaration then
    explicit.name else withPrefix config.tablePrefix explicit.name

/-- The targets that an action has under the settings of a compilation. -/
def resolveBoth (settings : Settings.Pair) (explicit : Explicit)
    (role : Role) : Resolved :=
  ⟨resolve settings.active explicit role,
    resolve settings.canonical explicit role⟩

/-- The name of an assertion that is made for a parent. -/
def assertionName (parent : Target) (discriminator : String) : String :=
  parent.schema.elim "" (· ++ "_") ++
    (parent.name ++ ("_assertions_" ++ discriminator))

/-- The targets of an assertion that is made for a parent. The name is taken
from the canonical target of the parent, so it is the same in every
environment. -/
def assertionTargets (settings : Settings.Pair) (parentCanonical : Target)
    (parentDatabase : Option String) (discriminator : String) : Resolved :=
  resolveBoth settings ⟨parentDatabase, none,
    assertionName parentCanonical discriminator⟩ .assertion

end SqlWorkflow.Target
