import SqlWorkflow.CompileError
import SqlWorkflow.Dictionary
import SqlWorkflow.Text.Cut
import SqlWorkflow.Text.EditDistance

/-!
# Keys and variables of settings

Both formats of settings share two rules: a key outside the schema is fatal, and
so is a variable that is not a string. The nearest known key is suggested for an
unknown one.
-/

namespace SqlWorkflow.Settings

/-- Refuses the first key that is not in the schema. Keys are given with the
path to them. -/
def rejectUnknown (file : String)
    (known : List String) : List String → Except CompileError Unit
  | [] => .ok ()
  | path :: _ =>
    .error (.unknownSetting file path
      (Text.suggestion? ((Text.split '.' path).getLastD path) known))

/-- The variables, if all of them are strings. -/
def stringVars : Dictionary Json → Except CompileError (Dictionary String)
  | [] => .ok []
  | (name, .string value) :: rest => (stringVars rest).map ((name, value) :: ·)
  | (name, _) :: _ => .error (.nonStringVariable name)

end SqlWorkflow.Settings
