import SqlWorkflow.Settings.Config
import SqlWorkflow.Settings.Unknown

/-!
# Drafts of settings

While a settings file is read, its variables may still have any value.
-/

namespace SqlWorkflow.Settings

structure Draft where
  config : Config
  vars : Dictionary Json

namespace Draft

def empty : Draft := ⟨Config.empty, []⟩

def withConfig (d : Draft) (config : Config) : Draft :=
  { d with config := config }

/-- The configuration of a draft, if its variables are strings. -/
def finish (d : Draft) : Except CompileError Config :=
  (stringVars d.vars).map fun vars => { d.config with vars := vars }

end Draft

end SqlWorkflow.Settings
