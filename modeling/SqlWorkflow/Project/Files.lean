import SqlWorkflow.Dictionary
import SqlWorkflow.Text.Cut

/-!
# Project files

The compiler sees a project as texts with paths. Paths are relative to the root
of the project, have slashes between their components, and order the files.
-/

namespace SqlWorkflow.Project

/-- A path without the `./` that it begins with, however often. -/
def withoutDots : List Char → List Char
  | '.' :: '/' :: rest => withoutDots rest
  | path => path

/-- A path with slashes for backslashes and without `./` at its beginning. -/
def normalPath (path : String) : String :=
  String.ofList
    (withoutDots (path.toList.map fun c => if c = '\\' then '/' else c))

/-- The texts of a project, by path. -/
abbrev Files := Dictionary String

namespace Files

/-- Adds a file; one with the same path is replaced. -/
def insert (files : Files) (path contents : String) : Files :=
  Dictionary.insert (normalPath path) contents files

/-- The project with some files; of several with one path the last counts. -/
def ofList (files : List (String × String)) : Files :=
  files.foldl (fun project file => insert project file.1 file.2) []

end Files

end SqlWorkflow.Project
