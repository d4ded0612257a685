import SqlWorkflow.Text.Cut

/-!
# Relative paths

A file that an action listing refers to is named by a path that is relative to
the listing.
-/

namespace SqlWorkflow.Project

/-- Follows one component of a path from a directory, given by its components in
reverse. -/
def followComponent (reversed : List (List Char))
    (component : List Char) : List (List Char) :=
  if component = [] ∨ component = ['.'] then reversed
  else if component = ['.', '.'] then reversed.tail
  else component :: reversed

/-- The components of the directory of a file, in reverse. -/
def directoryOf (file : List Char) : List (List Char) :=
  (Text.splitOn '/' file).reverse.tail

/-- The path of a file that is named relative to the directory of another. -/
def resolveRelative (file name : String) : String :=
  let parts := (Text.splitOn '/' name.toList).foldl followComponent
    (directoryOf file.toList)
  String.ofList (Text.joinWith ['/'] parts.reverse)

end SqlWorkflow.Project
