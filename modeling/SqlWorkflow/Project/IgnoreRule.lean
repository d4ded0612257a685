import SqlWorkflow.Project.Wildcard
import SqlWorkflow.Text.Blank
import SqlWorkflow.Text.Cut

/-!
# Ignore rules

An ignore file holds one rule per line, with a pattern for the paths below its
own directory. A rule says of what fits its pattern that it is left out, or, if
it begins with an exclamation mark, that it stays. Of the rules of one file the
last that fits decides.
-/

namespace SqlWorkflow.Project

structure IgnoreRule where
  /-- What fits stays. -/
  keeps : Bool
  /-- The rule is about directories only. -/
  directoriesOnly : Bool
  /-- The patterns for the components of a path. -/
  pattern : List (List Char)
  deriving DecidableEq

namespace IgnoreRule

/-- A line without the blanks at its end, unless the last of them is escaped. -/
def withoutTrailing (line : List Char) : List Char :=
  if [' ', '\\'].isPrefixOf line.reverse then line else Text.trimEnd line

/-- Takes the slash off the end of a pattern, which confines its rule to
directories. -/
def forDirectories (pattern : List Char) : Bool × List Char :=
  match pattern.reverse with
  | '/' :: '\\' :: reversed | '/' :: reversed => (true, reversed.reverse)
  | _ => (false, pattern)

/-- The rule of a pattern. One that begins with a slash or has one in the middle
is about whole paths, any other about names at every depth. -/
def ofPattern (keeps : Bool) (written : List Char) : IgnoreRule :=
  let anchored := written.head? = some '/'
  let (directoriesOnly, pattern) :=
    forDirectories (if anchored then written.tail else written)
  let components := Text.splitOn '/' pattern
  ⟨keeps, directoriesOnly, if anchored ∨ 1 < components.length then
    components else ['*', '*'] :: components⟩

/-- The rule of a line, if it holds one. -/
def ofLine? (line : List Char) : Option IgnoreRule :=
  if line.head? = some '#' then none
  else
    match withoutTrailing line with
    | [] => none
    | '\\' :: '!' :: rest => some (ofPattern false ('!' :: rest))
    | '\\' :: '#' :: rest => some (ofPattern false ('#' :: rest))
    | '!' :: rest => some (ofPattern true rest)
    | pattern => some (ofPattern false pattern)

/-- The rules of an ignore file, in order. -/
def ofText (text : String) : List IgnoreRule :=
  let marked := text.toList
  let plain := if marked.head? = some '\uFEFF' then marked.tail else marked
  (Text.splitOn '\n' plain).filterMap fun line =>
    ofLine? (if line.getLast? = some '\r' then line.dropLast else line)

/-- Whether a path, relative to the directory of its rule, fits the rule. -/
def fits (rule : IgnoreRule) (path : List String) (directory : Bool) : Bool :=
  (directory || !rule.directoriesOnly) &&
    fitsPath rule.pattern (path.map String.toList)

/-- The rule that decides about a path: the last that fits. -/
def decisive? (rules : List IgnoreRule) (path : List String)
    (directory : Bool) : Option IgnoreRule :=
  rules.reverse.find? fun rule => rule.fits path directory

end IgnoreRule

end SqlWorkflow.Project
