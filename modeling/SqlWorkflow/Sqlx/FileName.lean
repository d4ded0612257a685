/-!
# Names taken from files

An action without a name of its own is called after its file: the last component
of the path, without its extension and without the marker of data preparations.
-/

namespace SqlWorkflow.Sqlx

/-- The last component of a path. -/
def lastComponent (path : List Char) : List Char :=
  (path.reverse.takeWhile (· != '/')).reverse

/-- A file name without its extension. The dot of an extension is never the
first character. -/
def stem (fileName : List Char) : List Char :=
  match fileName.reverse.dropWhile (· != '.') with
  | [] | ['.'] => fileName
  | _ :: before => before.reverse

/-- The text without a given ending. -/
def dropEnding (ending text : List Char) : List Char :=
  if ending.isSuffixOf text then
    text.take (text.length - ending.length) else text

/-- The name of the action that a file defines. -/
def actionName (path : String) : String :=
  String.ofList (dropEnding ['.', 'd', 'p'] (stem (lastComponent path.toList)))

end SqlWorkflow.Sqlx
