import SqlWorkflow.Expr.Escape
import SqlWorkflow.Json.Value
import SqlWorkflow.Text.Cut

/-!
# Expressions

The expressions that config blocks and placeholders may use without a script
runtime: literals, identifier paths and calls. A pure literal denotes a JSON
value; a path of identifiers denotes the list of its segments.
-/

namespace SqlWorkflow

inductive Expr
  | null
  | bool (value : Bool)
  | number (value : Json.Number)
  | string (value : String)
  /-- The raw text between two backticks. -/
  | template (raw : String)
  | array (items : List Expr)
  /-- The entries as written; a key may occur more than once. -/
  | object (entries : List (String × Expr))
  | ident (name : String)
  | member (base : Expr) (property : String)
  | call (callee : Expr) (arguments : List Expr)

namespace Expr

/-- Whether a text has an opening of a placeholder in it, escaped or not. -/
def mentionsPlaceholder : List Char → Bool
  | '$' :: '{' :: _ => true
  | _ :: rest => mentionsPlaceholder rest
  | [] => false

mutual

def toJson? : Expr → Option Json
  | .null => some .null
  | .bool b => some (.bool b)
  | .number n => some (.number n)
  | .string s => some (.string s)
  | .template raw =>
    if mentionsPlaceholder raw.toList then none
    else some (.string (unescape raw))
  | .array items => (listToJson? items).map .array
  | .object entries =>
    (entriesToJson? entries).map fun pairs =>
      .object (Json.Members.ofList pairs)
  | .ident _ | .member _ _ | .call _ _ => none

def listToJson? : List Expr → Option (List Json)
  | [] => some []
  | e :: es =>
    match toJson? e, listToJson? es with
    | some v, some vs => some (v :: vs)
    | _, _ => none

/-- The keys and values of entries that are pure literals. -/
def entriesToJson? : List (String × Expr) → Option (List (String × Json))
  | [] => some []
  | (key, e) :: es =>
    match toJson? e, entriesToJson? es with
    | some v, some vs => some ((key, v) :: vs)
    | _, _ => none

end

def path? : Expr → Option (List String)
  | .ident name => some [name]
  | .member base property => base.path?.map (· ++ [property])
  | _ => none

end Expr

end SqlWorkflow
