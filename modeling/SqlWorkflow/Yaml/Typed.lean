import SqlWorkflow.Yaml.Resolution

/-!
# Typed reading of YAML nodes

Where a string is expected, the text of any scalar is taken as it is written.
Where a record is expected, nothing at all is a record in which nothing is set.
Names that a record does not have are passed over and kept.
-/

namespace SqlWorkflow.Yaml

namespace Typed

def string : Node → Option String := Node.text?

/-- Reads null as nothing, and anything else as something. -/
def option {α : Type} (reader : Node → Option α)
    (node : Node) : Option (Option α) :=
  match node with
  | .scalar (some tag) text true =>
    if CoreTag.of? tag matches some .null then
      if isNullWord text then some none else none
    else (reader node).map some
  | .scalar none text true =>
    if text.isEmpty || isNullWord text then some none
    else (reader node).map some
  | _ => (reader node).map some

def entries : Node → Option (List (Node × Node))
  | .mapping _ entries => some entries
  | .scalar _ "" true => some []
  | _ => none

/-- Reads a mapping whose keys and values are free; `depth` bounds the nesting
of its values. -/
def map (depth : Nat) (node : Node) : Option (List (String × Json)) :=
  (entries node).bind (Node.entriesToJson? depth)

end Typed

structure NodeSchema (σ : Type) where
  fields : List String
  /-- What stands before a name that was passed over. -/
  path : String
  /-- Reads a field into the record. -/
  set : String → Node → σ × List String → Option (σ × List String)

namespace NodeSchema

variable {σ : Type} (schema : NodeSchema σ)

/-- Sets fields from entries, in their order, beside the names that were passed
over; `seen` holds the fields that are set already. -/
def readEntries (seen : List String) (progress : σ × List String) :
    List (Node × Node) → Option (σ × List String)
  | [] => some progress
  | (keyNode, value) :: rest =>
    match keyNode.text? with
    | none => none
    | some key =>
      if key ∈ schema.fields then
        if key ∈ seen then none
        else
          match schema.set key value progress with
          | none => none
          | some next => readEntries (key :: seen) next rest
      else readEntries seen
        (progress.1, progress.2 ++ [schema.path ++ key]) rest

def read (progress : σ × List String)
    (node : Node) : Option (σ × List String) :=
  (Typed.entries node).bind (schema.readEntries [] progress)

end NodeSchema

end SqlWorkflow.Yaml
