import SqlWorkflow.Json.Value

/-!
# Building objects

An object is put together from groups of members. A group for something absent
or empty holds no member, so that it is left out of the object.
-/

namespace SqlWorkflow.Json

def ofNat (n : Nat) : Json := .number (.int n)

def strings (items : List String) : Json := .array (items.map .string)

def arrayOf {α : Type} (f : α → Json) (items : List α) : Json :=
  .array (items.map f)

namespace Members

def one (key : String) (value : Json) : Members := [(key, value)]

/-- A member for a value that may be absent. -/
def optional {α : Type} (key : String) (f : α → Json) : Option α → Members
  | some a => one key (f a)
  | none => []

/-- A member that is there only if it is true. -/
def flag (key : String) (value : Bool) : Members :=
  if value then one key (.bool true) else []

/-- A member for a list that may be empty. -/
def nonEmpty {α : Type} (key : String) (f : α → Json)
    (items : List α) : Members :=
  if items.isEmpty then [] else one key (arrayOf f items)

end Members

end SqlWorkflow.Json
