import SqlWorkflow.Json.Mismatch

/-!
# Typed reading of JSON values

A decoder turns a value into a typed one or says why it cannot. Records may be
written as objects, whose members come in any order, or as arrays, whose items
are the fields in the order of their declaration; fields that are left out keep
their defaults.
-/

namespace SqlWorkflow.Json

abbrev Decoder (α : Type) := Json → Except Mismatch α

namespace Decode

/-- Fails because another type was expected. -/
def wrongType {α : Type} (value : Json)
    (expected : String) : Except Mismatch α :=
  .error (.invalidType value.found expected)

/-- Reads any value. -/
def any : Decoder Json := .ok

def string : Decoder String
  | .string s => .ok s
  | value => wrongType value "a string"

def bool : Decoder Bool
  | .bool b => .ok b
  | value => wrongType value "a boolean"

def nat32 : Decoder Nat
  | .number (.int n) =>
    if 0 ≤ n ∧ n < 0x100000000 then .ok n.toNat
    else .error (.invalidValue (.number (.int n)) "u32")
  | value => wrongType value "u32"

/-- Reads null as nothing, and anything else as something. -/
def option {α : Type} (decoder : Decoder α) : Decoder (Option α)
  | .null => .ok none
  | value => (decoder value).map some

def items {α : Type}
    (decoder : Decoder α) : List Json → Except Mismatch (List α)
  | [] => .ok []
  | v :: vs =>
    match decoder v with
    | .error e => .error e
    | .ok a => (items decoder vs).map (a :: ·)

def list {α : Type} (decoder : Decoder α) : Decoder (List α)
  | .array vs => items decoder vs
  | value => wrongType value "a sequence"

def members {α : Type}
    (decoder : Decoder α) : Members → Except Mismatch (List (String × α))
  | [] => .ok []
  | (key, v) :: rest =>
    match decoder v with
    | .error e => .error e
    | .ok a => (members decoder rest).map ((key, a) :: ·)

def map {α : Type} (decoder : Decoder α) : Decoder (List (String × α))
  | .object ms => members decoder ms
  | value => wrongType value "a map"

/-- Reads a value that may have several forms; the first form that fits
counts. -/
def firstOf {α : Type} (typeName : String) : List (Decoder α) → Decoder α
  | [], _ => .error (.noForm typeName)
  | d :: ds, value =>
    match d value with
    | .ok a => .ok a
    | .error _ => firstOf typeName ds value

def oneOrMany {α : Type} (decoder : Decoder α) : Decoder (List α) :=
  firstOf "OneOrMany" [fun value => (decoder value).map ([·]), list decoder]

def variantNamed {α : Type} (variants : List (String × α))
    (name : String) : Except Mismatch α :=
  match variants.lookup name with
  | some a => .ok a
  | none => .error (.unknownVariant name (variants.map Prod.fst))

/-- Reads a variant without content: its name, or an object whose only member
has that name and is null. -/
def variant {α : Type} (variants : List (String × α)) : Decoder α
  | .string name => variantNamed variants name
  | .object [(name, content)] =>
    match variantNamed variants name with
    | .error e => .error e
    | .ok a =>
      match content with
      | .null => .ok a
      | other => wrongType other "unit"
  | .object _ => .error (.invalidValue .map "map with a single key")
  | value => wrongType value "string or map"

end Decode

structure RecordSchema (σ : Type) where
  name : String
  /-- The fields, in the order of their declaration. -/
  fields : List String
  /-- Other names of fields, with the fields they stand for. -/
  aliases : List (String × String)
  /-- Whether members of other names are refused. -/
  strict : Bool
  /-- The record before any field is set. -/
  empty : σ
  /-- Reads a field into the record. -/
  set : String → Json → σ → Except Mismatch σ

namespace RecordSchema

variable {σ : Type} (schema : RecordSchema σ)

/-- The field that a member sets. -/
def fieldOf? (key : String) : Option String :=
  if key ∈ schema.fields then some key else schema.aliases.lookup key

/-- Sets fields from members, in their order; `seen` holds the fields that are
set already. -/
def readMembers (seen : List String) (record : σ) : Members → Except Mismatch σ
  | [] => .ok record
  | (key, value) :: rest =>
    match schema.fieldOf? key with
    | none =>
      if schema.strict then .error (.unknownField key schema.fields)
      else readMembers seen record rest
    | some field =>
      if field ∈ seen then .error (.duplicateField field)
      else
        match schema.set field value record with
        | .error e => .error e
        | .ok next => readMembers (field :: seen) next rest

/-- Sets fields from items, in the order of declaration. -/
def readItems (record : σ) : List String → List Json → Except Mismatch σ
  | field :: fields, value :: values =>
    match schema.set field value record with
    | .error e => .error e
    | .ok next => readItems next fields values
  | _, _ => .ok record

def decode : Decoder σ
  | .object members => schema.readMembers [] schema.empty members
  | .array items =>
    match schema.readItems schema.empty schema.fields items with
    | .error e => .error e
    | .ok record =>
      if schema.fields.length < items.length then
        .error (.invalidLength items.length "fewer elements in array")
      else .ok record
  | value => Decode.wrongType value ("struct " ++ schema.name)

end RecordSchema

end SqlWorkflow.Json
