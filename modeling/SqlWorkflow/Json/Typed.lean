import SqlWorkflow.Json.Decode
import SqlWorkflow.Json.Reader

/-!
# Typed reading of JSON text

A record can be read from the outline of a text without reading the whole text:
what comes first, a fault of the text or a value of the wrong form, is reported,
with its place. Members of unknown names are passed over and their names are
kept.
-/

namespace SqlWorkflow.Json

inductive ReadError
  | syntactic (error : SyntaxError)
  | mismatch (mismatch : Mismatch) (place : Place)

/-- The text of a reading error in a whole text. -/
def ReadError.message (text : List Char) : ReadError → String
  | .syntactic e => e.message text
  | .mismatch m place => m.message ++ " " ++ (place.position text).text

namespace Typed

/-- A fault noticed after the first byte of an unread text. -/
def refuse {α : Type} (fault : Fault)
    (unread : List Char) : Except ReadError α :=
  .error (.syntactic ⟨fault, .within unread⟩)

/-- Fails because another type was expected. Scalars are read first, brackets
are not. -/
def wrongType {α : Type} (expected : String) : Outline → Except ReadError α
  | .scalar _ (.ok value) after =>
    .error (.mismatch (.invalidType value.found expected) (.before after))
  | .scalar _ (.error e) _ => .error (.syntactic e)
  | .array start _ =>
    .error (.mismatch (.invalidType .sequence expected) (.before start))
  | .object start _ =>
    .error (.mismatch (.invalidType .map expected) (.before start))
  | .broken reading _ => .error (.syntactic reading)

/-- Reads null as nothing, and anything else as something. -/
def option {α : Type} (reader : Outline → Except ReadError α)
    (outline : Outline) : Except ReadError (Option α) :=
  match outline with
  | .scalar _ (.ok .null) _ => .ok none
  | other => (reader other).map some

def string : Outline → Except ReadError String
  | .scalar _ (.ok (.string s)) _ => .ok s
  | other => wrongType "a string" other

/-- Finds a variant by the name that was read before `after`. -/
def variantNamed {α : Type} (variants : List (String × α)) (name : String)
    (after : List Char) : Except ReadError α :=
  match Decode.variantNamed variants name with
  | .ok a => .ok a
  | .error m => .error (.mismatch m (.before after))

/-- The rest of an object that may hold no further member; `after` follows its
last value. -/
def endVariant {α : Type} (a : α) (rest : MemberList)
    (after : List Char) : Except ReadError α :=
  match rest with
  | .close _ => .ok a
  | _ =>
    match skipBlanks after with
    | [] => .error (.syntactic ⟨.endInObject, .before []⟩)
    | unread => .error (.syntactic ⟨.expectedValue, .before unread⟩)

/-- The text after a value, if it was made out to its end. -/
def Outline.after? : Outline → Option (List Char)
  | .scalar _ _ after => some after
  | _ => none

/-- Reads a variant without content: its name, or an object whose only member
has that name and is null. -/
def variant {α : Type}
    (variants : List (String × α)) : Outline → Except ReadError α
  | .scalar _ (.ok (.string name)) after => variantNamed variants name after
  | .scalar ('"' :: _) (.error e) _ => .error (.syntactic e)
  | .scalar start _ _ => refuse .expectedValue start
  | .array start _ => refuse .expectedValue start
  | .broken reading _ => .error (.syntactic reading)
  | .object _ (.close after) => refuse .expectedValue ('}' :: after)
  | .object _ (.broken reading _) =>
    let fault := match reading.fault with
      | .endInObject => Fault.endInValue
      | .keyMustBeString => Fault.expectedValue
      | other => other
    .error (.syntactic ⟨fault, reading.place⟩)
  | .object _ (.member (.error e) _ _ _) => .error (.syntactic e)
  | .object _ (.member (.ok name) afterName content rest) =>
    match variantNamed variants name afterName with
    | .error e => .error e
    | .ok a =>
      match content with
      | .scalar _ (.ok .null) after => endVariant a rest after
      | other => wrongType "unit" other

/-- Reads an object whose keys and values are free; `limit` is that of its
brackets. -/
def map (limit : Nat) : Outline → Except ReadError (List (String × Json))
  | .object _ members =>
    (MemberList.toJson (limit - 1) members).mapError .syntactic
  | other => wrongType "a map" other

end Typed

/-- A record that is being read, and the names that were passed over. -/
structure Progress (σ : Type) where
  record : σ
  unknown : List String

structure TextSchema (σ : Type) where
  name : String
  /-- The fields, in the order of their declaration. -/
  fields : List String
  /-- What stands before the name of a member that was passed over. -/
  path : String
  /-- Reads a field into the record. The second string is the field on the path
  to its value: its name in an object, its place in an array. -/
  set : String → String → Outline → Progress σ → Except ReadError (Progress σ)

namespace TextSchema

variable {σ : Type} (schema : TextSchema σ)

/-- The place at which a name that comes twice is reported. -/
def duplicatePlace (after : List Char) : Place :=
  match skipBlanks after with
  | '}' :: rest => .before rest
  | unread => .before unread

/-- Sets fields from members, in their order; `seen` holds the fields that are
set already. -/
def readMembers (seen : List String) (progress : Progress σ) :
    MemberList → Except ReadError (Progress σ)
  | .close _ => .ok progress
  | .broken reading _ => .error (.syntactic reading)
  | .member (.error e) _ _ _ => .error (.syntactic e)
  | .member (.ok key) after value rest =>
    if key ∈ schema.fields then
      if key ∈ seen then
        .error (.mismatch (.duplicateField key) (duplicatePlace after))
      else
        match schema.set key key value progress with
        | .error e => .error e
        | .ok next => readMembers (key :: seen) next rest
    else
      match value.skip with
      | .error e => .error (.syntactic e)
      | .ok () =>
        readMembers seen { progress with
          unknown := progress.unknown ++ [schema.path ++ key] } rest

/-- Refuses items that come after the last field. -/
def endItems (progress : Progress σ) : ItemList → Except ReadError (Progress σ)
  | .close _ => .ok progress
  | .item start _ _ => Typed.refuse .trailingCharacters start
  | .broken reading _ =>
    let fault := match reading.fault with
      | .trailingComma => Fault.trailingComma
      | .endInList => Fault.endInList
      | _ => Fault.trailingCharacters
    .error (.syntactic ⟨fault, reading.place⟩)

/-- Sets fields from items, in the order of declaration, from a place in the
array on. -/
def readItems (place : Nat) (progress : Progress σ) :
    List String → ItemList → Except ReadError (Progress σ)
  | [], items => endItems progress items
  | _ :: _, .close _ => .ok progress
  | _ :: _, .broken reading _ => .error (.syntactic reading)
  | field :: fields, .item _ value rest =>
    match schema.set field (toString place) value progress with
    | .error e => .error e
    | .ok next => readItems (place + 1) next fields rest

def read (progress : Progress σ) : Outline → Except ReadError (Progress σ)
  | .object _ members => schema.readMembers [] progress members
  | .array _ items => schema.readItems 0 progress schema.fields items
  | other => Typed.wrongType ("struct " ++ schema.name) other

end TextSchema

end SqlWorkflow.Json
