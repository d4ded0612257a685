import SqlWorkflow.Json.Printer
import SqlWorkflow.Text.Shown

/-!
# Mismatches

A typed reader expects a value of a certain form. A mismatch says what was found
and what was expected; its text is part of the messages that users see.
-/

namespace SqlWorkflow.Json

inductive Found
  | null
  | bool (value : Bool)
  | number (value : Number)
  | string (value : String)
  | sequence
  | map
  deriving DecidableEq

def found : Json → Found
  | .null => .null
  | .bool b => .bool b
  | .number n => .number n
  | .string s => .string s
  | .array _ => .sequence
  | .object _ => .map

def Found.text : Found → String
  | .null => "null"
  | .bool b => "boolean \x60" ++ (if b then "true" else "false") ++ "\x60"
  | .number n =>
    let kind := match n with
      | .int _ => "integer"
      | .float _ => "floating point"
    kind ++ " \x60" ++ String.ofList n.text ++ "\x60"
  | .string s => "string " ++ Text.shown s
  | .sequence => "sequence"
  | .map => "map"

/-- Why a value does not have the expected form. -/
inductive Mismatch
  | invalidType (found : Found) (expected : String)
  | invalidValue (found : Found) (expected : String)
  | invalidLength (length : Nat) (expected : String)
  | unknownVariant (name : String) (variants : List String)
  | unknownField (name : String) (fields : List String)
  | missingField (name : String)
  | duplicateField (name : String)
  /-- None of the forms of a value with several forms was matched. -/
  | noForm (typeName : String)
  deriving DecidableEq

def ticked (name : String) : String :=
  "\x60" ++ name ++ "\x60"

def oneOf : List String → String
  | [] => "there are no fields"
  | [a] => "expected " ++ ticked a
  | [a, b] => "expected " ++ ticked a ++ " or " ++ ticked b
  | names => "expected one of " ++ ", ".intercalate (names.map ticked)

def Mismatch.message : Mismatch → String
  | .invalidType f expected =>
    "invalid type: " ++ f.text ++ ", expected " ++ expected
  | .invalidValue f expected =>
    "invalid value: " ++ f.text ++ ", expected " ++ expected
  | .invalidLength n expected =>
    "invalid length " ++ toString n ++ ", expected " ++ expected
  | .unknownVariant name variants =>
    "unknown variant " ++ ticked name ++ ", " ++ oneOf variants
  | .unknownField name fields =>
    "unknown field " ++ ticked name ++ ", " ++ oneOf fields
  | .missingField name => "missing field " ++ ticked name
  | .duplicateField name => "duplicate field " ++ ticked name
  | .noForm typeName =>
    "data did not match any variant of untagged enum " ++ typeName

end SqlWorkflow.Json
