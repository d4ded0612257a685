import SqlWorkflow.Decimal.Numeral
import SqlWorkflow.Json.Value
import SqlWorkflow.Text.Hex
import SqlWorkflow.Yaml.Node

/-!
# YAML nodes as JSON values

A plain scalar without a tag may be null, a truth value or a number; any other
scalar is a string. A tag of the core schema fixes the type. Nodes with other
tags of their own have no JSON value, and neither has a number beyond 64 bits.
-/

namespace SqlWorkflow.Yaml

def isNullWord (text : String) : Bool :=
  text ∈ ["null", "Null", "NULL", "~"]

/-- The truth value that a text is a word for. -/
def boolWord? (text : String) : Option Bool :=
  if text ∈ ["true", "True", "TRUE"] then some true
  else if text ∈ ["false", "False", "FALSE"] then some false
  else none

/-- The value of a digit in a base of at most sixteen. -/
def digitIn? (base : Nat) (c : Char) : Option Nat :=
  (Text.hexDigit? c).filter (· < base)

/-- The value of a non-empty run of digits in a base. -/
def digitsIn? (base : Nat) (digits : List Char) : Option Nat :=
  if digits.isEmpty then none
  else digits.foldlM (fun value c => (digitIn? base c).map (base * value + ·)) 0

/-- Whether a text without its sign is a zero before more digits; that is no
number. -/
def hasLeadingZero (text : List Char) : Bool :=
  let body := match text with
    | '-' :: rest => rest
    | '+' :: rest => rest
    | _ => text
  1 < body.length && body.head? == some '0' && body.all Char.isDigit

/-- The natural number that a text without a sign denotes, in base two, eight,
sixteen or ten. -/
def natural? (text : List Char) : Option Nat :=
  match text with
  | '0' :: 'x' :: digits => digitsIn? 16 digits
  | '0' :: 'o' :: digits => digitsIn? 8 digits
  | '0' :: 'b' :: digits => digitsIn? 2 digits
  | _ => if hasLeadingZero text then none else digitsIn? 10 text

/-- The integer that a text denotes. -/
def integer? : List Char → Option Int
  | '-' :: rest => (natural? rest).map fun n => -(n : Int)
  | '+' :: rest => (natural? rest).map fun n => (n : Int)
  | text => (natural? text).map fun n => (n : Int)

/-- Whether an integer fits 64 bits, signed or not. -/
def fits64 (n : Int) : Bool :=
  -0x8000000000000000 ≤ n && n < 0x10000000000000000

/-- Whether an integer fits 128 bits, signed or not. -/
def fits128 (n : Int) : Bool :=
  -0x80000000000000000000000000000000 ≤ n && n <
    0x100000000000000000000000000000000

inductive FloatWord
  | finite (value : Decimal.Binary64)
  /-- Infinity, or no number. -/
  | special

/-- The floating-point number that a text denotes. -/
def float? (text : List Char) : Option FloatWord :=
  let unsigned := match text with
    | '+' :: rest => rest
    | _ => text
  if text.head? ==
      some '+' && unsigned.head?.any (fun c => c == '+' || c == '-') then none
  else if String.ofList unsigned ∈
      [".inf", ".Inf", ".INF"] || String.ofList text ∈
      ["-.inf", "-.Inf", "-.INF", ".nan", ".NaN", ".NAN"] then some .special
  else ((Decimal.numeral? unsigned).bind Decimal.Numeral.toBinary64?).map
    .finite

/-- The value of a floating-point number; infinity and no number have none. -/
def FloatWord.toJson : FloatWord → Json
  | .finite value => .number (.float value)
  | .special => .null

/-- The value of an integer; it is a fault if that does not fit 64 bits. -/
def intToJson (n : Int) : Option Json :=
  if fits64 n then some (.number (.int n)) else none

/-- The value of a plain scalar without a tag. -/
def plainToJson (text : String) : Option Json :=
  let chars := text.toList
  if text.isEmpty || isNullWord text then some .null
  else
    match boolWord? text, (integer? chars).filter fits128 with
    | some b, _ => some (.bool b)
    | none, some n => intToJson n
    | none, none =>
      if hasLeadingZero chars then some (.string text)
      else some (((float? chars).map FloatWord.toJson).getD (.string text))

/-- The tags of the core schema with a type that not every text has. -/
inductive CoreTag
  | null
  | bool
  | int
  | float

/-- The tag of the core schema that a tag is. -/
def CoreTag.of? (tag : String) : Option CoreTag :=
  if tag = "tag:yaml.org,2002:null" then some .null
  else if tag = "tag:yaml.org,2002:bool" then some .bool
  else if tag = "tag:yaml.org,2002:int" then some .int
  else if tag = "tag:yaml.org,2002:float" then some .float
  else none

/-- The value of a scalar whose type is fixed; it is a fault if the text is not
of the type. -/
def typedToJson (tag : CoreTag) (text : String) : Option Json :=
  let chars := text.toList
  match tag with
  | .null => if isNullWord text then some .null else none
  | .bool => (boolWord? text).map .bool
  | .int => ((integer? chars).filter fits128).bind intToJson
  | .float => (float? chars).map FloatWord.toJson

/-- Whether a tag belongs to an application rather than to the core schema. -/
def isLocalTag (tag : String) : Bool :=
  tag.toList.head? == some '!'

def scalarToJson (tag : Option String) (text : String)
    (isPlain : Bool) : Option Json :=
  match tag with
  | none => if isPlain then plainToJson text else some (.string text)
  | some t =>
    if isLocalTag t then none
    else
      match CoreTag.of? t with
      | some core => typedToJson core text
      | none => some (.string text)

namespace Node

def text? : Node → Option String
  | .scalar _ text _ => some text
  | _ => none

mutual

/-- The value of a node in which collections nest at most `depth` times. -/
def toJson? (depth : Nat) : Node → Option Json
  | .scalar tag text isPlain => scalarToJson tag text isPlain
  | .sequence tag items =>
    if tag.any isLocalTag || depth = 0 then none
    else (itemsToJson? (depth - 1) items).map .array
  | .mapping tag entries =>
    if tag.any isLocalTag || depth = 0 then none
    else (entriesToJson? (depth - 1) entries).map fun pairs =>
      .object (Json.Members.ofList pairs)

def itemsToJson? (depth : Nat) : List Node → Option (List Json)
  | [] => some []
  | item :: items =>
    match toJson? depth item with
    | none => none
    | some value => (itemsToJson? depth items).map (value :: ·)

/-- The keys and values of entries. A key is the text of a scalar, whatever its
type. -/
def entriesToJson? (depth : Nat) :
    List (Node × Node) → Option (List (String × Json))
  | [] => some []
  | (key, node) :: entries =>
    match key.text?, toJson? depth node with
    | some name,
      some value => (entriesToJson? depth entries).map ((name, value) :: ·)
    | _, _ => none

end

end Node

/-- The number of collections that may nest in a document. -/
def nestingLimit : Nat := 128

/-- The JSON value of a text that holds one document; a text without a document
is null. -/
def toJson? (text : String) : Option Json :=
  match document? text with
  | none => none
  | some none => some .null
  | some (some node) => node.toJson? nestingLimit

end SqlWorkflow.Yaml
