import SqlWorkflow.Decimal.Shortest
import SqlWorkflow.Json.Value
import SqlWorkflow.Text.Hex

/-!
# JSON text

The compact form has no blanks at all; the indented form gives every item and
member a line of its own, two spaces further in than the bracket. Both keep the
order of members and escape only the quotation mark, the backslash and the
control characters.
-/

namespace SqlWorkflow.Json

structure FloatLayout where
  /-- The least exponent of the first digit that is written without an exponent
  part. -/
  leastPositional : Int
  /-- The greatest exponent of the first digit that is written without an
  exponent part. -/
  greatestPositional : Int

/-- Numbers from 0.00001 to below 10 ^ 16 are written out; others have an
exponent part. -/
def floatLayout : FloatLayout := ⟨-5, 15⟩

/-- Digits with the decimal point after the first `places` of them; zeros are
added where digits are missing on either side, at least one digit stands on
each. -/
def positional (digits : List Char) (exponent : Int) : List Char :=
  if exponent < 0 then
    ['0', '.'] ++ List.replicate ((-exponent).toNat - 1) '0' ++ digits
  else
    let places := exponent.toNat + 1
    let whole :=
      digits.take places ++ List.replicate (places - digits.length) '0'
    let fraction := digits.drop places
    whole ++ '.' :: (if fraction.isEmpty then ['0'] else fraction)

/-- Digits with the point after the first one, and an exponent part with its
sign. -/
def exponential (digits : List Char) (exponent : Int) : List Char :=
  let mantissa :=
    match digits with
    | [] => []
    | [d] => [d]
    | d :: ds => d :: '.' :: ds
  mantissa ++ 'e' :: (if exponent < 0 then '-' else '+') ::
    Nat.toDigits 10 exponent.natAbs

/-- The text of a floating-point number: its shortest decimal. -/
def floatText (x : Decimal.Binary64) : List Char :=
  let sign := if x.negative then ['-'] else []
  if x.isZero then sign ++ ['0', '.', '0']
  else
    let (digits, exponent) := Decimal.scientific (Decimal.shortest x)
    sign ++ if floatLayout.leastPositional ≤ exponent ∧
      exponent ≤ floatLayout.greatestPositional then
        positional digits exponent
      else exponential digits exponent

def intText : Int → List Char
  | .ofNat n => Nat.toDigits 10 n
  | .negSucc n => '-' :: Nat.toDigits 10 (n + 1)

def Number.text : Number → List Char
  | .int value => intText value
  | .float value => floatText value

def quotedChar (c : Char) : List Char :=
  if c = '"' then ['\\', '"']
  else if c = '\\' then ['\\', '\\']
  else if c = '\x08' then ['\\', 'b']
  else if c = '\t' then ['\\', 't']
  else if c = '\n' then ['\\', 'n']
  else if c = '\x0c' then ['\\', 'f']
  else if c = '\r' then ['\\', 'r']
  else if c.toNat < 0x20 then
    ['\\', 'u', '0', '0', Text.hexChar (c.toNat / 16),
      Text.hexChar (c.toNat % 16)]
  else [c]

def quoted (s : List Char) : List Char :=
  '"' :: (s.flatMap quotedChar ++ ['"'])

mutual

def compactChars : Json → List Char
  | .null => ['n', 'u', 'l', 'l']
  | .bool true => ['t', 'r', 'u', 'e']
  | .bool false => ['f', 'a', 'l', 's', 'e']
  | .number n => n.text
  | .string s => quoted s.toList
  | .array items => '[' :: (compactItems items ++ [']'])
  | .object members => '{' :: (compactMembers members ++ ['}'])

def compactItems : List Json → List Char
  | [] => []
  | [item] => compactChars item
  | item :: items => compactChars item ++ ',' :: compactItems items

def compactMembers : Members → List Char
  | [] => []
  | [(key, value)] => quoted key.toList ++ ':' :: compactChars value
  | (key, value) :: members =>
    quoted key.toList ++ ':' ::
      (compactChars value ++ ',' :: compactMembers members)

end

/-- The compact text of a value, as a string. -/
def compact (value : Json) : String :=
  String.ofList (compactChars value)

/-- The blanks at the beginning of an indented line, after the line feed. -/
def lineStart (level : Nat) : List Char :=
  '\n' :: List.replicate (2 * level) ' '

mutual

/-- The indented text of a value that stands `level` brackets deep. -/
def indentedChars (level : Nat) : Json → List Char
  | .array [] => ['[', ']']
  | .array items =>
    '[' :: (indentedItems (level + 1) items ++ lineStart level ++ [']'])
  | .object [] => ['{', '}']
  | .object members =>
    '{' :: (indentedMembers (level + 1) members ++ lineStart level ++ ['}'])
  | .null => compactChars .null
  | .bool b => compactChars (.bool b)
  | .number n => n.text
  | .string s => quoted s.toList

def indentedItems (level : Nat) : List Json → List Char
  | [] => []
  | [item] => lineStart level ++ indentedChars level item
  | item :: items =>
    lineStart level ++ indentedChars level item ++ ',' ::
      indentedItems level items

def indentedMembers (level : Nat) : Members → List Char
  | [] => []
  | [(key, value)] =>
    lineStart level ++ quoted key.toList ++ ':' :: ' ' ::
      indentedChars level value
  | (key, value) :: members =>
    lineStart level ++ quoted key.toList ++ ':' :: ' ' ::
      (indentedChars level value ++ ',' :: indentedMembers level members)

end

/-- The indented text of a value, as a string. -/
def indented (value : Json) : String :=
  String.ofList (indentedChars 0 value)

end SqlWorkflow.Json
