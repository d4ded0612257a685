import SqlWorkflow.Text.Bytes

/-!
# Faults in JSON text

A fault is met at a place: so many bytes into the text that was still unread. In
messages a place is given as a line, counted from one, and the number of bytes
on that line before the place.
-/

namespace SqlWorkflow.Json

/-- Why a text is not JSON. -/
inductive Fault
  | endInList
  | endInObject
  | endInString
  | endInValue
  | expectedColon
  | expectedListComma
  | expectedObjectComma
  | expectedIdent
  | expectedValue
  | invalidEscape
  | invalidNumber
  | numberOutOfRange
  | controlCharacter
  | keyMustBeString
  | loneSurrogate
  | endOfHexEscape
  | trailingComma
  | trailingCharacters
  | nestedTooDeeply
  deriving DecidableEq

def Fault.text : Fault → String
  | .endInList => "EOF while parsing a list"
  | .endInObject => "EOF while parsing an object"
  | .endInString => "EOF while parsing a string"
  | .endInValue => "EOF while parsing a value"
  | .expectedColon => "expected \x60:\x60"
  | .expectedListComma => "expected \x60,\x60 or \x60]\x60"
  | .expectedObjectComma => "expected \x60,\x60 or \x60\x7d\x60"
  | .expectedIdent => "expected ident"
  | .expectedValue => "expected value"
  | .invalidEscape => "invalid escape"
  | .invalidNumber => "invalid number"
  | .numberOutOfRange => "number out of range"
  | .controlCharacter =>
    "control character (\\u0000-\\u001F) found while parsing a string"
  | .keyMustBeString => "key must be a string"
  | .loneSurrogate => "lone leading surrogate in hex escape"
  | .endOfHexEscape => "unexpected end of hex escape"
  | .trailingComma => "trailing comma"
  | .trailingCharacters => "trailing characters"
  | .nestedTooDeeply => "recursion limit exceeded"

/-- A place in a text: some bytes into its unread part. -/
structure Place where
  unread : List Char
  bytes : Nat
  deriving DecidableEq

def Place.before (unread : List Char) : Place := ⟨unread, 0⟩

/-- The place after the first byte of an unread part. -/
def Place.within (unread : List Char) : Place := ⟨unread, 1⟩

/-- A line and the bytes on it before a place. -/
structure Position where
  line : Nat
  column : Nat
  deriving DecidableEq

def Position.advance (p : Position) (text : List Char) : Position :=
  text.foldl (fun p c => if c = '\n' then
    ⟨p.line + 1, 0⟩ else ⟨p.line, p.column + c.utf8Size⟩) p

/-- The position some bytes further on; it may lie inside a character. -/
def Position.advanceBytes (p : Position) : Nat → List Char → Position
  | _, [] => p
  | bytes, c :: rest =>
    if c.utf8Size ≤ bytes then
      (p.advance [c]).advanceBytes (bytes - c.utf8Size) rest
    else ⟨p.line, p.column + bytes⟩

def Place.position (place : Place) (text : List Char) : Position :=
  (Position.advance ⟨1, 0⟩
    (text.take (text.length - place.unread.length))).advanceBytes
    place.bytes place.unread

/-- The words that tell a position. -/
def Position.text (p : Position) : String :=
  "at line " ++ toString p.line ++ " column " ++ toString p.column

structure SyntaxError where
  fault : Fault
  place : Place
  deriving DecidableEq

def SyntaxError.message (e : SyntaxError) (text : List Char) : String :=
  e.fault.text ++ " " ++ (e.place.position text).text

end SqlWorkflow.Json
