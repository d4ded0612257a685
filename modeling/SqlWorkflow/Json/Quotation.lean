import SqlWorkflow.Json.Numeral
import SqlWorkflow.Text.Hex
import SqlWorkflow.Text.Parsed

/-!
# Strings in JSON text

The text of a string after its opening quotation mark. Escapes of surrogates
have to come in pairs when the string is read; when it is only passed over, they
need not.
-/

namespace SqlWorkflow.Json

open Text (Parsed)

def readHex (text : List Char) : Except SyntaxError (Parsed Nat text) :=
  match text with
  | a :: b :: c :: d :: rest =>
    match Text.hexValue? [a, b, c, d] with
    | some n => .ok ⟨n, rest, by simp only [List.length_cons]; omega⟩
    | none => .error ⟨.invalidEscape, ⟨a :: b :: c :: d :: rest, 4⟩⟩
  | short =>
    if Text.byteCount short < 4 then faultBefore .endInString []
    else .error ⟨.invalidEscape, ⟨short, 4⟩⟩

/-- Whether a code unit is the first of a pair. -/
def isLeading (n : Nat) : Bool := 0xD800 ≤ n && n ≤ 0xDBFF

/-- Whether a code unit is the second of a pair. -/
def isTrailing (n : Nat) : Bool := 0xDC00 ≤ n && n ≤ 0xDFFF

def pairedChar (leading trailing : Nat) : Char :=
  Char.ofNat ((leading - 0xD800) * 0x400 + (trailing - 0xDC00) + 0x10000)

/-- Reads a backslash and a `u`, which have to follow the first unit of a
pair. -/
def readEscapeHead (text : List Char) : Except SyntaxError (Parsed Unit text) :=
  match text with
  | [] => faultBefore .endInString []
  | '\\' :: [] => faultBefore .endInString []
  | '\\' :: 'u' :: rest =>
    .ok ⟨(), rest, by simp only [List.length_cons]; omega⟩
  | '\\' :: other => faultWithin .endOfHexEscape other
  | other => faultWithin .endOfHexEscape other

/-- Reads the digits of a numeric escape, and the second escape of a pair. -/
def readUnicodeEscape (text : List Char) :
    Except SyntaxError (Parsed Char text) :=
  match readHex text with
  | .error e => .error e
  | .ok first =>
    if isTrailing first.value then faultBefore .loneSurrogate first.rest
    else if !isLeading first.value then
      .ok ⟨Char.ofNat first.value, first.rest, first.shorter⟩
    else
      match readEscapeHead first.rest with
      | .error e => .error e
      | .ok head =>
        match readHex head.rest with
        | .error e => .error e
        | .ok second =>
          if isTrailing second.value then
            .ok ⟨pairedChar first.value second.value, second.rest, Nat.lt_trans
              second.shorter (Nat.lt_trans head.shorter first.shorter)⟩
          else faultBefore .loneSurrogate second.rest

/-- The character that a letter stands for after a backslash. -/
def escapedChar? : Char → Option Char
  | '"' => some '"'
  | '\\' => some '\\'
  | '/' => some '/'
  | 'b' => some '\x08'
  | 'f' => some '\x0c'
  | 'n' => some '\n'
  | 'r' => some '\r'
  | 't' => some '\t'
  | _ => none

def readEscape (text : List Char) : Except SyntaxError (Parsed Char text) :=
  match text with
  | [] => faultBefore .endInString []
  | c :: rest =>
    if c = 'u' then
      (readUnicodeEscape rest).map (·.weaken (Text.length_le_cons c rest))
    else
      match escapedChar? c with
      | some e => .ok ⟨e, rest, Text.length_lt_cons c rest⟩
      | none => faultWithin .invalidEscape (c :: rest)

/-- Reads the text of a string and its closing quotation mark. -/
def readQuotation (text : List Char) : Reading (List Char) :=
  match text with
  | [] => faultBefore .endInString []
  | c :: rest =>
    if c = '"' then .ok ([], rest)
    else if c = '\\' then
      match readEscape rest with
      | .error e => .error e
      | .ok p =>
        (readQuotation p.rest).map fun (tail, after) => (p.value :: tail, after)
    else if c.toNat < 0x20 then faultWithin .controlCharacter (c :: rest)
    else (readQuotation rest).map fun (tail, after) => (c :: tail, after)
termination_by text.length
decreasing_by
  · have := p.shorter
    simp only [List.length_cons]; omega
  · simp only [List.length_cons]; omega

def skipEscape (text : List Char) : Except SyntaxError (Parsed Unit text) :=
  match text with
  | [] => faultBefore .endInString []
  | c :: rest =>
    if c = 'u' then
      (readHex rest).map fun p =>
        (p.map fun _ => ()).weaken (Text.length_le_cons c rest)
    else if (escapedChar? c).isSome then
      .ok ⟨(), rest, Text.length_lt_cons c rest⟩
    else faultWithin .invalidEscape (c :: rest)

/-- Passes over the text of a string and its closing quotation mark. -/
def skipQuotation (text : List Char) : Except SyntaxError (Parsed Unit text) :=
  match text with
  | [] => faultBefore .endInString []
  | c :: rest =>
    have hlt : rest.length < (c :: rest).length := Text.length_lt_cons c rest
    if c = '"' then .ok ⟨(), rest, hlt⟩
    else if c = '\\' then
      match skipEscape rest with
      | .error e => .error e
      | .ok p =>
        (skipQuotation p.rest).map
          (·.weaken (Nat.le_of_lt (Nat.lt_trans p.shorter hlt)))
    else if c.toNat < 0x20 then faultBefore .controlCharacter (c :: rest)
    else (skipQuotation rest).map (·.weaken (Nat.le_of_lt hlt))
termination_by text.length
decreasing_by
  · have := p.shorter
    simp only [List.length_cons]; omega
  · simp only [List.length_cons]; omega

end SqlWorkflow.Json
