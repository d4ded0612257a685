import SqlWorkflow.Yaml.BlockScalar
import SqlWorkflow.Yaml.FlowScalar

/-!
# YAML tokens

The marks and scalars that YAML text is made of. Collections in block style have
no marks of their own; their tokens come from the indentation of lines.
-/

namespace SqlWorkflow.Yaml

inductive Token
  | version (major minor : Nat)
  | tagHandle (handle expansion : String)
  | documentStart
  | documentEnd
  | blockSequence
  | blockMapping
  | blockEnd
  | flowSequence
  | flowSequenceEnd
  | flowMapping
  | flowMappingEnd
  | flowEntry
  | blockEntry
  | key
  | value
  | anchor (name : String)
  /-- Stands for the node that has the anchor. -/
  | again (anchor : String)
  | tag (handle suffix : String)
  | scalar (text : String) (isPlain : Bool)
  deriving DecidableEq

def isNameChar (c : Char) : Bool :=
  c.isAlphanum || c == '_' || c == '-'

/-- A name at the head of a text, and the rest. -/
def takeName (text : List Char) : List Char × List Char :=
  (text.takeWhile isNameChar, text.dropWhile isNameChar)

def endsName (text : List Char) : Bool :=
  atGapOrEnd text ||
    text.head?.any fun c => c ∈ ['?', ':', ',', ']', '}', '%', '@', '\x60']

/-- The name of an anchor, and the rest. -/
def anchorName (text : List Char) : Option (String × List Char) :=
  let (name, rest) := takeName text
  if name.isEmpty || !endsName rest then none
  else some (String.ofList name, rest)

def isTagChar (c : Char) : Bool :=
  isNameChar c || c ∈
    [';', '/', '?', ':', '@', '&', '=', '+', '$', '.', '%', '!', '~', '*',
      '\'', '(', ')']

/-- The bytes that pairs of hexadecimal digits after percent signs stand for,
and the rest. -/
def percentBytes : List Char → List UInt8 × List Char
  | '%' :: a :: b :: rest =>
    match Text.hexValue? [a, b] with
    | some n =>
      let (bytes, after) := percentBytes rest
      (n.toUInt8 :: bytes, after)
    | none => ([], '%' :: a :: b :: rest)
  | text => ([], text)

/-- The text of a tag with its percent signs resolved; bytes that are no text
are a fault. -/
def tagText : Nat → List Char → Option (List Char)
  | _, [] => some []
  | 0, _ => none
  | fuel + 1, '%' :: rest =>
    let (bytes, after) := percentBytes ('%' :: rest)
    if bytes.isEmpty then none
    else
      (String.fromUTF8? ⟨bytes.toArray⟩).bind fun decoded =>
        (tagText fuel after).map (decoded.toList ++ ·)
  | fuel + 1, c :: rest => (tagText fuel rest).map (c :: ·)

/-- The characters of a tag at the head of a text, and the rest. `wide` admits
commas and brackets. -/
def tagPart (wide : Bool) (text : List Char) : Option (List Char × List Char) :=
  let fits (c : Char) : Bool :=
    isTagChar c || (wide && (c == ',' || c == '[' || c == ']'))
  let part := text.takeWhile fits
  (tagText (part.length + 1) part).map fun decoded =>
    (decoded, text.dropWhile fits)

/-- A handle at the head of a text: `!`, `!!` or `!name!`; without the second
mark, `!name`. -/
def tagHandleText : List Char → Option (List Char × List Char)
  | '!' :: rest =>
    let (name, after) := takeName rest
    match after with
    | '!' :: more => some ('!' :: (name ++ ['!']), more)
    | _ => some ('!' :: name, after)
  | _ => none

def isClosedHandle (handle : List Char) : Bool :=
  1 < handle.length && handle.getLast? == some '!'

/-- A tag without brackets: a handle and a suffix. -/
def shortTag (text : List Char) : Option (Token × List Char) :=
  match tagHandleText text with
  | none => none
  | some (handle, rest) =>
    if isClosedHandle handle then
      match tagPart false rest with
      | some (suffix, after) =>
        if suffix.isEmpty then none
        else some (.tag (String.ofList handle) (String.ofList suffix), after)
      | none => none
    else
      (tagPart false rest).map fun (more, after) =>
        let suffix := handle.drop 1 ++ more
        if suffix.isEmpty then (.tag "" "!", after)
        else (.tag "!" (String.ofList suffix), after)

/-- Reads a tag that begins at the head of a text. -/
def readTag (inFlow : Bool) (text : List Char) : Option (Token × List Char) :=
  let read :=
    match text with
    | '!' :: '<' :: rest =>
      match tagPart true rest with
      | some (uri, '>' :: after) =>
        if uri.isEmpty then none
        else some (Token.tag "" (String.ofList uri), after)
      | _ => none
    | _ => shortTag text
  match read with
  | some (token, rest) =>
    if atGapOrEnd rest || (inFlow && rest.head? = some ',') then
      some (token, rest) else none
  | none => none

/-- A number of at most nine digits, and the rest. -/
def versionNumber (text : List Char) : Option (Nat × List Char) :=
  let digits := text.takeWhile Char.isDigit
  if digits.isEmpty || 9 < digits.length then none
  else some (digits.foldl (fun n c => 10 * n + (c.toNat - 48)) 0,
    text.dropWhile Char.isDigit)

def versionDirective (text : List Char) : Option (Token × List Char) :=
  match versionNumber (text.dropWhile isGap) with
  | some (major, '.' :: rest) =>
    (versionNumber rest).map fun (minor, after) => (.version major minor, after)
  | _ => none

/-- The handle in a directive, with what it stands for. -/
def tagDirective (text : List Char) : Option (Token × List Char) :=
  match tagHandleText (text.dropWhile isGap) with
  | none => none
  | some (handle, rest) =>
    if (handle != ['!'] && !isClosedHandle handle) || !rest.head?.any isGap then
      none
    else
      match tagPart true (rest.dropWhile isGap) with
      | none => none
      | some (expansion, after) =>
        if expansion.isEmpty || !atGapOrEnd after then none
        else some
          (.tagHandle (String.ofList handle) (String.ofList expansion), after)

/-- Reads a directive after its percent sign; blanks and a comment may follow it
on the line. -/
def readDirective (text : List Char) : Option (Token × List Char) :=
  let (name, rest) := takeName text
  if !atGapOrEnd rest then none
  else
    let read :=
      if name = ['Y', 'A', 'M', 'L'] then versionDirective rest
      else if name = ['T', 'A', 'G'] then tagDirective rest
      else none
    match read with
    | none => none
    | some (token, after) => (afterHeader after).map fun next => (token, next)

end SqlWorkflow.Yaml
