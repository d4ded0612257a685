import SqlWorkflow.Yaml.Token

/-!
# Tokens from the layout of a text

Outside flow collections, the indentation of lines opens and closes collections.
A key is recognized only when its colon is met; the place where it began is
remembered until then, and the tokens that open its mapping are put there. Such
a key lies on one line and is no longer than 1024 characters.
-/

namespace SqlWorkflow.Yaml

structure KeyPlace where
  /-- Whether nothing but a key can stand here. -/
  required : Bool
  /-- The number of tokens before the place. -/
  before : Nat
  line : Nat
  column : Nat
  index : Nat

/-- The tokens read so far, with what is known about the layout. -/
structure Layout where
  cursor : Cursor
  /-- The tokens, last token first. -/
  tokens : List Token
  count : Nat
  /-- The columns of the open block collections, innermost first. -/
  indents : List Nat
  /-- Whether a key may begin here. -/
  keyAllowed : Bool
  /-- The places of possible keys: one for each open flow collection, innermost
  first, and one for the block level. -/
  keys : List (Option KeyPlace)

namespace Layout

/-- Before the first token. A byte order mark at the head of the text takes up a
column. -/
def start (text : List Char) : Layout :=
  let cursor := Cursor.start text
  ⟨if text.head? = some '\uFEFF' then cursor.next else cursor, [], 0, [],
    true, [none]⟩

def inFlow (s : Layout) : Bool := 1 < s.keys.length

def indent? (s : Layout) : Option Nat := s.indents.head?

def emit (token : Token) (s : Layout) : Layout :=
  { s with tokens := token :: s.tokens, count := s.count + 1 }

/-- Adds tokens behind the first `before` ones. -/
def emitAt (before : Nat) (tokens : List Token) (s : Layout) : Layout :=
  let later := s.count - before
  { s with
    tokens := s.tokens.take later ++ (tokens.reverse ++ s.tokens.drop later)
    count := s.count + tokens.length }

def moveTo (rest : List Char) (s : Layout) : Layout :=
  { s with cursor := s.cursor.moveTo rest }

def skip (count : Nat) (s : Layout) : Layout :=
  { s with cursor := s.cursor.skip count }

def allowKey (allowed : Bool) (s : Layout) : Layout :=
  { s with keyAllowed := allowed }

/-- Whether a key that began at a place may still end here. -/
def isFresh (s : Layout) (place : KeyPlace) : Bool :=
  place.line == s.cursor.line && s.cursor.index ≤ place.index + 1024

/-- Gives up the places of keys that are too far back; it is a fault if one was
required. -/
def expire (s : Layout) : Option Layout :=
  let isStale := fun (place : KeyPlace) => !s.isFresh place
  if s.keys.any fun place => place.any fun p => isStale p && p.required then
    none
  else some { s with keys := s.keys.map fun place => place.filter s.isFresh }

/-- Gives up the innermost place of a key; it is a fault if one was required. -/
def dropKey (s : Layout) : Option Layout :=
  match s.keys with
  | some place :: outer =>
    if place.required then none else some { s with keys := none :: outer }
  | _ => some s

/-- Remembers this place, if a key may begin here. -/
def saveKey (s : Layout) : Option Layout :=
  if !s.keyAllowed then some s
  else
    let place : KeyPlace :=
      { required := !s.inFlow && s.indent? == some s.cursor.column
        before := s.count
        line := s.cursor.line
        column := s.cursor.column
        index := s.cursor.index }
    s.dropKey.map fun s => { s with keys := some place :: s.keys.drop 1 }

/-- Opens a block collection at a column that is further in than the innermost
one. -/
def openBlock (token : Token) (column before : Nat) (s : Layout) : Layout :=
  if s.inFlow || s.indent?.any (column ≤ ·) then s
  else emitAt before [token] { s with indents := column :: s.indents }

/-- Closes the block collections that are further in than a column; all of them
if none is given. -/
def closeBlocks (column : Option Nat) (s : Layout) : Layout :=
  if s.inFlow then s
  else
    let isOpen := fun indent => column.any (indent ≤ ·)
    let closed := (s.indents.takeWhile (!isOpen ·)).length
    { s with
      indents := s.indents.drop closed
      tokens := List.replicate closed .blockEnd ++ s.tokens
      count := s.count + closed }

/-- Passes over blanks, comments and ends of lines. -/
def skipBlank : Nat → Layout → Layout
  | 0, s => s
  | fuel + 1, s =>
    match s.cursor.text with
    | [] => s
    | c :: rest =>
      if c == ' ' || (c == '\t' && (s.inFlow || !s.keyAllowed)) then
        skipBlank fuel (s.skip 1)
      else if c == '#' then
        skipBlank fuel (s.moveTo (rest.dropWhile (!isBreak ·)))
      else if isBreak c then
        skipBlank fuel ((s.skip 1).allowKey (s.keyAllowed || !s.inFlow))
      else s

def directive (s : Layout) : Option Layout :=
  (s.closeBlocks none).dropKey.bind fun s =>
    (readDirective (s.cursor.text.drop 1)).map fun (token, rest) =>
      ((s.allowKey false).emit token).moveTo rest

def documentMark (token : Token) (s : Layout) : Option Layout :=
  (s.closeBlocks none).dropKey.map fun s =>
    ((s.allowKey false).emit token).skip 3

def openFlow (token : Token) (s : Layout) : Option Layout :=
  s.saveKey.map fun s =>
    (({ s with keys := none :: s.keys }.allowKey true).emit token).skip 1

def closeFlow (token : Token) (s : Layout) : Option Layout :=
  s.dropKey.map fun s =>
    let keys := if s.inFlow then s.keys.drop 1 else s.keys
    (({ s with keys := keys }.allowKey false).emit token).skip 1

def flowEntry (s : Layout) : Option Layout :=
  s.dropKey.map fun s => ((s.allowKey true).emit .flowEntry).skip 1

def blockEntry (s : Layout) : Option Layout :=
  if !s.inFlow && !s.keyAllowed then none
  else
    (s.openBlock .blockSequence s.cursor.column s.count).dropKey.map fun s =>
      ((s.allowKey true).emit .blockEntry).skip 1

def explicitKey (s : Layout) : Option Layout :=
  if !s.inFlow && !s.keyAllowed then none
  else
    (s.openBlock .blockMapping s.cursor.column s.count).dropKey.map fun s =>
      ((s.allowKey (!s.inFlow)).emit .key).skip 1

/-- A colon before a value: the key before it is one on this line, or one with a
question mark. -/
def value (s : Layout) : Option Layout :=
  match s.keys with
  | some place :: outer =>
    if s.isFresh place then
      let s := { s with keys := none :: outer }.emitAt place.before [.key]
      let s := s.openBlock .blockMapping place.column place.before
      some (((s.allowKey false).emit .value).skip 1)
    else if place.required then none
    else complex { s with keys := none :: outer }
  | _ => complex s
where
  /-- A colon after a key with a question mark. -/
  complex (s : Layout) : Option Layout :=
    if s.inFlow then some (((s.allowKey false).emit .value).skip 1)
    else if !s.keyAllowed then none
    else
      let s := s.openBlock .blockMapping s.cursor.column s.count
      some (((s.allowKey true).emit .value).skip 1)

/-- An anchor, or a reference to one. -/
def anchor (token : String → Token) (s : Layout) : Option Layout :=
  s.saveKey.bind fun s =>
    (anchorName (s.cursor.text.drop 1)).map fun (name, rest) =>
      ((s.allowKey false).emit (token name)).moveTo rest

def tag (s : Layout) : Option Layout :=
  s.saveKey.bind fun s =>
    (readTag s.inFlow s.cursor.text).map fun (token, rest) =>
      ((s.allowKey false).emit token).moveTo rest

def block (literal : Bool) (s : Layout) : Option Layout :=
  s.dropKey.bind fun s =>
    (blockScalar literal s.indent? (s.cursor.text.drop 1)).map
      fun (text, rest) =>
      ((s.allowKey true).emit (.scalar (String.ofList text) false)).moveTo rest

def quoted (mark : Char) (s : Layout) : Option Layout :=
  s.saveKey.bind fun s =>
    (quotedScalar mark (s.cursor.column + 1) (s.cursor.text.drop 1)).map
      fun (text, rest) =>
      ((s.allowKey false).emit (.scalar (String.ofList text) false)).moveTo rest

def plain (s : Layout) : Option Layout :=
  s.saveKey.bind fun s =>
    let indent := s.indent?.elim 0 (· + 1)
    (plainScalar s.inFlow indent s.cursor.column s.cursor.text).map
      fun scanned =>
      ((s.allowKey scanned.lineEnded).emit
        (.scalar (String.ofList scanned.text) true)).moveTo scanned.rest

/-- Whether a character is a mark that no plain scalar begins with. -/
def isMark (c : Char) : Bool :=
  c ∈ ['-', '?', ':', ',', '[', ']', '{', '}', '#', '&', '*', '!', '|', '>',
    '\'', '"', '%', '@', '\x60']

/-- Whether a plain scalar begins with a character before some text. -/
def startsPlain (inFlow : Bool) (c : Char) (rest : List Char) : Bool :=
  !(isMark c || isGap c || isBreak c) || (c == '-' && !rest.head?.any isGap) ||
    (!inFlow && (c == '?' || c == ':') && !atGapOrEnd rest)

/-- The next token, which begins with a character before some text. -/
def token (c : Char) (rest : List Char) (s : Layout) : Option Layout :=
  let atLineStart := s.cursor.column == 0
  let isAlone := s.inFlow || atGapOrEnd rest
  if atLineStart && c == '%' then s.directive
  else if atLineStart && atDocumentMark (c :: rest) then
    s.documentMark (if c = '-' then .documentStart else .documentEnd)
  else if c == '[' then s.openFlow .flowSequence
  else if c == '{' then s.openFlow .flowMapping
  else if c == ']' then s.closeFlow .flowSequenceEnd
  else if c == '}' then s.closeFlow .flowMappingEnd
  else if c == ',' then s.flowEntry
  else if c == '-' && atGapOrEnd rest then s.blockEntry
  else if c == '?' && isAlone then s.explicitKey
  else if c == ':' && isAlone then s.value
  else if c == '*' then s.anchor .again
  else if c == '&' then s.anchor .anchor
  else if c == '!' then s.tag
  else if c == '|' && !s.inFlow then s.block true
  else if c == '>' && !s.inFlow then s.block false
  else if c == '\'' || c == '"' then s.quoted c
  else if startsPlain s.inFlow c rest then s.plain
  else none

/-- The tokens from here to the end of the text. -/
def finish : Nat → Layout → Option (List Token)
  | 0, _ => none
  | fuel + 1, s =>
    match (skipBlank (s.cursor.text.length + 1) s).expire with
    | none => none
    | some s =>
      match s.cursor.text with
      | [] => (s.closeBlocks none).dropKey.map (·.tokens.reverse)
      | c :: rest =>
        ((s.closeBlocks (some s.cursor.column)).token c rest).bind (finish fuel)

end Layout

/-- The tokens of a text; none if it is not YAML. -/
def tokens? (text : List Char) : Option (List Token) :=
  if text.all isAllowed then
    Layout.finish (text.length + 1) (.start text) else none

end SqlWorkflow.Yaml
