import SqlWorkflow.Text.Hex
import SqlWorkflow.Yaml.Cursor

/-!
# Plain and quoted scalars

Both run over several lines. What lies between two words, with at least one end
of a line in it, is folded: a single end of a line becomes a space, and of
several all but the first are kept.
-/

namespace SqlWorkflow.Yaml

structure Gap where
  /-- The spaces and tabs before the first end of a line. -/
  blanks : List Char
  /-- The ends of lines, as characters of the value. -/
  breaks : List Char

def Gap.empty : Gap := ⟨[], []⟩

/-- The text that a gap stands for. After an escaped end of a line, every end of
a line counts. -/
def Gap.folded (escaped : Bool) (gap : Gap) : List Char :=
  if escaped then gap.breaks
  else
    match gap.breaks with
    | [] => gap.blanks
    | ['\n'] => [' ']
    | '\n' :: more => more
    | breaks => breaks

/-- A gap at the head of a text, the column after it, and the rest. A tab before
column `indent` of a new line is a fault. -/
def readGap (indent : Nat) (newLine : Bool) (column : Nat) :
    List Char → Option (Gap × Nat × List Char)
  | [] => some (.empty, column, [])
  | '\r' :: '\n' :: rest =>
    (readGap indent true 0 rest).map fun (g, after) =>
      ({ g with breaks := '\n' :: g.breaks }, after)
  | c :: rest =>
    if isGap c then
      if newLine && c == '\t' && column < indent then none
      else
        (readGap indent newLine (column + 1) rest).map fun (g, after) =>
          (if newLine then g else { g with blanks := c :: g.blanks }, after)
    else if isBreak c then
      (readGap indent true 0 rest).map fun (g, after) =>
        ({ g with breaks := breakValue c :: g.breaks }, after)
    else some (.empty, column, c :: rest)

/-- The characters that end a word inside flow collections. -/
def isFlowMark (c : Char) : Bool :=
  c == ',' || c == '[' || c == ']' || c == '{' || c == '}'

/-- A word of a plain scalar and the rest. A colon right before a mark of a flow
collection is a fault. -/
def plainWord (inFlow : Bool) : List Char → Option (List Char × List Char)
  | [] => some ([], [])
  | c :: rest =>
    if isGap c || isBreak c then some ([], c :: rest)
    else if inFlow && c ==
        ':' && rest.head?.any (fun d => isFlowMark d || d == '?') then none
    else if c == ':' && atGapOrEnd rest then some ([], c :: rest)
    else if inFlow && isFlowMark c then some ([], c :: rest)
    else (plainWord inFlow rest).map fun (word, after) => (c :: word, after)

structure Scanned where
  text : List Char
  /-- Whether the scalar is followed by the end of a line that was read with
  it. -/
  lineEnded : Bool
  rest : List Char

/-- A plain scalar, or the rest of one after a gap. `indent` is the least column
of its further lines. -/
def plainFrom (inFlow : Bool)
    (indent : Nat) : Nat → Nat → List Char → Option Scanned
  | 0, _, _ => none
  | fuel + 1, column, text =>
    if (column = 0 && atDocumentMark text) || text.head? = some '#' then
      some ⟨[], false, text⟩
    else
      match plainWord inFlow text with
      | none => none
      | some ([], _) => some ⟨[], false, text⟩
      | some (word, rest) =>
        match readGap indent false (column + word.length) rest with
        | none => none
        | some (gap, after, next) =>
          let lineEnded := !gap.breaks.isEmpty
          if !inFlow && after < indent then some ⟨word, lineEnded, next⟩
          else
            match plainFrom inFlow indent fuel after next with
            | none => none
            | some more =>
              if more.text.isEmpty then some ⟨word, lineEnded, more.rest⟩
              else some ⟨word ++ gap.folded false ++ more.text, more.lineEnded,
                more.rest⟩

def plainScalar (inFlow : Bool) (indent column : Nat)
    (text : List Char) : Option Scanned :=
  plainFrom inFlow indent (text.length + 1) column text

def shortEscapes : List (Char × Char) :=
  [('0', '\x00'), ('a', '\x07'), ('b', '\x08'), ('t', '\t'), ('\t', '\t'),
    ('n', '\n'), ('v', '\x0b'), ('f', '\x0c'), ('r', '\r'), ('e', '\x1b'),
    (' ', ' '), ('"', '"'), ('/', '/'), ('\\', '\\'), ('N', '\u0085'),
    ('_', '\u00a0'), ('L', '\u2028'), ('P', '\u2029')]

def escapeDigits? : Char → Option Nat
  | 'x' => some 2
  | 'u' => some 4
  | 'U' => some 8
  | _ => none

/-- The character that a numeric escape with a number of digits stands for. -/
def numericEscape? (count : Nat) (text : List Char) : Option Char :=
  let digits := text.take count
  if digits.length = count then
    (Text.hexValue? digits).bind Text.charOf? else none

/-- The character of an escape, and the number of characters of the escape after
its letter. -/
def escape? (letter : Char) (text : List Char) : Option (Char × Nat) :=
  match shortEscapes.lookup letter with
  | some c => some (c, 0)
  | none =>
    (escapeDigits? letter).bind fun count =>
      (numericEscape? count text).map fun c => (c, count)

structure QuotedWord where
  text : List Char
  /-- Whether the word ends with an escaped end of a line. -/
  escaped : Bool
  rest : List Char

def QuotedWord.cons (c : Char) (word : QuotedWord) : QuotedWord :=
  { word with text := c :: word.text }

/-- A word of a scalar in single quotation marks; a doubled mark stands for
one. -/
def singleWord : List Char → QuotedWord
  | '\'' :: '\'' :: rest => (singleWord rest).cons '\''
  | c :: rest =>
    if c == '\'' || isGap c || isBreak c then ⟨[], false, c :: rest⟩
    else (singleWord rest).cons c
  | [] => ⟨[], false, []⟩

def doubleWord : Nat → List Char → Option QuotedWord
  | 0, _ => none
  | _, [] => some ⟨[], false, []⟩
  | fuel + 1, '\\' :: rest =>
    match rest with
    | [] => none
    | '\r' :: '\n' :: after => some ⟨[], true, after⟩
    | letter :: after =>
      if isBreak letter then some ⟨[], true, after⟩
      else
        match escape? letter after with
        | none => none
        | some (c, count) => (doubleWord fuel (after.drop count)).map (·.cons c)
  | fuel + 1, c :: rest =>
    if c == '"' || isGap c || isBreak c then some ⟨[], false, c :: rest⟩
    else (doubleWord fuel rest).map (·.cons c)

def quotedWord (mark : Char) (text : List Char) : Option QuotedWord :=
  if mark = '"' then doubleWord (text.length + 1) text
  else some (singleWord text)

/-- The rest of a quoted scalar, and what follows its closing mark. -/
def quotedFrom (mark : Char) :
    Nat → Nat → List Char → Option (List Char × List Char)
  | 0, _, _ => none
  | fuel + 1, column, text =>
    if text.isEmpty || (column = 0 && atDocumentMark text) then none
    else
      match quotedWord mark text with
      | none => none
      | some word =>
        match word.rest with
        | [] => none
        | c :: after =>
          if c = mark then some (word.text, after)
          else
            let column := if word.escaped then
              0 else column + (text.length - word.rest.length)
            match readGap 0 word.escaped column word.rest with
            | none => none
            | some (gap, next, rest) =>
              (quotedFrom mark fuel next rest).map fun (more, after) =>
                (word.text ++ gap.folded word.escaped ++ more, after)

/-- Reads a quoted scalar; the text begins after the opening mark, which stands
before `column`. -/
def quotedScalar (mark : Char) (column : Nat)
    (text : List Char) : Option (List Char × List Char) :=
  quotedFrom mark (text.length + 1) column text

end SqlWorkflow.Yaml
