/-!
# Places in YAML text

The layout of YAML text is part of its meaning, so reading keeps track of lines
and columns. A line ends with a carriage return, a line feed, both in this
order, or one of three further characters.
-/

namespace SqlWorkflow.Yaml

def isBreak (c : Char) : Bool :=
  c == '\n' || c == '\r' || c == '\u0085' || c == '\u2028' || c == '\u2029'

def isGap (c : Char) : Bool :=
  c == ' ' || c == '\t'

/-- Whether a text is empty or begins with a gap or the end of a line. -/
def atGapOrEnd : List Char → Bool
  | [] => true
  | c :: _ => isGap c || isBreak c

/-- The character that the end of a line stands for in a value. -/
def breakValue (c : Char) : Char :=
  if c = '\u2028' ∨ c = '\u2029' then c else '\n'

def isAllowed (c : Char) : Bool :=
  let n := c.toNat
  n == 0x09 || n == 0x0A || n == 0x0D || (0x20 ≤ n && n ≤ 0x7E) || n ==
    0x85 || (0xA0 ≤ n && n ≤ 0xD7FF) || (0xE000 ≤ n && n ≤ 0xFFFD) ||
      (0x10000 ≤ n && n ≤ 0x10FFFF)

/-- Whether a text begins with a mark between documents, which stands alone. -/
def atDocumentMark : List Char → Bool
  | '-' :: '-' :: '-' :: rest => atGapOrEnd rest
  | '.' :: '.' :: '.' :: rest => atGapOrEnd rest
  | _ => false

/-- The unread text, with its place. -/
structure Cursor where
  text : List Char
  line : Nat
  column : Nat
  /-- The number of characters before the place. -/
  index : Nat

namespace Cursor

def start (text : List Char) : Cursor := ⟨text, 0, 0, 0⟩

/-- One character further, or past the end of the line. -/
def next (c : Cursor) : Cursor :=
  match c.text with
  | [] => c
  | '\r' :: '\n' :: rest => ⟨rest, c.line + 1, 0, c.index + 2⟩
  | ch :: rest =>
    if isBreak ch then ⟨rest, c.line + 1, 0, c.index + 1⟩
    else ⟨rest, c.line, c.column + 1, c.index + 1⟩

def skip : Nat → Cursor → Cursor
  | 0, c => c
  | n + 1, c => skip n c.next

/-- Forward by a number of characters, of which the two at the end of a line
count as two. -/
def forward : Nat → Cursor → Cursor
  | 0, c => c
  | 1, c => c.next
  | n + 2, c =>
    match c.text with
    | '\r' :: '\n' :: _ => forward n c.next
    | _ => forward (n + 1) c.next

def moveTo (rest : List Char) (c : Cursor) : Cursor :=
  forward (c.text.length - rest.length) c

end Cursor

end SqlWorkflow.Yaml
