import SqlWorkflow.Yaml.Cursor

/-!
# Block scalars

A block scalar holds the lines that are indented as far as its first one.
Literal lines keep their ends; folded lines are joined by spaces, except around
empty lines and lines that begin with a blank. The ends of lines after the last
one are kept, clipped to one or stripped.
-/

namespace SqlWorkflow.Yaml

/-- What becomes of the ends of lines after the last line. -/
inductive Chomping
  | strip
  | clip
  | keep
  deriving DecidableEq

structure BlockHeader where
  chomping : Chomping
  /-- The indentation of the lines against what holds the scalar, if it is
  given. -/
  indentation : Option Nat

/-- The chomping that a sign asks for. -/
def Chomping.of? : Char → Option Chomping
  | '+' => some .keep
  | '-' => some .strip
  | _ => none

/-- The indentation that a digit asks for; zero is none. -/
def indentationOf? (c : Char) : Option Nat :=
  if '1' ≤ c ∧ c ≤ '9' then some (c.toNat - 48) else none

/-- The header of a block scalar and the rest: a sign and a digit, in any
order. -/
def blockHeader (text : List Char) : BlockHeader × List Char :=
  match text with
  | [] => (⟨.clip, none⟩, [])
  | a :: rest =>
    match Chomping.of? a, indentationOf? a, rest with
    | some chomping, _, b :: more =>
      match indentationOf? b with
      | some n => (⟨chomping, some n⟩, more)
      | none => (⟨chomping, none⟩, rest)
    | some chomping, _, [] => (⟨chomping, none⟩, [])
    | none, some n, b :: more =>
      match Chomping.of? b with
      | some chomping => (⟨chomping, some n⟩, more)
      | none => (⟨.clip, some n⟩, rest)
    | none, some n, [] => (⟨.clip, some n⟩, [])
    | none, none, _ => (⟨.clip, none⟩, text)

/-- The rest of the line after a header; it holds blanks and a comment only. -/
def afterHeader (text : List Char) : Option (List Char) :=
  let rest := text.dropWhile isGap
  let rest :=
    if rest.head? = some '#' then rest.dropWhile (!isBreak ·) else rest
  match rest with
  | [] => some []
  | '\r' :: '\n' :: after => some after
  | c :: after => if isBreak c then some after else none

/-- Empty lines and the indentation of the line after them. -/
structure BlockGap where
  /-- The ends of the empty lines. -/
  breaks : List Char
  column : Nat
  /-- The greatest column that was reached. -/
  widest : Nat
  rest : List Char

/-- Passes over empty lines and the indentation of the line after them, up to
column `limit` if that is given. A tab in an indentation is a fault. -/
def blockGap (limit : Option Nat)
    (column widest : Nat) : List Char → Option BlockGap
  | [] => some ⟨[], column, max widest column, []⟩
  | '\r' :: '\n' :: rest =>
    (blockGap limit 0 (max widest column) rest).map fun g =>
      { g with breaks := '\n' :: g.breaks }
  | c :: rest =>
    let within := limit.all (column < ·)
    if c == ' ' && within then blockGap limit (column + 1) widest rest
    else if c == '\t' && within then none
    else if isBreak c then
      (blockGap limit 0 (max widest column) rest).map fun g =>
        { g with breaks := breakValue c :: g.breaks }
    else some ⟨[], column, max widest column, c :: rest⟩

/-- The end of a line, as a character of the value, and the rest. -/
def takeBreak : List Char → List Char × List Char
  | '\r' :: '\n' :: rest => (['\n'], rest)
  | c :: rest => if isBreak c then ([breakValue c], rest) else ([], c :: rest)
  | [] => ([], [])

/-- The end of the line before, and what is known of it. -/
structure LineEnd where
  ending : List Char
  /-- The ends of the empty lines after it. -/
  emptyLines : List Char
  /-- Whether the line before began with a blank. -/
  startedBlank : Bool

def LineEnd.joined (literal startsBlank : Bool)
    (before : LineEnd) : List Char :=
  if !literal && before.ending ==
      ['\n'] && !before.startedBlank && !startsBlank then
    if before.emptyLines.isEmpty then [' '] else before.emptyLines
  else before.ending ++ before.emptyLines

/-- What stands after the last line. -/
def LineEnd.chomped (chomping : Chomping) (last : LineEnd) : List Char :=
  match chomping with
  | .strip => []
  | .clip => last.ending
  | .keep => last.ending ++ last.emptyLines

/-- The lines of a block scalar and what follows them. -/
def blockLines (literal : Bool) (chomping : Chomping) (indent : Nat) :
    Nat → LineEnd → Nat → List Char → Option (List Char × List Char)
  | 0, _, _, _ => none
  | fuel + 1, before, column, text =>
    if column ≠ indent || text.isEmpty then some (before.chomped chomping, text)
    else
      let startsBlank := text.head?.any isGap
      let line := text.takeWhile (!isBreak ·)
      let (lineBreak, after) := takeBreak (text.dropWhile (!isBreak ·))
      let column := if lineBreak.isEmpty then column + line.length else 0
      match blockGap (some indent) column 0 after with
      | none => none
      | some gap =>
        let lineEnd : LineEnd := ⟨lineBreak, gap.breaks, startsBlank⟩
        (blockLines literal chomping indent fuel lineEnd gap.column
          gap.rest).map fun (more, rest) =>
            (before.joined literal startsBlank ++ line ++ more, rest)

/-- Reads a block scalar after its mark. `parent` is the indentation of what
holds it. -/
def blockScalar (literal : Bool) (parent : Option Nat) (text : List Char) :
    Option (List Char × List Char) :=
  let (header, rest) := blockHeader text
  match afterHeader rest with
  | none => none
  | some body =>
    let known := header.indentation.map (parent.getD 0 + ·)
    match blockGap known 0 0 body with
    | none => none
    | some gap =>
      let least := parent.elim 1 (· + 1)
      let indent := known.getD (max gap.widest least)
      blockLines literal header.chomping indent (gap.rest.length + 1)
        ⟨[], gap.breaks, false⟩ gap.column gap.rest

end SqlWorkflow.Yaml
