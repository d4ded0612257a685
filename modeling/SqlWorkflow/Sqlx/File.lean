import SqlWorkflow.Sqlx.Block

/-!
# SQL-template files

A file is cut into pieces, in order: stretches of plain SQL and keyword blocks.
The pieces put together are the file, byte for byte. The body of a file is its
plain stretches put together; the contents of the blocks are sorted by kind.
-/

namespace SqlWorkflow.Sqlx

open Lexical

inductive Piece
  /-- Text that belongs to the body. -/
  | plain (text : List Char)
  /-- A block: its kind, the blanks before its opening brace, and what stands
  between its braces. -/
  | block (kind : BlockKind) (blank content : List Char)
  deriving DecidableEq

namespace Piece

def text : Piece → List Char
  | .plain text => text
  | .block kind blank content =>
    kind.keyword.toList ++ (blank ++ '{' :: (content ++ ['}']))

def body : Piece → List Char
  | .plain text => text
  | .block .. => []

def contentOf? (kind : BlockKind) : Piece → Option String
  | .plain _ => none
  | .block k _ content =>
    if k = kind then some (String.ofList content) else none

end Piece

inductive ExtractError
  /-- The brace of a block that begins on this line is never closed. -/
  | unclosedBlock (kind : BlockKind) (line : Nat)
  /-- A second `config` block begins on this line. -/
  | duplicateConfig (line : Nat)
  deriving DecidableEq

def ExtractError.message : ExtractError → String
  | .unclosedBlock kind line =>
    "Unclosed \"" ++ kind.keyword ++ "\" block starting on line " ++
      toString line
  | .duplicateConfig line =>
    "Only one \"config\" block is allowed per file (second one on line " ++
      toString line ++ ")"

/-- The block that begins at the head of a text; none does after a word
character. -/
def blockHead? (previous : Option Char) (text : List Char) :
    Option (BlockKind × List Char × List Char) :=
  if previous.any isWordChar then none else opening? text

theorem blockHead?_length_lt {previous : Option Char}
    {text blank inside : List Char} {kind : BlockKind}
    (h : blockHead? previous text = some (kind, blank, inside)) :
    inside.length < text.length := by
  rw [blockHead?] at h
  split at h
  · cases h
  · exact opening?_length_lt h

/-- Cuts a text into pieces. `previous` is the character before the text, `line`
the line on which it begins, and `configured` tells whether a `config` block
stands before it. -/
def pieces (previous : Option Char) (line : Nat) (configured : Bool)
    (text : List Char) : Except ExtractError (List Piece) :=
  match _h : next? .sql text with
  | none => .ok []
  | some (lexeme, rest) =>
    match _hb : blockHead? previous text with
    | some (kind, blank, inside) =>
      match _hc : closing? kind.dialect 0 inside with
      | none => .error (.unclosedBlock kind line)
      | some (content, after) =>
        if kind = .config ∧ configured then .error (.duplicateConfig line)
        else
          let piece := Piece.block kind blank content
          (pieces (some '}') (line + Text.lineFeeds piece.text)
            (configured || kind == .config) after).map (piece :: ·)
    | none =>
      (pieces lexeme.text.getLast? (line + Text.lineFeeds lexeme.text)
        configured rest).map (.plain lexeme.text :: ·)
termination_by text.length
decreasing_by
  · exact Nat.lt_trans (closing?_length_lt _hc) (blockHead?_length_lt _hb)
  · exact next?_length_lt _h

/-- The blocks of a file, sorted by kind, and its body. -/
structure Blocks where
  config : Option String
  /-- The contents of all `js` blocks, one per line. -/
  script : Option String
  preOperations : List String
  postOperations : List String
  body : String
  deriving DecidableEq

def Blocks.ofPieces (pieces : List Piece) : Blocks :=
  let scripts := pieces.filterMap (Piece.contentOf? .script)
  { config := (pieces.filterMap (Piece.contentOf? .config)).head?
    script := if scripts.isEmpty then none else some ("\n".intercalate scripts)
    preOperations := pieces.filterMap (Piece.contentOf? .preOperations)
    postOperations := pieces.filterMap (Piece.contentOf? .postOperations)
    body := String.ofList (pieces.flatMap Piece.body) }

def extractBlocks (text : String) : Except ExtractError Blocks :=
  (pieces none 1 false text.toList).map Blocks.ofPieces

end SqlWorkflow.Sqlx
