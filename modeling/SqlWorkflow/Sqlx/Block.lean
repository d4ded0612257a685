import SqlWorkflow.Text.Blank
import SqlWorkflow.Text.Cut
import SqlWorkflow.Lexical.Brace

/-!
# Keyword blocks

A SQL-template file is a SQL body with blocks of the form `keyword { content }`
cut into it. This module recognises the head of a block and finds its end. A
keyword counts only where no word character stands on either side of it, and the
braces of its content are matched by the dialect of the block.
-/

namespace SqlWorkflow.Sqlx

open Lexical

/-- The kinds of block that a file may hold. -/
inductive BlockKind
  | config
  | script
  | preOperations
  | postOperations
  deriving DecidableEq

namespace BlockKind

def all : List BlockKind :=
  [.config, .script, .preOperations, .postOperations]

/-- The word that announces a block. -/
def keyword : BlockKind → String
  | .config => "config"
  | .script => "js"
  | .preOperations => "pre_operations"
  | .postOperations => "post_operations"

/-- The dialect in which the content of a block is read. -/
def dialect : BlockKind → Dialect
  | .config | .script => .script
  | .preOperations | .postOperations => .sql

end BlockKind

/-- The characters that continue a word, so that `myconfig` and `config.x` are
not keywords. -/
def isWordChar (c : Char) : Bool :=
  c.isAlphanum || c == '_' || c == '$' || c == '.'

/-- The blanks before the brace and the text after it, if a block of this kind
begins here. -/
def BlockKind.opening? (kind : BlockKind)
    (text : List Char) : Option (List Char × List Char) :=
  match Text.after? kind.keyword.toList text with
  | none => none
  | some tail =>
    if tail.head?.any isWordChar then none
    else
      match tail.dropWhile Text.isAsciiBlank with
      | '{' :: inside => some (tail.takeWhile Text.isAsciiBlank, inside)
      | _ => none

/-- The head of a block: its kind, the blanks before its brace, and the text
after the brace. -/
def opening? (text : List Char) : Option (BlockKind × List Char × List Char) :=
  BlockKind.all.findSome? fun kind => (kind.opening? text).map (kind, ·)

theorem BlockKind.opening?_append {kind : BlockKind}
    {text blank inside : List Char}
    (h : kind.opening? text = some (blank, inside)) :
    kind.keyword.toList ++ (blank ++ '{' :: inside) = text := by
  rw [BlockKind.opening?] at h
  split at h
  · cases h
  · rename_i tail ht
    rw [Text.after?_eq_some_iff] at ht
    split at h
    · cases h
    · split at h
      · rename_i rest hd
        cases h
        rw [ht, ← hd, List.takeWhile_append_dropWhile]
      · cases h

/-- Keyword, blanks and brace make up what was read. -/
theorem opening?_append {text blank inside : List Char} {kind : BlockKind}
    (h : opening? text = some (kind, blank, inside)) :
    kind.keyword.toList ++ (blank ++ '{' :: inside) = text := by
  obtain ⟨k, _, hk⟩ := List.exists_of_findSome?_eq_some h
  obtain ⟨⟨b, i⟩, hb, he⟩ := Option.map_eq_some_iff.1 hk
  cases he
  exact BlockKind.opening?_append hb

theorem opening?_length_lt {text blank inside : List Char} {kind : BlockKind}
    (h : opening? text = some (kind, blank, inside)) :
    inside.length < text.length := by
  have := congrArg List.length (opening?_append h)
  simp only [List.length_append, List.length_cons] at this
  omega

end SqlWorkflow.Sqlx
