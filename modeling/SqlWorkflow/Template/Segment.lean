import SqlWorkflow.Lexical.Brace

/-!
# Templates

A template is text with placeholders `${ expression }` in it. The braces of a
placeholder are matched as script braces, so an expression may hold braces of
its own. A backslash before `${` makes it plain text.
-/

namespace SqlWorkflow.Template

open Lexical

inductive Segment
  /-- Text that is copied; an escaped opening of a placeholder is held without
  its backslash. -/
  | text (text : String)
  /-- The expression between the braces of a placeholder. -/
  | placeholder (source : String)
  deriving DecidableEq

/-- The placeholder that begins on this line is never closed. -/
structure UnclosedPlaceholder where
  line : Nat
  deriving DecidableEq

def UnclosedPlaceholder.message (e : UnclosedPlaceholder) : String :=
  "Unclosed \"$\x7b\" placeholder starting on line " ++ toString e.line

/-- Puts pending text, given in reverse, before other segments; empty text is no
segment. -/
def flush (reversed : List Char) (segments : List Segment) : List Segment :=
  if reversed.isEmpty then segments
  else .text (String.ofList reversed.reverse) :: segments

/-- Cuts a template into segments. `line` is the line on which it begins, and
`reversed` the text since the last placeholder, in reverse. -/
def cut (line : Nat) (reversed : List Char) (template : List Char) :
    Except UnclosedPlaceholder (List Segment) :=
  match template with
  | [] => .ok (flush reversed [])
  | '\\' :: '$' :: '{' :: rest => cut line ('{' :: '$' :: reversed) rest
  | '$' :: '{' :: inside =>
    match _h : closing? .script 0 inside with
    | none => .error ⟨line⟩
    | some (source, after) =>
      (cut (line + Text.lineFeeds source) [] after).map fun segments =>
        flush reversed (.placeholder (String.ofList source) :: segments)
  | c :: rest => cut (if c = '\n' then line + 1 else line) (c :: reversed) rest
termination_by template.length
decreasing_by
  · simp only [List.length_cons]; omega
  · have := closing?_length_lt _h
    simp only [List.length_cons]; omega
  · simp only [List.length_cons]; omega

def segments (template : String) : Except UnclosedPlaceholder (List Segment) :=
  cut 1 [] template.toList

end SqlWorkflow.Template
