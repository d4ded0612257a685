import SqlWorkflow.Text.Bytes
import SqlWorkflow.Lexical.Delimiter

/-!
# Lexemes

A text is read left to right as a sequence of lexemes: single characters of
code, whole comments and whole quotations. Every lexeme keeps its own text, so
the texts of the lexemes put together are the text that was read, and the place
of a lexeme is the size of what stands before it.
-/

namespace SqlWorkflow.Lexical

inductive Lexeme
  /-- A character outside every comment and quotation. -/
  | code (c : Char)
  /-- A comment or quotation with its marks; `closed` is false when the text
  ended first. -/
  | enclosed (delimiter : Delimiter) (text : List Char) (closed : Bool)
  deriving DecidableEq

namespace Lexeme

def text : Lexeme → List Char
  | .code c => [c]
  | .enclosed _ text _ => text

def isComment : Lexeme → Bool
  | .code _ => false
  | .enclosed d _ _ => d.isComment

end Lexeme

/-- How far a comment or quotation reaches after its opener. -/
structure Enclosure where
  /-- The characters up to the end of the stretch, the closer included where it
  belongs to it. -/
  inside : List Char
  /-- What follows the stretch. -/
  rest : List Char
  /-- Whether an end was found. -/
  closed : Bool
  deriving DecidableEq

def Enclosure.after (head : List Char) (e : Enclosure) : Enclosure :=
  { e with inside := head ++ e.inside }

/-- Reads to the first closer. In a quotation a backslash hides the character
after it; a line comment may also end with the text. -/
def Delimiter.enclosure (d : Delimiter) : List Char → Enclosure
  | [] => ⟨[], [], d == .lineComment⟩
  | [c] =>
    if d.closer.isPrefixOf [c] then
      ⟨d.ownCloser, [c].drop d.ownCloser.length, true⟩
    else ⟨[c], [], d == .lineComment⟩
  | c :: e :: rest =>
    if !d.isComment && c == '\\' then (d.enclosure rest).after [c, e]
    else if d.closer.isPrefixOf (c :: e :: rest) then
      ⟨d.ownCloser, (c :: e :: rest).drop d.ownCloser.length, true⟩
    else (d.enclosure (e :: rest)).after [c]

/-- The lexeme at the head of a text, and what follows it. -/
def next? (dialect : Dialect) : List Char → Option (Lexeme × List Char)
  | [] => none
  | c :: cs =>
    match dialect.opening? (c :: cs) with
    | none => some (.code c, cs)
    | some d =>
      let opener := d.opener dialect
      let e := d.enclosure ((c :: cs).drop opener.length)
      some (.enclosed d (opener ++ e.inside) e.closed, e.rest)

/-- An own closer that stands at the head of a text can be taken off it. -/
theorem Delimiter.ownCloser_append_drop {d : Delimiter} {text : List Char}
    (h : d.closer.isPrefixOf text = true) :
    d.ownCloser ++ text.drop d.ownCloser.length = text := by
  rw [List.isPrefixOf_iff_prefix] at h
  obtain ⟨tail, rfl⟩ := h
  cases d <;> simp [Delimiter.ownCloser, Delimiter.closer]

theorem Delimiter.enclosure_append (d : Delimiter) (text : List Char) :
    (d.enclosure text).inside ++ (d.enclosure text).rest = text := by
  fun_induction Delimiter.enclosure d text with
  | case1 => rfl
  | case2 c h => exact Delimiter.ownCloser_append_drop h
  | case3 c h => simp
  | case4 c e rest h ih => simpa [Enclosure.after] using ih
  | case5 c e rest h h' => exact Delimiter.ownCloser_append_drop h'
  | case6 c e rest h h' ih => simpa [Enclosure.after] using ih

/-- An opener that was recognised stands at the head of the text. -/
theorem Dialect.opener_prefix_of_opening? {dialect : Dialect} {text : List Char}
    {d : Delimiter}
    (h : dialect.opening? text = some d) : d.opener dialect <+: text := by
  have := List.find?_some h
  exact List.isPrefixOf_iff_prefix.1 this

/-- The lexeme at the head and the rest make up the text. -/
theorem next?_append {dialect : Dialect} {text rest : List Char}
    {lexeme : Lexeme} (h : next? dialect text = some (lexeme, rest)) :
    lexeme.text ++ rest = text := by
  cases text with
  | nil => simp [next?] at h
  | cons c cs =>
    simp only [next?] at h
    split at h
    · cases h; rfl
    · rename_i d hd
      cases h
      obtain ⟨tail, ht⟩ := Dialect.opener_prefix_of_opening? hd
      simp only [Lexeme.text, List.append_assoc, Delimiter.enclosure_append]
      rw [← ht]
      simp

theorem text_ne_nil_of_next? {dialect : Dialect} {text rest : List Char}
    {lexeme : Lexeme}
    (h : next? dialect text = some (lexeme, rest)) : lexeme.text ≠ [] := by
  cases text with
  | nil => simp [next?] at h
  | cons c cs =>
    simp only [next?] at h
    split at h
    · cases h; simp [Lexeme.text]
    · rename_i d hd
      cases h
      simp [Lexeme.text, Delimiter.opener_ne_nil]

theorem next?_length_lt {dialect : Dialect} {text rest : List Char}
    {lexeme : Lexeme} (h : next? dialect text = some (lexeme, rest)) :
    rest.length < text.length := by
  have happ := congrArg List.length (next?_append h)
  have hne := List.length_pos_iff.2 (text_ne_nil_of_next? h)
  simp only [List.length_append] at happ
  omega

def lexemes (dialect : Dialect) (text : List Char) : List Lexeme :=
  match _h : next? dialect text with
  | none => []
  | some (lexeme, rest) => lexeme :: lexemes dialect rest
termination_by text.length
decreasing_by exact next?_length_lt _h

theorem flatMap_text_lexemes (dialect : Dialect) (text : List Char) :
    (lexemes dialect text).flatMap Lexeme.text = text := by
  fun_induction lexemes dialect text with
  | case1 text h =>
    cases text with
    | nil => rfl
    | cons c cs => simp only [next?] at h; split at h <;> simp at h
  | case2 text lexeme rest h ih =>
    simp only [List.flatMap_cons, ih]
    exact next?_append h

end SqlWorkflow.Lexical
