/-!
# Comment and quotation marks

A stretch of text that is not plain code stands between an opener and a closer.
Which openers count depends on the dialect; the closer depends on the opener
alone. Inside quotations a backslash always takes the next character with it,
inside comments it means nothing.
-/

namespace SqlWorkflow.Lexical

inductive Dialect
  /-- Line comments begin with two dashes, and quotation marks may be
  tripled. -/
  | sql
  /-- Line comments begin with two slashes. -/
  | script
  deriving DecidableEq

/-- The kinds of stretch that are not plain code. -/
inductive Delimiter
  | lineComment
  | blockComment
  | single
  | double
  | tripleSingle
  | tripleDouble
  | backtick
  deriving DecidableEq

namespace Delimiter

/-- Comments are dropped by readers of code, quotations are not. -/
def isComment : Delimiter → Bool
  | .lineComment | .blockComment => true
  | _ => false

/-- The text that opens a stretch. -/
def opener : Dialect → Delimiter → List Char
  | .sql, .lineComment => ['-', '-']
  | .script, .lineComment => ['/', '/']
  | _, .blockComment => ['/', '*']
  | _, .single => ['\'']
  | _, .double => ['"']
  | _, .tripleSingle => ['\'', '\'', '\'']
  | _, .tripleDouble => ['"', '"', '"']
  | _, .backtick => ['\x60']

/-- The text that ends a stretch. -/
def closer : Delimiter → List Char
  | .lineComment => ['\n']
  | .blockComment => ['*', '/']
  | .single => ['\'']
  | .double => ['"']
  | .tripleSingle => ['\'', '\'', '\'']
  | .tripleDouble => ['"', '"', '"']
  | .backtick => ['\x60']

/-- The part of the closer that belongs to the stretch: all of it, except that
the line feed after a line comment is code again. -/
def ownCloser : Delimiter → List Char
  | .lineComment => []
  | d => d.closer

theorem opener_ne_nil (dialect : Dialect)
    (d : Delimiter) : d.opener dialect ≠ [] := by
  cases dialect <;> cases d <;> simp [opener]

theorem closer_ne_nil (d : Delimiter) : d.closer ≠ [] := by
  cases d <;> simp [closer]

end Delimiter

/-- The delimiters of a dialect, those with longer openers before those they
extend. -/
def Dialect.delimiters : Dialect → List Delimiter
  | .sql =>
    [.lineComment, .blockComment, .tripleSingle, .tripleDouble, .single,
      .double, .backtick]
  | .script => [.lineComment, .blockComment, .single, .double, .backtick]

/-- The delimiter whose opener stands at the head of the text. -/
def Dialect.opening? (dialect : Dialect)
    (text : List Char) : Option Delimiter :=
  dialect.delimiters.find? fun d => (d.opener dialect).isPrefixOf text

end SqlWorkflow.Lexical
