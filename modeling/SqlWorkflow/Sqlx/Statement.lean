import SqlWorkflow.Text.Blank
import SqlWorkflow.Lexical.Lexeme

/-!
# Statements

The body of an operation holds several statements, separated by lines that are
exactly three dashes. A separator is read as a line comment, so dashes in
quotations and block comments separate nothing. A semicolon that ends a piece of
SQL is found the same way: through the comments and blanks after it.
-/

namespace SqlWorkflow.Sqlx

open Lexical

/-- Whether a lexeme is written like a separator line: three dashes and
blanks. -/
def isSeparatorText (lexeme : Lexeme) : Bool :=
  lexeme.isComment && Text.trimEnd lexeme.text == ['-', '-', '-']

/-- Whether only blanks stand on the current line; the text before is given in
reverse. -/
def onBlankLine (reversed : List Char) : Bool :=
  Text.allBlank (reversed.takeWhile (· != '\n'))

/-- The text up to the current line; the text before is given in reverse. -/
def beforeLine (reversed : List Char) : List Char :=
  (reversed.dropWhile (· != '\n')).reverse

/-- Cuts a scanned text at its separator lines. `reversed` is the text since the
last cut, in reverse. -/
def cutStatements (reversed : List Char) : List Lexeme → List (List Char)
  | [] => [reversed.reverse]
  | lexeme :: rest =>
    if isSeparatorText lexeme && onBlankLine reversed then
      beforeLine reversed :: cutStatements [] rest
    else cutStatements (lexeme.text.reverse ++ reversed) rest

/-- The statements of an operation, trimmed; empty ones are left out. -/
def splitStatements (sql : String) : List String :=
  ((cutStatements [] (lexemes .sql sql.toList)).map Text.trimChars).filterMap
    fun statement =>
    if statement.isEmpty then none else some (String.ofList statement)

/-- The last lexeme that is neither a comment nor an ASCII blank. -/
def lastSignificant (lexemes : List Lexeme) : Option Lexeme :=
  (lexemes.filter fun lexeme =>
    match lexeme with
    | .code c => !Text.isAsciiBlank c
    | .enclosed d _ _ => !d.isComment).getLast?

/-- Whether the last thing said by a piece of SQL is a semicolon. -/
def hasTrailingSemicolon (sql : String) : Bool :=
  lastSignificant (lexemes .sql sql.toList) == some (.code ';')

/-- The message about a semicolon at the end of a piece of SQL. -/
def trailingSemicolonMessage : String :=
  "Semi-colons are not allowed at the end of SQL statements."

end SqlWorkflow.Sqlx
