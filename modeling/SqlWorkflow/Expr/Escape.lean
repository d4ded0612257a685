import SqlWorkflow.Text.Hex

/-!
# Escapes in quoted text

The escapes of script strings: the short ones, `\xHH`, `\uHHHH` and `\u{H..H}`.
A backslash before any other character stands for that character, and a
backslash before a line feed for nothing. A numeric escape that denotes no
character is kept as it was written, without the braces.
-/

namespace SqlWorkflow.Expr

/-- The character with a hexadecimal code. One plus sign may stand before the
digits. -/
def codeChar? (digits : List Char) : Option Char :=
  (match digits with
    | '+' :: rest => Text.hexValue? rest
    | _ => Text.hexValue? digits).bind Text.charOf?

/-- The meaning of a numeric escape: its character, or the escape letter and
digits as written. -/
def numericEscape (letter : Char) (digits : List Char) : List Char :=
  match codeChar? digits with
  | some c => [c]
  | none => '\\' :: letter :: digits

/-- The digits of a braced escape and what follows its brace; the brace may be
missing at the end. -/
def bracedDigits (text : List Char) : List Char × List Char :=
  (text.takeWhile (· != '}'), (text.dropWhile (· != '}')).drop 1)

theorem bracedDigits_length_le (text : List Char) :
    (bracedDigits text).2.length ≤ text.length := by
  have h : (text.dropWhile (· != '}')).length ≤ text.length :=
    (List.dropWhile_sublist _).length_le
  simp only [bracedDigits, List.length_drop]
  omega

/-- What a character stands for after a backslash, the numeric escapes apart. -/
def shortEscape : Char → List Char
  | 'n' => ['\n']
  | 't' => ['\t']
  | 'r' => ['\r']
  | 'b' => ['\x08']
  | 'f' => ['\x0c']
  | 'v' => ['\x0b']
  | '0' => ['\x00']
  | '\n' => []
  | c => [c]

/-- The text that a quoted text stands for. -/
def unescapeChars (raw : List Char) : List Char :=
  match raw with
  | [] => []
  | ['\\'] => ['\\']
  | '\\' :: 'u' :: '{' :: rest =>
    numericEscape 'u' (bracedDigits rest).1 ++
      unescapeChars (bracedDigits rest).2
  | '\\' :: 'u' :: rest =>
    numericEscape 'u' (rest.take 4) ++ unescapeChars (rest.drop 4)
  | '\\' :: 'x' :: rest =>
    numericEscape 'x' (rest.take 2) ++ unescapeChars (rest.drop 2)
  | '\\' :: c :: rest => shortEscape c ++ unescapeChars rest
  | c :: rest => c :: unescapeChars rest
termination_by raw.length
decreasing_by
  · have := bracedDigits_length_le rest
    simp only [List.length_cons]; omega
  all_goals simp only [List.length_cons, List.length_drop]; omega

/-- The string that a quoted text stands for. -/
def unescape (raw : String) : String :=
  String.ofList (unescapeChars raw.toList)

end SqlWorkflow.Expr
