import SqlWorkflow.Decimal.Numeral
import SqlWorkflow.Expr.Basic
import SqlWorkflow.Json.Printer
import SqlWorkflow.Text.Blank
import SqlWorkflow.Text.Bytes
import SqlWorkflow.Text.Parsed

/-!
# Reading expressions

A recursive-descent reader. Every step takes the text that is left and returns a
value with the text after it, which is shorter; brackets of any kind cost one of
the levels that a source may nest. The grammar of one level is written once, for
any reader of the level inside it, and the reader of expressions is the
iteration of this grammar over the levels.
-/

namespace SqlWorkflow.Expr

open Text (Parsed)

/-- Why a source is not an expression of the language. -/
inductive Fault
  | trailingInput
  | expected (c : Char)
  | nestedTooDeeply
  | computedMember
  | unexpectedEnd
  | unsupportedSyntax
  | expectedIdentifier
  | invalidNumber (text : String)
  | unterminatedString
  | unterminatedTemplate
  deriving DecidableEq

def Fault.text : Fault → String
  | .trailingInput => "unexpected trailing input"
  | .expected c => "expected '" ++ String.singleton c ++ "'"
  | .nestedTooDeeply => "expression nested too deeply"
  | .computedMember => "computed member access"
  | .unexpectedEnd => "unexpected end of input"
  | .unsupportedSyntax => "unsupported syntax"
  | .expectedIdentifier => "expected identifier"
  | .invalidNumber text => "invalid number '" ++ text ++ "'"
  | .unterminatedString => "unterminated string"
  | .unterminatedTemplate => "unterminated template string"

/-- A fault and the text that was left when it was met. -/
structure Failure where
  fault : Fault
  unread : List Char
  deriving DecidableEq

abbrev Reader (α : Type) := (text : List Char) → Except Failure (Parsed α text)

/-- What follows a comment or the blanks at the head of a text; the text itself
if neither is there. -/
def skipOne : List Char → List Char
  | '/' :: '/' :: rest => rest.dropWhile (· != '\n')
  | '/' :: '*' :: rest => afterComment rest
  | text => text.dropWhile Text.isAsciiBlank
where
  /-- What follows the end of a block comment, which may be the end of the
  text. -/
  afterComment : List Char → List Char
    | '*' :: '/' :: rest => rest
    | _ :: rest => afterComment rest
    | [] => []

theorem skipOne.afterComment_length_le (text : List Char) :
    (skipOne.afterComment text).length ≤ text.length := by
  fun_induction skipOne.afterComment text with
  | case1 rest => simp only [List.length_cons]; omega
  | case2 c rest _ ih => simp only [List.length_cons]; omega
  | case3 => exact Nat.le_refl _

/-- Whether a text begins with a blank or a comment. -/
def startsTrivia : List Char → Bool
  | '/' :: '/' :: _ => true
  | '/' :: '*' :: _ => true
  | c :: _ => Text.isAsciiBlank c
  | [] => false

theorem skipOne_length_lt {text : List Char} (h : startsTrivia text = true) :
    (skipOne text).length < text.length := by
  simp only [skipOne]
  split
  · rename_i rest
    have := (List.dropWhile_sublist (l := rest) (· != '\n')).length_le
    simp only [List.length_cons]; omega
  · rename_i rest
    have := skipOne.afterComment_length_le rest
    simp only [List.length_cons]; omega
  · cases text with
    | nil => simp [startsTrivia] at h
    | cons c rest =>
      have hblank : Text.isAsciiBlank c = true := by
        simp only [startsTrivia] at h
        split at h <;> simp_all
      have := (List.dropWhile_sublist (l := rest) Text.isAsciiBlank).length_le
      rw [List.dropWhile_cons_of_pos hblank, List.length_cons]
      omega

/-- What follows the blanks and comments at the head of a text. -/
def skipTrivia (text : List Char) : List Char :=
  if startsTrivia text then skipTrivia (skipOne text) else text
termination_by text.length
decreasing_by exact skipOne_length_lt ‹_›

theorem skipTrivia_length_le (text : List Char) :
    (skipTrivia text).length ≤ text.length := by
  fun_induction skipTrivia text with
  | case1 text h ih =>
    exact Nat.le_trans ih (Nat.le_of_lt (skipOne_length_lt h))
  | case2 text h => exact Nat.le_refl _

/-- The same reader with the blanks and comments before its text skipped. -/
def Reader.afterTrivia {α : Type} (reader : Reader α) : Reader α := fun text =>
  (reader (skipTrivia text)).map (·.weaken (skipTrivia_length_le text))

/-- What follows a character at the head of a text, the blanks and comments
before it skipped. -/
def eat? (c : Char) (text : List Char) : Option (List Char) :=
  match skipTrivia text with
  | d :: rest => if d = c then some rest else none
  | [] => none

theorem eat?_length_lt {c : Char} {text rest : List Char}
    (h : eat? c text = some rest) : rest.length < text.length := by
  have hle := skipTrivia_length_le text
  rw [eat?] at h
  split at h
  · rename_i d r hs
    split at h
    · cases h
      rw [hs] at hle
      simp only [List.length_cons] at hle
      omega
    · cases h
  · cases h

/-- Reads one character that has to be there. -/
def expect (c : Char) : Reader Unit := fun text =>
  match h : eat? c text with
  | some rest => .ok ⟨(), rest, eat?_length_lt h⟩
  | none => .error ⟨.expected c, skipTrivia text⟩

def isIdentStart (c : Char) : Bool :=
  c.isAlpha || c == '_' || c == '$'

def isIdentPart (c : Char) : Bool :=
  c.isAlphanum || c == '_' || c == '$'

def readIdentifier : Reader String := fun text =>
  match h : skipTrivia text with
  | c :: rest =>
    if isIdentStart c then
      .ok ⟨String.ofList (c :: rest.takeWhile isIdentPart),
        rest.dropWhile isIdentPart, by
        have hle := skipTrivia_length_le text
        have := (List.dropWhile_sublist (l := rest) isIdentPart).length_le
        rw [h] at hle
        simp only [List.length_cons] at hle
        omega⟩
    else .error ⟨.expectedIdentifier, c :: rest⟩
  | [] => .error ⟨.expectedIdentifier, []⟩

/-- The characters of a numeral at the head of a text, after its sign. A sign
may follow the letter of an exponent. -/
def numeralChars : List Char → List Char
  | c :: d :: rest =>
    if (c == 'e' || c == 'E') && (d == '+' || d == '-') then
      c :: d :: numeralChars rest
    else if c.isDigit || c == '.' || c == 'e' || c == 'E' || c == '_' then
      c :: numeralChars (d :: rest)
    else []
  | [c] =>
    if c.isDigit || c == '.' || c == 'e' || c == 'E' || c == '_' then
      [c] else []
  | [] => []

/-- The number that a numeral denotes: an integer if it is written as one and
fits 64 bits with a sign, else the nearest floating-point number. Underscores
are left out. -/
def numberOf? (text : List Char) : Option Json.Number :=
  match Decimal.integer? text with
  | some value =>
    if -0x8000000000000000 ≤ value ∧ value < 0x8000000000000000 then
      some (.int value)
    else float? text
  | none => float? text
where
  /-- The nearest floating-point number. -/
  float? (text : List Char) : Option Json.Number :=
    ((Decimal.numeral? text).bind Decimal.Numeral.toBinary64?).map .float

/-- Reads a number that begins with a digit, a point or a minus sign. -/
def readNumber : Reader Json.Number := fun text =>
  let sign := match text with
    | '-' :: _ => ['-']
    | _ => []
  let written := sign ++ numeralChars (text.drop sign.length)
  let digits := written.filter (· != '_')
  if h : 0 < written.length ∧ 0 < text.length then
    match numberOf? digits with
    | some n =>
      .ok ⟨n, text.drop written.length, by simp only [List.length_drop]; omega⟩
    | none => .error ⟨.invalidNumber (String.ofList digits), text⟩
  else .error ⟨.invalidNumber (String.ofList digits), text⟩

/-- The text before the next quotation mark, and the text after it; a backslash
hides the character after it. -/
def untilQuote? (quote : Char) : List Char → Option (List Char × List Char)
  | [] => none
  | ['\\'] => none
  | '\\' :: c :: rest =>
    (untilQuote? quote rest).map fun (raw, after) => ('\\' :: c :: raw, after)
  | c :: rest =>
    if c = quote then some ([], rest)
    else (untilQuote? quote rest).map fun (raw, after) => (c :: raw, after)

theorem untilQuote?_length_lt {quote : Char} {text raw after : List Char}
    (h : untilQuote? quote text = some (raw, after)) :
    after.length < text.length := by
  fun_induction untilQuote? quote text generalizing raw after with
  | case1 => cases h
  | case2 => cases h
  | case3 c rest ih =>
    obtain ⟨⟨r, a⟩, hr, he⟩ := Option.map_eq_some_iff.1 h
    cases he
    have := ih hr
    simp only [List.length_cons]; omega
  | case4 rest _ _ => cases h; simp
  | case5 c rest _ _ _ ih =>
    obtain ⟨⟨r, a⟩, hr, he⟩ := Option.map_eq_some_iff.1 h
    cases he
    have := ih hr
    simp only [List.length_cons]; omega

def rawQuoted (quote : Char) (fault : Fault) : Reader (List Char) := fun text =>
  match h : untilQuote? quote (text.drop 1) with
  | some (raw, after) => .ok ⟨raw, after, by
      have := untilQuote?_length_lt h
      simp only [List.length_drop] at this
      omega⟩
  | none => .error ⟨fault, text⟩

/-- Reads a string in the quotation marks that it begins with. -/
def quotedString (quote : Char) : Reader String := fun text =>
  (rawQuoted quote .unterminatedString text).map
    (Parsed.map fun raw => String.ofList (unescapeChars raw))

/-- The grammar of one level, for a reader of the expressions inside it. -/
structure Level where
  inner : Reader Expr

namespace Level

/-- Reads expressions separated by commas up to a closing bracket; a comma may
stand before it. -/
def list (level : Level) (close : Char) (text : List Char) :
    Except Failure (Parsed (List Expr) text) :=
  match hc : eat? close text with
  | some rest => .ok ⟨[], rest, eat?_length_lt hc⟩
  | none =>
    match level.inner.afterTrivia text with
    | .error e => .error e
    | .ok item =>
      match hs : eat? ',' item.rest with
      | some after =>
        have hlt : after.length < text.length :=
          Nat.lt_trans (eat?_length_lt hs) item.shorter
        match level.list close after with
        | .error e => .error e
        | .ok items =>
          .ok ⟨item.value :: items.value, items.rest,
            Nat.lt_trans items.shorter hlt⟩
      | none =>
        match expect close item.rest with
        | .error e => .error e
        | .ok stop =>
          .ok ⟨[item.value], stop.rest, Nat.lt_trans stop.shorter item.shorter⟩
termination_by text.length

/-- Reads the key of an entry: a string, a number, which stands for its text, or
an identifier. -/
def key : Reader String := Reader.afterTrivia fun text =>
  match text.head? with
  | some '\'' => quotedString '\'' text
  | some '"' => quotedString '"' text
  | some c =>
    if c.isDigit then
      (readNumber text).map (Parsed.map fun n => String.ofList n.text)
    else readIdentifier text
  | none => readIdentifier text

/-- Reads the entries of an object up to its closing brace. -/
def entries (level : Level) (text : List Char) :
    Except Failure (Parsed (List (String × Expr)) text) :=
  match hc : eat? '}' text with
  | some rest => .ok ⟨[], rest, eat?_length_lt hc⟩
  | none =>
    match key text with
    | .error e => .error e
    | .ok name =>
      match expect ':' name.rest with
      | .error e => .error e
      | .ok colon =>
        match level.inner colon.rest with
        | .error e => .error e
        | .ok item =>
          have hi : item.rest.length < text.length :=
            Nat.lt_trans item.shorter (Nat.lt_trans colon.shorter name.shorter)
          match hs : eat? ',' item.rest with
          | some after =>
            have hlt : after.length < text.length :=
              Nat.lt_trans (eat?_length_lt hs) hi
            match level.entries after with
            | .error e => .error e
            | .ok more =>
              .ok ⟨(name.value, item.value) :: more.value, more.rest,
                Nat.lt_trans more.shorter hlt⟩
          | none =>
            match expect '}' item.rest with
            | .error e => .error e
            | .ok stop =>
              .ok ⟨[(name.value, item.value)], stop.rest,
                Nat.lt_trans stop.shorter hi⟩
termination_by text.length

/-- The expression that a word stands for. -/
def ofWord (word : String) : Expr :=
  if word = "null" then .null
  else if word = "true" then .bool true
  else if word = "false" then .bool false
  else .ident word

/-- Reads an expression without anything applied to it. -/
def primary (level : Level) : Reader Expr := Reader.afterTrivia fun text =>
  match text with
  | [] => .error ⟨.unexpectedEnd, []⟩
  | c :: rest =>
    have hlt : rest.length < (c :: rest).length := Text.length_lt_cons c rest
    if c = '\'' ∨ c = '"' then
      (quotedString c (c :: rest)).map (Parsed.map .string)
    else if c = '\x60' then
      (rawQuoted c .unterminatedTemplate (c :: rest)).map
        (Parsed.map fun raw => .template (String.ofList raw))
    else if c = '[' then
      (level.list ']' rest).map fun p =>
        ⟨.array p.value, p.rest, Nat.lt_trans p.shorter hlt⟩
    else if c = '{' then
      (level.entries rest).map fun p =>
        ⟨.object p.value, p.rest, Nat.lt_trans p.shorter hlt⟩
    else if c = '(' then
      match level.inner rest with
      | .error e => .error e
      | .ok item =>
        (expect ')' item.rest).map fun stop =>
          ⟨item.value, stop.rest,
            Nat.lt_trans stop.shorter (Nat.lt_trans item.shorter hlt)⟩
    else if c = '-' ∨ c = '.' ∨ c.isDigit then
      (readNumber (c :: rest)).map (Parsed.map .number)
    else if isIdentStart c then
      (readIdentifier (c :: rest)).map (Parsed.map ofWord)
    else .error ⟨.unsupportedSyntax, c :: rest⟩

/-- Reads what is applied to an expression: members, calls and members named by
a string in brackets. The blanks and comments after the last of them are
skipped. -/
def applications (level : Level) (head : Expr) (text : List Char) :
    Except Failure (Expr × { rest : List Char // rest.length ≤ text.length }) :=
  match hd : eat? '.' text with
  | some rest =>
    match readIdentifier rest with
    | .error e => .error e
    | .ok property =>
      have hlt : property.rest.length < text.length :=
        Nat.lt_trans property.shorter (eat?_length_lt hd)
      match level.applications (.member head property.value) property.rest with
      | .error e => .error e
      | .ok (whole, ⟨after, ha⟩) =>
        .ok (whole, ⟨after, Nat.le_of_lt (Nat.lt_of_le_of_lt ha hlt)⟩)
  | none =>
    match hp : eat? '(' text with
    | some rest =>
      match level.list ')' rest with
      | .error e => .error e
      | .ok arguments =>
        have hlt : arguments.rest.length < text.length :=
          Nat.lt_trans arguments.shorter (eat?_length_lt hp)
        match level.applications (.call head arguments.value)
          arguments.rest with
        | .error e => .error e
        | .ok (whole, ⟨after, ha⟩) =>
          .ok (whole, ⟨after, Nat.le_of_lt (Nat.lt_of_le_of_lt ha hlt)⟩)
    | none =>
      match hb : eat? '[' text with
      | some rest =>
        match level.inner rest with
        | .error e => .error e
        | .ok index =>
          match expect ']' index.rest with
          | .error e => .error e
          | .ok stop =>
            have hlt : stop.rest.length < text.length :=
              Nat.lt_trans stop.shorter
                (Nat.lt_trans index.shorter (eat?_length_lt hb))
            match index.value with
            | .string name =>
              match level.applications (.member head name) stop.rest with
              | .error e => .error e
              | .ok (whole, ⟨after, ha⟩) =>
                .ok (whole, ⟨after, Nat.le_of_lt (Nat.lt_of_le_of_lt ha hlt)⟩)
            | _ => .error ⟨.computedMember, stop.rest⟩
      | none => .ok (head, ⟨skipTrivia text, skipTrivia_length_le text⟩)
termination_by text.length

def expression (level : Level) : Reader Expr := fun text =>
  match level.primary text with
  | .error e => .error e
  | .ok head =>
    match level.applications head.value head.rest with
    | .error e => .error e
    | .ok (whole, ⟨rest, h⟩) =>
      .ok ⟨whole, rest, Nat.lt_of_le_of_lt h head.shorter⟩

end Level

/-- Reads an expression that nests at most the given number of levels. -/
def ofLevels : Nat → Reader Expr
  | 0 => fun text => .error ⟨.nestedTooDeeply, text⟩
  | levels + 1 => Level.expression ⟨ofLevels levels⟩

/-- The number of levels that a source may nest. -/
def maxDepth : Nat := 256

/-- What is wrong with a source, and the byte at which. -/
structure ParseError where
  fault : Fault
  offset : Nat
  deriving DecidableEq

def ParseError.message (e : ParseError) : String :=
  e.fault.text ++ " at offset " ++ toString e.offset

/-- The error that a failure amounts to in the whole source. -/
def Failure.within (source : List Char) (failure : Failure) : ParseError :=
  ⟨failure.fault, Text.byteCount source - Text.byteCount failure.unread⟩

/-- Reads an expression that is all of the source. -/
def parseChars (source : List Char) : Except ParseError Expr :=
  match ofLevels maxDepth source with
  | .error failure => .error (failure.within source)
  | .ok p =>
    let rest := skipTrivia p.rest
    if rest.isEmpty then .ok p.value
    else .error (Failure.within source ⟨.trailingInput, rest⟩)

/-- Reads an expression that is all of a string. -/
def parse (source : String) : Except ParseError Expr :=
  parseChars source.toList

/-- Reads the inside of a config block, which is that of an object. -/
def parseObjectBody (content : String) : Except ParseError Expr :=
  parseChars ('{' :: (content.toList ++ ['}']))

end SqlWorkflow.Expr
