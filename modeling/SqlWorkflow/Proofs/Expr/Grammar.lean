import SqlWorkflow.Proofs.Expr.Literal

/-!
# Ways of writing an expression

An expression can be written in many ways: with blanks and comments between its
tokens, with strings in either quotation marks, with a comma after the last item
of a list, and with parentheses around any part. `Written` relates an expression
to all texts that write it. The number of levels bounds how many expressions may
be open inside each other; the grammar of one level is given once, for any way
of writing what stands inside it.
-/

namespace SqlWorkflow.Expr

/-- What may stand between two tokens: blanks, and comments that end. -/
inductive Gap : List Char → Prop
  | nil : Gap []
  | blank {c : Char} {gap : List Char} (hc : Text.isAsciiBlank c = true)
      (hgap : Gap gap) : Gap (c :: gap)
  | lineComment {comment gap : List Char} (hcomment : '\n' ∉ comment)
      (hgap : Gap gap) : Gap ('/' :: '/' :: (comment ++ '\n' :: gap))
  | blockComment {comment gap : List Char}
      (hcomment : ¬ ['*', '/'] <:+: comment) (hgap : Gap gap) :
      Gap ('/' :: '*' :: (comment ++ '*' :: '/' :: gap))

/-- A text that may stand between two marks: the mark occurs in it only after a
backslash, and no backslash is left without a character after it. -/
inductive Unbroken (mark : Char) : List Char → Prop
  | nil : Unbroken mark []
  | escaped (c : Char) {rest : List Char}
      (h : Unbroken mark rest) : Unbroken mark ('\\' :: c :: rest)
  | plain {c : Char} {rest : List Char} (hmark : c ≠ mark)
      (hbackslash : c ≠ '\\')
      (h : Unbroken mark rest) : Unbroken mark (c :: rest)

/-- A character between two marks, after a backslash where it would be taken for
something else. -/
def escapedChar (mark c : Char) : List Char :=
  if c = '\\' ∨ c = mark then ['\\', c] else [c]

/-- A string is written in marks of either kind. -/
inductive WritesString (s : String) : List Char → Prop
  | quoted (mark : Char) (hmark : mark = '\'' ∨ mark = '"') :
      WritesString s (mark :: (s.toList.flatMap (escapedChar mark) ++ [mark]))

/-- A name is written as it is. -/
inductive WritesName (name : String) : List Char → Prop
  | word {c : Char} {word : List Char} (hc : isIdentStart c = true)
      (hword : ∀ d ∈ word, isIdentPart d = true)
      (hname : name = String.ofList (c :: word)) : WritesName name (c :: word)

/-- How values of a type may be written. -/
abbrev Writing (α : Type) := α → List Char → Prop

/-- A list is written item by item up to a closing bracket, with a comma between
two items. A comma may stand after the last item as well. -/
inductive WritesList {α : Type} (item : Writing α)
    (close : Char) : List α → List Char → Prop
  | nil {gap : List Char}
      (hgap : Gap gap) : WritesList item close [] (gap ++ [close])
  | last {a : α} {before text after : List Char} (hbefore : Gap before)
      (htext : item a text) (hafter : Gap after) :
      WritesList item close [a] (before ++ (text ++ (after ++ [close])))
  | more {a : α} {as : List α} {before text after rest : List Char}
      (hbefore : Gap before) (htext : item a text) (hafter : Gap after)
      (hrest : WritesList item close as rest) :
      WritesList item close (a :: as)
        (before ++ (text ++ (after ++ ',' :: rest)))

/-- An entry of an object is a key, a colon and a value. The key is a name or a
string. -/
inductive WritesEntry (inner : Writing Expr) : String × Expr → List Char → Prop
  | entry {name : String} {value : Expr} {key before after text : List Char}
      (hkey : WritesName name key ∨ WritesString name key)
      (hbefore : Gap before) (hafter : Gap after) (htext : inner value text) :
      WritesEntry inner (name, value)
        (key ++ (before ++ ':' :: (after ++ text)))

/-- The ways of writing an expression that is no bare number. To these a member
or a call may be applied; `inner` tells how the expressions one level further in
are written. -/
inductive WritesTerm (inner : Writing Expr) : Expr → List Char → Prop
  | nullWord : WritesTerm inner .null ['n', 'u', 'l', 'l']
  | trueWord : WritesTerm inner (.bool true) ['t', 'r', 'u', 'e']
  | falseWord : WritesTerm inner (.bool false) ['f', 'a', 'l', 's', 'e']
  | ident {name : String} {text : List Char} (hname : WritesName name text)
      (hword : name ∉ ["null", "true", "false"]) :
      WritesTerm inner (.ident name) text
  | string {s : String} {text : List Char} (htext : WritesString s text) :
      WritesTerm inner (.string s) text
  | template {raw : String} (hraw : Unbroken '\x60' raw.toList) :
      WritesTerm inner (.template raw) ('\x60' :: (raw.toList ++ ['\x60']))
  | array {items : List Expr} {list : List Char}
      (hitems : WritesList inner ']' items list) :
      WritesTerm inner (.array items) ('[' :: list)
  | object {entries : List (String × Expr)} {list : List Char}
      (hentries : WritesList (WritesEntry inner) '}' entries list) :
      WritesTerm inner (.object entries) ('{' :: list)
  | parentheses {e : Expr} {before text after : List Char}
      (hbefore : Gap before) (htext : inner e text) (hafter : Gap after) :
      WritesTerm inner e ('(' :: (before ++ (text ++ (after ++ [')']))))
  | member {base : Expr} {property : String}
      {text before after name : List Char} (hbase : WritesTerm inner base text)
      (hbefore : Gap before) (hafter : Gap after)
      (hname : WritesName property name) :
      WritesTerm inner (.member base property)
        (text ++ (before ++ '.' :: (after ++ name)))
  | computed {base : Expr} {property : String}
      {text gap before key after : List Char}
      (hbase : WritesTerm inner base text) (hgap : Gap gap)
      (hbefore : Gap before) (hkey : inner (.string property) key)
      (hafter : Gap after) :
      WritesTerm inner (.member base property)
        (text ++ (gap ++ '[' :: (before ++ (key ++ (after ++ [']'])))))
  | call {callee : Expr} {arguments : List Expr} {text gap list : List Char}
      (hcallee : WritesTerm inner callee text) (hgap : Gap gap)
      (harguments : WritesList inner ')' arguments list) :
      WritesTerm inner (.call callee arguments) (text ++ (gap ++ '(' :: list))

/-- The ways of writing an expression on one level. -/
inductive WritesLevel (inner : Writing Expr) : Writing Expr
  | number {n : Int} {text : List Char} (hlow : -0x8000000000000000 ≤ n)
      (hhigh : n < 0x8000000000000000)
      (htext : Writes n text) : WritesLevel inner (.number (.int n)) text
  | term {e : Expr} {text : List Char}
      (hterm : WritesTerm inner e text) : WritesLevel inner e text

/-- The text writes the expression, with at most the given number of expressions
open at once: the expression itself, and inside it an item, a value, an
argument, a computed key, or an expression in parentheses. -/
def Written : Nat → Writing Expr
  | 0 => fun _ _ => False
  | levels + 1 => WritesLevel (Written levels)

/-- A source that writes an expression, with blanks and comments around it. -/
inductive Source (e : Expr) : List Char → Prop
  | text {before text after : List Char} (hbefore : Gap before)
      (htext : Written maxDepth e text)
      (hafter : Gap after) : Source e (before ++ (text ++ after))

end SqlWorkflow.Expr
