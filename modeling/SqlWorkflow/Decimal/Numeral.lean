import SqlWorkflow.Decimal.Binary64

/-!
# Decimal numerals

The written form of a number: digits with at most one point among them, at least
one digit, and perhaps an exponent. A numeral denotes a decimal exactly; the
binary number it is read as is the nearest one.
-/

namespace SqlWorkflow.Decimal

/-- The value of a run of decimal digits that continues the value `high`; other
characters count nothing. -/
def digitsFrom (high : Nat) (digits : List Char) : Nat :=
  digits.foldl (fun value c => 10 * value + (c.toNat - 48)) high

def digitsValue (digits : List Char) : Nat := digitsFrom 0 digits

/-- A sign at the head of a text, and what follows it. -/
def splitSign : List Char → Bool × List Char
  | '-' :: rest => (true, rest)
  | '+' :: rest => (false, rest)
  | text => (false, text)

/-- A number in decimal notation: `± digits · 10 ^ power`. -/
structure Numeral where
  negative : Bool
  digits : Nat
  power : Int
  deriving DecidableEq

/-- The exponent part of a numeral, which is all of the text; none is zero. -/
def exponent? : List Char → Option Int
  | [] => some 0
  | c :: rest =>
    if c = 'e' ∨ c = 'E' then
      let (negative, digits) := splitSign rest
      if digits.isEmpty ∨ !digits.all Char.isDigit then none
      else some (if negative then -(digitsValue digits) else digitsValue digits)
    else none

/-- Reads a numeral that is all of the text. -/
def numeral? (text : List Char) : Option Numeral :=
  let (negative, body) := splitSign text
  let whole := body.takeWhile Char.isDigit
  let tail := body.dropWhile Char.isDigit
  let (fraction, tail) :=
    match tail with
    | '.' :: rest => (rest.takeWhile Char.isDigit, rest.dropWhile Char.isDigit)
    | _ => ([], tail)
  if whole.isEmpty && fraction.isEmpty then none
  else
    (exponent? tail).map fun power =>
      ⟨negative, digitsFrom (digitsValue whole) fraction,
        power - fraction.length⟩

def Numeral.toBinary64? (n : Numeral) : Option Binary64 :=
  Binary64.ofDecimal? n.negative n.digits n.power

/-- Reads an integer without a plus sign that is all of the text. -/
def integer? (text : List Char) : Option Int :=
  match text with
  | '-' :: digits =>
    if digits.isEmpty ∨ !digits.all Char.isDigit then none
    else some (-(digitsValue digits))
  | digits =>
    if digits.isEmpty ∨ !digits.all Char.isDigit then
      none else some (digitsValue digits)

end SqlWorkflow.Decimal
