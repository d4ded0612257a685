/-!
# Binary floating point

Finite numbers of the 64-bit binary format, held as sign, significand and
exponent. Every operation computes its exact result as a quotient of natural
numbers and rounds it once, to the nearest number of the format and to the even
significand on a tie.
-/

namespace SqlWorkflow.Decimal

/-- The finite number `± significand · 2 ^ exponent`. The significand has
fifty-three bits, or fewer when the exponent is the least one. -/
structure Binary64 where
  negative : Bool
  significand : Nat
  exponent : Int
  deriving DecidableEq

namespace Binary64

def minExponent : Int := -1074

def maxExponent : Int := 971

/-- The least significand with fifty-three bits; twice as much has one more. -/
def leastFull : Nat := 0x10000000000000

def zero (negative : Bool) : Binary64 := ⟨negative, 0, minExponent⟩

/-- Whether the number is zero, of either sign. -/
def isZero (x : Binary64) : Bool := x.significand == 0

def neg (x : Binary64) : Binary64 := { x with negative := !x.negative }

/-- The natural number nearest to a quotient; a half goes to the even
neighbour. -/
def roundHalfEven (num den : Nat) : Nat :=
  let whole := num / den
  let twice := 2 * (num % den)
  if twice < den then whole
  else if den < twice then whole + 1
  else whole + whole % 2

/-- A quotient with a power of two moved into numerator or denominator. -/
def scaled (num den : Nat) (shift : Int) : Nat × Nat :=
  if shift < 0 then (num, den <<< (-shift).toNat)
  else (num <<< shift.toNat, den)

/-- The exponent of the greatest power of two that does not exceed a positive
quotient. -/
def floorLog2 (num den : Nat) : Int :=
  let guess : Int := (num.log2 : Int) - den.log2
  let (n, d) := scaled num den (-guess)
  if n < d then guess - 1 else guess

/-- The number nearest to `± num / den`; none if it is beyond the greatest
finite number. -/
def ofRatio? (negative : Bool) (num den : Nat) : Option Binary64 :=
  if num = 0 then some (zero negative)
  else
    let exponent := max (floorLog2 num den - 52) minExponent
    let (n, d) := scaled num den (-exponent)
    let rounded := roundHalfEven n d
    let x : Binary64 :=
      if rounded = 2 * leastFull then ⟨negative, leastFull, exponent + 1⟩
      else ⟨negative, rounded, exponent⟩
    if maxExponent < x.exponent then none else some x

def tenTo (power : Nat) : Nat := Nat.pow 10 power

def digitCount (n : Nat) : Nat := (Nat.toDigits 10 n).length

/-- The number nearest to `± digits · 10 ^ power`; none if it is beyond the
greatest finite number. Powers far outside the range of the format are answered
without computing them. -/
def ofDecimal? (negative : Bool) (digits : Nat)
    (power : Int) : Option Binary64 :=
  let size : Int := digitCount digits + power
  if digits = 0 ∨ size < -330 then some (zero negative)
  else if 310 < size then none
  else if power < 0 then ofRatio? negative digits (tenTo (-power).toNat)
  else ofRatio? negative (digits * tenTo power.toNat) 1

def ofNat? (n : Nat) : Option Binary64 := ofRatio? false n 1

def mul? (x y : Binary64) : Option Binary64 :=
  let (n, d) :=
    scaled (x.significand * y.significand) 1 (x.exponent + y.exponent)
  ofRatio? (x.negative != y.negative) n d

/-- The rounded quotient; the divisor is not zero. -/
def div? (x y : Binary64) : Option Binary64 :=
  let (n, d) := scaled x.significand y.significand (x.exponent - y.exponent)
  ofRatio? (x.negative != y.negative) n d

end Binary64

end SqlWorkflow.Decimal
