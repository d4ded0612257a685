import SqlWorkflow.Decimal.Binary64

/-!
# Shortest decimals

Every finite binary number lies in an interval of reals that are rounded to it.
Its shortest decimal is the one with the fewest digits in this interval, and of
those the nearest to the number. A grid of decimals meets the interval exactly
if it holds one of the two neighbours of the number on that grid, so only those
are tried.
-/

namespace SqlWorkflow.Decimal

/-- The decimal `digits · 10 ^ power`, a point of the grid of multiples of
`10 ^ power`. -/
structure GridPoint where
  digits : Nat
  power : Int
  deriving DecidableEq

/-- The reals that are rounded to a positive number, in units of
`2 ^ (exponent - 2)`: the ends of the interval and whether they belong to it. -/
def roundingInterval (x : Binary64) : Nat × Nat × Bool :=
  let low :=
    if x.significand = Binary64.leastFull ∧
        Binary64.minExponent < x.exponent then 4 * x.significand - 1
    else 4 * x.significand - 2
  (low, 4 * x.significand + 2, x.significand % 2 == 0)

/-- The exponent of the greatest power of ten that does not exceed a positive
quotient. -/
def floorLog10 (num den : Nat) : Int :=
  if den ≤ num then (Binary64.digitCount (num / den) : Int) - 1
  else -(Binary64.digitCount ((den + num - 1) / num - 1) : Int)

/-- Compares `a · 10 ^ power` with `b · 2 ^ shift`. -/
def compareScaled (a : Nat) (power : Int) (b : Nat) (shift : Int) : Ordering :=
  let (n, d) := Binary64.scaled b 1 shift
  if power < 0 then compare (a * d) (n * Binary64.tenTo (-power).toNat)
  else compare (a * Binary64.tenTo power.toNat * d) n

/-- Whether a decimal is rounded to the positive number `x`. -/
def readsBack (x : Binary64) (candidate : GridPoint) : Bool :=
  let (low, high, closed) := roundingInterval x
  let below :=
    compareScaled candidate.digits candidate.power low (x.exponent - 2)
  let above :=
    compareScaled candidate.digits candidate.power high (x.exponent - 2)
  (below == .gt || (closed && below == .eq)) &&
    (above == .lt || (closed && above == .eq))

/-- The neighbour of a positive number on the grid of multiples of `10 ^ power`
that is rounded to it, the nearer one if both are. -/
def onGrid? (x : Binary64) (power : Int) : Option GridPoint :=
  let (n, d) := Binary64.scaled x.significand 1 x.exponent
  let (num, den) :=
    if power < 0 then (n * Binary64.tenTo (-power).toNat, d)
    else (n, d * Binary64.tenTo power.toNat)
  let lower : GridPoint := ⟨num / den, power⟩
  let upper : GridPoint := ⟨num / den + 1, power⟩
  let nearest :=
    if 2 * (num % den) ≤ den then [lower, upper] else [upper, lower]
  nearest.find? fun candidate => candidate.digits != 0 && readsBack x candidate

/-- The first grid, from the given number of digits on, that has a decimal for a
positive number. -/
def shortestFrom (x : Binary64) (leading : Int) (digits : Nat) : Nat → GridPoint
  | 0 => ⟨x.significand, 0⟩
  | more + 1 =>
    match onGrid? x (leading - digits) with
    | some d => d
    | none => shortestFrom x leading (digits + 1) more

/-- The shortest decimal of a positive number. Seventeen digits always
suffice. -/
def shortest (x : Binary64) : GridPoint :=
  let (n, d) := Binary64.scaled x.significand 1 x.exponent
  shortestFrom x (floorLog10 n d) 0 17

/-- The digits of a decimal without the zeros at its end, and the exponent of
its first digit. -/
def scientific (d : GridPoint) : List Char × Int :=
  let digits := Nat.toDigits 10 d.digits
  ((digits.reverse.dropWhile (· == '0')).reverse, d.power + digits.length - 1)

end SqlWorkflow.Decimal
