import SqlWorkflow.Decimal.Numeral
import SqlWorkflow.Json.Syntax
import SqlWorkflow.Json.Value

/-!
# Numbers in JSON text

An integer that fits 64 bits is read exactly. Any other number is read as an
approximation: the first digits that fit 64 bits are taken as an integer, and
this is multiplied or divided once by a power of ten, with one rounding for each
of the three. A number can also be passed over without being evaluated; then its
size does not matter.
-/

namespace SqlWorkflow.Json

open Decimal (Binary64)

/-- The result of reading the head of a text: a value and what follows it. -/
abbrev Reading (α : Type) := Except SyntaxError (α × List Char)

def faultBefore {α : Type} (fault : Fault)
    (unread : List Char) : Except SyntaxError α :=
  .error ⟨fault, .before unread⟩

def faultWithin {α : Type} (fault : Fault)
    (unread : List Char) : Except SyntaxError α :=
  .error ⟨fault, .within unread⟩

def digitValue (c : Char) : Nat := c.toNat - 48

def startsWithDigit (text : List Char) : Bool := text.head?.any Char.isDigit

/-- Goes on reading digits while the value stays within a bound. -/
def accumulate (bound value : Nat) : List Char → Nat × List Char
  | [] => (value, [])
  | c :: rest =>
    if c.isDigit ∧ 10 * value + digitValue c ≤ bound then
      accumulate bound (10 * value + digitValue c) rest
    else (value, c :: rest)

/-- The greatest significand, of 64 bits. -/
def maxSignificand : Nat := 0xFFFFFFFFFFFFFFFF

/-- The greatest exponent that is read, of 31 bits. -/
def maxWrittenExponent : Nat := 0x7FFFFFFF

/-- The greatest power of ten that is a finite number of the format. -/
def maxPowerOfTen : Nat := 308

def powerOfTen (n : Nat) : Binary64 :=
  (Binary64.ofDecimal? false 1 n).getD (Binary64.zero false)

/-- A number divided by a power of ten, in steps of the greatest one. -/
def dividePower (x : Binary64) (n : Nat) : Binary64 :=
  if x.isZero then x
  else if n ≤ maxPowerOfTen then (x.div? (powerOfTen n)).getD x
  else dividePower ((x.div? (powerOfTen maxPowerOfTen)).getD x)
    (n - maxPowerOfTen)
termination_by n
decreasing_by simp only [maxPowerOfTen] at *; omega

/-- The approximation of `± significand · 10 ^ exponent`; none if it is not
finite. -/
def approximate? (negative : Bool) (significand : Nat)
    (exponent : Int) : Option Binary64 :=
  let x := (Binary64.ofNat? significand).getD (Binary64.zero false)
  let size :=
    if exponent < 0 then some (dividePower x (-exponent).toNat)
    else if exponent.toNat ≤ maxPowerOfTen then
      x.mul? (powerOfTen exponent.toNat)
    else if x.isZero then some x
    else none
  size.map fun y => if negative then y.neg else y

/-- The number of a significand and an exponent, with what follows it. -/
def finishFloat (negative : Bool) (significand : Nat) (exponent : Int)
    (rest : List Char) : Reading Number :=
  match approximate? negative significand exponent with
  | some x => .ok (.float x, rest)
  | none => faultBefore .numberOutOfRange rest

def readExponent (negative : Bool) (significand : Nat) (start : Int)
    (text : List Char) : Reading Number :=
  let (minus, body) := Decimal.splitSign text
  match body with
  | [] => faultBefore .endInValue []
  | c :: rest =>
    if !c.isDigit then faultWithin .invalidNumber (c :: rest)
    else
      let (exponent, unread) :=
        accumulate maxWrittenExponent (digitValue c) rest
      if startsWithDigit unread then
        if significand ≠ 0 ∧ !minus then
          faultBefore .numberOutOfRange (unread.drop 1)
        else .ok
          (.float (Binary64.zero negative), unread.dropWhile Char.isDigit)
      else finishFloat negative significand
        (if minus then start - exponent else start + exponent) unread

/-- Reads the exponent that may follow a number, or ends the number. -/
def readExponent? (negative : Bool) (significand : Nat) (exponent : Int)
    (text : List Char) : Reading Number :=
  match text with
  | 'e' :: rest => readExponent negative significand exponent rest
  | 'E' :: rest => readExponent negative significand exponent rest
  | _ => finishFloat negative significand exponent text

/-- Reads what follows the point of a number. Digits that no longer fit are
passed over. -/
def readFraction (negative : Bool) (significand : Nat) (exponent : Int)
    (text : List Char) : Reading Number :=
  let (extended, unread) := accumulate maxSignificand significand text
  let places := text.length - unread.length
  if startsWithDigit unread then
    readExponent? negative extended (exponent - places)
      (unread.dropWhile Char.isDigit)
  else if places = 0 then
    if unread.isEmpty then faultBefore .endInValue []
    else faultWithin .invalidNumber unread
  else readExponent? negative extended (exponent - places) unread

/-- Reads what follows the integral digits; `dropped` of them did not fit the
significand. -/
def readTail (negative : Bool) (significand dropped : Nat)
    (text : List Char) : Reading Number :=
  match text with
  | '.' :: rest => readFraction negative significand dropped rest
  | _ => readExponent? negative significand dropped text

/-- The integer of a sign and a significand; a negative one that is zero or too
large is no integer. -/
def signedNumber (negative : Bool) (significand : Nat) : Number :=
  if !negative then .int significand
  else if significand = 0 ∨ 0x8000000000000000 < significand then
    .float ((Binary64.ofNat? significand).getD (Binary64.zero false)).neg
  else .int (-significand)

def goesOn (text : List Char) : Bool :=
  text.head?.any fun c => c == '.' || c == 'e' || c == 'E'

/-- Reads an integer with its sign, or the number that it begins. -/
def readUnsigned (negative : Bool) (text : List Char) : Reading Number :=
  match text with
  | [] => faultBefore .endInValue []
  | c :: rest =>
    if c = '0' ∧ startsWithDigit rest then faultWithin .invalidNumber rest
    else if c.isDigit then
      let (significand, unread) := accumulate maxSignificand (digitValue c) rest
      if startsWithDigit unread then
        let tail := unread.dropWhile Char.isDigit
        readTail negative significand (unread.length - tail.length) tail
      else if goesOn unread then readTail negative significand 0 unread
      else .ok (signedNumber negative significand, unread)
    else faultWithin .invalidNumber (c :: rest)

def readNumber : List Char → Reading Number
  | '-' :: rest => readUnsigned true rest
  | text => readUnsigned false text

/-- Passes over an exponent that may follow a number. -/
def skipExponent (text : List Char) : Except SyntaxError (List Char) :=
  match text with
  | c :: rest =>
    if c = 'e' ∨ c = 'E' then
      let body := (Decimal.splitSign rest).2
      if startsWithDigit body then .ok (body.dropWhile Char.isDigit)
      else faultWithin .invalidNumber body
    else .ok text
  | [] => .ok []

def skipNumber (text : List Char) : Except SyntaxError (List Char) :=
  let body := match text with
    | '-' :: rest => rest
    | _ => text
  match body with
  | [] => faultBefore .invalidNumber []
  | c :: rest =>
    if c = '0' ∧ startsWithDigit rest then faultWithin .invalidNumber rest
    else if c.isDigit then
      let tail := if c = '0' then rest else rest.dropWhile Char.isDigit
      match tail with
      | '.' :: fraction =>
        if startsWithDigit fraction then
          skipExponent (fraction.dropWhile Char.isDigit)
        else faultWithin .invalidNumber fraction
      | _ => skipExponent tail
    else faultWithin .invalidNumber (c :: rest)

theorem skipExponent_length_le {text rest : List Char}
    (h : skipExponent text = .ok rest) : rest.length ≤ text.length := by
  unfold skipExponent at h
  split at h
  · rename_i c tail
    split at h
    · simp only at h
      split at h
      · cases h
        have h1 : ((Decimal.splitSign tail).2.dropWhile Char.isDigit).length ≤
            (Decimal.splitSign tail).2.length :=
          (List.dropWhile_sublist _).length_le
        have h2 : (Decimal.splitSign tail).2.length ≤ tail.length := by
          simp only [Decimal.splitSign]
          split <;> simp
        simp only [List.length_cons]; omega
      · cases h
    · cases h; exact Nat.le_refl _
  · cases h; exact Nat.le_refl _

theorem skipNumber_length_lt {text rest : List Char}
    (h : skipNumber text = .ok rest) : rest.length < text.length := by
  unfold skipNumber at h
  simp only at h
  have hbody : (match text with
    | '-' :: rest => rest
    | _ => text).length ≤ text.length := by
    split <;> simp
  revert h hbody
  generalize (match text with
    | '-' :: rest => rest
    | _ => text) = body
  intro h hbody
  cases body with
  | nil => cases h
  | cons c tail =>
    simp only [List.length_cons] at hbody
    simp only at h
    split at h
    · cases h
    · split at h
      · have htail : (if c = '0' then
        tail else tail.dropWhile Char.isDigit).length ≤ tail.length := by
          split
          · exact Nat.le_refl _
          · exact (List.dropWhile_sublist _).length_le
        revert h htail
        generalize (if c = '0' then tail else tail.dropWhile Char.isDigit) =
          after
        intro h htail
        split at h
        · rename_i fraction
          split at h
          · have h1 := skipExponent_length_le h
            have h2 : (fraction.dropWhile Char.isDigit).length ≤
                fraction.length :=
              (List.dropWhile_sublist _).length_le
            simp only [List.length_cons] at htail
            omega
          · cases h
        · have := skipExponent_length_le h
          omega
      · cases h

end SqlWorkflow.Json
