/-!
# Hexadecimal numerals

Numerals in base sixteen with digits of either case, as they occur in the
escapes of quoted text.
-/

namespace SqlWorkflow.Text

def hexDigit? (c : Char) : Option Nat :=
  if '0' ≤ c ∧ c ≤ '9' then some (c.toNat - 48)
  else if 'a' ≤ c ∧ c ≤ 'f' then some (c.toNat - 87)
  else if 'A' ≤ c ∧ c ≤ 'F' then some (c.toNat - 55)
  else none

/-- The value of a run of hexadecimal digits that continues the value `high`. -/
def hexFrom? (high : Nat) : List Char → Option Nat
  | [] => some high
  | c :: cs => (hexDigit? c).bind fun d => hexFrom? (16 * high + d) cs

def hexValue? : List Char → Option Nat
  | [] => none
  | digits => hexFrom? 0 digits

/-- The character with a code point, if there is one. -/
def charOf? (code : Nat) : Option Char :=
  if code < 0xD800 ∨ (0xDFFF < code ∧ code < 0x110000) then
    some (Char.ofNat code) else none

def hexChar (digit : Nat) : Char :=
  if digit < 10 then Char.ofNat (48 + digit) else Char.ofNat (87 + digit)

end SqlWorkflow.Text
