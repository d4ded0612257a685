import SqlWorkflow.Text.Hex
import SqlWorkflow.Text.Invisible

/-!
# Texts shown in messages

A message shows a text in quotation marks. The mark itself and the backslash are
escaped, and so is every character that could not be seen.
-/

namespace SqlWorkflow.Text

def hexDigits (n : Nat) : List Char :=
  Nat.toDigits 16 n

def shownChar (c : Char) : List Char :=
  if c = '"' then ['\\', '"']
  else if c = '\\' then ['\\', '\\']
  else if c = '\t' then ['\\', 't']
  else if c = '\n' then ['\\', 'n']
  else if c = '\r' then ['\\', 'r']
  else if c.toNat = 0 then ['\\', '0']
  else if isInvisible c then ['\\', 'u', '{'] ++ hexDigits c.toNat ++ ['}']
  else [c]

def shown (s : String) : String :=
  String.ofList ('"' :: (s.toList.flatMap shownChar ++ ['"']))

end SqlWorkflow.Text
