/-!
# Readings that shorten a text

A reader takes a value off the head of a text. The rest is shorter than the
text, and the proof of that is part of the result, so loops over a text end
without further argument.
-/

namespace SqlWorkflow.Text

theorem length_lt_cons (c : Char)
    (rest : List Char) : rest.length < (c :: rest).length :=
  Nat.lt_succ_self rest.length

theorem length_le_cons (c : Char)
    (rest : List Char) : rest.length ≤ (c :: rest).length :=
  Nat.le_succ rest.length

/-- What is mapped over a reading was read. -/
theorem exists_of_map_eq_ok {ε α β : Type} {f : α → β} {e : Except ε α} {b : β}
    (h : e.map f = .ok b) : ∃ a, e = .ok a ∧ f a = b := by
  cases e with
  | error => cases h
  | ok a => exact ⟨a, rfl, Except.ok.inj h⟩

/-- A value read from the head of a text, and the rest, which is shorter. -/
structure Parsed (α : Type) (text : List Char) where
  value : α
  rest : List Char
  shorter : rest.length < text.length

namespace Parsed

/-- The same result, for a text that is not shorter. -/
def weaken {α : Type} {short long : List Char} (p : Parsed α short)
    (h : short.length ≤ long.length) : Parsed α long :=
  ⟨p.value, p.rest, Nat.lt_of_lt_of_le p.shorter h⟩

def map {α β : Type} {text : List Char} (f : α → β)
    (p : Parsed α text) : Parsed β text :=
  ⟨f p.value, p.rest, p.shorter⟩

end Parsed

end SqlWorkflow.Text
