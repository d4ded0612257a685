/-!
# Cutting texts

Taking a known beginning off a text, and cutting a text at every occurrence of a
character. The pieces of a cut, joined by that character, are the text again.
-/

namespace SqlWorkflow.Text

/-- What follows a given beginning, if the text begins so. -/
def after? : List Char → List Char → Option (List Char)
  | [], text => some text
  | _ :: _, [] => none
  | b :: beginning, c :: text => if b = c then after? beginning text else none

theorem after?_eq_some_iff {beginning text rest : List Char} :
    after? beginning text = some rest ↔ text = beginning ++ rest := by
  induction beginning generalizing text with
  | nil => simp [after?, eq_comm]
  | cons b bs ih =>
    cases text with
    | nil => simp [after?]
    | cons c cs =>
      by_cases h : b = c
      · simp [after?, h, ih]
      · simp [after?, h, Ne.symm h]

/-- The pieces of a text between the occurrences of a character; there is always
at least one. -/
def splitOn (separator : Char) : List Char → List (List Char)
  | [] => [[]]
  | c :: cs =>
    if c = separator then [] :: splitOn separator cs
    else
      match splitOn separator cs with
      | [] => [[c]]
      | piece :: pieces => (c :: piece) :: pieces

theorem splitOn_ne_nil (separator : Char)
    (text : List Char) : splitOn separator text ≠ [] := by
  cases text with
  | nil => simp [splitOn]
  | cons c cs =>
    rw [splitOn]
    split
    · simp
    · split <;> simp

theorem length_splitOn (separator : Char) (text : List Char) :
    (splitOn separator text).length = text.count separator + 1 := by
  induction text with
  | nil => rfl
  | cons c cs ih =>
    rw [splitOn]
    split
    · rename_i h
      rw [List.length_cons, ih, h, List.count_cons_self]
    · rename_i h
      rw [List.count_cons_of_ne h]
      cases hs : splitOn separator cs with
      | nil => exact absurd hs (splitOn_ne_nil _ _)
      | cons piece pieces => rw [← ih, hs, List.length_cons, List.length_cons]

/-- The pieces of a string between the occurrences of a character. -/
def split (separator : Char) (text : String) : List String :=
  (splitOn separator text.toList).map String.ofList

def joinWith (separator : List Char) : List (List Char) → List Char
  | [] => []
  | [piece] => piece
  | piece :: pieces => piece ++ (separator ++ joinWith separator pieces)

theorem joinWith_splitOn (separator : Char) (text : List Char) :
    joinWith [separator] (splitOn separator text) = text := by
  induction text with
  | nil => rfl
  | cons c cs ih =>
    rw [splitOn]
    split
    · rename_i h
      cases hs : splitOn separator cs with
      | nil => exact absurd hs (splitOn_ne_nil _ _)
      | cons piece pieces => rw [hs] at ih; simp [joinWith, ih, h]
    · cases hs : splitOn separator cs with
      | nil => exact absurd hs (splitOn_ne_nil _ _)
      | cons piece pieces =>
        rw [hs] at ih
        cases pieces with
        | nil => simpa [joinWith] using ih
        | cons p ps => simpa [joinWith] using ih

end SqlWorkflow.Text
