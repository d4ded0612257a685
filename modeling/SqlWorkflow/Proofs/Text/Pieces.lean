import Mathlib.Data.List.Basic
import SqlWorkflow.Text.Cut

/-!
# Pieces of a text

Where a text is cut depends on the separators alone. So a separator put between
two texts cuts there, whatever the texts are, and pieces without a separator are
found again after they have been joined.
-/

namespace SqlWorkflow.Text

variable {separator : Char}

/-- A text without the separator is a single piece. -/
theorem splitOn_of_not_mem {text : List Char}
    (h : separator ∉ text) : splitOn separator text = [text] := by
  induction text with
  | nil => rfl
  | cons c text ih =>
    obtain ⟨hne, htext⟩ := List.ne_and_not_mem_of_not_mem_cons h
    rw [splitOn, if_neg (Ne.symm hne), ih htext]

/-- A separator ends a piece wherever it stands. -/
theorem splitOn_append_cons (separator : Char) (before after : List Char) :
    splitOn separator (before ++ separator :: after) =
      splitOn separator before ++ splitOn separator after := by
  induction before with
  | nil =>
    change splitOn separator (separator :: after) =
      [] :: splitOn separator after
    rw [splitOn, if_pos rfl]
  | cons c before ih =>
    rw [List.cons_append, splitOn, splitOn, ih]
    split
    · rfl
    · cases hpieces : splitOn separator before with
      | nil => exact absurd hpieces (splitOn_ne_nil separator before)
      | cons piece pieces => rfl

/-- The first piece reaches to the first separator. -/
theorem splitOn_append {piece : List Char} (h : separator ∉ piece)
    (rest : List Char) :
    splitOn separator (piece ++ separator :: rest) =
      piece :: splitOn separator rest := by
  rw [splitOn_append_cons, splitOn_of_not_mem h, List.singleton_append]

theorem not_mem_of_mem_splitOn {text : List Char} :
    ∀ piece ∈ splitOn separator text, separator ∉ piece := by
  induction text with
  | nil =>
    intro piece hpiece
    rw [List.mem_singleton.1 hpiece]
    exact List.not_mem_nil
  | cons c text ih =>
    rw [splitOn]
    split
    · exact List.forall_mem_cons.2 ⟨List.not_mem_nil, ih⟩
    · rename_i hc
      cases hpieces : splitOn separator text with
      | nil => exact absurd hpieces (splitOn_ne_nil separator text)
      | cons first pieces =>
        rw [hpieces] at ih
        obtain ⟨hfirst, hrest⟩ := List.forall_mem_cons.1 ih
        exact List.forall_mem_cons.2
          ⟨List.not_mem_cons_of_ne_of_not_mem (Ne.symm hc) hfirst, hrest⟩

/-- The pieces of joined texts are the pieces of each of them. -/
theorem splitOn_intercalate {texts : List (List Char)} (h : texts ≠ []) :
    splitOn separator ([separator].intercalate texts) =
      texts.flatMap (splitOn separator) := by
  induction texts with
  | nil => cases h rfl
  | cons first rest ih =>
    cases rest with
    | nil => simp
    | cons second rest =>
      rw [List.intercalate_cons_cons, List.append_assoc, List.singleton_append,
        splitOn_append_cons, ih (List.cons_ne_nil _ _)]
      rfl

theorem joinWith_eq_intercalate (between : List Char)
    (texts : List (List Char)) :
    joinWith between texts = between.intercalate texts := by
  induction texts with
  | nil => rfl
  | cons first rest ih =>
    cases rest with
    | nil => simp [joinWith]
    | cons second rest =>
      change first ++ (between ++ joinWith between (second :: rest)) = _
      rw [ih, List.intercalate_cons_cons, List.append_assoc]

/-- Pieces that are joined are found again, if there are any and the separator
stands in none of them. -/
theorem splitOn_joinWith {pieces : List (List Char)} (hne : pieces ≠ [])
    (h : ∀ piece ∈ pieces, separator ∉ piece) :
    splitOn separator (joinWith [separator] pieces) = pieces := by
  have hsingle : ∀ piece ∈ pieces, splitOn separator piece = [piece] :=
    fun piece hpiece => splitOn_of_not_mem (h piece hpiece)
  rw [joinWith_eq_intercalate, splitOn_intercalate hne,
    List.flatMap_congr hsingle, List.flatMap_singleton']

/-- Joined texts with one more separator before them are the texts, each with a
separator before it. -/
theorem cons_intercalate {texts : List (List Char)} (h : texts ≠ []) :
    separator :: [separator].intercalate texts =
      texts.flatMap (separator :: ·) := by
  induction texts with
  | nil => cases h rfl
  | cons first rest ih =>
    cases rest with
    | nil => simp
    | cons second rest =>
      rw [List.intercalate_cons_cons, List.append_assoc, List.singleton_append,
        ih (List.cons_ne_nil _ _)]
      rfl

theorem splitOn_inj {text other : List Char} :
    splitOn separator text = splitOn separator other ↔ text = other := by
  constructor
  · intro h
    rw [← joinWith_splitOn separator text, h, joinWith_splitOn]
  · rintro rfl
    rfl

end SqlWorkflow.Text
