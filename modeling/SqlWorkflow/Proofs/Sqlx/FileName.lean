import Mathlib.Data.List.TakeWhile
import SqlWorkflow.Sqlx.FileName

/-!
# Files without a name for an action

The name of an action that is taken from its file is what is left of the file
name without its extension and the marker of data preparations. Of a file name
that is nothing but the marker, with an extension or without one, nothing is
left: the dot that the marker begins with is not the dot of an extension.
-/

namespace SqlWorkflow.Sqlx

variable {before extension fileName wanted : List Char}

theorem dropWhile_reverse (h : '.' ∉ extension) (before : List Char) :
    (before ++ '.' :: extension).reverse.dropWhile (· != '.') =
      '.' :: before.reverse := by
  have hextension : ∀ c ∈ extension.reverse, (c != '.') = true := by
    intro c hc
    rw [bne_iff_ne]
    exact ne_of_mem_of_not_mem (List.mem_reverse.1 hc) h
  rw [List.reverse_append, List.reverse_cons, List.append_assoc,
    List.dropWhile_append_of_pos hextension]
  rfl

theorem stem_append (h : '.' ∉ extension) (hbefore : before ≠ []) :
    stem (before ++ '.' :: extension) = before := by
  rw [stem, dropWhile_reverse h]
  split
  · rename_i hnone
    cases hnone
  · rename_i hnone
    cases hbefore (List.reverse_eq_nil_iff.1 (List.cons.inj hnone).2)
  · rename_i hrest
    rw [← (List.cons.inj hrest).2, List.reverse_reverse]

/-- The stem is the file name itself, or what stands before its last dot. -/
theorem stem_cases (fileName : List Char) :
    stem fileName = fileName ∨
      ∃ before extension, before ≠ [] ∧ '.' ∉ extension ∧
        fileName = before ++ '.' :: extension := by
  by_cases hdot : '.' ∈ fileName
  · obtain ⟨after, earlier, hsplit, hafter⟩ :=
      List.eq_append_cons_of_mem (List.mem_reverse.2 hdot)
    have hname : fileName = earlier.reverse ++ '.' :: after.reverse := by
      rw [← List.reverse_reverse fileName, hsplit]
      simp
    have hextension : '.' ∉ after.reverse := mt List.mem_reverse.1 hafter
    by_cases hearlier : earlier.reverse = []
    · rw [hearlier] at hname
      rw [hname, stem, dropWhile_reverse hextension]
      exact .inl rfl
    · exact .inr ⟨_, _, hearlier, hextension, hname⟩
  · have hnone : fileName.reverse.dropWhile (· != '.') = [] := by
      rw [List.dropWhile_eq_nil_iff]
      intro c hc
      rw [bne_iff_ne]
      exact ne_of_mem_of_not_mem (List.mem_reverse.1 hc) hdot
    rw [stem, hnone]
    exact .inl rfl

theorem stem_eq_nil_iff : stem fileName = [] ↔ fileName = [] := by
  constructor
  · intro hnone
    rcases stem_cases fileName with
      hself | ⟨before, extension, hbefore, hextension, rfl⟩
    · rw [← hself, hnone]
    · rw [stem_append hextension hbefore] at hnone
      cases hbefore hnone
  · rintro rfl
    rfl

/-- The files with a given stem: the stem may stand alone, if it is its own
stem, or with an extension after it. -/
theorem stem_eq_iff (hself : stem wanted = wanted) (hne : wanted ≠ []) :
    stem fileName = wanted ↔ fileName = wanted ∨ ∃ extension,
      '.' ∉ extension ∧ fileName = wanted ++ '.' :: extension := by
  constructor
  · intro hstem
    rcases stem_cases fileName with
      hwhole | ⟨before, extension, hbefore, hextension, rfl⟩
    · exact .inl (hwhole.symm.trans hstem)
    · rw [stem_append hextension hbefore] at hstem
      exact .inr ⟨extension, hextension, by rw [hstem]⟩
  · rintro (rfl | ⟨extension, hextension, rfl⟩)
    · exact hself
    · exact stem_append hextension hne

theorem dropEnding_eq_nil_iff {ending text : List Char} :
    dropEnding ending text = [] ↔ text = [] ∨ text = ending := by
  rw [dropEnding]
  split
  · rename_i hends
    obtain ⟨rest, rfl⟩ := List.isSuffixOf_iff_suffix.1 hends
    rw [List.length_append, Nat.add_sub_cancel, List.take_left,
      List.append_eq_nil_iff, List.append_left_eq_self]
    exact ⟨.inr, fun h => h.elim And.left id⟩
  · rename_i hends
    refine ⟨.inl, fun h => h.resolve_right ?_⟩
    rintro rfl
    exact hends (List.isSuffixOf_iff_suffix.2 List.suffix_rfl)

/-- Nothing is left of the name of a file without its extension and the marker
of data preparations: the file name is empty, or it is the marker, alone or with
an extension. -/
def Nameless (path : String) : Prop :=
  lastComponent path.toList = [] ∨ lastComponent path.toList = ['.', 'd', 'p'] ∨
    ∃ extension, '.' ∉ extension ∧
      lastComponent path.toList = ['.', 'd', 'p'] ++ '.' :: extension

theorem actionName_eq_empty_iff (path : String) :
    actionName path = "" ↔ Nameless path := by
  rw [actionName, String.ofList_eq_empty_iff, dropEnding_eq_nil_iff,
    stem_eq_nil_iff, stem_eq_iff (by rfl) (List.cons_ne_nil _ _)]
  exact Iff.rfl

end SqlWorkflow.Sqlx
