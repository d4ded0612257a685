import SqlWorkflow.Proofs.Action.Checks
import SqlWorkflow.Target.Resolution

/-!
# The names of assertions for data checks

The name of an assertion that is made for a parent has the schema and the name
of the parent in it, joined by an underscore, and the word for the check. The
word can be told from what stands before it. Schema and name cannot be told
apart, since either may have underscores of its own, so two parents share names
for assertions just when their joined texts are the same.
-/

namespace SqlWorkflow.Target

open Action.Checks (IsWord)

/-- The schema and the name of a target, joined by an underscore. -/
def stem (t : Target) : String :=
  t.schema.elim "" (· ++ "_") ++ t.name

/-- What stands before the word for a check. -/
def assertionMark : String := "_assertions_"

theorem assertionName_eq (parent : Target) (word : String) :
    assertionName parent word = parent.stem ++ (assertionMark ++ word) := by
  rw [assertionName, stem, String.append_assoc]
  rfl

/-- The last occurrence of a member cuts a list in one way only. -/
theorem append_cons_inj_of_not_mem {α : Type} {a : α}
    {before before' after after' : List α} (h : a ∉ after) (h' : a ∉ after') :
    before ++ a :: after = before' ++ a :: after' ↔
      before = before' ∧ after = after' := by
  constructor
  · intro heq
    rcases List.append_eq_append_iff.1 heq with
      ⟨between, rfl, hrest⟩ | ⟨between, rfl, hrest⟩
    · cases between with
      | nil => exact ⟨(List.append_nil _).symm, (List.cons.inj hrest).2⟩
      | cons b others =>
        rw [(List.cons.inj hrest).2] at h
        exact absurd (List.mem_append_right others List.mem_cons_self) h
    · cases between with
      | nil => exact ⟨List.append_nil _, (List.cons.inj hrest).2.symm⟩
      | cons b others =>
        rw [(List.cons.inj hrest).2] at h'
        exact absurd (List.mem_append_right others List.mem_cons_self) h'
  · rintro ⟨rfl, rfl⟩
    rfl

/-- The mark ends the stem, since no word for a check has an `a`. -/
theorem assertionName_eq_iff {parent other : Target} {word word' : String}
    (h : IsWord word) (h' : IsWord word') :
    assertionName parent word = assertionName other word' ↔
      parent.stem = other.stem ∧ word = word' := by
  have hcut (stem word : String) : (stem ++ (assertionMark ++ word)).toList =
      (stem.toList ++ ['_']) ++ 'a' ::
        ("ssertions_".toList ++ word.toList) := by
    rw [String.toList_append, String.toList_append, List.append_assoc]
    rfl
  have hnot {word : String}
      (h : IsWord word) : 'a' ∉ "ssertions_".toList ++ word.toList := by
    rw [List.mem_append, not_or]
    exact ⟨by decide, h.not_mem⟩
  rw [assertionName_eq, assertionName_eq, ← String.toList_inj, hcut, hcut,
    append_cons_inj_of_not_mem (hnot h) (hnot h'), List.append_cancel_right_eq,
    List.append_cancel_left_eq, String.toList_inj, String.toList_inj]

/-- The name of every assertion for a data check has the mark in it. -/
theorem mark_infix_assertionName (parent : Target) (word : String) :
    assertionMark.toList <:+: (assertionName parent word).toList := by
  rw [assertionName_eq, String.toList_append, String.toList_append]
  exact List.infix_append' _ _ _

theorem withPrefix_inj (tablePrefix : Option String) {name other : String} :
    withPrefix tablePrefix name = withPrefix tablePrefix other ↔
      name = other := by
  rw [withPrefix.eq_def, withPrefix.eq_def]
  cases tablePrefix with
  | none => exact Iff.rfl
  | some p =>
    dsimp only
    split
    · exact Iff.rfl
    · simp only [← String.toList_inj, String.toList_append,
        List.append_cancel_left_eq]

theorem suffix_withPrefix (tablePrefix : Option String) (name : String) :
    name.toList <:+ (withPrefix tablePrefix name).toList := by
  rw [withPrefix.eq_def]
  cases tablePrefix with
  | none => exact List.suffix_rfl
  | some p =>
    dsimp only
    split
    · exact List.suffix_rfl
    · rw [String.toList_append, String.toList_append]
      exact (List.suffix_append _ _).trans (List.suffix_append _ _)

/-- Actions that differ in their names alone have different targets. -/
theorem resolve_eq_iff {config : Settings.Config}
    {database schema : Option String} {name other : String} {role : Role} :
    resolve config ⟨database, schema, name⟩ role =
      resolve config ⟨database, schema, other⟩ role ↔
      name = other := by
  rw [resolve, resolve, Target.mk.injEq]
  by_cases hrole : role = .declaration
  · simp [hrole]
  · simp [hrole, withPrefix_inj]

/-- The targets of two assertions, for parents with the same database of their
own, agree just when the joined texts of the parents and the words for the
checks do. -/
theorem assertionTargets_eq_iff (settings : Settings.Pair)
    (parent other : Target) (database : Option String) {word word' : String}
    (h : IsWord word) (h' : IsWord word') :
    ((assertionTargets settings parent database word).target =
      (assertionTargets settings other database word').target ↔
      parent.stem = other.stem ∧ word = word') ∧
      ((assertionTargets settings parent database word).canonical =
        (assertionTargets settings other database word').canonical ↔
        parent.stem = other.stem ∧ word = word') :=
  ⟨resolve_eq_iff.trans (assertionName_eq_iff h h'),
    resolve_eq_iff.trans (assertionName_eq_iff h h')⟩

end SqlWorkflow.Target
