import Mathlib.Data.List.Nodup
import SqlWorkflow.Action.CheckQuery

/-!
# The words for data checks

Every query for the data checks of an action has a word that tells it from the
others. The words follow from the checks alone: one for each group of key
columns, with its number, and one more if there is a condition on rows or a
column that must not be null.
-/

namespace SqlWorkflow.Action.Checks

/-- A word for a data check. -/
inductive IsWord : String → Prop
  | uniqueKey (index : Nat) : IsWord (uniqueKeyName index)
  | rowConditions : IsWord rowConditionsName

/-- The words for the checks of an action, in the order of their queries. -/
def words (checks : Checks) : List String :=
  (List.range checks.uniqueKeys.length).map uniqueKeyName ++ if checks.nonNull =
    [] ∧ checks.rowConditions = [] then [] else [rowConditionsName]

theorem length_words (checks : Checks) :
    checks.words.length = checks.uniqueKeys.length +
      if checks.nonNull = [] ∧ checks.rowConditions = [] then 0 else 1 := by
  rw [words, List.length_append, List.length_map, List.length_range]
  split <;> rfl

theorem conditions_eq_nil_iff {checks : Checks} :
    checks.conditions = [] ↔
      checks.nonNull = [] ∧ checks.rowConditions = [] := by
  rw [conditions, List.append_eq_nil_iff, List.map_eq_nil_iff, and_comm]

theorem map_fst_uniqueKeyQueries (warehouse : Warehouse) (target : Target)
    (index : Nat) (groups : List (List String)) :
    (uniqueKeyQueries warehouse target index groups).map (·.1) =
      (List.range' index groups.length).map uniqueKeyName := by
  induction groups generalizing index with
  | nil => rfl
  | cons columns rest ih =>
    rw [uniqueKeyQueries, List.map_cons, ih, List.length_cons, List.range'_succ,
      List.map_cons]

/-- Each query has the word for its check. -/
theorem map_fst_queries_eq_words (warehouse : Warehouse) (target : Target)
    (checks : Checks) :
    (checks.queries warehouse target).map (·.1) = checks.words := by
  rw [queries, words, List.map_append, map_fst_uniqueKeyQueries,
    List.range_eq_range']
  congr 1
  by_cases hnone : checks.conditions = []
  · rw [if_pos (conditions_eq_nil_iff.1 hnone), hnone]
    rfl
  · rw [if_neg (hnone ∘ conditions_eq_nil_iff.2), if_neg (by simpa using hnone)]
    rfl

theorem isWord_of_mem_words {checks : Checks} {word : String}
    (h : word ∈ checks.words) : IsWord word := by
  rw [words, List.mem_append, List.mem_map] at h
  rcases h with ⟨index, -, rfl⟩ | hlast
  · exact .uniqueKey index
  · split at hlast
    · cases hlast
    · rw [List.mem_singleton.1 hlast]
      exact .rowConditions

theorem toList_uniqueKeyName (index : Nat) :
    (uniqueKeyName index).toList =
      "uniqueKey_".toList ++ Nat.toDigits 10 index := by
  rw [uniqueKeyName, String.toList_append, Nat.toString_eq_repr,
    Nat.toList_repr]

theorem uniqueKeyName_injective : Function.Injective uniqueKeyName := by
  intro index other heq
  have hdigits : Nat.toDigits 10 index = Nat.toDigits 10 other := by
    have hlists := congrArg String.toList heq
    rw [toList_uniqueKeyName, toList_uniqueKeyName] at hlists
    exact List.append_cancel_left hlists
  calc
    index = Nat.ofDigitChars 10 (Nat.toDigits 10 index) 0 :=
      Nat.ofDigitChars_ten_toDigits.symm
    _ = Nat.ofDigitChars 10 (Nat.toDigits 10 other) 0 := by rw [hdigits]
    _ = other := Nat.ofDigitChars_ten_toDigits

theorem uniqueKeyName_ne_rowConditionsName (index : Nat) :
    uniqueKeyName index ≠ rowConditionsName := by
  intro heq
  have hlists := congrArg String.toList heq
  rw [toList_uniqueKeyName] at hlists
  have hhead : some 'u' = some 'r' := congrArg List.head? hlists
  cases hhead

/-- The checks of an action have different words. -/
theorem nodup_words (checks : Checks) : checks.words.Nodup := by
  have hkeys :
      ((List.range checks.uniqueKeys.length).map uniqueKeyName).Nodup :=
    List.nodup_range.map uniqueKeyName_injective
  rw [words, List.nodup_append]
  refine ⟨hkeys, ?_, ?_⟩
  · split
    · exact List.nodup_nil
    · exact List.nodup_singleton _
  · intro word hword other hother heq
    obtain ⟨index, -, rfl⟩ := List.mem_map.1 hword
    split at hother
    · cases hother
    · exact uniqueKeyName_ne_rowConditionsName index
        (heq.trans (List.mem_singleton.1 hother))

/-- No word for a check has an `a`. -/
theorem IsWord.not_mem {word : String}
    (h : IsWord word) : 'a' ∉ word.toList := by
  cases h with
  | rowConditions => decide
  | uniqueKey index =>
    rw [toList_uniqueKeyName, List.mem_append, not_or]
    refine ⟨by decide, fun hmem => ?_⟩
    have hdigit := Nat.isDigit_of_mem_toDigits (by decide) (by decide) hmem
    cases hdigit

end SqlWorkflow.Action.Checks
