/-!
# Dictionaries

A dictionary holds a value for each of some keys, in the order of the keys.
-/

namespace SqlWorkflow

/-- Keys with their values, in the order of the keys. -/
abbrev Dictionary (α : Type) := List (String × α)

namespace Dictionary

variable {α : Type}

def insert (key : String) (value : α) : Dictionary α → Dictionary α
  | [] => [(key, value)]
  | (k, v) :: rest =>
    if key < k then (key, value) :: (k, v) :: rest
    else if key = k then (key, value) :: rest
    else (k, v) :: insert key value rest

def get? (dictionary : Dictionary α) (key : String) : Option α :=
  match dictionary with
  | [] => none
  | (k, v) :: rest => if k = key then some v else get? rest key

def contains (dictionary : Dictionary α) (key : String) : Bool :=
  (get? dictionary key).isSome

/-- The dictionary of some pairs; of several with one key the last counts. -/
def ofList (pairs : List (String × α)) : Dictionary α :=
  pairs.foldl (fun dictionary pair => insert pair.1 pair.2 dictionary) []

@[simp] theorem get?_nil (key : String) :
    get? ([] : Dictionary α) key = none := rfl

@[grind =] theorem get?_insert (key : String) (value : α)
    (dictionary : Dictionary α) (wanted : String) :
    get? (insert key value dictionary) wanted =
      if wanted = key then some value else get? dictionary wanted := by
  induction dictionary with
  | nil => simp [insert, get?, eq_comm]
  | cons pair rest ih =>
    obtain ⟨k, v⟩ := pair
    by_cases hlt : key < k
    · simp [insert, get?, hlt, eq_comm]
    · by_cases hk : key = k
      · subst hk
        by_cases h : key = wanted
        · simp [insert, get?, h]
        · rw [insert, if_neg hlt, if_pos rfl, get?, if_neg h, get?, if_neg h,
            if_neg (Ne.symm h)]
      · by_cases hw : k = wanted
        · subst hw
          simp [insert, get?, hlt, hk, Ne.symm hk]
        · simp [insert, get?, hlt, hk, hw, ih]

theorem contains_eq_true_iff {dictionary : Dictionary α} {key : String} :
    dictionary.contains key = true ↔ key ∈ dictionary.map Prod.fst := by
  induction dictionary with
  | nil => simp [contains]
  | cons pair rest ih =>
    obtain ⟨k, v⟩ := pair
    rw [List.map_cons, List.mem_cons, ← ih, contains, contains, get?]
    by_cases h : k = key
    · simp [h]
    · simp [h, Ne.symm h]

end Dictionary

end SqlWorkflow
