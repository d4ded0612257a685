/-!
# Wildcards

The pattern of an ignore rule is a list of patterns for the components of a
path. In a component `*` stands for any run of characters, `?` for any one
character, and a backslash makes the character after it ordinary. The component
`**` stands for any number of components; at the end of a pattern it stands for
at least one.
-/

namespace SqlWorkflow.Project

def fitsName : List Char → List Char → Bool
  | [], [] => true
  | [], _ :: _ => false
  | '*' :: pattern, [] => fitsName pattern []
  | '*' :: pattern,
    c :: name => fitsName pattern (c :: name) || fitsName ('*' :: pattern) name
  | '?' :: pattern, _ :: name => fitsName pattern name
  | '\\' :: p :: pattern, c :: name => p == c && fitsName pattern name
  | p :: pattern, c :: name => p == c && fitsName pattern name
  | _ :: _, [] => false
termination_by pattern name => pattern.length + name.length

/-- Whether a path, given by its components, fits a pattern. -/
def fitsPath : List (List Char) → List (List Char) → Bool
  | [], path => path.isEmpty
  | [['*', '*']], path => !path.isEmpty
  | ['*', '*'] :: pattern, [] => fitsPath pattern []
  | ['*', '*'] :: pattern, name :: path =>
    fitsPath pattern (name :: path) || fitsPath (['*', '*'] :: pattern) path
  | _ :: _, [] => false
  | first :: pattern,
    name :: path => fitsName first name && fitsPath pattern path
termination_by pattern path => pattern.length + path.length

/-- A name without special characters is fitted by itself only. -/
theorem fitsName_ordinary {pattern : List Char}
    (h : ∀ c ∈ pattern, c ≠ '*' ∧ c ≠ '?' ∧ c ≠ '\\') (name : List Char) :
    fitsName pattern name = true ↔ name = pattern := by
  induction pattern generalizing name with
  | nil => cases name <;> simp [fitsName]
  | cons p ps ih =>
    obtain ⟨hstar, hany, hescape⟩ := h p (by simp)
    cases name with
    | nil => rw [fitsName] <;> simp_all
    | cons c cs =>
      rw [fitsName, Bool.and_eq_true, beq_iff_eq,
        ih (fun d hd => h d (by simp [hd]))]
      · simp [eq_comm]
      all_goals simp_all

end SqlWorkflow.Project
