/-!
# Indexes

An index lists the places at which each key occurs. Keys keep the order in which
they first occurred, and the places of a key the order in which they were added.
-/

namespace SqlWorkflow.Registry

abbrev Index (κ : Type) := List (κ × List Nat)

namespace Index

variable {κ : Type} [DecidableEq κ]

def add (key : κ) (place : Nat) : Index κ → Index κ
  | [] => [(key, [place])]
  | (k, places) :: rest =>
    if k = key then (k, places ++ [place]) :: rest
    else (k, places) :: add key place rest

def places (key : κ) : Index κ → List Nat
  | [] => []
  | (k, ps) :: rest => if k = key then ps else places key rest

def repeated (index : Index κ) : Index κ :=
  index.filter fun entry => 1 < entry.2.length

@[simp] theorem places_nil (key : κ) : places key ([] : Index κ) = [] := rfl

theorem places_add (key : κ) (place : Nat) (index : Index κ) (wanted : κ) :
    places wanted (add key place index) =
      places wanted index ++ if wanted = key then [place] else [] := by
  induction index with
  | nil =>
    by_cases h : wanted = key
    · simp [add, places, h]
    · simp [add, places, h, Ne.symm h]
  | cons entry rest ih =>
    obtain ⟨k, ps⟩ := entry
    by_cases hk : k = key
    · by_cases hw : wanted = key
      · simp [add, places, hk, hw]
      · simp [add, places, hk, hw, Ne.symm hw]
    · by_cases hw : k = wanted
      · subst hw
        simp [add, places, hk]
      · simp [add, places, hk, hw, ih]

end Index

end SqlWorkflow.Registry
