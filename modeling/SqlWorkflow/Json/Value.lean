import SqlWorkflow.Decimal.Binary64

/-!
# JSON values

Objects keep their members in the order in which the keys were first written.
Integers and floating-point numbers stay apart, since they are written
differently.
-/

namespace SqlWorkflow

inductive Json.Number
  /-- An integer between the least signed and the greatest unsigned number of 64
  bits. -/
  | int (value : Int)
  /-- Any other number. -/
  | float (value : Decimal.Binary64)
  deriving DecidableEq

inductive Json
  | null
  | bool (value : Bool)
  | number (value : Json.Number)
  | string (value : String)
  | array (items : List Json)
  | object (members : List (String × Json))

namespace Json

abbrev Members := List (String × Json)

def Members.get? (members : Members) (key : String) : Option Json :=
  match members with
  | [] => none
  | (k, v) :: rest => if k = key then some v else Members.get? rest key

/-- Sets the value of a key: in its old place if the key is known, else at the
end. -/
def Members.insert (key : String) (value : Json) : Members → Members
  | [] => [(key, value)]
  | (k, v) :: rest =>
    if k = key then
      (k, value) :: rest else (k, v) :: Members.insert key value rest

/-- The object with the given members; of several with one key the last counts,
in the first place. -/
def Members.ofList (pairs : Members) : Members :=
  pairs.foldl (fun members pair => Members.insert pair.1 pair.2 members) []

/-- The value under a key, if this is an object that has it. -/
def get? (value : Json) (key : String) : Option Json :=
  match value with
  | .object members => Members.get? members key
  | _ => none

/-- The string, if this is one. -/
def string? : Json → Option String
  | .string s => some s
  | _ => none

/-- The truth value, if this is one. -/
def bool? : Json → Option Bool
  | .bool b => some b
  | _ => none

def typeName : Json → String
  | .null => "null"
  | .bool _ => "boolean"
  | .number _ => "number"
  | .string _ => "string"
  | .array _ => "array"
  | .object _ => "object"

def Number.isZero : Number → Bool
  | .int value => value == 0
  | .float value => value.isZero

/-- The keys of an object after setting one: the same, or one more at the
end. -/
@[grind =] theorem Members.keys_insert (key : String) (value : Json)
    (members : Members) :
    (Members.insert key value members).map Prod.fst =
      if key ∈ members.map Prod.fst then members.map Prod.fst
      else members.map Prod.fst ++ [key] := by
  induction members with
  | nil => rfl
  | cons pair rest ih =>
    obtain ⟨k, v⟩ := pair
    by_cases h : k = key
    · simp [Members.insert, h]
    · have h' : ¬ key = k := fun e => h e.symm
      by_cases hm : key ∈ rest.map Prod.fst
      · rw [if_pos hm] at ih
        simp only [Members.insert, h, if_false, List.map_cons, ih]
        rw [if_pos (List.mem_cons_of_mem _ hm)]
      · rw [if_neg hm] at ih
        simp only [Members.insert, h, if_false, List.map_cons, ih]
        rw [if_neg
          (by simp only [List.mem_cons, h', hm, or_self, not_false_eq_true])]
        rfl

end Json

end SqlWorkflow
