import SqlWorkflow.Text.Bytes

/-!
# Edit distance and suggestions

The distance of two words is the least number of insertions, deletions and
replacements of bytes that turn one into the other. It is computed row by row:
the row of a beginning of one word holds the distances to all beginnings of the
other.
-/

namespace SqlWorkflow.Text

/-- The rest of a row: `left` is the entry before it, `diagonal` the entry above
that one. -/
def rowTail {α : Type} [DecidableEq α] (a : α)
    (left diagonal : Nat) : List α → List Nat → List Nat
  | b :: bs, above :: row =>
    let entry :=
      min (min (above + 1) (left + 1)) (diagonal + if a = b then 0 else 1)
    entry :: rowTail a entry above bs row
  | _, _ => []

def nextRow {α : Type} [DecidableEq α] (a : α)
    (bs : List α) : List Nat → List Nat
  | [] => []
  | diagonal :: row =>
    (diagonal + 1) :: rowTail a (diagonal + 1) diagonal bs row

def editDistance {α : Type} [DecidableEq α] (as bs : List α) : Nat :=
  (as.foldl (fun row a => nextRow a bs row)
    (List.range (bs.length + 1))).getLastD 0

def bytes (s : String) : List UInt8 :=
  s.toUTF8.toList

/-- The first candidate of least distance, with that distance. -/
def nearest? (unknown : String) : List String → Option (String × Nat)
  | [] => none
  | c :: cs =>
    let d := editDistance (bytes unknown) (bytes c)
    match nearest? unknown cs with
    | none => some (c, d)
    | some (best, e) => if e < d then some (best, e) else some (c, d)

/-- The greatest distance at which a candidate is still suggested. -/
def suggestionDistance : Nat := 2

/-- The first of the nearest candidates, if it is near enough. -/
def suggestion? (unknown : String) (candidates : List String) : Option String :=
  match nearest? unknown candidates with
  | some (c, d) => if d ≤ suggestionDistance then some c else none
  | none => none

end SqlWorkflow.Text
