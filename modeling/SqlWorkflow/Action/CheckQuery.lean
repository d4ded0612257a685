import SqlWorkflow.Action.Options
import SqlWorkflow.Warehouse

/-!
# Queries of data checks

A data check is a query that returns the offending rows. Each group of key
columns has a query of its own; all conditions on rows share one, with a branch
for each.
-/

namespace SqlWorkflow.Action.Checks

/-- Returns the combinations of columns that occur more than once. -/
def uniqueKeyQuery (warehouse : Warehouse) (target : Target)
    (columns : List String) : String :=
  let list := ", ".intercalate columns
  "SELECT\n  *\nFROM (\n  SELECT\n    " ++
    (list ++ (",\n    COUNT(1) AS index_row_count\n  FROM " ++
      (warehouse.quoteTarget target ++ ("\n  GROUP BY " ++
        (list ++ "\n  ) AS data\nWHERE index_row_count > 1")))))

/-- Returns the rows that break a condition, tagged with the condition. -/
def conditionQuery (warehouse : Warehouse) (target : Target)
    (condition : String) : String :=
  "SELECT\n  " ++ (warehouse.quoteString condition ++
    (" AS failing_row_condition,\n  *\nFROM " ++
      (warehouse.quoteTarget target ++
        ("\nWHERE NOT (" ++ (condition ++ ")")))))

/-- Returns the rows that break one of the conditions. -/
def rowConditionsQuery (warehouse : Warehouse) (target : Target)
    (conditions : List String) : String :=
  "\nUNION ALL\n".intercalate (conditions.map (conditionQuery warehouse target))

/-- The word that tells the check of a key from the other checks of an
action. -/
def uniqueKeyName (index : Nat) : String :=
  "uniqueKey_" ++ toString index

def rowConditionsName : String := "rowConditions"

/-- The queries for groups of key columns, numbered from `index` on. -/
def uniqueKeyQueries (warehouse : Warehouse) (target : Target) (index : Nat) :
    List (List String) → List (String × String)
  | [] => []
  | columns :: rest =>
    (uniqueKeyName index, uniqueKeyQuery warehouse target columns) ::
      uniqueKeyQueries warehouse target (index + 1) rest

/-- The queries of all checks of an action, each with the word for it. -/
def queries (warehouse : Warehouse) (target : Target)
    (checks : Checks) : List (String × String) :=
  uniqueKeyQueries warehouse target 0 checks.uniqueKeys ++
    (if checks.conditions.isEmpty then []
      else [(rowConditionsName,
        rowConditionsQuery warehouse target checks.conditions)])

/-- There is one query for each group of key columns, and one more if there are
conditions. -/
@[simp] theorem length_queries (warehouse : Warehouse) (target : Target)
    (checks : Checks) :
    (queries warehouse target checks).length =
      checks.uniqueKeys.length + if checks.conditions.isEmpty then
        0 else 1 := by
  have h (index : Nat) (groups : List (List String)) :
      (uniqueKeyQueries warehouse target index groups).length =
        groups.length := by
    induction groups generalizing index with
    | nil => rfl
    | cons columns rest ih => simp [uniqueKeyQueries, ih]
  rw [queries]
  split <;> simp [h]

end SqlWorkflow.Action.Checks
