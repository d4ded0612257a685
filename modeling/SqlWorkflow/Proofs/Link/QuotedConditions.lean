import SqlWorkflow.Proofs.Expr.Acceptance
import SqlWorkflow.Proofs.Lexical.Reading
import SqlWorkflow.Proofs.Link.DataChecks

/-!
# Conditions as strings in SQL

A condition on rows stands twice in the query that checks it: as it is, and as a
string that tags the rows that break it. One warehouse escapes marks in strings
by backslashes, the others double them. Either way the string ends where it is
meant to end, whatever the condition holds, and it is read back as the
condition.
-/

namespace SqlWorkflow.Warehouse

open SqlWorkflow.Expr (Unbroken escapedChar unbroken_flatMap_escapedChar)
open Lexical
  (Delimiter Dialect lexemes lexemes_nil lexemes_of_next? next? enclosure_cons)

/-! ## Strings with backslashes -/

/-- The text is a string literal with backslashes for a value. -/
structure BackslashLiteral (text value : String) : Prop where
  /-- The text is one quotation, and nothing else. -/
  alone : lexemes .sql text.toList = [.enclosed .single text.toList true]
  /-- In front of another text it is the same quotation, and the other text is
  left. -/
  embedded : ∀ rest : List Char, rest.head? ≠ some '\'' →
    next? .sql (text.toList ++ rest) =
      some (.enclosed .single text.toList true, rest)
  /-- A reader of expressions takes it for the value. -/
  value : Expr.parse text = .ok (.string value)

/-- A quotation reaches to the first mark that no backslash escapes. -/
theorem enclosure_of_unbroken {raw : List Char} (h : Unbroken '\'' raw)
    (rest : List Char) :
    Delimiter.single.enclosure (raw ++ '\'' :: rest) =
      ⟨raw ++ ['\''], rest, true⟩ := by
  induction h with
  | nil =>
    rw [List.nil_append, enclosure_cons]
    rfl
  | escaped c _ ih =>
    have hhides : (!Delimiter.single.isComment && '\\' == '\\') = true := rfl
    rw [List.cons_append, List.cons_append, enclosure_cons, if_pos hhides,
      List.tail_cons, ih]
    rfl
  | @plain c raw hmark hbackslash _ ih =>
    have hhides : (!Delimiter.single.isComment && c == '\\') = false := by
      simp [hbackslash]
    have hcloses : Delimiter.single.closer.isPrefixOf
        (c :: (raw ++ '\'' :: rest)) = false := by
      simp [Delimiter.closer, List.isPrefixOf, Ne.symm hmark]
    rw [List.cons_append, enclosure_cons, hhides, hcloses, ih]
    rfl

/-- The opening mark is not taken for a triple one: not even if nothing stands
between the two marks. -/
theorem opening?_of_unbroken {raw : List Char} (h : Unbroken '\'' raw)
    {rest : List Char} (hrest : rest.head? ≠ some '\'') :
    Dialect.sql.opening? ('\'' :: (raw ++ '\'' :: rest)) = some .single := by
  have htriple : (Delimiter.tripleSingle.opener .sql).isPrefixOf
      ('\'' :: (raw ++ '\'' :: rest)) = false := by
    cases h with
    | nil =>
      cases rest with
      | nil => rfl
      | cons c rest =>
        have hc : c ≠ '\'' := by simpa using hrest
        simp [Delimiter.opener, List.isPrefixOf, Ne.symm hc]
    | escaped c h => rfl
    | plain hmark => simp [Delimiter.opener, List.isPrefixOf, Ne.symm hmark]
  rw [Dialect.opening?, Dialect.delimiters,
    List.find?_cons_of_neg Bool.false_ne_true,
    List.find?_cons_of_neg Bool.false_ne_true,
    List.find?_cons_of_neg (by rw [htriple]; exact Bool.false_ne_true),
    List.find?_cons_of_neg Bool.false_ne_true, List.find?_cons_of_pos rfl]

theorem next?_of_unbroken {raw : List Char} (h : Unbroken '\'' raw)
    {rest : List Char} (hrest : rest.head? ≠ some '\'') :
    next? .sql ('\'' :: (raw ++ '\'' :: rest)) =
      some (.enclosed .single ('\'' :: (raw ++ ['\''])) true, rest) := by
  have hopened : ('\'' :: (raw ++ '\'' :: rest)).drop
      (Delimiter.single.opener .sql).length =
      raw ++ '\'' :: rest := rfl
  simp only [next?, opening?_of_unbroken h hrest, hopened,
    enclosure_of_unbroken h rest]
  rfl

/-- A text with another one in the place of a character. -/
def replaced (c : Char) (other : List Char) (text : List Char) : List Char :=
  text.flatMap fun d => if d = c then other else [d]

/-- Both characters are escaped at once. It comes to the same to escape the
backslashes first and the marks after them; the backslashes of the marks would
be escaped again in the other order. -/
theorem flatMap_backslashed_eq_replaced (value : List Char) :
    value.flatMap backslashed =
      replaced '\'' ['\\', '\''] (replaced '\\' ['\\', '\\'] value) := by
  rw [replaced, replaced, List.flatMap_assoc]
  refine List.flatMap_congr fun c _ => ?_
  by_cases hbackslash : c = '\\'
  · rw [hbackslash]
    rfl
  · by_cases hmark : c = '\''
    · rw [hmark]
      rfl
    · simp [backslashed, hbackslash, hmark]

example : replaced '\\' ['\\', '\\'] (replaced '\'' ['\\', '\''] ['\'']) =
    ['\\', '\\', '\''] := by
  decide

theorem toList_quoteString_bigquery (value : String) :
    (quoteString .bigquery value).toList =
      '\'' :: (value.toList.flatMap (escapedChar '\'') ++ ['\'']) :=
  String.toList_ofList

theorem backslashLiteral_quoteString (value : String) :
    BackslashLiteral (quoteString .bigquery value) value := by
  have hunbroken := unbroken_flatMap_escapedChar '\'' value.toList
  have hembedded (rest : List Char) (hrest : rest.head? ≠ some '\'') :
      next? .sql ((quoteString .bigquery value).toList ++ rest) =
        some (.enclosed .single (quoteString .bigquery value).toList true,
          rest) := by
    rw [toList_quoteString_bigquery, List.cons_append, List.append_assoc]
    exact next?_of_unbroken hunbroken hrest
  constructor
  case alone =>
    have hnext := hembedded [] nofun
    rw [List.append_nil] at hnext
    rw [lexemes_of_next? hnext, lexemes_nil]
  case embedded => exact hembedded
  case value =>
    apply Expr.parse_of_source
    have hsource := Expr.Source.text .nil
      (.term (.string (.quoted (s := value) '\'' (.inl rfl)))) .nil
    rwa [List.nil_append, List.append_nil,
      ← toList_quoteString_bigquery] at hsource

/-! ## Strings with doubled marks -/

/-- The text in which every mark stands for two of them; none if a mark stands
alone. -/
def undouble? : List Char → Option (List Char)
  | [] => some []
  | '\'' :: '\'' :: text => (undouble? text).map ('\'' :: ·)
  | '\'' :: _ => none
  | c :: text => (undouble? text).map (c :: ·)

/-- Reads up to a mark that stands alone; returns the text before it, with one
mark for two, and the text after it. -/
def readDoubled? : List Char → Option (List Char × List Char)
  | [] => none
  | '\'' :: '\'' :: text =>
    (readDoubled? text).map fun (value, rest) => ('\'' :: value, rest)
  | '\'' :: text => some ([], text)
  | c :: text => (readDoubled? text).map fun (value, rest) => (c :: value, rest)

/-- Reads a string literal with doubled marks at the head of a text. -/
def readDoubledLiteral? : List Char → Option (List Char × List Char)
  | '\'' :: text => readDoubled? text
  | _ => none

/-- The text is a string literal with doubled marks for a value. -/
structure DoubledLiteral (text value : String) : Prop where
  /-- Between two marks there is the value with every mark doubled. -/
  inside : ∃ inside, text.toList = '\'' :: (inside ++ ['\'']) ∧
    undouble? inside = some value.toList
  /-- In front of another text it is read as the value, and the other text is
  left. -/
  embedded : ∀ rest : List Char, rest.head? ≠ some '\'' →
    readDoubledLiteral? (text.toList ++ rest) = some (value.toList, rest)

theorem undouble?_flatMap_doubled (value : List Char) :
    undouble? (value.flatMap doubled) = some value := by
  induction value with
  | nil => rfl
  | cons c value ih =>
    rw [List.flatMap_cons, doubled]
    by_cases hc : c = '\''
    · rw [if_pos hc, hc, List.cons_append, List.cons_append, List.nil_append,
        undouble?, ih]
      rfl
    · rw [if_neg hc, List.cons_append, List.nil_append, undouble?, ih]
      · rfl
      · exact fun _ h => absurd h hc
      · exact hc

/-- A reader that stops at a mark alone reads as much as may be undoubled. -/
theorem readDoubled?_append {inside value : List Char}
    (h : undouble? inside = some value) {rest : List Char}
    (hrest : rest.head? ≠ some '\'') :
    readDoubled? (inside ++ '\'' :: rest) = some (value, rest) := by
  fun_induction undouble? inside generalizing value with
  | case1 =>
    cases h
    cases rest with
    | nil => rfl
    | cons c rest =>
      have hc : c ≠ '\'' := by simpa using hrest
      rw [List.nil_append, readDoubled?]
      exact fun _ heq => hc (List.cons.inj heq).1
  | case2 text ih =>
    obtain ⟨undoubled, htext, rfl⟩ := Option.map_eq_some_iff.1 h
    rw [List.cons_append, List.cons_append, readDoubled?, ih htext]
    rfl
  | case3 => cases h
  | case4 c text hpair hmark ih =>
    obtain ⟨undoubled, htext, rfl⟩ := Option.map_eq_some_iff.1 h
    rw [List.cons_append, readDoubled?, ih htext]
    · rfl
    · exact fun _ h _ => hmark h
    · exact hmark

theorem doubledLiteral_quoteString {warehouse : Warehouse}
    (h : warehouse ≠ .bigquery) (value : String) :
    DoubledLiteral (warehouse.quoteString value) value := by
  have htext : (warehouse.quoteString value).toList =
      '\'' :: (value.toList.flatMap doubled ++ ['\'']) := by
    cases warehouse with
    | bigquery => exact absurd rfl h
    | _ => exact String.toList_ofList
  have hinside := undouble?_flatMap_doubled value.toList
  constructor
  case inside => exact ⟨_, htext, hinside⟩
  case embedded =>
    intro rest hrest
    rw [htext, List.cons_append, List.append_assoc, readDoubledLiteral?]
    exact readDoubled?_append hinside hrest

/-! ## Tags -/

/-- The text is a string literal of the warehouse for a value. -/
def Denotes (warehouse : Warehouse) (text value : String) : Prop :=
  if warehouse = .bigquery then BackslashLiteral text value
  else DoubledLiteral text value

theorem denotes_quoteString (warehouse : Warehouse) (value : String) :
    warehouse.Denotes (warehouse.quoteString value) value := by
  rw [Denotes]
  split
  case isTrue h =>
    subst h
    exact backslashLiteral_quoteString value
  case isFalse h => exact doubledLiteral_quoteString h value

/-- Reads a string at the head of a text as the warehouse does; returns it, and
the text after it. -/
def readString? (warehouse : Warehouse)
    (text : List Char) : Option (String × List Char) :=
  if warehouse = .bigquery then
    match next? .sql text with
    | some (.enclosed .single literal true, rest) =>
      match Expr.parse (String.ofList literal) with
      | .ok (.string value) => some (value, rest)
      | _ => none
    | _ => none
  else (readDoubledLiteral? text).map fun (value, rest) =>
    (String.ofList value, rest)

theorem Denotes.readString?_append {warehouse : Warehouse} {text value : String}
    (h : warehouse.Denotes text value) {rest : List Char}
    (hrest : rest.head? ≠ some '\'') :
    warehouse.readString? (text.toList ++ rest) = some (value, rest) := by
  rw [Denotes] at h
  rw [readString?]
  split at h
  case isTrue hbigquery =>
    rw [if_pos hbigquery, h.embedded rest hrest]
    simp only [String.ofList_toList, h.value]
  case isFalse hother =>
    rw [if_neg hother, h.embedded rest hrest]
    simp only [Option.map_some, String.ofList_toList]

/-- A branch of a query selects the rows of a table that break a condition, and
its tag is the condition: it is a string literal for it, and a reader that comes
to the tag reads the condition and goes on after the literal. -/
structure Tagged (warehouse : Warehouse)
    (table condition branch : String) : Prop where
  query : Action.Checks.FindsRows table (warehouse.quoteString condition)
    condition branch
  literal : warehouse.Denotes (warehouse.quoteString condition) condition
  read : ∃ text : String, branch = "SELECT\n  " ++ text ∧
    warehouse.readString? text.toList =
      some (condition, (" AS failing_row_condition,\n  *\nFROM " ++ table ++
        "\nWHERE NOT (" ++ condition ++ ")").toList)

theorem tagged_conditionQuery (warehouse : Warehouse) (target : Target)
    (condition : String) :
    warehouse.Tagged (warehouse.quoteTarget target) condition
      (Action.Checks.conditionQuery warehouse target condition) := by
  have hdenotes := warehouse.denotes_quoteString condition
  refine ⟨Action.Checks.findsRows_conditionQuery warehouse target condition,
    hdenotes, _, rfl, ?_⟩
  have hrest : (" AS failing_row_condition,\n  *\nFROM " ++
      warehouse.quoteTarget target ++ "\nWHERE NOT (" ++ condition ++
      ")").toList.head? ≠ some '\'' := by
    simp
  rw [← hdenotes.readString?_append hrest, ← String.toList_append]
  simp only [String.append_assoc]

/-- Every string that is quoted is read back as itself. So the query for
conditions on rows has a branch for each condition, and the tag of the branch is
the condition. -/
theorem quoted_conditions_read_back :
    (∀ (warehouse : Warehouse) (value : String),
      warehouse.Denotes (warehouse.quoteString value) value) ∧
      ∀ (warehouse : Warehouse) (target : Target) (conditions : List String),
        ∃ branches,
          Action.Checks.rowConditionsQuery warehouse target conditions =
            "\nUNION ALL\n".intercalate branches ∧
            List.Forall₂ (warehouse.Tagged (warehouse.quoteTarget target))
              conditions branches := by
  refine ⟨denotes_quoteString, fun warehouse target conditions => ?_⟩
  refine ⟨conditions.map (Action.Checks.conditionQuery warehouse target), rfl,
    ?_⟩
  rw [List.forall₂_map_right_iff, List.forall₂_same]
  intro condition _
  exact tagged_conditionQuery warehouse target condition

end SqlWorkflow.Warehouse
