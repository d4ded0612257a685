import SqlWorkflow.Proofs.Expr.Acceptance
import SqlWorkflow.Proofs.Expr.Parts

/-!
# How deep an expression is

The levels of a source bound how many expressions stand inside each other: as
items and entries, as arguments, in parentheses. Members and calls after an
expression cost no level, and each of them puts the expression one step further
down in the tree. So the height of a tree is bounded by the number of levels
only up to what is applied one after the other, and no bound without that holds.
-/

namespace SqlWorkflow.Expr

mutual

/-- The greatest weight of a way down into an expression. A step to an item, an
entry or an argument weighs `inward`, also if there is none of them; a step to
what a member or a call is applied to weighs `back`. -/
def depth (inward back : Nat) : Expr → Nat
  | .null | .bool _ | .number _ | .string _ | .template _ | .ident _ => 0
  | .array items => inward + listDepth inward back items
  | .object entries => inward + entriesDepth inward back entries
  | .member base _ => back + depth inward back base
  | .call callee arguments =>
    max (back + depth inward back callee)
      (inward + listDepth inward back arguments)

def listDepth (inward back : Nat) : List Expr → Nat
  | [] => 0
  | e :: es => max (depth inward back e) (listDepth inward back es)

def entriesDepth (inward back : Nat) : List (String × Expr) → Nat
  | [] => 0
  | (_, e) :: es => max (depth inward back e) (entriesDepth inward back es)

end

/-- The height of the tree: an array, an object, a member or a call is one
higher than the highest expression directly below it. -/
def height (e : Expr) : Nat := e.depth 1 1

/-- How many arrays, objects and calls stand inside each other; what is applied
to an expression does not stand further inside than the expression. -/
def nesting (e : Expr) : Nat := e.depth 1 0

/-- How many members and calls are passed on a way down into an expression, each
by going to what it is applied to. -/
def applications (e : Expr) : Nat := e.depth 0 1

section Depth

variable {inward back bound : Nat}

theorem listDepth_le_iff {items : List Expr} :
    listDepth inward back items ≤ bound ↔
      ∀ e ∈ items, depth inward back e ≤ bound := by
  induction items with
  | nil => simp [listDepth]
  | cons e items ih => rw [listDepth, Nat.max_le, List.forall_mem_cons, ih]

theorem entriesDepth_le_iff {entries : List (String × Expr)} :
    entriesDepth inward back entries ≤ bound ↔
      ∀ entry ∈ entries, depth inward back entry.2 ≤ bound := by
  induction entries with
  | nil => simp [entriesDepth]
  | cons entry entries ih =>
    rw [entriesDepth, Nat.max_le, List.forall_mem_cons, ih]

theorem depth_le_listDepth {items : List Expr} {e : Expr} (he : e ∈ items) :
    depth inward back e ≤ listDepth inward back items :=
  listDepth_le_iff.1 (Nat.le_refl _) e he

theorem depth_le_entriesDepth {entries : List (String × Expr)}
    {entry : String × Expr} (hentry : entry ∈ entries) :
    depth inward back entry.2 ≤ entriesDepth inward back entries :=
  entriesDepth_le_iff.1 (Nat.le_refl _) entry hentry

/-- Weights that are added up weigh no way more than the two greatest weights
together. -/
theorem depth_add_le (inward inward' back back' : Nat) (e : Expr) :
    depth (inward + inward') (back + back') e ≤
      depth inward back e + depth inward' back' e := by
  have hlist {items : List Expr}
      (ih : ∀ e ∈ items, depth (inward + inward') (back + back') e ≤
        depth inward back e + depth inward' back' e) :
      listDepth (inward + inward') (back + back') items ≤
        listDepth inward back items + listDepth inward' back' items :=
    listDepth_le_iff.2 fun e he =>
      Nat.le_trans (ih e he)
        (Nat.add_le_add (depth_le_listDepth he) (depth_le_listDepth he))
  induction e using Expr.induction with
  | null | bool | number | string | template | ident =>
    simp only [depth]
    exact Nat.zero_le _
  | array items ih =>
    have hitems := hlist ih
    simp only [depth]
    omega
  | object entries ih =>
    have hentries : entriesDepth (inward + inward') (back + back') entries ≤
        entriesDepth inward back entries + entriesDepth inward' back' entries :=
      entriesDepth_le_iff.2 fun entry hentry =>
        Nat.le_trans (ih entry hentry) (Nat.add_le_add
          (depth_le_entriesDepth hentry) (depth_le_entriesDepth hentry))
    simp only [depth]
    omega
  | member base property ih =>
    simp only [depth]
    omega
  | call callee arguments hcallee ih =>
    have harguments := hlist ih
    simp only [depth]
    omega

/-- A tree is no higher than the number of expressions inside each other and the
number of applications. -/
theorem height_le (e : Expr) : e.height ≤ e.nesting + e.applications :=
  depth_add_le 1 0 0 1 e

end Depth

/-! ## Literals -/

theorem exists_toJson?_of_list {items : List Expr} {values : List Json}
    (h : listToJson? items = some values) :
    ∀ e ∈ items, ∃ value, e.toJson? = some value := by
  induction items generalizing values with
  | nil => nofun
  | cons e items ih =>
    rw [listToJson?] at h
    split at h
    · rename_i value rest hvalue hrest
      exact List.forall_mem_cons.2 ⟨⟨value, hvalue⟩, ih hrest⟩
    · cases h

theorem exists_toJson?_of_entries {entries : List (String × Expr)}
    {pairs : List (String × Json)} (h : entriesToJson? entries = some pairs) :
    ∀ entry ∈ entries, ∃ value, entry.2.toJson? = some value := by
  induction entries generalizing pairs with
  | nil => nofun
  | cons entry entries ih =>
    rw [entriesToJson?] at h
    split at h
    · rename_i value rest hvalue hrest
      exact List.forall_mem_cons.2 ⟨⟨value, hvalue⟩, ih hrest⟩
    · cases h

/-- Nothing is applied in a literal. -/
theorem applications_of_toJson? {e : Expr} {value : Json}
    (h : e.toJson? = some value) : e.applications = 0 := by
  apply Nat.le_zero.1
  induction e using Expr.induction generalizing value with
  | null | bool | number | string | template =>
    simp only [applications, depth]
    exact Nat.le_refl 0
  | array items ih =>
    rw [toJson?] at h
    obtain ⟨values, hvalues, -⟩ := Option.map_eq_some_iff.1 h
    rw [applications, depth, Nat.zero_add]
    refine listDepth_le_iff.2 fun e he => ?_
    obtain ⟨v, hv⟩ := exists_toJson?_of_list hvalues e he
    exact ih e he hv
  | object entries ih =>
    rw [toJson?] at h
    obtain ⟨pairs, hpairs, -⟩ := Option.map_eq_some_iff.1 h
    rw [applications, depth, Nat.zero_add]
    refine entriesDepth_le_iff.2 fun entry hentry => ?_
    obtain ⟨v, hv⟩ := exists_toJson?_of_entries hpairs entry hentry
    exact ih entry hentry hv
  | ident | member | call =>
    rw [toJson?] at h
    cases h

/-! ## Deep expressions -/

/-- An expression that is called without arguments, and so is the result, a
number of times. -/
def called (e : Expr) : Nat → Expr
  | 0 => e
  | n + 1 => .call (called e n) []

/-- The text of such calls. -/
def calls : Nat → List Char
  | 0 => []
  | n + 1 => calls n ++ ['(', ')']

/-- An expression in a number of arrays. -/
def arrays (e : Expr) : Nat → Expr
  | 0 => e
  | n + 1 => .array [arrays e n]

/-- A text in a number of brackets. -/
def brackets (text : List Char) : Nat → List Char
  | 0 => text
  | n + 1 => '[' :: (brackets text n ++ [']'])

theorem writesTerm_called {inner : Writing Expr} {e : Expr} {text : List Char}
    (h : WritesTerm inner e text)
    (n : Nat) : WritesTerm inner (called e n) (text ++ calls n) := by
  induction n with
  | zero =>
    rw [calls, List.append_nil]
    exact h
  | succ n ih =>
    rw [calls, ← List.append_assoc]
    exact .call ih .nil (.nil .nil)

theorem written_arrays {levels : Nat} {e : Expr} {text : List Char}
    (h : Written levels e text) (n : Nat) :
    Written (levels + n) (arrays e n) (brackets text n) := by
  induction n with
  | zero => exact h
  | succ n ih => exact .term (.array (.last .nil ih .nil))

theorem parse_of_written {e : Expr} {text : List Char}
    (h : Written maxDepth e text) : parse (String.ofList text) = .ok e := by
  have hread := (accepts_ofLevels maxDepth).takes .nil h .nil .nil
  rw [List.nil_append, List.nil_append, List.append_nil] at hread
  rw [parse, String.toList_ofList]
  exact parseChars_of_takes hread

theorem depth_called (inward back : Nat) (e : Expr) (n : Nat)
    (h : inward ≤ back + depth inward back e) :
    depth inward back (called e n) = back * n + depth inward back e := by
  induction n with
  | zero => simp [called]
  | succ n ih =>
    rw [called, depth, ih, listDepth, Nat.mul_succ]
    omega

theorem depth_arrays (inward back : Nat) (e : Expr) (n : Nat) :
    depth inward back (arrays e n) = inward * n + depth inward back e := by
  induction n with
  | zero => simp [arrays]
  | succ n ih =>
    rw [arrays, depth, listDepth, listDepth, ih, Nat.mul_succ]
    omega

theorem parse_calls (n : Nat) :
    parse (String.ofList ('f' :: calls n)) = .ok (called (.ident "f") n) := by
  have hname : WritesTerm (Written 255) (.ident "f") ['f'] :=
    .ident (.word (by decide) nofun rfl) (by decide)
  exact parse_of_written (.term (writesTerm_called hname n))

/-! ## Reading -/

theorem inherits_nesting (levels : Nat) :
    Inherits (fun _ e => e.nesting ≤ levels)
      (fun _ e => e.nesting ≤ levels + 1) where
  inside_mono _ _ _ _ h := h
  whole_mono _ _ _ _ h := h
  number _ _ := Nat.zero_le _
  string _ _ := Nat.zero_le _
  word _ word := by
    unfold Level.ofWord
    split
    · exact Nat.zero_le _
    split
    · exact Nat.zero_le _
    split <;> exact Nat.zero_le _
  template _ := Nat.zero_le _
  array h := by
    have hitems := listDepth_le_iff.2 h
    rw [nesting, depth]
    omega
  object h := by
    have hentries := entriesDepth_le_iff.2 h
    rw [nesting, depth]
    omega
  parentheses h := Nat.le_succ_of_le h
  member _ h := by
    rw [nesting] at h
    rw [nesting, depth]
    omega
  call hcallee h := by
    have harguments := listDepth_le_iff.2 h
    rw [nesting] at hcallee
    rw [nesting, depth]
    omega

theorem reads_nesting (levels : Nat) :
    Reads (fun _ e => e.nesting ≤ levels) (ofLevels levels) := by
  induction levels with
  | zero => nofun
  | succ levels ih => exact (inherits_nesting levels).expression ih

/-- The levels bound what is nested in an expression that is read. They bound
the height of its tree only up to the members and calls that are applied one
after the other, of which a literal has none. -/
theorem height_of_parse {source : String} {e : Expr}
    (h : parse source = .ok e) :
    e.nesting ≤ maxDepth ∧ e.height ≤ maxDepth + e.applications ∧
      ∀ value, e.toJson? = some value → e.height ≤ maxDepth := by
  obtain ⟨rest, hlt, hread⟩ := exists_takes_of_parseChars h
  have hnesting : e.nesting ≤ maxDepth := reads_nesting maxDepth _ _ hread
  have hheight : e.height ≤ maxDepth + e.applications :=
    Nat.le_trans (height_le e) (Nat.add_le_add_right hnesting _)
  refine ⟨hnesting, hheight, fun value hvalue => ?_⟩
  rwa [applications_of_toJson? hvalue, Nat.add_zero] at hheight

theorem height_of_parse_emptyArrays :
    parse "[[]]" = .ok (.array [.array []]) ∧
      (Expr.array [.array []]).nesting ≤ maxDepth ∧
      (Expr.array [.array []]).height ≤ maxDepth := by
  have hinner : Written 255 (.array []) ['[', ']'] := .term (.array (.nil .nil))
  have hparse : parse "[[]]" = .ok (.array [.array []]) :=
    parse_of_written (written_arrays hinner 1)
  obtain ⟨hnesting, -, hliteral⟩ := height_of_parse hparse
  exact ⟨hparse, hnesting, hliteral (.array [.array []]) rfl⟩

/-- A name that is called, and so is the result three hundred times, is read as
a tree that is higher than the number of levels. -/
theorem height_of_calls :
    ∃ e, parse (String.ofList ('f' :: calls 300)) = .ok e ∧ e.height = 300 ∧
      maxDepth < e.height := by
  have hheight : (called (.ident "f") 300).height = 300 :=
    depth_called 1 1 (.ident "f") 300 (by decide)
  refine ⟨_, parse_calls 300, hheight, ?_⟩
  rw [hheight]
  decide

/-- Trees of any height are read: the bound is reached for every number of
applications. -/
theorem exists_parse_height (n : Nat) :
    ∃ source e, parse source = .ok e ∧ e.applications = n ∧
      e.height = maxDepth + n := by
  have hhead : WritesTerm (Written 0) (.array []) ['[', ']'] :=
    .array (.nil .nil)
  have hcalled : Written 1 (called (.array []) n) (['[', ']'] ++ calls n) :=
    .term (writesTerm_called hhead n)
  refine ⟨_, _, parse_of_written (written_arrays hcalled 255), ?_, ?_⟩
  · rw [applications, depth_arrays, depth_called, depth, listDepth]
    · omega
    · rw [depth]
      omega
  · rw [height, depth_arrays, depth_called, depth, listDepth, maxDepth]
    · omega
    · omega

end SqlWorkflow.Expr
