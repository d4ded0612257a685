/-!
# Blank characters

Two notions of blank are used by the compiler. Trimming a statement or a
document removes every character of the Unicode property `White_Space`; between
the tokens of a block or an expression only the five ASCII blanks are skipped.
Both are tests on one character, and trimming is stated on lists of characters
so that its laws are those of `List.dropWhile`.
-/

namespace SqlWorkflow.Text

/-- The Unicode property `White_Space`: twenty-five characters. -/
def isBlank (c : Char) : Bool :=
  (0x09 ≤ c.val && c.val ≤ 0x0D) || c.val == 0x20 || c.val == 0x85 || c.val ==
    0xA0 || c.val == 0x1680 || (0x2000 ≤ c.val && c.val ≤ 0x200A) || c.val ==
    0x2028 || c.val == 0x2029 || c.val == 0x202F || c.val ==
    0x205F || c.val == 0x3000

/-- Space, tab, line feed, form feed and carriage return. -/
def isAsciiBlank (c : Char) : Bool :=
  c == ' ' || c == '\t' || c == '\n' || c == '\x0c' || c == '\r'

theorem isBlank_of_isAsciiBlank {c : Char}
    (h : isAsciiBlank c = true) : isBlank c = true := by
  simp only [isAsciiBlank, Bool.or_eq_true, beq_iff_eq] at h
  rcases h with (((rfl | rfl) | rfl) | rfl) | rfl <;> decide

/-- Whether no character of the text is visible. -/
def allBlank (cs : List Char) : Bool :=
  cs.all isBlank

/-- The text without the blanks it begins with. -/
def trimStart (cs : List Char) : List Char :=
  cs.dropWhile isBlank

/-- The text without the blanks it ends with. -/
def trimEnd (cs : List Char) : List Char :=
  (cs.reverse.dropWhile isBlank).reverse

/-- The text without the blanks around it. -/
def trimChars (cs : List Char) : List Char :=
  trimEnd (trimStart cs)

/-- A string without the blanks around it. -/
def trim (s : String) : String :=
  String.ofList (trimChars s.toList)

/-- Whether a string holds nothing but blanks. -/
def isBlankText (s : String) : Bool :=
  allBlank s.toList

@[simp] theorem trimStart_nil : trimStart [] = [] := rfl

@[simp] theorem trimEnd_nil : trimEnd [] = [] := rfl

/-- What trimming the end removes is a run of blanks. -/
theorem exists_append_of_trimEnd (cs : List Char) :
    ∃ tail, allBlank tail = true ∧ cs = trimEnd cs ++ tail := by
  refine ⟨(cs.reverse.takeWhile isBlank).reverse, ?_, ?_⟩
  · simp only [allBlank, List.all_reverse]
    exact List.all_takeWhile
  · rw [trimEnd, ← List.reverse_append, List.takeWhile_append_dropWhile,
      List.reverse_reverse]

end SqlWorkflow.Text
