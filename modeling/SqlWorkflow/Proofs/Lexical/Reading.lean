import SqlWorkflow.Lexical.Brace

/-!
# Reading a stretch of text

The lexemes of a text are read one after another, and the reading may stop
anywhere between two of them. `Reads` relates the text before the stop, the
lexemes that were read, and the rest that was not; it says what lies on the way
of a reader that leaves the text in the middle, as the reader of keyword blocks
does.
-/

namespace SqlWorkflow.Lexical

/-- Reading lexemes from the head of a text, up to a rest that is left
unread. -/
inductive Reads (dialect : Dialect) : List Char → List Lexeme → List Char → Prop
  | stop (text : List Char) : Reads dialect text [] text
  | read {text rest last : List Char} {lexeme : Lexeme} {lexemes : List Lexeme}
      (head : next? dialect text = some (lexeme, rest))
      (tail : Reads dialect rest lexemes last) :
      Reads dialect text (lexeme :: lexemes) last

def sourceOf (lexemes : List Lexeme) : List Char :=
  lexemes.flatMap Lexeme.text

@[simp] theorem sourceOf_nil : sourceOf [] = [] := rfl

@[simp] theorem sourceOf_cons (lexeme : Lexeme) (lexemes : List Lexeme) :
    sourceOf (lexeme :: lexemes) = lexeme.text ++ sourceOf lexemes := rfl

theorem Reads.sourceOf_append {dialect : Dialect} {text last : List Char}
    {lexemes : List Lexeme} (h : Reads dialect text lexemes last) :
    sourceOf lexemes ++ last = text := by
  induction h with
  | stop text => rfl
  | read head tail ih =>
    rw [sourceOf_cons, List.append_assoc, ih]
    exact next?_append head

/-- Nothing is read from the empty text only. -/
theorem next?_eq_none_iff {dialect : Dialect} {text : List Char} :
    next? dialect text = none ↔ text = [] := by
  constructor
  · intro h
    cases text with
    | nil => rfl
    | cons c cs => simp only [next?] at h; split at h <;> cases h
  · rintro rfl
    rfl

/-- A text whose head opens neither a comment nor a quotation begins with a
character of code. -/
theorem next?_eq_code {dialect : Dialect} {c : Char} {cs : List Char}
    (h : dialect.opening? (c :: cs) = none) :
    next? dialect (c :: cs) = some (.code c, cs) := by
  simp only [next?, h]

/-! ## One lexeme at a time -/

/-- A comment or quotation, character by character: in a quotation a backslash
hides the character after it. -/
theorem enclosure_cons (d : Delimiter) (c : Char) (text : List Char) :
    d.enclosure (c :: text) = if !d.isComment && c == '\\' then
      (d.enclosure text.tail).after (c :: text.take 1)
      else if d.closer.isPrefixOf (c :: text) then
        ⟨d.ownCloser, (c :: text).drop d.ownCloser.length, true⟩
      else (d.enclosure text).after [c] := by
  cases text with
  | nil =>
    rw [List.tail_nil, Delimiter.enclosure.eq_2, Delimiter.enclosure.eq_1]
    by_cases hhides : (!d.isComment && c == '\\') = true
    · have hopen : d.closer.isPrefixOf [c] = false := by
        obtain ⟨-, hc⟩ := Bool.and_eq_true_iff.1 hhides
        rw [beq_iff_eq.1 hc]
        cases d <;> rfl
      rw [if_pos hhides, hopen]
      rfl
    · rw [if_neg hhides]
      rfl
  | cons e text => rw [Delimiter.enclosure]; rfl

theorem lexemes_nil (dialect : Dialect) : lexemes dialect [] = [] := by
  rw [lexemes]
  rfl

theorem lexemes_of_next? {dialect : Dialect} {text rest : List Char}
    {lexeme : Lexeme} (h : next? dialect text = some (lexeme, rest)) :
    lexemes dialect text = lexeme :: lexemes dialect rest := by
  rw [lexemes]
  split
  · rename_i hnone
    cases h.symm.trans hnone
  · rename_i hsome
    cases h.symm.trans hsome
    rfl

theorem reads_lexemes (dialect : Dialect) (text : List Char) :
    Reads dialect text (lexemes dialect text) [] := by
  fun_induction lexemes dialect text with
  | case1 text h =>
    rw [next?_eq_none_iff.1 h]
    exact .stop []
  | case2 text lexeme rest h ih => exact .read h ih

/-- Reading may be interrupted between any two lexemes. -/
theorem Reads.exists_of_append {dialect : Dialect} {text last : List Char}
    {first second : List Lexeme}
    (h : Reads dialect text (first ++ second) last) :
    ∃ middle, Reads dialect text first middle ∧
      Reads dialect middle second last := by
  induction first generalizing text with
  | nil => exact ⟨text, .stop text, h⟩
  | cons lexeme first ih =>
    cases h with
    | read head tail =>
      obtain ⟨middle, hfirst, hsecond⟩ := ih tail
      exact ⟨middle, .read head hfirst, hsecond⟩

/-- The lexemes of a text are those that are read up to its end. -/
theorem Reads.lexemes_eq {dialect : Dialect} {text : List Char}
    {read : List Lexeme}
    (h : Reads dialect text read []) : lexemes dialect text = read := by
  generalize hlast : ([] : List Char) = last at h
  induction h with
  | stop text =>
    subst hlast
    exact lexemes_nil dialect
  | read head tail ih => rw [lexemes_of_next? head, ih hlast]

/-- A lexeme that closes the block ends the search. -/
theorem closing?_of_next?_of_none {dialect : Dialect} {inner : Nat}
    {text rest : List Char} {lexeme : Lexeme}
    (hnext : next? dialect text = some (lexeme, rest))
    (hdepth : depthAfter inner lexeme = none) :
    closing? dialect inner text = some ([], rest) := by
  rw [closing?]
  split
  · rename_i hnone
    cases hnext.symm.trans hnone
  · rename_i hsome
    cases hnext.symm.trans hsome
    rw [hdepth]

theorem closing?_of_next? {dialect : Dialect} {inner depth : Nat}
    {text rest : List Char} {lexeme : Lexeme}
    (hnext : next? dialect text = some (lexeme, rest))
    (hdepth : depthAfter inner lexeme = some depth) :
    closing? dialect inner text =
      (closing? dialect depth rest).map fun (inside, after) =>
        (lexeme.text ++ inside, after) := by
  rw [closing?]
  split
  · rename_i hnone
    cases hnext.symm.trans hnone
  · rename_i hsome
    cases hnext.symm.trans hsome
    rw [hdepth]

/-! ## Offsets -/

/-- A closing brace that was found stands at the offset which is reported for
it. -/
theorem closingOffset?_of_closing? {dialect : Dialect} (before : List Char)
    {inside after : List Char}
    (h : closing? dialect 0 (inside ++ '}' :: after) = some (inside, after)) :
    closingOffset? dialect (before ++ (inside ++ '}' :: after))
      (Text.byteCount before) =
      some (Text.byteCount (before ++ inside)) := by
  rw [closingOffset?, Text.dropBytes_byteCount_append, h, Text.byteCount_append]
  rfl

theorem closingOffset?_of_closing?_eq_none {dialect : Dialect}
    (before : List Char) {inside : List Char}
    (h : closing? dialect 0 inside = none) :
    closingOffset? dialect (before ++ inside) (Text.byteCount before) =
      none := by
  rw [closingOffset?, Text.dropBytes_byteCount_append, h]
  rfl

end SqlWorkflow.Lexical
