import SqlWorkflow.Proofs.Lexical.Boundary

/-!
# Balanced stretches

The search for the brace that closes a block passes over a stretch of text in
which every brace is matched, however deep it stands. A reader that only ever
passes over balanced stretches stops where the search does.
-/

namespace SqlWorkflow.Lexical

/-- What stands before `rest` in a text is balanced: the search for a closing
brace passes over it. -/
def Balanced (dialect : Dialect) (text rest : List Char) : Prop :=
  ∃ passed, passed ++ rest = text ∧ ∀ inner, closing? dialect inner text =
    (closing? dialect inner rest).map fun (inside, after) =>
      (passed ++ inside, after)

section Balanced

variable {dialect : Dialect} {text middle rest : List Char}

theorem balanced_refl (text : List Char) : Balanced dialect text text :=
  ⟨[], rfl, fun _ => Option.map_id_apply.symm⟩

theorem Balanced.trans (hleft : Balanced dialect text middle)
    (hright : Balanced dialect middle rest) : Balanced dialect text rest := by
  obtain ⟨first, rfl, hfirst⟩ := hleft
  obtain ⟨second, rfl, hsecond⟩ := hright
  refine ⟨first ++ second, List.append_assoc _ _ _, fun inner => ?_⟩
  rw [hfirst, hsecond, Option.map_map]
  congr 1
  funext ⟨inside, after⟩
  simp

/-- A lexeme that is no brace is balanced. -/
theorem balanced_of_next? {lexeme : Lexeme}
    (hnext : next? dialect text = some (lexeme, rest))
    (hdepth : ∀ inner, depthAfter inner lexeme = some inner) :
    Balanced dialect text rest :=
  ⟨lexeme.text, next?_append hnext,
    fun inner => closing?_of_next? hnext (hdepth inner)⟩

/-- A comment or quotation is balanced as a whole. -/
theorem balanced_enclosure {d : Delimiter}
    (h : dialect.opening? text = some d) :
    Balanced dialect text
      (d.enclosure (text.drop (d.opener dialect).length)).rest := by
  cases text with
  | nil => cases dialect <;> cases h
  | cons c text =>
    have hnext := next?.eq_2 dialect c text
    rw [h] at hnext
    exact balanced_of_next? hnext fun _ => rfl

/-- Between braces, what is balanced is balanced with them. -/
theorem balanced_braces {inside : List Char}
    (h : Balanced dialect inside ('}' :: rest)) :
    Balanced dialect ('{' :: inside) rest := by
  obtain ⟨passed, rfl, hpassed⟩ := h
  have hopen (tail : List Char) : next? dialect ('{' :: tail) =
      some (.code '{', tail) :=
    next?_eq_code (by cases dialect <;> rfl)
  have hclose (tail : List Char) : next? dialect ('}' :: tail) =
      some (.code '}', tail) :=
    next?_eq_code (by cases dialect <;> rfl)
  refine ⟨'{' :: (passed ++ ['}']), by simp, fun inner => ?_⟩
  rw [closing?_of_next? (hopen _) rfl, hpassed,
    closing?_of_next? (hclose rest) rfl, Option.map_map, Option.map_map]
  congr 1
  funext ⟨inside, after⟩
  simp [Lexeme.text]

/-- Where a balanced stretch ends at a brace, this brace closes the block. -/
theorem Balanced.closing? (h : Balanced dialect text ('}' :: rest)) :
    ∃ content, Lexical.closing? dialect 0 text = some (content, rest) := by
  obtain ⟨passed, -, hpassed⟩ := h
  have hclose : next? dialect ('}' :: rest) = some (.code '}', rest) :=
    next?_eq_code (by cases dialect <;> rfl)
  rw [hpassed, closing?_of_next?_of_none hclose rfl]
  exact ⟨passed ++ [], rfl⟩

end Balanced

section Script

/-- The characters that are a brace, or begin the mark of a comment or quotation
in a script. -/
def scriptMarks : List Char :=
  ['/', '\'', '"', '\x60', '{', '}']

/-- The characters of a class are no marks, if no mark is of that class. -/
theorem not_mem_scriptMarks (p : Char → Bool) (hp : scriptMarks.any p = false)
    {c : Char} (hc : p c = true) : c ∉ scriptMarks :=
  fun hmem => List.any_eq_false.1 hp c hmem hc

/-- A character that begins no mark is read as code. -/
theorem balanced_cons {c : Char} (hc : c ∉ scriptMarks) (rest : List Char) :
    Balanced .script (c :: rest) rest := by
  simp only [scriptMarks, List.mem_cons, List.not_mem_nil, or_false,
    not_or] at hc
  obtain ⟨hslash, hsingle, hdouble, hbacktick, hopen, hclose⟩ := hc
  have hopening : Dialect.script.opening? (c :: rest) = none := by
    simp [Dialect.opening?, Dialect.delimiters, Delimiter.opener,
      List.isPrefixOf, Ne.symm hslash, Ne.symm hsingle, Ne.symm hdouble,
      Ne.symm hbacktick]
  refine balanced_of_next? (next?_eq_code hopening) fun inner => ?_
  unfold depthAfter
  split
  · rename_i heq
    cases heq
    exact (hclose rfl).elim
  · rename_i heq
    cases heq
    exact (hopen rfl).elim
  · rfl

theorem balanced_append {run : List Char} (hrun : ∀ c ∈ run, c ∉ scriptMarks)
    (rest : List Char) : Balanced .script (run ++ rest) rest := by
  induction run with
  | nil => exact balanced_refl rest
  | cons c run ih =>
    rw [List.forall_mem_cons] at hrun
    exact (balanced_cons hrun.1 _).trans (ih hrun.2)

end Script

end SqlWorkflow.Lexical
