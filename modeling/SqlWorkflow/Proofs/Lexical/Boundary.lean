import SqlWorkflow.Proofs.Lexical.Reading

/-!
# What is read does not depend on what follows

A lexeme that ended is read the same way whatever the text after it, as long as
that text does not begin with a character of the marks around comments and
quotations: such a text continues no mark, so no mark straddles the boundary. A
text may therefore be read alone or in its place, and the brace that closes a
block does not depend on what follows the block. A text that leaves no comment
or quotation open may also be followed by a comment: it is enough that no
opening mark straddles the boundary.
-/

namespace SqlWorkflow.Lexical

/-- The characters of the marks around comments and quotations. -/
def markChars : List Char :=
  ['-', '/', '*', '\'', '"', '\x60', '\n']

theorem opener_subset_markChars (dialect : Dialect)
    (d : Delimiter) : d.opener dialect ⊆ markChars := by
  cases dialect <;> cases d <;> decide

theorem closer_subset_markChars (d : Delimiter) : d.closer ⊆ markChars := by
  cases d <;> decide

/-- A text that continues no mark before it. -/
def Inert (text : List Char) : Prop :=
  ∀ c ∈ text.head?, c ∉ markChars

theorem inert_nil : Inert [] := nofun

theorem inert_cons {c : Char} (hc : c ∉ markChars)
    (text : List Char) : Inert (c :: text) := by
  intro d hd
  cases hd
  exact hc

section Marks

variable {after : List Char}

/-- A mark stands at the head of a text whatever follows the text, if it does
not go on with what follows. -/
theorem isPrefixOf_append_of_not_mem {mark : List Char}
    (hafter : ∀ c ∈ after.head?, c ∉ mark) (text : List Char) :
    mark.isPrefixOf (text ++ after) = mark.isPrefixOf text := by
  induction mark generalizing text with
  | nil => simp
  | cons a mark ih =>
    cases text with
    | cons c text =>
      have hmark : ∀ c ∈ after.head?, c ∉ mark :=
        fun c hc hmem => hafter c hc (List.mem_cons_of_mem a hmem)
      rw [List.cons_append, List.isPrefixOf_cons_cons,
        List.isPrefixOf_cons_cons, ih hmark]
    | nil =>
      cases after with
      | nil => rfl
      | cons c after =>
        have hne : a ≠ c := by
          rintro rfl
          exact hafter a rfl List.mem_cons_self
        simp [List.isPrefixOf, hne]

theorem isPrefixOf_append (hafter : Inert after) {mark : List Char}
    (hmark : mark ⊆ markChars) (text : List Char) :
    mark.isPrefixOf (text ++ after) = mark.isPrefixOf text :=
  isPrefixOf_append_of_not_mem (fun c hc hmem => hafter c hc (hmark hmem)) text

theorem opening?_append (hafter : Inert after) (dialect : Dialect)
    (text : List Char) :
    dialect.opening? (text ++ after) = dialect.opening? text := by
  simp only [Dialect.opening?,
    isPrefixOf_append hafter (opener_subset_markChars dialect _)]

end Marks

theorem rest_enclosure_length_le (d : Delimiter) (text : List Char) :
    (d.enclosure text).rest.length ≤ text.length := by
  have happend := congrArg List.length (d.enclosure_append text)
  rw [List.length_append] at happend
  omega

/-- Whether a lexeme is complete, whatever follows it. A line comment reaches to
the end of the line, so it is complete only if a line feed follows. -/
def Lexeme.Complete : Lexeme → Prop
  | .code _ => True
  | .enclosed d _ closed => closed = true ∧ d ≠ .lineComment

instance (lexeme : Lexeme) : Decidable lexeme.Complete :=
  match lexeme with
  | .code _ => isTrue trivial
  | .enclosed d _ closed =>
    inferInstanceAs (Decidable (closed = true ∧ d ≠ .lineComment))

section Boundary

variable {after after' : List Char}

/-- No comment or quotation ends with the first character of an inert text. -/
theorem rest_enclosure_inert_length_lt {d : Delimiter} (hafter : Inert after)
    (hne : after ≠ []) : (d.enclosure after).rest.length < after.length := by
  cases after with
  | nil => cases hne rfl
  | cons c after =>
    have hopen : d.closer.isPrefixOf (c :: after) = false := by
      cases hcloser : d.closer with
      | nil => cases d.closer_ne_nil hcloser
      | cons a mark =>
        have ha : a ∈ markChars :=
          closer_subset_markChars d (hcloser ▸ List.mem_cons_self)
        have hac : a ≠ c := by
          rintro rfl
          exact hafter a rfl ha
        simp [List.isPrefixOf, hac]
    rw [enclosure_cons, hopen]
    have hall := rest_enclosure_length_le d after
    have htail := rest_enclosure_length_le d after.tail
    simp only [List.length_tail] at htail
    split <;> simp only [Enclosure.after, Bool.false_eq_true, if_false,
      List.length_cons] <;> omega

/-- A comment or quotation that has not ended before an inert text does not end
at its head. -/
theorem not_ended_of_rest_enclosure {d : Delimiter} {tail rest : List Char}
    (hlt : after ≠ [] → (d.enclosure tail).rest.length < after.length)
    (hnil : after = [] → tail = [])
    (hrest : (d.enclosure tail).rest = rest ++ after) :
    ¬ (rest ++ after ≠ [] ∨
      (d.enclosure tail).closed = true ∧ d ≠ .lineComment) := by
  cases after with
  | nil =>
    obtain rfl := hnil rfl
    rw [← hrest]
    rintro (hne | ⟨hclosed, hd⟩)
    · exact hne rfl
    · exact hd (beq_iff_eq.1 hclosed)
  | cons c after =>
    have hlt := hlt (List.cons_ne_nil c after)
    rw [hrest, List.length_append] at hlt
    omega

/-- What is left when a closer is taken off a text, with what follows the
text. -/
theorem drop_ownCloser_append {d : Delimiter} {text : List Char}
    (hcloses : d.closer.isPrefixOf text = true) (tail : List Char) :
    (text ++ tail).drop d.ownCloser.length =
      text.drop d.ownCloser.length ++ tail := by
  have hclosed := congrArg List.length (Delimiter.ownCloser_append_drop hcloses)
  rw [List.length_append] at hclosed
  exact List.drop_append_of_le_length (by omega)

/-- A comment or quotation that ends in a text ends there whatever follows the
text. -/
theorem enclosure_boundary {d : Delimiter} (hafter : Inert after)
    (hafter' : Inert after') {text rest : List Char}
    (hrest : (d.enclosure (text ++ after)).rest = rest ++ after)
    (hended : rest ++ after ≠ [] ∨
      (d.enclosure (text ++ after)).closed = true ∧ d ≠ .lineComment) :
    d.enclosure (text ++ after') =
      ⟨(d.enclosure (text ++ after)).inside, rest ++ after',
        (d.enclosure (text ++ after)).closed⟩ := by
  -- A backslash takes the character after it along, so the induction is on the
  -- length.
  induction hlength : text.length using Nat.strongRecOn generalizing text with
  | _ length ih =>
    subst hlength
    cases text with
    | nil =>
      exact absurd hended (not_ended_of_rest_enclosure
        (rest_enclosure_inert_length_lt hafter) id hrest)
    | cons c text =>
      have hcloser (tail : List Char) (htail : Inert tail) :
          d.closer.isPrefixOf (c :: (text ++ tail)) =
            d.closer.isPrefixOf (c :: text) :=
        isPrefixOf_append htail (closer_subset_markChars d) (c :: text)
      rw [List.cons_append, enclosure_cons, hcloser _ hafter] at hrest hended
      rw [List.cons_append, List.cons_append,
        enclosure_cons d c (text ++ after), enclosure_cons d c (text ++ after'),
        hcloser _ hafter, hcloser _ hafter']
      split at hrest
      · rename_i hhides
        rw [if_pos hhides] at hended
        rw [if_pos hhides, if_pos hhides]
        cases text with
        | nil =>
          rw [List.nil_append] at hrest hended
          refine absurd hended (not_ended_of_rest_enclosure ?_ ?_ hrest)
          · intro hne
            have hle := rest_enclosure_length_le d after.tail
            have hpos := List.length_pos_iff.2 hne
            rw [List.length_tail] at hle
            omega
          · rintro rfl
            rfl
        | cons e text =>
          have htext := ih text.length
            (by simp only [List.length_cons]; omega) hrest hended rfl
          simp only [List.cons_append, List.tail_cons, htext, Enclosure.after,
            List.take_succ_cons, List.take_zero]
      · rename_i hhides
        rw [if_neg hhides] at hended
        rw [if_neg hhides, if_neg hhides]
        split at hrest
        · rename_i hcloses
          have hdrop := drop_ownCloser_append hcloses
          simp only [List.cons_append] at hdrop
          rw [if_pos hcloses, if_pos hcloses]
          simp only [hdrop] at hrest ⊢
          rw [List.append_cancel_right hrest]
        · rename_i hopen
          rw [if_neg hopen] at hended
          rw [if_neg hopen, if_neg hopen,
            ih text.length (by simp) hrest hended rfl]
          rfl

/-- A lexeme of a text is read in the same way whatever follows the text. -/
theorem next?_boundary {dialect : Dialect} (hafter : Inert after)
    (hafter' : Inert after') {text rest : List Char} {lexeme : Lexeme}
    (h : next? dialect (text ++ after) = some (lexeme, rest ++ after))
    (hcomplete : rest ++ after ≠ [] ∨ lexeme.Complete) :
    next? dialect (text ++ after') = some (lexeme, rest ++ after') := by
  cases text with
  | nil =>
    have hlt := next?_length_lt h
    rw [List.nil_append, List.length_append] at hlt
    omega
  | cons c text =>
    have hopening := opening?_append hafter dialect (c :: text)
    have hopening' := opening?_append hafter' dialect (c :: text)
    rw [List.cons_append] at h hopening hopening' ⊢
    simp only [next?, hopening, hopening'] at h ⊢
    cases hd : dialect.opening? (c :: text) with
    | none =>
      simp only [hd, Option.some.injEq, Prod.mk.injEq] at h
      obtain ⟨rfl, hrest⟩ := h
      rw [List.append_cancel_right hrest]
    | some d =>
      simp only [hd, Option.some.injEq, Prod.mk.injEq] at h
      obtain ⟨rfl, hrest⟩ := h
      have hlength : (d.opener dialect).length ≤ (c :: text).length :=
        (Dialect.opener_prefix_of_opening? hd).length_le
      have hdrop (tail : List Char) :
          (c :: (text ++ tail)).drop (d.opener dialect).length =
            (c :: text).drop (d.opener dialect).length ++ tail :=
        List.drop_append_of_le_length hlength
      simp only [hdrop] at hrest hcomplete ⊢
      rw [enclosure_boundary hafter hafter' hrest hcomplete]

/-- A stretch of a text is read in the same way whatever follows the stretch. -/
theorem Reads.boundary {dialect : Dialect} (hafter : Inert after)
    (hafter' : Inert after') {lexemes : List Lexeme}
    (h : Reads dialect (sourceOf lexemes ++ after) lexemes after)
    (hcomplete : after ≠ [] ∨ ∀ lexeme ∈ lexemes.getLast?, lexeme.Complete) :
    Reads dialect (sourceOf lexemes ++ after') lexemes after' := by
  induction lexemes with
  | nil => exact .stop after'
  | cons lexeme lexemes ih =>
    cases h with
    | @read _ rest _ _ _ head tail =>
      obtain rfl := tail.sourceOf_append
      refine .read (next?_boundary hafter hafter' head ?_) (ih tail ?_)
      · cases tail with
        | stop => exact hcomplete.imp_right fun hlast => hlast lexeme rfl
        | read next =>
          left
          simp [text_ne_nil_of_next? next]
      · cases lexemes with
        | nil => exact hcomplete.imp_right fun _ => nofun
        | cons next lexemes => exact hcomplete.imp_right fun hlast => hlast

theorem inert_brace (text : List Char) : Inert ('}' :: text) :=
  inert_cons (by decide) text

/-- Where a block is closed does not depend on what follows it. -/
theorem closing?_boundary {dialect : Dialect} {inner : Nat}
    {content : List Char}
    (h : closing? dialect inner (content ++ '}' :: after) =
      some (content, after)) (after' : List Char) :
    closing? dialect inner (content ++ '}' :: after') =
      some (content, after') := by
  generalize htext : content ++ '}' :: after = text at h
  fun_induction closing? dialect inner text generalizing content with
  | case1 => cases h
  | case2 inner text lexeme rest hnext hdepth =>
    cases h
    obtain rfl := eq_of_depthAfter_eq_none hdepth
    have hbrace : dialect.opening? ('}' :: after') = none := by
      cases dialect <;> rfl
    exact closing?_of_next?_of_none (next?_eq_code hbrace) hdepth
  | case3 inner text lexeme rest hnext depth hdepth ih =>
    obtain ⟨⟨inside, last⟩, hclosing, heq⟩ := Option.map_eq_some_iff.1 h
    cases heq
    obtain rfl := closing?_append hclosing
    subst htext
    have hnext' := next?_boundary (inert_brace after)
      (inert_brace after') hnext (.inl (by simp))
    rw [closing?_of_next? hnext' hdepth, ih rfl hclosing]
    rfl

end Boundary

/-! ## Lexemes that end

A lexeme that ended in a text is read in the same way whatever follows the text,
even if that begins with characters of marks: what counts is that no opening
mark goes on from the one text into the other. -/

section Ends

/-- A mark that is not longer than a text stands at its head whatever follows
the text. -/
theorem isPrefixOf_append_of_length_le {mark text : List Char}
    (h : mark.length ≤ text.length) (after : List Char) :
    mark.isPrefixOf (text ++ after) = mark.isPrefixOf text := by
  rw [Bool.eq_iff_iff, List.isPrefixOf_iff_prefix, List.isPrefixOf_iff_prefix]
  constructor
  · intro hlong
    exact List.prefix_of_prefix_length_le hlong
      (List.prefix_append text after) h
  · intro hmark
    exact hmark.trans (List.prefix_append text after)

/-- A comment or quotation ends in a text: something is left of the text after
it, or it reached its closer. A line comment that takes all of a text may go
on. -/
def Delimiter.Ends (d : Delimiter) (text : List Char) : Prop :=
  (d.enclosure text).rest ≠ [] ∨
    (d.enclosure text).closed = true ∧ d ≠ .lineComment

theorem not_ends_nil (d : Delimiter) : ¬ d.Ends [] := by
  rintro (hrest | ⟨hclosed, hd⟩)
  · exact hrest rfl
  · exact hd (beq_iff_eq.1 hclosed)

/-- No comment or quotation ends in a text that is shorter than its closer. -/
theorem Delimiter.Ends.closer_length_le {d : Delimiter} {text : List Char}
    (h : d.Ends text) : d.closer.length ≤ text.length := by
  -- A backslash takes the character after it along, so the induction is on the
  -- length.
  induction hlength : text.length using Nat.strongRecOn generalizing text with
  | _ length ih =>
    subst hlength
    cases text with
    | nil => exact absurd h (not_ends_nil d)
    | cons c text =>
      rw [Delimiter.Ends, enclosure_cons] at h
      split at h
      · have htail := ih text.tail.length
          (by simp only [List.length_tail, List.length_cons]; omega) h rfl
        simp only [List.length_tail, List.length_cons] at htail ⊢
        omega
      split at h
      · rename_i hcloses
        exact (List.isPrefixOf_iff_prefix.1 hcloses).length_le
      · have htail := ih text.length (by simp) h rfl
        rw [List.length_cons]
        omega

/-- A comment or quotation that ends in a text ends there whatever follows the
text. -/
theorem Delimiter.Ends.enclosure_append {d : Delimiter} {text : List Char}
    (h : d.Ends text) (after : List Char) : d.enclosure (text ++ after) =
      ⟨(d.enclosure text).inside, (d.enclosure text).rest ++ after,
        (d.enclosure text).closed⟩ := by
  induction hlength : text.length using Nat.strongRecOn generalizing text with
  | _ length ih =>
    subst hlength
    have hlong := isPrefixOf_append_of_length_le h.closer_length_le after
    cases text with
    | nil => exact absurd h (not_ends_nil d)
    | cons c text =>
      rw [List.cons_append] at hlong
      rw [Delimiter.Ends, enclosure_cons] at h
      rw [List.cons_append, enclosure_cons, enclosure_cons d c text, hlong]
      split at h
      · rename_i hhides
        rw [if_pos hhides, if_pos hhides]
        cases text with
        | nil => exact absurd h (not_ends_nil d)
        | cons e text =>
          rw [List.tail_cons] at h
          have htext :=
            ih text.length (by simp only [List.length_cons]; omega) h rfl
          simp only [List.cons_append, List.tail_cons, htext, Enclosure.after,
            List.take_succ_cons, List.take_zero]
      · rename_i hhides
        rw [if_neg hhides, if_neg hhides]
        split at h
        · rename_i hcloses
          rw [if_pos hcloses, if_pos hcloses, ← List.cons_append,
            drop_ownCloser_append hcloses]
        · rename_i hopen
          rw [if_neg hopen, if_neg hopen, ih text.length (by simp) h rfl]
          rfl

/-- No opening mark of SQL goes on from one text into another: the second begins
neither with an asterisk nor with a quotation mark, and with a dash only if the
first does not end with one. -/
def Apart (before after : List Char) : Prop :=
  ∀ c ∈ after.head?, c ∉ ['*', '\'', '"'] ∧
    (c = '-' → before.getLast? ≠ some '-')

theorem tail_opener_subset {d : Delimiter} (h : d ≠ .lineComment) :
    (d.opener .sql).tail ⊆ ['*', '\'', '"'] := by
  cases d with
  | lineComment => exact absurd rfl h
  | blockComment | single | double | tripleSingle | tripleDouble | backtick =>
    decide

theorem Apart.isPrefixOf_opener {c : Char} {text after : List Char}
    (h : Apart (c :: text) after) (d : Delimiter) :
    (d.opener .sql).isPrefixOf (c :: (text ++ after)) =
      (d.opener .sql).isPrefixOf (c :: text) := by
  by_cases hline : d = .lineComment
  · subst hline
    rw [Delimiter.opener, List.isPrefixOf_cons_cons, List.isPrefixOf_cons_cons]
    cases text with
    | cons e text => simp [List.isPrefixOf]
    | nil =>
      cases after with
      | nil => rfl
      | cons e after =>
        have hdashes : '-' = c → '-' ≠ e := by
          rintro rfl rfl
          exact (h '-' rfl).2 rfl rfl
        simpa [List.isPrefixOf] using hdashes
  · have hsubset := tail_opener_subset hline
    cases hmark : d.opener .sql with
    | nil => rfl
    | cons a mark =>
      rw [hmark, List.tail_cons] at hsubset
      rw [List.isPrefixOf_cons_cons, List.isPrefixOf_cons_cons,
        isPrefixOf_append_of_not_mem fun e he hmem => (h e he).1 (hsubset hmem)]

theorem Apart.opening?_eq {c : Char} {text after : List Char}
    (h : Apart (c :: text) after) :
    Dialect.sql.opening? (c :: (text ++ after)) =
      Dialect.sql.opening? (c :: text) := by
  simp only [Dialect.opening?, h.isPrefixOf_opener]

/-- The lexeme at the head of a text is the same whatever follows the text, if
it ends in the text. -/
theorem Apart.next?_eq {text rest after : List Char} {lexeme : Lexeme}
    (h : Apart text after) (hnext : next? .sql text = some (lexeme, rest))
    (hends : rest ≠ [] ∨ lexeme.Complete) :
    next? .sql (text ++ after) = some (lexeme, rest ++ after) := by
  cases text with
  | nil => cases hnext
  | cons c text =>
    rw [List.cons_append]
    simp only [next?, h.opening?_eq] at hnext ⊢
    cases hd : Dialect.sql.opening? (c :: text) with
    | none =>
      simp only [hd, Option.some.injEq, Prod.mk.injEq] at hnext
      obtain ⟨rfl, rfl⟩ := hnext
      rfl
    | some d =>
      simp only [hd, Option.some.injEq, Prod.mk.injEq] at hnext
      obtain ⟨rfl, rfl⟩ := hnext
      have hlength : (d.opener .sql).length ≤ (c :: text).length :=
        (Dialect.opener_prefix_of_opening? hd).length_le
      have hends : d.Ends ((c :: text).drop (d.opener .sql).length) := hends
      simp only [← List.cons_append, List.drop_append_of_le_length hlength,
        hends.enclosure_append]

/-- What is read of two texts that are put together is what is read of each, if
the first leaves no comment or quotation open. -/
theorem Apart.lexemes_append {text after : List Char} (h : Apart text after)
    (hlast : ∀ lexeme ∈ (lexemes .sql text).getLast?, lexeme.Complete) :
    lexemes .sql (text ++ after) = lexemes .sql text ++ lexemes .sql after := by
  fun_induction lexemes .sql text with
  | case1 text hnone =>
    obtain rfl := next?_eq_none_iff.1 hnone
    rfl
  | case2 text lexeme rest hnext ih =>
    have hends : rest ≠ [] ∨ lexeme.Complete := by
      by_cases hrest : rest = []
      · right
        subst hrest
        apply hlast
        rw [lexemes]
        rfl
      · exact .inl hrest
    have hapart : Apart rest after := by
      intro c hc
      refine ⟨(h c hc).1, fun hdash hrest => (h c hc).2 hdash ?_⟩
      rw [← next?_append hnext, List.getLast?_append, hrest]
      rfl
    have htail : ∀ last ∈ (lexemes .sql rest).getLast?, last.Complete := by
      intro last hmem
      apply hlast
      rw [List.getLast?_cons, hmem]
      rfl
    rw [lexemes_of_next? (h.next?_eq hnext hends), ih hapart htail,
      List.cons_append]

end Ends

/-! ## Line feeds

A line feed ends a line comment, and is in no other mark. What stands before it
is read as if it stood alone, unless a quotation or a block comment is still
open there. -/

section LineFeed

/-- Whether a comment or quotation was read to its end. -/
def Lexeme.Terminated : Lexeme → Prop
  | .code _ => True
  | .enclosed _ _ closed => closed = true

instance (lexeme : Lexeme) : Decidable lexeme.Terminated :=
  match lexeme with
  | .code _ => isTrue trivial
  | .enclosed _ _ closed => inferInstanceAs (Decidable (closed = true))

theorem opening?_lineFeed (dialect : Dialect) (text after : List Char) :
    dialect.opening? (text ++ '\n' :: after) = dialect.opening? text := by
  have hopener (d : Delimiter) : ∀ c ∈ ('\n' :: after).head?, c ∉
      d.opener dialect := by
    rintro c ⟨⟩
    cases dialect <;> cases d <;> decide
  simp only [Dialect.opening?, isPrefixOf_append_of_not_mem (hopener _)]

/-- A line comment reaches to the end of the line. -/
theorem enclosure_lineComment {inside after : List Char}
    (hinside : '\n' ∉ inside) (hafter : ∀ c ∈ after.head?, c = '\n') :
    Delimiter.lineComment.enclosure (inside ++ after) =
      ⟨inside, after, true⟩ := by
  induction inside with
  | nil =>
    cases after with
    | nil => rfl
    | cons c after =>
      obtain rfl := hafter c rfl
      rw [List.nil_append, enclosure_cons]
      rfl
  | cons c inside ih =>
    rw [List.mem_cons, not_or] at hinside
    obtain ⟨hc, hinside⟩ := hinside
    have hopen : Delimiter.lineComment.closer.isPrefixOf
        (c :: (inside ++ after)) = false := by
      simpa [Delimiter.closer, List.isPrefixOf] using hc
    rw [List.cons_append, enclosure_cons, hopen, ih hinside]
    rfl

theorem lineFeed_not_mem_inside (text : List Char) :
    '\n' ∉ (Delimiter.lineComment.enclosure text).inside := by
  induction text with
  | nil => exact List.not_mem_nil
  | cons c text ih =>
    have hhides : ¬ (!Delimiter.lineComment.isComment && c == '\\') = true :=
      Bool.false_ne_true
    rw [enclosure_cons, if_neg hhides]
    split
    · exact List.not_mem_nil
    · rename_i hopen
      rintro (_ | ⟨_, hmem⟩)
      · exact hopen rfl
      · exact ih hmem

theorem head?_rest_lineComment (text : List Char) :
    ∀ c ∈ (Delimiter.lineComment.enclosure text).rest.head?, c = '\n' := by
  induction text with
  | nil => exact nofun
  | cons c text ih =>
    have hhides : ¬ (!Delimiter.lineComment.isComment && c == '\\') = true :=
      Bool.false_ne_true
    rw [enclosure_cons, if_neg hhides]
    split
    · rename_i hcloses
      obtain ⟨tail, htail⟩ := List.isPrefixOf_iff_prefix.1 hcloses
      rintro d ⟨⟩
      exact (List.cons.inj htail).1.symm
    · exact ih

/-- What was read to its end in a text ends there before a new line too. -/
theorem enclosure_lineFeed {d : Delimiter} {text : List Char}
    (hclosed : (d.enclosure text).closed = true) (after : List Char) :
    d.enclosure (text ++ '\n' :: after) =
      ⟨(d.enclosure text).inside, (d.enclosure text).rest ++ '\n' :: after,
        true⟩ := by
  by_cases hends : d.Ends text
  · rw [hends.enclosure_append, hclosed]
  · -- A line comment that takes all of the text is the only one that does not
    -- end in it.
    rw [Delimiter.Ends, not_or, not_and, Decidable.not_not,
      Decidable.not_not] at hends
    obtain ⟨hrest, hline⟩ := hends
    obtain rfl := hline hclosed
    have hinside := Delimiter.lineComment.enclosure_append text
    have hfeed := lineFeed_not_mem_inside text
    rw [hrest, List.append_nil] at hinside
    rw [hinside] at hfeed
    rw [enclosure_lineComment hfeed (by simp), hinside, hrest, List.nil_append]

/-- A comment or quotation that is never ended takes all of the text. -/
theorem rest_enclosure_of_not_closed {d : Delimiter} {text : List Char}
    (h : (d.enclosure text).closed = false) : (d.enclosure text).rest = [] := by
  fun_induction Delimiter.enclosure d text with
  | case1 => rfl
  | case2 => cases h
  | case3 => rfl
  | case4 c e rest _ ih => exact ih h
  | case5 => cases h
  | case6 c e rest _ _ ih => exact ih h

theorem terminated_of_next? {dialect : Dialect} {text rest : List Char}
    {lexeme : Lexeme} (h : next? dialect text = some (lexeme, rest))
    (hrest : rest ≠ []) : lexeme.Terminated := by
  cases text with
  | nil => cases h
  | cons c text =>
    simp only [next?] at h
    split at h
    · cases h
      trivial
    · cases h
      apply Bool.of_not_eq_false
      intro hopen
      exact hrest (rest_enclosure_of_not_closed hopen)

/-- A lexeme with another character than a line feed after it is complete. -/
theorem complete_of_next? {dialect : Dialect} {text rest : List Char}
    {lexeme : Lexeme} {c : Char}
    (h : next? dialect text = some (lexeme, c :: rest))
    (hc : c ≠ '\n') : lexeme.Complete := by
  have hterminated := terminated_of_next? h (List.cons_ne_nil c rest)
  cases text with
  | nil => cases h
  | cons e text =>
    simp only [next?] at h
    split at h
    · cases h
      trivial
    · rename_i d hd
      simp only [Option.some.injEq, Prod.mk.injEq] at h
      obtain ⟨rfl, hrest⟩ := h
      refine ⟨hterminated, ?_⟩
      rintro rfl
      have hline := head?_rest_lineComment
        ((e :: text).drop (Delimiter.lineComment.opener dialect).length)
      rw [hrest] at hline
      exact hc (hline c rfl)

theorem next?_lineFeed {dialect : Dialect} {text rest : List Char}
    {lexeme : Lexeme} (h : next? dialect text = some (lexeme, rest))
    (hterminated : lexeme.Terminated) (after : List Char) :
    next? dialect (text ++ '\n' :: after) =
      some (lexeme, rest ++ '\n' :: after) := by
  cases text with
  | nil => cases h
  | cons c text =>
    have hopening := opening?_lineFeed dialect (c :: text) after
    rw [List.cons_append] at hopening ⊢
    simp only [next?, hopening] at h ⊢
    cases hd : dialect.opening? (c :: text) with
    | none =>
      simp only [hd, Option.some.injEq, Prod.mk.injEq] at h
      obtain ⟨rfl, rfl⟩ := h
      rfl
    | some d =>
      simp only [hd, Option.some.injEq, Prod.mk.injEq] at h
      obtain ⟨rfl, rfl⟩ := h
      have hclosed :
          (d.enclosure ((c :: text).drop (d.opener dialect).length)).closed =
            true := hterminated
      have hlength : (d.opener dialect).length ≤ (c :: text).length :=
        (Dialect.opener_prefix_of_opening? hd).length_le
      simp only [← List.cons_append, List.drop_append_of_le_length hlength,
        enclosure_lineFeed hclosed, hclosed]

theorem next?_lineFeed_cons (dialect : Dialect) (after : List Char) :
    next? dialect ('\n' :: after) = some (.code '\n', after) :=
  next?_eq_code (by cases dialect <;> rfl)

/-- Before a new line a text is read as if it stood alone, if it leaves no
quotation or block comment open. -/
theorem lexemes_lineFeed {dialect : Dialect} {text : List Char}
    (hterminated : ∀ lexeme ∈ (lexemes dialect text).getLast?,
      lexeme.Terminated) (after : List Char) :
    lexemes dialect (text ++ '\n' :: after) =
      lexemes dialect text ++ .code '\n' :: lexemes dialect after := by
  fun_induction lexemes dialect text with
  | case1 text h =>
    obtain rfl := next?_eq_none_iff.1 h
    exact lexemes_of_next? (next?_lineFeed_cons dialect after)
  | case2 text lexeme rest h ih =>
    have hlast : lexeme.Terminated := by
      by_cases hrest : rest = []
      · subst hrest
        apply hterminated
        rw [lexemes]
        rfl
      · exact terminated_of_next? h hrest
    have htail : ∀ last ∈ (lexemes dialect rest).getLast?, last.Terminated := by
      intro last hlast
      apply hterminated
      rw [List.getLast?_cons, hlast]
      rfl
    rw [lexemes_of_next? (next?_lineFeed h hlast after), ih htail,
      List.cons_append]

end LineFeed

end SqlWorkflow.Lexical
