import Mathlib.Data.List.Induction
import SqlWorkflow.Proofs.Lexical.Reading
import SqlWorkflow.Proofs.Template.Literal
import SqlWorkflow.Sqlx.Statement

/-!
# Semicolons at the end of SQL

Whether SQL ends with a semicolon is asked of a template as it was written. What
is compiled is what the template is rendered to, with the blanks around it
trimmed off. The two answers agree where the last stretch of the template, which
is copied, settles the end of both. For this the texts are read side by side:
the copy has lost the backslashes before escaped openings of placeholders and
the blanks at its end, and neither is ever part of a mark that opens or closes a
comment or quotation.
-/

namespace SqlWorkflow.Sqlx

open Lexical

/-- Whether a semicolon was said last, after one more lexeme. -/
def saysSemicolon (said : Bool) : Lexeme → Bool
  | .code c => if Text.isAsciiBlank c then said else c == ';'
  | .enclosed d _ _ => if d.isComment then said else false

/-- The last significant lexeme tells what was said last, if there is one. -/
theorem foldl_saysSemicolon (said : Bool) (lexemes : List Lexeme) :
    lexemes.foldl saysSemicolon said =
      ((lastSignificant lexemes).map (· == .code ';')).getD said := by
  induction lexemes using List.reverseRecOn with
  | nil => rfl
  | append_singleton lexemes lexeme ih =>
    rw [List.foldl_append, ih, lastSignificant, lastSignificant,
      List.filter_append]
    cases lexeme with
    | code c =>
      by_cases hblank : Text.isAsciiBlank c = true
      · simp [saysSemicolon, hblank]
      · simp [saysSemicolon, hblank]
    | enclosed d text closed =>
      cases hcomment : d.isComment with
      | true => simp [saysSemicolon, hcomment]
      | false => simp [saysSemicolon, hcomment]

/-- Whether SQL ends with a semicolon is found in one pass from the left. -/
theorem hasTrailingSemicolon_eq_foldl (sql : String) :
    hasTrailingSemicolon sql =
      (lexemes .sql sql.toList).foldl saysSemicolon false := by
  rw [foldl_saysSemicolon, hasTrailingSemicolon]
  cases lastSignificant (lexemes .sql sql.toList) with
  | none => rfl
  | some lexeme => rfl

/-- A text without ASCII blanks at its end, and without the backslashes before
escaped openings of placeholders. -/
inductive Reduced : List Char → List Char → Prop
  | blank {text : List Char}
      (h : ∀ c ∈ text, Text.isAsciiBlank c = true) : Reduced text []
  | escaped {text reduced : List Char} (h : Reduced text reduced) :
      Reduced ('\\' :: '$' :: '{' :: text) ('$' :: '{' :: reduced)
  | char (c : Char) {text reduced : List Char} (h : Reduced text reduced) :
      Reduced (c :: text) (c :: reduced)

/-- Whether a character stands in the marks around comments and quotations, the
line feed apart. -/
def isMarkChar (c : Char) : Bool :=
  c == '-' || c == '/' || c == '*' || c == '\'' || c == '"' || c == '\x60'

theorem all_isMarkChar_opener (d : Delimiter) :
    (d.opener .sql).all isMarkChar = true := by
  cases d <;> rfl

theorem all_isMarkChar_closer {d : Delimiter} (h : d ≠ .lineComment) :
    d.closer.all isMarkChar = true := by
  cases d with
  | lineComment => cases h rfl
  | blockComment | single | double | tripleSingle | tripleDouble | backtick =>
    rfl

theorem ne_of_isMarkChar {a : Char} (h : isMarkChar a = true) :
    a ≠ '\\' ∧ a ≠ '$' ∧ Text.isBlank a = false := by
  simp only [isMarkChar, Bool.or_eq_true, beq_iff_eq] at h
  rcases h with ((((rfl | rfl) | rfl) | rfl) | rfl) | rfl <;> decide

theorem isPrefixOf_of_ne {a c : Char} (h : a ≠ c) (mark text : List Char) :
    (a :: mark).isPrefixOf (c :: text) = false := by
  rw [List.isPrefixOf_cons_cons, beq_false_of_ne h, Bool.false_and]

namespace Reduced

variable {text reduced : List Char}

/-- A mark stands at the head of a text if it stands at the head of the reduced
text, and it may be taken off both. -/
theorem isPrefixOf {mark : List Char} (hmark : mark.all isMarkChar = true)
    (h : Reduced text reduced) :
    mark.isPrefixOf text = mark.isPrefixOf reduced ∧
      (mark.isPrefixOf text = true →
        Reduced (text.drop mark.length) (reduced.drop mark.length)) := by
  induction mark generalizing text reduced with
  | nil => exact ⟨rfl, fun _ => h⟩
  | cons a mark ih =>
    obtain ⟨ha, hrest⟩ := Bool.and_eq_true_iff.1 hmark
    obtain ⟨hbackslash, hdollar, hvisible⟩ := ne_of_isMarkChar ha
    cases h with
    | blank hblank =>
      cases text with
      | nil => exact ⟨rfl, nofun⟩
      | cons c text =>
        have hne : a ≠ c := by
          rintro rfl
          cases hvisible.symm.trans
            (Text.isBlank_of_isAsciiBlank (hblank a List.mem_cons_self))
        rw [isPrefixOf_of_ne hne]
        exact ⟨rfl, nofun⟩
    | escaped =>
      rw [isPrefixOf_of_ne hbackslash, isPrefixOf_of_ne hdollar]
      exact ⟨rfl, nofun⟩
    | char c h =>
      have hafter := ih hrest h
      by_cases hac : a = c
      · rw [hac, List.isPrefixOf_cons_cons, List.isPrefixOf_cons_cons, BEq.rfl,
          Bool.true_and, Bool.true_and]
        exact hafter
      · rw [isPrefixOf_of_ne hac, isPrefixOf_of_ne hac]
        exact ⟨rfl, nofun⟩

end Reduced

/-- Where a comment or quotation ends, character by character: in a quotation a
backslash hides the character after it. -/
theorem rest_enclosure_cons (d : Delimiter) (c : Char) (text : List Char) :
    (d.enclosure (c :: text)).rest =
      if !d.isComment && c == '\\' then (d.enclosure text.tail).rest
      else if d.closer.isPrefixOf (c :: text) then
        (c :: text).drop d.ownCloser.length
      else (d.enclosure text).rest := by
  rw [enclosure_cons]
  split
  · rfl
  · split <;> rfl

theorem rest_enclosure_suffix (d : Delimiter)
    (text : List Char) : (d.enclosure text).rest <:+ text :=
  ⟨(d.enclosure text).inside, d.enclosure_append text⟩

theorem rest_enclosure_dollar (d : Delimiter) (text : List Char) :
    (d.enclosure ('$' :: text)).rest = (d.enclosure text).rest := by
  rw [rest_enclosure_cons]
  cases d <;> rfl

/-- A backslash before a dollar sign changes nothing: it hides the dollar sign
at most. -/
theorem rest_enclosure_escaped (d : Delimiter) (text : List Char) :
    (d.enclosure ('\\' :: '$' :: text)).rest = (d.enclosure text).rest := by
  rw [rest_enclosure_cons]
  cases d with
  | lineComment | blockComment => exact rest_enclosure_dollar _ text
  | single | double | tripleSingle | tripleDouble | backtick => rfl

/-- A comment or quotation that ends at a character ends there in the reduced
text, and leaves a reduced rest. -/
theorem Reduced.closer {text reduced : List Char} (h : Reduced text reduced)
    (d : Delimiter) (c : Char) :
    d.closer.isPrefixOf (c :: text) = d.closer.isPrefixOf (c :: reduced) ∧
      (d.closer.isPrefixOf (c :: text) = true →
        Reduced ((c :: text).drop d.ownCloser.length)
          ((c :: reduced).drop d.ownCloser.length)) := by
  cases d with
  | lineComment =>
    have hcloser (rest : List Char) :
        Delimiter.lineComment.closer.isPrefixOf (c :: rest) = ('\n' == c) := by
      simp [Delimiter.closer, List.isPrefixOf]
    exact ⟨(hcloser text).trans (hcloser reduced).symm, fun _ => .char c h⟩
  | blockComment | single | double | tripleSingle | tripleDouble | backtick =>
    apply (Reduced.char c h).isPrefixOf
    apply all_isMarkChar_closer
    intro hline
    cases hline

/-- The rest of a reduced text after a comment or quotation is a reduced
rest. -/
theorem Reduced.rest_enclosure (d : Delimiter) {text reduced : List Char}
    (h : Reduced text reduced) :
    Reduced (d.enclosure text).rest (d.enclosure reduced).rest := by
  -- A backslash takes the character after it along, so the induction is on the
  -- length.
  induction hlength :
    text.length using Nat.strongRecOn generalizing text reduced with
  | _ length ih =>
    subst hlength
    cases h with
    | blank hblank =>
      rw [Delimiter.enclosure]
      exact .blank fun c hc =>
        hblank c ((rest_enclosure_suffix d text).subset hc)
    | @escaped text reduced h =>
      rw [rest_enclosure_escaped, rest_enclosure_dollar]
      exact ih _ (by simp only [List.length_cons]; omega) (.char '{' h) rfl
    | @char c text reduced h =>
      rw [rest_enclosure_cons, rest_enclosure_cons]
      by_cases hhides : (!d.isComment && c == '\\') = true
      · rw [if_pos hhides, if_pos hhides]
        cases h with
        | blank hblank =>
          rw [List.tail_nil, Delimiter.enclosure.eq_1]
          apply Reduced.blank
          intro e he
          exact hblank e
            (List.mem_of_mem_tail ((rest_enclosure_suffix d _).subset he))
        | @escaped text reduced h =>
          rw [List.tail_cons, List.tail_cons, rest_enclosure_dollar]
          exact ih _ (by simp only [List.length_cons]; omega) (.char '{' h) rfl
        | @char e text reduced h =>
          exact ih text.length (by simp only [List.length_cons]; omega) h rfl
      · rw [if_neg hhides, if_neg hhides]
        obtain ⟨hcloser, hdrop⟩ := h.closer d c
        rw [← hcloser]
        split
        · rename_i hcloses
          exact hdrop hcloses
        · exact ih _ (by simp only [List.length_cons]; omega) h rfl

/-- The same comment or quotation opens at the head of a text and of the reduced
text. -/
theorem Reduced.opening? {text reduced : List Char} (h : Reduced text reduced) :
    Dialect.sql.opening? text = Dialect.sql.opening? reduced := by
  have hopener (d : Delimiter) : (d.opener .sql).isPrefixOf text =
      (d.opener .sql).isPrefixOf reduced :=
    (h.isPrefixOf (all_isMarkChar_opener d)).1
  simp only [Dialect.opening?, hopener]

theorem lexemes_code {c : Char} {text : List Char}
    (h : Dialect.sql.opening? (c :: text) = none) :
    lexemes .sql (c :: text) = .code c :: lexemes .sql text :=
  lexemes_of_next? (next?_eq_code h)

/-- Reading a reduced text says the same about the semicolon. -/
theorem Reduced.foldl_lexemes {text reduced : List Char}
    (h : Reduced text reduced) (said : Bool) :
    (lexemes .sql text).foldl saysSemicolon said =
      (lexemes .sql reduced).foldl saysSemicolon said := by
  -- A comment or quotation is read as a whole; both texts go on with a reduced
  -- rest after it.
  induction hlength :
    text.length using Nat.strongRecOn generalizing text reduced said with
  | _ length ih =>
    subst hlength
    have hopening := h.opening?
    cases h with
    | blank hblank =>
      cases text with
      | nil => rfl
      | cons c text =>
        rw [lexemes_code hopening, List.foldl_cons, saysSemicolon,
          if_pos (hblank c List.mem_cons_self)]
        have hrest : Reduced text [] :=
          .blank fun e he => hblank e (List.mem_cons_of_mem c he)
        exact ih _ (by simp only [List.length_cons]; omega) hrest said rfl
    | @escaped text reduced h =>
      have hbrace (rest : List Char) : lexemes .sql ('$' :: '{' :: rest) =
          .code '$' :: .code '{' :: lexemes .sql rest := by
        rw [lexemes_code rfl, lexemes_code rfl]
      rw [lexemes_code rfl, hbrace, hbrace]
      exact ih text.length (by simp only [List.length_cons]; omega) h false rfl
    | @char c text reduced h =>
      cases hhead : Dialect.sql.opening? (c :: text) with
      | none =>
        rw [lexemes_code hhead, lexemes_code (hopening.symm.trans hhead)]
        exact ih text.length (by simp) h _ rfl
      | some d =>
        have hnext (rest : List Char)
            (hrest : Dialect.sql.opening? (c :: rest) = some d) :
            next? .sql (c :: rest) =
              some (.enclosed d (d.opener .sql ++
                (d.enclosure ((c :: rest).drop (d.opener .sql).length)).inside)
                (d.enclosure ((c :: rest).drop (d.opener .sql).length)).closed,
                (d.enclosure ((c :: rest).drop
                  (d.opener .sql).length)).rest) := by
          simp only [next?, hrest]
        have hleft := hnext text hhead
        have hright := hnext reduced (hopening.symm.trans hhead)
        have hstands :=
          List.isPrefixOf_iff_prefix.2 (Dialect.opener_prefix_of_opening? hhead)
        have hafter :=
          ((Reduced.char c h).isPrefixOf (all_isMarkChar_opener d)).2 hstands
        rw [lexemes_of_next? hleft, lexemes_of_next? hright]
        exact ih _ (next?_length_lt hleft) (hafter.rest_enclosure d) _ rfl

/-- The blanks at the end of a text are ASCII blanks. -/
def EndsPlainly (text : List Char) : Prop :=
  ∀ c ∈ text.reverse.takeWhile Text.isBlank, Text.isAsciiBlank c = true

instance (text : List Char) : Decidable (EndsPlainly text) :=
  List.decidableBAll _ _

theorem EndsPlainly.of_append {first second : List Char}
    (h : EndsPlainly (first ++ second)) : EndsPlainly second := by
  intro c hc
  apply h c
  rw [List.reverse_append, List.takeWhile_append]
  split
  · exact List.mem_append_left _ ((List.takeWhile_prefix _).subset hc)
  · exact hc

theorem Reduced.append_blanks (text : List Char) {blanks : List Char}
    (h : ∀ c ∈ blanks, Text.isAsciiBlank c = true) :
    Reduced (text ++ blanks) text := by
  induction text with
  | nil => exact .blank h
  | cons c text ih => exact .char c ih

theorem EndsPlainly.reduced_trimEnd {text : List Char} (h : EndsPlainly text) :
    Reduced text (Text.trimEnd text) := by
  have hsplit : text =
      Text.trimEnd text ++ (text.reverse.takeWhile Text.isBlank).reverse := by
    rw [Text.trimEnd, ← List.reverse_append, List.takeWhile_append_dropWhile,
      List.reverse_reverse]
  have hblank : ∀ c ∈ (text.reverse.takeWhile Text.isBlank).reverse,
      Text.isAsciiBlank c = true :=
    fun c hc => h c (List.mem_reverse.1 hc)
  have hreduced := Reduced.append_blanks (Text.trimEnd text) hblank
  rwa [← hsplit] at hreduced

/-- No comment or quotation opens with a blank. -/
theorem opening?_of_isBlank {c : Char} (h : Text.isBlank c = true)
    (text : List Char) : Dialect.sql.opening? (c :: text) = none := by
  apply List.find?_eq_none.2
  intro d _
  cases hopener : d.opener .sql with
  | nil => cases d.opener_ne_nil .sql hopener
  | cons a mark =>
    have hmark := all_isMarkChar_opener d
    rw [hopener] at hmark
    obtain ⟨-, -, hvisible⟩ := ne_of_isMarkChar (Bool.and_eq_true_iff.1 hmark).1
    have hne : a ≠ c := by
      rintro rfl
      cases hvisible.symm.trans h
    simp [isPrefixOf_of_ne hne]

/-- Blanks at the beginning of a text say nothing about the semicolon. -/
theorem foldl_lexemes_blank_append {blanks : List Char}
    (h : Text.allBlank blanks = true) (text : List Char) :
    (lexemes .sql (blanks ++ text)).foldl saysSemicolon false =
      (lexemes .sql text).foldl saysSemicolon false := by
  induction blanks with
  | nil => rfl
  | cons c blanks ih =>
    obtain ⟨hblank, hrest⟩ := Bool.and_eq_true_iff.1 h
    have hne : c ≠ ';' := by
      rintro rfl
      cases hblank
    have hnot : saysSemicolon false (.code c) = false := by
      simp [saysSemicolon, hne]
    rw [List.cons_append, lexemes_code (opening?_of_isBlank hblank _),
      List.foldl_cons, hnot, ih hrest]

/-- Trimming off ASCII blanks at the end leaves the answer as it is. -/
theorem hasTrailingSemicolon_trim {sql : String} (h : EndsPlainly sql.toList) :
    hasTrailingSemicolon (Text.trim sql) = hasTrailingSemicolon sql := by
  have hsplit : sql.toList.takeWhile Text.isBlank ++ Text.trimStart sql.toList =
      sql.toList :=
    List.takeWhile_append_dropWhile
  have hends : EndsPlainly (Text.trimStart sql.toList) := by
    rw [← hsplit] at h
    exact h.of_append
  rw [hasTrailingSemicolon_eq_foldl, hasTrailingSemicolon_eq_foldl, Text.trim,
    String.toList_ofList]
  calc (lexemes .sql (Text.trimChars sql.toList)).foldl saysSemicolon false
    _ = (lexemes .sql (Text.trimStart sql.toList)).foldl saysSemicolon false :=
      (hends.reduced_trimEnd.foldl_lexemes false).symm
    _ = (lexemes .sql (sql.toList.takeWhile Text.isBlank ++
        Text.trimStart sql.toList)).foldl saysSemicolon false :=
      (foldl_lexemes_blank_append List.all_takeWhile _).symm
    _ = (lexemes .sql sql.toList).foldl saysSemicolon false := by rw [hsplit]

theorem reduced_self (text : List Char) : Reduced text text := by
  induction text with
  | nil => exact .blank nofun
  | cons c text ih => exact .char c ih

/-- The text that a template without placeholders stands for reduces it. -/
theorem reduced_of_literal {template text : List Char}
    (h : Template.literal? template = some text) : Reduced template text := by
  fun_induction Template.literal? template generalizing text with
  | case1 =>
    cases h
    exact reduced_self []
  | case2 rest ih =>
    obtain ⟨others, hothers, rfl⟩ := Option.map_eq_some_iff.1 h
    exact .escaped (ih hothers)
  | case3 => cases h
  | case4 c rest _ _ ih =>
    obtain ⟨others, hothers, rfl⟩ := Option.map_eq_some_iff.1 h
    exact .char c (ih hothers)

theorem reduced_copiedStretch (interpolate : Bool) (template : List Char) :
    Reduced (Template.lastStretch interpolate template)
      (Template.copiedStretch interpolate template) := by
  cases interpolate with
  | false => exact reduced_self template
  | true =>
    rw [Template.copiedStretch, if_pos rfl]
    cases hliteral : Template.literal? (Template.lastStretch true template) with
    | none => exact reduced_self _
    | some text => exact reduced_of_literal hliteral

/-- Nothing straddles the place between two texts: read together, they are read
as they are apart. -/
def Breaks (before after : List Char) : Prop :=
  lexemes .sql (before ++ after) = lexemes .sql before ++ lexemes .sql after

instance (before after : List Char) : Decidable (Breaks before after) :=
  inferInstanceAs (Decidable (_ = _))

/-- Whether a text has more in it than blanks and comments. -/
def Speaks (text : List Char) : Prop :=
  (lastSignificant (lexemes .sql text)).isSome = true

instance (text : List Char) : Decidable (Speaks text) :=
  inferInstanceAs (Decidable (_ = _))

/-- What a text says at its end does not depend on what was said before it. -/
theorem Speaks.foldl_lexemes {text : List Char} (h : Speaks text)
    (said : Bool) :
    (lexemes .sql text).foldl saysSemicolon said =
      (lexemes .sql text).foldl saysSemicolon false := by
  rw [foldl_saysSemicolon, foldl_saysSemicolon]
  obtain ⟨lexeme, hlexeme⟩ := Option.isSome_iff_exists.1 h
  rw [hlexeme]
  rfl

theorem foldl_lexemes_of_not_speaks {text : List Char} (h : ¬ Speaks text)
    (said : Bool) : (lexemes .sql text).foldl saysSemicolon said = said := by
  rw [foldl_saysSemicolon, Option.not_isSome_iff_eq_none.1 h]
  rfl

/-- The end of a template settles the end of what is rendered from it. The
template ends in `after`, which is copied to the end of the rendered text. In
neither text does a comment or quotation reach into the copied stretch; it says
something, or what is rendered before it does not end with a semicolon; and the
blanks at the end are ASCII blanks. -/
structure EndSettled (before after lead copied : List Char) : Prop where
  template_breaks : Breaks before after
  rendered_breaks : Breaks lead copied
  speaks : Speaks after ∨ hasTrailingSemicolon (String.ofList lead) = false
  endsPlainly : EndsPlainly (lead ++ copied)

instance (before after lead copied : List Char) :
    Decidable (EndSettled before after lead copied) :=
  decidable_of_iff (Breaks before after ∧ Breaks lead copied ∧
    (Speaks after ∨ hasTrailingSemicolon (String.ofList lead) = false) ∧
    EndsPlainly (lead ++ copied)) ⟨fun ⟨htemplate, hrendered, hspeaks, hends⟩ =>
      ⟨htemplate, hrendered, hspeaks, hends⟩,
      fun h => ⟨h.template_breaks, h.rendered_breaks, h.speaks, h.endsPlainly⟩⟩

/-- What stands before the last stretch of a template, and before its copy, is
given by the two texts. -/
theorem endSettled_of_renders {interpolate : Bool}
    {template rendered before lead : List Char}
    (h : Template.Renders interpolate template rendered before lead)
    (head renderedHead : List Char)
    (htemplate : template = head ++ Template.lastStretch interpolate template)
    (hrendered : rendered =
      renderedHead ++ Template.copiedStretch interpolate template)
    (hsettled : EndSettled head (Template.lastStretch interpolate template)
      renderedHead (Template.copiedStretch interpolate template)) :
    EndSettled before (Template.lastStretch interpolate template) lead
      (Template.copiedStretch interpolate template) := by
  have hbefore : before = head :=
    List.append_cancel_right (h.template_eq.symm.trans htemplate)
  have hlead : lead = renderedHead :=
    List.append_cancel_right (h.rendered_eq.symm.trans hrendered)
  rwa [hbefore, hlead]

/-- If its end is settled by the template, trimmed SQL ends with no semicolon
where the template does not. -/
theorem EndSettled.hasTrailingSemicolon_trim
    {before after lead copied : List Char}
    (h : EndSettled before after lead copied) (hcopied : Reduced after copied)
    (htemplate : hasTrailingSemicolon (String.ofList (before ++ after)) =
      false) :
    hasTrailingSemicolon (Text.trim (String.ofList (lead ++ copied))) =
      false := by
  have hends : EndsPlainly (String.ofList (lead ++ copied)).toList := by
    rw [String.toList_ofList]
    exact h.endsPlainly
  have hrendered : hasTrailingSemicolon (String.ofList (lead ++ copied)) =
      (lexemes .sql after).foldl saysSemicolon
        ((lexemes .sql lead).foldl saysSemicolon false) := by
    rw [hasTrailingSemicolon_eq_foldl, String.toList_ofList, h.rendered_breaks,
      List.foldl_append, hcopied.foldl_lexemes]
  rw [Sqlx.hasTrailingSemicolon_trim hends, hrendered]
  by_cases hspeaks : Speaks after
  · rw [hasTrailingSemicolon_eq_foldl, String.toList_ofList, h.template_breaks,
      List.foldl_append, hspeaks.foldl_lexemes] at htemplate
    rw [hspeaks.foldl_lexemes, htemplate]
  · have hlead := h.speaks.resolve_left hspeaks
    rw [hasTrailingSemicolon_eq_foldl, String.toList_ofList] at hlead
    rw [foldl_lexemes_of_not_speaks hspeaks, hlead]

end SqlWorkflow.Sqlx
