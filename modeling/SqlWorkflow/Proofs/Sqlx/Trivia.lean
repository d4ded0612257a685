import SqlWorkflow.Proofs.Lexical.Boundary
import SqlWorkflow.Proofs.Sqlx.Semicolon

/-!
# Blanks and comments after a semicolon

Whether SQL ends with a semicolon is found through the blanks and comments after
it, and through nothing else. Blanks and comments may be put after any SQL that
leaves no comment or quotation open: a dash at its end is the one character that
could open a comment with what follows. Then the SQL and what is put after it
are read as they are read apart, and the answer stays the same.
-/

namespace SqlWorkflow.Sqlx

open Lexical

/-- Blanks and comments, as they are written. A line comment reaches to the end
of its line or of the text, and the end of the text may cut a block comment
off. -/
inductive Trivia : List Char → Prop
  | nil : Trivia []
  | blank {c : Char} {rest : List Char} (hblank : Text.isAsciiBlank c = true)
      (h : Trivia rest) : Trivia (c :: rest)
  | lineComment {inside rest : List Char} (hinside : '\n' ∉ inside)
      (hline : ∀ c ∈ rest.head?, c = '\n')
      (h : Trivia rest) : Trivia ('-' :: '-' :: (inside ++ rest))
  | blockComment {inside rest : List Char} (hinside : ¬ ['*', '/'] <:+: inside)
      (h : Trivia rest) : Trivia ('/' :: '*' :: (inside ++ '*' :: '/' :: rest))
  | cutOff {inside : List Char}
      (hinside : ¬ ['*', '/'] <:+: inside) : Trivia ('/' :: '*' :: inside)

/-- SQL that ends outside of line comments and leaves no quotation or block
comment open. -/
def EndsOutside (sql : List Char) : Prop :=
  ∀ lexeme ∈ (lexemes .sql sql).getLast?, lexeme.Complete

/-- A blank or a comment. -/
def SaysNothing : Lexeme → Prop
  | .code c => Text.isAsciiBlank c = true
  | .enclosed d _ _ => d.isComment = true

theorem saysSemicolon_of_saysNothing {lexeme : Lexeme} (h : SaysNothing lexeme)
    (said : Bool) : saysSemicolon said lexeme = said := by
  cases lexeme with
  | code c => exact if_pos h
  | enclosed d text closed => exact if_pos h

theorem foldl_saysNothing {lexemes : List Lexeme}
    (h : ∀ lexeme ∈ lexemes, SaysNothing lexeme) (said : Bool) :
    lexemes.foldl saysSemicolon said = said := by
  induction lexemes with
  | nil => rfl
  | cons lexeme lexemes ih =>
    obtain ⟨hlexeme, hrest⟩ := List.forall_mem_cons.1 h
    rw [List.foldl_cons, saysSemicolon_of_saysNothing hlexeme, ih hrest]

/-! ## Block comments -/

theorem isPrefixOf_closer_block {c : Char} {inside : List Char}
    (h : ¬ ['*', '/'] <:+: c :: inside) {after : List Char}
    (hafter : ∀ e ∈ after.head?, e = '*') :
    Delimiter.blockComment.closer.isPrefixOf (c :: (inside ++ after)) =
      false := by
  have hnot : ∀ e ∈ after.head?, e ∉ ['/'] := by
    intro e he hmem
    cases (hafter e he).symm.trans (List.mem_singleton.1 hmem)
  have hprefix : ¬ ['*', '/'] <+: c :: inside :=
    fun hprefix => h hprefix.isInfix
  rw [Delimiter.closer, List.isPrefixOf_cons_cons,
    isPrefixOf_append_of_not_mem hnot, ← List.isPrefixOf_cons_cons]
  exact Bool.eq_false_iff.2 fun htrue =>
    hprefix (List.isPrefixOf_iff_prefix.1 htrue)

/-- Before the closer of a block comment every character is taken into the
comment. -/
theorem enclosure_block_append {inside : List Char}
    (hinside : ¬ ['*', '/'] <:+: inside) {after : List Char}
    (hafter : ∀ e ∈ after.head?, e = '*') :
    Delimiter.blockComment.enclosure (inside ++ after) =
      (Delimiter.blockComment.enclosure after).after inside := by
  induction inside with
  | nil => rfl
  | cons c inside ih =>
    have hrest : ¬ ['*', '/'] <:+: inside :=
      fun hinfix => hinside (List.infix_cons hinfix)
    rw [List.cons_append, enclosure_cons,
      isPrefixOf_closer_block hinside hafter, ih hrest]
    rfl

/-- A block comment is what stands before the first closer, and the closer; if
there is none, it is all of the text. -/
theorem inside_enclosure_block (text : List Char) :
    ∃ inside, ¬ ['*', '/'] <:+: inside ∧
      (Delimiter.blockComment.enclosure text = ⟨inside, [], false⟩ ∨
        Delimiter.blockComment.enclosure text = ⟨inside ++ ['*', '/'],
          (Delimiter.blockComment.enclosure text).rest, true⟩) := by
  induction text with
  | nil => exact ⟨[], by simp, .inl rfl⟩
  | cons c text ih =>
    have hhides : ¬ (!Delimiter.blockComment.isComment && c == '\\') = true :=
      Bool.false_ne_true
    rw [enclosure_cons, if_neg hhides]
    split
    · exact ⟨[], by simp, .inr rfl⟩
    · rename_i hopen
      obtain ⟨inside, hinside, hread⟩ := ih
      have hwhole := Delimiter.blockComment.enclosure_append text
      have hprefix : inside <+: text := by
        rcases hread with hread | hread
        · rw [hread] at hwhole
          exact ⟨_, hwhole⟩
        · rw [hread, List.append_assoc] at hwhole
          exact ⟨_, hwhole⟩
      refine ⟨c :: inside, ?_, ?_⟩
      · rw [List.infix_cons_iff, not_or]
        refine ⟨fun hcloser => hopen ?_, hinside⟩
        exact List.isPrefixOf_iff_prefix.2
          (hcloser.trans (List.cons_prefix_cons.2 ⟨rfl, hprefix⟩))
      · rcases hread with hread | hread
        · left
          rw [hread]
          rfl
        · right
          rw [hread]
          rfl

/-! ## Reading blanks and comments -/

theorem next?_lineComment {inside rest : List Char} (hinside : '\n' ∉ inside)
    (hline : ∀ c ∈ rest.head?, c = '\n') :
    next? .sql ('-' :: '-' :: (inside ++ rest)) =
      some (.enclosed .lineComment ('-' :: '-' :: inside) true, rest) := by
  have hopening : Dialect.sql.opening? ('-' :: '-' :: (inside ++ rest)) =
      some .lineComment := rfl
  have hdrop : ('-' :: '-' :: (inside ++ rest)).drop
      (Delimiter.lineComment.opener .sql).length =
      inside ++ rest := rfl
  simp only [next?, hopening, hdrop, enclosure_lineComment hinside hline]
  rfl

theorem next?_blockComment {inside after : List Char}
    (hinside : ¬ ['*', '/'] <:+: inside) (hafter : ∀ e ∈ after.head?, e = '*') :
    next? .sql ('/' :: '*' :: (inside ++ after)) =
      some (.enclosed .blockComment ('/' :: '*' ::
        (inside ++ (Delimiter.blockComment.enclosure after).inside))
        (Delimiter.blockComment.enclosure after).closed,
        (Delimiter.blockComment.enclosure after).rest) := by
  have hopening : Dialect.sql.opening? ('/' :: '*' :: (inside ++ after)) =
      some .blockComment := rfl
  have hdrop : ('/' :: '*' :: (inside ++ after)).drop
      (Delimiter.blockComment.opener .sql).length =
      inside ++ after := rfl
  simp only [next?, hopening, hdrop, enclosure_block_append hinside hafter]
  rfl

/-- A comment or quotation of a text begins with its opener, and what is read
after that is its inside. -/
theorem exists_of_next?_enclosed {text rest written : List Char} {d : Delimiter}
    {closed : Bool}
    (h : next? .sql text = some (.enclosed d written closed, rest)) :
    ∃ inner, text = d.opener .sql ++ inner ∧
      (d.enclosure inner).rest = rest := by
  cases text with
  | nil => cases h
  | cons c text =>
    simp only [next?] at h
    split at h
    · cases h
    · rename_i d hd
      cases h
      obtain ⟨inner, hinner⟩ := Dialect.opener_prefix_of_opening? hd
      refine ⟨inner, hinner.symm, ?_⟩
      rw [← hinner, List.drop_left]

/-- Blanks and comments are what is read as blanks and comments. -/
theorem trivia_iff {text : List Char} :
    Trivia text ↔ ∀ lexeme ∈ lexemes .sql text, SaysNothing lexeme := by
  constructor
  · intro h
    induction h with
    | nil =>
      rw [lexemes_nil]
      exact nofun
    | blank hblank h ih =>
      rw [lexemes_code
        (opening?_of_isBlank (Text.isBlank_of_isAsciiBlank hblank) _)]
      exact List.forall_mem_cons.2 ⟨hblank, ih⟩
    | lineComment hinside hline h ih =>
      rw [lexemes_of_next? (next?_lineComment hinside hline)]
      exact List.forall_mem_cons.2 ⟨rfl, ih⟩
    | blockComment hinside h ih =>
      rw [lexemes_of_next? (next?_blockComment hinside (by simp)),
        enclosure_cons]
      exact List.forall_mem_cons.2 ⟨rfl, ih⟩
    | @cutOff inside hinside =>
      have hnext := @next?_blockComment inside [] hinside nofun
      rw [List.append_nil] at hnext
      have hrest : (Delimiter.blockComment.enclosure []).rest = [] := rfl
      rw [lexemes_of_next? hnext, hrest, lexemes_nil]
      exact List.forall_mem_cons.2 ⟨rfl, nofun⟩
  · intro h
    fun_induction lexemes .sql text with
    | case1 text hnone =>
      rw [next?_eq_none_iff.1 hnone]
      exact .nil
    | case2 text lexeme rest hnext ih =>
      obtain ⟨hlexeme, hrest⟩ := List.forall_mem_cons.1 h
      have hrest := ih hrest
      cases lexeme with
      | code c =>
        obtain rfl : c :: rest = text := next?_append hnext
        exact .blank hlexeme hrest
      | enclosed d written closed =>
        obtain ⟨inner, rfl, rfl⟩ := exists_of_next?_enclosed hnext
        have hwhole := d.enclosure_append inner
        cases d with
        | lineComment =>
          have hcomment :=
            Trivia.lineComment (lineFeed_not_mem_inside inner)
              (head?_rest_lineComment inner) hrest
          rw [hwhole] at hcomment
          exact hcomment
        | blockComment =>
          obtain ⟨inside, hinside, hread | hread⟩ :=
            inside_enclosure_block inner
          · rw [hread, List.append_nil] at hwhole
            rw [← hwhole]
            exact .cutOff hinside
          · rw [hread, List.append_assoc] at hwhole
            have hcomment := Trivia.blockComment hinside hrest
            rw [← hwhole]
            exact hcomment
        | single | double | tripleSingle | tripleDouble | backtick =>
          cases hlexeme

/-! ## Putting blanks and comments after SQL -/

theorem apart_cons {c : Char} (hc : c ∉ ['-', '*', '\'', '"'])
    (before after : List Char) : Apart before (c :: after) := by
  rintro e ⟨⟩
  rw [List.mem_cons, not_or] at hc
  exact ⟨hc.2, fun hdash => absurd hdash hc.1⟩

theorem not_mem_of_isAsciiBlank {c : Char}
    (h : Text.isAsciiBlank c = true) : c ∉ ['-', '*', '\'', '"'] := by
  simp only [Text.isAsciiBlank, Bool.or_eq_true, beq_iff_eq] at h
  rcases h with (((rfl | rfl) | rfl) | rfl) | rfl <;> decide

/-- Blanks and comments open nothing with a text that does not end with a
dash. -/
theorem Trivia.apart {before trivia : List Char} (h : Trivia trivia)
    (hbefore : before.getLast? ≠ some '-') : Apart before trivia := by
  cases h with
  | nil => exact nofun
  | blank hblank => exact apart_cons (not_mem_of_isAsciiBlank hblank) before _
  | lineComment =>
    rintro c ⟨⟩
    exact ⟨by decide, fun _ => hbefore⟩
  | blockComment | cutOff => exact apart_cons (by decide) before _

theorem Trivia.foldl_lexemes {trivia : List Char} (h : Trivia trivia)
    (said : Bool) : (lexemes .sql trivia).foldl saysSemicolon said = said :=
  foldl_saysNothing (trivia_iff.1 h) said

theorem hasTrailingSemicolon_semicolon_append {sql trivia : String}
    (hsql : EndsOutside sql.toList) (htrivia : Trivia trivia.toList) :
    hasTrailingSemicolon (sql ++ ";" ++ trivia) = true := by
  have htext : (sql ++ ";" ++ trivia).toList =
      sql.toList ++ ';' :: trivia.toList := by
    rw [String.toList_append, String.toList_append, List.append_assoc]
    rfl
  have hapart : Apart sql.toList (';' :: trivia.toList) :=
    apart_cons (by decide) _ _
  have hsemicolon : lexemes .sql (';' :: trivia.toList) =
      .code ';' :: lexemes .sql trivia.toList :=
    lexemes_code rfl
  rw [hasTrailingSemicolon_eq_foldl, htext, hapart.lexemes_append hsql,
    hsemicolon, List.foldl_append, List.foldl_cons, htrivia.foldl_lexemes]
  rfl

theorem hasTrailingSemicolon_append_trivia {sql trivia : String}
    (hsql : EndsOutside sql.toList) (htrivia : Trivia trivia.toList)
    (hdash : sql.toList.getLast? ≠ some '-') :
    hasTrailingSemicolon (sql ++ trivia) = hasTrailingSemicolon sql := by
  rw [hasTrailingSemicolon_eq_foldl, hasTrailingSemicolon_eq_foldl,
    String.toList_append, (htrivia.apart hdash).lexemes_append hsql,
    List.foldl_append, htrivia.foldl_lexemes]

/-! ## Nothing else is passed over -/

/-- What is read before a semicolon leaves no comment or quotation open. -/
theorem complete_of_reads {text rest : List Char} {c : Char}
    {read : List Lexeme} (h : Reads .sql text read (c :: rest))
    (hc : c ≠ '\n') : ∀ lexeme ∈ read.getLast?, lexeme.Complete := by
  rcases List.eq_nil_or_concat read with rfl | ⟨before, last, rfl⟩
  · exact nofun
  · rw [List.concat_eq_append] at h ⊢
    obtain ⟨middle, -, hlast⟩ := h.exists_of_append
    cases hlast with
    | read head tail =>
      cases tail
      rw [List.getLast?_concat]
      rintro lexeme ⟨⟩
      exact complete_of_next? head hc

/-- The last lexeme that is neither a blank nor a comment, with what is read
before it and after it. -/
theorem exists_of_lastSignificant {read : List Lexeme} {lexeme : Lexeme}
    (h : lastSignificant read = some lexeme) :
    ∃ before after, read = before ++ lexeme :: after ∧
      ∀ passed ∈ after, SaysNothing passed := by
  obtain ⟨others, hothers⟩ := List.getLast?_eq_some_iff.1 h
  obtain ⟨first, second, rfl, -, hsecond⟩ := List.filter_eq_append_iff.1 hothers
  obtain ⟨between, after, rfl, -, -, hafter⟩ :=
    List.filter_eq_cons_iff.1 hsecond
  refine ⟨first ++ between, after, (List.append_assoc _ _ _).symm,
    fun passed hpassed => ?_⟩
  have hnot := List.filter_eq_nil_iff.1 hafter passed hpassed
  cases passed with
  | code c => simpa [SaysNothing] using hnot
  | enclosed d written closed => simpa [SaysNothing] using hnot

theorem exists_of_hasTrailingSemicolon {sql : String}
    (h : hasTrailingSemicolon sql = true) :
    ∃ before trivia : String, sql = before ++ ";" ++ trivia ∧
      EndsOutside before.toList ∧ Trivia trivia.toList := by
  rw [hasTrailingSemicolon, beq_iff_eq] at h
  obtain ⟨before, after, hread, hafter⟩ := exists_of_lastSignificant h
  have hreads := reads_lexemes .sql sql.toList
  rw [hread] at hreads
  obtain ⟨middle, hbefore, hmiddle⟩ := hreads.exists_of_append
  cases hmiddle with
  | @read _ rest _ _ _ head tail =>
    obtain rfl : ';' :: rest = middle := next?_append head
    have hsource := hbefore.sourceOf_append
    -- The lexemes before the semicolon are also read where the text ends before
    -- it.
    have halone : Reads .sql (sourceOf before ++ []) before [] := by
      rw [← hsource] at hbefore
      exact hbefore.boundary (inert_cons (by decide) rest) inert_nil
        (.inl (List.cons_ne_nil _ _))
    rw [List.append_nil] at halone
    refine ⟨String.ofList (sourceOf before), String.ofList rest, ?_, ?_, ?_⟩
    · have hrest : (String.ofList rest).toList = rest := String.toList_ofList
      apply String.toList_inj.1
      rw [String.toList_append, String.toList_append, String.toList_ofList,
        hrest, List.append_assoc]
      exact hsource.symm
    · rw [EndsOutside, String.toList_ofList, halone.lexemes_eq]
      exact complete_of_reads hbefore (by decide)
    · rw [String.toList_ofList, trivia_iff, tail.lexemes_eq]
      exact hafter

/-- A semicolon at the end of SQL is found through blanks and comments and only
through these. Blanks and comments after SQL that leaves nothing open do not
change the answer, unless a dash at its end opens a comment with them. -/
theorem trailingSemicolon_through_trivia :
    (∀ sql trivia : String, EndsOutside sql.toList → Trivia trivia.toList →
      hasTrailingSemicolon (sql ++ ";" ++ trivia) = true ∧
        (sql.toList.getLast? ≠ some '-' →
          hasTrailingSemicolon (sql ++ trivia) = hasTrailingSemicolon sql)) ∧
      ∀ sql : String, hasTrailingSemicolon sql = true →
        ∃ before trivia : String, sql = before ++ ";" ++ trivia ∧
          EndsOutside before.toList ∧ Trivia trivia.toList := by
  refine ⟨fun sql trivia hsql htrivia => ⟨?_, fun hdash => ?_⟩, fun sql h => ?_⟩
  · exact hasTrailingSemicolon_semicolon_append hsql htrivia
  · exact hasTrailingSemicolon_append_trivia hsql htrivia hdash
  · exact exists_of_hasTrailingSemicolon h

/-- A quotation with a comment mark in it before the semicolon, and comments
with semicolons in them after it. -/
theorem trailingSemicolon_through_trivia_quoted :
    hasTrailingSemicolon
      ("SELECT '-- /*' -- ;\n" ++ ";" ++ "\t-- a; b\n/* ; **/ --;") = true ∧
      hasTrailingSemicolon
        ("SELECT '-- /*' -- ;\n" ++ "\t-- a; b\n/* ; **/ --;") =
        hasTrailingSemicolon "SELECT '-- /*' -- ;\n" ∧
      ∃ before trivia : String, ("SELECT 1 /*;*/;/*" : String) =
        before ++ ";" ++ trivia ∧
        EndsOutside before.toList ∧ Trivia trivia.toList := by
  have hsql : EndsOutside "SELECT '-- /*' -- ;\n".toList := by
    unfold EndsOutside
    decide +kernel
  have htrivia : Trivia "\t-- a; b\n/* ; **/ --;".toList :=
    .blank rfl (@Trivia.lineComment " a; b".toList _ (by decide)
      (by rintro _ ⟨⟩; rfl)
      (.blank rfl (@Trivia.blockComment " ; *".toList _ (by decide)
        (.blank rfl (@Trivia.lineComment [';'] [] (by decide) nofun .nil)))))
  obtain ⟨hthrough, honly⟩ := trailingSemicolon_through_trivia
  obtain ⟨hfound, hsame⟩ :=
    hthrough "SELECT '-- /*' -- ;\n" "\t-- a; b\n/* ; **/ --;" hsql htrivia
  exact ⟨hfound, hsame (by decide),
    honly "SELECT 1 /*;*/;/*" (by decide +kernel)⟩

end SqlWorkflow.Sqlx
