import Mathlib.Data.List.Chain
import Mathlib.Data.List.TakeWhile
import SqlWorkflow.Proofs.Lexical.Boundary
import SqlWorkflow.Sqlx.Statement

/-!
# Pieces between separator lines

Splitting the body of an operation takes it apart at its separator lines, which
the scan of the whole body tells, and loses nothing of it. The splitter looks
for the beginning of the line in the text since the last cut only. This is
enough: a separator reaches to the end of its line, so every later line begins
after it.

Splitting is the inverse of joining statements by separator lines, if each of
them is a single statement when it stands alone and leaves no quotation or
comment open that would take in the separator after it.
-/

namespace SqlWorkflow.Sqlx

open Lexical

/-- A separator line: a comment of three dashes and blanks, before which the
line holds only blanks. The line begins at byte `start` of the text, and the
comment, read after the lexemes `before`, ends at byte `stop`. -/
structure Separates (before : List Lexeme) (comment : Lexeme)
    (start stop : Nat) : Prop where
  isComment : comment.isComment = true
  dashes : Text.trimEnd comment.text = ['-', '-', '-']
  line : ∃ earlier blank, sourceOf before = earlier ++ blank ∧
    (∀ c ∈ earlier.getLast?, c = '\n') ∧
    '\n' ∉ blank ∧ Text.allBlank blank = true ∧ start = Text.byteCount earlier
  stop_eq : stop = Text.byteCount (sourceOf before ++ comment.text)

/-- A text has a separator line from byte `start` to byte `stop`. -/
def HasSeparator (sql : List Char) (start stop : Nat) : Prop :=
  ∃ before comment after, lexemes .sql sql = before ++ comment :: after ∧
    Separates before comment start stop

/-- A text that is taken apart: each piece with the separator line after it, and
the last piece. -/
structure Cut where
  parts : List (List Char × List Char)
  last : List Char

namespace Cut

def text (cut : Cut) : List Char :=
  cut.parts.flatMap (fun (piece, separator) => piece ++ separator) ++ cut.last

def pieces (cut : Cut) : List (List Char) :=
  cut.parts.map Prod.fst ++ [cut.last]

/-- The bytes where separator lines begin and end, for parts that stand at an
offset. -/
def rangesFrom (offset : Nat) : List (List Char × List Char) → List (Nat × Nat)
  | [] => []
  | (piece, separator) :: parts =>
    let start := offset + Text.byteCount piece
    let stop := start + Text.byteCount separator
    (start, stop) :: rangesFrom stop parts

def ranges (cut : Cut) : List (Nat × Nat) :=
  rangesFrom 0 cut.parts

/-- The bytes between which pieces and separator lines are sliced from the text,
in this order. -/
def offsets (cut : Cut) : List Nat :=
  0 :: (cut.ranges.flatMap (fun (start, stop) => [start, stop]) ++
    [Text.byteCount cut.text])

end Cut

/-- A text is taken apart at its separator lines: nothing of it is lost, it is
cut at these lines and nowhere else, and every slice that is taken of it ends
where the next one begins. -/
structure TakenApart (sql : List Char) (cut : Cut) : Prop where
  text_eq : cut.text = sql
  mem_ranges_iff : ∀ start stop, (start, stop) ∈ cut.ranges ↔
    HasSeparator sql start stop
  in_order : cut.offsets.IsChain (· ≤ ·)

/-- A statement that may be joined with others: it is a statement alone, without
blanks around it, and leaves no quotation or comment open. -/
structure Joinable (statement : String) : Prop where
  nonempty : statement ≠ ""
  trimmed : Text.trim statement = statement
  single : splitStatements statement = [statement]
  terminated : ∀ lexeme ∈ (lexemes .sql statement.toList).getLast?,
    lexeme.Terminated

/-! ## Lines -/

theorem beforeLine_append (reversed : List Char) :
    beforeLine reversed ++ (reversed.takeWhile (· != '\n')).reverse =
      reversed.reverse := by
  rw [beforeLine, ← List.reverse_append, List.takeWhile_append_dropWhile]

/-- The line that a text ends on. -/
theorem line_eq {earlier line : List Char}
    (hearlier : ∀ c ∈ earlier.getLast?, c = '\n') (hline : '\n' ∉ line) :
    beforeLine (earlier ++ line).reverse = earlier ∧
      (earlier ++ line).reverse.takeWhile (· != '\n') = line.reverse := by
  have hall : ∀ c ∈ line.reverse, (c != '\n') = true := by
    intro c hc
    apply bne_iff_ne.2
    rintro rfl
    exact hline (List.mem_reverse.1 hc)
  rw [beforeLine, List.reverse_append, List.takeWhile_append_of_pos hall,
    List.dropWhile_append_of_pos hall]
  rcases List.eq_nil_or_concat earlier with rfl | ⟨earlier, c, rfl⟩
  · simp
  · obtain rfl : c = '\n' := hearlier c (by simp)
    simp

theorem getLast?_beforeLine (reversed : List Char) :
    ∀ c ∈ (beforeLine reversed).getLast?, c = '\n' := by
  intro c hc
  have hstops := List.head?_dropWhile_not (· != '\n') reversed
  rw [beforeLine, List.getLast?_reverse] at hc
  rw [hc] at hstops
  exact bne_eq_false_iff_eq.1 hstops

theorem lineFeed_not_mem_line (reversed : List Char) :
    '\n' ∉ (reversed.takeWhile (· != '\n')).reverse := by
  intro hmem
  have hne := List.mem_takeWhile_imp (List.mem_reverse.1 hmem)
  exact bne_iff_ne.1 hne rfl

theorem separates_iff {before : List Lexeme} {comment : Lexeme}
    {start stop : Nat} :
    Separates before comment start stop ↔
      (isSeparatorText comment = true ∧
        onBlankLine (sourceOf before).reverse = true) ∧
        start = Text.byteCount (beforeLine (sourceOf before).reverse) ∧
        stop = Text.byteCount (sourceOf before ++ comment.text) := by
  rw [isSeparatorText, Bool.and_eq_true, beq_iff_eq]
  constructor
  · rintro ⟨hcomment, hdashes,
      ⟨earlier, line, hbefore, hearlier, hline, hblank, rfl⟩, hstop⟩
    obtain ⟨hstart, hlast⟩ := line_eq hearlier hline
    refine ⟨⟨⟨hcomment, hdashes⟩, ?_⟩, ?_, hstop⟩
    · rwa [onBlankLine, hbefore, hlast, Text.allBlank, List.all_reverse]
    · rw [hbefore, hstart]
  · rintro ⟨⟨⟨hcomment, hdashes⟩, hblank⟩, hstart, hstop⟩
    refine ⟨hcomment, hdashes,
      ⟨_, _, ?_, getLast?_beforeLine (sourceOf before).reverse,
        lineFeed_not_mem_line (sourceOf before).reverse, ?_, hstart⟩, hstop⟩
    · rw [beforeLine_append, List.reverse_reverse]
    · rwa [Text.allBlank, List.all_reverse]

/-- Where a line begins in a text is told by the text after any place that is
not in the same line. -/
theorem line_reverse_append {done reversed : List Char}
    (h : ∀ c ∈ (done ++ beforeLine reversed).getLast?, c = '\n') :
    onBlankLine (reversed ++ done.reverse) = onBlankLine reversed ∧
      beforeLine (reversed ++ done.reverse) = done ++ beforeLine reversed := by
  have heq := line_eq h (lineFeed_not_mem_line reversed)
  rw [List.append_assoc, beforeLine_append, List.reverse_append,
    List.reverse_reverse, List.reverse_reverse] at heq
  exact ⟨congrArg Text.allBlank heq.2, heq.1⟩

theorem getLast?_append_beforeLine {done reversed : List Char}
    (h : (∀ c ∈ done.getLast?, c = '\n') ∨ '\n' ∈ reversed) :
    ∀ c ∈ (done ++ beforeLine reversed).getLast?, c = '\n' := by
  by_cases hbefore : beforeLine reversed = []
  · rw [hbefore, List.append_nil]
    apply h.resolve_right
    intro hmem
    have happend := beforeLine_append reversed
    rw [hbefore, List.nil_append] at happend
    apply lineFeed_not_mem_line reversed
    rwa [happend, List.mem_reverse]
  · rw [List.getLast?_append_of_ne_nil _ hbefore]
    exact getLast?_beforeLine reversed

/-! ## What follows a separator -/

theorem exists_text_of_separator {lexeme : Lexeme}
    (h : isSeparatorText lexeme = true) :
    ∃ blanks, lexeme.text = '-' :: '-' :: '-' :: blanks := by
  obtain ⟨-, hdashes⟩ := Bool.and_eq_true_iff.1 h
  obtain ⟨blanks, -, htext⟩ := Text.exists_append_of_trimEnd lexeme.text
  rw [beq_iff_eq.1 hdashes] at htext
  exact ⟨blanks, htext⟩

/-- A separator is a line comment, so it reaches to the end of the line. -/
theorem head?_rest_separator {text rest : List Char} {lexeme : Lexeme}
    (h : next? .sql text = some (lexeme, rest))
    (hseparator : isSeparatorText lexeme = true) :
    ∀ c ∈ rest.head?, c = '\n' := by
  obtain ⟨hcomment, -⟩ := Bool.and_eq_true_iff.1 hseparator
  obtain ⟨blanks, htext⟩ := exists_text_of_separator hseparator
  cases text with
  | nil => cases h
  | cons c text =>
    simp only [next?] at h
    split at h
    · cases h
      cases hcomment
    · rename_i d hd
      cases h
      cases d with
      | lineComment => exact head?_rest_lineComment _
      | blockComment => cases htext
      | single | double | tripleSingle | tripleDouble | backtick =>
        cases hcomment

/-- After a separator a new line is read, or nothing more. -/
theorem isChain_lexemes (text : List Char) :
    (lexemes .sql text).IsChain fun lexeme next =>
      isSeparatorText lexeme = true → next = .code '\n' := by
  fun_induction lexemes .sql text with
  | case1 => exact .nil
  | case2 text lexeme rest h ih =>
    refine List.isChain_cons.2 ⟨?_, ih⟩
    intro next hnext hseparator
    cases rest with
    | nil =>
      rw [lexemes] at hnext
      cases hnext
    | cons c rest =>
      obtain rfl := head?_rest_separator h hseparator c rfl
      rw [lexemes_of_next? (next?_lineFeed_cons .sql rest)] at hnext
      cases hnext
      rfl

/-! ## Taking apart -/

theorem exists_separates_cons {before rest : List Lexeme} {lexeme : Lexeme}
    {start stop : Nat} :
    (∃ middle comment after, lexeme :: rest = middle ++ comment :: after ∧
      Separates (before ++ middle) comment start stop) ↔
      Separates before lexeme start stop ∨
        ∃ middle comment after, rest = middle ++ comment :: after ∧
          Separates (before ++ [lexeme] ++ middle) comment start stop := by
  constructor
  · rintro ⟨middle, comment, after, heq, h⟩
    cases middle with
    | nil =>
      cases heq
      rw [List.append_nil] at h
      exact .inl h
    | cons first middle =>
      cases heq
      refine .inr ⟨middle, comment, after, rfl, ?_⟩
      rwa [List.append_assoc]
  · rintro (h | ⟨middle, comment, after, rfl, h⟩)
    · refine ⟨[], lexeme, rest, rfl, ?_⟩
      rwa [List.append_nil]
    · refine ⟨lexeme :: middle, comment, after, rfl, ?_⟩
      rwa [List.append_assoc] at h

/-- Reading is under way: the lexemes `before` were read and `rest` is next, the
text was last cut after `done`, and `reversed` was read since, in reverse. -/
structure Underway (before rest : List Lexeme)
    (done reversed : List Char) : Prop where
  source_eq : sourceOf before = done ++ reversed.reverse
  fresh : ((∀ c ∈ done.getLast?, c = '\n') ∨ '\n' ∈ reversed) ∨
    reversed = [] ∧ ∀ next ∈ rest.head?, next = .code '\n'
  chain : rest.IsChain fun lexeme next => isSeparatorText lexeme = true →
    next = .code '\n'

theorem sourceOf_concat (before : List Lexeme) (lexeme : Lexeme) :
    sourceOf (before ++ [lexeme]) = sourceOf before ++ lexeme.text := by
  simp [sourceOf]

namespace Underway

variable {before rest : List Lexeme} {lexeme : Lexeme}
  {done reversed : List Char}

theorem fresh_of_separator (h : Underway before (lexeme :: rest) done reversed)
    (hseparator : isSeparatorText lexeme = true) :
    (∀ c ∈ done.getLast?, c = '\n') ∨ '\n' ∈ reversed := by
  rcases h.fresh with hfresh | ⟨-, hhead⟩
  · exact hfresh
  · rw [hhead lexeme rfl] at hseparator
    cases hseparator

/-- The splitter cuts at the separator lines of the whole text. -/
theorem separates_iff (h : Underway before (lexeme :: rest) done reversed)
    (start stop : Nat) :
    Separates before lexeme start stop ↔
      (isSeparatorText lexeme && onBlankLine reversed) = true ∧
        start = Text.byteCount (done ++ beforeLine reversed) ∧
        stop = Text.byteCount (sourceOf before ++ lexeme.text) := by
  have hreversed : (sourceOf before).reverse = reversed ++ done.reverse := by
    simp [h.source_eq]
  rw [Sqlx.separates_iff, Bool.and_eq_true, hreversed]
  by_cases hseparator : isSeparatorText lexeme = true
  · obtain ⟨hblank, hstart⟩ := line_reverse_append
      (getLast?_append_beforeLine (h.fresh_of_separator hseparator))
    rw [hblank, hstart]
  · simp [hseparator]

theorem read (h : Underway before (lexeme :: rest) done reversed) :
    Underway (before ++ [lexeme]) rest done
      (lexeme.text.reverse ++ reversed) where
  source_eq := by simp [sourceOf_concat, h.source_eq]
  fresh := by
    left
    rcases h.fresh with (hnil | hmem) | ⟨-, hhead⟩
    · exact .inl hnil
    · exact .inr (List.mem_append_right _ hmem)
    · rw [hhead lexeme rfl]
      exact .inr List.mem_cons_self
  chain := (List.isChain_cons.1 h.chain).2

theorem cut (h : Underway before (lexeme :: rest) done reversed)
    (hseparator : isSeparatorText lexeme = true) :
    Underway (before ++ [lexeme]) rest (sourceOf before ++ lexeme.text) [] where
  source_eq := by rw [sourceOf_concat, List.reverse_nil, List.append_nil]
  fresh := by
    right
    refine ⟨rfl, fun next hnext => ?_⟩
    exact (List.isChain_cons.1 h.chain).1 next hnext hseparator
  chain := (List.isChain_cons.1 h.chain).2

end Underway

/-- What is left of a text is taken apart at the separator lines that the whole
text has from there on. -/
theorem Underway.exists_cut {before rest : List Lexeme}
    {done reversed : List Char} (h : Underway before rest done reversed) :
    ∃ cut : Cut, cut.pieces = cutStatements reversed rest ∧
      cut.text = reversed.reverse ++ sourceOf rest ∧ ∀ start stop,
        (start, stop) ∈ Cut.rangesFrom (Text.byteCount done) cut.parts ↔
          ∃ middle comment after, rest = middle ++ comment :: after ∧
            Separates (before ++ middle) comment start stop := by
  induction rest generalizing before done reversed with
  | nil =>
    refine ⟨⟨[], reversed.reverse⟩, rfl, (List.append_nil _).symm,
      fun start stop => ⟨nofun, ?_⟩⟩
    rintro ⟨middle, comment, after, heq, -⟩
    cases middle <;> cases heq
  | cons lexeme rest ih =>
    by_cases hcut : (isSeparatorText lexeme && onBlankLine reversed) = true
    · obtain ⟨cut, hpieces, htext, hranges⟩ :=
        ih (h.cut (Bool.and_eq_true_iff.1 hcut).1)
      have hline := beforeLine_append reversed
      refine ⟨⟨(beforeLine reversed, (reversed.takeWhile (· != '\n')).reverse ++
        lexeme.text) :: cut.parts, cut.last⟩, ?_, ?_, fun start stop => ?_⟩
      · rw [cutStatements, if_pos hcut, ← hpieces]
        rfl
      · rw [sourceOf_cons, ← hline]
        rw [List.reverse_nil, List.nil_append] at htext
        simp [Cut.text, ← htext]
      · have hstop : Text.byteCount (done ++ beforeLine reversed) +
            Text.byteCount
              ((reversed.takeWhile (· != '\n')).reverse ++ lexeme.text) =
            Text.byteCount (sourceOf before ++ lexeme.text) := by
          rw [← Text.byteCount_append, h.source_eq, ← hline]
          simp only [List.append_assoc]
        rw [exists_separates_cons, ← hranges, h.separates_iff, Cut.rangesFrom,
          List.mem_cons, Prod.mk.injEq, ← Text.byteCount_append done, hstop,
          and_iff_right hcut]
    · obtain ⟨cut, hpieces, htext, hranges⟩ := ih h.read
      refine ⟨cut, ?_, ?_, fun start stop => ?_⟩
      · rw [cutStatements, if_neg hcut, hpieces]
      · simp [htext]
      · rw [exists_separates_cons, ← hranges, h.separates_iff]
        exact (or_iff_right fun hseparates => hcut hseparates.1).symm

/-- The slices that are taken follow one another in the text. -/
theorem Cut.isChain_offsets (cut : Cut) : cut.offsets.IsChain (· ≤ ·) := by
  have hparts (parts : List (List Char × List Char)) (offset : Nat) :
      (offset :: ((Cut.rangesFrom offset parts).flatMap
        (fun (start, stop) => [start, stop]) ++
        [offset + Text.byteCount (Cut.mk parts cut.last).text])).IsChain
        (· ≤ ·) := by
    induction parts generalizing offset with
    | nil => simp [Cut.rangesFrom]
    | cons part parts ih =>
      obtain ⟨piece, separator⟩ := part
      have htail :=
        ih (offset + Text.byteCount piece + Text.byteCount separator)
      have htext : (Cut.mk ((piece, separator) :: parts) cut.last).text =
          piece ++ (separator ++ (Cut.mk parts cut.last).text) := by
        simp [Cut.text]
      rw [htext]
      simp only [Cut.rangesFrom, List.flatMap_cons, List.cons_append,
        List.nil_append, Text.byteCount_append, List.isChain_cons_cons,
        ← Nat.add_assoc]
      exact ⟨Nat.le_add_right _ _, Nat.le_add_right _ _, htail⟩
  have h := hparts cut.parts 0
  rwa [Nat.zero_add] at h

theorem underway_start (sql : List Char) :
    Underway [] (lexemes .sql sql) [] [] where
  source_eq := rfl
  fresh := .inl (.inl nofun)
  chain := isChain_lexemes sql

theorem exists_takenApart (sql : List Char) :
    ∃ cut, TakenApart sql cut ∧
      cut.pieces = cutStatements [] (lexemes .sql sql) := by
  obtain ⟨cut, hpieces, htext, hranges⟩ := (underway_start sql).exists_cut
  have hsource : sourceOf (lexemes .sql sql) = sql :=
    flatMap_text_lexemes .sql sql
  rw [hsource] at htext
  exact ⟨cut, ⟨htext, hranges, cut.isChain_offsets⟩, hpieces⟩

/-- The statements are the trimmed pieces; empty ones are left out. -/
theorem splitStatements_eq_filter (sql : String) :
    splitStatements sql =
      ((cutStatements [] (lexemes .sql sql.toList)).map fun piece =>
      Text.trim (String.ofList piece)).filter (· ≠ "") := by
  rw [splitStatements]
  induction cutStatements [] (lexemes .sql sql.toList) with
  | nil => rfl
  | cons piece pieces ih =>
    have htrim : Text.trim (String.ofList piece) =
        String.ofList (Text.trimChars piece) := by
      rw [Text.trim, String.toList_ofList]
    rw [List.map_cons, List.map_cons, List.filterMap_cons, List.filter_cons,
      htrim, ih]
    cases Text.trimChars piece <;> simp

/-! ## Joining -/

/-- Where a text is cut at all, every piece is shorter than the text. -/
theorem cutStatements_eq_singleton_or_length_lt (reversed : List Char)
    (lexemes : List Lexeme) :
    cutStatements reversed lexemes = [reversed.reverse ++ sourceOf lexemes] ∨
      ∀ piece ∈ cutStatements reversed lexemes,
        piece.length < (reversed.reverse ++ sourceOf lexemes).length := by
  induction lexemes generalizing reversed with
  | nil =>
    left
    rw [sourceOf_nil, List.append_nil]
    rfl
  | cons lexeme rest ih =>
    by_cases hcut : (isSeparatorText lexeme && onBlankLine reversed) = true
    · right
      rw [cutStatements, if_pos hcut]
      obtain ⟨blanks, htext⟩ :=
        exists_text_of_separator (Bool.and_eq_true_iff.1 hcut).1
      have hline := congrArg List.length (beforeLine_append reversed)
      have hrest : ∀ piece ∈ cutStatements [] rest, piece.length ≤
          (sourceOf rest).length := by
        intro piece hpiece
        rcases ih [] with hsingle | hshorter
        · rw [hsingle, List.mem_singleton] at hpiece
          rw [hpiece]
          exact Nat.le_refl _
        · exact Nat.le_of_lt (hshorter piece hpiece)
      simp only [sourceOf_cons, htext, List.length_append, List.length_cons,
        List.length_reverse, List.mem_cons] at hline ⊢
      rintro piece (rfl | hpiece)
      · omega
      · have hpiece := hrest piece hpiece
        omega
    · rw [cutStatements, if_neg hcut, sourceOf_cons]
      have htail := ih (lexeme.text.reverse ++ reversed)
      rwa [List.reverse_append, List.reverse_reverse,
        List.append_assoc] at htail

theorem length_trimChars_le (text : List Char) :
    (Text.trimChars text).length ≤ text.length := by
  have hend := (List.dropWhile_suffix (l := (Text.trimStart text).reverse)
    Text.isBlank).length_le
  have hstart := (List.dropWhile_suffix (l := text) Text.isBlank).length_le
  rw [List.length_reverse] at hend
  rw [Text.trimChars, Text.trimEnd, List.length_reverse]
  exact Nat.le_trans hend hstart

/-- A statement that is a single one is not cut at all. -/
theorem Joinable.cutStatements_eq {statement : String}
    (h : Joinable statement) :
    cutStatements [] (lexemes .sql statement.toList) = [statement.toList] := by
  have hsource : sourceOf (lexemes .sql statement.toList) = statement.toList :=
    flatMap_text_lexemes .sql _
  have hmem : statement ∈ splitStatements statement := by
    rw [h.single]
    exact List.mem_cons_self
  rw [splitStatements_eq_filter, List.mem_filter, List.mem_map] at hmem
  obtain ⟨⟨piece, hpiece, htrim⟩, -⟩ := hmem
  have hlength := length_trimChars_le piece
  rw [← String.toList_ofList (l := Text.trimChars piece)] at hlength
  rw [Text.trim, String.toList_ofList] at htrim
  rw [htrim] at hlength
  rcases cutStatements_eq_singleton_or_length_lt []
    (lexemes .sql statement.toList) with hsingle | hshorter
  · rwa [hsource] at hsingle
  · have hlt := hshorter piece hpiece
    rw [hsource, List.reverse_nil, List.nil_append] at hlt
    omega

theorem cutStatements_ne_nil (reversed : List Char) (lexemes : List Lexeme) :
    cutStatements reversed lexemes ≠ [] := by
  fun_induction cutStatements reversed lexemes with
  | case1 => exact List.cons_ne_nil _ _
  | case2 => exact List.cons_ne_nil _ _
  | case3 reversed lexeme rest _ ih => exact ih

/-- A text that is not cut is read on into what follows it. -/
theorem cutStatements_append {reversed whole : List Char} {first : List Lexeme}
    (h : cutStatements reversed first = [whole]) (rest : List Lexeme) :
    cutStatements reversed (first ++ rest) =
      cutStatements ((sourceOf first).reverse ++ reversed) rest := by
  induction first generalizing reversed with
  | nil => rfl
  | cons lexeme first ih =>
    rw [cutStatements] at h
    split at h
    · exact absurd (List.cons.inj h).2 (cutStatements_ne_nil [] first)
    · rename_i hcut
      rw [List.cons_append, cutStatements, if_neg hcut, ih h, sourceOf_cons,
        List.reverse_append, List.append_assoc]

/-- A line feed before the text only lengthens the first piece. -/
theorem cutStatements_lineFeed (reversed : List Char) (lexemes : List Lexeme) :
    cutStatements (reversed ++ ['\n']) lexemes =
      (cutStatements reversed lexemes).modifyHead ('\n' :: ·) := by
  induction lexemes generalizing reversed with
  | nil => simp [cutStatements]
  | cons lexeme rest ih =>
    have hends : ∀ c ∈ ['\n'].getLast?, c = '\n' := by simp
    obtain ⟨hblank, hbefore⟩ :=
      line_reverse_append (getLast?_append_beforeLine (.inl hends))
    have hreverse : ['\n'].reverse = ['\n'] := rfl
    rw [hreverse] at hblank hbefore
    rw [cutStatements, cutStatements, hblank, hbefore]
    split
    · rfl
    · rw [← ih, List.append_assoc]

/-- A line of three dashes is read as a comment on a new line, with another new
line after it. -/
theorem lexemes_separator (after : List Char) :
    lexemes .sql (['-', '-', '-'] ++ '\n' :: after) =
      .enclosed .lineComment ['-', '-', '-'] true :: .code '\n' ::
        lexemes .sql after := by
  have hdashes : next? .sql ['-', '-', '-'] =
      some (.enclosed .lineComment ['-', '-', '-'] true, []) := by decide
  rw [lexemes_of_next? (next?_lineFeed hdashes rfl after), List.nil_append,
    lexemes_of_next? (next?_lineFeed_cons .sql after)]

theorem cutStatements_separator (reversed : List Char) (rest : List Lexeme) :
    cutStatements reversed (.code '\n' ::
      .enclosed .lineComment ['-', '-', '-'] true :: .code '\n' :: rest) =
      (reversed.reverse ++ ['\n']) ::
        (cutStatements [] rest).modifyHead ('\n' :: ·) := by
  have hfeed (reversed : List Char) (rest : List Lexeme) :
      cutStatements reversed (.code '\n' :: rest) =
        cutStatements ('\n' :: reversed) rest := rfl
  have hcut (rest : List Lexeme) : cutStatements ('\n' :: reversed)
      (.enclosed .lineComment ['-', '-', '-'] true :: rest) =
      ('\n' :: reversed).reverse :: cutStatements [] rest := rfl
  rw [hfeed, hcut, hfeed, List.reverse_cons]
  exact congrArg _ (cutStatements_lineFeed [] rest)

/-- A statement before a separator line is cut off the text. -/
theorem Joinable.cutStatements_join {statement : String}
    (h : Joinable statement) (after : List Char) :
    cutStatements []
      (lexemes .sql (statement.toList ++ "\n---\n".toList ++ after)) =
      (statement.toList ++ ['\n']) ::
        (cutStatements [] (lexemes .sql after)).modifyHead ('\n' :: ·) := by
  have hsource : sourceOf (lexemes .sql statement.toList) = statement.toList :=
    flatMap_text_lexemes .sql _
  have hjoined : statement.toList ++ "\n---\n".toList ++ after =
      statement.toList ++ '\n' :: (['-', '-', '-'] ++ '\n' :: after) := by
    rw [List.append_assoc]
    rfl
  rw [hjoined, lexemes_lineFeed h.terminated, lexemes_separator,
    cutStatements_append h.cutStatements_eq, cutStatements_separator, hsource,
    List.append_nil, List.reverse_reverse]

theorem trimChars_concat_lineFeed (text : List Char) :
    Text.trimChars (text ++ ['\n']) = Text.trimChars text := by
  have hend (text : List Char) : Text.trimEnd (text ++ ['\n']) =
      Text.trimEnd text := by
    rw [Text.trimEnd, List.reverse_concat]
    rfl
  rw [Text.trimChars, Text.trimStart, List.dropWhile_append]
  split
  · rename_i hblank
    rw [Text.trimChars, Text.trimStart, List.isEmpty_iff.1 hblank]
    rfl
  · exact hend _

theorem map_trimChars_modifyHead (pieces : List (List Char)) :
    (pieces.modifyHead ('\n' :: ·)).map Text.trimChars =
      pieces.map Text.trimChars := by
  cases pieces <;> rfl

theorem Joinable.trimChars_eq {statement : String} (h : Joinable statement) :
    Text.trimChars statement.toList = statement.toList := by
  have htrimmed := congrArg String.toList h.trimmed
  rwa [Text.trim, String.toList_ofList] at htrimmed

/-- The pieces of joined statements are the statements, with line feeds around
them. -/
theorem map_trimChars_join (statement : String) (statements : List String)
    (h : ∀ s ∈ statement :: statements, Joinable s) :
    (cutStatements [] (lexemes .sql
      ("\n---\n".intercalate (statement :: statements)).toList)).map
      Text.trimChars =
      (statement :: statements).map String.toList := by
  induction statements generalizing statement with
  | nil =>
    have hstatement := h statement List.mem_cons_self
    rw [String.toList_intercalate, List.map_singleton,
      List.intercalate_singleton, hstatement.cutStatements_eq,
      List.map_singleton, hstatement.trimChars_eq]
  | cons next statements ih =>
    obtain ⟨hstatement, hrest⟩ := List.forall_mem_cons.1 h
    have hnext := ih next hrest
    rw [String.toList_intercalate, List.map_cons] at hnext
    rw [String.toList_intercalate, List.map_cons, List.map_cons,
      List.intercalate_cons_cons, hstatement.cutStatements_join, List.map_cons,
      map_trimChars_modifyHead, trimChars_concat_lineFeed,
      hstatement.trimChars_eq, hnext]

/-- Joined statements are split into themselves. -/
theorem splitStatements_join {statements : List String}
    (h : ∀ s ∈ statements, Joinable s) :
    splitStatements ("\n---\n".intercalate statements) = statements := by
  cases statements with
  | nil => decide +kernel
  | cons statement statements =>
    rw [splitStatements, map_trimChars_join statement statements h,
      List.filterMap_map]
    have hkept : ∀ s ∈ statement :: statements,
        (if s.toList.isEmpty then none else some (String.ofList s.toList)) =
          some s := by
      intro s hs
      have hne : ¬ s.toList.isEmpty = true := by
        rw [List.isEmpty_iff]
        intro hnil
        exact (h s hs).nonempty (String.toList_inj.1 hnil)
      rw [if_neg hne, String.ofList_toList]
    exact (List.filterMap_congr hkept).trans List.filterMap_some

/-- Splitting loses nothing of a text and cuts it at its separator lines, and
nowhere else: the statements are the trimmed pieces that are not empty.
Statements that are joined by separator lines are split again. -/
theorem splitStatements_exact :
    (∀ sql : String, ∃ cut, TakenApart sql.toList cut ∧ splitStatements sql =
      (cut.pieces.map fun piece => Text.trim (String.ofList piece)).filter
        (· ≠ "")) ∧
      ∀ statements : List String, (∀ s ∈ statements, Joinable s) →
        splitStatements ("\n---\n".intercalate statements) = statements := by
  constructor
  · intro sql
    obtain ⟨cut, hcut, hpieces⟩ := exists_takenApart sql.toList
    refine ⟨cut, hcut, ?_⟩
    rw [hpieces]
    exact splitStatements_eq_filter sql
  · intro statements h
    exact splitStatements_join h

/-- Neither dashes in a quotation nor dashes after code end a statement. -/
theorem splitStatements_exact_quoted :
    splitStatements "SELECT '\n---\n'\n---\nSELECT 1 ---" =
      ["SELECT '\n---\n'", "SELECT 1 ---"] := by
  have hquoted : Joinable "SELECT '\n---\n'" :=
    ⟨by decide, by decide +kernel, by decide +kernel, by decide +kernel⟩
  have hafter : Joinable "SELECT 1 ---" :=
    ⟨by decide, by decide +kernel, by decide +kernel, by decide +kernel⟩
  apply splitStatements_exact.2 ["SELECT '\n---\n'", "SELECT 1 ---"]
  intro s hs
  rcases List.mem_pair.1 hs with rfl | rfl
  · exact hquoted
  · exact hafter

end SqlWorkflow.Sqlx
