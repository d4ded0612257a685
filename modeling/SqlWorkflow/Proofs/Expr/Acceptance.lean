import SqlWorkflow.Proofs.Expr.Document
import SqlWorkflow.Proofs.Expr.Grammar

/-!
# The reader accepts the whole grammar

Every text that writes an expression is read as this expression. A reader passes
over the blanks and comments between two tokens, and the text of a token ends
where the text after it cannot continue it. Members and calls are read after the
expression that they are applied to, so the induction over their texts carries
what the reader makes of all that follows.
-/

namespace SqlWorkflow.Expr

section Gaps

variable {gap text rest : List Char}

theorem skipTrivia_of_startsTrivia (h : startsTrivia text = true) :
    skipTrivia text = skipTrivia (skipOne text) := by
  rw [skipTrivia, if_pos h]

theorem startsTrivia_of_blank {c : Char} (hc : Text.isAsciiBlank c = true) :
    startsTrivia (c :: text) = true := by
  unfold startsTrivia
  split
  · rfl
  · rfl
  · rename_i heq
    cases heq
    exact hc
  · rename_i heq
    cases heq

/-- Blanks are passed over one by one, although a run of them is skipped at
once. -/
theorem skipTrivia_dropWhile (text : List Char) :
    skipTrivia (text.dropWhile Text.isAsciiBlank) = skipTrivia text := by
  cases text with
  | nil => rfl
  | cons c rest =>
    cases hc : Text.isAsciiBlank c with
    | false => rw [List.dropWhile_cons_of_neg (by simp [hc])]
    | true =>
      have hone : skipOne (c :: rest) =
          (c :: rest).dropWhile Text.isAsciiBlank := by
        rw [skipOne] <;> rintro _ heq <;> cases heq <;> cases hc
      rw [skipTrivia_of_startsTrivia (startsTrivia_of_blank hc), hone]

theorem skipTrivia_cons_of_blank {c : Char} (hc : Text.isAsciiBlank c = true)
    (text : List Char) : skipTrivia (c :: text) = skipTrivia text := by
  rw [← skipTrivia_dropWhile, List.dropWhile_cons_of_pos hc,
    skipTrivia_dropWhile]

theorem dropWhile_comment {comment : List Char} (h : '\n' ∉ comment)
    (rest : List Char) :
    (comment ++ '\n' :: rest).dropWhile (· != '\n') = '\n' :: rest := by
  rw [List.dropWhile_append_of_pos]
  · rfl
  · intro c hc
    rw [bne_iff_ne]
    rintro rfl
    exact h hc

theorem afterComment_append {comment : List Char}
    (h : ¬ ['*', '/'] <:+: comment) (rest : List Char) :
    skipOne.afterComment (comment ++ '*' :: '/' :: rest) = rest := by
  induction comment with
  | nil => rw [List.nil_append, skipOne.afterComment]
  | cons c cs ih =>
    have hcs : ¬ ['*', '/'] <:+: cs :=
      fun hin => h (hin.trans (List.suffix_cons c cs).isInfix)
    rw [List.cons_append, skipOne.afterComment]
    · exact ih hcs
    · rintro others rfl heq
      cases cs with
      | nil => cases heq
      | cons d ds =>
        cases heq
        exact h ⟨[], ds, rfl⟩

/-- What stands between two tokens is passed over. -/
theorem Gap.skipTrivia_append (h : Gap gap) (text : List Char) :
    skipTrivia (gap ++ text) = skipTrivia text := by
  induction h with
  | nil => rfl
  | blank hc _ ih => rw [List.cons_append, skipTrivia_cons_of_blank hc, ih]
  | @lineComment comment gap hcomment _ ih =>
    have htext : '/' :: '/' :: (comment ++ '\n' :: gap) ++ text =
        '/' :: '/' :: (comment ++ '\n' :: (gap ++ text)) := by simp
    rw [htext, skipTrivia_of_startsTrivia rfl, skipOne,
      dropWhile_comment hcomment, skipTrivia_cons_of_blank (by decide), ih]
  | @blockComment comment gap hcomment _ ih =>
    have htext : '/' :: '*' :: (comment ++ '*' :: '/' :: gap) ++ text =
        '/' :: '*' :: (comment ++ '*' :: '/' :: (gap ++ text)) := by simp
    rw [htext, skipTrivia_of_startsTrivia rfl, skipOne,
      afterComment_append hcomment, ih]

theorem Gap.eat?_append (h : Gap gap) (c : Char) (text : List Char) :
    eat? c (gap ++ text) = eat? c text := by
  rw [eat?, h.skipTrivia_append, ← eat?]

/-- A token of one character, wherever it stands. -/
theorem Gap.eat?_self (h : Gap gap) {c : Char}
    (hc : startsTrivia (c :: rest) = false) :
    eat? c (gap ++ c :: rest) = some rest := by
  rw [h.eat?_append, Expr.eat?_self hc]

theorem Gap.eat?_of_ne (h : Gap gap) {c d : Char}
    (hd : startsTrivia (d :: rest) = false) (hne : d ≠ c) :
    eat? c (gap ++ d :: rest) = none := by
  rw [h.eat?_append, Expr.eat?_of_ne hd hne]

theorem Gap.takes_afterTrivia {α : Type} {reader : Reader α} {value : α}
    (h : Gap gap) (hread : Takes (reader.afterTrivia text) value rest) :
    Takes (reader.afterTrivia (gap ++ text)) value rest := by
  rw [takes_afterTrivia_iff, h.skipTrivia_append]
  exact takes_afterTrivia_iff.1 hread

theorem Gap.takes_primary {level : Level} {e : Expr} (h : Gap gap)
    (hread : Takes (level.primary text) e rest) :
    Takes (level.primary (gap ++ text)) e rest :=
  h.takes_afterTrivia hread

end Gaps

section Words

/-- A word ends before a text that begins with no part of a word. -/
def EndsWord (rest : List Char) : Prop := rest.takeWhile isIdentPart = []

theorem endsWord_cons {c : Char} (hc : isIdentPart c = false)
    (rest : List Char) : EndsWord (c :: rest) :=
  List.takeWhile_cons_of_neg (by simp [hc])

theorem Gap.endsWord_append {gap rest : List Char} (h : Gap gap)
    (hrest : EndsWord rest) : EndsWord (gap ++ rest) := by
  cases h with
  | nil => exact hrest
  | @blank c _ hc =>
    apply endsWord_cons
    simp only [Text.isAsciiBlank, Bool.or_eq_true, beq_iff_eq] at hc
    rcases hc with (((rfl | rfl) | rfl) | rfl) | rfl <;> decide
  | lineComment | blockComment => exact endsWord_cons (by decide) _

/-- A numeral ends where a word ends, unless a point follows. -/
theorem numeralChars_of_endsWord {rest : List Char} (h : EndsWord rest)
    (hpoint : '.' ∉ rest.head?) : numeralChars rest = [] := by
  cases rest with
  | nil => rfl
  | cons c tail =>
    have hpart : isIdentPart c = false := by
      rw [Bool.eq_false_iff]
      intro hc
      rw [EndsWord, List.takeWhile_cons_of_pos hc] at h
      cases h
    have hne (d : Char) (hd : isIdentPart d = true) : c ≠ d := by
      rintro rfl
      cases hd.symm.trans hpart
    have hdigit : c.isDigit = false := by
      rw [Bool.eq_false_iff]
      intro hc
      simp [isIdentPart, Char.isAlphanum, hc] at hpart
    have hdot : c ≠ '.' := by
      rintro rfl
      exact hpoint rfl
    cases tail <;> simp [numeralChars, hdigit, hdot, hne 'e' (by decide),
      hne 'E' (by decide), hne '_' (by decide)]

theorem Gap.numeralChars_append {gap rest : List Char} (h : Gap gap)
    (hrest : EndsWord rest)
    (hpoint : '.' ∉ rest.head?) : numeralChars (gap ++ rest) = [] := by
  apply numeralChars_of_endsWord (h.endsWord_append hrest)
  cases h with
  | nil => exact hpoint
  | blank hc =>
    intro heq
    cases heq
    cases hc
  | lineComment | blockComment => exact nofun

end Words

section Strings

variable {mark : Char} {raw : List Char}

/-- A text between two marks is taken up to the second one. -/
theorem Unbroken.untilQuote?_append (h : Unbroken mark raw)
    (hmark : mark ≠ '\\') (rest : List Char) :
    untilQuote? mark (raw ++ mark :: rest) = some (raw, rest) := by
  induction h with
  | nil =>
    rw [List.nil_append, untilQuote?, if_pos rfl]
    · intro heq
      exact absurd heq hmark
    · intro _ _ heq
      exact absurd heq hmark
  | escaped c _ ih =>
    rw [List.cons_append, List.cons_append, untilQuote?, ih, Option.map_some]
  | plain hc hbackslash _ ih =>
    rw [List.cons_append, untilQuote?_cons hc hbackslash, ih, Option.map_some]

theorem unbroken_flatMap_escapedChar (mark : Char) (s : List Char) :
    Unbroken mark (s.flatMap (escapedChar mark)) := by
  induction s with
  | nil => exact .nil
  | cons c cs ih =>
    rw [List.flatMap_cons, escapedChar]
    split
    · exact .escaped c ih
    · rename_i hc
      rw [not_or] at hc
      exact .plain hc.2 hc.1 ih

/-- A backslash before a mark or before another backslash stands for what it
escapes. -/
theorem unescapeChars_flatMap_escapedChar (hmark : mark = '\'' ∨ mark = '"')
    (s : List Char) : unescapeChars (s.flatMap (escapedChar mark)) = s := by
  induction s with
  | nil => rw [List.flatMap_nil, unescapeChars]
  | cons c cs ih =>
    rw [List.flatMap_cons, escapedChar]
    split
    · rename_i hc
      have hself : c ≠ 'u' ∧ c ≠ 'x' ∧ shortEscape c = [c] := by
        rcases hc with rfl | rfl
        · decide
        · rcases hmark with rfl | rfl <;> decide
      rw [List.cons_append, List.cons_append, List.nil_append,
        unescapeChars_short hself.1 hself.2.1, hself.2.2, ih]
      rfl
    · rename_i hc
      rw [not_or] at hc
      rw [List.cons_append, List.nil_append, unescapeChars_cons hc.1, ih]

theorem WritesString.exists_takes {s : String} {text : List Char}
    (h : WritesString s text) :
    ∃ mark inside, (mark = '\'' ∨ mark = '"') ∧ text = mark :: inside ∧
      ∀ rest, Takes (quotedString mark (text ++ rest)) s rest := by
  cases h with
  | quoted mark hmark =>
    refine ⟨mark, _, hmark, rfl, ?_⟩
    intro rest
    have hbackslash : mark ≠ '\\' := by rcases hmark with rfl | rfl <;> decide
    have huntil :=
      (unbroken_flatMap_escapedChar mark s.toList).untilQuote?_append
        hbackslash rest
    have hread := takes_quotedString huntil
    rw [unescapeChars_flatMap_escapedChar hmark, String.ofList_toList] at hread
    rw [List.cons_append, List.append_assoc]
    exact hread

end Strings

section Names

variable {name : String} {text gap rest : List Char}

/-- The characters with which the text of an expression may begin. -/
def opensExpression (c : Char) : Bool :=
  isIdentStart c || c.isDigit || c ∈ ['-', '"', '\'', '\x60', '[', '{', '(']

/-- A text begins as an expression does. -/
def Begins (text : List Char) : Prop :=
  ∃ c tail, text = c :: tail ∧ opensExpression c = true

theorem Begins.append (h : Begins text)
    (rest : List Char) : Begins (text ++ rest) := by
  obtain ⟨c, tail, rfl, hc⟩ := h
  exact ⟨c, tail ++ rest, rfl, hc⟩

theorem Begins.startsTrivia_eq (h : Begins text) :
    startsTrivia text = false := by
  obtain ⟨c, tail, rfl, hc⟩ := h
  exact startsTrivia_of_class opensExpression (by decide) hc

theorem Begins.eat?_eq_none (h : Begins text) {c : Char}
    (hc : opensExpression c = false) : eat? c text = none := by
  have htrivia := h.startsTrivia_eq
  obtain ⟨d, tail, rfl, hd⟩ := h
  apply eat?_of_ne htrivia
  rintro rfl
  cases hc.symm.trans hd

theorem isDigit_of_isIdentStart {c : Char}
    (h : isIdentStart c = true) : c.isDigit = false := by
  simp only [isIdentStart, Bool.or_eq_true, beq_iff_eq] at h
  rcases h with (halpha | rfl) | rfl
  · have hletter : (65 : UInt32) ≤ c.val := by
      rcases (Bool.or_eq_true _ _).mp halpha with hupper | hlower
      · exact (of_decide_eq_true hupper).1
      · have hsmall : (97 : UInt32) ≤ c.val :=
          of_decide_eq_true ((Bool.and_eq_true _ _).mp hlower).1
        exact UInt32.le_trans (by decide) hsmall
    rw [Bool.eq_false_iff]
    intro hdigit
    have hfigure : c.val ≤ (57 : UInt32) :=
      of_decide_eq_true ((Bool.and_eq_true _ _).mp hdigit).2
    have hboth : (65 : UInt32) ≤ 57 := UInt32.le_trans hletter hfigure
    exact absurd hboth (by decide)
  · decide
  · decide

theorem WritesName.begins (h : WritesName name text) : Begins text := by
  cases h with
  | word hc => exact ⟨_, _, rfl, by simp [opensExpression, hc]⟩

theorem WritesName.takes_readIdentifier (h : WritesName name text)
    (hgap : Gap gap) (hrest : EndsWord rest) :
    Takes (readIdentifier (gap ++ (text ++ rest))) name rest := by
  have hskip := (h.begins.append rest).startsTrivia_eq
  cases h with
  | word hc hword hname =>
    subst hname
    apply takes_readIdentifier_of_skipTrivia hc hword hrest
    rw [hgap.skipTrivia_append, skipTrivia_of_not_startsTrivia hskip]
    rfl

theorem WritesName.takes_primary (h : WritesName name text) (level : Level)
    (hrest : EndsWord rest) :
    Takes (level.primary (text ++ rest)) (Level.ofWord name) rest := by
  have hread := h.takes_readIdentifier .nil hrest
  cases h with
  | word hc hword hname =>
    exact Level.takes_primary_word hc (isDigit_of_isIdentStart hc) hread

end Names

/-- A text that stops an expression: nothing, a comma or a closing bracket. -/
inductive Stop : List Char → Prop
  | nil : Stop []
  | mark {c : Char} (hc : c ∈ [',', ']', '}', ')'])
      (rest : List Char) : Stop (c :: rest)

namespace Stop

variable {stop gap : List Char} (h : Stop stop)
include h

theorem startsTrivia_eq : startsTrivia stop = false := by
  cases h with
  | nil => rfl
  | mark hc =>
    apply startsTrivia_of_class (fun c => decide (c ∈ [',', ']', '}', ')']))
      (by decide)
    exact decide_eq_true hc

theorem eat?_eq_none {c : Char}
    (hc : c ∉ [',', ']', '}', ')']) : eat? c stop = none := by
  have htrivia := h.startsTrivia_eq
  cases h with
  | nil => exact eat?_nil
  | mark hd =>
    apply eat?_of_ne htrivia
    rintro rfl
    exact hc hd

theorem endsWord : EndsWord stop := by
  cases h with
  | nil => rfl
  | mark hc =>
    apply endsWord_cons
    simp only [List.mem_cons, List.not_mem_nil, or_false] at hc
    rcases hc with rfl | rfl | rfl | rfl <;> decide

theorem point_not_mem : '.' ∉ stop.head? := by
  cases h with
  | nil => exact nofun
  | mark hc =>
    intro heq
    cases heq
    exact absurd hc (by decide)

/-- Neither a member nor a call follows before the stop. -/
theorem applies (hgap : Gap gap) (level : Level)
    (e : Expr) : level.Applies e (gap ++ stop) e stop := by
  have hnone {c : Char}
      (hc : c ∉ [',', ']', '}', ')']) : eat? c (gap ++ stop) = none := by
    rw [hgap.eat?_append, h.eat?_eq_none hc]
  have happlies : level.Applies e (gap ++ stop) e (skipTrivia (gap ++ stop)) :=
    Level.applies_nothing (hnone (by decide)) (hnone (by decide))
      (hnone (by decide))
  rwa [hgap.skipTrivia_append,
    skipTrivia_of_not_startsTrivia h.startsTrivia_eq] at happlies

end Stop

/-- A reader accepts all that is written in some way: it reads the expression
that a text writes, up to where the expression stops. -/
structure Accepts (reader : Reader Expr) (inner : Writing Expr) : Prop where
  begins {e : Expr} {text : List Char} (h : inner e text) : Begins text
  takes {e : Expr} {before text after stop : List Char} (hbefore : Gap before)
    (htext : inner e text) (hafter : Gap after) (hstop : Stop stop) :
    Takes (reader (before ++ (text ++ (after ++ stop)))) e stop

section Lists

variable {level : Level} {inner : Writing Expr}
  (hinner : Accepts level.inner inner)
include hinner

theorem Accepts.takes_afterTrivia {e : Expr}
    {before text after stop : List Char} (hbefore : Gap before)
    (htext : inner e text) (hafter : Gap after) (hstop : Stop stop) :
    Takes (level.inner.afterTrivia (before ++ (text ++ (after ++ stop)))) e
      stop :=
  hbefore.takes_afterTrivia
    (Expr.takes_afterTrivia ((hinner.begins htext).append _).startsTrivia_eq
      (hinner.takes .nil htext hafter hstop))

/-- Items are read up to the closing bracket. -/
theorem WritesList.takes_list {close : Char}
    (hclose : close = ']' ∨ close = ')') {items : List Expr} {text : List Char}
    (h : WritesList inner close items text) (rest : List Char) :
    Takes (level.list close (text ++ rest)) items rest := by
  have hmark : close ∈ [',', ']', '}', ')'] ∧ close ≠ ',' ∧
      opensExpression close = false := by
    rcases hclose with rfl | rfl <;> decide
  have hstop : Stop (close :: rest) := .mark hmark.1 rest
  induction h with
  | @nil gap hgap =>
    rw [List.append_assoc]
    exact Level.takes_list_close (hgap.eat?_self hstop.startsTrivia_eq)
  | @last item before text after hbefore htext hafter =>
    have hopen : eat? close (before ++ (text ++ (after ++ close :: rest))) =
        none := by
      rw [hbefore.eat?_append,
        ((hinner.begins htext).append _).eat?_eq_none hmark.2.2]
    have hitem := hinner.takes_afterTrivia hbefore htext hafter hstop
    have hsource : before ++ (text ++ (after ++ [close])) ++ rest =
        before ++ (text ++ (after ++ close :: rest)) := by simp
    rw [hsource]
    exact Level.takes_list_last hopen hitem (eat?_of_ne hstop.startsTrivia_eq
      hmark.2.1) (eat?_self hstop.startsTrivia_eq)
  | @more item items before text after tail hbefore htext hafter _ ih =>
    have hcomma : Stop (',' :: (tail ++ rest)) := .mark (by decide) _
    have hopen : eat? close
        (before ++ (text ++ (after ++ ',' :: (tail ++ rest)))) = none := by
      rw [hbefore.eat?_append,
        ((hinner.begins htext).append _).eat?_eq_none hmark.2.2]
    have hitem := hinner.takes_afterTrivia hbefore htext hafter hcomma
    have hsource : before ++ (text ++ (after ++ ',' :: tail)) ++ rest =
        before ++ (text ++ (after ++ ',' :: (tail ++ rest))) := by simp
    rw [hsource]
    exact Level.takes_list_more hopen hitem
      (eat?_self hcomma.startsTrivia_eq) ih

end Lists

section Entries

variable {level : Level} {inner : Writing Expr} {name : String}
  {key before rest : List Char}

theorem WritesString.begins {s : String} {text : List Char}
    (h : WritesString s text) : Begins text := by
  cases h with
  | quoted mark hmark =>
    exact ⟨_, _, rfl, by rcases hmark with rfl | rfl <;> decide⟩

theorem begins_key (h : WritesName name key ∨ WritesString name key) :
    Begins key :=
  h.elim WritesName.begins WritesString.begins

/-- A key is read up to its colon. -/
theorem takes_key_append (h : WritesName name key ∨ WritesString name key)
    (hbefore : Gap before) (hrest : EndsWord rest) :
    Takes (Level.key (before ++ (key ++ rest))) name rest := by
  apply hbefore.takes_afterTrivia
  apply takes_afterTrivia ((begins_key h).append rest).startsTrivia_eq
  rcases h with hname | hstring
  · have hread := hname.takes_readIdentifier .nil hrest
    cases hname with
    | @word c word hc =>
      have hne (d : Char) (hd : isIdentStart d = false) : c ≠ d := by
        rintro rfl
        cases hd.symm.trans hc
      have hdigit := isDigit_of_isIdentStart hc
      dsimp only [List.cons_append, List.head?_cons]
      split
      · rename_i heq
        exact absurd (Option.some.inj heq) (hne _ (by decide))
      · rename_i heq
        exact absurd (Option.some.inj heq) (hne _ (by decide))
      · rename_i heq
        cases heq
        rw [hdigit]
        exact hread
      · rename_i heq
        cases heq
  · obtain ⟨mark, inside, hmark, rfl, hread⟩ := hstring.exists_takes
    rcases hmark with rfl | rfl
    · exact hread rest
    · exact hread rest

/-- Entries are read up to the closing brace. -/
theorem WritesList.takes_entries (hinner : Accepts level.inner inner)
    {entries : List (String × Expr)} {text : List Char}
    (h : WritesList (WritesEntry inner) '}' entries text) (rest : List Char) :
    Takes (level.entries (text ++ rest)) entries rest := by
  have hstop : Stop ('}' :: rest) := .mark (by decide) rest
  have hcolonEnds (tail : List Char) : startsTrivia (':' :: tail) = false :=
    startsTrivia_cons (by decide) (by decide)
  have hcolonWord (tail : List Char) : EndsWord (':' :: tail) :=
    endsWord_cons (by decide) tail
  induction h with
  | @nil gap hgap =>
    rw [List.append_assoc]
    exact Level.takes_entries_close (hgap.eat?_self hstop.startsTrivia_eq)
  | @last item before text after hbefore hentry hafter =>
    cases hentry with
    | @entry name value key gap space text hkey hgap hspace htext =>
      have hsource : before ++
          (key ++ (gap ++ ':' :: (space ++ text)) ++ (after ++ ['}'])) ++ rest =
          before ++ (key ++ (gap ++ ':' ::
            (space ++ (text ++ (after ++ '}' :: rest))))) := by simp
      have hopen : eat? '}' (before ++ (key ++
          (gap ++ ':' :: (space ++ (text ++ (after ++ '}' :: rest)))))) =
          none := by
        rw [hbefore.eat?_append,
          ((begins_key hkey).append _).eat?_eq_none (by decide)]
      rw [hsource]
      exact Level.takes_entries_last hopen
        (takes_key_append hkey hbefore (hgap.endsWord_append (hcolonWord _)))
        (hgap.eat?_self (hcolonEnds _)) (hinner.takes hspace htext hafter hstop)
        (eat?_of_ne hstop.startsTrivia_eq (by decide))
        (eat?_self hstop.startsTrivia_eq)
  | @more item items before text after tail hbefore hentry hafter _ ih =>
    have hcomma : Stop (',' :: (tail ++ rest)) := .mark (by decide) _
    cases hentry with
    | @entry name value key gap space text hkey hgap hspace htext =>
      have hsource : before ++
          (key ++ (gap ++ ':' :: (space ++ text)) ++ (after ++ ',' :: tail)) ++
          rest = before ++ (key ++ (gap ++ ':' ::
            (space ++ (text ++ (after ++ ',' :: (tail ++ rest)))))) := by
        simp
      have hopen : eat? '}' (before ++ (key ++ (gap ++ ':' :: (space ++ (text ++
          (after ++ ',' :: (tail ++ rest))))))) = none := by
        rw [hbefore.eat?_append,
          ((begins_key hkey).append _).eat?_eq_none (by decide)]
      rw [hsource]
      exact Level.takes_entries_more hopen (takes_key_append hkey hbefore
        (hgap.endsWord_append (hcolonWord _))) (hgap.eat?_self (hcolonEnds _))
        (hinner.takes hspace htext hafter hcomma)
        (eat?_self hcomma.startsTrivia_eq) ih

end Entries

section Terms

variable {level : Level} {inner : Writing Expr}

theorem WritesTerm.begins {e : Expr} {text : List Char}
    (h : WritesTerm inner e text) : Begins text := by
  induction h with
  | nullWord | trueWord | falseWord | template | array | object | parentheses =>
    exact ⟨_, _, rfl, by decide⟩
  | ident hname => exact hname.begins
  | string htext => exact htext.begins
  | member _ _ _ _ ih | computed _ _ _ _ _ ih | call _ _ _ ih =>
    exact ih.append _

-- The induction is on the way of writing. A member or a call is written after
-- its base, so what follows the text of the base is one of those, and what the
-- reader makes of it is a hypothesis about the rest.
theorem WritesTerm.takes_expression (hinner : Accepts level.inner inner)
    {e : Expr} {text : List Char} (h : WritesTerm inner e text)
    {before rest final : List Char} {whole : Expr} (hbefore : Gap before)
    (hrest : EndsWord rest) (happlies : level.Applies e rest whole final) :
    Takes (level.expression (before ++ (text ++ rest))) whole final := by
  have hprimary {e : Expr} {text rest : List Char}
      (happlies : level.Applies e rest whole final)
      (htakes : Takes (level.primary (text ++ rest)) e rest) :
      Takes (level.expression (before ++ (text ++ rest))) whole final :=
    Level.takes_expression_of_applies (hbefore.takes_primary htakes) happlies
  have hword {name : String} {text rest : List Char}
      (hname : WritesName name text) (hrest : EndsWord rest)
      (happlies : level.Applies (Level.ofWord name) rest whole final) :
      Takes (level.expression (before ++ (text ++ rest))) whole final :=
    hprimary happlies (hname.takes_primary level hrest)
  induction h generalizing rest with
  | nullWord =>
    exact hword (.word (by decide) (List.all_eq_true.1 (by decide)) rfl)
      hrest happlies
  | trueWord =>
    exact hword (.word (by decide) (List.all_eq_true.1 (by decide)) rfl)
      hrest happlies
  | falseWord =>
    exact hword (.word (by decide) (List.all_eq_true.1 (by decide)) rfl)
      hrest happlies
  | @ident name text hname hnot =>
    have hident : Level.ofWord name = .ident name := by
      simp only [List.mem_cons, List.not_mem_nil, or_false, not_or] at hnot
      rw [Level.ofWord, if_neg hnot.1, if_neg hnot.2.1, if_neg hnot.2.2]
    exact hword hname hrest (hident ▸ happlies)
  | string htext =>
    obtain ⟨mark, inside, hmark, rfl, hread⟩ := htext.exists_takes
    exact hprimary happlies (Level.takes_primary_string hmark (hread rest))
  | @template raw hraw =>
    apply hprimary happlies
    have hread :
        Takes (level.primary ('\x60' :: (raw.toList ++ '\x60' :: rest)))
          (.template (String.ofList raw.toList)) rest :=
      Level.takes_primary_template
        (takes_rawQuoted (hraw.untilQuote?_append (by decide) rest))
    rw [String.ofList_toList] at hread
    rw [List.cons_append, List.append_assoc]
    exact hread
  | array hitems =>
    exact hprimary happlies
      (Level.takes_primary_array (hitems.takes_list hinner (.inl rfl) rest))
  | object hentries =>
    exact hprimary happlies
      (Level.takes_primary_object (hentries.takes_entries hinner rest))
  | @parentheses e gap text after hgap htext hafter =>
    apply hprimary happlies
    have hstop : Stop (')' :: rest) := .mark (by decide) rest
    have hsource : '(' :: (gap ++ (text ++ (after ++ [')']))) ++ rest =
        '(' :: (gap ++ (text ++ (after ++ ')' :: rest))) := by simp
    rw [hsource]
    exact Level.takes_primary_parentheses (hinner.takes hgap htext hafter hstop)
      (eat?_self hstop.startsTrivia_eq)
  | @member base property text gap after name _ hgap hafter hname ih =>
    have hsource : text ++ (gap ++ '.' :: (after ++ name)) ++ rest =
        text ++ (gap ++ '.' :: (after ++ (name ++ rest))) := by simp
    rw [hsource]
    apply ih (hgap.endsWord_append (endsWord_cons (by decide) _))
    exact Level.applies_member
      (hgap.eat?_self (startsTrivia_cons (by decide) (by decide)))
      (hname.takes_readIdentifier hafter hrest) happlies
  | @computed base property text gap inside key after _ hgap hinside hkey
    hafter ih =>
    have hsource : text ++
        (gap ++ '[' :: (inside ++ (key ++ (after ++ [']'])))) ++ rest =
        text ++
          (gap ++ '[' :: (inside ++ (key ++ (after ++ ']' :: rest)))) := by simp
    have hopen (tail : List Char) : startsTrivia ('[' :: tail) = false :=
      startsTrivia_cons (by decide) (by decide)
    have hstop : Stop (']' :: rest) := .mark (by decide) rest
    rw [hsource]
    apply ih (hgap.endsWord_append (endsWord_cons (by decide) _))
    exact Level.applies_computed (hgap.eat?_of_ne (hopen _) (by decide))
      (hgap.eat?_of_ne (hopen _) (by decide)) (hgap.eat?_self (hopen _))
      (hinner.takes hinside hkey hafter hstop)
      (eat?_self hstop.startsTrivia_eq) happlies
  | @call callee arguments text gap list _ hgap harguments ih =>
    have hsource : text ++ (gap ++ '(' :: list) ++ rest =
        text ++ (gap ++ '(' :: (list ++ rest)) := by simp
    have hopen (tail : List Char) : startsTrivia ('(' :: tail) = false :=
      startsTrivia_cons (by decide) (by decide)
    rw [hsource]
    apply ih (hgap.endsWord_append (endsWord_cons (by decide) _))
    exact Level.applies_call (hgap.eat?_of_ne (hopen _) (by decide))
      (hgap.eat?_self (hopen _))
      (harguments.takes_list hinner (.inr rfl) rest) happlies

end Terms

section Levels

variable {level : Level} {inner : Writing Expr}

theorem Writes.begins {n : Int} {text : List Char}
    (h : Writes n text) : Begins text := by
  obtain ⟨c, tail, rfl, hc⟩ := h.exists_head
  refine ⟨c, tail, rfl, ?_⟩
  rw [Bool.or_eq_true, beq_iff_eq] at hc
  rcases hc with rfl | hdigit
  · decide
  · simp [opensExpression, hdigit]

/-- The expressions of one level are accepted, if those inside them are. -/
theorem accepts_expression (hinner : Accepts level.inner inner) :
    Accepts level.expression (WritesLevel inner) where
  begins h := by
    cases h with
    | number _ _ htext => exact htext.begins
    | term hterm => exact hterm.begins
  takes hbefore h hafter hstop := by
    cases h with
    | number hlow hhigh htext =>
      have hrest :=
        hafter.numeralChars_append hstop.endsWord hstop.point_not_mem
      exact Level.takes_expression_of_applies
        (hbefore.takes_primary (htext.takes_primary hlow hhigh level hrest))
        (hstop.applies hafter level _)
    | term hterm =>
      exact hterm.takes_expression hinner hbefore
        (hafter.endsWord_append hstop.endsWord) (hstop.applies hafter level _)

theorem accepts_ofLevels (levels : Nat) :
    Accepts (ofLevels levels) (Written levels) := by
  induction levels with
  | zero => exact ⟨False.elim, fun _ h => h.elim⟩
  | succ levels ih => exact accepts_expression ih

/-- Every source that writes an expression is read as this expression. -/
theorem parse_of_source {source : String} {e : Expr}
    (h : Source e source.toList) : parse source = .ok e := by
  rw [parse]
  generalize source.toList = text at h
  cases h with
  | text hbefore htext hafter =>
    have hread := (accepts_ofLevels maxDepth).takes hbefore htext hafter .nil
    rw [List.append_nil] at hread
    exact parseChars_of_takes hread

end Levels

/-- An object with comments, a comma too many, parentheses, and strings in both
kinds of mark. -/
def commentedObject : String :=
  "\t\x7ba: [-7, (ref)('o\\'s',)[ \"k\"].x], // b\n\x7d/**/"

/-- The expression that the commented object is. -/
def commentedTree : Expr :=
  .object [("a", .array [.number (.int (-7)),
    .member (.member (.call (.ident "ref") [.string "o's"]) "k") "x"])]

theorem parse_of_source_commentedObject :
    Source commentedTree commentedObject.toList ∧
      parse commentedObject = .ok commentedTree := by
  have hblank (c : Char) (h : Text.isAsciiBlank c = true) : Gap [c] :=
    .blank h .nil
  have hname (c : Char)
      (h : isIdentStart c = true) : WritesName (String.ofList [c]) [c] :=
    .word h nofun rfl
  have hnumber : Written 254 (.number (.int (-7))) ['-', '7'] :=
    .number (by decide) (by decide) (.negative (List.cons_ne_nil _ _)
      (List.all_eq_true.1 (by decide)) (by decide))
  have hstring :
      Written 253 (.string "o's") ['\'', 'o', '\\', '\'', 's', '\''] :=
    .term (.string (.quoted '\'' (.inl rfl)))
  have hkey : Written 253 (.string "k") ['"', 'k', '"'] :=
    .term (.string (.quoted '"' (.inr rfl)))
  have hcallee : Written 253 (.ident "ref") ['r', 'e', 'f'] :=
    .term (.ident (.word (by decide) (List.all_eq_true.1 (by decide)) rfl)
      (by decide))
  have hcall : WritesTerm (Written 253) (.call (.ident "ref") [.string "o's"])
      "(ref)('o\\'s',)".toList :=
    .call (.parentheses .nil hcallee .nil) .nil
      (.more .nil hstring .nil (.nil .nil))
  have hitem : WritesTerm (Written 253)
      (.member (.member (.call (.ident "ref") [.string "o's"]) "k") "x")
      "(ref)('o\\'s',)[ \"k\"].x".toList :=
    .member (.computed hcall .nil (hblank ' ' rfl) hkey .nil) .nil .nil
      (hname 'x' rfl)
  have harray : Written 255 (.array [.number (.int (-7)),
      .member (.member (.call (.ident "ref") [.string "o's"]) "k") "x"])
      "[-7, (ref)('o\\'s',)[ \"k\"].x]".toList :=
    .term (.array (.more .nil hnumber .nil
      (.last (hblank ' ' rfl) (WritesLevel.term hitem) .nil)))
  have hcomment : Gap " // b\n".toList :=
    .blank rfl (@Gap.lineComment [' ', 'b'] [] (by decide) .nil)
  have hobject : Written 256 commentedTree
      "\x7ba: [-7, (ref)('o\\'s',)[ \"k\"].x], // b\n\x7d".toList :=
    .term (.object (.more .nil (WritesEntry.entry (.inl (hname 'a' rfl)) .nil
      (hblank ' ' rfl) harray) .nil (.nil hcomment)))
  have hafter : Gap "/**/".toList := @Gap.blockComment [] [] (by decide) .nil
  have hsource : Source commentedTree commentedObject.toList :=
    .text (hblank '\t' rfl) hobject hafter
  exact ⟨hsource, parse_of_source hsource⟩

end SqlWorkflow.Expr
