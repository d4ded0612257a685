import SqlWorkflow.Proofs.Expr.Reading
import SqlWorkflow.Proofs.Lexical.Balanced

/-!
# Readers pass over balanced stretches

The readers of expressions and the search for the brace that closes a block cut
a text at the same places: whatever a reader takes off a text is balanced for
the search. Comments, strings and templates are passed over as a whole by both,
and the only other texts with braces in them are objects, which are read brace
by brace.
-/

namespace SqlWorkflow.Expr

open Lexical
open Text (Parsed exists_of_map_eq_ok)

section Stretches

theorem rest_lineComment (text : List Char) :
    (Delimiter.lineComment.enclosure text).rest =
      text.dropWhile (· != '\n') := by
  induction text with
  | nil => rfl
  | cons c text ih =>
    rw [enclosure_cons, List.dropWhile_cons]
    by_cases hc : c = '\n'
    · subst hc
      rfl
    · have hopen : Delimiter.lineComment.closer.isPrefixOf (c :: text) =
          false := by
        simp [Delimiter.closer, List.isPrefixOf, Ne.symm hc]
      rw [hopen, if_pos (bne_iff_ne.2 hc)]
      exact ih

theorem rest_blockComment (text : List Char) :
    (Delimiter.blockComment.enclosure text).rest =
      skipOne.afterComment text := by
  fun_induction skipOne.afterComment text with
  | case1 rest =>
    rw [enclosure_cons]
    rfl
  | case2 c rest hopen ih =>
    have hnot : Delimiter.blockComment.closer.isPrefixOf (c :: rest) =
        false := by
      apply Bool.eq_false_iff.2
      intro hcloses
      obtain ⟨tail, htail⟩ := List.isPrefixOf_iff_prefix.1 hcloses
      cases htail
      exact hopen tail rfl rfl
    rw [enclosure_cons, hnot]
    exact ih
  | case3 => rfl

/-- The quotation that a mark opens. -/
def quotation? : Char → Option Delimiter
  | '\'' => some .single
  | '"' => some .double
  | '\x60' => some .backtick
  | _ => none

theorem rest_quotation {mark : Char} {d : Delimiter}
    (hd : quotation? mark = some d) {text raw after : List Char}
    (h : untilQuote? mark text = some (raw, after)) :
    (d.enclosure text).rest = after := by
  have hcloser : d.closer = [mark] ∧ d.ownCloser = [mark] ∧
      d.isComment = false ∧ mark ≠ '\\' := by
    unfold quotation? at hd
    split at hd <;> cases hd <;> decide
  obtain ⟨hcloser, hown, hquotes, hbackslash⟩ := hcloser
  fun_induction untilQuote? mark text generalizing raw with
  | case1 => cases h
  | case2 => cases h
  | case3 c rest ih =>
    obtain ⟨⟨inside, others⟩, hrest, heq⟩ := Option.map_eq_some_iff.1 h
    cases heq
    rw [enclosure_cons, hquotes]
    exact ih hrest
  | case4 rest _ _ =>
    cases h
    rw [enclosure_cons, hcloser, hown, if_neg (by simp [hbackslash]),
      if_pos (by simp [List.isPrefixOf])]
    rfl
  | case5 c rest halone hescape hc ih =>
    obtain ⟨⟨inside, others⟩, hrest, heq⟩ := Option.map_eq_some_iff.1 h
    cases heq
    have hnot : c ≠ '\\' := by
      rintro rfl
      cases rest with
      | nil => exact halone rfl rfl
      | cons e rest => exact hescape e rest rfl rfl
    rw [enclosure_cons, hcloser, if_neg (by simp [hnot]),
      if_neg (by simp [List.isPrefixOf, Ne.symm hc])]
    exact ih hrest

end Stretches

section Tokens

variable {text rest : List Char}

theorem balanced_skipOne (text : List Char) :
    Balanced .script text (skipOne text) := by
  unfold skipOne
  split
  · rename_i rest
    rw [← rest_lineComment]
    exact balanced_enclosure rfl
  · rename_i rest
    rw [← rest_blockComment]
    exact balanced_enclosure rfl
  · have hblank : ∀ c ∈ text.takeWhile Text.isAsciiBlank, c ∉
        scriptMarks := fun c hc =>
      not_mem_scriptMarks Text.isAsciiBlank (by decide)
        (List.all_eq_true.1 List.all_takeWhile c hc)
    have hrun := balanced_append hblank (text.dropWhile Text.isAsciiBlank)
    rwa [List.takeWhile_append_dropWhile] at hrun

theorem balanced_skipTrivia (text : List Char) :
    Balanced .script text (skipTrivia text) := by
  fun_induction skipTrivia text with
  | case1 text h ih => exact (balanced_skipOne text).trans ih
  | case2 text h => exact balanced_refl text

theorem balanced_eat? {c : Char}
    (h : eat? c text = some rest) : Balanced .script text (c :: rest) := by
  have htrivia := balanced_skipTrivia text
  rw [eat?] at h
  split at h
  · rename_i d others hskipped
    split at h
    · rename_i heq
      cases h
      rwa [hskipped, heq] at htrivia
    · cases h
  · cases h

/-- A character that is no mark is passed over. -/
theorem balanced_past {c : Char} (hc : c ∉ scriptMarks)
    (h : eat? c text = some rest) : Balanced .script text rest :=
  (balanced_eat? h).trans (balanced_cons hc rest)

/-- Whether a reader takes nothing but balanced stretches off the texts it
accepts. -/
def ReadsBalanced {α : Type} (reader : Reader α) : Prop :=
  ∀ text p, reader text = .ok p → Balanced .script text p.rest

theorem ReadsBalanced.map {α β : Type} {text : List Char}
    {result : Except Failure (Parsed α text)}
    (h : ∀ p, result = .ok p → Balanced .script text p.rest) {f : α → β}
    {q : Parsed β text} (hq : result.map (Parsed.map f) = .ok q) :
    Balanced .script text q.rest := by
  obtain ⟨p, hp, rfl⟩ := exists_of_map_eq_ok hq
  exact h p hp

theorem ReadsBalanced.afterTrivia {α : Type} {reader : Reader α}
    (h : ReadsBalanced reader) : ReadsBalanced reader.afterTrivia := by
  intro text p hp
  rw [Reader.afterTrivia] at hp
  obtain ⟨q, hq, rfl⟩ := exists_of_map_eq_ok hp
  exact (balanced_skipTrivia text).trans (h _ q hq)

theorem eat?_of_expect {c : Char} {p : Parsed Unit text}
    (h : expect c text = .ok p) : eat? c text = some p.rest := by
  rw [expect] at h
  split at h
  · rename_i rest hrest
    cases h
    exact hrest
  · cases h

theorem balanced_readIdentifier : ReadsBalanced readIdentifier := by
  intro text p hp
  rw [readIdentifier] at hp
  split at hp
  · rename_i c rest hskipped
    split at hp
    · rename_i hc
      cases hp
      have hword : ∀ d ∈ c :: rest.takeWhile isIdentPart, d ∉ scriptMarks := by
        rw [List.forall_mem_cons]
        refine ⟨not_mem_scriptMarks isIdentStart (by decide) hc, fun d hd => ?_⟩
        exact not_mem_scriptMarks isIdentPart (by decide)
          (List.all_eq_true.1 List.all_takeWhile d hd)
      have hrun := balanced_append hword (rest.dropWhile isIdentPart)
      rw [List.cons_append, List.takeWhile_append_dropWhile, ← hskipped] at hrun
      exact (balanced_skipTrivia text).trans hrun
    · cases hp
  · cases hp

/-- The characters of a numeral. -/
def isNumeralChar (c : Char) : Bool :=
  c.isDigit || c == '.' || c == 'e' || c == 'E' || c == '_' || c ==
    '+' || c == '-'

theorem numeralChars_prefix (text : List Char) :
    numeralChars text <+: text := by
  fun_induction numeralChars text with
  | case1 c d rest _ ih =>
    exact List.cons_prefix_cons.2 ⟨rfl, List.cons_prefix_cons.2 ⟨rfl, ih⟩⟩
  | case2 c d rest _ _ ih => exact List.cons_prefix_cons.2 ⟨rfl, ih⟩
  | case3 => exact List.nil_prefix
  | case4 => exact List.prefix_refl _
  | case5 => exact List.nil_prefix
  | case6 => exact List.nil_prefix

theorem isNumeralChar_of_mem_numeralChars (text : List Char) :
    ∀ c ∈ numeralChars text, isNumeralChar c = true := by
  fun_induction numeralChars text with
  | case1 c d rest h ih =>
    simp only [Bool.and_eq_true, Bool.or_eq_true] at h
    rw [List.forall_mem_cons, List.forall_mem_cons]
    refine ⟨?_, ?_, ih⟩
    · rcases h.1 with hc | hc <;> simp [isNumeralChar, hc]
    · rcases h.2 with hd | hd <;> simp [isNumeralChar, hd]
  | case2 c d rest _ h ih =>
    rw [List.forall_mem_cons]
    exact ⟨by simp [isNumeralChar, h], ih⟩
  | case3 => nofun
  | case4 c h =>
    rw [List.forall_mem_singleton]
    simp [isNumeralChar, h]
  | case5 => nofun
  | case6 => nofun

theorem numeralOf_append_drop (text : List Char) :
    numeralOf text ++ text.drop (numeralOf text).length = text := by
  apply List.prefix_iff_eq_append.1
  unfold numeralOf signOf
  split
  · exact List.cons_prefix_cons.2 ⟨rfl, numeralChars_prefix _⟩
  · exact numeralChars_prefix text

theorem isNumeralChar_of_mem_numeralOf {text : List Char} {c : Char}
    (h : c ∈ numeralOf text) : isNumeralChar c = true := by
  rcases List.mem_append.1 h with hsign | hnumeral
  · unfold signOf at hsign
    split at hsign
    · rw [List.mem_singleton.1 hsign]
      rfl
    · cases hsign
  · exact isNumeralChar_of_mem_numeralChars _ c hnumeral

/-- A number that was read leaves what stands after its numeral. -/
theorem rest_of_readNumber {text : List Char} {p : Parsed Json.Number text}
    (hp : readNumber text = .ok p) :
    p.rest = text.drop (numeralOf text).length := by
  by_cases hlength : 0 < (numeralOf text).length ∧ 0 < text.length
  · have hread := (dif_pos hlength).symm.trans hp
    split at hread
    · cases hread
      rfl
    · cases hread
  · have hread := (dif_neg hlength).symm.trans hp
    cases hread

theorem balanced_readNumber : ReadsBalanced readNumber := by
  intro text p hp
  have hnumeral : ∀ c ∈ numeralOf text, c ∉ scriptMarks := fun c hc =>
    not_mem_scriptMarks isNumeralChar (by decide)
      (isNumeralChar_of_mem_numeralOf hc)
  have hrun := balanced_append hnumeral (text.drop (numeralOf text).length)
  rw [numeralOf_append_drop] at hrun
  rw [rest_of_readNumber hp]
  exact hrun

theorem balanced_rawQuoted {mark : Char} {d : Delimiter}
    (hd : quotation? mark = some d) {fault : Fault} (rest : List Char)
    (p : Parsed (List Char) (mark :: rest))
    (hp : rawQuoted mark fault (mark :: rest) = .ok p) :
    Balanced .script (mark :: rest) p.rest := by
  have hopening : Dialect.script.opening? (mark :: rest) = some d ∧
      d.opener .script = [mark] := by
    unfold quotation? at hd
    split at hd <;> cases hd <;> exact ⟨rfl, rfl⟩
  have hquotation := balanced_enclosure hopening.1
  rw [hopening.2, List.length_singleton] at hquotation
  rw [rawQuoted] at hp
  split at hp
  · rename_i raw after hafter
    cases hp
    rwa [rest_quotation hd hafter] at hquotation
  · cases hp

theorem balanced_quotedString {mark : Char} {d : Delimiter}
    (hd : quotation? mark = some d) (rest : List Char)
    (p : Parsed String (mark :: rest))
    (hp : quotedString mark (mark :: rest) = .ok p) :
    Balanced .script (mark :: rest) p.rest :=
  ReadsBalanced.map (balanced_rawQuoted hd rest) hp

end Tokens

section Levels

variable {level : Level}

theorem balanced_key : ReadsBalanced Level.key := by
  apply ReadsBalanced.afterTrivia
  intro text p hp
  dsimp only at hp
  split at hp
  · rename_i hhead
    obtain ⟨rest, rfl⟩ := List.head?_eq_some_iff.1 hhead
    exact balanced_quotedString rfl rest p hp
  · rename_i hhead
    obtain ⟨rest, rfl⟩ := List.head?_eq_some_iff.1 hhead
    exact balanced_quotedString rfl rest p hp
  · split at hp
    · exact ReadsBalanced.map (balanced_readNumber text) hp
    · exact balanced_readIdentifier text p hp
  · exact balanced_readIdentifier text p hp

theorem balanced_list (hinner : ReadsBalanced level.inner) {close : Char}
    (hclose : close ∉ scriptMarks) (text : List Char)
    (p : Parsed (List Expr) text) (hp : level.list close text = .ok p) :
    Balanced .script text p.rest := by
  fun_induction Level.list level close text with
  | case1 text rest hrest =>
    cases hp
    exact balanced_past hclose hrest
  | case2 => cases hp
  | case3 => cases hp
  | case4 text _ item hitem after hafter _ items hitems ih =>
    cases hp
    have hfirst := (hinner.afterTrivia text item hitem).trans
      (balanced_past (by decide) hafter)
    exact hfirst.trans (ih items hitems)
  | case5 => cases hp
  | case6 text _ item hitem _ stop hstop =>
    cases hp
    exact (hinner.afterTrivia text item hitem).trans
      (balanced_past hclose (eat?_of_expect hstop))

theorem balanced_entry (hinner : ReadsBalanced level.inner) {text : List Char}
    {name : Parsed String text} {colon : Parsed Unit name.rest}
    {item : Parsed Expr colon.rest} (hname : Level.key text = .ok name)
    (hcolon : expect ':' name.rest = .ok colon)
    (hitem : level.inner colon.rest = .ok item) :
    Balanced .script text item.rest :=
  ((balanced_key text name hname).trans (balanced_past (by
    decide) (eat?_of_expect hcolon))).trans (hinner _ item hitem)

/-- What stands before the closing brace of an object is balanced. -/
theorem balanced_entries (hinner : ReadsBalanced level.inner) (text : List Char)
    (p : Parsed (List (String × Expr)) text) (hp : level.entries text = .ok p) :
    Balanced .script text ('}' :: p.rest) := by
  fun_induction Level.entries level text with
  | case1 text rest hrest =>
    cases hp
    exact balanced_eat? hrest
  | case2 => cases hp
  | case3 => cases hp
  | case4 => cases hp
  | case5 => cases hp
  | case6 text _ name hname colon hcolon item hitem _ after hafter _ more
    hmore ih =>
    cases hp
    have hvalue := (balanced_entry hinner hname hcolon hitem).trans
      (balanced_past (by decide) hafter)
    exact hvalue.trans (ih more hmore)
  | case7 => cases hp
  | case8 text _ name hname colon hcolon item hitem _ _ stop hstop =>
    cases hp
    exact (balanced_entry hinner hname hcolon hitem).trans
      (balanced_eat? (eat?_of_expect hstop))

theorem balanced_primary (hinner : ReadsBalanced level.inner) :
    ReadsBalanced level.primary := by
  apply ReadsBalanced.afterTrivia
  intro text p hp
  cases text with
  | nil => cases hp
  | cons c rest =>
    dsimp only at hp
    split at hp
    · rename_i hmark
      rcases hmark with rfl | rfl
      · exact ReadsBalanced.map (balanced_quotedString rfl rest) hp
      · exact ReadsBalanced.map (balanced_quotedString rfl rest) hp
    split at hp
    · rename_i hmark
      subst hmark
      exact ReadsBalanced.map (balanced_rawQuoted rfl rest) hp
    split at hp
    · rename_i hmark
      subst hmark
      obtain ⟨items, hitems, rfl⟩ := exists_of_map_eq_ok hp
      exact (balanced_cons (by decide) rest).trans
        (balanced_list hinner (by decide) rest items hitems)
    split at hp
    · rename_i hmark
      subst hmark
      obtain ⟨entries, hentries, rfl⟩ := exists_of_map_eq_ok hp
      exact balanced_braces (balanced_entries hinner rest entries hentries)
    split at hp
    · rename_i hmark
      subst hmark
      split at hp
      · cases hp
      · rename_i item hitem
        obtain ⟨stop, hstop, rfl⟩ := exists_of_map_eq_ok hp
        have hopen : Balanced .script ('(' :: rest) item.rest :=
          (balanced_cons (by decide) rest).trans (hinner rest item hitem)
        exact hopen.trans (balanced_past (by decide) (eat?_of_expect hstop))
    split at hp
    · exact ReadsBalanced.map (balanced_readNumber (c :: rest)) hp
    split at hp
    · exact ReadsBalanced.map (balanced_readIdentifier (c :: rest)) hp
    · cases hp

theorem balanced_applications (hinner : ReadsBalanced level.inner)
    (head whole : Expr) (text rest : List Char)
    (h : level.Applies head text whole rest) : Balanced .script text rest := by
  obtain ⟨hle, h⟩ := h
  fun_induction Level.applications level head text with
  | case1 => cases h
  | case2 => cases h
  | case3 head text tail hdot name hname _ _ _ _ hmore ih =>
    cases h
    have hmember := (balanced_past (by decide) hdot).trans
      (balanced_readIdentifier tail name hname)
    exact hmember.trans (ih _ hmore)
  | case4 => cases h
  | case5 => cases h
  | case6 head text _ tail hcall arguments harguments _ _ _ _ hmore ih =>
    cases h
    have hcalled := (balanced_past (by decide) hcall).trans
      (balanced_list hinner (by decide) tail arguments harguments)
    exact hcalled.trans (ih _ hmore)
  | case7 => cases h
  | case8 => cases h
  | case9 => cases h
  | case10 head text _ _ tail hindex item hitem stop hstop
    _ _ _ _ _ _ hmore ih =>
    cases h
    have hkey :=
      (balanced_past (by decide) hindex).trans (hinner tail item hitem)
    have hcomputed :=
      hkey.trans (balanced_past (by decide) (eat?_of_expect hstop))
    exact hcomputed.trans (ih _ hmore)
  | case11 => cases h
  | case12 head text =>
    cases h
    exact balanced_skipTrivia text

/-- An expression is one without anything applied to it, and what is applied to
this. -/
theorem exists_of_takes_expression {text rest : List Char} {whole : Expr}
    (h : Takes (level.expression text) whole rest) :
    ∃ head after, Takes (level.primary text) head after ∧
      level.Applies head after whole rest := by
  obtain ⟨hlt, h⟩ := h
  rw [Level.expression] at h
  split at h
  · cases h
  rename_i head hhead
  split at h
  · cases h
  rename_i hle happlies
  cases h
  exact ⟨head.value, head.rest, ⟨head.shorter, hhead⟩, ⟨hle, happlies⟩⟩

theorem balanced_expression (hinner : ReadsBalanced level.inner) :
    ReadsBalanced level.expression := by
  intro text p hp
  obtain ⟨head, after, ⟨_, hhead⟩, happlies⟩ :=
    exists_of_takes_expression ⟨p.shorter, hp⟩
  exact (balanced_primary hinner text _ hhead).trans
    (balanced_applications hinner _ _ _ _ happlies)

theorem balanced_ofLevels (levels : Nat) : ReadsBalanced (ofLevels levels) := by
  induction levels with
  | zero => nofun
  | succ levels ih => exact balanced_expression ih

/-- What begins with a brace is an object, as far as nothing is applied to
it. -/
theorem exists_entries_of_primary {tail rest : List Char} {head : Expr}
    (h : Takes (level.primary ('{' :: tail)) head rest) :
    ∃ entries, Takes (level.entries tail) entries rest ∧
      head = .object entries := by
  rw [Level.primary, takes_afterTrivia_iff, skipTrivia_of_not_startsTrivia
    (startsTrivia_cons (by decide) (by decide))] at h
  obtain ⟨hlt, h⟩ := h
  dsimp only at h
  rw [if_neg (by decide), if_neg (by decide), if_neg (by decide),
    if_pos rfl] at h
  obtain ⟨entries, hentries, heq⟩ := exists_of_map_eq_ok h
  cases heq
  exact ⟨entries.value, ⟨entries.shorter, hentries⟩, rfl⟩

/-- Nothing is applied to an expression at the end of a text. -/
theorem eq_of_applies_nil {head whole : Expr} {rest : List Char}
    (h : level.Applies head [] whole rest) : whole = head := by
  have hnothing : level.Applies head [] head (skipTrivia []) :=
    Level.applies_nothing eat?_nil eat?_nil eat?_nil
  obtain ⟨_, hnothing⟩ := hnothing
  obtain ⟨_, happlies⟩ := h
  cases hnothing.symm.trans happlies
  rfl

theorem exists_takes_of_parseChars {source : List Char} {e : Expr}
    (h : parseChars source = .ok e) :
    ∃ rest, Takes (ofLevels maxDepth source) e rest := by
  rw [parseChars] at h
  split at h
  · cases h
  rename_i p hp
  dsimp only at h
  split at h
  · cases h
    exact ⟨p.rest, p.shorter, hp⟩
  · cases h

/-- Between braces that match, the readers find an object, and nothing after
it. -/
theorem exists_object_of_closing? {body : List Char} {e : Expr}
    (hclosed : closing? .script 0 (body ++ ['}']) = some (body, []))
    (hparse : parseChars ('{' :: (body ++ ['}'])) = .ok e) :
    ∃ entries, e = .object entries ∧
      Takes (Level.primary ⟨ofLevels (maxDepth - 1)⟩ ('{' :: (body ++ ['}'])))
        e [] := by
  obtain ⟨rest, hread⟩ := exists_takes_of_parseChars hparse
  obtain ⟨head, after, hhead, happlies⟩ := exists_of_takes_expression hread
  obtain ⟨entries, hentries, rfl⟩ := exists_entries_of_primary hhead
  -- The readers and the search for the closing brace stop at the same place.
  obtain rfl : after = [] := by
    obtain ⟨hlt, hok⟩ := hentries
    obtain ⟨content, hcontent⟩ :=
      (balanced_entries (balanced_ofLevels _) _ _ hok).closing?
    exact (Prod.mk.inj (Option.some.inj (hclosed.symm.trans hcontent))).2.symm
  obtain rfl := eq_of_applies_nil happlies
  exact ⟨entries, rfl, hhead⟩

end Levels

end SqlWorkflow.Expr
