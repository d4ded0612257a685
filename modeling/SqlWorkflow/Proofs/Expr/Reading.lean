import SqlWorkflow.Expr.Parser

/-!
# What the readers of expressions take off a text

Each reader of the expression language takes a value off the head of a text and
leaves a rest. Here is what every reader takes when the texts of the parts are
known and nothing has to be skipped between them: one lemma for each way in
which a reader can go on. The proofs about whole expressions follow from these,
so no reader has to be opened again.
-/

namespace SqlWorkflow.Expr

open Text (Parsed)

/-- The result of a reader: a value was taken off the text, and a rest is
left. -/
def Takes {α : Type} {text : List Char}
    (result : Except Failure (Parsed α text)) (value : α)
    (rest : List Char) : Prop :=
  ∃ shorter, result = .ok ⟨value, rest, shorter⟩

theorem takes_ok {α : Type} {text rest : List Char} {value : α}
    {p : Parsed α text} (hvalue : p.value = value)
    (hrest : p.rest = rest) : Takes (.ok p) value rest := by
  subst hvalue hrest
  exact ⟨p.shorter, rfl⟩

theorem Takes.map {α β : Type} {text : List Char}
    {result : Except Failure (Parsed α text)} {value : α} {rest : List Char}
    (h : Takes result value rest) (f : α → β) :
    Takes (result.map (Parsed.map f)) (f value) rest := by
  obtain ⟨hlt, heq⟩ := h
  exact ⟨hlt, by rw [heq]; rfl⟩

section Trivia

variable {text rest : List Char} {c d : Char}

theorem skipTrivia_of_not_startsTrivia (h : startsTrivia text = false) :
    skipTrivia text = text := by
  rw [skipTrivia, h]
  rfl

/-- Only a blank or a slash begins what is skipped. -/
theorem startsTrivia_cons (hslash : c ≠ '/')
    (hblank : Text.isAsciiBlank c = false) :
    startsTrivia (c :: rest) = false := by
  rw [startsTrivia]
  · exact hblank
  · rintro _ rfl
    exact absurd rfl hslash
  · rintro _ rfl
    exact absurd rfl hslash

/-- A text does not begin with something to be skipped, if its first character
is of a class to which neither the blanks nor the slash belong. -/
theorem startsTrivia_of_class (p : Char → Bool)
    (hp : ['/', ' ', '\t', '\n', '\x0c', '\r'].any p = false)
    (hc : p c = true) : startsTrivia (c :: rest) = false := by
  have hne : ∀ d ∈ ['/', ' ', '\t', '\n', '\x0c', '\r'], c ≠ d := by
    rintro d hd rfl
    exact List.any_eq_false.1 hp c hd hc
  simp only [List.forall_mem_cons] at hne
  obtain ⟨hslash, hspace, htab, hfeed, hform, hreturn, -⟩ := hne
  apply startsTrivia_cons hslash
  simp [Text.isAsciiBlank, hspace, htab, hfeed, hform, hreturn]

theorem eat?_self (h : startsTrivia (c :: rest) = false) :
    eat? c (c :: rest) = some rest := by
  rw [eat?, skipTrivia_of_not_startsTrivia h]
  exact if_pos rfl

theorem eat?_of_ne (h : startsTrivia (d :: rest) = false)
    (hne : d ≠ c) : eat? c (d :: rest) = none := by
  rw [eat?, skipTrivia_of_not_startsTrivia h]
  exact if_neg hne

theorem eat?_nil : eat? c [] = none := by
  rw [eat?, skipTrivia_of_not_startsTrivia rfl]

theorem takes_expect (h : eat? c text = some rest) :
    Takes (expect c text) () rest := by
  rw [expect]
  split
  · rename_i after hafter
    cases h.symm.trans hafter
    exact ⟨_, rfl⟩
  · rename_i hnone
    cases h.symm.trans hnone

theorem takes_afterTrivia_iff {α : Type} {reader : Reader α} {value : α} :
    Takes (reader.afterTrivia text) value rest ↔
      Takes (reader (skipTrivia text)) value rest := by
  rw [Reader.afterTrivia]
  constructor
  · rintro ⟨hlt, hread⟩
    cases hvalue : reader (skipTrivia text) with
    | error e =>
      rw [hvalue] at hread
      cases hread
    | ok p =>
      rw [hvalue] at hread
      cases hread
      exact takes_ok rfl rfl
  · rintro ⟨hlt, hread⟩
    rw [hread]
    exact ⟨Nat.lt_of_lt_of_le hlt (skipTrivia_length_le text), rfl⟩

theorem takes_afterTrivia {α : Type} {reader : Reader α} {value : α}
    (htext : startsTrivia text = false) (h : Takes (reader text) value rest) :
    Takes (reader.afterTrivia text) value rest := by
  rw [takes_afterTrivia_iff, skipTrivia_of_not_startsTrivia htext]
  exact h

end Trivia

/-- A word is taken up to the first character that cannot be part of it,
whatever is skipped before it. -/
theorem takes_readIdentifier_of_skipTrivia {c : Char}
    {word text rest : List Char} (hc : isIdentStart c = true)
    (hword : ∀ d ∈ word, isIdentPart d = true)
    (hrest : rest.takeWhile isIdentPart = [])
    (htext : skipTrivia text = c :: (word ++ rest)) :
    Takes (readIdentifier text) (String.ofList (c :: word)) rest := by
  have hdrop : rest.dropWhile isIdentPart = rest := by
    have happend := rest.takeWhile_append_dropWhile (p := isIdentPart)
    rwa [hrest] at happend
  have htake : (word ++ rest).takeWhile isIdentPart = word := by
    rw [List.takeWhile_append_of_pos hword, hrest, List.append_nil]
  have hleft : (word ++ rest).dropWhile isIdentPart = rest := by
    rw [List.dropWhile_append_of_pos hword, hdrop]
  rw [readIdentifier]
  split
  · rename_i d others hskipped
    cases htext.symm.trans hskipped
    rw [if_pos hc]
    exact takes_ok (by rw [htake]) hleft
  · rename_i hskipped
    cases htext.symm.trans hskipped

theorem takes_readIdentifier {c : Char} {word rest : List Char}
    (hc : isIdentStart c = true) (hword : ∀ d ∈ word, isIdentPart d = true)
    (hrest : rest.takeWhile isIdentPart = [])
    (htext : startsTrivia (c :: (word ++ rest)) = false) :
    Takes (readIdentifier (c :: (word ++ rest)))
      (String.ofList (c :: word)) rest :=
  takes_readIdentifier_of_skipTrivia hc hword hrest
    (skipTrivia_of_not_startsTrivia htext)

/-- The text up to the closing quotation mark, as it is written. -/
theorem takes_rawQuoted {quote : Char} {fault : Fault} {raw rest : List Char}
    (h : untilQuote? quote (raw ++ quote :: rest) = some (raw, rest)) :
    Takes (rawQuoted quote fault (quote :: (raw ++ quote :: rest))) raw
      rest := by
  rw [rawQuoted]
  split
  · rename_i written after hafter
    cases h.symm.trans hafter
    exact ⟨_, rfl⟩
  · rename_i hnone
    cases h.symm.trans hnone

/-- The string that the text up to the closing quotation mark stands for. -/
theorem takes_quotedString {quote : Char} {raw rest : List Char}
    (h : untilQuote? quote (raw ++ quote :: rest) = some (raw, rest)) :
    Takes (quotedString quote (quote :: (raw ++ quote :: rest)))
      (String.ofList (unescapeChars raw)) rest :=
  (takes_rawQuoted h).map _

/-- The sign at the head of a numeral. -/
def signOf : List Char → List Char
  | '-' :: _ => ['-']
  | _ => []

/-- The numeral at the head of a text, with its sign. -/
def numeralOf (text : List Char) : List Char :=
  signOf text ++ numeralChars (text.drop (signOf text).length)

/-- The numeral at the head of a text is taken, if it denotes a number. -/
theorem takes_readNumber {text written rest : List Char} {n : Json.Number}
    (htext : text = written ++ rest) (hne : written ≠ [])
    (hwritten : numeralOf text = written)
    (hn : numberOf? (written.filter (· != '_')) = some n) :
    Takes (readNumber text) n rest := by
  have hlength : 0 < (numeralOf text).length ∧ 0 < text.length := by
    have hpos := List.length_pos_iff.2 hne
    rw [hwritten, htext, List.length_append]
    exact ⟨hpos, Nat.add_pos_left hpos _⟩
  have hnumber : numberOf? ((numeralOf text).filter (· != '_')) = some n :=
    hwritten ▸ hn
  have hread : readNumber text = .ok ⟨n, text.drop (numeralOf text).length,
      by simp only [List.length_drop]; omega⟩ := by
    refine (dif_pos hlength).trans ?_
    split
    · rename_i m hm
      cases hm.symm.trans hnumber
      rfl
    · rename_i hnone
      cases hnone.symm.trans hnumber
  rw [hread]
  apply takes_ok rfl
  change text.drop (numeralOf text).length = rest
  rw [hwritten, htext, List.drop_left]

namespace Level

variable {level : Level} {text after rest : List Char}

section Lists

variable {close : Char} {item : Expr} {items : List Expr}

theorem takes_list_close (h : eat? close text = some rest) :
    Takes (level.list close text) [] rest := by
  rw [list]
  split
  · rename_i others hothers
    cases h.symm.trans hothers
    exact ⟨_, rfl⟩
  · rename_i hnone
    cases h.symm.trans hnone

/-- The last item of a list has the closing bracket after it. -/
theorem takes_list_last (hopen : eat? close text = none)
    (hitem : Takes (level.inner.afterTrivia text) item after)
    (hlast : eat? ',' after = none) (hclose : eat? close after = some rest) :
    Takes (level.list close text) [item] rest := by
  obtain ⟨hlt, hitem⟩ := hitem
  obtain ⟨hstop, hexpect⟩ := takes_expect hclose
  rw [list]
  split
  · rename_i others hothers
    cases hopen.symm.trans hothers
  · rw [hitem]
    dsimp only
    split
    · rename_i others hothers
      cases hlast.symm.trans hothers
    · rw [hexpect]
      exact ⟨_, rfl⟩

/-- Any other item has a comma after it, and then the rest of the list. -/
theorem takes_list_more (hopen : eat? close text = none) {tail : List Char}
    (hitem : Takes (level.inner.afterTrivia text) item after)
    (hmore : eat? ',' after = some tail)
    (hitems : Takes (level.list close tail) items rest) :
    Takes (level.list close text) (item :: items) rest := by
  obtain ⟨hlt, hitem⟩ := hitem
  obtain ⟨hshort, hitems⟩ := hitems
  rw [list]
  split
  · rename_i others hothers
    cases hopen.symm.trans hothers
  · rw [hitem]
    dsimp only
    split
    · rename_i others hothers
      cases hmore.symm.trans hothers
      rw [hitems]
      exact ⟨_, rfl⟩
    · rename_i hnone
      cases hmore.symm.trans hnone

end Lists

section Entries

variable {name : String} {value : Expr} {entries : List (String × Expr)}
  {colon item : List Char}

theorem takes_entries_close (h : eat? '}' text = some rest) :
    Takes (level.entries text) [] rest := by
  rw [Level.entries]
  split
  · rename_i others hothers
    cases h.symm.trans hothers
    exact ⟨_, rfl⟩
  · rename_i hnone
    cases h.symm.trans hnone

/-- The last entry of an object has the closing brace after it. -/
theorem takes_entries_last (hopen : eat? '}' text = none)
    (hkey : Takes (key text) name colon) (hcolon : eat? ':' colon = some item)
    (hvalue : Takes (level.inner item) value after)
    (hlast : eat? ',' after = none) (hclose : eat? '}' after = some rest) :
    Takes (level.entries text) [(name, value)] rest := by
  obtain ⟨hkeyShorter, hkey⟩ := hkey
  obtain ⟨hcolonShorter, hcolon⟩ := takes_expect hcolon
  obtain ⟨hvalueShorter, hvalue⟩ := hvalue
  obtain ⟨hstop, hexpect⟩ := takes_expect hclose
  rw [Level.entries]
  split
  · rename_i others hothers
    cases hopen.symm.trans hothers
  · rw [hkey]
    dsimp only
    rw [hcolon]
    dsimp only
    rw [hvalue]
    dsimp only
    split
    · rename_i others hothers
      cases hlast.symm.trans hothers
    · rw [hexpect]
      exact ⟨_, rfl⟩

/-- Any other entry has a comma after it, and then the rest of the entries. -/
theorem takes_entries_more (hopen : eat? '}' text = none)
    (hkey : Takes (key text) name colon) (hcolon : eat? ':' colon = some item)
    (hvalue : Takes (level.inner item) value after) {tail : List Char}
    (hmore : eat? ',' after = some tail)
    (hentries : Takes (level.entries tail) entries rest) :
    Takes (level.entries text) ((name, value) :: entries) rest := by
  obtain ⟨hkeyShorter, hkey⟩ := hkey
  obtain ⟨hcolonShorter, hcolon⟩ := takes_expect hcolon
  obtain ⟨hvalueShorter, hvalue⟩ := hvalue
  obtain ⟨hshort, hentries⟩ := hentries
  rw [Level.entries]
  split
  · rename_i others hothers
    cases hopen.symm.trans hothers
  · rw [hkey]
    dsimp only
    rw [hcolon]
    dsimp only
    rw [hvalue]
    dsimp only
    split
    · rename_i others hothers
      cases hmore.symm.trans hothers
      rw [hentries]
      exact ⟨_, rfl⟩
    · rename_i hnone
      cases hmore.symm.trans hnone

end Entries

section Primary

variable {c : Char} {tail : List Char}

theorem takes_primary_string {mark : Char} (hmark : mark = '\'' ∨ mark = '"')
    {value : String} (h : Takes (quotedString mark (mark :: tail)) value rest) :
    Takes (level.primary (mark :: tail)) (.string value) rest := by
  have htrivia : startsTrivia (mark :: tail) = false := by
    rcases hmark with rfl | rfl <;>
      exact startsTrivia_cons (by decide) (by decide)
  apply takes_afterTrivia htrivia
  dsimp only
  rw [if_pos hmark]
  exact h.map Expr.string

theorem takes_primary_template {raw : List Char} (h : Takes
      (rawQuoted '\x60' .unterminatedTemplate ('\x60' :: tail)) raw rest) :
    Takes (level.primary ('\x60' :: tail)) (.template (String.ofList raw))
      rest := by
  apply takes_afterTrivia (startsTrivia_cons (by decide) (by decide))
  dsimp only
  rw [if_neg (by decide), if_pos rfl]
  exact h.map fun raw => Expr.template (String.ofList raw)

theorem takes_primary_parentheses {e : Expr}
    (h : Takes (level.inner tail) e after)
    (hclose : eat? ')' after = some rest) :
    Takes (level.primary ('(' :: tail)) e rest := by
  obtain ⟨hlt, hinner⟩ := h
  obtain ⟨hstop, hexpect⟩ := takes_expect hclose
  apply takes_afterTrivia (startsTrivia_cons (by decide) (by decide))
  dsimp only
  rw [if_neg (by decide), if_neg (by decide), if_neg (by decide),
    if_neg (by decide), if_pos rfl, hinner]
  dsimp only
  rw [hexpect]
  exact ⟨_, rfl⟩

theorem takes_primary_array {items : List Expr}
    (h : Takes (level.list ']' tail) items rest) :
    Takes (level.primary ('[' :: tail)) (.array items) rest := by
  apply takes_afterTrivia (startsTrivia_cons (by decide) (by decide))
  dsimp only
  obtain ⟨hlt, heq⟩ := h
  rw [heq]
  exact ⟨_, rfl⟩

theorem takes_primary_object {entries : List (String × Expr)}
    (h : Takes (level.entries tail) entries rest) :
    Takes (level.primary ('{' :: tail)) (.object entries) rest := by
  apply takes_afterTrivia (startsTrivia_cons (by decide) (by decide))
  dsimp only
  obtain ⟨hlt, heq⟩ := h
  rw [heq]
  exact ⟨_, rfl⟩

theorem takes_primary_number {n : Json.Number}
    (hc : (c == '-' || c.isDigit) = true)
    (h : Takes (readNumber (c :: tail)) n rest) :
    Takes (level.primary (c :: tail)) (.number n) rest := by
  have hne (d : Char) (hd : (d == '-' || d.isDigit) = false) : c ≠ d := by
    rintro rfl
    cases hd.symm.trans hc
  apply takes_afterTrivia
    (startsTrivia_of_class (fun c => c == '-' || c.isDigit) (by decide) hc)
  dsimp only
  rw [if_neg (not_or.2 ⟨hne _ (by decide), hne _ (by decide)⟩),
    if_neg (hne _ (by decide)), if_neg (hne _ (by decide)),
    if_neg (hne _ (by decide)), if_neg (hne _ (by decide)), if_pos]
  · exact h.map Expr.number
  · rw [Bool.or_eq_true, beq_iff_eq] at hc
    exact hc.imp_right Or.inr

theorem takes_primary_word {word : String} (hc : isIdentStart c = true)
    (hdigit : c.isDigit = false)
    (h : Takes (readIdentifier (c :: tail)) word rest) :
    Takes (level.primary (c :: tail)) (ofWord word) rest := by
  have hne (d : Char) (hd : isIdentStart d = false) : c ≠ d := by
    rintro rfl
    cases hd.symm.trans hc
  apply takes_afterTrivia (startsTrivia_of_class isIdentStart (by decide) hc)
  dsimp only
  rw [if_neg (not_or.2 ⟨hne _ (by decide), hne _ (by decide)⟩),
    if_neg (hne _ (by decide)), if_neg (hne _ (by decide)),
    if_neg (hne _ (by decide)), if_neg (hne _ (by decide)), if_neg, if_pos hc]
  · exact h.map ofWord
  · simp [hne '-' (by decide), hne '.' (by decide), hdigit]

end Primary

section Applications

variable {head whole : Expr} {tail : List Char}

/-- What the members and calls at the head of a text make of an expression, and
the rest after them. -/
def Applies (level : Level) (head : Expr) (text : List Char) (whole : Expr)
    (rest : List Char) : Prop :=
  ∃ shorter, level.applications head text = .ok (whole, ⟨rest, shorter⟩)

theorem applies_nothing (hdot : eat? '.' text = none)
    (hcall : eat? '(' text = none) (hindex : eat? '[' text = none) :
    level.Applies head text head (skipTrivia text) := by
  rw [Applies, applications]
  split
  · rename_i heq
    cases hdot.symm.trans heq
  split
  · rename_i heq
    cases hcall.symm.trans heq
  split
  · rename_i heq
    cases hindex.symm.trans heq
  · exact ⟨skipTrivia_length_le text, rfl⟩

theorem applies_member {property : String} (hdot : eat? '.' text = some tail)
    (hproperty : Takes (readIdentifier tail) property after)
    (hmore : level.Applies (.member head property) after whole rest) :
    level.Applies head text whole rest := by
  obtain ⟨hlt, hproperty⟩ := hproperty
  obtain ⟨hshorter, hmore⟩ := hmore
  rw [Applies, applications]
  split
  · rename_i others hothers
    cases hdot.symm.trans hothers
    rw [hproperty]
    dsimp only
    rw [hmore]
    exact ⟨Nat.le_of_lt (Nat.lt_of_le_of_lt hshorter
      (Nat.lt_trans hlt (eat?_length_lt hdot))), rfl⟩
  · rename_i hnone
    cases hdot.symm.trans hnone

theorem applies_call {arguments : List Expr} (hdot : eat? '.' text = none)
    (hcall : eat? '(' text = some tail)
    (harguments : Takes (level.list ')' tail) arguments after)
    (hmore : level.Applies (.call head arguments) after whole rest) :
    level.Applies head text whole rest := by
  obtain ⟨hlt, harguments⟩ := harguments
  obtain ⟨hshorter, hmore⟩ := hmore
  rw [Applies, applications]
  split
  · rename_i heq
    cases hdot.symm.trans heq
  split
  · rename_i others hothers
    cases hcall.symm.trans hothers
    rw [harguments]
    dsimp only
    rw [hmore]
    exact ⟨Nat.le_of_lt (Nat.lt_of_le_of_lt hshorter
      (Nat.lt_trans hlt (eat?_length_lt hcall))), rfl⟩
  · rename_i hnone
    cases hcall.symm.trans hnone

theorem applies_computed {property : String} {stop : List Char}
    (hdot : eat? '.' text = none) (hcall : eat? '(' text = none)
    (hindex : eat? '[' text = some tail)
    (hkey : Takes (level.inner tail) (.string property) stop)
    (hclose : eat? ']' stop = some after)
    (hmore : level.Applies (.member head property) after whole rest) :
    level.Applies head text whole rest := by
  obtain ⟨hlt, hkey⟩ := hkey
  obtain ⟨hstop, hexpect⟩ := takes_expect hclose
  obtain ⟨hshorter, hmore⟩ := hmore
  rw [Applies, applications]
  split
  · rename_i heq
    cases hdot.symm.trans heq
  split
  · rename_i heq
    cases hcall.symm.trans heq
  split
  · rename_i others hothers
    cases hindex.symm.trans hothers
    rw [hkey]
    dsimp only
    rw [hexpect]
    dsimp only
    rw [hmore]
    have hkeyed := Nat.lt_trans hstop (Nat.lt_trans hlt (eat?_length_lt hindex))
    exact ⟨Nat.le_of_lt (Nat.lt_of_le_of_lt hshorter hkeyed), rfl⟩
  · rename_i hnone
    cases hindex.symm.trans hnone

theorem takes_expression_of_applies
    (hprimary : Takes (level.primary text) head after)
    (happlies : level.Applies head after whole rest) :
    Takes (level.expression text) whole rest := by
  obtain ⟨hlt, hprimary⟩ := hprimary
  obtain ⟨hshorter, happlies⟩ := happlies
  rw [expression, hprimary]
  dsimp only
  rw [happlies]
  exact ⟨_, rfl⟩

/-- An expression to which nothing is applied. -/
theorem takes_expression (h : Takes (level.primary text) head rest)
    (hrest : startsTrivia rest = false) (hdot : eat? '.' rest = none)
    (hcall : eat? '(' rest = none) (hindex : eat? '[' rest = none) :
    Takes (level.expression text) head rest := by
  have happlies : level.Applies head rest head (skipTrivia rest) :=
    applies_nothing hdot hcall hindex
  rw [skipTrivia_of_not_startsTrivia hrest] at happlies
  exact takes_expression_of_applies h happlies

end Applications

end Level

end SqlWorkflow.Expr
