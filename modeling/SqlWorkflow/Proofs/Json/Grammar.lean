import SqlWorkflow.Json.Outline

/-!
# The grammar of JSON

A judgement tells what stands at the head of a text and what is left of the text
after it. The judgements here are those of JSON: numerals, quotations, scalars,
lists in brackets, and values whose brackets nest no deeper than a number of
levels. Objects keep their members as they are written, so a name may occur more
than once.

Numbers and strings are then shown to be read as the grammar has them.
-/

namespace SqlWorkflow.Json

/-- A judgement about the head of a text: what stands there, and what is left of
the text. -/
abbrev Heads (α : Type) := List Char → α → List Char → Prop

/-! ## Tokens -/

/-- One digit or more. -/
def Digits (text : List Char) : Prop := text ≠ [] ∧ ∀ c ∈ text, c.isDigit = true

/-- Zero, or digits that do not begin with zero. -/
inductive WholePart : List Char → Prop
  | zero : WholePart ['0']
  | digits {text : List Char} (h : Digits text)
      (hzero : text.head? ≠ some '0') : WholePart text

inductive Fraction : List Char → Prop
  | none : Fraction []
  | point {digits : List Char} (h : Digits digits) : Fraction ('.' :: digits)

inductive Exponent : List Char → Prop
  | none : Exponent []
  | power {letter : Char} {sign digits : List Char}
      (hletter : letter = 'e' ∨ letter = 'E')
      (hsign : sign = [] ∨ sign = ['+'] ∨ sign = ['-']) (h : Digits digits) :
      Exponent (letter :: (sign ++ digits))

inductive Numeral : List Char → Prop
  | numeral {sign whole fraction exponent : List Char}
      (hsign : sign = [] ∨ sign = ['-']) (hwhole : WholePart whole)
      (hfraction : Fraction fraction) (hexponent : Exponent exponent) :
      Numeral (sign ++ (whole ++ (fraction ++ exponent)))

/-- The text after a backslash. A character outside the basic plane is written
as two code units. -/
inductive EscapeAt : Heads Char
  | short {letter c : Char} (hletter : escapedChar? letter = some c)
      (rest : List Char) : EscapeAt (letter :: rest) c rest
  | unit {a b c d : Char} {code : Nat}
      (hcode : Text.hexValue? [a, b, c, d] = some code)
      (hleading : isLeading code = false) (htrailing : isTrailing code = false)
      (rest : List Char) :
      EscapeAt ('u' :: a :: b :: c :: d :: rest) (Char.ofNat code) rest
  | pair {a b c d a' b' c' d' : Char} {high low : Nat}
      (hhigh : Text.hexValue? [a, b, c, d] = some high)
      (hleading : isLeading high = true)
      (hlow : Text.hexValue? [a', b', c', d'] = some low)
      (htrailing : isTrailing low = true) (rest : List Char) :
      EscapeAt ('u' :: a :: b :: c :: d :: '\\' :: 'u' :: a' :: b' :: c' ::
        d' :: rest) (pairedChar high low) rest

/-- The text after an opening quotation mark: the characters that it stands for,
and what is left after the closing mark. -/
inductive QuotationAt : Heads (List Char)
  | close (rest : List Char) : QuotationAt ('"' :: rest) [] rest
  | plain {c : Char} {text s rest : List Char} (hmark : c ≠ '"')
      (hbackslash : c ≠ '\\') (hcontrol : 0x20 ≤ c.toNat)
      (h : QuotationAt text s rest) : QuotationAt (c :: text) (c :: s) rest
  | escaped {c : Char} {text after s rest : List Char}
      (hescape : EscapeAt text c after)
      (h : QuotationAt after s rest) : QuotationAt ('\\' :: text) (c :: s) rest

/-! ## Values -/

/-- A value without brackets. The number that a numeral stands for is the one
that is read. -/
inductive ScalarAt : Heads Json
  | null (rest : List Char) :
      ScalarAt ('n' :: 'u' :: 'l' :: 'l' :: rest) .null rest
  | true (rest : List Char) :
      ScalarAt ('t' :: 'r' :: 'u' :: 'e' :: rest) (.bool true) rest
  | false (rest : List Char) :
      ScalarAt ('f' :: 'a' :: 'l' :: 's' :: 'e' :: rest) (.bool false) rest
  | number {numeral rest after : List Char} {n : Number} (h : Numeral numeral)
      (hn : readNumber (numeral ++ rest) = .ok (n, after)) :
      ScalarAt (numeral ++ rest) (.number n) rest
  | string {text s rest : List Char} (h : QuotationAt text s rest) :
      ScalarAt ('"' :: text) (.string (String.ofList s)) rest

/-- The text inside a bracket, up to the closing one, with a comma between two
items; `first` tells that no item stands before. -/
inductive ListAt {α : Type} (item : Heads α)
    (close : Char) : Bool → Heads (List α)
  | close {first : Bool} {text rest : List Char}
      (h : skipBlanks text = close :: rest) :
      ListAt item close first text [] rest
  | first {text after rest : List Char} {a : α} {as : List α}
      (ha : item (skipBlanks text) a after)
      (has : ListAt item close false after as rest) :
      ListAt item close true text (a :: as) rest
  | next {text tail after rest : List Char} {a : α} {as : List α}
      (hcomma : skipBlanks text = ',' :: tail)
      (ha : item (skipBlanks tail) a after)
      (has : ListAt item close false after as rest) :
      ListAt item close false text (a :: as) rest

/-- A name, a colon and a value. -/
inductive MemberAt (value : Heads Json) : Heads (String × Json)
  | member {text s tail afterColon rest : List Char} {v : Json}
      (hname : QuotationAt text s tail)
      (hcolon : skipBlanks tail = ':' :: afterColon)
      (hvalue : value (skipBlanks afterColon) v rest) :
      MemberAt value ('"' :: text) (String.ofList s, v) rest

inductive CompoundAt (inner : Heads Json) : Heads Json
  | scalar {text rest : List Char} {v : Json}
      (h : ScalarAt text v rest) : CompoundAt inner text v rest
  | array {text rest : List Char} {items : List Json}
      (h : ListAt inner ']' true text items rest) :
      CompoundAt inner ('[' :: text) (.array items) rest
  | object {text rest : List Char} {members : Members}
      (h : ListAt (MemberAt inner) '\x7d' true text members rest) :
      CompoundAt inner ('\x7b' :: text) (.object members) rest

/-- A value with brackets that nest at most a number of levels. -/
def ValueAt : Nat → Heads Json
  | 0 => ScalarAt
  | levels + 1 => CompoundAt (ValueAt levels)

/-! ## Strings are read as the grammar has them -/

section Quotations

variable {text s rest : List Char}

theorem isTrailing_of_isLeading {code : Nat}
    (h : isLeading code = true) : isTrailing code = false := by
  simp only [isLeading, Bool.and_eq_true, decide_eq_true_eq] at h
  simp only [isTrailing, Bool.and_eq_false_iff, decide_eq_false_iff_not]
  omega

theorem readHex_cons {a b c d : Char} {code : Nat}
    (hcode : Text.hexValue? [a, b, c, d] = some code) (rest : List Char) :
    ∃ h, readHex (a :: b :: c :: d :: rest) = .ok ⟨code, rest, h⟩ := by
  rw [readHex]
  split
  · rename_i n hn
    cases hn.symm.trans hcode
    exact ⟨by simp only [List.length_cons]; omega, rfl⟩
  · rename_i hnone
    cases hnone.symm.trans hcode

theorem exists_of_readHex {p : Text.Parsed Nat text}
    (h : readHex text = .ok p) :
    ∃ a b c d, text = a :: b :: c :: d :: p.rest ∧
      Text.hexValue? [a, b, c, d] = some p.value := by
  unfold readHex at h
  split at h
  · rename_i a b c d rest
    split at h
    · rename_i n hn
      cases h
      exact ⟨a, b, c, d, rfl, hn⟩
    · cases h
  · split at h <;> cases h

theorem exists_of_readEscapeHead {p : Text.Parsed Unit text}
    (h : readEscapeHead text = .ok p) : text = '\\' :: 'u' :: p.rest := by
  unfold readEscapeHead at h
  split at h <;> cases h
  rfl

theorem EscapeAt.exists_readEscape {c : Char} (h : EscapeAt text c rest) :
    ∃ hlt, readEscape text = .ok ⟨c, rest, hlt⟩ := by
  cases h with
  | short hletter =>
    rename_i letter
    have hne : letter ≠ 'u' := by
      rintro rfl
      cases hletter
    rw [readEscape, if_neg hne, hletter]
    exact ⟨_, rfl⟩
  | unit hcode hleading htrailing =>
    obtain ⟨hlt, hread⟩ := readHex_cons hcode rest
    rw [readEscape, if_pos rfl, readUnicodeEscape, hread]
    dsimp only
    rw [if_neg (Bool.eq_false_iff.1 htrailing), hleading]
    exact ⟨_, rfl⟩
  | pair hhigh hleading hlow htrailing =>
    obtain ⟨hlow', hsecond⟩ := readHex_cons hlow rest
    rename_i a' b' c' d' high low
    obtain ⟨hhigh', hfirst⟩ :=
      readHex_cons hhigh ('\\' :: 'u' :: a' :: b' :: c' :: d' :: rest)
    have hhead : ∃ hlt,
        readEscapeHead ('\\' :: 'u' :: a' :: b' :: c' :: d' :: rest) =
          .ok ⟨(), a' :: b' :: c' :: d' :: rest, hlt⟩ := ⟨_, rfl⟩
    obtain ⟨hhead', hhead⟩ := hhead
    rw [readEscape, if_pos rfl, readUnicodeEscape, hfirst]
    dsimp only
    rw [if_neg (Bool.eq_false_iff.1 (isTrailing_of_isLeading hleading)),
      hleading, if_neg (by decide), hhead]
    dsimp only
    rw [hsecond]
    dsimp only
    rw [if_pos htrailing]
    generalize pairedChar high low = c
    exact ⟨_, rfl⟩

theorem escapeAt_of_readEscape {p : Text.Parsed Char text}
    (h : readEscape text = .ok p) : EscapeAt text p.value p.rest := by
  cases text with
  | nil => cases h
  | cons letter text =>
    rw [readEscape] at h
    split at h
    · rename_i hu
      subst hu
      obtain ⟨q, hq, rfl⟩ := Text.exists_of_map_eq_ok h
      unfold readUnicodeEscape at hq
      split at hq
      · cases hq
      rename_i first hfirst
      obtain ⟨a, b, c, d, htext, hhigh⟩ := exists_of_readHex hfirst
      split at hq
      · cases hq
      rename_i htrailing
      rw [Bool.not_eq_true] at htrailing
      split at hq
      · rename_i hleading
        cases hq
        have hunit :=
          EscapeAt.unit hhigh (by simpa using hleading) htrailing first.rest
        rw [← htext] at hunit
        exact hunit
      rename_i hleading
      split at hq
      · cases hq
      rename_i head hhead
      have hrest := exists_of_readEscapeHead hhead
      split at hq
      · cases hq
      rename_i second hsecond
      obtain ⟨a', b', c', d', heq, hlow⟩ := exists_of_readHex hsecond
      split at hq
      · rename_i hlast
        have hpair :=
          EscapeAt.pair hhigh (by simpa using hleading) hlow hlast second.rest
        rw [← heq, ← hrest, ← htext] at hpair
        generalize pairedChar first.value second.value = e at hpair hq
        cases hq
        exact hpair
      · cases hq
    · split at h
      · rename_i e he
        cases h
        exact .short he _
      · cases h

theorem QuotationAt.readQuotation_eq (h : QuotationAt text s rest) :
    readQuotation text = .ok (s, rest) := by
  induction h with
  | close rest => rw [readQuotation, if_pos rfl]
  | plain hmark hbackslash hcontrol _ ih =>
    rw [readQuotation, if_neg hmark, if_neg hbackslash,
      if_neg (Nat.not_lt.2 hcontrol), ih]
    rfl
  | escaped hescape _ ih =>
    obtain ⟨hlt, hread⟩ := hescape.exists_readEscape
    rw [readQuotation, if_neg (by decide), if_pos rfl, hread]
    dsimp only
    rw [ih]
    rfl

theorem quotationAt_of_readQuotation (h : readQuotation text = .ok (s, rest)) :
    QuotationAt text s rest := by
  fun_induction readQuotation text generalizing s with
  | case1 => cases h
  | case2 =>
    cases h
    exact .close _
  | case3 => cases h
  | case4 text p hp _ ih =>
    obtain ⟨⟨tail, after⟩, htail, heq⟩ := Text.exists_of_map_eq_ok h
    cases heq
    exact .escaped (escapeAt_of_readEscape hp) (ih htail)
  | case5 => cases h
  | case6 c text hmark hbackslash hcontrol ih =>
    obtain ⟨⟨tail, after⟩, htail, heq⟩ := Text.exists_of_map_eq_ok h
    cases heq
    exact .plain hmark hbackslash (Nat.not_lt.1 hcontrol) (ih htail)

theorem readQuotation_eq_ok_iff :
    readQuotation text = .ok (s, rest) ↔ QuotationAt text s rest :=
  ⟨quotationAt_of_readQuotation, QuotationAt.readQuotation_eq⟩

/-- A text without marks, backslashes and control characters is written as it
is. -/
theorem quotationAt_plain (h : ∀ c ∈ s, c ≠ '"' ∧ c ≠ '\\' ∧ 0x20 ≤ c.toNat)
    (rest : List Char) : QuotationAt (s ++ '"' :: rest) s rest := by
  induction s with
  | nil => exact .close rest
  | cons c s ih =>
    obtain ⟨⟨hmark, hbackslash, hcontrol⟩, h⟩ := List.forall_mem_cons.1 h
    exact .plain hmark hbackslash hcontrol (ih h)

/-- A code unit is passed over by itself, so a pair is passed over in two
steps. -/
theorem skipQuotation_unit {a b c d : Char} {code : Nat}
    (hcode : Text.hexValue? [a, b, c, d] = some code)
    {hlt : rest.length < text.length}
    (h : skipQuotation text = .ok ⟨(), rest, hlt⟩) :
    ∃ hlt, skipQuotation ('\\' :: 'u' :: a :: b :: c :: d :: text) =
      .ok ⟨(), rest, hlt⟩ := by
  obtain ⟨hshort, hread⟩ := readHex_cons hcode text
  have hescape : ∃ hle, skipEscape ('u' :: a :: b :: c :: d :: text) =
      .ok ⟨(), text, hle⟩ := by
    rw [skipEscape, if_pos rfl, hread]
    exact ⟨_, rfl⟩
  obtain ⟨hle, hescape⟩ := hescape
  rw [skipQuotation, if_neg (by decide), if_pos rfl, hescape]
  dsimp only
  rw [h]
  exact ⟨_, rfl⟩

theorem QuotationAt.exists_skipQuotation (h : QuotationAt text s rest) :
    ∃ hlt, skipQuotation text = .ok ⟨(), rest, hlt⟩ := by
  induction h with
  | close rest =>
    rw [skipQuotation, if_pos rfl]
    exact ⟨_, rfl⟩
  | plain hmark hbackslash hcontrol _ ih =>
    obtain ⟨hlt, ih⟩ := ih
    rw [skipQuotation, if_neg hmark, if_neg hbackslash,
      if_neg (Nat.not_lt.2 hcontrol), ih]
    exact ⟨_, rfl⟩
  | escaped hescape _ ih =>
    obtain ⟨hlt, ih⟩ := ih
    cases hescape with
    | unit hcode => exact skipQuotation_unit hcode ih
    | pair hhigh _ hlow =>
      obtain ⟨hsecond, hskip⟩ := skipQuotation_unit hlow ih
      exact skipQuotation_unit hhigh hskip
    | short hletter =>
      rename_i letter
      have hne : letter ≠ 'u' := by
        rintro rfl
        cases hletter
      rw [skipQuotation, if_neg (by decide), if_pos rfl, skipEscape,
        if_neg hne, hletter]
      rw [Option.isSome_some, if_pos rfl]
      dsimp only
      rw [ih]
      exact ⟨_, rfl⟩

/-- What is outlined as a quotation that can be read. -/
theorem outlineQuotation_eq_ok_iff {name : String} {p : Text.Parsed Unit text} :
    outlineQuotation text = .ok (.ok name, p) ↔
      ∃ s, name = String.ofList s ∧ QuotationAt text s p.rest := by
  constructor
  · intro h
    unfold outlineQuotation at h
    dsimp only at h
    split at h
    · cases h
    · rename_i q hskip
      injection h with h
      injection h with hvalue hq
      subst hq
      obtain ⟨⟨s, after⟩, hread, rfl⟩ := Text.exists_of_map_eq_ok hvalue
      have hquotation := quotationAt_of_readQuotation hread
      obtain ⟨hlt, hskipped⟩ := hquotation.exists_skipQuotation
      cases hskipped.symm.trans hskip
      exact ⟨s, rfl, hquotation⟩
  · rintro ⟨s, rfl, hquotation⟩
    obtain ⟨hlt, hskip⟩ := hquotation.exists_skipQuotation
    rw [outlineQuotation, hskip, hquotation.readQuotation_eq]
    rfl

end Quotations

/-! ## Numerals are passed over as the grammar has them -/

/-- A text that does not go on with a numeral. -/
def EndsNumeral (rest : List Char) : Prop :=
  ∀ c ∈ rest.head?, c.isDigit = false ∧ c ≠ '.' ∧ c ≠ 'e' ∧ c ≠ 'E'

section Numerals

variable {text digits rest : List Char}

theorem digits_takeWhile (h : startsWithDigit text = true) :
    Digits (text.takeWhile Char.isDigit) := by
  refine ⟨?_, List.all_eq_true.1 List.all_takeWhile⟩
  cases text with
  | nil => cases h
  | cons c text =>
    have hc : c.isDigit = true := h
    rw [List.takeWhile_cons_of_pos hc]
    exact List.cons_ne_nil _ _

theorem Digits.startsWithDigit_append (h : Digits digits) (rest : List Char) :
    startsWithDigit (digits ++ rest) = true := by
  obtain ⟨hne, hdigits⟩ := h
  cases digits with
  | nil => exact absurd rfl hne
  | cons c digits => exact hdigits c List.mem_cons_self

theorem EndsNumeral.startsWithDigit (h : EndsNumeral rest) :
    startsWithDigit rest = false := by
  cases rest with
  | nil => rfl
  | cons c rest => exact (h c rfl).1

theorem dropWhile_isDigit (hdigits : ∀ c ∈ digits, c.isDigit = true)
    (hrest : startsWithDigit rest = false) :
    (digits ++ rest).dropWhile Char.isDigit = rest := by
  rw [List.dropWhile_append_of_pos hdigits]
  cases rest with
  | nil => rfl
  | cons c rest => exact List.dropWhile_cons_of_neg (Bool.eq_false_iff.1 hrest)

theorem exists_sign (text : List Char) :
    ∃ sign, (sign = [] ∨ sign = ['+'] ∨ sign = ['-']) ∧
      text = sign ++ (Decimal.splitSign text).2 := by
  unfold Decimal.splitSign
  split
  · exact ⟨['-'], .inr (.inr rfl), rfl⟩
  · exact ⟨['+'], .inr (.inl rfl), rfl⟩
  · exact ⟨[], .inl rfl, rfl⟩

theorem Digits.splitSign_append (h : Digits digits) {sign : List Char}
    (hsign : sign = [] ∨ sign = ['+'] ∨ sign = ['-']) (rest : List Char) :
    (Decimal.splitSign (sign ++ (digits ++ rest))).2 = digits ++ rest := by
  rcases hsign with rfl | rfl | rfl
  · obtain ⟨hne, hdigits⟩ := h
    cases digits with
    | nil => exact absurd rfl hne
    | cons c digits =>
      have hc := hdigits c List.mem_cons_self
      unfold Decimal.splitSign
      split
      · rename_i heq
        cases heq
        cases hc
      · rename_i heq
        cases heq
        cases hc
      · rfl
  · rfl
  · rfl

theorem exists_of_skipExponent (h : skipExponent text = .ok rest) :
    ∃ exponent, Exponent exponent ∧ text = exponent ++ rest := by
  unfold skipExponent at h
  split at h
  · rename_i c tail
    split at h
    · rename_i hletter
      dsimp only at h
      split at h
      · rename_i hdigit
        cases h
        obtain ⟨sign, hsign, htail⟩ := exists_sign tail
        refine ⟨_, .power hletter hsign (digits_takeWhile hdigit), ?_⟩
        rw [List.cons_append, List.append_assoc,
          List.takeWhile_append_dropWhile, ← htail]
      · cases h
    · cases h
      exact ⟨[], .none, rfl⟩
  · cases h
    exact ⟨[], .none, rfl⟩

theorem Exponent.skipExponent_append {exponent : List Char}
    (h : Exponent exponent) (hrest : EndsNumeral rest) :
    skipExponent (exponent ++ rest) = .ok rest := by
  cases h with
  | none =>
    cases rest with
    | nil => rfl
    | cons c rest =>
      obtain ⟨-, -, he, hE⟩ := hrest c rfl
      exact if_neg (not_or.2 ⟨he, hE⟩)
  | power hletter hsign hdigits =>
    rw [List.cons_append, List.append_assoc, skipExponent, if_pos hletter]
    dsimp only
    rw [hdigits.splitSign_append hsign,
      if_pos (hdigits.startsWithDigit_append rest),
      dropWhile_isDigit hdigits.2 hrest.startsWithDigit]

/-- A numeral without the minus sign that may begin it. -/
def afterMinus (text : List Char) : List Char :=
  match text with
  | '-' :: rest => rest
  | _ => text

/-- What follows the whole part of a numeral. -/
def skipTail (text : List Char) : Except SyntaxError (List Char) :=
  match text with
  | '.' :: fraction =>
    if startsWithDigit fraction then
      skipExponent (fraction.dropWhile Char.isDigit)
    else faultWithin .invalidNumber fraction
  | _ => skipExponent text

theorem skipNumber_eq (text : List Char) :
    skipNumber text =
      match afterMinus text with
      | [] => faultBefore .invalidNumber []
      | c :: rest =>
        if c = '0' ∧ startsWithDigit rest = true then
          faultWithin .invalidNumber rest
        else if c.isDigit = true then
          skipTail (if c = '0' then rest else rest.dropWhile Char.isDigit)
        else faultWithin .invalidNumber (c :: rest) :=
  rfl

theorem exists_minus (text : List Char) :
    ∃ sign, (sign = [] ∨ sign = ['-']) ∧ text = sign ++ afterMinus text := by
  unfold afterMinus
  split
  · exact ⟨['-'], .inr rfl, rfl⟩
  · exact ⟨[], .inl rfl, rfl⟩

theorem exists_of_skipTail (h : skipTail text = .ok rest) :
    ∃ fraction exponent, Fraction fraction ∧ Exponent exponent ∧
      text = fraction ++ (exponent ++ rest) := by
  unfold skipTail at h
  split at h
  · rename_i tail
    split at h
    · rename_i hdigit
      obtain ⟨exponent, hexponent, htail⟩ := exists_of_skipExponent h
      refine ⟨_, exponent, .point (digits_takeWhile hdigit), hexponent, ?_⟩
      rw [List.cons_append, ← htail, List.takeWhile_append_dropWhile]
    · cases h
  · obtain ⟨exponent, hexponent, htext⟩ := exists_of_skipExponent h
    exact ⟨[], exponent, .none, hexponent, htext⟩

theorem Exponent.endsDigits {exponent : List Char} (h : Exponent exponent)
    (hrest : EndsNumeral rest) :
    ∀ c ∈ (exponent ++ rest).head?, c.isDigit = false ∧ c ≠ '.' := by
  cases h with
  | none => exact fun c hc => ⟨(hrest c hc).1, (hrest c hc).2.1⟩
  | power hletter _ _ =>
    intro c hc
    cases hc
    rcases hletter with rfl | rfl <;> decide

theorem skipTail_append {fraction exponent : List Char}
    (hfraction : Fraction fraction) (hexponent : Exponent exponent)
    (hrest : EndsNumeral rest) :
    skipTail (fraction ++ (exponent ++ rest)) = .ok rest := by
  have hends := hexponent.endsDigits hrest
  cases hfraction with
  | none =>
    rw [List.nil_append]
    unfold skipTail
    split
    · rename_i heq
      rw [heq] at hends
      exact absurd rfl (hends '.' rfl).2
    · exact hexponent.skipExponent_append hrest
  | point hdigits =>
    have hstop : startsWithDigit (exponent ++ rest) = false := by
      cases htext : exponent ++ rest with
      | nil => rfl
      | cons c tail =>
        rw [htext] at hends
        exact (hends c rfl).1
    rw [List.cons_append, skipTail, if_pos (hdigits.startsWithDigit_append _),
      dropWhile_isDigit hdigits.2 hstop]
    exact hexponent.skipExponent_append hrest

theorem exists_of_skipNumber (h : skipNumber text = .ok rest) :
    ∃ numeral, Numeral numeral ∧ text = numeral ++ rest := by
  obtain ⟨sign, hsign, htext⟩ := exists_minus text
  rw [skipNumber_eq] at h
  cases hbody : afterMinus text with
  | nil =>
    rw [hbody] at h
    cases h
  | cons c tail =>
    rw [hbody] at h htext
    dsimp only at h
    split at h
    · cases h
    split at h
    · rename_i hdigit
      obtain ⟨fraction, exponent, hfraction, hexponent, htail⟩ :=
        exists_of_skipTail h
      by_cases hc : c = '0'
      · rw [if_pos hc] at htail
        refine ⟨_, .numeral hsign .zero hfraction hexponent, ?_⟩
        rw [htext, htail, hc]
        simp
      · rw [if_neg hc] at htail
        have hdigits : Digits (c :: tail.takeWhile Char.isDigit) := by
          refine ⟨List.cons_ne_nil _ _, List.forall_mem_cons.2 ⟨hdigit, ?_⟩⟩
          exact List.all_eq_true.1 List.all_takeWhile
        have hhead : (c :: tail.takeWhile Char.isDigit).head? ≠ some '0' := by
          simpa using hc
        have hsplit : tail = tail.takeWhile Char.isDigit ++
            (fraction ++ (exponent ++ rest)) := by
          rw [← htail, List.takeWhile_append_dropWhile]
        refine ⟨_,
          .numeral hsign (.digits hdigits hhead) hfraction hexponent, ?_⟩
        simp only [List.append_assoc, List.cons_append]
        rw [← hsplit, htext]
    · cases h

theorem WholePart.exists_cons {whole : List Char} (h : WholePart whole) :
    ∃ c digits, whole = c :: digits ∧ c.isDigit = true ∧
      (∀ d ∈ digits, d.isDigit = true) ∧ (c = '0' → digits = []) := by
  cases h with
  | zero => exact ⟨'0', [], rfl, by decide, nofun, fun _ => rfl⟩
  | digits h hzero =>
    obtain ⟨hne, hdigits⟩ := h
    cases whole with
    | nil => exact absurd rfl hne
    | cons c digits =>
      obtain ⟨hc, hdigits⟩ := List.forall_mem_cons.1 hdigits
      refine ⟨c, digits, rfl, hc, hdigits, ?_⟩
      rintro rfl
      exact absurd rfl hzero

theorem afterMinus_append {sign : List Char} (hsign : sign = [] ∨ sign = ['-'])
    {c : Char} (hc : c.isDigit = true)
    (rest : List Char) : afterMinus (sign ++ c :: rest) = c :: rest := by
  rcases hsign with rfl | rfl
  · rw [List.nil_append]
    unfold afterMinus
    split
    · rename_i heq
      cases heq
      cases hc
    · rfl
  · rfl

theorem Numeral.skipNumber_append {numeral : List Char} (h : Numeral numeral)
    (hrest : EndsNumeral rest) : skipNumber (numeral ++ rest) = .ok rest := by
  cases h with
  | numeral hsign hwhole hfraction hexponent =>
    rename_i sign whole fraction exponent
    obtain ⟨c, digits, rfl, hc, hdigits, hzero⟩ := hwhole.exists_cons
    have htail := skipTail_append hfraction hexponent hrest
    have hstop : startsWithDigit (fraction ++ (exponent ++ rest)) = false := by
      cases hfraction with
      | none =>
        have hends := hexponent.endsDigits hrest
        cases htext : exponent ++ rest with
        | nil => rfl
        | cons d others =>
          rw [htext] at hends
          exact (hends d rfl).1
      | point => rfl
    have htext : sign ++ (c :: digits ++ (fraction ++ exponent)) ++ rest =
        sign ++ c :: (digits ++ (fraction ++ (exponent ++ rest))) := by
      simp
    rw [htext, skipNumber_eq, afterMinus_append hsign hc]
    dsimp only
    by_cases h0 : c = '0'
    · rw [hzero h0, List.nil_append, if_neg (by simp [hstop]), if_pos hc,
        if_pos h0, htail]
    · rw [if_neg (by simp [h0]), if_pos hc, if_neg h0,
        dropWhile_isDigit hdigits hstop, htail]

end Numerals

end SqlWorkflow.Json
