import SqlWorkflow.Proofs.Expr.Reading

/-!
# Numbers and strings of JSON as expressions

Numbers and strings are written in JSON by rules of their own. Read as
expressions, they are what they were: a string ends at its closing mark and its
escapes stand for what they were written for, and an integer of 64 bits is read
up to the first character that is not part of a numeral.
-/

namespace SqlWorkflow.Expr

open Json (quotedChar intText)

section Escapes

theorem untilQuote?_cons {quote c : Char} (hquote : c ≠ quote)
    (hbackslash : c ≠ '\\') (text : List Char) :
    untilQuote? quote (c :: text) =
      (untilQuote? quote text).map fun (raw, after) => (c :: raw, after) := by
  rw [untilQuote?, if_neg hquote]
  · intro h
    exact absurd h hbackslash
  · intro _ _ h
    exact absurd h hbackslash

theorem unescapeChars_cons {c : Char} (h : c ≠ '\\') (text : List Char) :
    unescapeChars (c :: text) = c :: unescapeChars text := by
  rw [unescapeChars] <;> intros <;> contradiction

/-- A backslash and a character that begins no numeric escape. -/
theorem unescapeChars_short {c : Char} (hu : c ≠ 'u') (hx : c ≠ 'x')
    (text : List Char) :
    unescapeChars ('\\' :: c :: text) =
      shortEscape c ++ unescapeChars text := by
  rw [unescapeChars] <;> intros <;> contradiction

/-- An escape with four digits; it has no brace. -/
theorem unescapeChars_unicode {d : Char} (h : d ≠ '{') (text : List Char) :
    unescapeChars ('\\' :: 'u' :: d :: text) =
      numericEscape 'u' ((d :: text).take 4) ++
        unescapeChars ((d :: text).drop 4) := by
  rw [unescapeChars]
  intro rest heq
  exact h (List.cons.inj heq).1

/-- A digit that is written in base sixteen is read as itself. -/
theorem hexDigit?_hexChar :
    ∀ digit < 16, Text.hexDigit? (Text.hexChar digit) = some digit := by
  decide

theorem hexChar_ne :
    ∀ digit < 16, Text.hexChar digit ≠ '"' ∧ Text.hexChar digit ≠ '\\' := by
  decide

/-- The four digits of the code of a control character. -/
theorem numericEscape_control {c : Char} (h : c.toNat < 0x20) :
    numericEscape 'u' ['0', '0', Text.hexChar (c.toNat / 16),
      Text.hexChar (c.toNat % 16)] = [c] := by
  have hhigh := hexDigit?_hexChar (c.toNat / 16) (by omega)
  have hlow := hexDigit?_hexChar (c.toNat % 16) (by omega)
  have hcode : 16 * (16 * (16 * (16 * 0 + 0) + 0) + c.toNat / 16) + c.toNat %
      16 = c.toNat := by omega
  have hvalue : Text.hexValue?
      ['0', '0', Text.hexChar (c.toNat / 16), Text.hexChar (c.toNat % 16)] =
      some c.toNat := by
    have hzero : Text.hexDigit? '0' = some 0 := by decide
    simp only [Text.hexValue?, Text.hexFrom?, hzero, hhigh, hlow,
      Option.bind_some, hcode]
  have hchar : codeChar?
      ['0', '0', Text.hexChar (c.toNat / 16), Text.hexChar (c.toNat % 16)] =
      some c := by
    change (Text.hexValue? _).bind Text.charOf? = _
    rw [hvalue, Option.bind_some, Text.charOf?, if_pos (Or.inl (by omega)),
      Char.ofNat_toNat]
  rw [numericEscape, hchar]

/-- The forms in which a character is written inside a string. -/
inductive Spells (c : Char) : List Char → Prop
  | short (letter : Char) (hu : letter ≠ 'u') (hx : letter ≠ 'x')
      (h : shortEscape letter = [c]) : Spells c ['\\', letter]
  | control (h : c.toNat < 0x20) :
      Spells c ['\\', 'u', '0', '0', Text.hexChar (c.toNat / 16),
        Text.hexChar (c.toNat % 16)]
  | plain (hquote : c ≠ '"') (hbackslash : c ≠ '\\') : Spells c [c]

theorem spells_quotedChar (c : Char) : Spells c (quotedChar c) := by
  rw [quotedChar]
  split
  · subst c; exact .short '"' (by decide) (by decide) rfl
  split
  · subst c; exact .short '\\' (by decide) (by decide) rfl
  split
  · subst c; exact .short 'b' (by decide) (by decide) rfl
  split
  · subst c; exact .short 't' (by decide) (by decide) rfl
  split
  · subst c; exact .short 'n' (by decide) (by decide) rfl
  split
  · subst c; exact .short 'f' (by decide) (by decide) rfl
  split
  · subst c; exact .short 'r' (by decide) (by decide) rfl
  split
  · rename_i hcontrol
    exact .control hcontrol
  · rename_i hquote hbackslash _ _ _ _ _ _
    exact .plain hquote hbackslash

variable {c : Char} {spelling : List Char}

/-- No character of a string ends it. -/
theorem Spells.untilQuote?_append (h : Spells c spelling) (text : List Char) :
    untilQuote? '"' (spelling ++ text) =
      (untilQuote? '"' text).map fun (raw, after) =>
        (spelling ++ raw, after) := by
  cases h with
  | short letter => rfl
  | plain hquote hbackslash => exact untilQuote?_cons hquote hbackslash text
  | control hcontrol =>
    obtain ⟨hhigh, hhigh'⟩ := hexChar_ne (c.toNat / 16) (by omega)
    obtain ⟨hlow, hlow'⟩ := hexChar_ne (c.toNat % 16) (by omega)
    change untilQuote? '"' ('\\' :: 'u' :: '0' :: '0' :: _ :: _ :: text) = _
    rw [untilQuote?, untilQuote?_cons (by decide) (by decide),
      untilQuote?_cons (by decide) (by decide), untilQuote?_cons hhigh hhigh',
      untilQuote?_cons hlow hlow']
    simp only [Option.map_map]
    rfl

/-- Every character of a string stands for itself. -/
theorem Spells.unescapeChars_append (h : Spells c spelling) (text : List Char) :
    unescapeChars (spelling ++ text) = c :: unescapeChars text := by
  cases h with
  | short letter hu hx hletter =>
    rw [List.cons_append, List.cons_append, List.nil_append,
      unescapeChars_short hu hx, hletter]
    rfl
  | plain _ hbackslash => exact unescapeChars_cons hbackslash text
  | control hcontrol =>
    change unescapeChars ('\\' :: 'u' :: '0' :: '0' :: _ :: _ :: text) = _
    rw [unescapeChars_unicode (by decide)]
    change numericEscape 'u' _ ++ unescapeChars text = _
    exact congrArg (· ++ unescapeChars text) (numericEscape_control hcontrol)

end Escapes

theorem untilQuote?_quoted (s rest : List Char) :
    untilQuote? '"' (s.flatMap quotedChar ++ '"' :: rest) =
      some (s.flatMap quotedChar, rest) := by
  induction s with
  | nil => rfl
  | cons c cs ih =>
    rw [List.flatMap_cons, List.append_assoc,
      (spells_quotedChar c).untilQuote?_append, ih]
    rfl

theorem unescapeChars_quoted (s : List Char) :
    unescapeChars (s.flatMap quotedChar) = s := by
  induction s with
  | nil => rw [List.flatMap_nil, unescapeChars]
  | cons c cs ih =>
    rw [List.flatMap_cons, (spells_quotedChar c).unescapeChars_append, ih]

/-- A string of JSON is read as itself. -/
theorem takes_quoted (s : String) (rest : List Char) :
    Takes (quotedString '"' (Json.quoted s.toList ++ rest)) s rest := by
  have htext : Json.quoted s.toList ++ rest =
      '"' :: (s.toList.flatMap quotedChar ++ '"' :: rest) := by
    rw [Json.quoted, List.cons_append, List.append_assoc]
    rfl
  have hread := takes_quotedString (untilQuote?_quoted s.toList rest)
  rwa [unescapeChars_quoted, String.ofList_toList, ← htext] at hread

section Numerals

/-- Digits are taken up to the first character that is not part of a numeral. -/
theorem numeralChars_digits {digits rest : List Char}
    (hdigits : ∀ c ∈ digits, c.isDigit = true)
    (hrest : numeralChars rest = []) :
    numeralChars (digits ++ rest) = digits := by
  induction digits with
  | nil => exact hrest
  | cons c cs ih =>
    have hc := hdigits c List.mem_cons_self
    have hcs := ih fun d hd => hdigits d (List.mem_cons_of_mem c hd)
    have hexponent : (c == 'e' || c == 'E') = false := by
      rw [Bool.or_eq_false_iff, beq_eq_false_iff_ne, beq_eq_false_iff_ne]
      constructor <;> rintro rfl <;> cases hc
    cases hmore : cs ++ rest with
    | nil =>
      rw [List.append_eq_nil_iff] at hmore
      rw [hmore.1, hmore.2, List.append_nil, numeralChars, hc]
      rfl
    | cons d others =>
      rw [List.cons_append, hmore, numeralChars, hexponent, hc, ← hmore, hcs]
      rfl

/-- The value of digits is that which the library gives them. -/
theorem digitsValue_toDigits (n : Nat) :
    Decimal.digitsValue (Nat.toDigits 10 n) = n := by
  have hvalue := Nat.ofDigitChars_ten_toDigits (n := n)
  rwa [Nat.ofDigitChars_eq_foldl] at hvalue

theorem isDigit_of_mem_toDigits {n : Nat} {c : Char}
    (h : c ∈ Nat.toDigits 10 n) : c.isDigit = true :=
  Nat.isDigit_of_mem_toDigits (by decide) (by decide) h

/-- An integer is written in digits, after a minus sign if it is negative. -/
inductive Writes (n : Int) : List Char → Prop
  | digits {digits : List Char} (hne : digits ≠ [])
      (hdigits : ∀ c ∈ digits, c.isDigit = true)
      (hn : n = Decimal.digitsValue digits) : Writes n digits
  | negative {digits : List Char} (hne : digits ≠ [])
      (hdigits : ∀ c ∈ digits, c.isDigit = true)
      (hn : n = -Decimal.digitsValue digits) : Writes n ('-' :: digits)

theorem writes_intText (n : Int) : Writes n (intText n) := by
  cases n with
  | ofNat n =>
    apply Writes.digits Nat.toDigits_ne_nil fun _ => isDigit_of_mem_toDigits
    rw [digitsValue_toDigits]
    rfl
  | negSucc n =>
    apply Writes.negative Nat.toDigits_ne_nil fun _ => isDigit_of_mem_toDigits
    rw [digitsValue_toDigits]
    rfl

namespace Writes

variable {n : Int} {text rest : List Char}

theorem integer? (h : Writes n text) : Decimal.integer? text = some n := by
  cases h with
  | digits hne hdigits hn =>
    have hread : ¬(text.isEmpty ∨ (!text.all Char.isDigit) = true) := by
      simpa [hne] using hdigits
    rw [Decimal.integer?, if_neg hread, hn]
    rintro others rfl
    cases hdigits '-' List.mem_cons_self
  | @negative digits hne hdigits hn =>
    have hread : ¬(digits.isEmpty ∨ (!digits.all Char.isDigit) = true) := by
      simpa [hne] using hdigits
    rw [Decimal.integer?, if_neg hread, hn]

theorem filter_underscore (h : Writes n text) :
    text.filter (· != '_') = text := by
  have hdigit {digits : List Char} (hdigits : ∀ c ∈ digits, c.isDigit = true) :
      ∀ c ∈ digits, (c != '_') = true := by
    intro c hc
    rw [bne_iff_ne]
    rintro rfl
    cases hdigits '_' hc
  rw [List.filter_eq_self]
  cases h with
  | digits _ hdigits => exact hdigit hdigits
  | negative _ hdigits =>
    exact List.forall_mem_cons.2 ⟨by decide, hdigit hdigits⟩

/-- The text of an integer is a numeral, if what follows cannot continue it. -/
theorem numeralOf_append (h : Writes n text) (hrest : numeralChars rest = []) :
    numeralOf (text ++ rest) = text := by
  cases h with
  | negative hne hdigits =>
    exact congrArg ('-' :: ·) (numeralChars_digits hdigits hrest)
  | digits hne hdigits =>
    have hsign : signOf (text ++ rest) = [] := by
      cases text with
      | nil => cases hne rfl
      | cons d ds =>
        rw [List.cons_append, signOf]
        intro _ heq
        cases heq
        cases hdigits '-' List.mem_cons_self
    rw [numeralOf, hsign]
    exact numeralChars_digits hdigits hrest

end Writes

/-- An integer of 64 bits is read from every text that writes it. -/
theorem Writes.takes_readNumber {n : Int} {text : List Char} (h : Writes n text)
    (hlow : -0x8000000000000000 ≤ n) (hhigh : n < 0x8000000000000000)
    {rest : List Char} (hrest : numeralChars rest = []) :
    Takes (readNumber (text ++ rest)) (.int n) rest := by
  have hnumber : numberOf? (text.filter (· != '_')) = some (.int n) := by
    rw [h.filter_underscore, numberOf?, h.integer?]
    exact if_pos ⟨hlow, hhigh⟩
  have hne : text ≠ [] := by
    rintro rfl
    cases h with | digits hne => exact hne rfl
  exact Expr.takes_readNumber rfl hne (h.numeralOf_append hrest) hnumber

/-- The texts of integers begin with a digit or a minus sign. -/
theorem Writes.exists_head {n : Int} {text : List Char} (h : Writes n text) :
    ∃ c tail, text = c :: tail ∧ (c == '-' || c.isDigit) = true := by
  cases h with
  | negative => exact ⟨_, _, rfl, by decide⟩
  | digits hne hdigits =>
    cases text with
    | nil => cases hne rfl
    | cons d ds =>
      exact ⟨d, ds, rfl, by rw [hdigits d List.mem_cons_self, Bool.or_true]⟩

theorem Writes.takes_primary {n : Int} {text : List Char} (h : Writes n text)
    (hlow : -0x8000000000000000 ≤ n) (hhigh : n < 0x8000000000000000)
    (level : Level) {rest : List Char} (hrest : numeralChars rest = []) :
    Takes (level.primary (text ++ rest)) (.number (.int n)) rest := by
  have hread := h.takes_readNumber hlow hhigh hrest
  obtain ⟨c, tail, rfl, hc⟩ := h.exists_head
  exact Level.takes_primary_number hc hread

end Numerals

end SqlWorkflow.Expr
