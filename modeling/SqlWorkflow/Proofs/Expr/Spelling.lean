import Mathlib.Data.List.Forall2
import Mathlib.Data.List.Induction
import SqlWorkflow.Proofs.Expr.Literal

/-!
# Ways of writing a string

A character of a string can be written as itself or as an escape of several
kinds. Every way of writing a string is read as that string, except that an
escape stands for a whole character: the two halves of a character outside the
basic plane are kept as they were written. So a text is read as the string that
it writes if and only if it writes no character in halves.
-/

namespace SqlWorkflow.Expr

/-- A numeral in base sixteen and its value, digit by digit. -/
inductive HexNumeral : List Char → Nat → Prop
  | nil : HexNumeral [] 0
  | digit {digits : List Char} {value : Nat} {c : Char} {d : Nat}
      (h : HexNumeral digits value) (hd : Text.hexDigit? c = some d) :
      HexNumeral (digits ++ [c]) (16 * value + d)

/-- The letters that stand for a character after a backslash. -/
def shortEscapes : List (Char × Char) :=
  [('n', '\n'), ('t', '\t'), ('r', '\r'), ('b', '\x08'), ('f', '\x0c'),
    ('v', '\x0b'), ('\\', '\\'), ('\'', '\''), ('"', '"'), ('\x60', '\x60')]

/-- The ways of writing a character as a whole. -/
inductive WritesChar (c : Char) : List Char → Prop
  | plain (hc : c ≠ '\\') : WritesChar c [c]
  | short {letter : Char}
      (h : (letter, c) ∈ shortEscapes) : WritesChar c ['\\', letter]
  | byte {digits : List Char} (hlength : digits.length = 2)
      (h : HexNumeral digits c.toNat) : WritesChar c ('\\' :: 'x' :: digits)
  | unit {digits : List Char} (hlength : digits.length = 4)
      (h : HexNumeral digits c.toNat) : WritesChar c ('\\' :: 'u' :: digits)
  | braced {digits : List Char} (hdigits : digits ≠ [])
      (hlength : digits.length ≤ 6) (h : HexNumeral digits c.toNat) :
      WritesChar c ('\\' :: 'u' :: '{' :: (digits ++ ['}']))

/-- A character outside the basic plane is written in two halves, each as an
escape of four digits. -/
inductive WritesHalves (c : Char) : List Char → Prop
  | pair {first second : List Char} {high low : Nat} (hfirst : first.length = 4)
      (hsecond : second.length = 4) (hhigh : HexNumeral first high)
      (hlow : HexNumeral second low) (hleading : 0xD800 ≤ high ∧ high ≤ 0xDBFF)
      (htrailing : 0xDC00 ≤ low ∧ low ≤ 0xDFFF)
      (hcode : c.toNat = 0x10000 + (high - 0xD800) * 0x400 + (low - 0xDC00)) :
      WritesHalves c ('\\' :: 'u' :: (first ++ '\\' :: 'u' :: second))

section Numerals

theorem hexFrom?_append (high : Nat) (first second : List Char) :
    Text.hexFrom? high (first ++ second) =
      (Text.hexFrom? high first).bind fun value =>
        Text.hexFrom? value second := by
  induction first generalizing high with
  | nil => rfl
  | cons c first ih =>
    simp only [List.cons_append, Text.hexFrom?, Option.bind_assoc, ih]

theorem hexNumeral_iff {digits : List Char} {value : Nat} :
    HexNumeral digits value ↔ Text.hexFrom? 0 digits = some value := by
  constructor
  · intro h
    induction h with
    | nil => rfl
    | digit _ hd ih =>
      simp only [hexFrom?_append, ih, Text.hexFrom?, hd, Option.bind_some]
  · intro h
    induction digits using List.reverseRecOn generalizing value with
    | nil =>
      cases h
      exact .nil
    | append_singleton digits c ih =>
      rw [hexFrom?_append, Option.bind_eq_some_iff] at h
      obtain ⟨high, hhigh, hlast⟩ := h
      obtain ⟨d, hd, hvalue⟩ := Option.bind_eq_some_iff.1 hlast
      cases hvalue
      exact .digit (ih hhigh) hd

theorem HexNumeral.isSome_of_mem {digits : List Char} {value : Nat}
    (h : HexNumeral digits value) :
    ∀ c ∈ digits, (Text.hexDigit? c).isSome := by
  induction h with
  | nil => nofun
  | digit _ hd ih =>
    intro c hc
    rcases List.mem_append.1 hc with hc | hc
    · exact ih c hc
    · rw [List.mem_singleton.1 hc, hd]
      rfl

/-- No digit is one of the other characters of an escape. -/
theorem HexNumeral.ne_of_mem {digits : List Char} {value : Nat}
    (h : HexNumeral digits value) {c : Char}
    (hc : c ∈ digits) : c ≠ '+' ∧ c ≠ '{' ∧ c ≠ '}' := by
  have hsome := h.isSome_of_mem c hc
  refine ⟨?_, ?_, ?_⟩ <;> rintro rfl <;> cases hsome

theorem HexNumeral.codeChar?_eq {digits : List Char} {value : Nat}
    (h : HexNumeral digits value)
    (hdigits : digits ≠ []) : codeChar? digits = Text.charOf? value := by
  have hvalue : Text.hexValue? digits = some value := by
    rw [← hexNumeral_iff.1 h, Text.hexValue?]
    exact hdigits
  unfold codeChar?
  split
  · exact absurd rfl (h.ne_of_mem List.mem_cons_self).1
  · rw [hvalue, Option.bind_some]

theorem charOf?_toNat (c : Char) : Text.charOf? c.toNat = some c := by
  have hvalid : c.toNat < 0xD800 ∨
      (0xDFFF < c.toNat ∧ c.toNat < 0x110000) := c.valid
  rw [Text.charOf?, if_pos hvalid, Char.ofNat_toNat]

/-- An escape with the code of a character stands for the character. -/
theorem HexNumeral.numericEscape_eq {digits : List Char} {c : Char}
    (h : HexNumeral digits c.toNat) (hdigits : digits ≠ [])
    (letter : Char) : numericEscape letter digits = [c] := by
  rw [numericEscape, h.codeChar?_eq hdigits, charOf?_toNat]

/-- An escape with the code of half a character stands for nothing, and is
kept. -/
theorem HexNumeral.numericEscape_of_surrogate {digits : List Char} {value : Nat}
    (h : HexNumeral digits value) (hdigits : digits ≠ [])
    (hvalue : 0xD800 ≤ value ∧ value ≤ 0xDFFF) (letter : Char) :
    numericEscape letter digits = '\\' :: letter :: digits := by
  have hnone : Text.charOf? value = none := by
    rw [Text.charOf?, if_neg (by omega)]
  rw [numericEscape, h.codeChar?_eq hdigits, hnone]

end Numerals

section Escapes

theorem unescapeChars_byte {digits : List Char} (h : digits.length = 2)
    (rest : List Char) :
    unescapeChars ('\\' :: 'x' :: (digits ++ rest)) =
      numericEscape 'x' digits ++ unescapeChars rest := by
  rw [unescapeChars, List.take_left' h, List.drop_left' h]

theorem unescapeChars_unit {digits : List Char} {value : Nat}
    (h : HexNumeral digits value) (hlength : digits.length = 4)
    (rest : List Char) :
    unescapeChars ('\\' :: 'u' :: (digits ++ rest)) =
      numericEscape 'u' digits ++ unescapeChars rest := by
  rw [unescapeChars, List.take_left' hlength, List.drop_left' hlength]
  intro tail hbrace
  cases digits with
  | nil => cases hlength
  | cons c digits =>
    exact (h.ne_of_mem List.mem_cons_self).2.1 (List.cons.inj hbrace).1

theorem unescapeChars_braced {digits : List Char} {value : Nat}
    (h : HexNumeral digits value) (rest : List Char) :
    unescapeChars ('\\' :: 'u' :: '{' :: (digits ++ '}' :: rest)) =
      numericEscape 'u' digits ++ unescapeChars rest := by
  have hdigits : ∀ c ∈ digits, (c != '}') = true :=
    fun c hc => bne_iff_ne.2 (h.ne_of_mem hc).2.2
  rw [unescapeChars, bracedDigits, List.takeWhile_append_of_pos hdigits,
    List.dropWhile_append_of_pos hdigits]
  simp

theorem shortEscape_of_mem : ∀ escape ∈ shortEscapes,
    escape.1 ≠ 'u' ∧ escape.1 ≠ 'x' ∧ shortEscape escape.1 = [escape.2] := by
  decide

variable {c : Char} {written : List Char}

theorem WritesChar.unescapeChars_append (h : WritesChar c written)
    (rest : List Char) :
    unescapeChars (written ++ rest) = c :: unescapeChars rest := by
  cases h with
  | plain hc => exact unescapeChars_cons hc rest
  | short hmem =>
    obtain ⟨hu, hx, hshort⟩ := shortEscape_of_mem _ hmem
    rw [List.cons_append, List.cons_append, List.nil_append,
      unescapeChars_short hu hx, hshort]
    rfl
  | byte hlength hdigits =>
    have hne := List.ne_nil_of_length_pos (hlength ▸ Nat.two_pos)
    rw [List.cons_append, List.cons_append, unescapeChars_byte hlength,
      hdigits.numericEscape_eq hne]
    rfl
  | unit hlength hdigits =>
    have hne := List.ne_nil_of_length_eq_add_one hlength
    rw [List.cons_append, List.cons_append, unescapeChars_unit hdigits hlength,
      hdigits.numericEscape_eq hne]
    rfl
  | braced hne _ hdigits =>
    rw [List.cons_append, List.cons_append, List.cons_append, List.append_assoc,
      List.singleton_append, unescapeChars_braced hdigits,
      hdigits.numericEscape_eq hne]
    rfl

/-- The two halves of a character are kept as they are written. -/
theorem WritesHalves.unescapeChars_append (h : WritesHalves c written)
    (rest : List Char) :
    unescapeChars (written ++ rest) = written ++ unescapeChars rest := by
  cases h with
  | pair hfirst hsecond hhigh hlow hleading htrailing _ =>
    have hkept := hhigh.numericEscape_of_surrogate
      (List.ne_nil_of_length_eq_add_one hfirst) ⟨hleading.1, by omega⟩ 'u'
    have hkept' := hlow.numericEscape_of_surrogate
      (List.ne_nil_of_length_eq_add_one hsecond) ⟨by omega, htrailing.2⟩ 'u'
    simp only [List.cons_append, List.append_assoc, unescapeChars_unit hhigh
      hfirst, unescapeChars_unit hlow hsecond, hkept, hkept']

theorem WritesHalves.length_eq (h : WritesHalves c written) :
    written.length = 12 := by
  cases h with
  | pair hfirst hsecond => simp [hfirst, hsecond]

end Escapes

/-- The ways of writing a character. -/
def Spelling (c : Char) (written : List Char) : Prop :=
  WritesChar c written ∨ WritesHalves c written

section Strings

variable {s : List Char} {pieces : List (List Char)}

theorem unescapeChars_flatten (h : List.Forall₂ WritesChar s pieces) :
    unescapeChars pieces.flatten = s := by
  induction h with
  | nil => rw [List.flatten_nil, unescapeChars]
  | cons hchar _ ih => rw [List.flatten_cons, hchar.unescapeChars_append, ih]

/-- Nothing is lost of a text that writes a string. -/
theorem length_le_unescapeChars_flatten (h : List.Forall₂ Spelling s pieces) :
    s.length ≤ (unescapeChars pieces.flatten).length := by
  induction h with
  | nil => exact Nat.zero_le _
  | cons hchar _ ih =>
    rw [List.flatten_cons]
    rcases hchar with hchar | hhalves
    · rw [hchar.unescapeChars_append]
      exact Nat.succ_le_succ ih
    · rw [hhalves.unescapeChars_append, List.length_append, hhalves.length_eq,
        List.length_cons]
      omega

theorem forall₂_writesChar_of_unescapeChars (h : List.Forall₂ Spelling s pieces)
    (hread : unescapeChars pieces.flatten = s) :
    List.Forall₂ WritesChar s pieces := by
  induction h with
  | nil => exact .nil
  | cons hchar hrest ih =>
    rw [List.flatten_cons] at hread
    rcases hchar with hchar | hhalves
    · rw [hchar.unescapeChars_append] at hread
      exact .cons hchar (ih (List.cons.inj hread).2)
    · -- Two halves are read as twelve characters, where the string has one.
      rw [hhalves.unescapeChars_append] at hread
      have hlength := congrArg List.length hread
      have hle := length_le_unescapeChars_flatten hrest
      rw [List.length_append, hhalves.length_eq, List.length_cons] at hlength
      omega

end Strings

/-- Of all the ways in which a text may write a string, character by character,
the text is read as the string in those, and only in those, that write each
character as a whole. -/
theorem unescape_spelling_iff {s : String} {pieces : List (List Char)}
    (hpieces : List.Forall₂ Spelling s.toList pieces) :
    unescape (String.ofList pieces.flatten) = s ↔
      List.Forall₂ WritesChar s.toList pieces := by
  have hchars : unescape (String.ofList pieces.flatten) = s ↔
      unescapeChars pieces.flatten = s.toList := by
    rw [unescape, String.toList_ofList]
    constructor
    · rintro rfl
      rw [String.toList_ofList]
    · intro h
      rw [h, String.ofList_toList]
  rw [hchars]
  exact ⟨forall₂_writesChar_of_unescapeChars hpieces, unescapeChars_flatten⟩

/-- A character outside the basic plane between two others, each as an escape of
another kind. -/
theorem unescape_spelling_braced :
    List.Forall₂ Spelling "\t😀é".toList [['\\', 't'],
      ['\\', 'u', '{', '1', 'F', '6', '0', '0', '}'], ['\\', 'x', 'e', '9']] ∧
      unescape "\\t\\u\x7b1F600\x7d\\xe9" = "\t😀é" := by
  have hwhole : List.Forall₂ WritesChar "\t😀é".toList
      [['\\', 't'], ['\\', 'u', '{', '1', 'F', '6', '0', '0', '}'],
        ['\\', 'x', 'e', '9']] := by
    have htab : WritesChar '\t' ['\\', 't'] := .short (by decide)
    have hface :
        WritesChar '😀' ['\\', 'u', '{', '1', 'F', '6', '0', '0', '}'] :=
      .braced (List.cons_ne_nil '1' ['F', '6', '0', '0']) (by decide)
        (hexNumeral_iff.2 (by decide))
    have hacute : WritesChar 'é' ['\\', 'x', 'e', '9'] :=
      .byte (by decide) (hexNumeral_iff.2 (by decide))
    exact .cons htab (.cons hface (.cons hacute .nil))
  have hpieces : List.Forall₂ Spelling _ _ := hwhole.imp fun _ _ => Or.inl
  exact ⟨hpieces, (unescape_spelling_iff hpieces).2 hwhole⟩

/-- Written in two halves, a character is not read as itself. -/
theorem unescape_halves :
    List.Forall₂ Spelling "😀".toList ["\\uD83D\\uDE00".toList] ∧
      unescape "\\uD83D\\uDE00" = "\\uD83D\\uDE00" := by
  have hhigh : HexNumeral ['D', '8', '3', 'D'] 0xD83D :=
    hexNumeral_iff.2 (by decide)
  have hlow : HexNumeral ['D', 'E', '0', '0'] 0xDE00 :=
    hexNumeral_iff.2 (by decide)
  have hhalves : WritesHalves '😀' "\\uD83D\\uDE00".toList :=
    .pair rfl rfl hhigh hlow (by decide) (by decide) (by decide)
  have hkept := hhalves.unescapeChars_append []
  rw [List.append_nil, unescapeChars, List.append_nil] at hkept
  refine ⟨.cons (.inr hhalves) .nil, ?_⟩
  rw [unescape, hkept, String.ofList_toList]

end SqlWorkflow.Expr
