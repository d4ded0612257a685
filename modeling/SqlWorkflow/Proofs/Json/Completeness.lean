import SqlWorkflow.Proofs.Json.Soundness

/-!
# What is in the grammar is read

The outline of a text has what the grammar has at the head of the text, unless a
numeral goes on after it. So the grammar has at most one value there.
-/

namespace SqlWorkflow.Json

/-- Every value of a judgement is the value of the outline, and the rests are
the same. -/
def CompleteFor (limit : Nat) (judgement : Heads Json) : Prop :=
  ∀ text v rest, judgement (skipBlanks text) v rest → EndsNumeral rest →
    (outlineValue text).value.toJson limit = .ok (collapse v) ∧
      (outlineValue text).unread? = some rest

/-- A value begins with a character that neither closes a list nor is blank. -/
def BeginsValue (judgement : Heads Json) : Prop :=
  ∀ text v rest, judgement text v rest → ∃ c tail, text = c :: tail ∧ c ≠ ']'

section Complete

variable {limit : Nat} {inner : Heads Json}

theorem endsNumeral_of_isBlank {c : Char} (h : isBlank c = true) :
    c.isDigit = false ∧ c ≠ '.' ∧ c ≠ 'e' ∧ c ≠ 'E' := by
  simp only [isBlank, Bool.or_eq_true, beq_iff_eq] at h
  rcases h with ((rfl | rfl) | rfl) | rfl <;> decide

theorem endsNumeral_of_skipBlanks {text tail : List Char} {c : Char}
    (hc : c = ',' ∨ c = ']' ∨ c = '\x7d')
    (h : skipBlanks text = c :: tail) : EndsNumeral text := by
  cases text with
  | nil => cases h
  | cons d text =>
    intro e he
    cases he
    rw [skipBlanks, List.dropWhile_cons] at h
    split at h
    · rename_i hblank
      exact endsNumeral_of_isBlank hblank
    · cases h
      rcases hc with rfl | rfl | rfl <;> decide

/-- A list that goes on after an item does not go on with a numeral. -/
theorem ListAt.endsNumeral {α : Type} {item : Heads α} {close : Char}
    (hclose : close = ']' ∨ close = '\x7d') {text rest : List Char}
    {as : List α}
    (h : ListAt item close false text as rest) : EndsNumeral text := by
  cases h with
  | close hskip => exact endsNumeral_of_skipBlanks (.inr hclose) hskip
  | next hcomma _ _ => exact endsNumeral_of_skipBlanks (.inl rfl) hcomma

/-- What is made out of a list that is closed. -/
theorem ListAt.seen_nil {first : Bool} {text rest : List Char}
    (h : ListAt inner ']' first text [] rest) :
    (outlineItems first text).seen = (.close rest, some rest) := by
  cases h with
  | close hskip => rw [seen_outlineItems, hskip, itemsSeen, if_pos rfl]

/-- What is made out of a list with an item. -/
theorem CompleteFor.exists_item (hinner : CompleteFor limit inner)
    (hbegins : BeginsValue inner) {first : Bool} {text rest : List Char}
    {v : Json} {vs : List Json}
    (h : ListAt inner ']' first text (v :: vs) rest) :
    ∃ start after, inner (skipBlanks start) v after ∧ EndsNumeral after ∧
      ListAt inner ']' false after vs rest ∧
      (outlineItems first text).seen =
        (.item start (outlineValue start).value (outlineItems false
          after).value, (outlineItems false after).unread?) := by
  -- The item is made out of the text without blanks, where the judgement has it
  -- all the same.
  have hitem {start after : List Char} (hv : inner (skipBlanks start) v after)
      (hvs : ListAt inner ']' false after vs rest) :
      itemSeen (skipBlanks start) =
        (.item (skipBlanks start) (outlineValue (skipBlanks start)).value
          (outlineItems false after).value,
          (outlineItems false after).unread?) := by
    rw [← skipBlanks_skipBlanks] at hv
    obtain ⟨-, hunread⟩ := hinner _ v after hv (hvs.endsNumeral (.inl rfl))
    obtain ⟨hlt, hrest⟩ := Outlined.exists_rest hunread
    rw [itemSeen, hrest]
  cases h with
  | first hv hvs =>
    rename_i after
    obtain ⟨c, tail, hskip, hc⟩ := hbegins _ _ _ hv
    have hseen := hitem hv hvs
    refine ⟨skipBlanks text, after, ?_, hvs.endsNumeral (.inl rfl), hvs, ?_⟩
    · rwa [skipBlanks_skipBlanks]
    · rw [seen_outlineItems, ← hseen, hskip, itemsSeen, if_neg hc, if_pos rfl]
  | next hcomma hv hvs =>
    rename_i content after
    obtain ⟨c, tail, hskip, hc⟩ := hbegins _ _ _ hv
    have hseen := hitem hv hvs
    refine ⟨skipBlanks content, after, ?_, hvs.endsNumeral (.inl rfl), hvs, ?_⟩
    · rwa [skipBlanks_skipBlanks]
    · rw [seen_outlineItems, ← hseen, hcomma, itemsSeen, if_neg (by decide),
        if_neg Bool.false_ne_true, if_pos rfl, hskip]
      exact if_neg hc

theorem CompleteFor.listAt (hinner : CompleteFor limit inner)
    (hbegins : BeginsValue inner) {first : Bool} {text rest : List Char}
    {vs : List Json} (h : ListAt inner ']' first text vs rest) :
    (outlineItems first text).value.toJson limit = .ok (collapseItems vs) ∧
      (outlineItems first text).unread? = some rest := by
  induction vs generalizing first text with
  | nil =>
    obtain ⟨hvalue, hunread⟩ := Prod.mk.inj h.seen_nil
    rw [hvalue, hunread]
    exact ⟨rfl, rfl⟩
  | cons v vs ih =>
    obtain ⟨start, after, hv, hends, hvs, hseen⟩ := hinner.exists_item hbegins h
    obtain ⟨hvalue, hunread⟩ := Prod.mk.inj hseen
    obtain ⟨hvalues, hrest⟩ := ih hvs
    rw [hvalue, hunread, ItemList.toJson, (hinner start v after hv hends).1]
    dsimp only
    rw [hvalues]
    exact ⟨rfl, hrest⟩

/-- What is made out of members, if there is none. -/
theorem ListAt.seen_membersNil {first : Bool} {text rest : List Char}
    (h : ListAt (MemberAt inner) '\x7d' first text [] rest) :
    (outlineMembers first text).seen = (.close rest, some rest) := by
  cases h with
  | close hskip => rw [seen_outlineMembers, hskip, membersSeen, if_pos rfl]

/-- What is made out of members, if there is one. -/
theorem CompleteFor.exists_member (hinner : CompleteFor limit inner)
    {first : Bool} {text rest : List Char} {m : String × Json}
    {ms : List (String × Json)}
    (h : ListAt (MemberAt inner) '\x7d' first text (m :: ms) rest) :
    ∃ tail content after, inner (skipBlanks content) m.2 after ∧
      EndsNumeral after ∧ ListAt (MemberAt inner) '\x7d' false after ms rest ∧
      (outlineMembers first text).seen =
        (.member (.ok m.1) tail (outlineValue content).value
          (outlineMembers false after).value,
          (outlineMembers false after).unread?) := by
  have hmember {text after : List Char}
      (hm : MemberAt inner (skipBlanks text) m after)
      (hends : EndsNumeral after) : ∃ start tail content,
        skipBlanks text = '"' :: start ∧ inner (skipBlanks content) m.2 after ∧
          memberSeen start =
            (.member (.ok m.1) tail (outlineValue content).value
              (outlineMembers false after).value,
              (outlineMembers false after).unread?) := by
    generalize skipBlanks text = skipped at hm
    cases hm with
    | member hname hcolon hv =>
      rename_i start s tail content v
      obtain ⟨-, hunread⟩ := hinner content v after hv hends
      obtain ⟨hlt, hrest⟩ := Outlined.exists_rest hunread
      obtain ⟨hshort, -⟩ := hname.exists_skipQuotation
      have hquotation : outlineQuotation start =
          .ok (.ok (String.ofList s), ⟨(), tail, hshort⟩) :=
        outlineQuotation_eq_ok_iff.2 ⟨s, rfl, hname⟩
      refine ⟨start, tail, content, rfl, hv, ?_⟩
      rw [memberSeen, hquotation]
      dsimp only
      rw [hcolon]
      dsimp only
      rw [if_pos rfl, hrest]
  cases h with
  | first hm hms =>
    have hends := hms.endsNumeral (.inr rfl)
    obtain ⟨start, tail, content, hskip, hv, hseen⟩ := hmember hm hends
    refine ⟨tail, content, _, hv, hends, hms, ?_⟩
    rw [seen_outlineMembers, hskip, membersSeen, if_neg (by decide), if_pos rfl,
      if_pos rfl, hseen]
  | next hcomma hm hms =>
    have hends := hms.endsNumeral (.inr rfl)
    obtain ⟨start, tail, content, hskip, hv, hseen⟩ := hmember hm hends
    refine ⟨tail, content, _, hv, hends, hms, ?_⟩
    rw [seen_outlineMembers, hcomma, membersSeen, if_neg (by decide),
      if_neg Bool.false_ne_true, if_pos rfl, hskip]
    dsimp only
    rw [if_pos rfl, hseen]

theorem CompleteFor.memberAt (hinner : CompleteFor limit inner) {first : Bool}
    {text rest : List Char} {ms : List (String × Json)}
    (h : ListAt (MemberAt inner) '\x7d' first text ms rest) :
    (outlineMembers first text).value.toJson limit = .ok (collapseMembers ms) ∧
      (outlineMembers first text).unread? = some rest := by
  induction ms generalizing first text with
  | nil =>
    obtain ⟨hvalue, hunread⟩ := Prod.mk.inj h.seen_membersNil
    rw [hvalue, hunread]
    exact ⟨rfl, rfl⟩
  | cons m ms ih =>
    obtain ⟨tail, content, after, hv, hends, hms, hseen⟩ :=
      hinner.exists_member h
    obtain ⟨hvalue, hunread⟩ := Prod.mk.inj hseen
    obtain ⟨hvalues, hrest⟩ := ih hms
    rw [hvalue, hunread, MemberList.toJson,
      (hinner content m.2 after hv hends).1]
    dsimp only
    rw [hvalues]
    exact ⟨rfl, hrest⟩

theorem Numeral.exists_cons {numeral : List Char} (h : Numeral numeral) :
    ∃ c tail, numeral = c :: tail ∧ (c = '-' ∨ c.isDigit = true) := by
  cases h with
  | numeral hsign hwhole _ _ =>
    obtain ⟨c, digits, rfl, hc, -, -⟩ := hwhole.exists_cons
    rcases hsign with rfl | rfl
    · exact ⟨c, _, rfl, .inr hc⟩
    · exact ⟨'-', _, rfl, .inl rfl⟩

theorem ne_of_numeral {c d : Char} (hc : c = '-' ∨ c.isDigit = true)
    (hd : d ≠ '-' ∧ d.isDigit = false) : c ≠ d := by
  rintro rfl
  rcases hc with h | h
  · exact hd.1 h
  · cases h.symm.trans hd.2

theorem valueSeen_numeral {numeral : List Char} (h : Numeral numeral)
    (rest : List Char) :
    valueSeen (numeral ++ rest) = (outlineNumber (numeral ++ rest)).seen := by
  obtain ⟨c, tail, rfl, hc⟩ := h.exists_cons
  rw [List.cons_append, valueSeen, if_neg (ne_of_numeral hc (by decide)),
    if_neg (ne_of_numeral hc (by decide)),
    if_neg (ne_of_numeral hc (by decide)),
    if_neg (ne_of_numeral hc (by decide)),
    if_neg (ne_of_numeral hc (by decide)),
    if_neg (ne_of_numeral hc (by decide)), if_pos hc]

theorem seen_outlineNumber {text rest : List Char}
    (h : skipNumber text = .ok rest) :
    (outlineNumber text).seen =
      (.scalar text ((readNumber text).map fun p => Json.number p.1) rest,
        some rest) := by
  rw [outlineNumber]
  split
  · rename_i e he
    cases he.symm.trans h
  · rename_i after hafter
    cases hafter.symm.trans h
    rfl

theorem skipNumber_of_unread? {text rest : List Char}
    (h : (outlineNumber text).unread? = some rest) :
    skipNumber text = .ok rest := by
  unfold outlineNumber at h
  split at h
  · cases h
  · rename_i after hafter
    cases h
    exact hafter

theorem valueSeen_quotation {text s rest : List Char}
    (h : QuotationAt text s rest) :
    valueSeen ('"' :: text) =
      (.scalar ('"' :: text) (.ok (.string (String.ofList s))) rest,
        some rest) := by
  obtain ⟨hshort, -⟩ := h.exists_skipQuotation
  have hquotation : outlineQuotation text =
      .ok (.ok (String.ofList s), ⟨(), rest, hshort⟩) :=
    outlineQuotation_eq_ok_iff.2 ⟨s, rfl, h⟩
  rw [valueSeen, if_neg (by decide), if_neg (by decide), if_pos rfl, hquotation]
  rfl

/-- What is made out of a value without brackets. Where a numeral ends shows
only in the text after it. -/
theorem ScalarAt.value_eq {text rest : List Char} {v : Json}
    (h : ScalarAt (skipBlanks text) v rest)
    (hunread : (outlineValue text).unread? = some rest) :
    (outlineValue text).value = .scalar (skipBlanks text) (.ok v) rest := by
  rw [unread?_outlineValue] at hunread
  rw [value_outlineValue]
  generalize skipBlanks text = skipped at h hunread
  cases h with
  | null =>
    exact congrArg Prod.fst (seen_outlineWord ['u', 'l', 'l'] .null 'n' rest)
  | true =>
    exact congrArg Prod.fst
      (seen_outlineWord ['r', 'u', 'e'] (.bool Bool.true) 't' rest)
  | false =>
    exact congrArg Prod.fst
      (seen_outlineWord ['a', 'l', 's', 'e'] (.bool Bool.false) 'f' rest)
  | number hnumeral hn =>
    rw [valueSeen_numeral hnumeral] at hunread ⊢
    rw [seen_outlineNumber (skipNumber_of_unread? hunread), hn]
    rfl
  | string hs => rw [valueSeen_quotation hs]

theorem ScalarAt.unread?_eq {text rest : List Char} {v : Json}
    (h : ScalarAt (skipBlanks text) v rest)
    (hends : EndsNumeral rest) : (outlineValue text).unread? = some rest := by
  rw [unread?_outlineValue]
  generalize skipBlanks text = skipped at h
  cases h with
  | null =>
    exact congrArg Prod.snd (seen_outlineWord ['u', 'l', 'l'] .null 'n' rest)
  | true =>
    exact congrArg Prod.snd
      (seen_outlineWord ['r', 'u', 'e'] (.bool Bool.true) 't' rest)
  | false =>
    exact congrArg Prod.snd
      (seen_outlineWord ['a', 'l', 's', 'e'] (.bool Bool.false) 'f' rest)
  | number hnumeral _ =>
    rw [valueSeen_numeral hnumeral,
      seen_outlineNumber (hnumeral.skipNumber_append hends)]
  | string hs => rw [valueSeen_quotation hs]

theorem seen_of_array {text tail : List Char}
    (h : skipBlanks text = '[' :: tail) :
    (outlineValue text).seen =
      (.array ('[' :: tail) (outlineItems true tail).value,
        (outlineItems true tail).unread?) := by
  rw [seen_outlineValue, h, valueSeen, if_pos rfl]

theorem seen_of_object {text tail : List Char}
    (h : skipBlanks text = '\x7b' :: tail) :
    (outlineValue text).seen =
      (.object ('\x7b' :: tail) (outlineMembers true tail).value,
        (outlineMembers true tail).unread?) := by
  rw [seen_outlineValue, h, valueSeen, if_neg (by decide), if_pos rfl]

theorem completeFor_scalarAt (limit : Nat) : CompleteFor limit ScalarAt := by
  intro text v rest h hends
  have hunread := h.unread?_eq hends
  rw [h.value_eq hunread]
  exact ⟨congrArg Except.ok h.collapse_eq.symm, hunread⟩

theorem CompleteFor.compoundAt (hinner : CompleteFor (limit + 1) inner)
    (hbegins : BeginsValue inner) :
    CompleteFor (limit + 2) (CompoundAt inner) := by
  intro text v rest h hends
  generalize hskip : skipBlanks text = skipped at h
  cases h with
  | scalar h =>
    exact completeFor_scalarAt (limit + 2) text v rest (hskip ▸ h) hends
  | array h =>
    obtain ⟨hvalues, hrest⟩ := hinner.listAt hbegins h
    obtain ⟨hvalue, hunread⟩ := Prod.mk.inj (seen_of_array hskip)
    rw [hvalue, hunread, Outline.toJson, if_neg (by omega),
      Nat.add_sub_cancel (limit + 1) 1, hvalues]
    exact ⟨rfl, hrest⟩
  | object h =>
    obtain ⟨hvalues, hrest⟩ := hinner.memberAt h
    obtain ⟨hvalue, hunread⟩ := Prod.mk.inj (seen_of_object hskip)
    rw [hvalue, hunread, Outline.toJson, if_neg (by omega),
      Nat.add_sub_cancel (limit + 1) 1, hvalues]
    exact ⟨rfl, hrest⟩

theorem beginsValue_scalarAt : BeginsValue ScalarAt := by
  intro text v rest h
  cases h with
  | number hnumeral _ =>
    obtain ⟨c, tail, rfl, hc⟩ := hnumeral.exists_cons
    exact ⟨c, _, rfl, ne_of_numeral hc (by decide)⟩
  | null => exact ⟨_, _, rfl, by decide⟩
  | true => exact ⟨_, _, rfl, by decide⟩
  | false => exact ⟨_, _, rfl, by decide⟩
  | string => exact ⟨_, _, rfl, by decide⟩

theorem beginsValue_valueAt (levels : Nat) : BeginsValue (ValueAt levels) := by
  cases levels with
  | zero => exact beginsValue_scalarAt
  | succ levels =>
    intro text v rest h
    cases h with
    | scalar h => exact beginsValue_scalarAt _ _ _ h
    | array => exact ⟨_, _, rfl, by decide⟩
    | object => exact ⟨_, _, rfl, by decide⟩

theorem completeFor_valueAt (levels : Nat) :
    CompleteFor (levels + 1) (ValueAt levels) := by
  induction levels with
  | zero => exact completeFor_scalarAt 1
  | succ levels ih => exact ih.compoundAt (beginsValue_valueAt levels)

end Complete

/-! ## Texts that hold one value -/

theorem endsNumeral_of_blank {rest : List Char}
    (h : skipBlanks rest = []) : EndsNumeral rest := by
  cases rest with
  | nil => exact nofun
  | cons c rest =>
    intro d hd
    cases hd
    have hblank := List.dropWhile_eq_nil_iff.1 h c List.mem_cons_self
    exact endsNumeral_of_isBlank hblank

/-- A text is read if it holds one value of the grammar and blanks around it. -/
theorem parseChars_eq_ok_iff {text : List Char} {value : Json} :
    parseChars text = .ok value ↔
      ∃ v rest, ValueAt (nestingLimit - 1) (skipBlanks text) v rest ∧
        skipBlanks rest = [] ∧ collapse v = value := by
  constructor
  · intro h
    unfold parseChars at h
    dsimp only at h
    split at h
    · cases h
    rename_i hread
    split at h
    · rename_i hrest
      cases h
      have hread : (outlineValue text).value.toJson (nestingLimit - 1 + 1) =
          .ok value := hread
      obtain ⟨v, rest, hunread, hv, rfl⟩ :=
        soundFor_valueAt (nestingLimit - 1) text value hread
      obtain ⟨hlt, hafter⟩ := Outlined.exists_rest hunread
      rw [Outlined.unread, hafter] at hrest
      exact ⟨v, rest, hv, hrest, rfl⟩
    · cases h
  · rintro ⟨v, rest, hv, hrest, rfl⟩
    obtain ⟨hvalue, hunread⟩ :=
      completeFor_valueAt (nestingLimit - 1) text v rest hv
        (endsNumeral_of_blank hrest)
    obtain ⟨hlt, hafter⟩ := Outlined.exists_rest hunread
    have hread : (outlineValue text).value.toJson nestingLimit =
        .ok (collapse v) := hvalue
    rw [parseChars, hread, Outlined.unread, hafter]
    dsimp only
    rw [hrest]

/-! ## The grammar is unambiguous -/

/-- At most one value stands at the head of a text, if no numeral goes on after
it. -/
def Unambiguous {α : Type} (judgement : Heads α) : Prop :=
  ∀ {text a b rest rest'}, judgement (skipBlanks text) a rest →
    judgement (skipBlanks text) b rest' →
    EndsNumeral rest → EndsNumeral rest' → a = b ∧ rest = rest'

section Unambiguous

variable {inner : Heads Json}

theorem ScalarAt.not_bracket {c : Char} (hc : c = '[' ∨ c = '\x7b')
    {tail rest : List Char} {v : Json} : ¬ ScalarAt (c :: tail) v rest := by
  intro h
  generalize htext : c :: tail = text at h
  cases h with
  | number hnumeral _ =>
    obtain ⟨d, digits, rfl, hd⟩ := hnumeral.exists_cons
    have hne : d ≠ c :=
      ne_of_numeral hd (by rcases hc with rfl | rfl <;> decide)
    exact hne (List.cons.inj htext).1.symm
  | string | null | true | false => rcases hc with rfl | rfl <;> cases htext

theorem unambiguous_scalarAt : Unambiguous ScalarAt := by
  intro text v w rest rest' h h' hends hends'
  have hv := h.value_eq (h.unread?_eq hends)
  rw [h'.value_eq (h'.unread?_eq hends')] at hv
  cases hv
  exact ⟨rfl, rfl⟩

theorem ListAt.unique {α : Type} {item : Heads α} {close : Char}
    (hclose : close = ']' ∨ close = '\x7d') (hitem : Unambiguous item)
    (hbegins : ∀ rest a after, ¬ item (close :: rest) a after) {first : Bool}
    {text rest rest' : List Char} {as bs : List α}
    (h : ListAt item close first text as rest)
    (h' : ListAt item close first text bs rest') : as = bs ∧ rest = rest' := by
  have hcomma : close ≠ ',' := by
    rcases hclose with rfl | rfl <;> decide
  induction h generalizing bs with
  | close hskip =>
    cases h' with
    | close hskip' =>
      cases hskip.symm.trans hskip'
      exact ⟨rfl, rfl⟩
    | first hb _ => exact absurd (hskip ▸ hb) (hbegins _ _ _)
    | next hskip' _ _ =>
      exact absurd (List.cons.inj (hskip.symm.trans hskip')).1 hcomma
  | first ha has ih =>
    cases h' with
    | close hskip => exact absurd (hskip ▸ ha) (hbegins _ _ _)
    | first hb hbs =>
      obtain ⟨rfl, rfl⟩ :=
        hitem ha hb (has.endsNumeral hclose) (hbs.endsNumeral hclose)
      obtain ⟨rfl, rfl⟩ := ih hbs
      exact ⟨rfl, rfl⟩
  | next hskip ha has ih =>
    cases h' with
    | close hskip' =>
      exact absurd (List.cons.inj (hskip'.symm.trans hskip)).1 hcomma
    | next hskip' hb hbs =>
      cases hskip.symm.trans hskip'
      obtain ⟨rfl, rfl⟩ :=
        hitem ha hb (has.endsNumeral hclose) (hbs.endsNumeral hclose)
      obtain ⟨rfl, rfl⟩ := ih hbs
      exact ⟨rfl, rfl⟩

theorem unambiguous_memberAt (hinner : Unambiguous inner) :
    Unambiguous (MemberAt inner) := by
  intro text m m' rest rest' h h' hends hends'
  generalize skipBlanks text = skipped at h h'
  cases h with
  | member hname hcolon hvalue =>
    cases h' with
    | member hname' hcolon' hvalue' =>
      cases hname.readQuotation_eq.symm.trans hname'.readQuotation_eq
      cases hcolon.symm.trans hcolon'
      obtain ⟨rfl, rfl⟩ := hinner hvalue hvalue' hends hends'
      exact ⟨rfl, rfl⟩

theorem ListAt.unique_items (hinner : Unambiguous inner)
    (hbegins : BeginsValue inner) {first : Bool} {text rest rest' : List Char}
    {vs ws : List Json} (h : ListAt inner ']' first text vs rest)
    (h' : ListAt inner ']' first text ws rest') : vs = ws ∧ rest = rest' := by
  refine h.unique (.inl rfl) hinner (fun _ _ _ hv => ?_) h'
  obtain ⟨c, tail, hc, hne⟩ := hbegins _ _ _ hv
  exact hne (List.cons.inj hc).1.symm

theorem ListAt.unique_members (hinner : Unambiguous inner) {first : Bool}
    {text rest rest' : List Char} {ms ms' : List (String × Json)}
    (h : ListAt (MemberAt inner) '\x7d' first text ms rest)
    (h' : ListAt (MemberAt inner) '\x7d' first text ms' rest') :
    ms = ms' ∧ rest = rest' :=
  h.unique (.inr rfl) (unambiguous_memberAt hinner)
    (fun _ _ _ hm => nomatch hm) h'

theorem unambiguous_compoundAt (hinner : Unambiguous inner)
    (hbegins : BeginsValue inner) : Unambiguous (CompoundAt inner) := by
  intro text v w rest rest' h h' hends hends'
  generalize hskip : skipBlanks text = skipped at h h'
  cases h with
  | scalar h =>
    cases h' with
    | scalar h' =>
      exact unambiguous_scalarAt (hskip ▸ h) (hskip ▸ h') hends hends'
    | array _ => exact absurd h (ScalarAt.not_bracket (.inl rfl))
    | object _ => exact absurd h (ScalarAt.not_bracket (.inr rfl))
  | array h =>
    cases h' with
    | scalar h' => exact absurd h' (ScalarAt.not_bracket (.inl rfl))
    | array h' =>
      obtain ⟨rfl, rfl⟩ := h.unique_items hinner hbegins h'
      exact ⟨rfl, rfl⟩
  | object h =>
    cases h' with
    | scalar h' => exact absurd h' (ScalarAt.not_bracket (.inr rfl))
    | object h' =>
      obtain ⟨rfl, rfl⟩ := h.unique_members hinner h'
      exact ⟨rfl, rfl⟩

theorem unambiguous_valueAt (levels : Nat) : Unambiguous (ValueAt levels) := by
  induction levels with
  | zero => exact unambiguous_scalarAt
  | succ levels ih =>
    exact unambiguous_compoundAt ih (beginsValue_valueAt levels)

end Unambiguous

end SqlWorkflow.Json
