import SqlWorkflow.Proofs.Json.Outlines

/-!
# What is read is in the grammar

If an outline has a value, then the grammar has a value at the head of the text
that stands for it, and both leave the same rest.
-/

namespace SqlWorkflow.Json

/-- Whatever value an outline has is one of a judgement, and the rests are the
same. -/
def SoundFor (limit : Nat) (judgement : Heads Json) : Prop :=
  ∀ text value, (outlineValue text).value.toJson limit = .ok value →
    ∃ v rest, (outlineValue text).unread? = some rest ∧
      judgement (skipBlanks text) v rest ∧ collapse v = value

section Sound

variable {limit : Nat} {inner : Heads Json}

theorem exists_of_itemSeen {start : List Char} {values : List Json}
    (h : (itemSeen start).1.toJson limit = .ok values) :
    ∃ v after vs, after.length < start.length ∧
      (outlineValue start).unread? = some after ∧
      (outlineValue start).value.toJson limit = .ok v ∧
      (outlineItems false after).value.toJson limit = .ok vs ∧
      values = v :: vs ∧
      (itemSeen start).2 = (outlineItems false after).unread? := by
  unfold itemSeen at h ⊢
  split at h
  · rename_i hrest
    dsimp only at h
    rw [ItemList.toJson] at h
    split at h
    · cases h
    · rw [ItemList.toJson] at h
      cases h
  · rename_i after hlt hrest
    dsimp only at h
    rw [ItemList.toJson] at h
    split at h
    · cases h
    · rename_i v hv
      obtain ⟨vs, hvs, rfl⟩ := Text.exists_of_map_eq_ok h
      refine ⟨v, after, vs, hlt, ?_, hv, hvs, rfl, rfl⟩
      rw [Outlined.unread?, hrest]

theorem SoundFor.exists_listAt (hinner : SoundFor limit inner)
    (text : List Char) {first : Bool} {values : List Json}
    (h : (outlineItems first text).value.toJson limit = .ok values) :
    ∃ vs rest, (outlineItems first text).unread? = some rest ∧
      ListAt inner ']' first text vs rest ∧ collapseItems vs = values := by
  rw [value_outlineItems] at h
  rw [unread?_outlineItems]
  -- The items after the first are made out of what it leaves, which is shorter
  -- than the text.
  have hitem {start : List Char} (hstart : start.length ≤ text.length)
      (h : (itemSeen start).1.toJson limit = .ok values) : ∃ v after vs rest,
        (itemSeen start).2 = some rest ∧ inner (skipBlanks start) v after ∧
          ListAt inner ']' false after vs rest ∧
          collapseItems (v :: vs) = values := by
    obtain ⟨value, after, others, hlt, hafter, hv, hothers, rfl, hrest⟩ :=
      exists_of_itemSeen h
    obtain ⟨v, rest, hunread, hjudged, rfl⟩ := hinner start value hv
    cases hafter.symm.trans hunread
    obtain ⟨vs, rest, hunread, hlist, rfl⟩ := hinner.exists_listAt after hothers
    exact ⟨v, after, vs, rest, hrest.trans hunread, hjudged, hlist, rfl⟩
  cases hskip : skipBlanks text with
  | nil =>
    rw [hskip] at h
    cases h
  | cons c rest =>
    have hle : (c :: rest).length ≤ text.length :=
      hskip ▸ skipBlanks_length_le text
    rw [hskip, itemsSeen] at h
    rw [itemsSeen]
    by_cases hclose : c = ']'
    · rw [if_pos hclose] at h ⊢
      cases h
      exact ⟨[], rest, rfl, .close (hclose ▸ hskip), rfl⟩
    rw [if_neg hclose] at h ⊢
    cases first with
    | true =>
      obtain ⟨v, after, vs, final, hrest, hv, hlist, hvalues⟩ := hitem hle h
      rw [← hskip, skipBlanks_skipBlanks] at hv
      exact ⟨v :: vs, final, hrest, .first hv hlist, hvalues⟩
    | false =>
      by_cases hcomma : c = ','
      · rw [if_neg Bool.false_ne_true, if_pos hcomma] at h ⊢
        have hskipped := skipBlanks_length_le rest
        cases htail : skipBlanks rest with
        | nil =>
          rw [htail] at h
          cases h
        | cons d tail =>
          rw [htail] at h hskipped
          dsimp only at h ⊢
          by_cases hd : d = ']'
          · rw [if_pos hd] at h
            cases h
          rw [if_neg hd] at h ⊢
          have hshort : (d :: tail).length ≤ text.length :=
            Nat.le_trans hskipped (Nat.le_of_lt hle)
          obtain ⟨v, after, vs, final, hrest, hv, hlist, hvalues⟩ :=
            hitem hshort h
          rw [← htail, skipBlanks_skipBlanks] at hv
          exact ⟨v :: vs, final, hrest,
            .next (hcomma ▸ hskip) hv hlist, hvalues⟩
      · rw [if_neg Bool.false_ne_true, if_neg hcomma] at h
        cases h
termination_by text.length

theorem exists_of_memberSeen {start : List Char} {pairs : List (String × Json)}
    (h : (memberSeen start).1.toJson limit = .ok pairs) :
    ∃ s tail rest v after others, QuotationAt start s tail ∧
      skipBlanks tail = ':' :: rest ∧
      after.length < start.length ∧ (outlineValue rest).unread? = some after ∧
      (outlineValue rest).value.toJson limit = .ok v ∧
      (outlineMembers false after).value.toJson limit = .ok others ∧
      pairs = (String.ofList s, v) :: others ∧
      (memberSeen start).2 = (outlineMembers false after).unread? := by
  unfold memberSeen at h ⊢
  split at h
  · cases h
  rename_i name p hquotation
  split at h
  · cases h
  rename_i c rest hcolon
  have hshort : rest.length < p.rest.length := by
    have hle := skipBlanks_length_le p.rest
    rw [hcolon, List.length_cons] at hle
    omega
  by_cases hc : c = ':'
  · rw [if_pos hc] at h ⊢
    split at h
    · cases name with
      | error e => cases h
      | ok n =>
        dsimp only at h
        rw [MemberList.toJson] at h
        split at h <;> cases h
    · rename_i after hlt hrest
      cases name with
      | error e => cases h
      | ok n =>
      dsimp only at h
      rw [MemberList.toJson] at h
      split at h
      · cases h
      rename_i v hv
      obtain ⟨others, hothers, rfl⟩ := Text.exists_of_map_eq_ok h
      obtain ⟨s, rfl, hs⟩ := outlineQuotation_eq_ok_iff.1 hquotation
      refine ⟨s, p.rest, rest, v, after, others, hs, hc ▸ hcolon, ?_, ?_, hv,
        hothers, rfl, rfl⟩
      · exact Nat.lt_trans hlt (Nat.lt_trans hshort p.shorter)
      · rw [Outlined.unread?, hrest]
  · rw [if_neg hc] at h
    cases h

theorem SoundFor.exists_memberAt (hinner : SoundFor limit inner)
    (text : List Char) {first : Bool} {pairs : List (String × Json)}
    (h : (outlineMembers first text).value.toJson limit = .ok pairs) :
    ∃ members rest, (outlineMembers first text).unread? = some rest ∧
      ListAt (MemberAt inner) '\x7d' first text members rest ∧
      collapseMembers members = pairs := by
  rw [value_outlineMembers] at h
  rw [unread?_outlineMembers]
  have hmember {start : List Char} (hstart : start.length < text.length)
      (h : (memberSeen start).1.toJson limit = .ok pairs) :
      ∃ m after ms rest, (memberSeen start).2 = some rest ∧
        MemberAt inner ('"' :: start) m after ∧
        ListAt (MemberAt inner) '\x7d' false after ms rest ∧
        collapseMembers (m :: ms) = pairs := by
    obtain ⟨s, tail, content, value, after, others, hname, hcolon, hlt, hafter,
      hv, hothers, rfl, hrest⟩ :=
      exists_of_memberSeen h
    obtain ⟨v, rest, hunread, hjudged, rfl⟩ := hinner content value hv
    cases hafter.symm.trans hunread
    obtain ⟨ms, rest, hunread, hlist, rfl⟩ :=
      hinner.exists_memberAt after hothers
    exact ⟨_, after, ms, rest, hrest.trans hunread,
      .member hname hcolon hjudged, hlist, rfl⟩
  cases hskip : skipBlanks text with
  | nil =>
    rw [hskip] at h
    cases h
  | cons c rest =>
    have hle : (c :: rest).length ≤ text.length :=
      hskip ▸ skipBlanks_length_le text
    rw [hskip, membersSeen] at h
    rw [membersSeen]
    by_cases hclose : c = '\x7d'
    · rw [if_pos hclose] at h ⊢
      cases h
      exact ⟨[], rest, rfl, .close (hclose ▸ hskip), rfl⟩
    rw [if_neg hclose] at h ⊢
    cases first with
    | true =>
      rw [if_pos rfl] at h ⊢
      by_cases hmark : c = '"'
      · rw [if_pos hmark] at h ⊢
        obtain ⟨m, after, ms, final, hrest, hm, hlist, hpairs⟩ := hmember hle h
        rw [← hmark, ← hskip] at hm
        exact ⟨m :: ms, final, hrest, .first hm hlist, hpairs⟩
      · rw [if_neg hmark] at h
        cases h
    | false =>
      by_cases hcomma : c = ','
      · rw [if_neg Bool.false_ne_true, if_pos hcomma] at h ⊢
        have hskipped := skipBlanks_length_le rest
        cases htail : skipBlanks rest with
        | nil =>
          rw [htail] at h
          cases h
        | cons d tail =>
          rw [htail] at h hskipped
          dsimp only at h ⊢
          by_cases hmark : d = '"'
          · rw [if_pos hmark] at h ⊢
            have hshort : tail.length < text.length :=
              Nat.lt_of_lt_of_le hskipped (Nat.le_of_lt hle)
            obtain ⟨m, after, ms, final, hrest, hm, hlist, hpairs⟩ :=
              hmember hshort h
            rw [← hmark, ← htail] at hm
            exact ⟨m :: ms, final, hrest,
              .next (hcomma ▸ hskip) hm hlist, hpairs⟩
          · rw [if_neg hmark] at h
            split at h <;> cases h
      · rw [if_neg Bool.false_ne_true, if_neg hcomma] at h
        cases h
termination_by text.length

theorem ScalarAt.collapse_eq {text rest : List Char} {v : Json}
    (h : ScalarAt text v rest) : collapse v = v := by
  cases h <;> rfl

theorem exists_of_outlineNumber {text : List Char} {value : Json}
    (h : (outlineNumber text).seen.1.toJson limit = .ok value) :
    ∃ rest, (outlineNumber text).seen.2 = some rest ∧
      ScalarAt text value rest := by
  unfold outlineNumber at h ⊢
  split at h
  · cases h
  · rename_i rest hskip
    obtain ⟨numeral, hnumeral, htext⟩ := exists_of_skipNumber hskip
    have hread : (readNumber text).map (fun p => Json.number p.1) =
        .ok value := h
    obtain ⟨⟨n, after⟩, hn, rfl⟩ := Text.exists_of_map_eq_ok hread
    refine ⟨rest, rfl, ?_⟩
    subst htext
    exact .number hnumeral hn

/-- A value without brackets. -/
theorem exists_scalarAt {c : Char} {tail : List Char} {value : Json}
    (harray : c ≠ '[') (hobject : c ≠ '\x7b')
    (h : (valueSeen (c :: tail)).1.toJson limit = .ok value) :
    ∃ v rest, (valueSeen (c :: tail)).2 = some rest ∧
      ScalarAt (c :: tail) v rest ∧ collapse v = value := by
  rw [valueSeen, if_neg harray, if_neg hobject] at h ⊢
  by_cases hmark : c = '"'
  · subst hmark
    rw [if_pos rfl] at h ⊢
    split at h
    · cases h
    rename_i name p hquotation
    have hname : name.map Json.string = .ok value := h
    obtain ⟨s, rfl, rfl⟩ := Text.exists_of_map_eq_ok hname
    obtain ⟨s, rfl, hs⟩ := outlineQuotation_eq_ok_iff.1 hquotation
    exact ⟨_, p.rest, rfl, .string hs, rfl⟩
  rw [if_neg hmark] at h ⊢
  by_cases hn : c = 'n'
  · subst hn
    rw [if_pos rfl] at h ⊢
    obtain ⟨rest, rfl, rfl⟩ := exists_of_outlineWord h
    rw [seen_outlineWord]
    exact ⟨_, rest, rfl, .null rest, rfl⟩
  rw [if_neg hn] at h ⊢
  by_cases ht : c = 't'
  · subst ht
    rw [if_pos rfl] at h ⊢
    obtain ⟨rest, rfl, rfl⟩ := exists_of_outlineWord h
    rw [seen_outlineWord]
    exact ⟨_, rest, rfl, .true rest, rfl⟩
  rw [if_neg ht] at h ⊢
  by_cases hf : c = 'f'
  · subst hf
    rw [if_pos rfl] at h ⊢
    obtain ⟨rest, rfl, rfl⟩ := exists_of_outlineWord h
    rw [seen_outlineWord]
    exact ⟨_, rest, rfl, .false rest, rfl⟩
  rw [if_neg hf] at h ⊢
  split at h
  · rename_i hdigit
    rw [if_pos hdigit]
    obtain ⟨rest, hunread, hscalar⟩ := exists_of_outlineNumber h
    exact ⟨value, rest, hunread, hscalar, hscalar.collapse_eq⟩
  · cases h

theorem soundFor_scalarAt : SoundFor 1 ScalarAt := by
  intro text value h
  rw [value_outlineValue] at h
  rw [unread?_outlineValue]
  cases hskip : skipBlanks text with
  | nil =>
    rw [hskip] at h
    cases h
  | cons c tail =>
    rw [hskip] at h
    by_cases harray : c = '['
    · subst harray
      cases h
    by_cases hobject : c = '\x7b'
    · subst hobject
      cases h
    exact exists_scalarAt harray hobject h

theorem SoundFor.compoundAt (hinner : SoundFor (limit + 1) inner) :
    SoundFor (limit + 2) (CompoundAt inner) := by
  intro text value h
  rw [value_outlineValue] at h
  rw [unread?_outlineValue]
  cases hskip : skipBlanks text with
  | nil =>
    rw [hskip] at h
    cases h
  | cons c tail =>
    rw [hskip] at h
    by_cases harray : c = '['
    · subst harray
      have hitems : ((outlineItems true tail).value.toJson (limit + 1)).map
          Json.array = .ok value := h
      obtain ⟨values, hvalues, rfl⟩ := Text.exists_of_map_eq_ok hitems
      obtain ⟨vs, rest, hrest, hlist, rfl⟩ := hinner.exists_listAt tail hvalues
      exact ⟨.array vs, rest, hrest, .array hlist, rfl⟩
    by_cases hobject : c = '\x7b'
    · subst hobject
      have hmembers : ((outlineMembers true tail).value.toJson (limit + 1)).map
          (fun pairs => Json.object (Members.ofList pairs)) = .ok value := h
      obtain ⟨pairs, hpairs, rfl⟩ := Text.exists_of_map_eq_ok hmembers
      obtain ⟨ms, rest, hrest, hlist, rfl⟩ := hinner.exists_memberAt tail hpairs
      exact ⟨.object ms, rest, hrest, .object hlist, rfl⟩
    obtain ⟨v, rest, hrest, hscalar, hv⟩ := exists_scalarAt harray hobject h
    exact ⟨v, rest, hrest, .scalar hscalar, hv⟩

theorem soundFor_valueAt (levels : Nat) :
    SoundFor (levels + 1) (ValueAt levels) := by
  induction levels with
  | zero => exact soundFor_scalarAt
  | succ levels ih => exact ih.compoundAt

end Sound

end SqlWorkflow.Json
