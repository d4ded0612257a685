import SqlWorkflow.Proofs.Lexical.Boundary

/-!
# Tilings

A text is cut into lexemes in exactly one way. What a lexeme is can be said
without reading the text from the left: a character of code is one at which no
opener stands, and a comment or quotation reaches from the longest opener to the
first closer that counts. A closer in a quotation does not count after an odd
number of backslashes. The lexemes that are read are placed at byte offsets, and
these places tile the text.
-/

namespace SqlWorkflow.Lexical

/-! ## Where a stretch ends -/

/-- The number of backslashes at the end of a text. -/
def backslashesAtEnd (text : List Char) : Nat :=
  (text.reverse.takeWhile (· == '\\')).length

/-- What follows an odd number of backslashes is hidden: the last of them takes
it along. -/
def Hidden (before : List Char) : Prop :=
  backslashesAtEnd before % 2 = 1

/-- The closer of a stretch stands at the head of `rest`, and counts there: in a
quotation it must not be hidden by what stands before it in the stretch. -/
def Delimiter.ClosesAfter (d : Delimiter) (before rest : List Char) : Prop :=
  d.closer <+: rest ∧ (d.isComment = true ∨ ¬ Hidden before)

/-- No closer that counts begins in `body`, where `rest` follows. -/
def Delimiter.OpenThrough (d : Delimiter) (body rest : List Char) : Prop :=
  ∀ before after, before ++ after = body ++ rest → before.length < body.length →
    ¬ d.ClosesAfter before after

section Backslashes

theorem backslashesAtEnd_append (before after : List Char) :
    backslashesAtEnd (before ++ after) =
      backslashesAtEnd after + if backslashesAtEnd after = after.length then
        backslashesAtEnd before else 0 := by
  have hlength : after.reverse.length = after.length := List.length_reverse
  by_cases hall : backslashesAtEnd after = after.length
  · rw [if_pos hall, hall, backslashesAtEnd, List.reverse_append,
      List.takeWhile_append, if_pos (by exact hall.trans hlength.symm),
      List.length_append, hlength, backslashesAtEnd]
  · rw [if_neg hall, Nat.add_zero, backslashesAtEnd, List.reverse_append,
      List.takeWhile_append, if_neg fun h => hall (h.trans hlength),
      backslashesAtEnd]

theorem not_hidden_nil : ¬ Hidden [] := by
  simp [Hidden, backslashesAtEnd]

theorem hidden_backslash : Hidden ['\\'] := by
  simp [Hidden, backslashesAtEnd]

theorem hidden_cons {c : Char} (hc : c ≠ '\\')
    (before : List Char) : Hidden (c :: before) ↔ Hidden before := by
  have hnone : backslashesAtEnd [c] = 0 := by simp [backslashesAtEnd, hc]
  have hrun := backslashesAtEnd_append [c] before
  rw [hnone, ite_self] at hrun
  rw [Hidden, ← List.singleton_append, hrun, Nat.add_zero, Hidden]

/-- A backslash that takes the character after it along hides nothing else. -/
theorem hidden_escaped (c : Char)
    (before : List Char) : Hidden ('\\' :: c :: before) ↔ Hidden before := by
  have htwo : backslashesAtEnd ['\\', c] % 2 = 0 := by
    by_cases hc : c = '\\' <;> simp [backslashesAtEnd, hc]
  have hrun := backslashesAtEnd_append ['\\', c] before
  rw [Hidden, show '\\' :: c :: before = ['\\', c] ++ before from rfl,
    hrun, Hidden]
  split <;> omega

end Backslashes

section Stretches

variable {d : Delimiter}

theorem not_closesAfter_nil (before : List Char) :
    ¬ d.ClosesAfter before [] := by
  rintro ⟨hcloser, -⟩
  exact d.closer_ne_nil (List.prefix_nil.1 hcloser)

theorem openThrough_nil (rest : List Char) : d.OpenThrough [] rest := by
  intro before after _ hlength
  exact absurd hlength (Nat.not_lt_zero _)

/-- No closer begins with a backslash. -/
theorem not_closer_prefix_backslash (rest : List Char) :
    ¬ d.closer <+: '\\' :: rest := by
  cases d <;> simp [Delimiter.closer, List.cons_prefix_cons]

/-- A stretch stays open through a character at which no closer stands. -/
theorem Delimiter.OpenThrough.cons {c : Char} {body rest : List Char}
    (h : d.OpenThrough body rest) (hc : d.isComment = true ∨ c ≠ '\\')
    (hopen : ¬ d.closer <+: c :: (body ++ rest)) :
    d.OpenThrough (c :: body) rest := by
  intro before after happend hlength hcloses
  rw [List.cons_append] at happend
  cases before with
  | nil =>
    rw [← happend] at hopen
    exact hopen hcloses.1
  | cons e before =>
    simp only [List.cons_append, List.cons.injEq] at happend
    obtain ⟨rfl, happend⟩ := happend
    refine h before after happend (Nat.lt_of_succ_lt_succ hlength)
      ⟨hcloses.1, ?_⟩
    rcases hc with hcomment | hc
    · exact .inl hcomment
    · exact hcloses.2.imp_right fun hhidden =>
        mt (hidden_cons hc before).2 hhidden

/-- A quotation stays open through a backslash and the character after it. -/
theorem Delimiter.OpenThrough.escaped {body rest : List Char}
    (h : d.OpenThrough body rest) (hd : d.isComment = false)
    (c : Char) : d.OpenThrough ('\\' :: c :: body) rest := by
  intro before after happend hlength hcloses
  match before with
  | [] =>
    obtain rfl : after = '\\' :: c :: (body ++ rest) := happend
    exact not_closer_prefix_backslash _ hcloses.1
  | [e] =>
    obtain rfl : e = '\\' := (List.cons.inj happend).1
    rcases hcloses.2 with hcomment | hhidden
    · cases hd.symm.trans hcomment
    · exact hhidden hidden_backslash
  | e :: f :: before =>
    simp only [List.cons_append, List.cons.injEq] at happend
    obtain ⟨rfl, rfl, happend⟩ := happend
    refine h before after happend
      (Nat.lt_of_succ_lt_succ (Nat.lt_of_succ_lt_succ hlength)) ⟨hcloses.1, ?_⟩
    exact hcloses.2.imp_right fun hhidden =>
      mt (hidden_escaped f before).2 hhidden

theorem Delimiter.ClosesAfter.cons {c : Char} {body rest : List Char}
    (h : d.ClosesAfter body rest)
    (hc : d.isComment = true ∨ c ≠ '\\') : d.ClosesAfter (c :: body) rest := by
  refine ⟨h.1, ?_⟩
  rcases hc with hcomment | hc
  · exact .inl hcomment
  · exact h.2.imp_right fun hhidden => mt (hidden_cons hc body).1 hhidden

theorem Delimiter.ClosesAfter.escaped {body rest : List Char}
    (h : d.ClosesAfter body rest) (c : Char) :
    d.ClosesAfter ('\\' :: c :: body) rest :=
  ⟨h.1, h.2.imp_right fun hhidden => mt (hidden_escaped c body).1 hhidden⟩

end Stretches

/-- How a stretch goes on after its opener: to the first closer that counts, or
to the end of the text if there is none. A line comment may end with the
text. -/
inductive Delimiter.Reaches (d : Delimiter)
    (text : List Char) : Enclosure → Prop
  | closer {body rest : List Char}
      (htext : text = body ++ (d.ownCloser ++ rest))
      (hopen : d.OpenThrough body (d.ownCloser ++ rest))
      (hcloses : d.ClosesAfter body (d.ownCloser ++ rest)) :
      d.Reaches text ⟨body ++ d.ownCloser, rest, true⟩
  | ending (hopen : d.OpenThrough text []) :
      d.Reaches text ⟨text, [], d == .lineComment⟩

/-- A closer at the head of a text ends a stretch there. -/
theorem Delimiter.reaches_closer {d : Delimiter} {text : List Char}
    (h : d.closer.isPrefixOf text = true) :
    d.Reaches text ⟨d.ownCloser, text.drop d.ownCloser.length, true⟩ := by
  have happend := Delimiter.ownCloser_append_drop h
  refine @Delimiter.Reaches.closer d text [] _ happend.symm (openThrough_nil _)
    ⟨?_, .inr not_hidden_nil⟩
  rw [happend]
  exact List.isPrefixOf_iff_prefix.1 h

theorem Delimiter.Reaches.cons {d : Delimiter} {text : List Char}
    {e : Enclosure} (h : d.Reaches text e) {c : Char}
    (hc : d.isComment = true ∨ c ≠ '\\')
    (hopen : ¬ d.closer.isPrefixOf (c :: text) = true) :
    d.Reaches (c :: text) (e.after [c]) := by
  rw [List.isPrefixOf_iff_prefix] at hopen
  cases h with
  | closer htext hthrough hcloses =>
    subst htext
    exact .closer rfl (hthrough.cons hc hopen) (hcloses.cons hc)
  | ending hthrough =>
    exact .ending (hthrough.cons hc (by rwa [List.append_nil]))

theorem Delimiter.Reaches.escaped {d : Delimiter} {text : List Char}
    {e : Enclosure} (h : d.Reaches text e) (hd : d.isComment = false)
    (c : Char) : d.Reaches ('\\' :: c :: text) (e.after ['\\', c]) := by
  cases h with
  | closer htext hthrough hcloses =>
    subst htext
    exact .closer rfl (hthrough.escaped hd c) (hcloses.escaped c)
  | ending hthrough => exact .ending (hthrough.escaped hd c)

theorem Delimiter.reaches_enclosure (d : Delimiter)
    (text : List Char) : d.Reaches text (d.enclosure text) := by
  fun_induction Delimiter.enclosure d text with
  | case1 => exact .ending (openThrough_nil [])
  | case2 c hcloses => exact reaches_closer hcloses
  | case3 c hopen =>
    refine .ending fun before after happend hlength hcloses => hopen ?_
    obtain rfl := List.eq_nil_of_length_eq_zero (Nat.lt_one_iff.1 hlength)
    obtain rfl : after = [c] := happend
    exact List.isPrefixOf_iff_prefix.2 hcloses.1
  | case4 c e rest hhides ih =>
    obtain ⟨hd, hc⟩ := Bool.and_eq_true_iff.1 hhides
    obtain rfl := beq_iff_eq.1 hc
    exact ih.escaped (Bool.not_eq_true' _ |>.mp hd) e
  | case5 c e rest _ hcloses => exact reaches_closer hcloses
  | case6 c e rest hhides hopen ih =>
    have hc : d.isComment = true ∨ c ≠ '\\' := by
      cases hd : d.isComment
      · right
        simpa [hd] using hhides
      · exact .inl rfl
    exact ih.cons hc hopen

/-! ## One lexeme -/

/-- The delimiter whose opener stands at the head of a text; of several the one
with the longest opener. -/
structure Dialect.Opens (dialect : Dialect) (d : Delimiter)
    (text : List Char) : Prop where
  known : d ∈ dialect.delimiters
  stands : d.opener dialect <+: text
  longest : ∀ other ∈ dialect.delimiters, other.opener dialect <+: text →
    (other.opener dialect).length ≤ (d.opener dialect).length

/-- What a lexeme is, in front of the text that follows it. -/
inductive IsLexeme (dialect : Dialect) : Lexeme → List Char → Prop
  | code {c : Char} {rest : List Char}
      (hcode : ∀ d ∈ dialect.delimiters, ¬ d.opener dialect <+: c :: rest) :
      IsLexeme dialect (.code c) rest
  | enclosed {d : Delimiter} {text : List Char} {e : Enclosure}
      (hopens : dialect.Opens d (d.opener dialect ++ text))
      (hreaches : d.Reaches text e) :
      IsLexeme dialect
        (.enclosed d (d.opener dialect ++ e.inside) e.closed) e.rest

theorem Dialect.Opens.unique {dialect : Dialect} {d other : Delimiter}
    {text : List Char} (h : dialect.Opens d text)
    (hother : dialect.Opens other text) : d = other := by
  have hlength : (d.opener dialect).length = (other.opener dialect).length :=
    Nat.le_antisymm (hother.longest d h.known h.stands)
      (h.longest other hother.known hother.stands)
  have hopener : d.opener dialect = other.opener dialect :=
    (List.prefix_of_prefix_length_le h.stands hother.stands
      (Nat.le_of_eq hlength)).eq_of_length hlength
  have hknown := h.known
  have hother := hother.known
  revert hopener hknown hother
  cases dialect <;> cases d <;> cases other <;> decide

/-- No delimiter stands in the list of a dialect before one whose opener extends
its own. -/
theorem pairwise_delimiters (dialect : Dialect) :
    dialect.delimiters.Pairwise fun d other =>
      d.opener dialect <+: other.opener dialect →
        (other.opener dialect).length ≤ (d.opener dialect).length := by
  cases dialect <;> decide

theorem Dialect.opens_of_opening? {dialect : Dialect} {d : Delimiter}
    {text : List Char}
    (h : dialect.opening? text = some d) : dialect.Opens d text := by
  have hpairwise := pairwise_delimiters dialect
  have hstands := Dialect.opener_prefix_of_opening? h
  refine ⟨List.mem_of_find?_eq_some h, hstands, fun other hother hprefix => ?_⟩
  obtain ⟨-, first, last, hlist, hfirst⟩ := List.find?_eq_some_iff_append.1 h
  rw [hlist] at hother hpairwise
  rcases List.mem_append.1 hother with hmem | hmem
  · have hearlier := hfirst other hmem
    rw [List.isPrefixOf_iff_prefix.2 hprefix] at hearlier
    cases hearlier
  rcases List.mem_cons.1 hmem with rfl | hmem
  · exact Nat.le_refl _
  · have hlater :=
      List.rel_of_pairwise_cons (List.pairwise_append.1 hpairwise).2.1 hmem
    rcases Nat.le_total (other.opener dialect).length (d.opener dialect).length
      with hle | hle
    · exact hle
    · exact hlater (List.prefix_of_prefix_length_le hstands hprefix hle)

theorem isLexeme_of_next? {dialect : Dialect} {text rest : List Char}
    {lexeme : Lexeme} (h : next? dialect text = some (lexeme, rest)) :
    IsLexeme dialect lexeme rest := by
  cases text with
  | nil => cases h
  | cons c text =>
    simp only [next?] at h
    split at h
    · rename_i hnone
      cases h
      refine .code fun d hd hprefix => ?_
      exact List.find?_eq_none.1 hnone d hd
        (List.isPrefixOf_iff_prefix.2 hprefix)
    · rename_i d hd
      have hopens := Dialect.opens_of_opening? hd
      obtain ⟨tail, htail⟩ := hopens.stands
      rw [← htail] at h hopens
      rw [List.drop_left] at h
      cases h
      exact .enclosed hopens (d.reaches_enclosure tail)

/-- A stretch that is open through its body does not end before the end of the
body. -/
theorem Delimiter.OpenThrough.length_le {d : Delimiter}
    {body rest other after : List Char} (h : d.OpenThrough body rest)
    (hother : d.ClosesAfter other after)
    (htext : other ++ after = body ++ rest) : body.length ≤ other.length :=
  Nat.le_of_not_lt fun hlt => h other after htext hlt hother

/-- A stretch that is open up to the end of the text is not closed before. -/
theorem Delimiter.OpenThrough.not_closesAfter {d : Delimiter}
    {text body rest : List Char} (h : d.OpenThrough text [])
    (htext : text = body ++ rest) : ¬ d.ClosesAfter body rest := by
  intro hcloses
  have hle := h.length_le hcloses (by rw [List.append_nil, htext])
  have hlength := congrArg List.length htext
  rw [List.length_append] at hlength
  obtain rfl := List.eq_nil_of_length_eq_zero (by omega : rest.length = 0)
  exact not_closesAfter_nil body hcloses

theorem Delimiter.Reaches.unique {d : Delimiter} {text : List Char}
    {e other : Enclosure} (h : d.Reaches text e)
    (hother : d.Reaches text other) : e = other := by
  cases h with
  | closer htext hopen hcloses =>
    cases hother with
    | closer htext' hopen' hcloses' =>
      have hsame := htext.symm.trans htext'
      have hlength := Nat.le_antisymm (hopen.length_le hcloses' hsame.symm)
        (hopen'.length_le hcloses hsame)
      obtain ⟨rfl, hrest⟩ := List.append_inj hsame hlength
      rw [List.append_cancel_left hrest]
    | ending hopen' => exact absurd hcloses (hopen'.not_closesAfter htext)
  | ending hopen =>
    cases hother with
    | closer htext' _ hcloses' =>
      exact absurd hcloses' (hopen.not_closesAfter htext')
    | ending _ => rfl

theorem Delimiter.Reaches.inside_append_rest {d : Delimiter} {text : List Char}
    {e : Enclosure} (h : d.Reaches text e) : e.inside ++ e.rest = text := by
  cases h with
  | closer htext _ _ => rw [htext, List.append_assoc]
  | ending _ => exact List.append_nil text

/-- A text in which no opener stands at a character does not begin with a
stretch there. -/
theorem not_opens_of_code {dialect : Dialect} {d : Delimiter} {c : Char}
    {rest text : List Char}
    (hcode : ∀ d ∈ dialect.delimiters, ¬ d.opener dialect <+: c :: rest)
    (hopens : dialect.Opens d (d.opener dialect ++ text)) :
    c :: rest ≠ d.opener dialect ++ text := by
  intro htext
  have hstands := hopens.stands
  rw [← htext] at hstands
  exact hcode d hopens.known hstands

/-- A text has one first lexeme only. -/
theorem IsLexeme.unique {dialect : Dialect} {lexeme other : Lexeme}
    {rest after : List Char} (h : IsLexeme dialect lexeme rest)
    (hother : IsLexeme dialect other after)
    (htext : lexeme.text ++ rest = other.text ++ after) :
    lexeme = other ∧ rest = after := by
  cases h with
  | code hcode =>
    cases hother with
    | code _ =>
      obtain ⟨rfl, rfl⟩ := List.cons.inj htext
      exact ⟨rfl, rfl⟩
    | enclosed hopens hreaches =>
      rw [Lexeme.text, Lexeme.text, List.append_assoc,
        hreaches.inside_append_rest] at htext
      exact absurd htext (not_opens_of_code hcode hopens)
  | enclosed hopens hreaches =>
    cases hother with
    | code hcode =>
      rw [Lexeme.text, Lexeme.text, List.append_assoc,
        hreaches.inside_append_rest] at htext
      exact absurd htext.symm (not_opens_of_code hcode hopens)
    | enclosed hopens' hreaches' =>
      rw [Lexeme.text, Lexeme.text, List.append_assoc,
        hreaches.inside_append_rest, List.append_assoc,
        hreaches'.inside_append_rest] at htext
      rw [← htext] at hopens'
      obtain rfl := hopens.unique hopens'
      obtain rfl := List.append_cancel_left htext
      obtain rfl := hreaches.unique hreaches'
      exact ⟨rfl, rfl⟩

theorem IsLexeme.text_ne_nil {dialect : Dialect} {lexeme : Lexeme}
    {rest : List Char}
    (h : IsLexeme dialect lexeme rest) : lexeme.text ≠ [] := by
  cases h with
  | code _ => exact List.cons_ne_nil _ _
  | enclosed _ _ =>
    exact List.append_ne_nil_of_left_ne_nil
      (Delimiter.opener_ne_nil dialect _) _

/-- The lexeme at the head of a text is the one that stands there. -/
theorem next?_eq_some_iff {dialect : Dialect} {text rest : List Char}
    {lexeme : Lexeme} :
    next? dialect text = some (lexeme, rest) ↔
      text = lexeme.text ++ rest ∧ IsLexeme dialect lexeme rest := by
  constructor
  · intro h
    exact ⟨(next?_append h).symm, isLexeme_of_next? h⟩
  · rintro ⟨rfl, hlexeme⟩
    cases hnext : next? dialect (lexeme.text ++ rest) with
    | none =>
      have hnil := next?_eq_none_iff.1 hnext
      exact absurd (List.append_eq_nil_iff.1 hnil).1 hlexeme.text_ne_nil
    | some read =>
      obtain ⟨rfl, rfl⟩ :=
        (isLexeme_of_next? hnext).unique hlexeme (next?_append hnext)
      rfl

/-! ## Lexemes at their places -/

/-- A lexeme at its place: the bytes from `start` up to `stop`. -/
structure Span where
  lexeme : Lexeme
  start : Nat
  stop : Nat

/-- The lexemes one after another, the first at byte `start`. -/
def placed (start : Nat) : List Lexeme → List Span
  | [] => []
  | lexeme :: rest =>
    ⟨lexeme, start, start + Text.byteCount lexeme.text⟩ ::
      placed (start + Text.byteCount lexeme.text) rest

/-- What is read of a text from byte `start` on. -/
def spans (dialect : Dialect) (text : List Char) (start : Nat) : List Span :=
  placed start (lexemes dialect (Text.dropBytes start text))

/-- Spans tile a text from a byte on: each stands between two parts of the text,
begins where the one before it stops, and is a lexeme in front of the part after
it; the last one stops at the end of the text. -/
inductive Tiles (dialect : Dialect) (text : List Char) : Nat → List Span → Prop
  | done : Tiles dialect text (Text.byteCount text) []
  | span {before after : List Char} {lexeme : Lexeme} {rest : List Span}
      (htext : text = before ++ (lexeme.text ++ after))
      (hlexeme : IsLexeme dialect lexeme after)
      (hrest :
        Tiles dialect text (Text.byteCount (before ++ lexeme.text)) rest) :
      Tiles dialect text (Text.byteCount before) (⟨lexeme,
        Text.byteCount before, Text.byteCount (before ++ lexeme.text)⟩ :: rest)

section Spans

variable {dialect : Dialect}

theorem spans_append (dialect : Dialect) (before unread : List Char) :
    spans dialect (before ++ unread) (Text.byteCount before) =
      placed (Text.byteCount before) (lexemes dialect unread) := by
  rw [spans, Text.dropBytes_byteCount_append]

theorem spans_end (text : List Char) :
    spans dialect text (Text.byteCount text) = [] := by
  have hspans := spans_append dialect text []
  rwa [List.append_nil, lexemes_nil] at hspans

theorem spans_lexeme (before : List Char) {lexeme : Lexeme} {after : List Char}
    (h : IsLexeme dialect lexeme after) :
    spans dialect (before ++ (lexeme.text ++ after)) (Text.byteCount before) =
      ⟨lexeme, Text.byteCount before, Text.byteCount (before ++ lexeme.text)⟩ ::
        spans dialect (before ++ (lexeme.text ++ after))
          (Text.byteCount (before ++ lexeme.text)) := by
  have hrest := spans_append dialect (before ++ lexeme.text) after
  rw [List.append_assoc] at hrest
  rw [hrest, spans_append, lexemes_of_next? (next?_eq_some_iff.2 ⟨rfl, h⟩),
    placed, Text.byteCount_append]

theorem tiles_spans (dialect : Dialect) (before unread : List Char) :
    Tiles dialect (before ++ unread) (Text.byteCount before)
      (spans dialect (before ++ unread) (Text.byteCount before)) := by
  fun_induction lexemes dialect unread generalizing before with
  | case1 unread hnone =>
    obtain rfl := next?_eq_none_iff.1 hnone
    rw [List.append_nil, spans_end]
    exact .done
  | case2 unread lexeme rest hnext ih =>
    obtain ⟨rfl, hlexeme⟩ := next?_eq_some_iff.1 hnext
    have hrest := ih (before ++ lexeme.text)
    rw [List.append_assoc] at hrest
    rw [spans_lexeme before hlexeme]
    exact .span rfl hlexeme hrest

theorem Tiles.eq_spans {text : List Char} {start : Nat} {units : List Span}
    (h : Tiles dialect text start units) :
    units = spans dialect text start := by
  induction h with
  | done => exact (spans_end text).symm
  | span htext hlexeme _ ih =>
    subst htext
    rw [spans_lexeme _ hlexeme, ih]

/-- A tiling may be taken up again at any of its spans. -/
theorem Tiles.exists_span {text : List Char} {start : Nat}
    {first rest : List Span} {span : Span}
    (h : Tiles dialect text start (first ++ span :: rest)) :
    ∃ before after, text = before ++ (span.lexeme.text ++ after) ∧
      IsLexeme dialect span.lexeme after ∧ span.start = Text.byteCount before ∧
      span.stop = Text.byteCount (before ++ span.lexeme.text) ∧
      Tiles dialect text span.stop rest := by
  induction first generalizing start with
  | nil =>
    cases h with
    | @span before after _ _ htext hlexeme hrest =>
      exact ⟨before, after, htext, hlexeme, rfl, rfl, hrest⟩
  | cons _ first ih =>
    cases h with
    | span _ _ hrest => exact ih hrest

theorem IsLexeme.eq_nil_of_not_terminated {lexeme : Lexeme} {after : List Char}
    (h : IsLexeme dialect lexeme after)
    (hopen : ¬ lexeme.Terminated) : after = [] := by
  have hnext := next?_eq_some_iff.2 ⟨rfl, h⟩
  by_cases hafter : after = []
  · exact hafter
  · exact absurd (terminated_of_next? hnext hafter) hopen

/-- From any boundary of characters on, a text is tiled by the spans that are
read, and in no other way. The spans are not empty, only the last one can be
left open by the text, and reading again where one of them stops gives those
that follow it. -/
theorem spans_exact (dialect : Dialect) (before unread : List Char) :
    (∀ units, Tiles dialect (before ++ unread) (Text.byteCount before) units ↔
      units = spans dialect (before ++ unread) (Text.byteCount before)) ∧
      ∀ first span rest,
        spans dialect (before ++ unread) (Text.byteCount before) =
          first ++ span :: rest →
          span.start < span.stop ∧
            (¬ span.lexeme.Terminated →
              rest = [] ∧ span.stop = Text.byteCount (before ++ unread)) ∧
            spans dialect (before ++ unread) span.stop = rest := by
  have htiles := tiles_spans dialect before unread
  constructor
  · intro units
    constructor
    · exact Tiles.eq_spans
    · rintro rfl
      exact htiles
  · intro first span rest hspans
    rw [hspans] at htiles
    obtain ⟨left, right, htext, hlexeme, hstart, hstop, hrest⟩ :=
      htiles.exists_span
    refine ⟨?_, fun hopen => ?_, hrest.eq_spans.symm⟩
    · have hpos := Text.byteCount_pos hlexeme.text_ne_nil
      rw [hstart, hstop, Text.byteCount_append]
      omega
    · obtain rfl := hlexeme.eq_nil_of_not_terminated hopen
      rw [List.append_nil] at htext
      rw [← htext] at hstop
      refine ⟨?_, hstop⟩
      rw [hrest.eq_spans, hstop, spans_end]

end Spans

end SqlWorkflow.Lexical
