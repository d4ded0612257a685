import Mathlib.Data.List.Chain
import SqlWorkflow.Proofs.Lexical.Boundary
import SqlWorkflow.Proofs.Template.Literal

/-!
# Segments and templates

Segments are written one after another: a text with a backslash before every
opening of a placeholder in it, an expression between the marks of a
placeholder. Cutting a template undoes this. What a template is cut into is
written as that template, and a list of segments that can come out of a cut is
what its written form is cut into. A cut fails only at an opening that is not
escaped and has no matching brace.
-/

namespace SqlWorkflow.Template

open Lexical

/-- A text with a backslash before every opening of a placeholder. -/
def escaped : List Char → List Char
  | '$' :: '{' :: rest => '\\' :: '$' :: '{' :: escaped rest
  | c :: rest => c :: escaped rest
  | [] => []

def Segment.written : Segment → List Char
  | .text content => escaped content.toList
  | .placeholder source => '$' :: '{' :: (source.toList ++ ['}'])

/-- The template that segments make up. -/
def written (segments : List Segment) : List Char :=
  segments.flatMap Segment.written

/-- Whether one segment may stand right before another. A backslash at the end
of a text would hide the opening of the placeholder after it. -/
def Segment.MayPrecede : Segment → Segment → Prop
  | .text _, .text _ => False
  | .text content, .placeholder _ => content.toList.getLast? ≠ some '\\'
  | .placeholder _, _ => True

/-- The brace that closes a placeholder is the one after its expression. -/
def Closed (source : String) : Prop :=
  closingOffset? .script (source.toList ++ ['}']) 0 =
    some (Text.byteCount source.toList)

/-- Segments that a template may be cut into. -/
structure Separated (segments : List Segment) : Prop where
  nonempty : ∀ content, .text content ∈ segments → content ≠ ""
  apart : segments.IsChain Segment.MayPrecede
  closed : ∀ source, .placeholder source ∈ segments → Closed source

/-- After some segments of a template a placeholder opens that is never
closed. -/
structure Unclosed (template : List Char) (before : List Segment)
    (inside : List Char) : Prop where
  written_eq : written before ++ '$' :: '{' :: inside = template
  separated : Separated before
  unescaped : ∀ content, .text content ∈ before.getLast? →
    content.toList.getLast? ≠ some '\\'
  unclosed : closingOffset? .script template
    (Text.byteCount (written before ++ ['$', '{'])) = none

/-- What the cut of a template that begins on a line comes to. -/
inductive CutsTo (line : Nat)
    (template : List Char) : Except UnclosedPlaceholder (List Segment) → Prop
  | segments {segments : List Segment} (hwritten : written segments = template)
      (h : Separated segments) : CutsTo line template (.ok segments)
  | unclosed {before : List Segment} {inside : List Char}
      (h : Unclosed template before inside) :
      CutsTo line template (.error ⟨line + Text.lineFeeds (written before)⟩)

/-! ## Escaping -/

theorem escaped_cons {c : Char} {text : List Char}
    (h : c = '$' → text.head? ≠ some '{') :
    escaped (c :: text) = c :: escaped text := by
  rw [escaped]
  rintro tail rfl rfl
  exact h rfl rfl

theorem escaped_singleton (c : Char) : escaped [c] = [c] :=
  escaped_cons fun _ => nofun

/-- Two texts are escaped one by one, unless an opening begins in the first and
ends in the second. -/
theorem escaped_append {left right : List Char}
    (h : left.getLast? = some '$' → right.head? ≠ some '{') :
    escaped (left ++ right) = escaped left ++ escaped right := by
  fun_induction escaped left with
  | case1 left ih =>
    have hleft : left.getLast? = some '$' →
        right.head? ≠ some '{' := fun hlast =>
      h (List.mem_getLast?_cons (List.mem_getLast?_cons hlast))
    rw [List.cons_append, List.cons_append, escaped, ih hleft]
    rfl
  | case2 c left hopening ih =>
    have hleft : left.getLast? = some '$' →
        right.head? ≠ some '{' := fun hlast =>
      h (List.mem_getLast?_cons hlast)
    have hhead : c = '$' → (left ++ right).head? ≠ some '{' := by
      rintro rfl
      cases left with
      | nil => exact h rfl
      | cons d left =>
        intro hd
        cases hd
        exact hopening left rfl rfl
    rw [List.cons_append, escaped_cons hhead, ih hleft]
    rfl
  | case3 => rfl

theorem lineFeeds_escaped (text : List Char) :
    Text.lineFeeds (escaped text) = Text.lineFeeds text := by
  fun_induction escaped text with
  | case1 rest ih => simpa [Text.lineFeeds] using ih
  | case2 c rest _ ih =>
    rw [Text.lineFeeds] at ih ⊢
    rw [List.count_cons, ih, Text.lineFeeds, Text.lineFeeds, List.count_cons]
  | case3 => rfl

theorem lineFeeds_cons (c : Char) (text : List Char) :
    Text.lineFeeds (c :: text) = Text.lineFeeds text + if c = '\n' then
      1 else 0 := by
  simp [Text.lineFeeds, List.count_cons]

/-- An escaped text does not begin with a brace, unless the text does. -/
theorem head?_append_of_escaped {text rest : List Char}
    (h : (escaped text ++ rest).head? = some '{') :
    (text ++ rest).head? = some '{' := by
  fun_cases escaped text with
  | case1 => cases h
  | case2 c text hopening =>
    rw [escaped] at h
    · exact h
    · exact hopening
  | case3 => exact h

/-- No placeholder opens in an escaped text: an opening at its head stands after
it. -/
theorem eq_nil_of_opening {text rest inside : List Char}
    (hrest : rest.head? ≠ some '{')
    (h : escaped text ++ rest = '$' :: '{' :: inside) : text = [] := by
  fun_cases escaped text with
  | case1 => cases h
  | case2 c text hopening =>
    rw [escaped] at h
    · obtain ⟨rfl, htail⟩ := List.cons.inj h
      have hhead := head?_append_of_escaped (congrArg List.head? htail)
      cases text with
      | nil => exact absurd hhead hrest
      | cons d text =>
        cases hhead
        exact absurd rfl (hopening text rfl)
    · exact hopening
  | case3 => rfl

/-! ## From segments to the template and back -/

section Written

variable {segments : List Segment}

theorem written_cons (segment : Segment) (segments : List Segment) :
    written (segment :: segments) = segment.written ++ written segments := rfl

theorem Separated.tail {segment : Segment}
    (h : Separated (segment :: segments)) : Separated segments where
  nonempty content hmem := h.nonempty content (List.mem_cons_of_mem _ hmem)
  apart := h.apart.tail
  closed source hmem := h.closed source (List.mem_cons_of_mem _ hmem)

theorem separated_nil : Separated [] where
  nonempty _ := nofun
  apart := .nil
  closed _ := nofun

theorem lineFeeds_placeholder (source : String) :
    Text.lineFeeds (Segment.placeholder source).written =
      Text.lineFeeds source.toList := by
  simp [Segment.written, Text.lineFeeds]

/-- The brace that closes a placeholder does not depend on what follows the
placeholder. -/
theorem Closed.closing? {source : String} (h : Closed source)
    (after : List Char) :
    Lexical.closing? .script 0 (source.toList ++ '}' :: after) =
      some (source.toList, after) := by
  rw [Closed, closingOffset?, Text.dropBytes_zero] at h
  obtain ⟨⟨inside, last⟩, hclosing, hcount⟩ := Option.map_eq_some_iff.1 h
  change 0 + Text.byteCount inside = _ at hcount
  have hinside : inside = source.toList := by
    rw [Nat.zero_add] at hcount
    rw [← Text.takeBytes_byteCount_append source.toList ['}'], ← hcount,
      ← closing?_append hclosing, Text.takeBytes_byteCount_append]
  have hlast := closing?_append hclosing
  rw [hinside] at hlast
  cases List.append_cancel_left hlast
  rw [hinside] at hclosing
  exact closing?_boundary hclosing after

theorem closed_of_closing? {source after : List Char}
    (h : Lexical.closing? .script 0 (source ++ '}' :: after) =
      some (source, after)) :
    Closed (String.ofList source) := by
  rw [Closed, String.toList_ofList]
  exact closingOffset?_of_closing? [] (closing?_boundary h [])

/-- A closed placeholder is cut off the head of a template. -/
theorem cut_placeholder {source : String} (h : Closed source) (line : Nat)
    (reversed after : List Char) :
    cut line reversed ((Segment.placeholder source).written ++ after) =
      (cut (line + Text.lineFeeds source.toList) [] after).map fun segments =>
        flush reversed (.placeholder source :: segments) := by
  have hclosing := h.closing? after
  have htext : (Segment.placeholder source).written ++ after =
      '$' :: '{' :: (source.toList ++ '}' :: after) := by
    simp [Segment.written]
  rw [htext, cut]
  split
  · rename_i hopen
    cases hopen.symm.trans hclosing
  · rename_i hsome
    cases hsome.symm.trans hclosing
    rw [String.ofList_toList]

/-- An escaped text is added to the pending text, without the backslashes. -/
theorem cut_escaped {text rest : List Char} (hrest : rest.head? ≠ some '{')
    (hhides : rest ≠ [] → text.getLast? ≠ some '\\') (line : Nat)
    (reversed : List Char) :
    cut line reversed (escaped text ++ rest) =
      cut (line + Text.lineFeeds text) (text.reverse ++ reversed) rest := by
  fun_induction escaped text generalizing line reversed with
  | case1 text ih =>
    have htext : rest ≠ [] → text.getLast? ≠ some '\\' := fun hne hlast =>
      hhides hne (List.mem_getLast?_cons (List.mem_getLast?_cons hlast))
    rw [List.cons_append, List.cons_append, List.cons_append, cut, ih htext]
    simp [Text.lineFeeds]
  | case2 c text hopening ih =>
    have htext : rest ≠ [] → text.getLast? ≠ some '\\' := fun hne hlast =>
      hhides hne (List.mem_getLast?_cons hlast)
    rw [List.cons_append, cut, ih htext]
    · have hline : (if c = '\n' then line + 1 else line) + Text.lineFeeds text =
          line + Text.lineFeeds (c :: text) := by
        rw [lineFeeds_cons]
        by_cases hc : c = '\n'
        · rw [if_pos hc, if_pos hc]
          omega
        · rw [if_neg hc, if_neg hc]
          omega
      rw [hline, List.reverse_cons, List.append_assoc]
      rfl
    · rintro tail rfl htail
      obtain rfl := eq_nil_of_opening hrest htail
      refine hhides ?_ rfl
      rintro rfl
      cases htail
    · rintro tail rfl htail
      have hhead := head?_append_of_escaped (congrArg List.head? htail)
      cases text with
      | nil => exact hrest hhead
      | cons d text =>
        cases hhead
        exact hopening text rfl rfl
  | case3 => rfl

/-- Pending text before segments that do not begin with a text. -/
theorem flush_toList {content : String} (h : content ≠ "")
    (segments : List Segment) :
    flush content.toList.reverse segments = .text content :: segments := by
  have hne : content.toList ≠ [] := fun hnil => h (String.toList_inj.1 hnil)
  rw [flush, if_neg (by simpa using hne), List.reverse_reverse,
    String.ofList_toList]

/-- What may follow a text: nothing, or the opening of a placeholder that the
text does not hide. -/
theorem Separated.follows {content : String} {rest : List Char}
    (h : Separated (.text content :: segments)) (hhead : rest.head? ≠ some '{')
    (hhides : segments = [] → rest ≠ [] → content.toList.getLast? ≠ some '\\') :
    (written segments ++ rest).head? ≠ some '{' ∧
      (written segments ++ rest ≠ [] →
        content.toList.getLast? ≠ some '\\') := by
  cases segments with
  | nil => exact ⟨hhead, hhides rfl⟩
  | cons segment segments =>
    have hnext := (List.isChain_cons_cons.1 h.apart).1
    cases segment with
    | text other => cases hnext
    | placeholder source => exact ⟨nofun, fun _ => hnext⟩

/-- What segments are written as is cut into them, where the rest of the
template is cut at once: because it is empty, or because it begins with an
opening that is never closed. -/
theorem cut_written_append {rest : List Char}
    {finish : Nat → Except UnclosedPlaceholder Unit} (hrest : ∀ line reversed,
      cut line reversed rest = (finish line).map fun _ => flush reversed [])
    (hhead : rest.head? ≠ some '{') (h : Separated segments)
    (hhides : rest ≠ [] → ∀ content, .text content ∈ segments.getLast? →
      content.toList.getLast? ≠ some '\\') (line : Nat) (reversed : List Char)
    (hpending : reversed ≠ [] → ∀ content, .text content ∉ segments.head?) :
    cut line reversed (written segments ++ rest) =
      (finish (line + Text.lineFeeds (written segments))).map fun _ =>
        flush reversed segments := by
  induction segments generalizing line reversed with
  | nil => exact hrest line reversed
  | cons segment segments ih =>
    have htail : rest ≠ [] → ∀ content, .text content ∈ segments.getLast? →
        content.toList.getLast? ≠ some '\\' := by
      intro hne content hlast
      apply hhides hne content
      cases segments with
      | nil => cases hlast
      | cons => exact hlast
    rw [written_cons, List.append_assoc, Text.lineFeeds_append, ← Nat.add_assoc]
    cases segment with
    | placeholder source =>
      rw [cut_placeholder (h.closed source List.mem_cons_self),
        ih h.tail htail _ _ nofun, lineFeeds_placeholder]
      cases finish (line + Text.lineFeeds source.toList +
        Text.lineFeeds (written segments)) <;> rfl
    | text content =>
      have hnone : reversed = [] := by
        by_contra hne
        exact hpending hne content rfl
      have hnext : content.toList.reverse ≠ [] →
          ∀ other, .text other ∉ segments.head? := by
        rintro - other hother
        obtain ⟨tail, rfl⟩ := List.head?_eq_some_iff.1 hother
        exact (List.isChain_cons_cons.1 h.apart).1
      obtain ⟨hwritten, hhidden⟩ :=
        h.follows hhead fun hnil hne => hhides hne content (by rw [hnil]; rfl)
      rw [hnone, Segment.written, cut_escaped hwritten hhidden, List.append_nil,
        ih h.tail htail _ _ hnext, lineFeeds_escaped,
        flush_toList (h.nonempty content List.mem_cons_self)]
      rfl

/-- The search for the brace begins right after the opening. -/
theorem closingOffset?_opening_eq_none_iff {before inside : List Char} :
    closingOffset? .script (before ++ '$' :: '{' :: inside)
      (Text.byteCount (before ++ ['$', '{'])) = none ↔
      closing? .script 0 inside = none := by
  have htext : before ++ '$' :: '{' :: inside =
      (before ++ ['$', '{']) ++ inside := by simp
  rw [htext, closingOffset?, Text.dropBytes_byteCount_append,
    Option.map_eq_none_iff]

/-- What a template is written from is what it is cut to. -/
theorem CutsTo.cut_eq {line : Nat} {template : List Char}
    {result : Except UnclosedPlaceholder (List Segment)}
    (h : CutsTo line template result) : cut line [] template = result := by
  cases h with
  | @segments segments hwritten h =>
    have hrest (line : Nat) (reversed : List Char) : cut line reversed [] =
        (Except.ok ()).map fun _ => flush reversed [] := by
      rw [cut]
      rfl
    rw [← hwritten, ← List.append_nil (written segments),
      cut_written_append hrest (by simp) h (fun hne => absurd rfl hne) line []
        fun hne => absurd rfl hne]
    rfl
  | @unclosed before inside h =>
    have hopen := h.unclosed
    rw [← h.written_eq, closingOffset?_opening_eq_none_iff] at hopen
    have hrest (line : Nat) (reversed : List Char) :
        cut line reversed ('$' :: '{' :: inside) =
          (Except.error (UnclosedPlaceholder.mk line)).map fun (_ : Unit) =>
            flush reversed [] := by
      rw [cut]
      split
      · rfl
      · rename_i hsome
        cases hopen.symm.trans hsome
    rw [← h.written_eq, cut_written_append hrest (by simp) h.separated
      (fun _ => h.unescaped) line [] fun hne => absurd rfl hne]
    rfl

/-- The text that is pending before a template neither opens a placeholder
together with it nor hides one. -/
structure Pending (reversed template : List Char) : Prop where
  dollar : reversed.head? = some '$' → template.head? ≠ some '{'
  backslash : reversed.head? = some '\\' → ¬ ['$', '{'] <+: template

theorem pending_nil (template : List Char) : Pending [] template :=
  ⟨nofun, nofun⟩

theorem escaped_pending {reversed template : List Char} {c : Char}
    (h : Pending reversed (c :: template)) :
    escaped (c :: reversed).reverse = escaped reversed.reverse ++ [c] := by
  rw [List.reverse_cons, escaped_append, escaped_singleton]
  rw [List.getLast?_reverse]
  exact h.dollar

theorem written_flush (reversed : List Char) (segments : List Segment) :
    written (flush reversed segments) =
      escaped reversed.reverse ++ written segments := by
  cases reversed with
  | nil => rfl
  | cons c reversed =>
    rw [flush, if_neg (by simp), written_cons, Segment.written,
      String.toList_ofList]

/-- Pending text may be put before segments that do not begin with a text, if it
does not hide their opening. -/
theorem Separated.flush {reversed : List Char} (h : Separated segments)
    (hhead : ∀ segment ∈ segments.head?, ∃ source,
      segment = .placeholder source ∧ reversed.head? ≠ some '\\') :
    Separated (flush reversed segments) := by
  cases reversed with
  | nil => exact h
  | cons c reversed =>
    rw [Template.flush, if_neg (by simp)]
    constructor
    · intro content hmem
      rcases List.mem_cons.1 hmem with heq | hmem
      · cases heq
        intro hempty
        simpa using congrArg String.toList hempty
      · exact h.nonempty content hmem
    · rw [List.isChain_cons]
      refine ⟨?_, h.apart⟩
      intro segment hsegment
      obtain ⟨source, rfl, hhides⟩ := hhead segment hsegment
      rwa [Segment.MayPrecede, String.toList_ofList, List.getLast?_reverse]
    · intro source hmem
      rcases List.mem_cons.1 hmem with heq | hmem
      · cases heq
      · exact h.closed source hmem

theorem separated_flush_nil (reversed : List Char) :
    Separated (flush reversed []) := by
  apply separated_nil.flush
  intro segment hsegment
  cases hsegment

theorem Separated.placeholder_cons {source : String} (h : Separated segments)
    (hclosed : Closed source) :
    Separated (.placeholder source :: segments) where
  nonempty content hmem := by
    rcases List.mem_cons.1 hmem with heq | hmem
    · cases heq
    · exact h.nonempty content hmem
  apart := List.isChain_cons.2 ⟨fun _ _ => trivial, h.apart⟩
  closed other hmem := by
    rcases List.mem_cons.1 hmem with heq | hmem
    · cases heq
      exact hclosed
    · exact h.closed other hmem

/-- The segments that are pending before a placeholder, and what the template
goes on with after it. -/
theorem written_flush_placeholder (reversed source : List Char)
    (segments : List Segment) (rest : List Char) :
    written (flush reversed
      (.placeholder (String.ofList source) :: segments)) ++ rest =
      escaped reversed.reverse ++ '$' :: '{' ::
        (source ++ '}' :: (written segments ++ rest)) := by
  rw [written_flush, written_cons, Segment.written, String.toList_ofList]
  simp

theorem toList_of_mem_getLast?_flush {reversed : List Char} {content : String}
    (h : .text content ∈ (flush reversed []).getLast?) :
    content.toList = reversed.reverse := by
  cases reversed with
  | nil => cases h
  | cons c reversed =>
    rw [flush, if_neg (by simp)] at h
    cases h
    exact String.toList_ofList

theorem getLast?_flush_cons (reversed : List Char) (segment : Segment)
    (segments : List Segment) :
    (flush reversed (segment :: segments)).getLast? =
      (segment :: segments).getLast? := by
  cases reversed with
  | nil => rfl
  | cons c reversed => rfl

theorem lineFeeds_written_flush (reversed : List Char)
    (segments : List Segment) :
    Text.lineFeeds (written (flush reversed segments)) =
      Text.lineFeeds reversed + Text.lineFeeds (written segments) := by
  rw [written_flush, Text.lineFeeds_append, lineFeeds_escaped, Text.lineFeeds,
    List.count_reverse]
  rfl

/-- A closed placeholder, with the text before it that is pending, may be put
before what the rest of the template is cut to. -/
theorem CutsTo.placeholder {line first : Nat}
    {reversed source after : List Char}
    {result : Except UnclosedPlaceholder (List Segment)}
    (h : CutsTo (line + Text.lineFeeds source) after result)
    (hclosed : Closed (String.ofList source))
    (hhides : reversed.head? ≠ some '\\')
    (hline : line = first + Text.lineFeeds reversed) :
    CutsTo first (escaped reversed.reverse ++ '$' :: '{' ::
      (source ++ '}' :: after)) (result.map fun segments =>
        flush reversed (.placeholder (String.ofList source) :: segments)) := by
  have hflush {segments : List Segment} (h : Separated segments) : Separated
      (flush reversed (.placeholder (String.ofList source) :: segments)) :=
    (h.placeholder_cons hclosed).flush fun segment hsegment =>
      ⟨_, (Option.some.inj hsegment).symm, hhides⟩
  cases h with
  | segments hwritten h =>
    refine .segments ?_ (hflush h)
    rw [← List.append_nil (written _), written_flush_placeholder,
      List.append_nil, hwritten]
  | @unclosed before inside h =>
    have hfirst :
        line + Text.lineFeeds source + Text.lineFeeds (written before) =
          first + Text.lineFeeds (written (flush reversed
            (.placeholder (String.ofList source) :: before))) := by
      rw [lineFeeds_written_flush, written_cons, Text.lineFeeds_append,
        lineFeeds_placeholder, String.toList_ofList, hline]
      omega
    have htemplate : written
        (flush reversed (.placeholder (String.ofList source) :: before)) ++
        '$' :: '{' :: inside =
        escaped reversed.reverse ++ '$' :: '{' :: (source ++ '}' :: after) := by
      rw [written_flush_placeholder, h.written_eq]
    have hopen := h.unclosed
    rw [← h.written_eq, closingOffset?_opening_eq_none_iff] at hopen
    rw [Except.map, hfirst]
    refine .unclosed ⟨htemplate, hflush h.separated, ?_, ?_⟩
    · intro content hlast
      rw [getLast?_flush_cons, List.getLast?_cons] at hlast
      cases hbefore : before.getLast? with
      | none =>
        rw [hbefore] at hlast
        cases hlast
      | some last =>
        rw [hbefore] at hlast
        exact h.unescaped content (hbefore.trans hlast)
    · rw [← htemplate]
      exact closingOffset?_opening_eq_none_iff.2 hopen

/-- Cutting a template, with the text before it that is pending, comes to what
it should. -/
theorem cutsTo_cut {line first : Nat} {reversed template : List Char}
    (hpending : Pending reversed template)
    (hline : line = first + Text.lineFeeds reversed) :
    CutsTo first (escaped reversed.reverse ++ template)
      (cut line reversed template) := by
  fun_induction cut line reversed template generalizing first with
  | case1 line reversed =>
    refine .segments ?_ (separated_flush_nil reversed)
    rw [written_flush]
    rfl
  | case2 line reversed rest ih =>
    have hnext : Pending ('{' :: '$' :: reversed) rest := ⟨by simp, by simp⟩
    have hopening : escaped ('{' :: '$' :: reversed).reverse =
        escaped reversed.reverse ++ ['\\', '$', '{'] := by
      rw [List.reverse_cons, List.reverse_cons, List.append_assoc,
        escaped_append (by simp)]
      rfl
    have hcuts := ih hnext (by simpa [Text.lineFeeds] using hline)
    rwa [hopening, List.append_assoc] at hcuts
  | case3 line reversed inside hopen =>
    have hfirst : line =
        first + Text.lineFeeds (written (flush reversed [])) := by
      rw [hline, lineFeeds_written_flush]
      rfl
    have hwritten : escaped reversed.reverse = written (flush reversed []) :=
      ((written_flush reversed []).trans (List.append_nil _)).symm
    rw [hfirst, hwritten]
    refine .unclosed ⟨rfl, separated_flush_nil reversed, ?_,
      closingOffset?_opening_eq_none_iff.2 hopen⟩
    intro content hlast
    rw [toList_of_mem_getLast?_flush hlast, List.getLast?_reverse]
    exact fun heq => hpending.backslash heq ⟨inside, rfl⟩
  | case4 line reversed inside source after hclosing ih =>
    obtain rfl := closing?_append hclosing
    exact (ih (pending_nil after) rfl).placeholder (closed_of_closing? hclosing)
      (fun heq => hpending.backslash heq ⟨_, rfl⟩) hline
  | case5 line reversed c rest hescaped hopening ih =>
    have hnext : Pending (c :: reversed) rest := by
      constructor
      · rintro heq hhead
        cases heq
        obtain ⟨tail, rfl⟩ := List.head?_eq_some_iff.1 hhead
        exact hopening tail rfl rfl
      · rintro heq ⟨tail, rfl⟩
        cases heq
        exact hescaped tail rfl rfl
    have hlines : (if c = '\n' then line + 1 else line) =
        first + Text.lineFeeds (c :: reversed) := by
      rw [hline, lineFeeds_cons]
      split <;> omega
    have hcuts := ih hnext hlines
    rwa [escaped_pending hpending, List.append_assoc] at hcuts

theorem cut_eq_iff {line : Nat} {template : List Char}
    {result : Except UnclosedPlaceholder (List Segment)} :
    cut line [] template = result ↔ CutsTo line template result := by
  constructor
  · rintro rfl
    exact cutsTo_cut (pending_nil template) rfl
  · exact CutsTo.cut_eq

end Written

/-- The expression of a placeholder is shorter than the template. -/
theorem length_lt_of_placeholder {template source : String}
    {list : List Segment} (h : segments template = .ok list)
    (hmem : .placeholder source ∈ list) : source.length < template.length := by
  rw [segments, cut_eq_iff] at h
  obtain ⟨hwritten, -⟩ := h
  obtain ⟨before, after, rfl⟩ := List.append_of_mem hmem
  have hlength := congrArg List.length hwritten
  simp only [written, Segment.written, List.flatMap_append, List.flatMap_cons,
    List.length_append, List.length_cons, String.length_toList] at hlength
  omega

/-- Cutting a template and writing segments undo each other. A template is not
cut into segments exactly if a placeholder that opens outside the placeholders
before it, and is not escaped, is never closed; the line of its opening is
reported. -/
theorem segments_invertible :
    (∀ (template : String) (list : List Segment), segments template = .ok list ↔
      String.ofList (written list) = template ∧ Separated list) ∧
      ∀ (template : String) (e : UnclosedPlaceholder),
        segments template = .error e ↔
          ∃ before inside, Unclosed template.toList before inside ∧
            e.line = 1 + Text.lineFeeds (written before) := by
  constructor
  · intro template list
    rw [segments, cut_eq_iff]
    constructor
    · rintro ⟨hwritten, h⟩
      exact ⟨by rw [hwritten, String.ofList_toList], h⟩
    · rintro ⟨rfl, h⟩
      exact .segments String.toList_ofList.symm h
  · intro template e
    rw [segments, cut_eq_iff]
    constructor
    · rintro ⟨⟩
      rename_i before inside h
      exact ⟨before, inside, h, rfl⟩
    · obtain ⟨line⟩ := e
      rintro ⟨before, inside, h, rfl⟩
      exact .unclosed h

end SqlWorkflow.Template
