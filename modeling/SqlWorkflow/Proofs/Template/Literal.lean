import SqlWorkflow.Template.Segment

/-!
# The text of a template

A template in which no placeholder opens is a single stretch of text. It stands
for itself, but for the backslashes before escaped openings. The same holds of
the last stretch of any template, the text after its last placeholder.
-/

namespace SqlWorkflow.Template

/-- The text that a template stands for, if no placeholder opens in it. -/
def literal? : List Char → Option (List Char)
  | [] => some []
  | '\\' :: '$' :: '{' :: rest =>
    (literal? rest).map fun text => '$' :: '{' :: text
  | '$' :: '{' :: _ => none
  | c :: rest => (literal? rest).map (c :: ·)

/-- Where the opening of a placeholder does not even occur, a template stands
for itself. -/
theorem literal?_of_plain {template : List Char}
    (h : ¬ ['$', '{'] <:+: template) : literal? template = some template := by
  fun_induction literal? template with
  | case1 => rfl
  | case2 rest ih => cases h ⟨['\\'], rest, rfl⟩
  | case3 rest => cases h ⟨[], rest, rfl⟩
  | case4 c rest _ _ ih =>
    have hrest : ¬ ['$', '{'] <:+: rest :=
      fun hinside => h (List.infix_cons hinside)
    rw [ih hrest]
    rfl

/-- Such a template is cut into the pending text with the text that it stands
for. -/
theorem cut_of_literal {template text : List Char}
    (h : literal? template = some text) (line : Nat) (reversed : List Char) :
    cut line reversed template = .ok (flush (text.reverse ++ reversed) []) := by
  fun_induction literal? template generalizing text line reversed with
  | case1 =>
    cases h
    rw [cut]
    rfl
  | case2 rest ih =>
    obtain ⟨others, hothers, rfl⟩ := Option.map_eq_some_iff.1 h
    rw [cut, ih hothers]
    simp
  | case3 rest => cases h
  | case4 c rest hescaped hopening ih =>
    obtain ⟨others, hothers, rfl⟩ := Option.map_eq_some_iff.1 h
    rw [cut, ih hothers]
    · simp
    · exact hescaped
    · exact hopening

theorem segments_of_literal {template : String} {text : List Char}
    (h : literal? template.toList = some text) :
    segments template = .ok (flush text.reverse []) := by
  rw [segments, cut_of_literal h, List.append_nil]

open Lexical

/-- The text after the last placeholder of a template, if it has one. -/
def afterLast? (template : List Char) : Option (List Char) :=
  match template with
  | [] => none
  | '\\' :: '$' :: '{' :: rest => afterLast? rest
  | '$' :: '{' :: inside =>
    match _h : closing? .script 0 inside with
    | none => none
    | some (_, after) => some ((afterLast? after).getD after)
  | _ :: rest => afterLast? rest
termination_by template.length
decreasing_by
  · simp only [List.length_cons]; omega
  · have := closing?_length_lt _h
    simp only [List.length_cons]; omega
  · simp only [List.length_cons]; omega

section

variable {inside source rest : List Char}

theorem afterLast?_of_closing?
    (h : closing? .script 0 inside = some (source, rest)) :
    afterLast? ('$' :: '{' :: inside) = some ((afterLast? rest).getD rest) := by
  rw [afterLast?]
  split
  · rename_i hopen
    cases hopen.symm.trans h
  · rename_i hclosing
    cases hclosing.symm.trans h
    rfl

theorem afterLast?_of_unclosed (h : closing? .script 0 inside = none) :
    afterLast? ('$' :: '{' :: inside) = none := by
  rw [afterLast?]
  split
  · rfl
  · rename_i hclosing
    cases h.symm.trans hclosing

end

/-- The text after the last placeholder stands at the end of the template, and
the placeholder before it. -/
theorem exists_of_afterLast? {template after : List Char}
    (h : afterLast? template = some after) :
    ∃ before, before ≠ [] ∧ template = before ++ after := by
  fun_induction afterLast? template generalizing after with
  | case1 => cases h
  | case2 rest ih =>
    obtain ⟨before, -, rfl⟩ := ih h
    exact ⟨_, List.cons_ne_nil '\\' ('$' :: '{' :: before), rfl⟩
  | case3 => cases h
  | case4 inside source rest hclosing ih =>
    cases h
    have hinside := closing?_append hclosing
    cases hlater : afterLast? rest with
    | none =>
      refine ⟨'$' :: '{' :: (source ++ ['}']), List.cons_ne_nil _ _, ?_⟩
      rw [← hinside]
      simp
    | some after =>
      obtain ⟨before, -, hrest⟩ := ih hlater
      refine ⟨'$' :: '{' :: (source ++ '}' :: before), List.cons_ne_nil _ _, ?_⟩
      rw [← hinside, hrest]
      simp
  | case5 c rest _ _ ih =>
    obtain ⟨before, -, rfl⟩ := ih h
    exact ⟨_, List.cons_ne_nil c before, rfl⟩

/-- A template that is cut into segments and has no placeholder stands for a
text. -/
theorem literal?_of_afterLast?_eq_none {line : Nat}
    {reversed template : List Char} {segments : List Segment}
    (hcut : cut line reversed template = .ok segments)
    (h : afterLast? template = none) :
    ∃ text, literal? template = some text := by
  fun_induction cut line reversed template generalizing segments with
  | case1 => exact ⟨[], rfl⟩
  | case2 line reversed rest ih =>
    rw [afterLast?] at h
    obtain ⟨text, htext⟩ := ih hcut h
    exact ⟨'$' :: '{' :: text, congrArg (Option.map _) htext⟩
  | case3 => cases hcut
  | case4 line reversed inside source after hclosing ih =>
    rw [afterLast?_of_closing? hclosing] at h
    cases h
  | case5 line reversed c rest hescaped hopening ih =>
    rw [afterLast?] at h
    · obtain ⟨text, htext⟩ := ih hcut h
      refine ⟨c :: text, ?_⟩
      rw [literal?, htext]
      · rfl
      · exact hescaped
      · exact hopening
    · exact hescaped
    · exact hopening

theorem flush_append (reversed : List Char) (first second : List Segment) :
    flush reversed (first ++ second) = flush reversed first ++ second := by
  rw [flush, flush]
  split
  · rfl
  · rfl

/-- A template that is cut into segments ends with what the text after its last
placeholder stands for. -/
theorem exists_init_of_afterLast? {line : Nat}
    {reversed template after : List Char} {segments : List Segment}
    (hcut : cut line reversed template = .ok segments)
    (h : afterLast? template = some after) :
    ∃ text init, literal? after = some text ∧
      segments = init ++ flush text.reverse [] := by
  fun_induction cut line reversed template generalizing segments after with
  | case1 =>
    rw [afterLast?] at h
    cases h
  | case2 line reversed rest ih =>
    rw [afterLast?] at h
    exact ih hcut h
  | case3 => cases hcut
  | case4 line reversed inside source rest hclosing ih =>
    cases hrest : cut (line + Text.lineFeeds source) [] rest with
    | error e =>
      rw [hrest] at hcut
      cases hcut
    | ok later =>
      rw [hrest] at hcut
      cases hcut
      rw [afterLast?_of_closing? hclosing] at h
      cases h
      cases hlater : afterLast? rest with
      | none =>
        obtain ⟨text, htext⟩ := literal?_of_afterLast?_eq_none hrest hlater
        refine ⟨text, flush reversed [.placeholder (String.ofList source)],
          htext, ?_⟩
        rw [cut_of_literal htext, List.append_nil] at hrest
        cases hrest
        exact flush_append reversed [_] _
      | some after =>
        obtain ⟨text, init, htext, rfl⟩ := ih hrest hlater
        exact ⟨text,
          flush reversed (.placeholder (String.ofList source) :: init), htext,
          flush_append reversed (_ :: init) _⟩
  | case5 line reversed c rest hescaped hopening ih =>
    rw [afterLast?] at h
    · exact ih hcut h
    · exact hescaped
    · exact hopening

/-- The text after the last placeholder of a template: all of it if none is
filled in. -/
def lastStretch (interpolate : Bool) (template : List Char) : List Char :=
  if interpolate then (afterLast? template).getD template else template

/-- What the last stretch of a template stands for. One that is not well formed
is kept as it is. -/
def copiedStretch (interpolate : Bool) (template : List Char) : List Char :=
  if interpolate then (literal? (lastStretch interpolate template)).getD
    (lastStretch interpolate template)
  else template

/-- How a text is rendered from a template: its last stretch is copied, after
`lead`, which is rendered from what stands before it. -/
structure Renders (interpolate : Bool)
    (template rendered before lead : List Char) : Prop where
  template_eq : template = before ++ lastStretch interpolate template
  rendered_eq : rendered = lead ++ copiedStretch interpolate template
  lead_eq : before = [] → lead = []

section

variable {template after text : List Char}

theorem lastStretch_of_eq_none (h : afterLast? template = none) :
    lastStretch true template = template := by
  rw [lastStretch, h]
  rfl

theorem lastStretch_of_eq_some (h : afterLast? template = some after) :
    lastStretch true template = after := by
  rw [lastStretch, h]
  rfl

/-- A template without placeholders is rendered as the text that it stands
for. -/
theorem renders_of_literal (hlast : afterLast? template = none)
    (h : literal? template = some text) : Renders true template text [] [] where
  template_eq := (lastStretch_of_eq_none hlast).symm
  rendered_eq := by
    rw [copiedStretch, lastStretch_of_eq_none hlast, h]
    rfl
  lead_eq _ := rfl

/-- What is rendered from the text up to the last placeholder stands before the
copied stretch. -/
theorem exists_renders_append (hlast : afterLast? template = some after)
    (h : literal? after = some text) (lead : List Char) :
    ∃ before, Renders true template (lead ++ text) before lead := by
  obtain ⟨before, hbefore, htemplate⟩ := exists_of_afterLast? hlast
  refine ⟨before, ?_, ?_, fun hnil => absurd hnil hbefore⟩
  · rwa [lastStretch_of_eq_some hlast]
  · rw [copiedStretch, lastStretch_of_eq_some hlast, h]
    rfl

/-- The last stretch of a template that is not well formed stands for no
text. -/
theorem literal?_of_cut_eq_error {line : Nat} {reversed : List Char}
    {e : UnclosedPlaceholder} (h : cut line reversed template = .error e) :
    literal? (lastStretch true template) = none := by
  rw [lastStretch, if_pos rfl]
  fun_induction cut line reversed template with
  | case1 => cases h
  | case2 line reversed rest ih =>
    rw [afterLast?]
    cases hlast : afterLast? rest with
    | none =>
      rw [hlast] at ih
      exact congrArg (Option.map _) (ih h)
    | some after =>
      rw [hlast] at ih
      exact ih h
  | case3 line reversed inside hopen =>
    rw [afterLast?_of_unclosed hopen]
    rfl
  | case4 line reversed inside source rest hclosing ih =>
    rw [afterLast?_of_closing? hclosing]
    cases hcut : cut (line + Text.lineFeeds source) [] rest with
    | error e =>
      rw [hcut] at h
      exact ih (hcut.trans h)
    | ok segments =>
      rw [hcut] at h
      cases h
  | case5 line reversed c rest hescaped hopening ih =>
    rw [afterLast?]
    · cases hlast : afterLast? rest with
      | none =>
        rw [hlast] at ih
        rw [Option.getD_none, literal?]
        · exact congrArg (Option.map _) (ih h)
        · exact hescaped
        · exact hopening
      | some after =>
        rw [hlast] at ih
        exact ih h
    · exact hescaped
    · exact hopening

/-- A template that is not well formed is kept as it is. -/
theorem exists_renders_self {line : Nat} {reversed : List Char}
    {e : UnclosedPlaceholder} (h : cut line reversed template = .error e) :
    ∃ before, Renders true template template before before := by
  have hkept : copiedStretch true template = lastStretch true template := by
    rw [copiedStretch, if_pos rfl, literal?_of_cut_eq_error h]
    rfl
  cases hlast : afterLast? template with
  | none =>
    have hwhole := lastStretch_of_eq_none hlast
    exact ⟨[], hwhole.symm, (hkept.trans hwhole).symm, id⟩
  | some after =>
    obtain ⟨before, -, htemplate⟩ := exists_of_afterLast? hlast
    rw [← lastStretch_of_eq_some hlast] at htemplate
    refine ⟨before, htemplate, ?_, id⟩
    rwa [hkept]

end

end SqlWorkflow.Template
