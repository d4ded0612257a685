import SqlWorkflow.Proofs.Link.Written
import SqlWorkflow.Proofs.Template.Literal
import Mathlib.Data.List.Basic

/-!
# SQL that is copied

SQL in which no placeholder opens is compiled by trimming it, and so is all SQL
of a plain file, whatever stands in it. Nothing is noted on the way: linking
gives the action the dependencies and the faults that it would have without any
SQL. Of other SQL the last stretch is copied, what stands after the last
placeholder.
-/

namespace SqlWorkflow

namespace Registry

/-- The entry of an action for which no SQL is left to be compiled. -/
def Entry.untemplated (entry : Entry) : Entry :=
  { entry with pending := { entry.pending with templates := .none } }

end Registry

namespace Link

open Registry (Templates)

/-- A template is copied if placeholders are not filled in, or if none opens in
it. -/
def Copied (interpolate : Bool) (template : String) : Prop :=
  interpolate = true → ¬ ['$', '{'] <:+: template.toList

/-- All SQL is copied where placeholders are not filled in. -/
theorem copied_of_plain {interpolate : Bool} (h : interpolate = false)
    (template : String) : Copied interpolate template := by
  intro hinterpolate
  cases h.symm.trans hinterpolate

/-- The SQL of templates that are copied. -/
def Sql.copied (isIncremental : Bool) : Templates → Sql
  | .none => .none
  | .table query incrementalQuery preOps postOps =>
    .table (Text.trim query)
      (if isIncremental then
        some ⟨Text.trim (incrementalQuery.getD query), preOps.map Text.trim,
          postOps.map Text.trim⟩
      else Option.none)
      (preOps.map Text.trim) (postOps.map Text.trim)
  | .operation queries => .operation (queries.map Text.trim)
  | .assertion query => .assertion (Text.trim query)

theorem Rendered.forEach_of_plain {α β : Type} {f : α → Rendered β} {g : α → β}
    {as : List α} (h : ∀ a ∈ as, f a = .plain (g a)) :
    Rendered.forEach f as = .plain (as.map g) := by
  induction as with
  | nil => rfl
  | cons a as ih =>
    rw [forEach, h a List.mem_cons_self,
      ih fun b hb => h b (List.mem_cons_of_mem a hb)]
    rfl

namespace Scope

variable (scope : Scope)

/-- A template in which no placeholder opens is rendered as the text that it
stands for. -/
theorem render_of_literal {template : String} {text : List Char}
    (h : Template.literal? template.toList = some text) :
    scope.render template = .plain (String.ofList text) := by
  rw [render, expandWith, Template.segments_of_literal h]
  dsimp only
  cases text with
  | nil => rfl
  | cons c cs =>
    have hflush : Template.flush (c :: cs).reverse [] =
        [.text (String.ofList (c :: cs))] := by
      rw [Template.flush, List.reverse_reverse, if_neg (by simp)]
    rw [hflush]
    change Rendered.plain (String.join [String.ofList (c :: cs)]) = _
    simp [String.join]

theorem compiled_of_copied {interpolate : Bool} {template : String}
    (h : Copied interpolate template) :
    scope.compiled interpolate template = .plain (Text.trim template) := by
  cases interpolate with
  | false => rfl
  | true =>
    have hliteral := Template.literal?_of_plain (h rfl)
    rw [compiled, if_pos rfl, scope.render_of_literal hliteral,
      String.ofList_toList]
    rfl

/-- What a template is rendered to in one of the two modes, before it is
trimmed. -/
def rendered (interpolate : Bool) (rendering : Bool × String) : String :=
  if interpolate then ((scope.inMode rendering.1).render rendering.2).value
  else rendering.2

theorem text_eq_trim_rendered (interpolate : Bool) (rendering : Bool × String) :
    scope.text interpolate rendering =
      Text.trim (scope.rendered interpolate rendering) := by
  cases interpolate with
  | false => rfl
  | true => rfl

/-- A template is rendered segment by segment. -/
theorem value_render {template : String} {segments : List Template.Segment}
    (h : Template.segments template = .ok segments) :
    (scope.render template).value = String.join (segments.map fun segment =>
      (scope.segmentText (scope.expandInner template.length) false
        segment).value) := by
  rw [render, expandWith, h]
  exact congrArg String.join (Rendered.value_forEach _ segments)

theorem join_flush (expand : String → Rendered String) (text : List Char) :
    String.join ((Template.flush text.reverse []).map fun segment =>
      (scope.segmentText expand false segment).value) = String.ofList text := by
  cases text with
  | nil => rfl
  | cons c cs =>
    rw [Template.flush, List.reverse_reverse, if_neg (by simp)]
    change String.join [String.ofList (c :: cs)] = _
    simp [String.join]

/-- The text after the last placeholder of a template is copied to the end of
what it is rendered to. -/
theorem exists_renders (interpolate : Bool) (rendering : Bool × String) :
    ∃ before lead, Template.Renders interpolate rendering.2.toList
      (scope.rendered interpolate rendering).toList before lead := by
  obtain ⟨mode, template⟩ := rendering
  cases interpolate with
  | false => exact ⟨[], [], rfl, rfl, id⟩
  | true =>
    change ∃ before lead, Template.Renders true template.toList
      ((scope.inMode mode).render template).value.toList before lead
    generalize scope.inMode mode = scope
    cases hsegments : Template.segments template with
    | error e =>
      have hkept : (scope.render template).value = template := by
        rw [render, expandWith, hsegments]
        rfl
      rw [hkept]
      obtain ⟨before, hrenders⟩ := Template.exists_renders_self hsegments
      exact ⟨before, before, hrenders⟩
    | ok segments =>
      cases hlast : Template.afterLast? template.toList with
      | none =>
        obtain ⟨text, htext⟩ :=
          Template.literal?_of_afterLast?_eq_none hsegments hlast
        rw [scope.render_of_literal htext, Rendered.plain, String.toList_ofList]
        exact ⟨[], [], Template.renders_of_literal hlast htext⟩
      | some after =>
        obtain ⟨text, init, htext, rfl⟩ :=
          Template.exists_init_of_afterLast? hsegments hlast
        rw [scope.value_render hsegments, List.map_append, String.join_append,
          scope.join_flush, String.toList_append, String.toList_ofList]
        obtain ⟨before, hrenders⟩ :=
          Template.exists_renders_append hlast htext _
        exact ⟨before, _, hrenders⟩

theorem compiledAll_of_copied {interpolate : Bool} {templates : List String}
    (h : ∀ template ∈ templates, Copied interpolate template) :
    scope.compiledAll interpolate templates =
      .plain (templates.map Text.trim) :=
  Rendered.forEach_of_plain fun template hmem =>
    scope.compiled_of_copied (h template hmem)

/-- Copying all templates notes nothing. -/
theorem sql_of_copied {isIncremental interpolate : Bool} {templates : Templates}
    (h : ∀ rendering ∈ renderings isIncremental templates,
      Copied interpolate rendering.2) :
    scope.sql isIncremental interpolate templates =
      .plain (.copied isIncremental templates) := by
  cases templates with
  | none => rfl
  | table query incrementalQuery preOps postOps =>
    have hbuilt : ∀ template ∈ query :: (preOps ++ postOps),
        Copied interpolate template := by
      intro template hmem
      exact h (false, template)
        (List.mem_append_right _ (List.mem_map_of_mem hmem))
    have hpreOps (other : Scope) :=
      other.compiledAll_of_copied fun template hmem =>
      hbuilt template
        (List.mem_cons_of_mem query (List.mem_append_left postOps hmem))
    have hpostOps (other : Scope) :=
      other.compiledAll_of_copied fun template hmem =>
      hbuilt template
        (List.mem_cons_of_mem query (List.mem_append_right preOps hmem))
    have htable (incremental : Option IncrementalSql) :
        scope.tableSql interpolate query preOps postOps incremental =
          .plain (.table (Text.trim query) incremental (preOps.map Text.trim)
            (postOps.map Text.trim)) := by
      rw [tableSql, scope.compiled_of_copied (hbuilt query List.mem_cons_self),
        hpreOps, hpostOps]
      rfl
    cases isIncremental with
    | false => exact htable none
    | true =>
      have hextending : Copied interpolate (incrementalQuery.getD query) :=
        h (true, incrementalQuery.getD query) List.mem_cons_self
      rw [sql, if_pos rfl, incrementalSql,
        scope.inIncrementalMode.compiled_of_copied hextending,
        hpreOps, hpostOps]
      simp only [htable]
      rfl
  | operation queries =>
    rw [sql, scope.compiledAll_of_copied fun template hmem =>
      h (false, template) (List.mem_map_of_mem hmem)]
    rfl
  | assertion query =>
    rw [sql,
      scope.compiled_of_copied (h (false, query) (List.mem_singleton_self _))]
    rfl

end Scope

/-- Linking an action with copied SQL only trims it: all else is as if there was
no SQL. -/
theorem linkEntry_of_copied (r : Registry) (surroundings : Surroundings)
    {entry : Registry.Entry} (h : ∀ rendering ∈
      renderings (isIncremental entry.action.body) entry.pending.templates,
      Copied entry.pending.interpolate rendering.2) :
    linkEntry r surroundings entry =
      { linkEntry r surroundings entry.untemplated with
        action :=
          { (linkEntry r surroundings entry.untemplated).action with
            body := (Sql.copied (isIncremental entry.action.body)
              entry.pending.templates).applyTo entry.action.body } } := by
  simp only [linkEntry, renderedSql, Scope.sql_of_copied _ h]
  rfl

end Link

end SqlWorkflow
