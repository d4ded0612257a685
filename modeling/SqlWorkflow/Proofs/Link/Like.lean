import Mathlib.Data.List.Forall2
import SqlWorkflow.Link.Outcome

/-!
# Rendering in like scopes

Rendering asks its scope for two things that are not settled by the template:
what references come to, and what the script runtime gives. In two scopes where
both are alike, a template gives the same text and the same places. How the
faults and the requests of the two sides compare is left open here: by any two
relations that hold between what the scopes note.
-/

namespace SqlWorkflow.Link

open Registry (Templates)

/-- The same value and the same places, with faults and requests that compare
one by one. -/
structure Rendered.Like {α : Type} (faultsLike : Fault → Fault → Prop)
    (requestsLike : Script.Request → Script.Request → Prop)
    (left right : Rendered α) : Prop where
  value : left.value = right.value
  sites : left.notes.sites = right.notes.sites
  faults : List.Forall₂ faultsLike left.notes.faults right.notes.faults
  requests : List.Forall₂ requestsLike left.notes.requests right.notes.requests

variable {faultsLike : Fault → Fault → Prop}
  {requestsLike : Script.Request → Script.Request → Prop}

namespace Rendered.Like

variable {α β : Type} {left right : Rendered α}

theorem plain (value : α) :
    (Rendered.plain value).Like faultsLike requestsLike (.plain value) :=
  ⟨rfl, rfl, .nil, .nil⟩

theorem faulty (value : α) {fault other : Fault} (h : faultsLike fault other) :
    (Rendered.faulty value fault).Like faultsLike requestsLike
      (.faulty value other) :=
  ⟨rfl, rfl, .cons h .nil, .nil⟩

theorem map (h : left.Like faultsLike requestsLike right) (f : α → β) :
    (left.map f).Like faultsLike requestsLike (right.map f) :=
  ⟨congrArg f h.value, h.sites, h.faults, h.requests⟩

theorem andThen (h : left.Like faultsLike requestsLike right)
    {f g : α → Rendered β}
    (hnext : ∀ a, (f a).Like faultsLike requestsLike (g a)) :
    (left.andThen f).Like faultsLike requestsLike (right.andThen g) := by
  have hthen : (f left.value).Like faultsLike requestsLike (g right.value) := by
    rw [h.value]
    exact hnext right.value
  constructor
  · exact hthen.value
  · exact congrArg₂ (· ++ ·) h.sites hthen.sites
  · exact List.rel_append h.faults hthen.faults
  · exact List.rel_append h.requests hthen.requests

theorem forEach {f g : α → Rendered β}
    (h : ∀ a, (f a).Like faultsLike requestsLike (g a)) (as : List α) :
    (Rendered.forEach f as).Like faultsLike requestsLike
      (Rendered.forEach g as) := by
  induction as with
  | nil => exact plain []
  | cons a as ih => exact (h a).andThen fun b => ih.map (b :: ·)

end Rendered.Like

/-- Two scopes in which references come to like values, and so do placeholders
for the script runtime. -/
structure Scope.Like (faultsLike : Fault → Fault → Prop)
    (requestsLike : Script.Request → Script.Request → Prop)
    (left right : Scope) : Prop where
  config : left.surroundings.config = right.surroundings.config
  selfTarget : left.selfTarget = right.selfTarget
  incremental : left.incremental = right.incremental
  template : ∀ error, faultsLike (.template error) (.template error)
  resolve : ∀ reference depends, (left.resolve reference depends).Like
    faultsLike requestsLike (right.resolve reference depends)
  evaluate : ∀ mode source, (Scope.evaluate { left with
    incremental := mode } source).Like faultsLike requestsLike
    (Scope.evaluate { right with incremental := mode } source)

namespace Scope.Like

variable {left right : Scope}

theorem inIncrementalMode (h : left.Like faultsLike requestsLike right) :
    left.inIncrementalMode.Like faultsLike requestsLike
      right.inIncrementalMode :=
  ⟨h.config, h.selfTarget, rfl, h.template, h.resolve, h.evaluate⟩

theorem settingValue (h : left.Like faultsLike requestsLike right) :
    left.settingValue = right.settingValue := by
  funext setting
  cases setting <;> simp only [Scope.settingValue, h.config]

theorem address (h : left.Like faultsLike requestsLike right) :
    left.address = right.address := by
  funext target
  simp only [Scope.address, h.config]

theorem resolveArguments (h : left.Like faultsLike requestsLike right)
    (arguments : List Expr) (depends : Bool) :
    (left.resolveArguments arguments depends).Like faultsLike requestsLike
      (right.resolveArguments arguments depends) := by
  rw [Scope.resolveArguments, Scope.resolveArguments]
  cases referenceOf? arguments with
  | some reference => exact h.resolve reference depends
  | none => exact .plain _

/-- The templates inside an expression are rendered alike. -/
def LikeInside (faultsLike : Fault → Fault → Prop)
    (requestsLike : Script.Request → Script.Request → Prop)
    (expand expandOther : String → Rendered String) : Prop :=
  ∀ template,
    (expand template).Like faultsLike requestsLike (expandOther template)

variable {expand expandOther : String → Rendered String}

mutual

theorem eval (h : left.Like faultsLike requestsLike right)
    (hinside : LikeInside faultsLike requestsLike expand expandOther) :
    ∀ e : Expr, (left.eval expand e).Like faultsLike requestsLike
      (right.eval expandOther e)
  | .null | .bool _ | .number _ | .string _ => by
    simp only [Scope.eval]
    exact .plain _
  | .ident _ | .member _ _ => by
    simp only [Scope.eval, h.settingValue]
    exact .plain _
  | .template raw => by
    simp only [Scope.eval]
    exact (hinside raw).map _
  | .array items => by
    simp only [Scope.eval]
    exact (evalList h hinside items).map _
  | .object entries => by
    simp only [Scope.eval]
    exact (evalEntries h hinside entries).map _
  | .call callee arguments => by
    simp only [Scope.eval]
    cases Builtin.of? callee with
    | none => exact .plain _
    | some builtin =>
      cases builtin with
      | ref => exact h.resolveArguments arguments true
      | resolve => exact h.resolveArguments arguments false
      | when => exact evalWhen h hinside arguments
      | self | name | schema | database | incremental =>
        simp only [h.address, h.selfTarget, h.incremental]
        exact .plain _

theorem evalWhen (h : left.Like faultsLike requestsLike right)
    (hinside : LikeInside faultsLike requestsLike expand expandOther) :
    ∀ arguments : List Expr,
      (left.evalWhen expand arguments).Like faultsLike requestsLike
        (right.evalWhen expandOther arguments)
  | [] => by
    simp only [Scope.evalWhen]
    exact .plain _
  | condition :: branches => by
    simp only [Scope.evalWhen]
    exact (eval h hinside condition).andThen fun value =>
      evalBranch h hinside (truthy value) branches

theorem evalBranch (h : left.Like faultsLike requestsLike right)
    (hinside : LikeInside faultsLike requestsLike expand expandOther)
    (condition : Bool) : ∀ branches : List Expr,
      (left.evalBranch expand condition branches).Like faultsLike requestsLike
        (right.evalBranch expandOther condition branches)
  | [] => by
    simp only [Scope.evalBranch]
    exact .plain _
  | [yes] => by
    simp only [Scope.evalBranch]
    split
    · exact eval h hinside yes
    · exact .plain _
  | yes :: no :: _ => by
    simp only [Scope.evalBranch]
    split
    · exact eval h hinside yes
    · exact eval h hinside no

theorem evalList (h : left.Like faultsLike requestsLike right)
    (hinside : LikeInside faultsLike requestsLike expand expandOther) :
    ∀ es : List Expr, (left.evalList expand es).Like faultsLike requestsLike
      (right.evalList expandOther es)
  | [] => by
    simp only [Scope.evalList]
    exact .plain _
  | e :: es => by
    simp only [Scope.evalList]
    exact (eval h hinside e).andThen fun v =>
      (evalList h hinside es).map (v :: ·)

theorem evalEntries (h : left.Like faultsLike requestsLike right)
    (hinside : LikeInside faultsLike requestsLike expand expandOther) :
    ∀ es : List (String × Expr),
      (left.evalEntries expand es).Like faultsLike requestsLike
        (right.evalEntries expandOther es)
  | [] => by
    simp only [Scope.evalEntries]
    exact .plain _
  | (key, e) :: es => by
    simp only [Scope.evalEntries]
    exact (eval h hinside e).andThen fun v =>
      (evalEntries h hinside es).map ((key, v) :: ·)

end

theorem placeholder (h : left.Like faultsLike requestsLike right)
    (hinside : LikeInside faultsLike requestsLike expand expandOther)
    (source : String) :
    (left.placeholder expand source).Like faultsLike requestsLike
      (right.placeholder expandOther source) := by
  have hruntime : (left.evaluate source).Like faultsLike requestsLike
      (right.evaluate source) := by
    have hmode := h.evaluate left.incremental source
    rwa [show Scope.evaluate { right with
      incremental := left.incremental } source = right.evaluate source by
      rw [h.incremental]] at hmode
  rw [Scope.placeholder, Scope.placeholder]
  cases Expr.parse source with
  | error e => exact hruntime
  | ok e =>
    dsimp only
    split
    · exact h.eval hinside e
    · exact hruntime

theorem expandWith (h : left.Like faultsLike requestsLike right)
    (hinside : LikeInside faultsLike requestsLike expand expandOther)
    (literal : Bool) (template : String) :
    (left.expandWith expand literal template).Like faultsLike requestsLike
      (right.expandWith expandOther literal template) := by
  rw [Scope.expandWith, Scope.expandWith]
  cases Template.segments template with
  | error error => exact .faulty _ (h.template error)
  | ok segments =>
    have hsegment (segment : Template.Segment) :
        (left.segmentText expand literal segment).Like faultsLike requestsLike
          (right.segmentText expandOther literal segment) := by
      cases segment with
      | text text => exact .plain _
      | placeholder source => exact (h.placeholder hinside source).map _
    exact (Rendered.Like.forEach hsegment segments).map _

theorem expandInner (h : left.Like faultsLike requestsLike right) (depth : Nat)
    (template : String) :
    (left.expandInner depth template).Like faultsLike requestsLike
      (right.expandInner depth template) := by
  induction depth generalizing template with
  | zero => exact .plain _
  | succ depth ih => exact h.expandWith ih true template

theorem compiled (h : left.Like faultsLike requestsLike right)
    (interpolate : Bool) (template : String) :
    (left.compiled interpolate template).Like faultsLike requestsLike
      (right.compiled interpolate template) := by
  rw [Scope.compiled, Scope.compiled]
  split
  · exact (h.expandWith (h.expandInner template.length) false template).map _
  · exact .plain _

theorem compiledAll (h : left.Like faultsLike requestsLike right)
    (interpolate : Bool) (templates : List String) :
    (left.compiledAll interpolate templates).Like faultsLike requestsLike
      (right.compiledAll interpolate templates) :=
  .forEach (h.compiled interpolate) templates

theorem tableSql (h : left.Like faultsLike requestsLike right)
    (interpolate : Bool) (query : String) (preOps postOps : List String)
    (incremental : Option IncrementalSql) :
    (left.tableSql interpolate query preOps postOps incremental).Like faultsLike
      requestsLike
      (right.tableSql interpolate query preOps postOps incremental) :=
  (h.compiled interpolate query).andThen fun _ =>
    (h.compiledAll interpolate preOps).andThen fun _ =>
      (h.compiledAll interpolate postOps).map _

theorem incrementalSql (h : left.Like faultsLike requestsLike right)
    (interpolate : Bool) (query : String) (preOps postOps : List String) :
    (left.incrementalSql interpolate query preOps postOps).Like faultsLike
      requestsLike (right.incrementalSql interpolate query preOps postOps) :=
  (h.inIncrementalMode.compiled interpolate query).andThen fun _ =>
    (h.inIncrementalMode.compiledAll interpolate preOps).andThen fun _ =>
      (h.inIncrementalMode.compiledAll interpolate postOps).map _

/-- The SQL of an action is the same in like scopes. -/
theorem sql (h : left.Like faultsLike requestsLike right)
    (isIncremental interpolate : Bool) (templates : Templates) :
    (left.sql isIncremental interpolate templates).Like faultsLike requestsLike
      (right.sql isIncremental interpolate templates) := by
  cases templates with
  | none => exact .plain _
  | table query incrementalQuery preOps postOps =>
    cases isIncremental with
    | false => exact h.tableSql interpolate query preOps postOps none
    | true =>
      exact (h.incrementalSql interpolate _ preOps postOps).andThen
        fun incremental =>
        h.tableSql interpolate query preOps postOps (some incremental)
  | operation queries => exact (h.compiledAll interpolate queries).map _
  | assertion query => exact (h.compiled interpolate query).map _

end Scope.Like

end SqlWorkflow.Link
