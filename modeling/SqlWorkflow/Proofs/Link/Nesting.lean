import SqlWorkflow.Link.Render
import SqlWorkflow.Proofs.Expr.Parts
import SqlWorkflow.Proofs.Template.Splitting

/-!
# Templates inside templates

Rendering follows templates inside the expressions of a template as deep as they
are nested. The depth that it is given is never used up: a template inside
another one is shorter, so the length of a template bounds what is nested in it.
The text of a template inside an expression is therefore the same at every depth
that suffices, and rendering is told by equations without any depth.
-/

namespace SqlWorkflow.Link

open SqlWorkflow.Expr (Part)

namespace Rendered

variable {α β : Type}

theorem forEach_congr {f g : α → Rendered β} {as : List α}
    (h : ∀ a ∈ as, f a = g a) : forEach f as = forEach g as := by
  induction as with
  | nil => rfl
  | cons a as ih =>
    obtain ⟨hfirst, hrest⟩ := List.forall_mem_cons.1 h
    rw [forEach, forEach, hfirst, ih hrest]

end Rendered

/-- The branch of a conditional that is evaluated; the second one may be
missing. -/
def branch? (condition : Bool) : List Expr → Option Expr
  | [] => none
  | [yes] => if condition then some yes else none
  | yes :: no :: _ => if condition then some yes else some no

theorem mem_of_branch? {condition : Bool} {branches : List Expr} {e : Expr}
    (h : branch? condition branches = some e) : e ∈ branches := by
  unfold branch? at h
  split at h
  · cases h
  · split at h
    · cases h
      exact List.mem_cons_self
    · cases h
  · split at h
    · cases h
      exact List.mem_cons_self
    · cases h
      exact List.mem_cons_of_mem _ List.mem_cons_self

namespace Scope

variable (scope : Scope)

theorem evalList_eq_forEach (expand : String → Rendered String)
    (items : List Expr) :
    scope.evalList expand items =
      Rendered.forEach (scope.eval expand) items := by
  induction items with
  | nil =>
    rw [evalList]
    rfl
  | cons e items ih =>
    rw [evalList, ih]
    rfl

theorem evalEntries_eq_forEach (expand : String → Rendered String)
    (entries : List (String × Expr)) :
    scope.evalEntries expand entries = Rendered.forEach
      (fun entry => (scope.eval expand entry.2).map (entry.1, ·)) entries := by
  induction entries with
  | nil =>
    rw [evalEntries]
    rfl
  | cons entry entries ih =>
    obtain ⟨key, e⟩ := entry
    rw [evalEntries, ih]
    rfl

theorem evalBranch_eq (expand : String → Rendered String) (condition : Bool)
    (branches : List Expr) :
    scope.evalBranch expand condition branches =
      match branch? condition branches with
      | some e => scope.eval expand e
      | none => .plain (.string "") := by
  rcases branches with _ | ⟨yes, _ | ⟨no, rest⟩⟩
  · rw [evalBranch, branch?]
  · rw [evalBranch, branch?]
    cases condition <;> rfl
  · rw [evalBranch, branch?]
    cases condition <;> rfl

variable {scope} {expand other : String → Rendered String}

theorem evalWhen_congr {arguments : List Expr}
    (h : ∀ e ∈ arguments, scope.eval expand e = scope.eval other e) :
    scope.evalWhen expand arguments = scope.evalWhen other arguments := by
  cases arguments with
  | nil =>
    rw [evalWhen, evalWhen]
  | cons condition branches =>
    obtain ⟨hcondition, hbranches⟩ := List.forall_mem_cons.1 h
    rw [evalWhen, evalWhen, hcondition]
    congr 1
    funext value
    rw [evalBranch_eq, evalBranch_eq]
    cases hbranch : branch? (truthy value) branches with
    | none => rfl
    | some e => exact hbranches e (mem_of_branch? hbranch)

/-- An expression has the same value if the templates in it are expanded in the
same way. -/
theorem eval_congr {e : Expr}
    (h : ∀ raw, Part (.template raw) e → expand raw = other raw) :
    scope.eval expand e = scope.eval other e := by
  induction e using Expr.induction with
  | null | bool | number | string | ident | member =>
    simp only [eval]
  | template raw =>
    rw [eval, eval, h raw .self]
  | array items ih =>
    rw [eval, eval, evalList_eq_forEach, evalList_eq_forEach]
    congr 1
    apply Rendered.forEach_congr
    intro e he
    exact ih e he fun raw hpart => h raw (.item he hpart)
  | object entries ih =>
    rw [eval, eval, evalEntries_eq_forEach, evalEntries_eq_forEach]
    congr 1
    apply Rendered.forEach_congr
    intro entry hentry
    rw [ih entry hentry fun raw hpart => h raw (.entry hentry hpart)]
  | call callee arguments _ ih =>
    have harguments : scope.evalWhen expand arguments =
        scope.evalWhen other arguments := by
      apply evalWhen_congr
      intro e he
      exact ih e he fun raw hpart => h raw (.argument callee he hpart)
    rw [eval, eval, harguments]

theorem placeholder_congr {source : String}
    (h : ∀ raw, raw.length < source.length → expand raw = other raw) :
    scope.placeholder expand source = scope.placeholder other source := by
  rw [placeholder, placeholder]
  cases hparse : Expr.parse source with
  | error => rfl
  | ok e =>
    have hvalue : scope.eval expand e = scope.eval other e :=
      eval_congr fun raw hpart => h raw (Expr.short_of_parse hparse raw hpart)
    dsimp only
    rw [hvalue]

/-- The text of a template is told by those of shorter ones. -/
theorem expandWith_congr {template : String}
    (h : ∀ raw, raw.length < template.length → expand raw = other raw)
    (literal : Bool) :
    scope.expandWith expand literal template =
      scope.expandWith other literal template := by
  rw [expandWith, expandWith]
  cases hsegments : Template.segments template with
  | error => rfl
  | ok segments =>
    dsimp only
    congr 1
    apply Rendered.forEach_congr
    intro segment hsegment
    cases segment with
    | text => rfl
    | placeholder source =>
      have hshorter := Template.length_lt_of_placeholder hsegments hsegment
      rw [segmentText, segmentText,
        placeholder_congr fun raw hlt => h raw (Nat.lt_trans hlt hshorter)]

variable (scope)

/-- The text of a template inside an expression. -/
def inner (template : String) : Rendered String :=
  scope.expandInner (template.length + 1) template

/-- Any depth that is greater than the length of a template suffices for it. -/
theorem expandInner_eq_inner {depth : Nat} {template : String}
    (h : template.length < depth) :
    scope.expandInner depth template = scope.inner template := by
  induction depth using Nat.strongRecOn generalizing template with
  | _ depth ih =>
    obtain ⟨depth, rfl⟩ := Nat.exists_eq_succ_of_ne_zero (Nat.ne_zero_of_lt h)
    rw [inner, expandInner, expandInner]
    apply expandWith_congr
    intro raw hshorter
    rw [ih depth (Nat.lt_succ_self depth) (by omega),
      ih template.length h hshorter]

/-- A template inside an expression is rendered from the templates inside it. -/
theorem inner_eq (template : String) :
    scope.inner template = scope.expandWith scope.inner true template := by
  rw [inner, expandInner]
  apply expandWith_congr
  intro raw hshorter
  exact scope.expandInner_eq_inner hshorter

theorem render_eq (template : String) :
    scope.render template = scope.expandWith scope.inner false template := by
  rw [render]
  apply expandWith_congr
  intro raw hshorter
  exact scope.expandInner_eq_inner hshorter

end Scope

end SqlWorkflow.Link
