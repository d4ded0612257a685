import SqlWorkflow.Proofs.Link.Alike
import SqlWorkflow.Proofs.Link.Dependencies
import SqlWorkflow.Proofs.Link.Evaluated

/-!
# What linking depends on

Of an expression only some parts are evaluated: of a conditional, for instance,
only the condition and the branch that is chosen. Two scopes that give like
values to the calls among these parts, and to the placeholders that are left to
the script runtime, give like texts to a template. So an action is linked in the
same way in all registries that agree on its references and on the assertions of
the targets that it refers to.
-/

namespace SqlWorkflow.Link

open SqlWorkflow.Expr (Part)
open Registry (Templates)

variable {faultsLike : Fault → Fault → Prop}
  {requestsLike : Script.Request → Script.Request → Prop}

namespace Rendered.Like

variable {α β : Type} {left right : Rendered α}

theorem refl [Std.Refl faultsLike] [Std.Refl requestsLike]
    (rendered : Rendered α) : rendered.Like faultsLike requestsLike rendered :=
  ⟨rfl, rfl, List.forall₂_refl _, List.forall₂_refl _⟩

theorem eq (h : left.Like (· = ·) (· = ·) right) : left = right := by
  obtain ⟨leftValue, leftSites, leftFaults, leftRequests⟩ := left
  obtain ⟨rightValue, rightSites, rightFaults, rightRequests⟩ := right
  obtain ⟨rfl, rfl, hfaults, hrequests⟩ := h
  rw [List.forall₂_eq_eq_eq] at hfaults hrequests
  obtain rfl : leftFaults = rightFaults := hfaults
  obtain rfl : leftRequests = rightRequests := hrequests
  rfl

/-- What is rendered next has to be alike for the value that was rendered first,
and for no other. -/
theorem andThen_value (h : left.Like faultsLike requestsLike right)
    {f g : α → Rendered β}
    (hnext : (f left.value).Like faultsLike requestsLike (g left.value)) :
    (left.andThen f).Like faultsLike requestsLike (right.andThen g) := by
  rw [h.value] at hnext
  constructor
  · change (f left.value).value = (g right.value).value
    rw [h.value, hnext.value]
  · change left.notes.sites ++ (f left.value).notes.sites =
      right.notes.sites ++ (g right.value).notes.sites
    rw [h.value, h.sites, hnext.sites]
  · change List.Forall₂ _ (left.notes.faults ++ (f left.value).notes.faults) _
    rw [h.value]
    exact List.rel_append h.faults hnext.faults
  · change List.Forall₂
      _ (left.notes.requests ++ (f left.value).notes.requests) _
    rw [h.value]
    exact List.rel_append h.requests hnext.requests

theorem forEach_of_mem {f g : α → Rendered β} {as : List α}
    (h : ∀ a ∈ as, (f a).Like faultsLike requestsLike (g a)) :
    (Rendered.forEach f as).Like faultsLike requestsLike
      (Rendered.forEach g as) := by
  induction as with
  | nil => exact plain []
  | cons a as ih =>
    obtain ⟨hfirst, hrest⟩ := List.forall_mem_cons.1 h
    exact hfirst.andThen fun b => (ih hrest).map (b :: ·)

end Rendered.Like

/-! ## Evaluated parts -/

namespace Scope

/-- A part of an expression that is evaluated with it, also inside its
templates. -/
inductive Evaluated (scope : Scope) (part : Expr) : Expr → Prop
  | self : Evaluated scope part part
  | item {items : List Expr} {e : Expr} (hitem : e ∈ items)
      (h : Evaluated scope part e) : Evaluated scope part (.array items)
  | entry {entries : List (String × Expr)} {entry : String × Expr}
      (hentry : entry ∈ entries) (h : Evaluated scope part entry.2) :
      Evaluated scope part (.object entries)
  | condition {callee condition : Expr} {branches : List Expr}
      (hcallee : Builtin.of? callee = some .when)
      (h : Evaluated scope part condition) :
      Evaluated scope part (.call callee (condition :: branches))
  | branch {callee condition e : Expr} {branches : List Expr}
      (hcallee : Builtin.of? callee = some .when)
      (hbranch : branch? (truthy (scope.eval scope.inner condition).value)
        branches = some e) (h : Evaluated scope part e) :
      Evaluated scope part (.call callee (condition :: branches))
  | template {raw : String} {e : Expr} (hholds : HoldsNative raw e)
      (h : Evaluated scope part e) : Evaluated scope part (.template raw)

/-- An expression is evaluated with a template. -/
def EvaluatedIn (scope : Scope) (template : String) (part : Expr) : Prop :=
  ∃ e, HoldsNative template e ∧ scope.Evaluated part e

theorem EvaluatedIn.template {scope : Scope} {raw : String} {part : Expr}
    (h : scope.EvaluatedIn raw part) :
    scope.Evaluated part (.template raw) := by
  obtain ⟨e, hholds, hevaluated⟩ := h
  exact .template hholds hevaluated

/-- Where a call of `ref` or `resolve` is an evaluated part, this call is
evaluated. -/
theorem Evaluated.evaluates {scope : Scope} {callee e : Expr}
    {arguments : List Expr} {call : Call}
    (h : scope.Evaluated (.call callee arguments) e)
    (hcall : call? callee arguments = some call) : scope.Evaluates call e := by
  induction h with
  | self => exact .call hcall
  | item hitem _ ih => exact .item hitem ih
  | entry hentry _ ih => exact .entry hentry ih
  | condition hcallee _ ih => exact .condition hcallee ih
  | branch hcallee hbranch _ ih => exact .branch hcallee hbranch ih
  | template hholds _ ih => exact .template hholds ih

/-- Two scopes that look at the same settings, and in which placeholders for the
script runtime come to like values. -/
structure Shares (faultsLike : Fault → Fault → Prop)
    (requestsLike : Script.Request → Script.Request → Prop)
    (left right : Scope) : Prop where
  config : left.surroundings.config = right.surroundings.config
  template : ∀ error, faultsLike (.template error) (.template error)
  evaluate : ∀ source,
    (left.evaluate source).Like faultsLike requestsLike (right.evaluate source)

/-- The calls among some expressions come to like values in two scopes.
Conditionals are left out: they ask for no more than their parts do. -/
def AgreeOn (faultsLike : Fault → Fault → Prop)
    (requestsLike : Script.Request → Script.Request → Prop) (left right : Scope)
    (evaluated : Expr → Prop) : Prop :=
  ∀ callee arguments, evaluated (.call callee arguments) →
    Builtin.of? callee ≠ some .when →
    (left.eval left.inner (.call callee arguments)).Like faultsLike requestsLike
      (right.eval right.inner (.call callee arguments))

theorem AgreeOn.mono {left right : Scope} {evaluated fewer : Expr → Prop}
    (h : AgreeOn faultsLike requestsLike left right evaluated)
    (hfewer : ∀ part, fewer part → evaluated part) :
    AgreeOn faultsLike requestsLike left right fewer :=
  fun callee arguments hpart => h callee arguments (hfewer _ hpart)

/-! ## Like texts -/

/-- A template is rendered alike in two scopes if they agree on the calls that
are evaluated with it. -/
def LikeWhereAgreed (faultsLike : Fault → Fault → Prop)
    (requestsLike : Script.Request → Script.Request → Prop) (left right : Scope)
    (raw : String) : Prop :=
  AgreeOn faultsLike requestsLike left right (left.EvaluatedIn raw) →
    (left.inner raw).Like faultsLike requestsLike (right.inner raw)

variable {left right : Scope}

theorem Shares.settingValue (h : Shares faultsLike requestsLike left right) :
    left.settingValue = right.settingValue := by
  funext setting
  cases setting <;> simp only [Scope.settingValue, h.config]

/-- Conditionals come to like values if their conditions and the branches that
are chosen do. -/
theorem like_evalWhen {callee : Expr} {arguments : List Expr}
    (hcallee : Builtin.of? callee = some .when)
    (hagree : AgreeOn faultsLike requestsLike left right
      (left.Evaluated · (.call callee arguments)))
    (h : ∀ e ∈ arguments,
      AgreeOn faultsLike requestsLike left right (left.Evaluated · e) →
        (left.eval left.inner e).Like faultsLike requestsLike
          (right.eval right.inner e)) :
    (left.evalWhen left.inner arguments).Like faultsLike requestsLike
      (right.evalWhen right.inner arguments) := by
  cases arguments with
  | nil =>
    rw [evalWhen, evalWhen]
    exact .plain _
  | cons condition branches =>
    obtain ⟨hcondition, hbranches⟩ := List.forall_mem_cons.1 h
    rw [evalWhen, evalWhen]
    -- The condition has the same value on both sides, and this value tells
    -- which branch is evaluated.
    refine (hcondition (hagree.mono fun _ => .condition hcallee)).andThen_value
      ?_
    rw [evalBranch_eq, evalBranch_eq]
    cases hbranch :
      branch? (truthy (left.eval left.inner condition).value) branches with
    | none => exact .plain _
    | some e =>
      exact hbranches e (mem_of_branch? hbranch)
        (hagree.mono fun _ => .branch hcallee hbranch)

/-- Expressions come to like values in scopes that agree on the calls that are
evaluated with them. -/
theorem like_eval (hshares : Shares faultsLike requestsLike left right)
    {e : Expr} (hinside : ∀ raw, Part (.template raw) e →
      LikeWhereAgreed faultsLike requestsLike left right raw)
    (hagree : AgreeOn faultsLike requestsLike left right (left.Evaluated · e)) :
    (left.eval left.inner e).Like faultsLike requestsLike
      (right.eval right.inner e) := by
  induction e using Expr.induction with
  | null | bool | number | string =>
    rw [eval, eval]
    exact .plain _
  | ident | member =>
    rw [eval, eval, hshares.settingValue]
    exact .plain _
  | template raw =>
    rw [eval, eval]
    exact (hinside raw .self (hagree.mono fun _ => EvaluatedIn.template)).map _
  | array items ih =>
    rw [eval, eval, evalList_eq_forEach, evalList_eq_forEach]
    refine Rendered.Like.map (.forEach_of_mem fun e he => ?_) _
    exact ih e he (fun raw hpart => hinside raw (.item he hpart))
      (hagree.mono fun _ => .item he)
  | object entries ih =>
    rw [eval, eval, evalEntries_eq_forEach, evalEntries_eq_forEach]
    refine Rendered.Like.map
      (.forEach_of_mem fun entry hentry => Rendered.Like.map ?_ _) _
    exact ih entry hentry (fun raw hpart => hinside raw (.entry hentry hpart))
      (hagree.mono fun _ => .entry hentry)
  | call callee arguments _ ih =>
    by_cases hwhen : Builtin.of? callee = some .when
    · rw [eval, eval, hwhen]
      exact like_evalWhen hwhen hagree fun e he =>
        ih e he fun raw hpart => hinside raw (.argument callee he hpart)
    · exact hagree callee arguments .self hwhen

theorem like_placeholder (hshares : Shares faultsLike requestsLike left right)
    {source : String} (hinside : ∀ raw, raw.length < source.length →
      LikeWhereAgreed faultsLike requestsLike left right raw)
    (hagree : ∀ e, Expr.parse source = .ok e → isNative e →
      AgreeOn faultsLike requestsLike left right (left.Evaluated · e)) :
    (left.placeholder left.inner source).Like faultsLike requestsLike
      (right.placeholder right.inner source) := by
  rw [placeholder, placeholder]
  cases hparse : Expr.parse source with
  | error => exact hshares.evaluate source
  | ok e =>
    dsimp only
    split
    · rename_i hnative
      exact like_eval hshares (fun raw hpart => hinside raw
        (Expr.short_of_parse hparse raw hpart)) (hagree e hparse hnative)
    · exact hshares.evaluate source

theorem like_expandWith (hshares : Shares faultsLike requestsLike left right)
    {template : String} (hinside : ∀ raw, raw.length < template.length →
      LikeWhereAgreed faultsLike requestsLike left right raw)
    (hagree : AgreeOn faultsLike requestsLike left right
      (left.EvaluatedIn template)) (literal : Bool) :
    (left.expandWith left.inner literal template).Like faultsLike requestsLike
      (right.expandWith right.inner literal template) := by
  rw [expandWith, expandWith]
  cases hsegments : Template.segments template with
  | error error => exact .faulty _ (hshares.template error)
  | ok segments =>
    refine Rendered.Like.map (.forEach_of_mem fun segment hsegment => ?_) _
    cases segment with
    | text => exact .plain _
    | placeholder source =>
      have hshorter := Template.length_lt_of_placeholder hsegments hsegment
      refine (like_placeholder hshares
        (fun raw hlt => hinside raw (Nat.lt_trans hlt hshorter)) ?_).map _
      intro e hparse hnative
      exact hagree.mono fun _ hpart =>
        ⟨e, ⟨segments, source, hsegments, hsegment, hparse, hnative⟩, hpart⟩

/-- Templates inside expressions are rendered alike in scopes that agree on the
calls evaluated with them. -/
theorem like_inner (hshares : Shares faultsLike requestsLike left right)
    (template : String) :
    LikeWhereAgreed faultsLike requestsLike left right template := by
  induction hlength :
    template.length using Nat.strongRecOn generalizing template with
  | ind length ih =>
    subst hlength
    intro hagree
    rw [inner_eq, inner_eq]
    exact like_expandWith hshares
      (fun raw hshorter => ih raw.length hshorter raw rfl) hagree true

theorem like_render (hshares : Shares faultsLike requestsLike left right)
    {template : String}
    (hagree :
      AgreeOn faultsLike requestsLike left right (left.EvaluatedIn template)) :
    (left.render template).Like faultsLike requestsLike
      (right.render template) := by
  rw [render_eq, render_eq]
  exact like_expandWith hshares (fun raw _ => like_inner hshares raw)
    hagree false

theorem like_compiled (hshares : Shares faultsLike requestsLike left right)
    {interpolate : Bool} {template : String} (hagree : interpolate = true →
      AgreeOn faultsLike requestsLike left right (left.EvaluatedIn template)) :
    (left.compiled interpolate template).Like faultsLike requestsLike
      (right.compiled interpolate template) := by
  cases interpolate with
  | false => exact .plain _
  | true => exact (like_render hshares (hagree rfl)).map _

end Scope

/-! ## The SQL of an action -/

theorem like_assembledTable {α : Type}
    {compile other : String → Rendered String} {query : String}
    {preOps postOps : List String}
    (make : String → List String → List String → α)
    (h : ∀ template ∈ query :: (preOps ++ postOps),
      (compile template).Like faultsLike requestsLike (other template)) :
    (assembledTable compile query preOps postOps make).Like faultsLike
      requestsLike (assembledTable other query preOps postOps make) := by
  obtain ⟨hquery, hops⟩ := List.forall_mem_cons.1 h
  obtain ⟨hpreOps, hpostOps⟩ := List.forall_mem_append.1 hops
  exact hquery.andThen fun _ =>
    (Rendered.Like.forEach_of_mem hpreOps).andThen fun _ =>
    (Rendered.Like.forEach_of_mem hpostOps).map _

/-- The SQL of an action is alike if each of its templates is compiled alike in
each mode that it has. -/
theorem like_assembled {compile other : Bool → String → Rendered String}
    {isIncremental : Bool} {templates : Templates}
    (h : ∀ rendering ∈ renderings isIncremental templates,
      (compile rendering.1 rendering.2).Like faultsLike requestsLike
        (other rendering.1 rendering.2)) :
    (assembled compile isIncremental templates).Like faultsLike requestsLike
      (assembled other isIncremental templates) := by
  cases templates with
  | none => exact .plain _
  | table query incrementalQuery preOps postOps =>
    obtain ⟨hextend, hbuild⟩ := List.forall_mem_append.1 h
    have hbuild' (incremental : Option IncrementalSql) :=
      like_assembledTable (fun query preOps postOps =>
        Sql.table query incremental preOps postOps) fun template htemplate =>
          hbuild (false, template) (List.mem_map_of_mem htemplate)
    cases isIncremental with
    | false => exact hbuild' none
    | true =>
      rw [if_pos rfl] at hextend
      have hextend' :=
        like_assembledTable IncrementalSql.mk fun template htemplate => hextend
          (true, template) (List.mem_map_of_mem htemplate)
      exact hextend'.andThen fun incremental => hbuild' (some incremental)
  | operation queries =>
    have hqueries : ∀ query ∈ queries,
        (compile false query).Like faultsLike requestsLike
          (other false query) :=
      fun query hquery => h (false, query) (List.mem_map_of_mem hquery)
    exact (Rendered.Like.forEach_of_mem hqueries).map _
  | assertion query => exact (h (false, query) List.mem_cons_self).map _

/-! ## Other registries -/

/-- A scope and the same scope in another registry agree on the calls of which
the references find the same. -/
theorem Scope.agreeOn_within (scope : Scope) {other : Registry}
    {evaluated : Expr → Prop} (h : ∀ callee arguments call,
      evaluated (.call callee arguments) → call? callee arguments = some call →
        other.find call.reference = scope.registry.find call.reference) :
    AgreeOn (· = ·) (· = ·) scope (scope.within other) evaluated := by
  intro callee arguments hpart hwhen
  have hresolve (depends : Bool) (hcall : call? callee arguments =
      (referenceOf? arguments).map (⟨·, depends⟩)) :
      scope.resolveArguments arguments depends =
        (scope.within other).resolveArguments arguments depends := by
    rw [resolveArguments, resolveArguments]
    cases hreference : referenceOf? arguments with
    | none => rfl
    | some reference =>
      rw [hreference] at hcall
      have hfind : (scope.within other).registry.find reference =
          scope.registry.find reference :=
        h callee arguments _ hpart hcall
      dsimp only
      rw [resolve, resolve, hfind]
      rfl
  rw [eval, eval]
  cases hbuiltin : Builtin.of? callee with
  | none => exact .plain _
  | some builtin =>
    cases builtin with
    | ref =>
      dsimp only
      rw [hresolve true (by rw [call?, hbuiltin])]
      exact .refl _
    | resolve =>
      dsimp only
      rw [hresolve false (by rw [call?, hbuiltin])]
      exact .refl _
    | self | name | schema | database | incremental => exact .plain _
    | when => exact absurd hbuiltin hwhen

theorem Scope.shares_within (scope : Scope) (other : Registry) :
    Shares (· = ·) (· = ·) scope (scope.within other) :=
  ⟨rfl, fun _ => rfl, fun _ => .refl _⟩

section

variable {r other : Registry} {surroundings : Surroundings}
  {entry : Registry.Entry}

/-- The SQL of an action is the same in registries that agree on its calls. -/
theorem renderedSql_eq_of_agree
    (hcalls : ∀ call, Calls r surroundings entry call →
      other.find call.reference = r.find call.reference) :
    renderedSql other surroundings entry =
      renderedSql r surroundings entry := by
  symm
  rw [renderedSql, renderedSql, Scope.sql_eq_assembled, Scope.sql_eq_assembled]
  apply Rendered.Like.eq
  apply like_assembled
  intro rendering hrendering
  have hscopes : (scopeOf other surroundings entry).inMode rendering.1 =
      ((scopeOf r surroundings entry).inMode rendering.1).within other := by
    cases rendering.1 <;> rfl
  have hregistry :
      ((scopeOf r surroundings entry).inMode rendering.1).registry = r := by
    cases rendering.1 <;> rfl
  rw [hscopes]
  refine Scope.like_compiled (Scope.shares_within _ other) fun hinterpolate =>
    ?_
  apply Scope.agreeOn_within
  rintro callee arguments call ⟨e, hholds, hevaluated⟩ hcall
  rw [hregistry]
  exact hcalls call
    ⟨hinterpolate, rendering, hrendering, e, hholds, hevaluated.evaluates hcall⟩

theorem declaredSites_eq_of_agree (self : Target) {references : List Reference}
    (h : ∀ reference ∈ references, other.find reference = r.find reference) :
    declaredSites other self references = declaredSites r self references := by
  induction references with
  | nil => rfl
  | cons reference rest ih =>
    obtain ⟨hfirst, hrest⟩ := List.forall_mem_cons.1 h
    rw [declaredSites, declaredSites, ih hrest, hfirst]

theorem demandedTargets_eq_of_agree (self : Target) (byDefault : Bool)
    {demands : Demands} (h : ∀ demand ∈ demands,
      assertionTargets other self demand.1 = assertionTargets r self demand.1) :
    demandedTargets other self byDefault demands =
      demandedTargets r self byDefault demands := by
  apply List.flatMap_congr
  rintro ⟨target, demand⟩ hdemand
  dsimp only
  rw [h _ hdemand]

/-- The demands are about the targets of places. -/
theorem mem_targets_of_mem_ofSites {sites : List Site}
    {demand : Target × Demand} (h : demand ∈ Demands.ofSites sites) :
    ∃ site ∈ sites, site.target = demand.1 := by
  rw [Demands.ofSites_eq] at h
  obtain ⟨target, htarget, rfl⟩ := List.mem_map.1 h
  exact List.mem_map.1 (Target.mem_distinct.1 htarget)

/-- An action is linked in the same way in registries that agree on its declared
dependencies, on its calls, and on the assertions of the targets that these lead
to. -/
theorem linkEntry_eq_of_agree (hdeclared : ∀ reference ∈
      entry.pending.dependencies, other.find reference = r.find reference)
    (hcalls : ∀ call, Calls r surroundings entry call →
      other.find call.reference = r.find call.reference)
    (hassertions : ∀ site ∈ sitesOf r surroundings entry,
      assertionTargets other entry.action.target site.target =
        assertionTargets r entry.action.target site.target) :
    linkEntry other surroundings entry = linkEntry r surroundings entry := by
  have hdemanded : demandedTargets other entry.action.target
      entry.pending.dependOnDependencyAssertions
      (Demands.ofSites (sitesOf r surroundings entry)) =
      demandedTargets r entry.action.target
        entry.pending.dependOnDependencyAssertions
        (Demands.ofSites (sitesOf r surroundings entry)) := by
    apply demandedTargets_eq_of_agree
    intro demand hdemand
    obtain ⟨site, hsite, htarget⟩ := mem_targets_of_mem_ofSites hdemand
    rw [← htarget]
    exact hassertions site hsite
  simp only [linkEntry, renderedSql_eq_of_agree hcalls,
    declaredSites_eq_of_agree _ hdeclared, declared_append_rendered, hdemanded]

end

end SqlWorkflow.Link
