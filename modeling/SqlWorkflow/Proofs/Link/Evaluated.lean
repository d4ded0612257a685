import SqlWorkflow.Proofs.Link.Calls
import SqlWorkflow.Proofs.Link.Nesting

/-!
# Calls that are evaluated

Which calls of `ref` and `resolve` are evaluated with a template is told without
rendering it: those in the native placeholders of the template, in the items and
entries of arrays and objects, in the conditions and the chosen branches of
conditionals, and in the templates inside all these. A fault of a lookup comes
up in rendering just when one of these calls leads to no target.
-/

namespace SqlWorkflow.Link

open SqlWorkflow.Expr (Part)
open Registry (Templates)

/-- A call of `ref` or of `resolve`. -/
structure Call where
  reference : Reference
  /-- Whether the action depends on the target. -/
  depends : Bool

/-- The call that a callee with arguments is, if it is one of `ref` or
`resolve`. -/
def call? (callee : Expr) (arguments : List Expr) : Option Call :=
  match Builtin.of? callee with
  | some .ref => (referenceOf? arguments).map (⟨·, true⟩)
  | some .resolve => (referenceOf? arguments).map (⟨·, false⟩)
  | _ => none

/-- The fault of a reference that leads to no target. `missing` is the one to
report if nothing fits it. -/
def failure? (r : Registry) (missing : Fault)
    (reference : Reference) : Option Fault :=
  match r.find reference with
  | .found _ _ => none
  | .missing => some missing
  | .ambiguous candidates => some (.ambiguous reference candidates)

theorem failure?_eq_some_iff {r : Registry} {missing fault : Fault}
    {reference : Reference} :
    failure? r missing reference = some fault ↔
      (r.find reference = .missing ∧ fault = missing) ∨
        ∃ candidates, r.find reference = .ambiguous candidates ∧
          fault = .ambiguous reference candidates := by
  rw [failure?]
  cases r.find reference <;> simp [eq_comm]

/-- The fault of a call that leads to no target. -/
def Call.fault? (r : Registry) (call : Call) : Option Fault :=
  failure? r (.unresolved call.reference) call.reference

/-- A fault of a reference that leads nowhere or to several targets. -/
def Fault.isLookup : Fault → Bool
  | .unresolved _ | .missing _ _ | .ambiguous _ _ => true
  | .template _ | .evaluation _ _ | .conflict _ => false

/-- A template has a placeholder for an expression that needs no script
runtime. -/
def HoldsNative (template : String) (e : Expr) : Prop :=
  ∃ segments source, Template.segments template = .ok segments ∧
    .placeholder source ∈ segments ∧ Expr.parse source = .ok e ∧ isNative e

namespace Scope

/-- A call is evaluated with an expression. -/
inductive Evaluates (scope : Scope) (call : Call) : Expr → Prop
  | call {callee : Expr} {arguments : List Expr}
      (h : call? callee arguments = some call) :
      Evaluates scope call (.call callee arguments)
  | item {items : List Expr} {e : Expr} (hitem : e ∈ items)
      (h : Evaluates scope call e) : Evaluates scope call (.array items)
  | entry {entries : List (String × Expr)} {entry : String × Expr}
      (hentry : entry ∈ entries) (h : Evaluates scope call entry.2) :
      Evaluates scope call (.object entries)
  | condition {callee condition : Expr} {branches : List Expr}
      (hcallee : Builtin.of? callee = some .when)
      (h : Evaluates scope call condition) :
      Evaluates scope call (.call callee (condition :: branches))
  | branch {callee condition e : Expr} {branches : List Expr}
      (hcallee : Builtin.of? callee = some .when)
      (hbranch : branch? (truthy (scope.eval scope.inner condition).value)
        branches = some e) (h : Evaluates scope call e) :
      Evaluates scope call (.call callee (condition :: branches))
  | template {raw : String} {e : Expr} (hholds : HoldsNative raw e)
      (h : Evaluates scope call e) : Evaluates scope call (.template raw)

/-- A call is evaluated with a template. -/
def EvaluatesIn (scope : Scope) (template : String) (call : Call) : Prop :=
  ∃ e, HoldsNative template e ∧ scope.Evaluates call e

section Inversion

variable {scope : Scope} {call : Call}

theorem evaluates_template_iff {raw : String} :
    scope.Evaluates call (.template raw) ↔ scope.EvaluatesIn raw call := by
  constructor
  · intro h
    cases h with
    | template hholds h => exact ⟨_, hholds, h⟩
  · rintro ⟨e, hholds, h⟩
    exact .template hholds h

theorem evaluates_array_iff {items : List Expr} :
    scope.Evaluates call (.array items) ↔
      ∃ e ∈ items, scope.Evaluates call e := by
  constructor
  · intro h
    cases h with
    | item hitem h => exact ⟨_, hitem, h⟩
  · rintro ⟨e, hitem, h⟩
    exact .item hitem h

theorem evaluates_object_iff {entries : List (String × Expr)} :
    scope.Evaluates call (.object entries) ↔
      ∃ entry ∈ entries, scope.Evaluates call entry.2 := by
  constructor
  · intro h
    cases h with
    | entry hentry h => exact ⟨_, hentry, h⟩
  · rintro ⟨entry, hentry, h⟩
    exact .entry hentry h

/-- With a call of anything but a conditional, only this call itself may be
evaluated. -/
theorem evaluates_call_iff {callee : Expr} {arguments : List Expr}
    (hcallee : Builtin.of? callee ≠ some .when) :
    scope.Evaluates call (.call callee arguments) ↔
      call? callee arguments = some call := by
  constructor
  · intro h
    cases h with
    | call h => exact h
    | condition hwhen => exact absurd hwhen hcallee
    | branch hwhen => exact absurd hwhen hcallee
  · exact .call

theorem evaluates_when_iff {callee condition : Expr} {branches : List Expr}
    (hcallee : Builtin.of? callee = some .when) :
    scope.Evaluates call (.call callee (condition :: branches)) ↔
      scope.Evaluates call condition ∨ ∃ e,
        branch? (truthy (scope.eval scope.inner condition).value) branches =
          some e ∧
          scope.Evaluates call e := by
  constructor
  · intro h
    cases h with
    | call h =>
      rw [call?, hcallee] at h
      cases h
    | condition _ h => exact .inl h
    | branch _ hbranch h => exact .inr ⟨_, hbranch, h⟩
  · rintro (h | ⟨e, hbranch, h⟩)
    · exact .condition hcallee h
    · exact .branch hcallee hbranch h

end Inversion

end Scope

/-! ## Faults of rendering -/

/-- The faults of lookups in notes are those of the given calls that lead to no
target. -/
def Tells (r : Registry) (calls : Call → Prop) (notes : Notes) : Prop :=
  ∀ fault : Fault, fault.isLookup →
    (fault ∈ notes.faults ↔ ∃ call, calls call ∧ call.fault? r = some fault)

namespace Tells

variable {r : Registry} {calls others : Call → Prop} {a b : Notes} {α β : Type}

theorem congr (h : ∀ call, calls call ↔ others call)
    (ha : Tells r calls a) : Tells r others a := by
  intro fault hlookup
  simp only [ha fault hlookup, h]

/-- Notes with no fault of a lookup tell of no call. -/
theorem silent (hcalls : ∀ call, ¬ calls call)
    (h : ∀ fault ∈ a.faults, fault.isLookup = false) : Tells r calls a := by
  intro fault hlookup
  apply iff_of_false
  · intro hmem
    rw [h fault hmem] at hlookup
    cases hlookup
  · rintro ⟨call, hcall, -⟩
    exact hcalls call hcall

theorem plain (hcalls : ∀ call, ¬ calls call)
    (value : α) : Tells r calls (Rendered.plain value).notes :=
  silent hcalls nofun

theorem append (ha : Tells r calls a) (hb : Tells r others b) :
    Tells r (fun call => calls call ∨ others call) (a ++ b) := by
  intro fault hlookup
  rw [Notes.faults_append, List.mem_append, ha fault hlookup, hb fault hlookup]
  simp only [or_and_right, exists_or]

theorem forEach {f : α → Rendered β} {calls : α → Call → Prop} {as : List α}
    (h : ∀ a ∈ as, Tells r (calls a) (f a).notes) :
    Tells r (fun call => ∃ a ∈ as, calls a call)
      (Rendered.forEach f as).notes := by
  induction as with
  | nil => exact plain (fun _ => by simp) []
  | cons a as ih =>
    obtain ⟨hfirst, hrest⟩ := List.forall_mem_cons.1 h
    have hboth := hfirst.append (ih hrest)
    exact hboth.congr fun call => by simp only [List.exists_mem_cons_iff]

end Tells

namespace Scope

variable (scope : Scope)

/-- A lookup that fails is told of, whether or not the action depends on the
target. -/
theorem tells_resolveArguments (arguments : List Expr) (depends : Bool) :
    Tells scope.registry
      (fun call => (referenceOf? arguments).map (⟨·, depends⟩) = some call)
      (scope.resolveArguments arguments depends).notes := by
  rw [resolveArguments]
  cases referenceOf? arguments with
  | none => exact .plain (by simp) _
  | some reference =>
    have hfaults : (scope.resolve reference depends).notes.faults =
        (Call.fault? scope.registry ⟨reference, depends⟩).toList := by
      rw [resolve, Call.fault?, failure?]
      cases scope.registry.find reference <;> rfl
    intro fault _
    dsimp only
    rw [hfaults, Option.mem_toList]
    simp only [Option.map_some, Option.some.injEq, exists_eq_left']

/-- A conditional tells of the calls in its condition and in the branch that is
chosen. -/
theorem tells_evalWhen {callee : Expr} {arguments : List Expr}
    (hcallee : Builtin.of? callee = some .when) (h : ∀ e ∈ arguments, Tells
      scope.registry (scope.Evaluates · e) (scope.eval scope.inner e).notes) :
    Tells scope.registry (scope.Evaluates · (.call callee arguments))
      (scope.evalWhen scope.inner arguments).notes := by
  cases arguments with
  | nil =>
    rw [evalWhen]
    refine .plain (fun call hcall => ?_) _
    cases hcall with
    | call hcall => simp [call?, hcallee] at hcall
  | cons condition branches =>
    obtain ⟨hcondition, hbranches⟩ := List.forall_mem_cons.1 h
    rw [evalWhen, Rendered.andThen, evalBranch_eq]
    refine (hcondition.append ?_).congr fun _ =>
      (evaluates_when_iff hcallee).symm
    cases hbranch :
      branch? (truthy (scope.eval scope.inner condition).value) branches with
    | none => exact .plain (by simp) _
    | some e =>
      exact (hbranches e (mem_of_branch? hbranch)).congr fun _ => by simp

/-- The evaluation of an expression tells of the calls that are evaluated with
it, if the rendering of every template in it does so. -/
theorem tells_eval {e : Expr} (h : ∀ raw, Part (.template raw) e →
      Tells scope.registry (scope.EvaluatesIn raw) (scope.inner raw).notes) :
    Tells scope.registry (scope.Evaluates · e)
      (scope.eval scope.inner e).notes := by
  induction e using Expr.induction with
  | null | bool | number | string | ident | member =>
    rw [eval]
    refine .plain (fun call hcall => ?_) _
    cases hcall
  | template raw =>
    rw [eval]
    exact (h raw .self).congr fun _ => evaluates_template_iff.symm
  | array items ih =>
    rw [eval, evalList_eq_forEach]
    have hitems : ∀ e ∈ items,
        Tells scope.registry (scope.Evaluates · e)
          (scope.eval scope.inner e).notes := by
      intro e he
      exact ih e he fun raw hpart => h raw (.item he hpart)
    exact (Tells.forEach hitems).congr fun _ => evaluates_array_iff.symm
  | object entries ih =>
    rw [eval, evalEntries_eq_forEach]
    have hentries : ∀ entry ∈ entries,
        Tells scope.registry (scope.Evaluates · entry.2)
          ((scope.eval scope.inner entry.2).map (entry.1, ·)).notes := by
      intro entry hentry
      exact ih entry hentry fun raw hpart => h raw (.entry hentry hpart)
    exact (Tells.forEach hentries).congr fun _ => evaluates_object_iff.symm
  | call callee arguments _ ih =>
    have harguments : ∀ e ∈ arguments,
        Tells scope.registry (scope.Evaluates · e)
          (scope.eval scope.inner e).notes := by
      intro e he
      exact ih e he fun raw hpart => h raw (.argument callee he hpart)
    rw [eval]
    cases hbuiltin : Builtin.of? callee with
    | none =>
      exact .plain (fun _ => by simp [evaluates_call_iff, call?, hbuiltin]) _
    | some builtin =>
      cases builtin with
      | ref =>
        exact (scope.tells_resolveArguments arguments true).congr fun _ => by
          simp [evaluates_call_iff, call?, hbuiltin]
      | resolve =>
        exact (scope.tells_resolveArguments arguments false).congr fun _ => by
          simp [evaluates_call_iff, call?, hbuiltin]
      | self | name | schema | database | incremental =>
        exact .plain (fun _ => by simp [evaluates_call_iff, call?, hbuiltin]) _
      | when => exact scope.tells_evalWhen hbuiltin harguments

/-- What is evaluated with a segment of a template. -/
def EvaluatesSegment (call : Call) : Template.Segment → Prop
  | .text _ => False
  | .placeholder source =>
    ∃ e, Expr.parse source = .ok e ∧ isNative e ∧ scope.Evaluates call e

theorem tells_placeholder {source : String}
    (h : ∀ raw, raw.length < source.length →
      Tells scope.registry (scope.EvaluatesIn raw) (scope.inner raw).notes) :
    Tells scope.registry (scope.EvaluatesSegment · (.placeholder source))
      (scope.placeholder scope.inner source).notes := by
  have hruntime
      (hnone : ∀ call, ¬ scope.EvaluatesSegment call (.placeholder source)) :
      Tells scope.registry (scope.EvaluatesSegment · (.placeholder source))
        (scope.evaluate source).notes := by
    apply Tells.silent hnone
    rw [evaluate]
    split
    · simp
    · simp [Fault.isLookup]
  rw [placeholder]
  cases hparse : Expr.parse source with
  | error => exact hruntime (by simp [EvaluatesSegment, hparse])
  | ok e =>
    dsimp only
    split
    · rename_i hnative
      have hvalue := scope.tells_eval fun raw hpart => h raw
        (Expr.short_of_parse hparse raw hpart)
      exact hvalue.congr fun _ => by simp [EvaluatesSegment, hparse, hnative]
    · rename_i hnative
      exact hruntime (by simp [EvaluatesSegment, hparse, hnative])

theorem tells_expandWith {template : String} (literal : Bool)
    (h : ∀ raw, raw.length < template.length →
      Tells scope.registry (scope.EvaluatesIn raw) (scope.inner raw).notes) :
    Tells scope.registry (scope.EvaluatesIn template)
      (scope.expandWith scope.inner literal template).notes := by
  rw [expandWith]
  cases hsegments : Template.segments template with
  | error error =>
    refine .silent ?_ (by simp [Rendered.faulty, Fault.isLookup])
    rintro call ⟨e, ⟨segments, source, hok, -⟩, -⟩
    rw [hsegments] at hok
    cases hok
  | ok segments =>
    have htexts : ∀ segment ∈ segments,
        Tells scope.registry (scope.EvaluatesSegment · segment)
          (scope.segmentText scope.inner literal segment).notes := by
      intro segment hsegment
      cases segment with
      | text => exact .plain (fun _ => id) _
      | placeholder source =>
        have hshorter := Template.length_lt_of_placeholder hsegments hsegment
        exact scope.tells_placeholder fun raw hlt =>
          h raw (Nat.lt_trans hlt hshorter)
    refine (Tells.forEach htexts).congr fun call => ?_
    constructor
    · rintro ⟨segment, hsegment, hevaluates⟩
      cases segment with
      | text => cases hevaluates
      | placeholder source =>
        obtain ⟨e, hparse, hnative, hevaluates⟩ := hevaluates
        exact ⟨e, ⟨segments, source, hsegments, hsegment, hparse, hnative⟩,
          hevaluates⟩
    · rintro ⟨e, ⟨others, source, hok, hsegment, hparse, hnative⟩, hevaluates⟩
      obtain rfl : segments = others := Except.ok.inj (hsegments.symm.trans hok)
      exact ⟨_, hsegment, e, hparse, hnative, hevaluates⟩

/-- The rendering of a template inside an expression tells of the calls that are
evaluated with it. -/
theorem tells_inner (template : String) :
    Tells scope.registry (scope.EvaluatesIn template)
      (scope.inner template).notes := by
  induction hlength :
    template.length using Nat.strongRecOn generalizing template with
  | ind length ih =>
    subst hlength
    rw [inner_eq]
    exact scope.tells_expandWith true fun raw hshorter =>
      ih raw.length hshorter raw rfl

theorem tells_render (template : String) :
    Tells scope.registry (scope.EvaluatesIn template)
      (scope.render template).notes := by
  rw [render_eq]
  exact scope.tells_expandWith false fun raw _ => scope.tells_inner raw

theorem tells_compiled (interpolate : Bool) (template : String) :
    Tells scope.registry
      (fun call => interpolate = true ∧ scope.EvaluatesIn template call)
      (scope.compiled interpolate template).notes := by
  cases interpolate with
  | false => exact .plain (by simp) _
  | true => exact (scope.tells_render template).congr fun _ => by simp

end Scope

/-! ## The SQL of an action -/

namespace Rendered

variable {α β : Type}

theorem notes_forEach_append (f : α → Rendered β) (first second : List α) :
    (forEach f (first ++ second)).notes =
      (forEach f first).notes ++ (forEach f second).notes := by
  induction first with
  | nil => rfl
  | cons a first ih =>
    calc
      (forEach f (a :: first ++ second)).notes =
        (f a).notes ++ (forEach f (first ++ second)).notes := rfl
      _ = (f a).notes ++
          ((forEach f first).notes ++ (forEach f second).notes) := by rw [ih]
      _ = (forEach f (a :: first)).notes ++ (forEach f second).notes := by
        rw [← Notes.append_assoc]
        rfl

theorem forEach_map {γ : Type} (f : β → Rendered γ) (g : α → β) (as : List α) :
    forEach f (as.map g) = forEach (fun a => f (g a)) as := by
  induction as with
  | nil => rfl
  | cons a as ih => rw [List.map_cons, forEach, forEach, ih]

theorem notes_forEach_singleton (f : α → Rendered β)
    (a : α) : (forEach f [a]).notes = (f a).notes :=
  Notes.append_empty _

end Rendered

/-- A query with the statements before and after it. -/
def assembledTable {α : Type} (compile : String → Rendered String)
    (query : String) (preOps postOps : List String)
    (make : String → List String → List String → α) : Rendered α :=
  (compile query).andThen fun query =>
    (Rendered.forEach compile preOps).andThen fun preOps =>
      (Rendered.forEach compile postOps).map fun postOps =>
        make query preOps postOps

/-- The SQL of an action, put together from its templates as they are compiled
in each of the two modes. -/
def assembled (compile : Bool → String → Rendered String)
    (isIncremental : Bool) : Templates → Rendered Sql
  | .none => .plain .none
  | .table query incrementalQuery preOps postOps =>
    if isIncremental then
      (assembledTable (compile true) (incrementalQuery.getD query) preOps
        postOps .mk).andThen fun incremental => assembledTable (compile false)
          query preOps postOps fun query preOps postOps =>
          .table query (some incremental) preOps postOps
    else assembledTable (compile false) query preOps
      postOps fun query preOps postOps =>
      .table query none preOps postOps
  | .operation queries =>
    (Rendered.forEach (compile false) queries).map .operation
  | .assertion query => (compile false query).map .assertion

theorem Scope.sql_eq_assembled (scope : Scope)
    (isIncremental interpolate : Bool) (templates : Templates) :
    scope.sql isIncremental interpolate templates =
      assembled (fun mode => (scope.inMode mode).compiled interpolate)
        isIncremental templates := by
  cases templates <;> rfl

theorem notes_assembledTable {α : Type} (compile : String → Rendered String)
    (query : String) (preOps postOps : List String)
    (make : String → List String → List String → α) :
    (assembledTable compile query preOps postOps make).notes =
      (Rendered.forEach compile (query :: (preOps ++ postOps))).notes := by
  calc
    (assembledTable compile query preOps postOps make).notes =
      (compile query).notes ++ ((Rendered.forEach compile preOps).notes ++
        (Rendered.forEach compile postOps).notes) := rfl
    _ = (Rendered.forEach compile (query :: (preOps ++ postOps))).notes := by
      rw [← Rendered.notes_forEach_append]
      rfl

/-- The notes of the SQL are those of its templates, one after the other. -/
theorem notes_assembled (compile : Bool → String → Rendered String)
    (isIncremental : Bool) (templates : Templates) :
    (assembled compile isIncremental templates).notes =
      (Rendered.forEach (fun rendering : Bool × String =>
        compile rendering.1 rendering.2)
        (renderings isIncremental templates)).notes := by
  cases templates with
  | none => rfl
  | table query incrementalQuery preOps postOps =>
    have hbase (incremental : Option IncrementalSql) :=
      notes_assembledTable (compile false) query preOps
        postOps fun query preOps postOps =>
        Sql.table query incremental preOps postOps
    rw [renderings, Rendered.notes_forEach_append, Rendered.forEach_map]
    cases isIncremental with
    | false => exact hbase none
    | true =>
      have hextend := notes_assembledTable (compile true)
        (incrementalQuery.getD query) preOps postOps IncrementalSql.mk
      rw [if_pos rfl, Rendered.forEach_map]
      exact congrArg₂ (· ++ ·) hextend (hbase _)
  | operation queries =>
    rw [renderings, Rendered.forEach_map]
    rfl
  | assertion query =>
    rw [renderings, Rendered.notes_forEach_singleton]
    rfl

/-- A call is evaluated when an action is linked. -/
def Calls (r : Registry) (surroundings : Surroundings) (entry : Registry.Entry)
    (call : Call) : Prop :=
  entry.pending.interpolate = true ∧
    ∃ rendering ∈
      renderings (isIncremental entry.action.body) entry.pending.templates,
      ((scopeOf r surroundings entry).inMode rendering.1).EvaluatesIn
        rendering.2 call

/-- The faults of lookups in the SQL of an action are those of its calls that
lead to no target. -/
theorem tells_renderedSql (r : Registry) (surroundings : Surroundings)
    (entry : Registry.Entry) :
    Tells r (Calls r surroundings entry)
      (renderedSql r surroundings entry).notes := by
  have hregistry (mode : Bool) :
      ((scopeOf r surroundings entry).inMode mode).registry = r := by
    cases mode <;> rfl
  have hcompiled : ∀ rendering ∈
      renderings (isIncremental entry.action.body) entry.pending.templates,
      Tells r (fun call => entry.pending.interpolate = true ∧
        ((scopeOf r surroundings entry).inMode rendering.1).EvaluatesIn
          rendering.2 call)
        (((scopeOf r surroundings entry).inMode rendering.1).compiled
          entry.pending.interpolate rendering.2).notes := by
    intro rendering _
    have htells :=
      ((scopeOf r surroundings entry).inMode rendering.1).tells_compiled
        entry.pending.interpolate rendering.2
    rwa [hregistry] at htells
  rw [renderedSql, Scope.sql_eq_assembled, notes_assembled]
  refine (Tells.forEach hcompiled).congr fun call => ?_
  constructor
  · rintro ⟨rendering, hrendering, hinterpolate, hevaluates⟩
    exact ⟨hinterpolate, rendering, hrendering, hevaluates⟩
  · rintro ⟨hinterpolate, rendering, hrendering, hevaluates⟩
    exact ⟨rendering, hrendering, hinterpolate, hevaluates⟩

end SqlWorkflow.Link
