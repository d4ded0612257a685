import SqlWorkflow.Proofs.Link.Evaluated

/-!
# Failing lookups are neutral

A reference that leads to no target leaves nothing behind but its fault. Linking
an action comes to the same as linking it without the declared dependencies that
lead nowhere, and with the empty string in place of every call in its templates
that does; only the faults of the lookups are gone then.
-/

namespace SqlWorkflow

namespace Registry

/-- Whether a reference leads to a target. -/
def leads (r : Registry) (reference : Reference) : Bool :=
  match r.find reference with
  | .found _ _ => true
  | .missing | .ambiguous _ => false

end Registry

namespace Link

open Registry (Templates)

/-! ## Leaving out the faults of lookups -/

/-- Notes without the faults of lookups. -/
def Notes.silenced (notes : Notes) : Notes :=
  { notes with faults := notes.faults.filter (!·.isLookup) }

theorem Notes.silenced_append (a b : Notes) :
    (a ++ b).silenced = a.silenced ++ b.silenced := by
  rw [silenced, faults_append, List.filter_append]
  rfl

namespace Rendered

variable {α β : Type}

/-- The same value without the faults of lookups. -/
def silenced (rendered : Rendered α) : Rendered α :=
  ⟨rendered.value, rendered.notes.silenced⟩

@[simp] theorem silenced_plain (value : α) :
    (plain value).silenced = plain value := rfl

@[simp] theorem silenced_map (rendered : Rendered α) (f : α → β) :
    (rendered.map f).silenced = rendered.silenced.map f := rfl

theorem silenced_andThen (rendered : Rendered α) (f : α → Rendered β) :
    (rendered.andThen f).silenced = rendered.silenced.andThen fun value =>
      (f value).silenced := by
  rw [silenced, andThen, Notes.silenced_append]
  rfl

theorem silenced_forEach (f : α → Rendered β) (as : List α) :
    (forEach f as).silenced = forEach (fun a => (f a).silenced) as := by
  induction as with
  | nil => rfl
  | cons a as ih =>
    rw [forEach, silenced_andThen, forEach, ← ih]
    rfl

end Rendered

theorem silenced_assembledTable {α : Type} (compile : String → Rendered String)
    (query : String) (preOps postOps : List String)
    (make : String → List String → List String → α) :
    (assembledTable compile query preOps postOps make).silenced =
      assembledTable (fun template => (compile template).silenced) query preOps
        postOps make := by
  simp only [assembledTable, Rendered.silenced_andThen, Rendered.silenced_map,
    Rendered.silenced_forEach]

theorem silenced_assembled (compile : Bool → String → Rendered String)
    (isIncremental : Bool) (templates : Templates) :
    (assembled compile isIncremental templates).silenced =
      assembled (fun mode template => (compile mode template).silenced)
        isIncremental templates := by
  cases templates with
  | none => rfl
  | table =>
    cases isIncremental with
    | false =>
      simp only [assembled, Bool.false_eq_true, if_false,
        silenced_assembledTable]
    | true =>
      simp only [assembled, if_true, Rendered.silenced_andThen,
        silenced_assembledTable]
  | operation =>
    simp only [assembled, Rendered.silenced_map, Rendered.silenced_forEach]
  | assertion => rfl

/-! ## The empty string for a call -/

mutual

/-- An expression with the empty string in place of every call of `ref` or
`resolve` that may be evaluated and leads to no target. -/
def emptied (r : Registry) : Expr → Expr
  | .array items => .array (emptiedList r items)
  | .object entries => .object (emptiedEntries r entries)
  | .call callee arguments =>
    match call? callee arguments with
    | some call =>
      if r.leads call.reference then .call callee arguments else .string ""
    | none =>
      if Builtin.of? callee = some .when then
        .call callee (emptiedList r arguments)
      else .call callee arguments
  | e => e

def emptiedList (r : Registry) : List Expr → List Expr
  | [] => []
  | e :: es => emptied r e :: emptiedList r es

def emptiedEntries (r : Registry) : List (String × Expr) → List (String × Expr)
  | [] => []
  | (key, e) :: es => (key, emptied r e) :: emptiedEntries r es

end

theorem emptiedList_eq_map (r : Registry)
    (items : List Expr) : emptiedList r items = items.map (emptied r) := by
  induction items with
  | nil => rw [emptiedList, List.map_nil]
  | cons e items ih => rw [emptiedList, ih, List.map_cons]

theorem emptiedEntries_eq_map (r : Registry) (entries : List (String × Expr)) :
    emptiedEntries r entries = entries.map fun entry =>
      (entry.1, emptied r entry.2) := by
  induction entries with
  | nil => rw [emptiedEntries, List.map_nil]
  | cons entry entries ih =>
    obtain ⟨key, e⟩ := entry
    rw [emptiedEntries, ih, List.map_cons]

theorem branch?_map (f : Expr → Expr) (condition : Bool)
    (branches : List Expr) :
    branch? condition (branches.map f) =
      (branch? condition branches).map f := by
  rcases branches with _ | ⟨yes, _ | ⟨no, rest⟩⟩
  · rfl
  · cases condition <;> rfl
  · cases condition <;> rfl

namespace Scope

variable (scope : Scope)

/-- The value of a placeholder with the empty string for its calls that lead to
no target. -/
def emptiedPlaceholder (expand : String → Rendered String)
    (source : String) : Rendered Json :=
  match Expr.parse source with
  | .ok e =>
    if isNative e then
      scope.eval expand (emptied scope.registry e) else scope.evaluate source
  | .error _ => scope.evaluate source

def emptiedSegment (expand : String → Rendered String) (literal : Bool) :
    Template.Segment → Rendered String
  | .text text => .plain (if literal then Expr.unescape text else text)
  | .placeholder source =>
    (scope.emptiedPlaceholder expand source).map insertedText

/-- The text of a template with the empty string for its calls that lead to no
target. All its other text is what it is in the template. -/
def emptiedWith (expand : String → Rendered String) (literal : Bool)
    (template : String) : Rendered String :=
  match Template.segments template with
  | .error error => .faulty template (.template error)
  | .ok segments =>
    (Rendered.forEach (scope.emptiedSegment expand literal) segments).map
      String.join

def emptiedInner : Nat → String → Rendered String
  | 0, template => .plain template
  | depth + 1, template => scope.emptiedWith (emptiedInner depth) true template

def emptiedCompiled (interpolate : Bool)
    (template : String) : Rendered String :=
  if interpolate then
    (scope.emptiedWith (scope.emptiedInner template.length) false template).map
      Text.trim
  else .plain (Text.trim template)

/-- The SQL of an action with the empty string for the calls in its templates
that lead to no target. -/
def emptiedSql (isIncremental interpolate : Bool)
    (templates : Templates) : Rendered Sql :=
  assembled (fun mode => (scope.inMode mode).emptiedCompiled interpolate)
    isIncremental templates

/-- A lookup that fails has the empty string for its value; one that leads to a
target has no fault. -/
theorem silenced_resolveArguments {arguments : List Expr}
    {reference : Reference} (h : referenceOf? arguments = some reference)
    (depends : Bool) :
    (scope.resolveArguments arguments depends).silenced =
      if scope.registry.leads reference then
        scope.resolveArguments arguments depends
      else .plain (.string "") := by
  simp only [resolveArguments, h, resolve, Registry.leads]
  cases scope.registry.find reference <;> rfl

theorem silenced_evaluate (source : String) :
    (scope.evaluate source).silenced = scope.evaluate source := by
  rw [evaluate]
  split <;> rfl

variable {scope} {expand other : String → Rendered String}

/-- A call that leads to no target has the value of the empty string, and its
fault is all that it notes. -/
theorem eval_emptied_lookup {callee : Expr} {arguments : List Expr}
    (depends : Bool)
    (heval : ∀ expand, scope.eval expand (.call callee arguments) =
      scope.resolveArguments arguments depends)
    (hcall : call? callee arguments =
      (referenceOf? arguments).map (⟨·, depends⟩))
    (hwhen : Builtin.of? callee ≠ some .when) :
    scope.eval other (emptied scope.registry (.call callee arguments)) =
      (scope.eval expand (.call callee arguments)).silenced := by
  rw [emptied, hcall, heval expand]
  cases hreference : referenceOf? arguments with
  | none =>
    rw [Option.map_none]
    dsimp only
    rw [if_neg hwhen, heval, resolveArguments, hreference]
    rfl
  | some reference =>
    rw [silenced_resolveArguments scope hreference]
    dsimp only [Option.map_some]
    split
    · exact heval other
    · rw [eval]

/-- A conditional chooses the same branch if its arguments have the same
values. -/
theorem evalWhen_emptied {arguments : List Expr}
    (h : ∀ e ∈ arguments, scope.eval other (emptied scope.registry e) =
      (scope.eval expand e).silenced) :
    scope.evalWhen other (arguments.map (emptied scope.registry)) =
      (scope.evalWhen expand arguments).silenced := by
  cases arguments with
  | nil => rw [List.map_nil, evalWhen, evalWhen, Rendered.silenced_plain]
  | cons condition branches =>
    obtain ⟨hcondition, hbranches⟩ := List.forall_mem_cons.1 h
    rw [List.map_cons, evalWhen, evalWhen, hcondition,
      Rendered.silenced_andThen]
    congr 1
    funext value
    rw [evalBranch_eq, evalBranch_eq, branch?_map]
    cases hbranch : branch? (truthy value) branches with
    | none => rfl
    | some e => exact hbranches e (mem_of_branch? hbranch)

/-- An expression has the same value with the empty string for its calls that
lead to no target, and notes the same but for the faults of these calls, if this
holds of the templates in it. -/
theorem eval_emptied (h : ∀ raw, other raw = (expand raw).silenced) (e : Expr) :
    scope.eval other (emptied scope.registry e) =
      (scope.eval expand e).silenced := by
  induction e using Expr.induction with
  | null | bool | number | string | ident | member =>
    rw [emptied, eval, eval, Rendered.silenced_plain] <;> nofun
  | template raw =>
    rw [emptied, eval, eval, Rendered.silenced_map, h] <;> nofun
  | array items ih =>
    rw [emptied, eval, eval, evalList_eq_forEach, evalList_eq_forEach,
      Rendered.silenced_map, Rendered.silenced_forEach, emptiedList_eq_map,
      Rendered.forEach_map, Rendered.forEach_congr ih]
  | object entries ih =>
    have hentries : ∀ entry ∈ entries,
        (scope.eval other (emptied scope.registry entry.2)).map (entry.1, ·) =
          ((scope.eval expand entry.2).map (entry.1, ·)).silenced := by
      intro entry hentry
      rw [ih entry hentry, Rendered.silenced_map]
    rw [emptied, eval, eval, evalEntries_eq_forEach, evalEntries_eq_forEach,
      Rendered.silenced_map, Rendered.silenced_forEach, emptiedEntries_eq_map,
      Rendered.forEach_map, Rendered.forEach_congr hentries]
  | call callee arguments _ ih =>
    cases hbuiltin : Builtin.of? callee with
    | none =>
      rw [emptied, call?, hbuiltin]
      simp [eval, hbuiltin]
    | some builtin =>
      cases builtin with
      | ref =>
        exact eval_emptied_lookup true (by simp [eval, hbuiltin])
          (by rw [call?, hbuiltin]) (by simp [hbuiltin])
      | resolve =>
        exact eval_emptied_lookup false (by simp [eval, hbuiltin])
          (by rw [call?, hbuiltin]) (by simp [hbuiltin])
      | self | name | schema | database | incremental =>
        rw [emptied, call?, hbuiltin]
        simp [eval, hbuiltin]
      | when =>
        rw [emptied, call?, hbuiltin]
        dsimp only
        rw [if_pos rfl, eval, eval, hbuiltin, emptiedList_eq_map]
        exact evalWhen_emptied ih

theorem emptiedWith_eq (h : ∀ raw, other raw = (expand raw).silenced)
    (literal : Bool) (template : String) :
    scope.emptiedWith other literal template =
      (scope.expandWith expand literal template).silenced := by
  have hplaceholder (source : String) : scope.emptiedPlaceholder other source =
      (scope.placeholder expand source).silenced := by
    rw [emptiedPlaceholder, placeholder]
    cases Expr.parse source with
    | error => exact (scope.silenced_evaluate source).symm
    | ok e =>
      dsimp only
      split
      · exact eval_emptied h e
      · exact (scope.silenced_evaluate source).symm
  rw [emptiedWith, expandWith]
  cases Template.segments template with
  | error => rfl
  | ok segments =>
    dsimp only
    rw [Rendered.silenced_map, Rendered.silenced_forEach]
    congr 1
    apply Rendered.forEach_congr
    intro segment _
    cases segment with
    | text => rfl
    | placeholder source =>
      rw [emptiedSegment, segmentText, hplaceholder, Rendered.silenced_map]

variable (scope)

theorem emptiedInner_eq (depth : Nat) (template : String) :
    scope.emptiedInner depth template =
      (scope.expandInner depth template).silenced := by
  induction depth generalizing template with
  | zero => rfl
  | succ depth ih => exact emptiedWith_eq ih true template

theorem emptiedCompiled_eq (interpolate : Bool) (template : String) :
    scope.emptiedCompiled interpolate template =
      (scope.compiled interpolate template).silenced := by
  cases interpolate with
  | false => rfl
  | true =>
    rw [emptiedCompiled, if_pos rfl,
      emptiedWith_eq (scope.emptiedInner_eq template.length)]
    rfl

/-- The empty string for the calls that lead to no target makes no difference to
the SQL, and of the notes only the faults of these calls are gone. -/
theorem emptiedSql_eq (isIncremental interpolate : Bool)
    (templates : Templates) :
    scope.emptiedSql isIncremental interpolate templates =
      (scope.sql isIncremental interpolate templates).silenced := by
  rw [sql_eq_assembled, silenced_assembled, emptiedSql]
  congr 1
  funext mode template
  exact (scope.inMode mode).emptiedCompiled_eq interpolate template

end Scope

/-! ## The outcome without what leads nowhere -/

/-- What linking an action comes to, from its SQL and what its declared
dependencies lead to. -/
def outcomeOf (r : Registry) (entry : Registry.Entry) (rendered : Rendered Sql)
    (declared : List Site × List Fault) : Outcome :=
  let sites := declared.1 ++ rendered.notes.sites
  let demands := Demands.ofSites sites
  let demanded :=
    demandedTargets r entry.action.target
      entry.pending.dependOnDependencyAssertions demands
  { action :=
      { entry.action with
        dependencies :=
          Target.distinct
            (entry.action.dependencies ++ (sites.map (·.target) ++ demanded))
        body := rendered.value.applyTo entry.action.body }
    faults := rendered.notes.faults ++ (declared.2 ++ conflicts demands)
    requests := rendered.notes.requests }

theorem linkEntry_eq_outcomeOf (r : Registry) (surroundings : Surroundings)
    (entry : Registry.Entry) :
    linkEntry r surroundings entry =
      outcomeOf r entry (renderedSql r surroundings entry)
        (declaredSites r entry.action.target entry.pending.dependencies) := rfl

/-- What linking an action comes to without its declared dependencies that lead
to no target, and with the empty string in place of the calls in its templates
that lead to none. -/
def emptiedOutcome (r : Registry) (surroundings : Surroundings)
    (entry : Registry.Entry) : Outcome :=
  outcomeOf r entry
    ((scopeOf r surroundings entry).emptiedSql (isIncremental entry.action.body)
      entry.pending.interpolate entry.pending.templates) (declaredSites r
        entry.action.target (entry.pending.dependencies.filter r.leads))

/-- The same outcome without the faults of lookups. -/
def Outcome.silenced (outcome : Outcome) : Outcome :=
  { outcome with faults := outcome.faults.filter (!·.isLookup) }

theorem declaredSites_filter_leads (r : Registry) (self : Target)
    (references : List Reference) :
    declaredSites r self (references.filter r.leads) =
      ((declaredSites r self references).1, []) := by
  induction references with
  | nil => rfl
  | cons reference rest ih =>
    cases hfind : r.find reference with
    | found place target =>
      rw [List.filter_cons_of_pos (by simp [Registry.leads, hfind]),
        declaredSites, declaredSites, ih, hfind]
    | missing =>
      rw [List.filter_cons_of_neg (by simp [Registry.leads, hfind]),
        declaredSites, ih, hfind]
    | ambiguous candidates =>
      rw [List.filter_cons_of_neg (by simp [Registry.leads, hfind]),
        declaredSites, ih, hfind]

theorem declaredSites_snd (r : Registry) (self : Target)
    (references : List Reference) :
    (declaredSites r self references).2 = references.filterMap fun reference =>
      failure? r (.missing self reference) reference := by
  induction references with
  | nil => rfl
  | cons reference rest ih =>
    rw [declaredSites, List.filterMap_cons, failure?]
    cases r.find reference <;> simp [ih]

theorem isLookup_of_mem_declaredSites {r : Registry} {self : Target}
    {references : List Reference} {fault : Fault}
    (h : fault ∈ (declaredSites r self references).2) : fault.isLookup := by
  rw [declaredSites_snd] at h
  obtain ⟨reference, -, hfault⟩ := List.mem_filterMap.1 h
  obtain ⟨-, rfl⟩ | ⟨candidates, -, rfl⟩ :=
    failure?_eq_some_iff.1 hfault <;> rfl

theorem isLookup_of_mem_conflicts {demands : Demands} {fault : Fault}
    (h : fault ∈ conflicts demands) : fault.isLookup = false := by
  obtain ⟨⟨target, demand⟩, -, hconflict⟩ := List.mem_filterMap.1 h
  cases demand <;> cases hconflict
  rfl

/-- What leads to no target is neutral: without it an action is linked in the
same way, and just the faults of lookups are gone. -/
theorem emptiedOutcome_eq (r : Registry) (surroundings : Surroundings)
    (entry : Registry.Entry) :
    emptiedOutcome r surroundings entry =
      (linkEntry r surroundings entry).silenced := by
  have hfaults (faults : List Fault) (demands : Demands) :
      (faults ++
        ((declaredSites r entry.action.target entry.pending.dependencies).2 ++
          conflicts demands)).filter (!·.isLookup) =
        faults.filter (!·.isLookup) ++ ([] ++ conflicts demands) := by
    rw [List.filter_append, List.filter_append]
    congr 2
    · rw [List.filter_eq_nil_iff]
      intro fault hfault
      simp [isLookup_of_mem_declaredSites hfault]
    · rw [List.filter_eq_self]
      intro fault hfault
      simp [isLookup_of_mem_conflicts hfault]
  rw [emptiedOutcome, Scope.emptiedSql_eq, declaredSites_filter_leads,
    linkEntry_eq_outcomeOf, Outcome.silenced, outcomeOf, outcomeOf]
  dsimp only
  rw [hfaults]
  rfl

end Link

end SqlWorkflow
