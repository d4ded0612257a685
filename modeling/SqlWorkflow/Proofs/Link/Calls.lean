import SqlWorkflow.Link.Outcome

/-!
# Calls of `ref`

Rendering the templates of an action evaluates some of the calls of `ref` in
them: those in placeholders that need no script runtime, and of a conditional
only those in the condition and in the branch that is chosen. The calls are
listed here without regard to what rendering notes down, and the notes are shown
to hold exactly the places of those calls that lead to a target.
-/

namespace SqlWorkflow

namespace Registry

/-- The target of the action that a reference leads to, if it leads to one. -/
def target? (r : Registry) (reference : Reference) : Option Target :=
  match r.find reference with
  | .found place _ => (r.action? place).map (·.target)
  | .missing | .ambiguous _ => none

theorem target_of_find {r : Registry} {reference : Reference} {place : Nat}
    {target : Target} (h : r.find reference = .found place target) :
    (r.action? place).map (·.target) = some target := by
  have hfirst : firstOfEach (r.candidates reference) = [(place, target)] := by
    rw [find] at h
    split at h
    · cases h
    · rename_i other found hfound
      cases h
      exact hfound
    · cases h
  have hmem : (place, target) ∈ r.candidates reference := by
    apply (firstOfEach_sublist _).subset
    rw [hfirst]
    exact List.mem_singleton_self _
  obtain ⟨other, -, hother⟩ := List.mem_filterMap.1 hmem
  obtain ⟨action, haction, hfits⟩ := Option.bind_eq_some_iff.1 hother
  split at hfits
  · cases hfits
    rw [haction]
    rfl
  · cases hfits

end Registry

namespace Link

open Registry (Templates)

/-- The place that a reference makes, if it leads to a target. -/
def site? (r : Registry) (reference : Reference) : Option Site :=
  (r.target? reference).map fun target =>
    ⟨target, reference.includeDependentAssertions⟩

theorem site?_eq (r : Registry) (reference : Reference) :
    site? r reference =
      match r.find reference with
      | .found _ target => some ⟨target, reference.includeDependentAssertions⟩
      | .missing | .ambiguous _ => none := by
  rw [site?, Registry.target?]
  cases hfind : r.find reference with
  | found place target =>
    dsimp only
    rw [Registry.target_of_find hfind, Option.map_some]
  | missing => rfl
  | ambiguous candidates => rfl

namespace Scope

variable (scope : Scope)

mutual

/-- The references of the calls of `ref` that are evaluated with an expression,
in order. `expand` gives the text of a template inside it, and `inner` the
references of that template. -/
def calls (expand : String → Rendered String)
    (inner : String → List Reference) : Expr → List Reference
  | .null | .bool _ | .number _ | .string _ | .ident _ | .member _ _ => []
  | .template raw => inner raw
  | .array items => callsOfList expand inner items
  | .object entries => callsOfEntries expand inner entries
  | .call callee arguments =>
    match Builtin.of? callee with
    | some .ref => (referenceOf? arguments).toList
    | some .when => callsOfWhen expand inner arguments
    | _ => []

/-- The references of a conditional: those of the condition, then those of the
branch it selects. -/
def callsOfWhen (expand : String → Rendered String)
    (inner : String → List Reference) : List Expr → List Reference
  | [] => []
  | condition :: branches =>
    calls expand inner condition ++ callsOfBranch expand inner
      (truthy (scope.eval expand condition).value) branches

def callsOfBranch (expand : String → Rendered String)
    (inner : String → List Reference)
    (condition : Bool) : List Expr → List Reference
  | [] => []
  | [yes] => if condition then calls expand inner yes else []
  | yes :: no :: _ =>
    if condition then calls expand inner yes else calls expand inner no

def callsOfList (expand : String → Rendered String)
    (inner : String → List Reference) : List Expr → List Reference
  | [] => []
  | e :: es => calls expand inner e ++ callsOfList expand inner es

def callsOfEntries (expand : String → Rendered String)
    (inner : String → List Reference) : List (String × Expr) → List Reference
  | [] => []
  | (_, e) :: es => calls expand inner e ++ callsOfEntries expand inner es

end

/-- The references of a placeholder; one for the script runtime has none. -/
def callsOfPlaceholder (expand : String → Rendered String)
    (inner : String → List Reference) (source : String) : List Reference :=
  match Expr.parse source with
  | .ok e => if isNative e then scope.calls expand inner e else []
  | .error _ => []

def callsOfSegment (expand : String → Rendered String)
    (inner : String → List Reference) : Template.Segment → List Reference
  | .text _ => []
  | .placeholder source => scope.callsOfPlaceholder expand inner source

/-- The references of a template. -/
def callsWith (expand : String → Rendered String)
    (inner : String → List Reference) (template : String) : List Reference :=
  match Template.segments template with
  | .error _ => []
  | .ok segments => segments.flatMap (scope.callsOfSegment expand inner)

/-- The references of a template inside an expression, nested at most the given
number of times. -/
def callsInner : Nat → String → List Reference
  | 0, _ => []
  | depth + 1, template =>
    scope.callsWith (scope.expandInner depth) (callsInner depth) template

/-- The references of the calls of `ref` that are evaluated when a template is
rendered, in order. -/
def callsOfTemplate (template : String) : List Reference :=
  scope.callsWith (scope.expandInner template.length)
    (scope.callsInner template.length) template

/-- The references of SQL, of which there are none if its placeholders are not
filled in. -/
def callsOfCompiled (interpolate : Bool) (template : String) : List Reference :=
  if interpolate then scope.callsOfTemplate template else []

/-- The scope in which a template is rendered in one of the two modes. -/
def inMode : Bool → Scope
  | true => scope.inIncrementalMode
  | false => scope

end Scope

/-- The templates of an action in the order in which they are rendered, and
whether each is rendered in incremental mode. The templates of an incremental
table are rendered in both modes. -/
def renderings (isIncremental : Bool) : Templates → List (Bool × String)
  | .none => []
  | .table query incrementalQuery preOps postOps =>
    (if isIncremental then
      (incrementalQuery.getD query :: (preOps ++ postOps)).map (true, ·)
      else []) ++ (query :: (preOps ++ postOps)).map (false, ·)
  | .operation queries => queries.map (false, ·)
  | .assertion query => [(false, query)]

def Scope.callsOfSql (scope : Scope) (isIncremental interpolate : Bool)
    (templates : Templates) : List Reference :=
  (renderings isIncremental templates).flatMap fun rendering =>
    (scope.inMode rendering.1).callsOfCompiled interpolate rendering.2

/-- The references of the calls of `ref` that are evaluated when an action is
linked, in order. -/
def callsOf (r : Registry) (surroundings : Surroundings)
    (entry : Registry.Entry) : List Reference :=
  (scopeOf r surroundings entry).callsOfSql (isIncremental entry.action.body)
    entry.pending.interpolate entry.pending.templates

/-- Notes account for references if they hold the places of those that lead to a
target, in order, and tell of no conflict. -/
structure Accounts (r : Registry) (references : List Reference)
    (notes : Notes) : Prop where
  sites : notes.sites = references.filterMap (site? r)
  faults : ∀ target, .conflict target ∉ notes.faults

namespace Accounts

variable {r : Registry} {α β : Type}

theorem plain (value : α) : Accounts r [] (Rendered.plain value).notes where
  sites := rfl
  faults _ := List.not_mem_nil

theorem append {first second : List Reference} {a b : Notes}
    (ha : Accounts r first a)
    (hb : Accounts r second b) : Accounts r (first ++ second) (a ++ b) where
  sites := by rw [Notes.sites_append, ha.sites, hb.sites, List.filterMap_append]
  faults target := by
    rw [Notes.faults_append, List.mem_append, not_or]
    exact ⟨ha.faults target, hb.faults target⟩

theorem forEach {f : α → Rendered β} {calls : α → List Reference} {as : List α}
    (h : ∀ a ∈ as, Accounts r (calls a) (f a).notes) :
    Accounts r (as.flatMap calls) (Rendered.forEach f as).notes := by
  induction as with
  | nil => exact plain []
  | cons a as ih =>
    exact (h a List.mem_cons_self).append
      (ih fun b hb => h b (List.mem_cons_of_mem a hb))

end Accounts

namespace Scope

variable (scope : Scope)

/-- A reference is noted as a place if it leads to a target and the action
depends on it. -/
theorem accounts_resolve (reference : Reference) (depends : Bool) :
    Accounts scope.registry (if depends then [reference] else [])
      (scope.resolve reference depends).notes := by
  have hsite := site?_eq scope.registry reference
  rw [resolve]
  cases hfind : scope.registry.find reference with
  | found place target =>
    rw [hfind] at hsite
    cases depends with
    | false => exact ⟨rfl, fun _ => List.not_mem_nil⟩
    | true => exact ⟨by simp [hsite], fun _ => List.not_mem_nil⟩
  | missing =>
    rw [hfind] at hsite
    constructor
    · cases depends <;> simp [hsite, Rendered.faulty]
    · simp [Rendered.faulty]
  | ambiguous candidates =>
    rw [hfind] at hsite
    constructor
    · cases depends <;> simp [hsite, Rendered.faulty]
    · simp [Rendered.faulty]

theorem accounts_resolveArguments (arguments : List Expr) (depends : Bool) :
    Accounts scope.registry (if depends then (referenceOf? arguments).toList
      else []) (scope.resolveArguments arguments depends).notes := by
  rw [resolveArguments]
  cases referenceOf? arguments with
  | some reference => exact scope.accounts_resolve reference depends
  | none => cases depends <;> exact .plain _

/-- The notes of every template inside an expression account for its
references. -/
def AccountsInside (expand : String → Rendered String)
    (inner : String → List Reference) : Prop :=
  ∀ template, Accounts scope.registry (inner template) (expand template).notes

variable {expand : String → Rendered String} {inner : String → List Reference}

mutual

theorem accounts_eval (hinner : scope.AccountsInside expand inner) : ∀ e : Expr,
    Accounts scope.registry (scope.calls expand inner e)
      (scope.eval expand e).notes
  | .null | .bool _ | .number _ | .string _ | .ident _ | .member _ _ => by
    simp only [calls, eval]
    exact .plain _
  | .template raw => by
    simp only [calls, eval]
    exact hinner raw
  | .array items => by
    simp only [calls, eval]
    exact accounts_evalList hinner items
  | .object entries => by
    simp only [calls, eval]
    exact accounts_evalEntries hinner entries
  | .call callee arguments => by
    simp only [calls, eval]
    cases Builtin.of? callee with
    | none => exact .plain _
    | some builtin =>
      cases builtin with
      | ref => exact scope.accounts_resolveArguments arguments true
      | resolve => exact scope.accounts_resolveArguments arguments false
      | when => exact accounts_evalWhen hinner arguments
      | self | name | schema | database | incremental => exact .plain _

theorem accounts_evalWhen (hinner : scope.AccountsInside expand inner) :
    ∀ arguments : List Expr,
    Accounts scope.registry (scope.callsOfWhen expand inner arguments)
      (scope.evalWhen expand arguments).notes
  | [] => by
    simp only [callsOfWhen, evalWhen]
    exact .plain _
  | condition :: branches => by
    simp only [callsOfWhen, evalWhen]
    exact (accounts_eval hinner condition).append
      (accounts_evalBranch hinner _ branches)

theorem accounts_evalBranch (hinner : scope.AccountsInside expand inner)
    (condition : Bool) : ∀ branches : List Expr,
      Accounts scope.registry (scope.callsOfBranch expand inner condition
        branches) (scope.evalBranch expand condition branches).notes
  | [] => by
    simp only [callsOfBranch, evalBranch]
    exact .plain _
  | [yes] => by
    simp only [callsOfBranch, evalBranch]
    split
    · exact accounts_eval hinner yes
    · exact .plain _
  | yes :: no :: _ => by
    simp only [callsOfBranch, evalBranch]
    split
    · exact accounts_eval hinner yes
    · exact accounts_eval hinner no

theorem accounts_evalList (hinner : scope.AccountsInside expand inner) :
    ∀ es : List Expr,
      Accounts scope.registry (scope.callsOfList expand inner es)
        (scope.evalList expand es).notes
  | [] => by
    simp only [callsOfList, evalList]
    exact .plain _
  | e :: es => by
    simp only [callsOfList, evalList]
    exact (accounts_eval hinner e).append (accounts_evalList hinner es)

theorem accounts_evalEntries (hinner : scope.AccountsInside expand inner) :
    ∀ es : List (String × Expr),
    Accounts scope.registry (scope.callsOfEntries expand inner es)
      (scope.evalEntries expand es).notes
  | [] => by
    simp only [callsOfEntries, evalEntries]
    exact .plain _
  | (_, e) :: es => by
    simp only [callsOfEntries, evalEntries]
    exact (accounts_eval hinner e).append (accounts_evalEntries hinner es)

end

theorem accounts_placeholder (hinner : scope.AccountsInside expand inner)
    (source : String) :
    Accounts scope.registry (scope.callsOfPlaceholder expand inner source)
      (scope.placeholder expand source).notes := by
  have hruntime : Accounts scope.registry [] (scope.evaluate source).notes := by
    simp only [evaluate]
    split
    · exact ⟨rfl, fun _ => List.not_mem_nil⟩
    · exact ⟨rfl, fun _ => by simp⟩
  rw [callsOfPlaceholder, placeholder]
  cases Expr.parse source with
  | error e => exact hruntime
  | ok e =>
    dsimp only
    split
    · exact scope.accounts_eval hinner e
    · exact hruntime

theorem accounts_expandWith (hinner : scope.AccountsInside expand inner)
    (literal : Bool) (template : String) :
    Accounts scope.registry (scope.callsWith expand inner template)
      (scope.expandWith expand literal template).notes := by
  rw [callsWith, expandWith]
  cases Template.segments template with
  | error error => exact ⟨rfl, fun _ => by simp [Rendered.faulty]⟩
  | ok segments =>
    have hsegments : Accounts scope.registry
        (segments.flatMap (scope.callsOfSegment expand inner)) (Rendered.forEach
          (scope.segmentText expand literal) segments).notes := by
      apply Accounts.forEach
      intro segment _
      cases segment with
      | text text => exact .plain _
      | placeholder source => exact scope.accounts_placeholder hinner source
    exact hsegments

theorem accounts_expandInner (depth : Nat) (template : String) :
    Accounts scope.registry (scope.callsInner depth template)
      (scope.expandInner depth template).notes := by
  induction depth generalizing template with
  | zero => exact .plain _
  | succ depth ih => exact scope.accounts_expandWith ih true template

theorem accounts_render (template : String) :
    Accounts scope.registry (scope.callsOfTemplate template)
      (scope.render template).notes :=
  scope.accounts_expandWith (scope.accounts_expandInner template.length)
    false template

theorem accounts_compiled (interpolate : Bool) (template : String) :
    Accounts scope.registry (scope.callsOfCompiled interpolate template)
      (scope.compiled interpolate template).notes := by
  cases interpolate with
  | false => exact .plain _
  | true => exact scope.accounts_render template

theorem accounts_compiledAll (interpolate : Bool) (templates : List String) :
    Accounts scope.registry
      (templates.flatMap (scope.callsOfCompiled interpolate))
      (scope.compiledAll interpolate templates).notes := by
  apply Accounts.forEach
  intro template _
  exact scope.accounts_compiled interpolate template

theorem accounts_tableSql (interpolate : Bool) (query : String)
    (preOps postOps : List String) (incremental : Option IncrementalSql) :
    Accounts scope.registry ((query :: (preOps ++ postOps)).flatMap
      (scope.callsOfCompiled interpolate))
      (scope.tableSql interpolate query preOps postOps incremental).notes := by
  rw [List.flatMap_cons, List.flatMap_append]
  exact (scope.accounts_compiled interpolate query).append
    ((scope.accounts_compiledAll interpolate preOps).append
      (scope.accounts_compiledAll interpolate postOps))

theorem accounts_incrementalSql (interpolate : Bool) (query : String)
    (preOps postOps : List String) :
    Accounts scope.registry ((query :: (preOps ++ postOps)).flatMap
      (scope.inIncrementalMode.callsOfCompiled interpolate))
      (scope.incrementalSql interpolate query preOps postOps).notes := by
  rw [List.flatMap_cons, List.flatMap_append]
  exact (scope.inIncrementalMode.accounts_compiled interpolate query).append
    ((scope.inIncrementalMode.accounts_compiledAll interpolate preOps).append
      (scope.inIncrementalMode.accounts_compiledAll interpolate postOps))

/-- The notes of the SQL of an action account for the calls in its templates. -/
theorem accounts_sql (isIncremental interpolate : Bool)
    (templates : Templates) :
    Accounts scope.registry (scope.callsOfSql isIncremental interpolate
      templates) (scope.sql isIncremental interpolate templates).notes := by
  rw [callsOfSql]
  cases templates with
  | none => exact .plain _
  | table query incrementalQuery preOps postOps =>
    have hbase (incremental : Option IncrementalSql) :=
      scope.accounts_tableSql interpolate query preOps postOps incremental
    cases isIncremental with
    | false =>
      simpa [renderings, List.flatMap_map, inMode, sql] using hbase none
    | true =>
      have hextend :=
        scope.accounts_incrementalSql interpolate (incrementalQuery.getD query)
          preOps postOps
      rw [renderings, if_pos rfl, List.flatMap_append, List.flatMap_map,
        List.flatMap_map]
      exact hextend.append (hbase _)
  | operation queries =>
    rw [renderings, List.flatMap_map]
    exact scope.accounts_compiledAll interpolate queries
  | assertion query =>
    rw [renderings, List.flatMap_singleton]
    exact scope.accounts_compiled interpolate query

end Scope

theorem accounts_renderedSql (r : Registry) (surroundings : Surroundings)
    (entry : Registry.Entry) :
    Accounts r (callsOf r surroundings entry)
      (renderedSql r surroundings entry).notes :=
  (scopeOf r surroundings entry).accounts_sql _ _ _

end Link

end SqlWorkflow
