import SqlWorkflow.Proofs.Expr.Acceptance
import SqlWorkflow.Proofs.Link.Agreement
import SqlWorkflow.Proofs.Link.Kept

/-!
# Both modes of rendering

An incremental table is rendered once as it is built and once as it is extended.
A placeholder that has a value here learns of the mode by a call of
`incremental` only; whether the script runtime looks at the mode is up to the
runtime. So where nothing asks for the mode, the SQL that extends a table is the
SQL that builds it, and rendering it twice adds no dependency.
-/

namespace SqlWorkflow

namespace Script

/-- Two requests that differ in their mode at most. -/
def Request.SameButMode (one other : Request) : Prop :=
  { one with incremental := other.incremental } = other

instance : Std.Refl Request.SameButMode := ⟨fun _ => rfl⟩

/-- A script runtime that gives a request the same value in both modes. -/
def IgnoresMode (evaluator : Evaluator) : Prop :=
  ∀ (request : Request) (mode : Bool),
    evaluator { request with incremental := mode } = evaluator request

end Script

namespace Action

def Body.plain : Body → Body
  | .table t => .table { t with type := .table }
  | other => other

/-- The same action with a plain table for its table. -/
def plain (action : Action) : Action :=
  { action with body := action.body.plain }

end Action

namespace Registry

def Entry.plain (entry : Entry) : Entry :=
  { entry with action := entry.action.plain }

/-- The same registry with a plain table at a place. -/
def plainAt (r : Registry) (place : Nat) : Registry :=
  { r with entries := r.entries.modify place Entry.plain }

theorem keysOf_plain (action : Action) :
    keysOf action.plain = keysOf action := by
  obtain ⟨_, _, _, _, _, _, _, _, _, body⟩ := action
  cases body <;> rfl

theorem keysOf_action?_plainAt (r : Registry) (place other : Nat) :
    ((r.plainAt place).action? other).map keysOf =
      (r.action? other).map keysOf := by
  rw [action?, action?, plainAt, List.getElem?_modify]
  cases r.entries[other]? with
  | none => rfl
  | some entry =>
    by_cases hplace : place = other
    · simp only [hplace, if_true, Option.map_eq_map, Option.map_some]
      exact congrArg some (keysOf_plain entry.action)
    · simp only [hplace, if_false, Option.map_eq_map, Option.map_some]

section

variable {r other : Registry} (hkeys : ∀ place,
    (other.action? place).map keysOf = (r.action? place).map keysOf)

include hkeys

/-- References find the same if the actions have the same keys, in the same
places. -/
theorem find_eq_of_keysOf (hname : other.byName = r.byName)
    (reference : Reference) : other.find reference = r.find reference := by
  have hcandidate (place : Nat) (action? : Option Action) :
      (action?.bind fun action => if fits reference action then
        some (place, action.target) else none) =
        (action?.map keysOf).bind fun keys =>
          if partFits reference.schema keys.1.schema keys.2.1.schema &&
              partFits reference.database keys.1.database keys.2.1.database then
            some (place, keys.1) else none := by
    rw [Option.bind_map]
    rfl
  have hcandidates : other.candidates reference = r.candidates reference := by
    rw [candidates, candidates, hname]
    apply List.filterMap_congr
    intro place _
    rw [hcandidate, hcandidate, hkeys]
  rw [find, find, hcandidates]

theorem assertionTargets_eq_of_keysOf (hparent : other.byParent = r.byParent)
    (self target : Target) :
    Link.assertionTargets other self target =
      Link.assertionTargets r self target := by
  have htarget (action? : Option Action) : action?.map (·.target) =
      (action?.map keysOf).map (·.1) := by
    rw [Option.map_map]
    rfl
  have hassertions : other.assertionsOf target = r.assertionsOf target :=
    congrArg _ hparent
  rw [Link.assertionTargets, Link.assertionTargets, hassertions]
  congr 1
  apply List.filterMap_congr
  intro place _
  rw [htarget, htarget, hkeys]

end

end Registry

namespace Link

open SqlWorkflow.Expr (Part)
open Script.Request (SameButMode)

/-! ## Asking for the mode -/

theorem isNative_of_mem {items : List Expr}
    (h : allNative items) : ∀ e ∈ items, isNative e := by
  induction items with
  | nil => nofun
  | cons e items ih =>
    rw [allNative, Bool.and_eq_true] at h
    exact List.forall_mem_cons.2 ⟨h.1, ih h.2⟩

theorem isNative_of_mem_entries {entries : List (String × Expr)}
    (h : entriesNative entries) : ∀ entry ∈ entries, isNative entry.2 := by
  induction entries with
  | nil => nofun
  | cons entry entries ih =>
    rw [entriesNative, Bool.and_eq_true] at h
    exact List.forall_mem_cons.2 ⟨h.1, ih h.2⟩

theorem isNative_of_mem_when {callee : Expr} {arguments : List Expr}
    (hcallee : Builtin.of? callee = some .when)
    (h : isNative (.call callee arguments)) : ∀ e ∈ arguments, isNative e := by
  rw [isNative, hcallee] at h
  simp only [Builtin.accepts, Bool.and_eq_true] at h
  exact isNative_of_mem h.2

/-- A part of an expression that evaluation may come upon, also inside its
templates. Of a conditional these are all arguments, whatever the condition is,
and of any other call it is the call alone. -/
inductive Reached (part : Expr) : Expr → Prop
  | self : Reached part part
  | item {items : List Expr} {e : Expr} (hitem : e ∈ items)
      (h : Reached part e) : Reached part (.array items)
  | entry {entries : List (String × Expr)} {entry : String × Expr}
      (hentry : entry ∈ entries)
      (h : Reached part entry.2) : Reached part (.object entries)
  | argument {callee e : Expr} {arguments : List Expr}
      (hcallee : Builtin.of? callee = some .when) (hargument : e ∈ arguments)
      (h : Reached part e) : Reached part (.call callee arguments)
  | template {raw : String} {e : Expr} (hholds : HoldsNative raw e)
      (h : Reached part e) : Reached part (.template raw)

/-- In an expression that has a value here, only such expressions are
reached. -/
theorem Reached.isNative {part e : Expr} (h : Reached part e)
    (hnative : isNative e) : isNative part := by
  induction h with
  | self => exact hnative
  | item hitem _ ih =>
    exact ih (isNative_of_mem (by rwa [Link.isNative] at hnative) _ hitem)
  | entry hentry _ ih =>
    exact ih
      (isNative_of_mem_entries (by rwa [Link.isNative] at hnative) _ hentry)
  | argument hcallee hargument _ ih =>
    exact ih (isNative_of_mem_when hcallee hnative _ hargument)
  | template hholds _ ih =>
    obtain ⟨_, _, _, _, _, hnative⟩ := hholds
    exact ih hnative

/-- A part of a placeholder of a template, or of a placeholder in a template
that stands in one. Placeholders for the script runtime are not looked into. -/
inductive StandsIn (part : Expr) : String → Prop
  | placeholder {template : String} {e : Expr} (hholds : HoldsNative template e)
      (h : Part part e) : StandsIn part template
  | inside {template raw : String} {e : Expr} (hholds : HoldsNative template e)
      (hinside : Part (.template raw) e)
      (h : StandsIn part raw) : StandsIn part template

theorem standsIn_of_holds {part e : Expr} {template : String}
    (hholds : HoldsNative template e)
    (h : Part part e ∨ ∃ raw, Part (.template raw) e ∧ StandsIn part raw) :
    StandsIn part template := by
  obtain hpart | ⟨raw, hraw, hstands⟩ := h
  · exact .placeholder hholds hpart
  · exact .inside hholds hraw hstands

/-- A call `incremental()` stands in a template. -/
def AsksMode (template : String) : Prop :=
  ∃ callee, Builtin.of? callee = some .incremental ∧
    StandsIn (.call callee []) template

namespace Scope

variable {scope : Scope} {part e : Expr}

/-- What is evaluated with an expression is a part of it, or stands in a
template that is. -/
theorem Evaluated.standsIn (h : scope.Evaluated part e) :
    Part part e ∨ ∃ raw, Part (.template raw) e ∧ StandsIn part raw := by
  induction h with
  | self => exact .inl .self
  | item hitem _ ih =>
    exact ih.imp (.item hitem) fun ⟨raw, hraw, h⟩ => ⟨raw, .item hitem hraw, h⟩
  | entry hentry _ ih =>
    exact ih.imp (.entry hentry) fun ⟨raw, hraw, h⟩ =>
      ⟨raw, .entry hentry hraw, h⟩
  | condition _ _ ih =>
    exact ih.imp (.argument _ List.mem_cons_self) fun ⟨raw, hraw, h⟩ =>
      ⟨raw, .argument _ List.mem_cons_self hraw, h⟩
  | branch _ hbranch _ ih =>
    have hmem :=
      fun condition => List.mem_cons_of_mem condition (mem_of_branch? hbranch)
    exact ih.imp (.argument _ (hmem _)) fun ⟨raw, hraw, h⟩ =>
      ⟨raw, .argument _ (hmem _) hraw, h⟩
  | template hholds _ ih => exact .inr ⟨_, .self, standsIn_of_holds hholds ih⟩

theorem Evaluated.reached (h : scope.Evaluated part e) : Reached part e := by
  induction h with
  | self => exact .self
  | item hitem _ ih => exact .item hitem ih
  | entry hentry _ ih => exact .entry hentry ih
  | condition hcallee _ ih => exact .argument hcallee List.mem_cons_self ih
  | branch hcallee hbranch _ ih =>
    exact .argument hcallee (List.mem_cons_of_mem _ (mem_of_branch? hbranch)) ih
  | template hholds _ ih => exact .template hholds ih

theorem EvaluatedIn.asksMode {template : String} {callee : Expr}
    {arguments : List Expr}
    (h : scope.EvaluatedIn template (.call callee arguments))
    (hcallee : Builtin.of? callee = some .incremental) : AsksMode template := by
  obtain ⟨e, hholds, hevaluated⟩ := h
  have harguments : arguments = [] := by
    obtain ⟨_, _, _, _, _, hnative⟩ := hholds
    have hcall := hevaluated.reached.isNative hnative
    rw [Link.isNative, hcallee] at hcall
    exact List.isEmpty_iff.1 hcall
  subst harguments
  exact ⟨callee, hcallee, standsIn_of_holds hholds hevaluated.standsIn⟩

/-! ## Rendering -/

variable (scope)

/-- The two modes agree on all calls but those of `incremental`. -/
theorem agreeOn_modes {template : String} (h : ¬ AsksMode template)
    (mode other : Bool) :
    AgreeOn (· = ·) SameButMode { scope with
      incremental := mode } { scope with
        incremental := other }
      (EvaluatedIn { scope with incremental := mode } template) := by
  intro callee arguments hevaluated hwhen
  rw [eval, eval]
  cases hbuiltin : Builtin.of? callee with
  | none => exact .plain _
  | some builtin =>
    cases builtin with
    | ref | resolve => exact .refl _
    | self | name | schema | database => exact .plain _
    | incremental => exact absurd (hevaluated.asksMode hbuiltin) h
    | when => exact absurd hbuiltin hwhen

theorem like_evaluate_modes
    (hignores : Script.IgnoresMode scope.surroundings.evaluator)
    (mode other : Bool) (source : String) :
    (evaluate { scope with
      incremental := mode } source).Like (· = ·) SameButMode
      (evaluate { scope with incremental := other } source) := by
  have hvalue : scope.surroundings.evaluator (request { scope with
      incremental := mode } source) =
      scope.surroundings.evaluator
        (request { scope with incremental := other } source) :=
    (hignores (request { scope with incremental := mode } source) other).symm
  rw [evaluate, evaluate]
  dsimp only
  rw [hvalue]
  cases scope.surroundings.evaluator
    (request { scope with incremental := other } source) with
  | ok value => exact ⟨rfl, rfl, .nil, .cons rfl .nil⟩
  | error message => exact ⟨rfl, rfl, .cons rfl .nil, .cons rfl .nil⟩

theorem shares_modes
    (hignores : Script.IgnoresMode scope.surroundings.evaluator)
    (mode other : Bool) :
    Shares (· = ·) SameButMode
      { scope with incremental := mode } { scope with incremental := other } :=
  ⟨rfl, fun _ => rfl, scope.like_evaluate_modes hignores mode other⟩

/-- A template that does not ask for the mode is rendered alike in both
modes. -/
theorem like_render_modes
    (hignores : Script.IgnoresMode scope.surroundings.evaluator)
    {template : String} (h : ¬ AsksMode template) (mode other : Bool) :
    (render { scope with
      incremental := mode } template).Like (· = ·) SameButMode
      (render { scope with incremental := other } template) :=
  like_render (scope.shares_modes hignores mode other)
    (scope.agreeOn_modes h mode other)

theorem like_compiled_modes
    (hignores : Script.IgnoresMode scope.surroundings.evaluator)
    {interpolate : Bool} {template : String}
    (h : interpolate = true → ¬ AsksMode template) (mode other : Bool) :
    (compiled { scope with
      incremental := mode } interpolate template).Like (· = ·) SameButMode
      (compiled { scope with incremental := other } interpolate template) :=
  like_compiled (scope.shares_modes hignores mode other)
    fun hinterpolate => scope.agreeOn_modes (h hinterpolate) mode other

end Scope

/-! ## Tables -/

/-- A table that is rendered alike in both modes is extended by the SQL that
builds it, and refers twice to what this SQL refers to. -/
theorem assembled_twice {compile : Bool → String → Rendered String}
    {query : String} {preOps postOps : List String}
    (h : ∀ template ∈ query :: (preOps ++ postOps), (compile true template).Like
      (· = ·) SameButMode (compile false template)) :
    ∃ built : IncrementalSql, ∃ sites : List Site, (assembled compile false
      (.table query none preOps postOps)).value =
      .table built.query none built.preOps built.postOps ∧
      (assembled compile true (.table query none preOps postOps)).value =
        .table built.query (some built) built.preOps built.postOps ∧
      (assembled compile false (.table query none preOps postOps)).notes.sites =
        sites ∧
      (assembled compile true (.table query none preOps postOps)).notes.sites =
        sites ++ sites := by
  have hlike := like_assembledTable IncrementalSql.mk h
  -- What extends the table is rendered before what builds it, so the references
  -- of both stand one after the other.
  let built :=
    assembledTable (compile false) query preOps postOps IncrementalSql.mk
  refine ⟨built.value, built.notes.sites, rfl, ?_, rfl,
    congrArg (· ++ built.notes.sites) hlike.sites⟩
  have hadded (extending : IncrementalSql) (heq : extending = built.value) :
      Sql.table built.value.query
        (some extending) built.value.preOps built.value.postOps =
        .table built.value.query (some built.value) built.value.preOps
          built.value.postOps := by
    rw [heq]
  exact hadded _ hlike.value

/-- In place of an incremental table, a plain one is linked with what it is
linked with alone. -/
theorem linkEntry_plainAt (r : Registry) (place : Nat)
    (surroundings : Surroundings) (entry : Registry.Entry) :
    linkEntry (r.plainAt place) surroundings entry =
      linkEntry r surroundings entry :=
  linkEntry_eq_of_agree (fun reference _ =>
    Registry.find_eq_of_keysOf (r.keysOf_action?_plainAt place) rfl reference)
    (fun call _ => Registry.find_eq_of_keysOf (r.keysOf_action?_plainAt place)
      rfl call.reference) (fun site _ => Registry.assertionTargets_eq_of_keysOf
        (r.keysOf_action?_plainAt place) rfl _ site.target)

theorem action?_linked (r : Registry) (surroundings : Surroundings)
    (place : Nat) :
    (linked r surroundings).action? place = r.entries[place]?.map fun entry =>
      (linkEntry r surroundings entry).action := by
  rw [Registry.action?, entries_linked, List.getElem?_map, Option.map_map]
  rfl

/-- An entry for an incremental table that has no query of its own to extend it,
and does not ask for the mode. -/
structure Modeless (entry : Registry.Entry) (table : Action.Table)
    (query : String) (preOps postOps : List String) : Prop where
  body : entry.action.body = .table table
  type : table.type = .incremental
  templates : entry.pending.templates = .table query none preOps postOps
  silent : entry.pending.interpolate = true →
    ∀ template ∈ query :: (preOps ++ postOps), ¬ AsksMode template

variable {r : Registry} {surroundings : Surroundings} {entry : Registry.Entry}
  {table : Action.Table} {query : String} {preOps postOps : List String}

/-- The SQL of an incremental table that does not ask for the mode, beside that
of a plain table. -/
theorem renderedSql_of_modeless
    (hignores : Script.IgnoresMode surroundings.evaluator)
    (h : Modeless entry table query preOps postOps) :
    ∃ built : IncrementalSql, ∃ sites : List Site,
      (renderedSql r surroundings entry.plain).value =
        .table built.query none built.preOps built.postOps ∧
        (renderedSql r surroundings entry).value =
          .table built.query (some built) built.preOps built.postOps ∧
        (renderedSql r surroundings entry.plain).notes.sites = sites ∧
        (renderedSql r surroundings entry).notes.sites = sites ++ sites := by
  have hincremental : isIncremental entry.action.body = true := by
    rw [h.body, isIncremental, h.type]
    rfl
  have hplain : isIncremental entry.plain.action.body = false := by
    change isIncremental entry.action.body.plain = false
    rw [h.body]
    rfl
  have hpending : entry.plain.pending = entry.pending := rfl
  have hscope : scopeOf r surroundings entry.plain =
      scopeOf r surroundings entry := rfl
  rw [renderedSql, renderedSql, hincremental, hplain, hpending, hscope,
    h.templates, Scope.sql_eq_assembled, Scope.sql_eq_assembled]
  apply assembled_twice
  intro template htemplate
  exact (scopeOf r surroundings entry).like_compiled_modes hignores
    (fun hinterpolate => h.silent hinterpolate template htemplate) true false

/-- An incremental table that does not ask for the mode depends on the same as a
plain table. -/
theorem dependencies_linkEntry_plain
    (hignores : Script.IgnoresMode surroundings.evaluator)
    (h : Modeless entry table query preOps postOps) :
    (linkEntry r surroundings entry).action.dependencies =
      (linkEntry r surroundings entry.plain).action.dependencies := by
  obtain ⟨-, sites, -, -, hplain, htwice⟩ :=
    renderedSql_of_modeless (r := r) hignores h
  let declared :=
    (declaredSites r entry.action.target entry.pending.dependencies).1
  let demanded := fun sites => demandedTargets r entry.action.target
    entry.pending.dependOnDependencyAssertions (Demands.ofSites sites)
  -- The second rendering refers to no target and demands nothing that the first
  -- one did not.
  have hagain : sites ⊆ declared ++ sites :=
    List.subset_append_right declared sites
  calc
    (linkEntry r surroundings entry).action.dependencies =
      Target.distinct (entry.action.dependencies ++
        ((declared ++ (sites ++ sites)).map (·.target) ++
          demanded (declared ++ (sites ++ sites)))) := by
      rw [← htwice]
      rfl
    _ = Target.distinct (entry.action.dependencies ++ ((declared ++ sites).map
        (·.target) ++ demanded (declared ++ sites))) := by
      have hdemanded : demanded (declared ++ (sites ++ sites)) =
          demanded (declared ++ sites) := by
        simp only [demanded, ← List.append_assoc,
          Demands.ofSites_append_of_subset hagain]
      have htargets : sites.map (·.target) ⊆
          entry.action.dependencies ++ (declared ++ sites).map (·.target) :=
        fun target htarget =>
          List.mem_append_right _ (List.map_subset _ hagain htarget)
      rw [hdemanded, ← List.append_assoc declared, List.map_append,
        ← List.append_assoc, ← List.append_assoc,
        Target.distinct_append_of_subset htargets, List.append_assoc]
    _ = (linkEntry r surroundings entry.plain).action.dependencies := by
      rw [← hplain]
      rfl

/-- A template that does not ask for the mode is rendered to the same text, with
the same references and the same errors, in both modes. So an incremental table
that has no query of its own and does not ask for the mode is extended by what
builds it, which is what builds the plain table, and depends on what that table
depends on. -/
theorem modes_alike {surroundings : Surroundings}
    (hignores : Script.IgnoresMode surroundings.evaluator) :
    (∀ scope : Scope, scope.surroundings = surroundings →
      ∀ template, ¬ AsksMode template →
      let extending := Scope.render { scope with incremental := true } template
      let building := Scope.render { scope with incremental := false } template
      extending.value = building.value ∧
        extending.notes.sites = building.notes.sites ∧
        extending.notes.faults = building.notes.faults) ∧
    ∀ (r : Registry) (place : Nat) (entry : Registry.Entry)
      (table : Action.Table) (query : String) (preOps postOps : List String),
      r.entries[place]? = some entry →
        Modeless entry table query preOps postOps →
        ∃ (compiled plain : Action) (built : IncrementalSql),
          (linked r surroundings).action? place = some compiled ∧
            (linked (r.plainAt place) surroundings).action? place = some plain ∧
            compiled.body = .table { table with
              query := built.query
              preOps := built.preOps
              postOps := built.postOps
              incrementalQuery := some built.query
              incrementalPreOps := built.preOps
              incrementalPostOps := built.postOps } ∧
            plain.body = .table { table with
              type := .table
              query := built.query
              preOps := built.preOps
              postOps := built.postOps } ∧
            compiled.dependencies = plain.dependencies := by
  constructor
  · rintro scope rfl template hsilent
    have hlike := scope.like_render_modes hignores hsilent true false
    exact ⟨hlike.value, hlike.sites, List.forall₂_eq_eq_eq ▸ hlike.faults⟩
  · intro r place entry table query preOps postOps hentry h
    obtain ⟨built, -, hplain, hcompiled, -, -⟩ :=
      renderedSql_of_modeless (r := r) hignores h
    have hentryPlain : (r.plainAt place).entries[place]? =
        some entry.plain := by
      rw [Registry.plainAt, List.getElem?_modify, hentry]
      exact congrArg some (if_pos rfl)
    refine ⟨(linkEntry r surroundings entry).action,
      (linkEntry r surroundings entry.plain).action, built, ?_, ?_, ?_, ?_,
      dependencies_linkEntry_plain hignores h⟩
    · rw [action?_linked, hentry, Option.map_some]
    · rw [action?_linked, hentryPlain, Option.map_some, linkEntry_plainAt]
    · change (renderedSql r surroundings entry).value.applyTo
        entry.action.body = _
      rw [hcompiled, h.body]
      rfl
    · change (renderedSql r surroundings entry.plain).value.applyTo
        entry.action.body.plain = _
      rw [hplain, h.body]
      rfl

def tableOf (name : String) (type : Action.TableType) : Action :=
  ⟨⟨none, some "shop", name⟩, ⟨none, some "shop", name⟩,
    "definitions/" ++ name ++ ".sqlx", false, [], [], false, none, [],
    .table ⟨type, "", none, [], [], [], [], [], none, false, false, none⟩⟩

/-- Orders, and an incremental ledger that is filled from them. -/
def ledger : Registry :=
  let pending : Registry.Pending :=
    { dependencies := []
      dependOnDependencyAssertions := false
      templates := .table "SELECT * FROM $\x7bref(\"orders\")\x7d" none [] []
      interpolate := true
      script := none }
  (Registry.empty.register (tableOf "orders" .table) .nothing).register
    (tableOf "ledger" .incremental) pending

theorem eq_of_holdsNative_ledger {e : Expr}
    (h : HoldsNative "SELECT * FROM $\x7bref(\"orders\")\x7d" e) :
    e = .call (.ident "ref") [.string "orders"] := by
  have hsegments : Template.segments "SELECT * FROM $\x7bref(\"orders\")\x7d" =
      .ok [.text "SELECT * FROM ", .placeholder "ref(\"orders\")"] := by
    decide +kernel
  have hname : Expr.WritesTerm (Expr.Written 255) (.ident "ref") "ref".toList :=
    .ident (.word (by decide) (List.all_eq_true.1 (by decide)) rfl) (by decide)
  have hargument : Expr.Written 255 (.string "orders") "\"orders\"".toList :=
    .term (.string (.quoted '"' (.inr rfl)))
  have hcall : Expr.Written 256 (.call (.ident "ref") [.string "orders"])
      "ref(\"orders\")".toList :=
    .term (.call hname .nil (.last .nil hargument .nil))
  have hparse : Expr.parse "ref(\"orders\")" =
      .ok (.call (.ident "ref") [.string "orders"]) :=
    Expr.parse_of_source (.text .nil hcall .nil)
  obtain ⟨segments, source, hok, hmem, he, -⟩ := h
  obtain rfl := Except.ok.inj (hsegments.symm.trans hok)
  obtain rfl : source = "ref(\"orders\")" := by simpa using hmem
  exact (Except.ok.inj (hparse.symm.trans he)).symm

theorem not_asksMode_ledger :
    ¬ AsksMode "SELECT * FROM $\x7bref(\"orders\")\x7d" := by
  have hparts : ∀ part, Part part (.call (.ident "ref") [.string "orders"]) →
      part ∈ [.call (.ident "ref") [.string "orders"], .ident "ref",
        .string "orders"] := by
    intro part hpart
    cases hpart with
    | self => simp
    | callee _ hpart =>
      cases hpart
      simp
    | argument _ hmem hpart =>
      obtain rfl := List.mem_singleton.1 hmem
      cases hpart
      simp
  rintro ⟨callee, -, hstands⟩
  cases hstands with
  | placeholder h hpart =>
    obtain rfl := eq_of_holdsNative_ledger h
    simpa using hparts _ hpart
  | inside h hinside =>
    obtain rfl := eq_of_holdsNative_ledger h
    simpa using hparts _ hinside

theorem modes_alike_ledger :
    ∃ compiled plain : Action,
      (linked ledger ⟨.empty, Script.noRuntime, []⟩).action? 1 = some compiled ∧
        (linked (ledger.plainAt 1) ⟨.empty, Script.noRuntime, []⟩).action? 1 =
          some plain ∧
        compiled.dependencies = plain.dependencies ∧
        plain.dependencies = [⟨none, some "shop", "orders"⟩] := by
  have hignores : Script.IgnoresMode Script.noRuntime := fun _ _ => rfl
  have hmodeless : Modeless ledger.entries[1]
      ⟨.incremental, "", none, [], [], [], [], [], none, false, false, none⟩
      "SELECT * FROM $\x7bref(\"orders\")\x7d" [] [] :=
    ⟨rfl, rfl, rfl, fun _ => List.forall_mem_singleton.2 not_asksMode_ledger⟩
  obtain ⟨compiled, plain, built, hcompiled, hplain, -, -, hdependencies⟩ :=
    (@modes_alike ⟨.empty, Script.noRuntime, []⟩ hignores).2 ledger 1
      _ _ _ _ _ rfl hmodeless
  refine ⟨compiled, plain, hcompiled, hplain, hdependencies, ?_⟩
  have hevaluated :
      ((linked (ledger.plainAt 1) ⟨.empty, Script.noRuntime, []⟩).action? 1).map
        (·.dependencies) =
        some [⟨none, some "shop", "orders"⟩] := by
    decide +kernel
  rw [hplain] at hevaluated
  exact Option.some.inj hevaluated

end Link

end SqlWorkflow
