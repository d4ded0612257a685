import SqlWorkflow.Proofs.Link.Modes
import SqlWorkflow.Proofs.Link.Verbatim

/-!
# Values without a script runtime

Whether an expression has a value here is decided before it is evaluated, by a
test of its own. The test never lets an expression through that evaluation has
no answer for: evaluation gives the same value whatever stands in for the
missing ones, and of all that it comes upon no call is unknown or has arguments
that it cannot read, and no path names anything but a setting. The other way
round, every pure literal passes the test, and its value is the one that it
denotes.
-/

namespace SqlWorkflow

theorem Expr.mentionsPlaceholder_iff {text : List Char} :
    mentionsPlaceholder text = true ↔ ['$', '{'] <:+: text := by
  fun_induction mentionsPlaceholder text with
  | case1 rest => exact iff_of_true rfl ⟨[], rest, rfl⟩
  | case2 c rest hopening ih =>
    rw [ih, List.infix_cons_iff]
    refine ⟨Or.inr, fun h => h.resolve_left ?_⟩
    rintro ⟨after, hprefix⟩
    obtain ⟨rfl, rfl⟩ := List.cons.inj hprefix
    exact hopening after rfl rfl
  | case3 => exact iff_of_false nofun (by simp)

namespace Link

/-! ## Pure literals -/

namespace Scope

variable (scope : Scope)

/-- A template inside an expression in which no placeholder opens is its own
text, with the escapes resolved. -/
theorem inner_of_plain {raw : String} (h : ¬ ['$', '{'] <:+: raw.toList) :
    scope.inner raw = .plain (Expr.unescape raw) := by
  have hsegments := Template.segments_of_literal (Template.literal?_of_plain h)
  rw [inner_eq, expandWith, hsegments]
  cases hraw : raw.toList with
  | nil =>
    obtain rfl := String.toList_eq_nil_iff.1 hraw
    have hempty : Expr.unescape "" = "" := by
      rw [Expr.unescape, String.toList_empty, Expr.unescapeChars]
    rw [hempty]
    rfl
  | cons c cs =>
    have hflush : Template.flush (c :: cs).reverse [] = [.text raw] := by
      rw [Template.flush, List.reverse_reverse, if_neg (by simp), ← hraw,
        String.ofList_toList]
    rw [hflush]
    change Rendered.plain (String.join [Expr.unescape raw]) = _
    simp [String.join]

end Scope

/-- An expression needs no script runtime and has a value in every scope,
whatever its registry, its settings and its mode. Nothing is noted on the
way. -/
def Denotes (e : Expr) (value : Json) : Prop :=
  isNative e = true ∧ ∀ scope : Scope, scope.eval scope.inner e = .plain value

theorem denotes_array {items : List Expr}
    (h : ∀ e ∈ items, ∀ value, e.toJson? = some value → Denotes e value)
    {values : List Json} (hvalues : Expr.listToJson? items = some values) :
    Denotes (.array items) (.array values) := by
  suffices hlist : allNative items = true ∧
      ∀ scope : Scope, scope.evalList scope.inner items = .plain values by
    refine ⟨by rw [isNative]; exact hlist.1, fun scope => ?_⟩
    rw [Scope.eval, hlist.2 scope]
    rfl
  induction items generalizing values with
  | nil =>
    cases hvalues
    exact ⟨by rw [allNative], fun scope => by rw [Scope.evalList]⟩
  | cons e items ih =>
    rw [Expr.listToJson?] at hvalues
    split at hvalues
    · rename_i value rest hvalue hrest
      cases hvalues
      obtain ⟨hfirst, hothers⟩ := List.forall_mem_cons.1 h
      obtain ⟨hnative, heval⟩ := hfirst value hvalue
      obtain ⟨hall, hevals⟩ := ih hothers hrest
      refine ⟨by rw [allNative, hnative, hall]; rfl, fun scope => ?_⟩
      rw [Scope.evalList, heval, hevals]
      rfl
    · cases hvalues

theorem denotes_object {entries : List (String × Expr)}
    (h : ∀ entry ∈ entries, ∀ value, entry.2.toJson? = some value →
      Denotes entry.2 value) {pairs : List (String × Json)}
    (hpairs : Expr.entriesToJson? entries = some pairs) :
    Denotes (.object entries) (.object (Json.Members.ofList pairs)) := by
  suffices hlist : entriesNative entries = true ∧
      ∀ scope : Scope, scope.evalEntries scope.inner entries = .plain pairs by
    refine ⟨by rw [isNative]; exact hlist.1, fun scope => ?_⟩
    rw [Scope.eval, hlist.2 scope]
    rfl
  induction entries generalizing pairs with
  | nil =>
    cases hpairs
    exact ⟨by rw [entriesNative], fun scope => by rw [Scope.evalEntries]⟩
  | cons entry entries ih =>
    obtain ⟨key, e⟩ := entry
    rw [Expr.entriesToJson?] at hpairs
    split at hpairs
    · rename_i value rest hvalue hrest
      cases hpairs
      obtain ⟨hfirst, hothers⟩ := List.forall_mem_cons.1 h
      obtain ⟨hnative, heval⟩ := hfirst value hvalue
      obtain ⟨hall, hevals⟩ := ih hothers hrest
      refine ⟨by rw [entriesNative, hnative, hall]; rfl, fun scope => ?_⟩
      rw [Scope.evalEntries, heval, hevals]
      rfl
    · cases hpairs

/-- A pure literal has the value that it denotes. -/
theorem denotes_of_toJson? {e : Expr} {value : Json}
    (h : e.toJson? = some value) : Denotes e value := by
  induction e using Expr.induction generalizing value with
  | null | bool | number | string =>
    rw [Expr.toJson?] at h
    cases h
    exact ⟨by rw [isNative], fun scope => by rw [Scope.eval]⟩
  | template raw =>
    rw [Expr.toJson?] at h
    split at h
    · cases h
    · rename_i hplain
      cases h
      refine ⟨by rw [isNative], fun scope => ?_⟩
      rw [Scope.eval,
        scope.inner_of_plain (mt Expr.mentionsPlaceholder_iff.2 hplain)]
      rfl
  | array items ih =>
    rw [Expr.toJson?] at h
    obtain ⟨values, hvalues, rfl⟩ := Option.map_eq_some_iff.1 h
    exact denotes_array (fun e he _ => ih e he) hvalues
  | object entries ih =>
    rw [Expr.toJson?] at h
    obtain ⟨pairs, hpairs, rfl⟩ := Option.map_eq_some_iff.1 h
    exact denotes_object (fun entry hentry _ => ih entry hentry) hpairs
  | ident | member | call =>
    rw [Expr.toJson?] at h
    cases h

/-! ## Calls and paths with an answer -/

/-- A call or a path for which evaluation has an answer. Only a conditional
evaluates its arguments; those of a reference are read as literals, and all
other functions take none. -/
inductive Answered : Expr → Prop
  | reference {callee : Expr} {arguments : List Expr} {reference : Reference}
      (hcallee : Builtin.of? callee = some .ref ∨
        Builtin.of? callee = some .resolve)
      (hreference : referenceOf? arguments = some reference) :
      Answered (.call callee arguments)
  | conditional {callee : Expr} {arguments : List Expr}
      (hcallee : Builtin.of? callee = some .when)
      (hlength : arguments.length = 2 ∨ arguments.length = 3) :
      Answered (.call callee arguments)
  | own {callee : Expr} (hcallee : ∃ builtin ∈
      [Builtin.self, .name, .schema, .database, .incremental],
      Builtin.of? callee = some builtin) : Answered (.call callee [])
  | setting {path : Expr} {setting : Setting}
      (hsetting : Setting.of? path = some setting) : Answered path

/-- An expression that is a call or a path. -/
def IsLookup : Expr → Bool
  | .call _ _ | .ident _ | .member _ _ => true
  | _ => false

/-- A conditional that passes the test has two arguments or three. -/
theorem length_of_isNative_when {callee : Expr} {arguments : List Expr}
    (hcallee : Builtin.of? callee = some .when)
    (h : isNative (.call callee arguments) = true) :
    arguments.length = 2 ∨ arguments.length = 3 := by
  rw [isNative, hcallee] at h
  simp only [Builtin.accepts, Bool.and_eq_true, Bool.or_eq_true,
    beq_iff_eq] at h
  exact h.1

theorem answered_of_isNative {e : Expr} (hlookup : IsLookup e = true)
    (h : isNative e = true) : Answered e := by
  cases e with
  | null | bool | number | string | template | array | object => cases hlookup
  | ident | member =>
    rw [isNative] at h
    obtain ⟨setting, hsetting⟩ := Option.isSome_iff_exists.1 h
    exact .setting hsetting
  | call callee arguments =>
    cases hbuiltin : Builtin.of? callee with
    | none =>
      rw [isNative, hbuiltin] at h
      cases h
    | some builtin =>
      cases builtin with
      | when => exact .conditional hbuiltin (length_of_isNative_when hbuiltin h)
      | ref =>
        rw [isNative, hbuiltin] at h
        obtain ⟨reference, hreference⟩ := Option.isSome_iff_exists.1 h
        exact .reference (.inl hbuiltin) hreference
      | resolve =>
        rw [isNative, hbuiltin] at h
        obtain ⟨reference, hreference⟩ := Option.isSome_iff_exists.1 h
        exact .reference (.inr hbuiltin) hreference
      | self | name | schema | database | incremental =>
        rw [isNative, hbuiltin] at h
        obtain rfl := List.isEmpty_iff.1 h
        exact .own ⟨_, by decide, hbuiltin⟩

/-! ## Evaluation without values that stand in -/

namespace Scope

variable (scope : Scope)

mutual

/-- Evaluation, with `fallback` wherever there is no value: for calls of unknown
functions, for references that cannot be read, for conditionals without two or
three arguments, and for paths that name no setting. -/
def evalOr (fallback : Rendered Json)
    (expand : String → Rendered String) : Expr → Rendered Json
  | .null => .plain .null
  | .bool b => .plain (.bool b)
  | .number n => .plain (.number n)
  | .string s => .plain (.string s)
  | .template raw => (expand raw).map .string
  | .array items => (evalListOr fallback expand items).map .array
  | .object entries =>
    (evalEntriesOr fallback expand entries).map fun pairs =>
      .object (Json.Members.ofList pairs)
  | .call callee arguments =>
    match Builtin.of? callee with
    | some .ref =>
      ((referenceOf? arguments).map (scope.resolve · true)).getD fallback
    | some .resolve =>
      ((referenceOf? arguments).map (scope.resolve · false)).getD fallback
    | some .self => .plain (scope.address scope.selfTarget)
    | some .name => .plain (.string scope.selfTarget.name)
    | some .schema => .plain (.string (scope.selfTarget.schema.getD ""))
    | some .database => .plain (.string (scope.selfTarget.database.getD ""))
    | some .incremental => .plain (.bool scope.incremental)
    | some .when => evalWhenOr fallback expand arguments
    | none => fallback
  | .ident name =>
    ((Setting.of? (.ident name)).map fun setting =>
      .plain (scope.settingValue setting)).getD fallback
  | .member base property =>
    ((Setting.of? (.member base property)).map fun setting =>
      .plain (scope.settingValue setting)).getD fallback

def evalWhenOr (fallback : Rendered Json)
    (expand : String → Rendered String) : List Expr → Rendered Json
  | [condition, yes] =>
    (evalOr fallback expand condition).andThen fun value =>
      if truthy value then evalOr fallback expand yes else .plain (.string "")
  | [condition, yes, no] =>
    (evalOr fallback expand condition).andThen fun value =>
      if truthy value then evalOr fallback expand yes
      else evalOr fallback expand no
  | _ => fallback

def evalListOr (fallback : Rendered Json) (expand : String → Rendered String) :
    List Expr → Rendered (List Json)
  | [] => .plain []
  | e :: es =>
    (evalOr fallback expand e).andThen fun v =>
      (evalListOr fallback expand es).map (v :: ·)

def evalEntriesOr (fallback : Rendered Json)
    (expand : String → Rendered String) :
    List (String × Expr) → Rendered (List (String × Json))
  | [] => .plain []
  | (key, e) :: es =>
    (evalOr fallback expand e).andThen fun v =>
      (evalEntriesOr fallback expand es).map ((key, v) :: ·)

end

variable {scope} {fallback : Rendered Json} {expand : String → Rendered String}

theorem evalListOr_eq {items : List Expr}
    (h : ∀ e ∈ items, scope.evalOr fallback expand e = scope.eval expand e) :
    scope.evalListOr fallback expand items = scope.evalList expand items := by
  induction items with
  | nil => rw [evalListOr, evalList]
  | cons e items ih =>
    obtain ⟨hfirst, hrest⟩ := List.forall_mem_cons.1 h
    rw [evalListOr, evalList, hfirst, ih hrest]

theorem evalEntriesOr_eq {entries : List (String × Expr)}
    (h : ∀ entry ∈ entries, scope.evalOr fallback expand entry.2 =
      scope.eval expand entry.2) :
    scope.evalEntriesOr fallback expand entries =
      scope.evalEntries expand entries := by
  induction entries with
  | nil => rw [evalEntriesOr, evalEntries]
  | cons entry entries ih =>
    obtain ⟨hfirst, hrest⟩ := List.forall_mem_cons.1 h
    rw [evalEntriesOr, evalEntries, hfirst, ih hrest]

theorem evalWhenOr_eq {arguments : List Expr}
    (hlength : arguments.length = 2 ∨ arguments.length = 3)
    (h :
      ∀ e ∈ arguments, scope.evalOr fallback expand e = scope.eval expand e) :
    scope.evalWhenOr fallback expand arguments =
      scope.evalWhen expand arguments := by
  rcases hlength with hlength | hlength
  · obtain ⟨condition, yes, rfl⟩ := List.length_eq_two.1 hlength
    rw [evalWhenOr, evalWhen, h condition (by simp), h yes (by simp)]
    simp only [evalBranch]
  · obtain ⟨condition, yes, no, rfl⟩ := List.length_eq_three.1 hlength
    rw [evalWhenOr, evalWhen, h condition (by simp), h yes (by simp),
      h no (by simp)]
    simp only [evalBranch]

end Scope

/-- What stands in for missing values makes no difference to an expression that
passes the test. -/
theorem Scope.evalOr_eq {scope : Scope} {e : Expr} (h : isNative e = true)
    (fallback : Rendered Json) (expand : String → Rendered String) :
    scope.evalOr fallback expand e = scope.eval expand e := by
  induction e using Expr.induction with
  | null | bool | number | string | template => rw [evalOr, eval]
  | array items ih =>
    rw [isNative] at h
    rw [evalOr, eval,
      evalListOr_eq fun e he => ih e he (isNative_of_mem h e he)]
  | object entries ih =>
    rw [isNative] at h
    rw [evalOr, eval, evalEntriesOr_eq fun entry hentry =>
      ih entry hentry (isNative_of_mem_entries h entry hentry)]
  | ident | member =>
    cases answered_of_isNative rfl h with
    | setting hsetting =>
      rw [evalOr, eval, hsetting]
      rfl
  | call callee arguments _ ih =>
    rw [evalOr, eval]
    cases answered_of_isNative rfl h with
    | reference hcallee hreference =>
      rcases hcallee with hcallee | hcallee
      all_goals
        rw [hcallee]
        dsimp only
        rw [resolveArguments, hreference]
        rfl
    | conditional hcallee hlength =>
      rw [hcallee]
      exact evalWhenOr_eq hlength fun e he =>
        ih e he (isNative_of_mem_when hcallee h e he)
    | own hcallee =>
      obtain ⟨builtin, hown, hcallee⟩ := hcallee
      rw [hcallee]
      cases builtin with
      | ref | resolve | when => exact absurd hown (by decide)
      | self | name | schema | database | incremental => rfl
    | setting hsetting => cases hsetting

/-- A pure literal passes the test for expressions without a script runtime, and
has the value that it denotes in every scope, with nothing noted. Of an
expression that passes the test, all that evaluation may come upon, also inside
templates, has an answer, and evaluation never needs a value to stand in for one
that is missing. -/
theorem native_evaluation :
    (∀ (e : Expr) (value : Json), e.toJson? = some value → isNative e = true ∧
      ∀ scope : Scope, scope.eval scope.inner e = .plain value) ∧
      ∀ e : Expr, isNative e = true →
        (∀ part, Reached part e →
          isNative part = true ∧ (IsLookup part = true → Answered part)) ∧
          ∀ scope : Scope, (∀ fallback expand, scope.evalOr fallback expand e =
            scope.eval expand e) ∧
            ∀ part, scope.Evaluated part e → Reached part e := by
  refine ⟨fun e value h => denotes_of_toJson? h,
    fun e h => ⟨fun part hpart => ?_, fun scope => ?_⟩⟩
  · have hnative := hpart.isNative h
    exact ⟨hnative, fun hlookup => answered_of_isNative hlookup hnative⟩
  · exact ⟨Scope.evalOr_eq h, fun part hpart => hpart.reached⟩

/-- An object with a key that stands in it twice, and with an escape in a
template. -/
def noted : Expr :=
  .object [("note", .string "draft"), ("rows", .array [.null, .bool true]),
    ("note", .template "a\\tb")]

/-- A reference that is rendered in incremental mode only. -/
def increment : Expr :=
  .call (.ident "when") [.call (.ident "incremental") [],
    .call (.ident "ref") [.string "orders"]]

theorem native_evaluation_increment :
    (∀ scope : Scope, scope.eval scope.inner noted =
      .plain (.object [("note", .string "a\tb"),
        ("rows", .array [.null, .bool true])])) ∧
      isNative increment = true ∧
      Answered (.call (.ident "ref") [.string "orders"]) ∧
      ∀ (scope : Scope) fallback expand,
        scope.evalOr fallback expand increment =
          scope.eval expand increment := by
  have hescape : Expr.unescape "a\\tb" = "a\tb" := by decide +kernel
  have hnoted : noted.toJson? =
      some (.object [("note", .string "a\tb"),
        ("rows", .array [.null, .bool true])]) := by
    rw [noted, Expr.toJson?]
    change some (Json.object (Json.Members.ofList [_, _,
      ("note", .string (Expr.unescape "a\\tb"))])) = _
    rw [hescape]
    rfl
  have hnative : isNative increment = true := by
    decide +kernel
  have hreached : Reached (.call (.ident "ref") [.string "orders"]) increment :=
    .argument rfl (List.mem_cons_of_mem _ List.mem_cons_self) .self
  refine ⟨(native_evaluation.1 noted _ hnoted).2, hnative, ?_, ?_⟩
  · exact ((native_evaluation.2 increment hnative).1 _ hreached).2 rfl
  · exact fun scope => ((native_evaluation.2 increment hnative).2 scope).1

end Link

end SqlWorkflow
