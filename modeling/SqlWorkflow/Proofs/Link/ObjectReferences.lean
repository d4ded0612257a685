import SqlWorkflow.Proofs.Action.Acceptance
import SqlWorkflow.Proofs.Action.NestedRecords
import SqlWorkflow.Proofs.Link.Dependencies
import SqlWorkflow.Proofs.Link.Evaluated

/-!
# References written as objects

An object may be a dependency in a config and the argument of a call. A config
reads it as a record, where each field may be set once and no other key may
occur; a call looks up the keys that it knows. An object that a config accepts
is the same reference for a call, so a declared dependency and a call that are
written with one object never disagree.
-/

namespace SqlWorkflow

namespace Link

open Json (Members)

/-! ## What an object tells -/

theorem firstString?_congr {members others : Members} {keys : List String}
    (h : ∀ key ∈ keys, members.get? key = others.get? key) :
    firstString? members keys = firstString? others keys := by
  induction keys with
  | nil => rfl
  | cons key keys ih =>
    obtain ⟨hkey, hkeys⟩ := List.forall_mem_cons.1 h
    rw [firstString?, firstString?, hkey, ih hkeys]

theorem get?_concat_of_ne {before : Members} {key other : String}
    (hne : key ≠ other) (value : Json) :
    Members.get? (before ++ [(key, value)]) other = before.get? other := by
  rw [Members.get?_append, Members.get?, if_neg hne]
  exact Option.or_none

theorem get?_concat_self {before : Members} {key : String}
    (habsent : before.get? key = none) (value : Json) :
    Members.get? (before ++ [(key, value)]) key = some value := by
  rw [Members.get?_append, habsent, Members.get?, if_pos rfl]
  rfl

/-- One more member says what its value says, if its key is among some keys of
which none was there. -/
theorem firstString?_concat {before : Members} {keys : List String}
    (habsent : ∀ other ∈ keys, before.get? other = none) (key : String)
    (value : Json) :
    firstString? (before ++ [(key, value)]) keys = if key ∈
      keys then value.string? else none := by
  induction keys with
  | nil => rfl
  | cons first keys ih =>
    obtain ⟨hfirst, hrest⟩ := List.forall_mem_cons.1 habsent
    rw [firstString?, ih hrest]
    by_cases heq : key = first
    · subst heq
      rw [get?_concat_self hfirst, Option.bind_some, if_pos List.mem_cons_self]
      cases value.string? with
      | some s => rfl
      | none => exact ite_self none
    · rw [get?_concat_of_ne heq, hfirst, Option.bind_none]
      simp only [List.mem_cons, heq, false_or]

/-- One more member changes nothing for other keys. -/
theorem firstString?_concat_of_not_mem {before : Members} {keys : List String}
    {key : String} (hkey : key ∉ keys) (value : Json) :
    firstString? (before ++ [(key, value)]) keys =
      firstString? before keys := by
  apply firstString?_congr
  intro other hother
  refine get?_concat_of_ne ?_ value
  rintro rfl
  exact hkey hother

end Link

namespace Json.Decode

theorem eq_string_of_string {value : Json} {s : String}
    (h : string value = .ok s) : value = .string s := by
  cases value with
  | string other =>
    cases h
    rfl
  | null | bool _ | number _ | array _ | object _ => cases h

theorem string?_of_option {value : Json} {read : Option String}
    (h : option string value = .ok read) : value.string? = read := by
  cases value <;> cases h <;> rfl

theorem bool?_of_option {value : Json} {read : Option Bool}
    (h : option bool value = .ok read) : value.bool? = read := by
  cases value <;> cases h <;> rfl

end Json.Decode

namespace Action

open Json (Members)
open Link (firstString? firstString?_concat firstString?_concat_of_not_mem
  get?_concat_of_ne get?_concat_self)

/-- What the members of an object tell of a reference. -/
def WrittenReference.told (members : Members) : WrittenReference where
  name := firstString? members ["name"]
  schema := firstString? members ["schema", "dataset"]
  database := firstString? members ["database", "project"]
  includeDependentAssertions :=
    (members.get? "includeDependentAssertions").bind Json.bool?

namespace WrittenReference

/-- The keys of a reference, each with the field that it sets. -/
inductive Sets : String → String → Prop
  | name : Sets "name" "name"
  | schema : Sets "schema" "schema"
  | dataset : Sets "dataset" "schema"
  | database : Sets "database" "database"
  | project : Sets "project" "database"
  | flag : Sets "includeDependentAssertions" "includeDependentAssertions"

theorem sets_of_fieldOf? {key field : String}
    (h : layout.fieldOf? key = some field) : Sets key field := by
  rw [Json.RecordSchema.fieldOf?] at h
  split at h
  · rename_i hmem
    obtain rfl := Option.some.inj h
    simp only [layout, List.mem_cons, List.not_mem_nil, or_false] at hmem
    rcases hmem with rfl | rfl | rfl | rfl
    · exact .name
    · exact .schema
    · exact .database
    · exact .flag
  · obtain ⟨former, latter, heq, -⟩ := List.lookup_eq_some_iff.1 h
    have hmem : (key, field) ∈ layout.aliases :=
      heq ▸ List.mem_append_right _ List.mem_cons_self
    simp only [layout, List.mem_cons, Prod.mk.injEq, List.not_mem_nil,
      or_false] at hmem
    rcases hmem with ⟨rfl, rfl⟩ | ⟨rfl, rfl⟩
    · exact .dataset
    · exact .project

/-- Each field is set to what its member tells. -/
theorem tellsNamed_layout : layout.TellsNamed told := by
  intro before key field value next hfield habsent hset
  cases sets_of_fieldOf? hfield with
  | name =>
    obtain ⟨s, hs, rfl⟩ := Text.exists_of_map_eq_ok
      (show (Json.Decode.string value).map _ = _ from hset)
    have hnone : ∀ other ∈ ["name"], before.get? other = none :=
      List.forall_mem_singleton.2 (habsent "name" rfl)
    have hname : firstString? (before ++ [("name", value)]) ["name"] =
        some s := by
      rw [firstString?_concat hnone, Json.Decode.eq_string_of_string hs]
      rfl
    simp (disch := decide)
      only [told, hname, firstString?_concat_of_not_mem, get?_concat_of_ne]
  | schema | dataset =>
    obtain ⟨read, hread, rfl⟩ := Text.exists_of_map_eq_ok
      (show (Json.Decode.option Json.Decode.string value).map _ = _ from hset)
    have hnone : ∀ other ∈ ["schema", "dataset"], before.get? other = none :=
      List.forall_mem_cons.2 ⟨habsent "schema" rfl,
        List.forall_mem_singleton.2 (habsent "dataset" rfl)⟩
    simp (disch := decide) only [told, firstString?_concat hnone,
      Json.Decode.string?_of_option hread, if_pos,
      firstString?_concat_of_not_mem, get?_concat_of_ne]
  | database | project =>
    obtain ⟨read, hread, rfl⟩ := Text.exists_of_map_eq_ok
      (show (Json.Decode.option Json.Decode.string value).map _ = _ from hset)
    have hnone : ∀ other ∈ ["database", "project"], before.get? other = none :=
      List.forall_mem_cons.2 ⟨habsent "database" rfl,
        List.forall_mem_singleton.2 (habsent "project" rfl)⟩
    simp (disch := decide) only [told, firstString?_concat hnone,
      Json.Decode.string?_of_option hread, if_pos,
      firstString?_concat_of_not_mem, get?_concat_of_ne]
  | flag =>
    obtain ⟨read, hread, rfl⟩ := Text.exists_of_map_eq_ok
      (show (Json.Decode.option Json.Decode.bool value).map _ = _ from hset)
    have hnone : before.get? "includeDependentAssertions" = none :=
      habsent "includeDependentAssertions" rfl
    simp (disch := decide)
      only [told, firstString?_concat_of_not_mem, get?_concat_self hnone,
        Option.bind_some, Json.Decode.bool?_of_option hread]

theorem told_of_decode {members : Members} {written : WrittenReference}
    (h : layout.decode (.object members) = .ok written) :
    written = told members := by
  have hempty : layout.empty = told [] := rfl
  change layout.readMembers [] layout.empty members = _ at h
  rw [hempty] at h
  exact tellsNamed_layout.eq_told rfl (fun _ _ _ _ => rfl) h

theorem told_perm {members others : Members} (hperm : members.Perm others)
    (hnodup : (members.map Prod.fst).Nodup) : told others = told members := by
  have hget (key : String) : others.get? key = members.get? key :=
    (Members.get?_perm hperm hnodup).symm
  have hfirst (keys : List String) : firstString? others keys =
      firstString? members keys :=
    Link.firstString?_congr fun key _ => hget key
  simp only [told, hfirst, hget]

end WrittenReference

/-- A reference that is not written as a name is read as a record. -/
theorem decode_of_reference {value : Json} {r : Reference}
    (hvalue : ∀ s, value ≠ .string s) (h : reference value = .ok r) :
    ∃ written, WrittenReference.layout.decode value = .ok written ∧
      written =
        ⟨some r.name, r.schema, r.database, r.includeDependentAssertions⟩ := by
  have hrecord : referenceRecord value = .ok r := by
    have hname : Json.Decode.string value =
        Json.Decode.wrongType value "a string" := by
      cases value with
      | string s => exact absurd rfl (hvalue s)
      | null | bool _ | number _ | array _ | object _ => rfl
    simp only [reference, Json.Decode.firstOf, hname, Json.Decode.wrongType,
      Except.map] at h
    split at h
    · rename_i hread
      exact hread.trans h
    · cases h
  rw [referenceRecord] at hrecord
  split at hrecord
  · cases hrecord
  · rename_i written hdecode
    refine ⟨written, hdecode, ?_⟩
    split at hrecord
    · rename_i name hname
      cases hrecord
      rw [← hname]
    · cases hrecord

/-- An object that is a reference in a config is the same reference for a call,
in whatever order its members come. -/
theorem referenceOfMembers?_of_reference {members others : Members}
    {r : Reference} (h : reference (.object members) = .ok r)
    (hperm : members.Perm others) :
    Link.referenceOfMembers? others = some r := by
  obtain ⟨written, hdecode, hwritten⟩ :=
    decode_of_reference (fun _ heq => by cases heq) h
  have hnodup := (Json.RecordSchema.nodup_keys_of_readMembers rfl hdecode).1
  have htold : WrittenReference.told others =
      ⟨some r.name, r.schema, r.database, r.includeDependentAssertions⟩ := by
    rw [WrittenReference.told_perm hperm hnodup,
      ← WrittenReference.told_of_decode hdecode, hwritten]
  obtain ⟨hname, hschema, hdatabase, hflag⟩ := WrittenReference.mk.inj htold
  rw [Link.referenceOfMembers?, hname, hschema, hdatabase, hflag]
  rfl

/-! ## Objects among the dependencies of a config -/

/-- The object that stands alone for the dependencies of a config, or at a place
of their list. -/
inductive StandsAt (object : Members) : Nat → Json → Prop
  | alone : StandsAt object 0 (.object object)
  | item {items : List Json} {place : Nat}
      (h : items[place]? = some (.object object)) :
      StandsAt object place (.array items)

/-- No array that holds an object is read as the parts of one reference. -/
theorem reference_array_ne_ok {items : List Json} {object : Members}
    (hmem : .object object ∈ items)
    (r : Reference) : reference (.array items) ≠ .ok r := by
  intro h
  obtain ⟨written, hdecode, -⟩ :=
    decode_of_reference (fun _ heq => by cases heq) h
  have hlength := Json.RecordSchema.length_le_of_decode_array hdecode
  rw [Json.RecordSchema.decode_array_eq_object (by decide) hlength] at hdecode
  have hsnd : (WrittenReference.layout.fields.zip items).map Prod.snd = items :=
    List.map_snd_zip hlength
  rw [← hsnd] at hmem
  obtain ⟨⟨key, _⟩, hmember, rfl⟩ := List.mem_map.1 hmem
  rcases Json.RecordSchema.exists_set_of_mem hdecode hmember with
    ⟨-, hlax⟩ | ⟨field, before, next, hfield, hset⟩
  · cases hlax
  · have hsets : WrittenReference.Sets key field :=
      WrittenReference.sets_of_fieldOf? hfield
    -- No field of a reference is set by an object.
    cases hsets <;> cases hset

theorem getElem?_of_items {α : Type} {decoder : Json.Decoder α}
    {items : List Json} {read : List α}
    (h : Json.Decode.items decoder items = .ok read) {place : Nat} {item : Json}
    (hitem : items[place]? = some item) :
    ∃ a, read[place]? = some a ∧ decoder item = .ok a := by
  induction items generalizing read place with
  | nil => cases hitem
  | cons first rest ih =>
    rw [Json.Decode.items] at h
    split at h
    · cases h
    · rename_i a hfirst
      obtain ⟨others, hrest, rfl⟩ := Text.exists_of_map_eq_ok h
      cases place with
      | zero =>
        cases hitem
        exact ⟨a, rfl, hfirst⟩
      | succ place => exact ih hrest hitem

theorem exists_reference_of_standsAt {object : Members} {place : Nat}
    {value : Json} {read : Option (List Reference)}
    (hstands : StandsAt object place value)
    (h :
      Json.Decode.option (Json.Decode.oneOrMany reference) value = .ok read) :
    ∃ r, (read.getD [])[place]? = some r ∧
      reference (.object object) = .ok r := by
  cases hstands with
  | alone =>
    change (Json.Decode.oneOrMany reference (.object object)).map some =
      .ok read at h
    obtain ⟨several, hseveral, rfl⟩ := Text.exists_of_map_eq_ok h
    cases hone : reference (.object object) with
    | ok r =>
      simp only [Json.Decode.oneOrMany, Json.Decode.firstOf, hone,
        Except.map] at hseveral
      cases hseveral
      exact ⟨r, rfl, rfl⟩
    | error e =>
      simp only [Json.Decode.oneOrMany, Json.Decode.firstOf, hone,
        Except.map] at hseveral
      cases hseveral
  | @item items _ hitem =>
    change (Json.Decode.oneOrMany reference (.array items)).map some =
      .ok read at h
    obtain ⟨several, hseveral, rfl⟩ := Text.exists_of_map_eq_ok h
    cases hone : reference (.array items) with
    | ok r =>
      exact absurd hone (reference_array_ne_ok (List.mem_of_getElem? hitem) r)
    | error e =>
      simp only [Json.Decode.oneOrMany, Json.Decode.firstOf, hone,
        Except.map] at hseveral
      split at hseveral
      · rename_i hmany
        exact getElem?_of_items (hmany.trans hseveral) hitem
      · cases hseveral

/-- The reference that is read for an object among the dependencies of a config
that is accepted. -/
theorem exists_reference_of_normalize {members object : Members} {kind : Kind}
    {source : Source} {file : String} {config : Config}
    (hread : normalize (.object members) kind source file = .ok config)
    {key : String} (hkey : key ∈ dependencyKeys) {value : Json}
    (hmem : (key, value) ∈ members) {place : Nat}
    (hstands : StandsAt object place value) :
    ∃ r, config.dependencies[place]? = some r ∧
      reference (.object object) = .ok r := by
  obtain ⟨written, ⟨_, ⟨rfl⟩, -, hwritten, -⟩, hconfig⟩ :=
    normalize_eq_ok_iff.1 hread
  have hkeeps : WrittenConfig.layout.Keeps "dependencies" (·.dependencies) :=
    WrittenConfig.keeps_of_taking fun _ _ _ => rfl
  obtain ⟨before, next, hset, hpart⟩ :=
    hkeeps.exists_set_of_mem hwritten hmem (fieldOf?_eq_dependencies_iff.2 hkey)
  change (Json.Decode.option (Json.Decode.oneOrMany reference) value).map _ =
    _ at hset
  obtain ⟨read, hdependencies, rfl⟩ := Text.exists_of_map_eq_ok hset
  have hconfig' : config.dependencies = read.getD [] := by
    rw [← hconfig]
    exact congrArg (·.getD []) hpart
  rw [hconfig']
  exact exists_reference_of_standsAt hstands hdependencies

end Action

namespace Link

open Json (Members)
open SqlWorkflow.Action (StandsAt dependencyKeys normalize)

/-! ## Calls with an object -/

/-- The callee is `ref` if the place of the call depends on the target, and
`resolve` if it does not. -/
def Refers (callee : Expr) (depends : Bool) : Prop :=
  Builtin.of? callee = some (if depends then .ref else .resolve)

/-- A reference that is declared is the one that calls with an expression have:
such a call is evaluated without a script runtime, it looks up the reference,
and where it depends on the target, its place is that of the declared
dependency. The two do not contradict each other, and the call adds nothing to
what any places say among which the declared one is. -/
structure ReadAlike (r : Reference) (e : Expr) : Prop where
  reference : referenceOf? [e] = some r
  native : ∀ callee depends, Refers callee depends → isNative (.call callee [e])
  value : ∀ callee depends, Refers callee depends →
    ∀ (scope : Scope) (expand : String → Rendered String),
      scope.eval expand (.call callee [e]) = scope.resolve r depends
  sites : ∀ callee, Refers callee true →
    ∀ (scope : Scope) (expand : String → Rendered String) (self : Target),
      (scope.eval expand (.call callee [e])).notes.sites =
        (declaredSites scope.registry self [r]).1
  agreed : ∀ callee, Refers callee true →
    ∀ (scope : Scope) (expand : String → Rendered String) (self : Target),
      conflicts (Demands.ofSites ((declaredSites scope.registry self [r]).1 ++
        (scope.eval expand (.call callee [e])).notes.sites)) = []
  merged : ∀ callee, Refers callee true →
    ∀ (scope : Scope) (expand : String → Rendered String) (self : Target)
      (places : List Site), (declaredSites scope.registry self [r]).1 ⊆ places →
        Demands.ofSites
          (places ++ (scope.eval expand (.call callee [e])).notes.sites) =
          Demands.ofSites places

theorem sites_resolve (scope : Scope) (self : Target) (r : Reference) :
    (scope.resolve r true).notes.sites =
      (declaredSites scope.registry self [r]).1 := by
  rw [Scope.resolve, declaredSites, declaredSites]
  cases scope.registry.find r <;> rfl

theorem conflicts_declaredSites_singleton (registry : Registry) (self : Target)
    (r : Reference) :
    conflicts (Demands.ofSites (declaredSites registry self [r]).1) = [] := by
  rw [declaredSites, declaredSites]
  cases registry.find r with
  | found place target => cases r.includeDependentAssertions <;> rfl
  | missing | ambiguous => rfl

theorem readAlike_of_referenceOf? {r : Reference} {e : Expr}
    (h : referenceOf? [e] = some r) : ReadAlike r e := by
  have hvalue : ∀ callee depends, Refers callee depends →
      ∀ (scope : Scope) (expand : String → Rendered String),
        scope.eval expand (.call callee [e]) = scope.resolve r depends := by
    intro callee depends hcallee scope expand
    rw [Scope.eval, show Builtin.of? callee = _ from hcallee]
    cases depends <;> simp [Scope.resolveArguments, h]
  have hsites : ∀ callee, Refers callee true →
      ∀ (scope : Scope) (expand : String → Rendered String) (self : Target),
        (scope.eval expand (.call callee [e])).notes.sites =
          (declaredSites scope.registry self [r]).1 := by
    intro callee hcallee scope expand self
    rw [hvalue callee true hcallee, sites_resolve scope self]
  have hmerged : ∀ callee, Refers callee true → ∀ (scope : Scope)
      (expand : String → Rendered String) (self : Target) (places : List Site),
      (declaredSites scope.registry self [r]).1 ⊆ places →
        Demands.ofSites
          (places ++ (scope.eval expand (.call callee [e])).notes.sites) =
          Demands.ofSites places := by
    intro callee hcallee scope expand self places hdeclared
    rw [hsites callee hcallee scope expand self]
    exact Demands.ofSites_append_of_subset hdeclared
  refine ⟨h, ?_, hvalue, hsites, ?_, hmerged⟩
  · intro callee depends hcallee
    rw [isNative, show Builtin.of? callee = _ from hcallee]
    cases depends <;> simp [Builtin.accepts, h]
  · intro callee hcallee scope expand self
    rw [hmerged callee hcallee scope expand self _ (List.Subset.refl _)]
    exact conflicts_declaredSites_singleton scope.registry self r

/-- An object among the dependencies of a config that is accepted is the same
reference for a call, whatever the order in which the members are written
there. -/
theorem object_references_agree {members object : Members} {kind : Action.Kind}
    {source : Action.Source} {file : String} {config : Action.Config}
    (hread : normalize (.object members) kind source file = .ok config)
    {key : String} (hkey : key ∈ dependencyKeys) {value : Json}
    (hmem : (key, value) ∈ members) {place : Nat}
    (hstands : StandsAt object place value) :
    ∃ r, config.dependencies[place]? = some r ∧
      ∀ (e : Expr) (others : Members), e.toJson? = some (.object others) →
        object.Perm others → ReadAlike r e := by
  obtain ⟨r, hplace, hreference⟩ :=
    Action.exists_reference_of_normalize hread hkey hmem hstands
  refine ⟨r, hplace, fun e others he hperm => ?_⟩
  apply readAlike_of_referenceOf?
  rw [referenceOf?, Expr.listToJson?, he, Expr.listToJson?]
  exact Action.referenceOfMembers?_of_reference hreference hperm

def usersObject : Members :=
  [("project", .string "shop"), ("dataset", .null), ("name", .string "users"),
    ("includeDependentAssertions", .bool true)]

/-- A view with two dependencies, of which the second is an object. -/
def dailyView : Members :=
  [("name", .string "daily"),
    ("dependencyTargets", .array [.string "raw.events", .object usersObject])]

theorem object_references_agree_daily :
    (normalize (.object dailyView) .view .block "definitions/daily.sqlx").map
      (·.dependencies) =
      .ok [⟨none, some "raw", "events", none⟩,
        ⟨some "shop", none, "users", some true⟩] ∧
      ReadAlike ⟨some "shop", none, "users", some true⟩
        (.object [("name", .string "users"), ("project", .string "shop"),
          ("dataset", .null), ("includeDependentAssertions", .bool true)]) := by
  obtain ⟨config, hread, hdependencies⟩ : ∃ config,
      normalize (.object dailyView) .view .block "definitions/daily.sqlx" =
        .ok config ∧
        config.dependencies = [⟨none, some "raw", "events", none⟩,
          ⟨some "shop", none, "users", some true⟩] :=
    ⟨_, rfl, rfl⟩
  have hstands : StandsAt usersObject 1
      (.array [.string "raw.events", .object usersObject]) := .item rfl
  obtain ⟨r, hplace, halike⟩ := object_references_agree hread
    (by decide : "dependencyTargets" ∈ dependencyKeys)
    (List.mem_cons_of_mem _ List.mem_cons_self) hstands
  rw [hdependencies] at hplace
  obtain rfl := Option.some.inj hplace
  refine ⟨by rw [hread, Except.map, hdependencies], halike _ _ rfl ?_⟩
  exact @List.perm_middle (String × Json) ("name", .string "users")
    [("project", .string "shop"), ("dataset", .null)] _

end Link

end SqlWorkflow
