import Mathlib.Data.List.Basic
import SqlWorkflow.Action.Normalize
import SqlWorkflow.Json.Members
import SqlWorkflow.Proofs.Action.Fields

/-!
# Dependencies written as names

The dependencies of a config may be one reference or a list of them, and a
reference may be a name or a record. Records may be written as arrays of their
fields, so a short list of names fits two forms, of which the record counts
because it is tried first. The main statement says what every list of names is
read as, and for exactly which lists that is the list of the references that the
names stand for.
-/

namespace SqlWorkflow.Action

open Json.Decode (string option list items firstOf oneOrMany)

def WrittenConfig.withDependencies (d : Option (List Reference))
    (written : WrittenConfig) : WrittenConfig :=
  { written with dependencies := d }

theorem overlays_dependencies (d : Option (List Reference)) :
    WrittenConfig.layout.Overlays "dependencies"
      (WrittenConfig.withDependencies d) :=
  WrittenConfig.overlays_taking "dependencies" { WrittenConfig.empty with
    dependencies := d }

theorem readDetails_withDependencies (kind : Kind) (d : Option (List Reference))
    (written : WrittenConfig) (file : String) :
    readDetails kind (written.withDependencies d) file =
      readDetails kind written file := by
  cases kind <;> rfl

theorem build_withDependencies (kind : Kind) (d : Option (List Reference))
    (written : WrittenConfig) (file : String) :
    build kind (written.withDependencies d) file =
      (build kind written file).map fun config =>
        { config with dependencies := d.getD [] } := by
  change (if written.name = some "" then _ else _) = _
  rw [build]
  split
  · rfl
  · rw [readDetails_withDependencies]
    cases readDetails kind written file with
    | error e => rfl
    | ok details => rfl

def dependencyKeys : List String :=
  ["dependencies", "dependencyTargets"]

theorem fieldOf?_eq_dependencies_iff {key : String} :
    WrittenConfig.layout.fieldOf? key = some "dependencies" ↔
      key ∈ dependencyKeys := by
  constructor
  · intro h
    rcases Json.RecordSchema.mem_of_fieldOf?_eq_some h with rfl | halias
    · exact List.mem_cons_self
    · simp only [WrittenConfig.layout, List.mem_cons, Prod.mk.injEq,
        List.not_mem_nil, or_false] at halias
      rcases halias with ⟨_, h⟩ | ⟨_, h⟩ | ⟨rfl, _⟩
      · simp at h
      · simp at h
      · exact List.mem_cons_of_mem _ List.mem_cons_self
  · intro h
    simp only [dependencyKeys, List.mem_cons, List.not_mem_nil, or_false] at h
    rcases h with rfl | rfl <;> rfl

theorem dependencyKeys_subset_allowedKeys (kind : Kind) (source : Source) :
    dependencyKeys ⊆ kind.allowedKeys source := by
  intro key hkey
  have hcommon : key ∈ Kind.commonKeys := by
    simp only [dependencyKeys, List.mem_cons, List.not_mem_nil,
      or_false] at hkey
    rcases hkey with rfl | rfl <;> decide
  exact List.mem_append_left _ hcommon

theorem normalize_withDependencies {before after : Json.Members}
    {key file : String} {value : Json} {kind : Kind} {source : Source}
    {d : Option (List Reference)} {config : Config}
    (hkey : key ∈ dependencyKeys)
    (hother : ∀ member ∈ before ++ after, member.1 ∉ dependencyKeys)
    (hvalue : option (oneOrMany reference) value = .ok d)
    (hvalid :
      normalize (.object (before ++ after)) kind source file = .ok config) :
    normalize (.object (before ++ (key, value) :: after)) kind source file =
      .ok { config with dependencies := d.getD [] } := by
  have hmembers : WrittenConfig.ofMembers (before ++ (key, value) :: after) =
      (WrittenConfig.ofMembers (before ++ after)).map
        (WrittenConfig.withDependencies d) := by
    refine Json.RecordSchema.readMembers_insert (overlays_dependencies d) ?_
      (fieldOf?_eq_dependencies_iff.2 hkey) ?_ (List.not_mem_nil) _
    · intro member hmem hfield
      exact hother member hmem (fieldOf?_eq_dependencies_iff.1 hfield)
    · intro record
      change (option (oneOrMany reference) value).map _ = _
      rw [hvalue]
      rfl
  simp only [normalize] at hvalid ⊢
  split at hvalid
  · cases hvalid
  · rename_i hkeys
    have hkeys' : (before ++ (key, value) :: after).find?
        (fun member => member.1 ∉ kind.allowedKeys source) = none := by
      rw [List.find?_eq_none] at hkeys ⊢
      intro member hmem
      rcases List.mem_append.1 hmem with hmem | hmem
      · exact hkeys member (List.mem_append_left _ hmem)
      · rcases List.mem_cons.1 hmem with rfl | hmem
        · simpa using dependencyKeys_subset_allowedKeys kind source hkey
        · exact hkeys member (List.mem_append_right _ hmem)
    rw [hkeys', hmembers]
    cases hwritten : WrittenConfig.ofMembers (before ++ after) with
    | error e => rw [hwritten] at hvalid; cases hvalid
    | ok written =>
      rw [hwritten] at hvalid
      simp only [Except.map] at hvalid ⊢
      have hname : (written.withDependencies d).name = written.name := rfl
      rw [hname]
      split at hvalid
      · cases hvalid
      · rename_i hdeclared
        rw [if_neg hdeclared, build_withDependencies, hvalid]
        rfl

/-! ## What a list of names is read as -/

/-- The references that a list of names is read as: up to three names are taken
for the parts of one reference, since the record of a reference may be written
as an array. -/
def readNames : List String → List Reference
  | [name] => [⟨none, none, name, none⟩]
  | [name, schema] => [⟨none, some schema, name, none⟩]
  | [name, schema, database] => [⟨some database, some schema, name, none⟩]
  | names => names.map Reference.parse

theorem oneOrMany_reference_strings (names : List String) :
    oneOrMany reference (Json.strings names) = .ok (readNames names) := by
  match names with
  | [] => rfl
  | [name] => rfl
  | [name, schema] => rfl
  | [name, schema, database] => rfl
  | a :: b :: c :: d :: rest =>
    -- The fourth field of the record is a truth value, so the array can only be
    -- a list.
    have hrecord : reference (Json.strings (a :: b :: c :: d :: rest)) =
        .error (.noForm "DependencySpec") := rfl
    have hname (name : String) : reference (.string name) =
        .ok (Reference.parse name) := rfl
    have hlist : list reference (Json.strings (a :: b :: c :: d :: rest)) =
        .ok ((a :: b :: c :: d :: rest).map Reference.parse) :=
      Json.Decode.items_map hname _
    simp only [oneOrMany, firstOf, hrecord, hlist]
    rfl

/-- A name stands for itself unless it has one dot or two. -/
theorem parse_eq_named_iff {name : String} :
    Reference.parse name = ⟨none, none, name, none⟩ ↔
      name.toList.count '.' ≠ 1 ∧ name.toList.count '.' ≠ 2 := by
  have hlength : (Text.split '.' name).length = name.toList.count '.' + 1 := by
    rw [Text.split, List.length_map, Text.length_splitOn]
  rw [Reference.parse]
  split
  · rename_i schema last hsplit
    rw [hsplit, List.length_cons, List.length_cons, List.length_nil] at hlength
    simp only [Reference.qualified, Reference.mk.injEq, reduceCtorEq, false_and,
      and_false, false_iff]
    omega
  · rename_i database schema last hsplit
    rw [hsplit, List.length_cons, List.length_cons, List.length_cons,
      List.length_nil] at hlength
    simp only [Reference.qualified, Reference.mk.injEq, reduceCtorEq, false_and,
      false_iff]
    omega
  · rename_i htwo hthree
    refine ⟨fun _ => ⟨?_, ?_⟩, fun _ => rfl⟩
    · intro hone
      obtain ⟨schema, last, hsplit⟩ :=
        List.length_eq_two.1 (hlength.trans (by rw [hone]))
      exact htwo schema last hsplit
    · intro htwice
      obtain ⟨database, schema, last, hsplit⟩ :=
        List.length_eq_three.1 (hlength.trans (by rw [htwice]))
      exact hthree database schema last hsplit

/-- Exactly which lists of names are read as lists of names. -/
theorem readNames_eq_map_parse_iff {names : List String} :
    readNames names = names.map Reference.parse ↔
      names = [] ∨ 4 ≤ names.length ∨
        ∃ name, names = [name] ∧ name.toList.count '.' ≠ 1 ∧
          name.toList.count '.' ≠ 2 := by
  match names with
  | [] => simp [readNames]
  | [name] =>
    have h : readNames [name] = [name].map Reference.parse ↔
        Reference.parse name = ⟨none, none, name, none⟩ := by
      simp [readNames, eq_comm]
    rw [h, parse_eq_named_iff]
    simp
  | [name, schema] => simp [readNames]
  | [name, schema, database] => simp [readNames]
  | a :: b :: c :: d :: rest => simp [readNames]

/-- A config whose dependencies are a list of names is accepted wherever the
config without them is, and differs from it in its dependencies only. They are
the references that the names stand for if the list is empty, has four names or
more, or has one name with no dot or more than two; a shorter list is read as a
single reference, of which it gives the parts. -/
theorem normalize_dependency_names {before after : Json.Members}
    {key file : String} {names : List String} {kind : Kind} {source : Source}
    {config : Config} (hkey : key ∈ dependencyKeys)
    (hother : ∀ member ∈ before ++ after, member.1 ∉ dependencyKeys)
    (hvalid :
      normalize (.object (before ++ after)) kind source file = .ok config) :
    normalize (.object (before ++ (key, Json.strings names) :: after)) kind
      source file =
      .ok { config with
        dependencies := readNames names } ∧
      (readNames names = names.map Reference.parse ↔
        names = [] ∨ 4 ≤ names.length ∨
          ∃ name, names = [name] ∧ name.toList.count '.' ≠ 1 ∧
            name.toList.count '.' ≠ 2) := by
  refine ⟨?_, readNames_eq_map_parse_iff⟩
  have hvalue : option (oneOrMany reference) (Json.strings names) =
      .ok (some (readNames names)) := by
    change (oneOrMany reference (Json.strings names)).map some = _
    rw [oneOrMany_reference_strings]
    rfl
  exact normalize_withDependencies hkey hother hvalue hvalid

/-- A view with one member before its dependencies and one after them. -/
theorem normalize_dependency_names_view :
    (normalize (.object [("name", .string "daily"),
      ("dependencyTargets", Json.strings ["raw.events", "users", "p.s.t", "x"]),
      ("disabled", .bool true)]) .view .listing "definitions/actions.yaml").map
      (·.dependencies) =
      .ok [⟨none, some "raw", "events", none⟩, ⟨none, none, "users", none⟩,
        ⟨some "p", some "s", "t", none⟩, ⟨none, none, "x", none⟩] := by
  have hvalid : normalize
      (.object ([("name", .string "daily")] ++ [("disabled", .bool true)]))
      .view .listing "definitions/actions.yaml" =
      .ok ⟨.view, some "daily", none, none, none, [], true, [], none, false, [],
        none, .table ⟨.view, false, false, [], none, .none, none⟩⟩ := rfl
  have h := @normalize_dependency_names [("name", .string "daily")]
    [("disabled", .bool true)] "dependencyTargets"
      _ ["raw.events", "users", "p.s.t", "x"] _ _ _ (by decide)
    (by decide) hvalid
  rw [List.singleton_append] at h
  rw [h.1]
  rfl

/-- Two names are read as one reference, with the second name for its schema. -/
theorem dependencies_of_two_names :
    (normalize (.object [("dependencies", Json.strings ["a", "b"])]) .table
      .block "definitions/example.sqlx").map (·.dependencies) =
      .ok [⟨none, some "b", "a", none⟩] ∧
      ["a", "b"].map Reference.parse =
        [⟨none, none, "a", none⟩, ⟨none, none, "b", none⟩] :=
  ⟨rfl, rfl⟩

end SqlWorkflow.Action
