import SqlWorkflow.Proofs.Settings.LegacyRecord
import SqlWorkflow.Text.Blank

/-!
# What a deprecated settings file says

A file says something if it is one object and nothing else, with keys of the
schema only, each once and with a value that suits it, and if the variables are
strings. The configuration has what the members say.
-/

namespace SqlWorkflow

namespace Dictionary

variable {α β : Type}

theorem insert_map (f : α → β) (key : String) (value : α)
    (dictionary : Dictionary α) :
    insert key (f value) (dictionary.map fun (k, v) => (k, f v)) =
      (insert key value dictionary).map fun (k, v) => (k, f v) := by
  induction dictionary with
  | nil => rfl
  | cons pair rest ih =>
    obtain ⟨k, v⟩ := pair
    rw [List.map_cons, insert, insert, ih]
    split
    · rfl
    split <;> rfl

theorem ofList_map (f : α → β) (pairs : List (String × α)) :
    ofList (pairs.map fun (k, v) => (k, f v)) =
      (ofList pairs).map fun (k, v) => (k, f v) := by
  have hfold (start : Dictionary α) : (pairs.map fun (k, v) => (k, f v)).foldl
      (fun dictionary pair => insert pair.1 pair.2 dictionary)
      (start.map fun (k, v) => (k, f v)) =
      (pairs.foldl (fun dictionary pair => insert pair.1 pair.2 dictionary)
        start).map fun (k, v) => (k, f v) := by
    induction pairs generalizing start with
    | nil => rfl
    | cons pair pairs ih =>
      rw [List.map_cons, List.foldl_cons, List.foldl_cons, ← ih, ← insert_map]
  exact hfold []

end Dictionary

namespace Settings

open Json (Members ValueAt)

/-! ## What members say -/

inductive IsText : Json → Prop
  | null : IsText .null
  | string (s : String) : IsText (.string s)

/-- The text under a key, if there is one. -/
def textAt (members : Members) (key : String) : Option String :=
  (members.get? key).bind Json.string?

/-- The keys under which a text may stand. -/
def textKeys : List String :=
  ["defaultDatabase", "defaultSchema", "defaultLocation", "assertionSchema",
    "databaseSuffix", "schemaSuffix", "tablePrefix", "dataformCoreVersion"]

/-- Each key once, with a text. -/
structure LegalOptions (options : Members) : Prop where
  texts : ∀ option ∈ options, option.1 ∈ notebookRecord.fields ∧ IsText option.2
  distinct : (options.map Prod.fst).Nodup

def optionsOf (options : Members) : NotebookOptions :=
  ⟨textAt options "outputBucket", textAt options "runtimeTemplateName"⟩

/-- The options for notebooks that the members of a file say. -/
def optionsAt (members : Members) : Option NotebookOptions :=
  match members.get? "defaultNotebookRuntimeOptions" with
  | some (.object options) => some (optionsOf options)
  | _ => none

/-- The values that the keys of the file may have. -/
inductive Suits (key : String) (v : Json) : Prop
  | text (hkey : key ∈ textKeys) (h : IsText v)
  | warehouse (hkey : key = "warehouse")
      (h : v = .null ∨ ∃ w : Warehouse, v = .string w.name)
  | vars (hkey : key = "vars") (h : ∃ vars, v = .object vars)
  | options (hkey : key = "defaultNotebookRuntimeOptions")
      (h : v = .null ∨ ∃ options, v = .object options ∧ LegalOptions options)

/-- The variables with their values; of several with one name the last
counts. -/
def variablesOf (members : Members) : Dictionary Json :=
  match members.get? "vars" with
  | some (.object vars) => Dictionary.ofList vars
  | _ => []

/-- The variables of which the values are strings. -/
def stringsOf (vars : Dictionary Json) : Dictionary String :=
  vars.filterMap fun (name, v) => v.string?.map (name, ·)

structure Legal (members : Members) : Prop where
  suits : ∀ member ∈ members, Suits member.1 member.2
  distinct : (members.map Prod.fst).Nodup
  strings : ∀ entry ∈ variablesOf members, ∃ s, entry.2 = .string s

/-- The configuration that the members of a file say. -/
def configOf (members : Members) : Config where
  warehouse := ((textAt members "warehouse").bind fun name =>
    Warehouse.variants.lookup name).getD .bigquery
  defaultDatabase := textAt members "defaultDatabase"
  defaultSchema := textAt members "defaultSchema"
  defaultLocation := textAt members "defaultLocation"
  assertionSchema := textAt members "assertionSchema"
  databaseSuffix := textAt members "databaseSuffix"
  schemaSuffix := textAt members "schemaSuffix"
  tablePrefix := textAt members "tablePrefix"
  vars := stringsOf (variablesOf members)
  compilerVersion := textAt members "dataformCoreVersion"
  notebookOptions := optionsAt members

/-! ## Decoding -/

theorem isText_iff {v : Json} {x : Option String} :
    Json.Decode.option Json.Decode.string v = .ok x ↔
      IsText v ∧ x = v.string? := by
  cases v with
  | null =>
    exact ⟨fun h => by cases h; exact ⟨.null, rfl⟩, fun h => by rw [h.2]; rfl⟩
  | string s =>
    exact ⟨fun h => by cases h; exact ⟨.string s, rfl⟩,
      fun h => by rw [h.2]; rfl⟩
  | bool _ | number _ | array _ | object _ =>
    exact iff_of_false nofun fun h => nomatch h.1

theorem map_text_eq_ok_iff {σ : Type} {v : Json} {f : Option String → σ}
    {next : σ} :
    (Json.Decode.option Json.Decode.string v).map f = .ok next ↔
      IsText v ∧ next = f v.string? := by
  constructor
  · intro h
    obtain ⟨x, hx, rfl⟩ := Text.exists_of_map_eq_ok h
    obtain ⟨hv, rfl⟩ := isText_iff.1 hx
    exact ⟨hv, rfl⟩
  · rintro ⟨hv, rfl⟩
    rw [isText_iff.2 ⟨hv, rfl⟩]
    rfl

theorem tells_notebook :
    notebookRecord.Tells optionsOf (fun _ _ => True) (fun _ v => IsText v) := by
  intro before field value next hfield habsent _
  simp only [notebookRecord, List.mem_cons, List.not_mem_nil,
    or_false] at hfield
  rcases hfield with rfl | rfl
  · refine map_text_eq_ok_iff.trans ?_
    simp [optionsOf, textAt, Members.get?_append, Members.get?, habsent]
  · refine map_text_eq_ok_iff.trans ?_
    simp [optionsOf, textAt, Members.get?_append, Members.get?, habsent]

theorem decode_notebook_iff {options : Members} {result : NotebookOptions} :
    notebookRecord.decode (.object options) = .ok result ↔
      LegalOptions options ∧ result = optionsOf options := by
  rw [tells_notebook.decode_object_eq_ok_iff rfl rfl rfl fun _ _ => trivial]
  exact ⟨fun ⟨htexts, hdistinct, hresult⟩ => ⟨⟨htexts, hdistinct⟩, hresult⟩,
    fun ⟨hlegal, hresult⟩ => ⟨hlegal.texts, hlegal.distinct, hresult⟩⟩

/-- The draft of what members say. Its variables are the values that stand for
what is written. -/
def draftOf (members : Members) : Draft :=
  ⟨{ configOf members with
    vars := [] },
    (variablesOf members).map fun (name, v) => (name, Json.collapse v)⟩

/-- A value of which no more is taken than it should say. An object is taken for
a warehouse if its key is the name of one, and an array for the options of
notebooks, by the order of its values. -/
structure Plain (key : String) (v : Json) : Prop where
  warehouse : key = "warehouse" → ∀ members, v ≠ .object members
  options : key = "defaultNotebookRuntimeOptions" → ∀ items, v ≠ .array items

theorem suits_text_iff {key : String} (hkey : key ∈ textKeys)
    {v : Json} : Suits key v ↔ IsText v := by
  constructor
  · intro h
    cases h with
    | text _ h => exact h
    | warehouse heq | vars heq | options heq =>
      exact absurd hkey (heq ▸ by decide)
  · exact .text hkey

theorem suits_warehouse_iff {v : Json} :
    Suits "warehouse" v ↔ v = .null ∨ ∃ w : Warehouse, v = .string w.name := by
  constructor
  · intro h
    cases h with
    | warehouse _ h => exact h
    | text hkey | vars hkey | options hkey => exact absurd hkey (by decide)
  · exact .warehouse rfl

theorem suits_vars_iff {v : Json} :
    Suits "vars" v ↔ ∃ vars, v = .object vars := by
  constructor
  · intro h
    cases h with
    | vars _ h => exact h
    | text hkey | warehouse hkey | options hkey => exact absurd hkey (by decide)
  · exact .vars rfl

theorem suits_options_iff {v : Json} :
    Suits "defaultNotebookRuntimeOptions" v ↔
      v = .null ∨ ∃ options, v = .object options ∧ LegalOptions options := by
  constructor
  · intro h
    cases h with
    | options _ h => exact h
    | text hkey | warehouse hkey | vars hkey => exact absurd hkey (by decide)
  · exact .options rfl

theorem lookup_variants_iff {name : String} {w : Warehouse} :
    Warehouse.variants.lookup name = some w ↔ name = w.name := by
  constructor
  · intro h
    obtain ⟨before, after, heq, -⟩ := List.lookup_eq_some_iff.1 h
    have hmem : (name, w) ∈ Warehouse.variants :=
      heq ▸ List.mem_append_right _ List.mem_cons_self
    obtain ⟨other, -, hother⟩ := List.mem_map.1 hmem
    cases hother
    rfl
  · rintro rfl
    cases w <;> decide

/-- A text is told, whatever field it is for. -/
theorem tells_text {before : Members} {field : String} {value : Json}
    {next : Draft} (hfield : field ∈ textKeys)
    (habsent : before.get? field = none) :
    legacyRecord.set field value (draftOf before) = .ok next ↔
      Suits field value ∧ next = draftOf (before ++ [(field, value)]) := by
  -- For each field the record changes in one place, and so does what the
  -- members tell.
  have hkey := hfield
  simp only [textKeys, List.mem_cons, List.not_mem_nil, or_false] at hfield
  rcases hfield with rfl | rfl | rfl | rfl | rfl | rfl | rfl | rfl <;>
    · refine map_text_eq_ok_iff.trans ?_
      rw [suits_text_iff hkey]
      simp [draftOf, configOf, Draft.withConfig, textAt, variablesOf, optionsAt,
        Members.get?_append, Members.get?, habsent]

theorem tells_warehouse {before : Members} {value : Json} {next : Draft}
    (habsent : before.get? "warehouse" = none)
    (hplain : ∀ members, value ≠ .object members) :
    legacyRecord.set "warehouse" value (draftOf before) = .ok next ↔
      Suits "warehouse" value ∧
        next = draftOf (before ++ [("warehouse", value)]) := by
  rw [suits_warehouse_iff]
  have htold : draftOf (before ++ [("warehouse", value)]) =
      (draftOf before).withConfig { (draftOf before).config with
      warehouse :=
        (value.string?.bind fun name => Warehouse.variants.lookup name).getD
          .bigquery } := by
    simp [draftOf, configOf, Draft.withConfig, textAt, variablesOf, optionsAt,
        Members.get?_append, Members.get?, habsent]
  rw [htold]
  cases value with
  | object members => exact absurd rfl (hplain members)
  | bool _ | number _ | array _ =>
    exact iff_of_false (fun h => by cases h) (by simp)
  | null =>
    exact ⟨fun h => ⟨.inl rfl, (Except.ok.inj h).symm⟩,
      fun h => congrArg Except.ok h.2.symm⟩
  | string name =>
    have hset : legacyRecord.set "warehouse" (.string name) (draftOf before) =
        ((Json.Decode.variantNamed Warehouse.variants name).map some).map
          fun x =>
          (draftOf before).withConfig { (draftOf before).config with
            warehouse := x.getD .bigquery } := rfl
    rw [hset, Json.Decode.variantNamed]
    cases hlookup : Warehouse.variants.lookup name with
    | none =>
      refine iff_of_false (fun h => by cases h) ?_
      rintro ⟨hnull | ⟨w, hw⟩, -⟩
      · cases hnull
      · cases hw
        cases hlookup.symm.trans (lookup_variants_iff.2 rfl)
    | some w =>
      have hname : (.string name : Json) = .string w.name :=
        congrArg Json.string (lookup_variants_iff.1 hlookup)
      simp only [Json.string?, Option.bind_some, hlookup]
      exact ⟨fun h => ⟨.inr ⟨w, hname⟩, (Except.ok.inj h).symm⟩,
        fun h => congrArg Except.ok h.2.symm⟩

theorem collapseMembers_eq_map (members : Members) :
    Json.collapseMembers members = members.map fun (name, v) =>
      (name, Json.collapse v) := by
  induction members with
  | nil => rfl
  | cons member members ih =>
    obtain ⟨name, v⟩ := member
    rw [Json.collapseMembers, ih]
    rfl

theorem tells_vars {before : Members} {value : Json} {next : Draft}
    (habsent : before.get? "vars" = none) :
    legacyRecord.set "vars" value (draftOf before) = .ok next ↔
      Suits "vars" value ∧ next = draftOf (before ++ [("vars", value)]) := by
  rw [suits_vars_iff]
  cases value with
  | null | bool _ | number _ | string _ | array _ =>
    exact iff_of_false nofun (by simp)
  | object vars =>
    have htold : draftOf (before ++ [("vars", .object vars)]) =
        { draftOf before with
          vars := Dictionary.ofList (Json.collapseMembers vars) } := by
      rw [collapseMembers_eq_map, Dictionary.ofList_map]
      simp [draftOf, configOf, textAt, variablesOf, optionsAt,
        Members.get?_append, Members.get?, habsent]
    have hset : legacyRecord.set "vars" (.object vars) (draftOf before) =
        (Json.Decode.members (fun v => .ok (Json.collapse v)) vars).map fun x =>
          { draftOf before with vars := Dictionary.ofList x } := rfl
    rw [htold, hset, Json.members_collapse]
    simp [Except.map, eq_comm]

theorem tells_options {before : Members} {value : Json} {next : Draft}
    (habsent : before.get? "defaultNotebookRuntimeOptions" = none)
    (hplain : ∀ items, value ≠ .array items) :
    legacyRecord.set "defaultNotebookRuntimeOptions" value (draftOf before) =
        .ok next ↔
      Suits "defaultNotebookRuntimeOptions" value ∧
        next =
          draftOf (before ++ [("defaultNotebookRuntimeOptions", value)]) := by
  rw [suits_options_iff]
  cases value with
  | array items => exact absurd rfl (hplain items)
  | bool _ | number _ | string _ =>
    exact iff_of_false (fun h => by cases h) (by simp)
  | null =>
    have htold : draftOf (before ++
        [("defaultNotebookRuntimeOptions", .null)]) = draftOf before := by
      simp [draftOf, configOf, textAt, variablesOf, optionsAt,
        Members.get?_append, Members.get?, habsent]
    rw [htold]
    exact ⟨fun h => ⟨.inl rfl, (Except.ok.inj h).symm⟩,
      fun h => congrArg Except.ok h.2.symm⟩
  | object options =>
    have htold : draftOf (before ++
        [("defaultNotebookRuntimeOptions", .object options)]) =
        (draftOf before).withConfig { (draftOf before).config with
          notebookOptions := some (optionsOf options) } := by
      simp [draftOf, configOf, Draft.withConfig, textAt, variablesOf, optionsAt,
        Members.get?_append, Members.get?, habsent]
    have hset : legacyRecord.set "defaultNotebookRuntimeOptions"
        (.object options) (draftOf before) =
        (notebookRecord.decode (.object options)).map fun read =>
          (draftOf before).withConfig { (draftOf before).config with
            notebookOptions := some read } := by
      change ((notebookRecord.decode (.object options)).map some).map _ = _
      cases notebookRecord.decode (.object options) <;> rfl
    rw [htold, hset]
    constructor
    · intro h
      obtain ⟨read, hread, rfl⟩ := Text.exists_of_map_eq_ok h
      obtain ⟨hlegal, rfl⟩ := decode_notebook_iff.1 hread
      exact ⟨.inr ⟨options, rfl, hlegal⟩, rfl⟩
    · rintro ⟨hnull | ⟨written, hwritten, hlegal⟩, rfl⟩
      · cases hnull
      · cases hwritten
        rw [decode_notebook_iff.2 ⟨hlegal, rfl⟩]
        rfl

theorem tells_legacy : legacyRecord.Tells draftOf Plain Suits := by
  intro before field value next hfield habsent hplain
  have hcases : field ∈ textKeys ∨ field = "warehouse" ∨ field = "vars" ∨
      field = "defaultNotebookRuntimeOptions" := by
    simp only [legacyRecord, legacySchema, List.mem_cons, List.not_mem_nil,
      or_false] at hfield
    simp only [textKeys, List.mem_cons, List.not_mem_nil, or_false]
    tauto
  rcases hcases with htext | rfl | rfl | rfl
  · exact tells_text htext habsent
  · exact tells_warehouse habsent (hplain.warehouse rfl)
  · exact tells_vars habsent
  · exact tells_options habsent (hplain.options rfl)

/-! ## Variables -/

theorem stringVars_eq_ok_iff {vars : Dictionary Json}
    {strings : Dictionary String} :
    stringVars (vars.map fun (name, v) => (name, Json.collapse v)) =
      .ok strings ↔
      (∀ entry ∈ vars, ∃ s, entry.2 = .string s) ∧
        strings = stringsOf vars := by
  induction vars generalizing strings with
  | nil => simp [stringVars, stringsOf, eq_comm]
  | cons entry vars ih =>
    obtain ⟨name, v⟩ := entry
    cases v with
    | string s =>
      have hstep : stringVars (((name, .string s) :: vars).map fun (name, v) =>
          (name, Json.collapse v)) =
          (stringVars (vars.map fun (name, v) => (name, Json.collapse v))).map
            ((name, s) :: ·) := rfl
      have hstrings : stringsOf ((name, .string s) :: vars) =
          (name, s) :: stringsOf vars := rfl
      rw [hstep, hstrings, List.forall_mem_cons]
      constructor
      · intro h
        obtain ⟨rest, hrest, rfl⟩ := Text.exists_of_map_eq_ok h
        obtain ⟨hall, rfl⟩ := ih.1 hrest
        exact ⟨⟨⟨s, rfl⟩, hall⟩, rfl⟩
      · rintro ⟨⟨-, hall⟩, rfl⟩
        rw [ih.2 ⟨hall, rfl⟩]
        rfl
    | null | bool _ | number _ | array _ | object _ =>
      refine iff_of_false nofun ?_
      rintro ⟨hall, -⟩
      obtain ⟨s, hs⟩ := hall _ List.mem_cons_self
      cases hs

theorem finish_draftOf_iff {members : Members} {config : Config} :
    (draftOf members).finish = .ok config ↔
      (∀ entry ∈ variablesOf members, ∃ s, entry.2 = .string s) ∧
        config = configOf members := by
  constructor
  · intro h
    obtain ⟨strings, hstrings, rfl⟩ := Text.exists_of_map_eq_ok h
    obtain ⟨hall, rfl⟩ := stringVars_eq_ok_iff.1 hstrings
    exact ⟨hall, rfl⟩
  · rintro ⟨hall, rfl⟩
    rw [Draft.finish, draftOf, stringVars_eq_ok_iff.2 ⟨hall, rfl⟩]
    rfl

/-! ## Files -/

/-- The file is an object with these members, and nothing else; its brackets
nest no deeper than JSON is read. -/
def Document (content : String) (members : Members) : Prop :=
  ∃ rest, ValueAt (Json.nestingLimit - 1) (Json.skipBlanks content.toList)
    (.object members) rest ∧
    Json.skipBlanks rest = []

/-- What a file says: a blank one nothing, any other what the members of its
object say. -/
def Says (content : String) (config : Config) : Prop :=
  (Text.isBlankText content = true ∧ config = Config.empty) ∨ ∃ members,
    Document content members ∧ Legal members ∧ config = configOf members

/-- A file of which the reader takes neither more nor less than it says. It is
not blank, it is no array, nothing follows its object, its warehouse is not an
object, and its options for notebooks are not an array. -/
structure Regular (content : String) : Prop where
  notBlank : Text.isBlankText content = false
  notArray : ∀ tail, Json.skipBlanks content.toList ≠ '[' :: tail
  alone : ∀ members rest,
    ValueAt (Json.nestingLimit - 1) (Json.skipBlanks content.toList)
      (.object members) rest →
      Json.skipBlanks rest = []
  plain : ∀ members rest,
    ValueAt (Json.nestingLimit - 1) (Json.skipBlanks content.toList)
      (.object members) rest →
      ∀ member ∈ members, Plain member.1 member.2

theorem unique_object {levels : Nat} {text rest rest' : List Char}
    {members others : Members} (h : ValueAt levels text (.object members) rest)
    (h' : ValueAt levels text (.object others) rest') :
    members = others ∧ rest = rest' := by
  cases levels with
  | zero => cases h
  | succ levels =>
    cases h with
    | scalar h => cases h
    | object h =>
      cases h' with
      | scalar h' => exact absurd h' (Json.ScalarAt.not_bracket (.inr rfl))
      | object h' => exact h.unique_members (Json.unambiguous_valueAt levels) h'

/-- An object and nothing else is regular, unless more is taken of a member than
it should say. -/
theorem Document.regular {content : String} {members : Members}
    (h : Document content members)
    (hplain : ∀ member ∈ members, Plain member.1 member.2) :
    Regular content := by
  obtain ⟨rest, hv, hrest⟩ := h
  have hunique {others : Members} {rest' : List Char}
      (h' : ValueAt (Json.nestingLimit - 1) (Json.skipBlanks content.toList)
        (.object others) rest') :=
    unique_object hv h'
  obtain ⟨tail, hskip⟩ :
      ∃ tail, Json.skipBlanks content.toList = '\x7b' :: tail := by
    generalize Json.skipBlanks content.toList = text at hv
    cases hv with
    | scalar h => cases h
    | object _ => exact ⟨_, rfl⟩
  constructor
  · have hmem : '\x7b' ∈ content.toList :=
      (List.dropWhile_sublist _).subset (hskip ▸ List.mem_cons_self)
    refine Bool.eq_false_iff.2 fun hblank => ?_
    exact absurd (List.all_eq_true.1 hblank _ hmem) (by decide)
  · intro tail' harray
    cases hskip.symm.trans harray
  · intro others rest' h'
    obtain ⟨-, rfl⟩ := hunique h'
    exact hrest
  · intro others rest' h'
    obtain ⟨rfl, -⟩ := hunique h'
    exact hplain

theorem Suits.mem_fields {key : String} {v : Json}
    (h : Suits key v) : key ∈ legacyRecord.fields := by
  have htexts : ∀ key ∈ textKeys, key ∈ legacyRecord.fields := by decide
  cases h with
  | text hkey _ => exact htexts key hkey
  | warehouse heq | vars heq | options heq => exact heq ▸ by decide

theorem decode_legacy_iff {members : Members}
    (hplain : ∀ member ∈ members, Plain member.1 member.2) {config : Config} :
    (∃ draft, legacyRecord.decode (.object members) = .ok draft ∧
      draft.finish = .ok config) ↔
      Legal members ∧ config = configOf members := by
  have hdecode (draft : Draft) :
      legacyRecord.decode (.object members) = .ok draft ↔ _ :=
    tells_legacy.decode_object_eq_ok_iff rfl rfl rfl hplain
  constructor
  · rintro ⟨draft, hdraft, hfinish⟩
    obtain ⟨hsuits, hdistinct, rfl⟩ := (hdecode draft).1 hdraft
    obtain ⟨hstrings, rfl⟩ := finish_draftOf_iff.1 hfinish
    exact ⟨⟨fun member hmem => (hsuits member hmem).2, hdistinct, hstrings⟩,
      rfl⟩
  · rintro ⟨hlegal, rfl⟩
    have hsuits : ∀ member ∈ members, member.1 ∈ legacyRecord.fields ∧
        Suits member.1 member.2 :=
      fun member hmem =>
        ⟨(hlegal.suits member hmem).mem_fields, hlegal.suits member hmem⟩
    exact ⟨draftOf members, (hdecode _).2 ⟨hsuits, hlegal.distinct, rfl⟩,
      finish_draftOf_iff.2 ⟨hlegal.strings, rfl⟩⟩

/-- A file that begins with an object says what the members say, whatever
follows the object. -/
theorem parseLegacy_of_object {content : String} {members : Members}
    {rest : List Char} (hv : ValueAt (Json.nestingLimit - 1)
      (Json.skipBlanks content.toList) (.object members) rest)
    (hplain : ∀ member ∈ members, Plain member.1 member.2) {config : Config} :
    parseLegacy content = .ok config ↔
      Legal members ∧ config = configOf members := by
  rw [← decode_legacy_iff hplain, parseLegacy_eq_ok_iff]
  constructor
  · rintro ⟨v, rest', draft, hv', hdecode, hfinish⟩
    obtain ⟨others, rfl⟩ : ∃ others, v = .object others := by
      generalize Json.skipBlanks content.toList = text at hv hv'
      cases hv with
      | scalar h => cases h
      | object _ =>
        cases hv' with
        | scalar h => exact absurd h (Json.ScalarAt.not_bracket (.inr rfl))
        | object _ => exact ⟨_, rfl⟩
    obtain ⟨rfl, -⟩ := unique_object hv hv'
    exact ⟨draft, hdecode, hfinish⟩
  · rintro ⟨draft, hdecode, hfinish⟩
    exact ⟨_, rest, draft, hv, hdecode, hfinish⟩

theorem exists_object_of_parseLegacy {content : String} {config : Config}
    (harray : ∀ tail, Json.skipBlanks content.toList ≠ '[' :: tail)
    (h : parseLegacy content = .ok config) :
    ∃ members rest, ValueAt (Json.nestingLimit - 1)
      (Json.skipBlanks content.toList) (.object members) rest := by
  obtain ⟨v, rest, draft, hv, hdecode, -⟩ := parseLegacy_eq_ok_iff.1 h
  generalize Json.skipBlanks content.toList = text at hv harray
  cases hv with
  | scalar hscalar => exact absurd hdecode hscalar.decode_ne_ok
  | array _ => exact absurd rfl (harray _)
  | object hlist => exact ⟨_, rest, .object hlist⟩

/-- A regular file is accepted if it says something, and its configuration is
what it says. -/
theorem parseLegacy_iff_of_regular {content : String} (h : Regular content)
    {config : Config} :
    parseLegacy content = .ok config ↔ Says content config := by
  constructor
  · intro hparse
    obtain ⟨members, rest, hv⟩ := exists_object_of_parseLegacy h.notArray hparse
    obtain ⟨hlegal, hconfig⟩ :=
      (parseLegacy_of_object hv (h.plain members rest hv)).1 hparse
    exact .inr ⟨members, ⟨rest, hv, h.alone members rest hv⟩, hlegal, hconfig⟩
  · rintro (⟨hblank, -⟩ | ⟨members, ⟨rest, hv, -⟩, hlegal⟩)
    · cases hblank.symm.trans h.notBlank
    · exact (parseLegacy_of_object hv (h.plain members rest hv)).2 hlegal

theorem document_tablePrefix :
    Document "\x7b\"tablePrefix\": \"dev\"\x7d\n"
      [("tablePrefix", .string "dev")] := by
  have hdev : ∀ c ∈ ['d', 'e', 'v'],
      c ≠ '"' ∧ c ≠ '\\' ∧ 0x20 ≤ c.toNat := by simp
  have hvalue : Json.ScalarAt
      (Json.skipBlanks [' ', '"', 'd', 'e', 'v', '"', '\x7d', '\n'])
      (.string "dev") ['\x7d', '\n'] := .string (Json.quotationAt_plain hdev _)
  have hkey : ∀ c ∈ ['t', 'a', 'b', 'l', 'e', 'P', 'r', 'e', 'f', 'i', 'x'],
      c ≠ '"' ∧ c ≠ '\\' ∧ 0x20 ≤ c.toNat := by simp
  have hname : Json.QuotationAt ['t', 'a', 'b', 'l', 'e', 'P', 'r', 'e', 'f',
      'i', 'x', '"', ':', ' ', '"', 'd', 'e', 'v', '"', '\x7d', '\n']
      ['t', 'a', 'b', 'l', 'e', 'P', 'r', 'e', 'f', 'i', 'x'] [':', ' ', '"',
        'd', 'e', 'v', '"', '\x7d', '\n'] := Json.quotationAt_plain hkey _
  have hmember : Json.MemberAt (ValueAt (Json.nestingLimit - 2)) ['"', 't', 'a',
      'b', 'l', 'e', 'P', 'r', 'e', 'f', 'i', 'x', '"', ':', ' ', '"', 'd', 'e',
      'v', '"', '\x7d', '\n'] ("tablePrefix", .string "dev") ['\x7d', '\n'] :=
    .member hname rfl (.scalar hvalue)
  exact ⟨['\n'], .object (.first hmember (.close rfl)), rfl⟩

theorem parseLegacy_iff_of_regular_tablePrefix :
    Regular "\x7b\"tablePrefix\": \"dev\"\x7d\n" ∧
      parseLegacy "\x7b\"tablePrefix\": \"dev\"\x7d\n" =
        .ok { Config.empty with tablePrefix := some "dev" } := by
  have hplain : Plain "tablePrefix" (.string "dev") := ⟨nofun, nofun⟩
  have hregular := document_tablePrefix.regular (by simpa using hplain)
  have hsuits : Suits "tablePrefix" (.string "dev") :=
    .text (by decide) (.string "dev")
  have hlegal : Legal [("tablePrefix", .string "dev")] :=
    ⟨by simpa using hsuits, by simp, by simp [variablesOf, Members.get?]⟩
  exact ⟨hregular, (parseLegacy_iff_of_regular hregular).2
    (.inr ⟨_, document_tablePrefix, hlegal, rfl⟩)⟩

/-- What follows the object is not looked at. -/
theorem parseLegacy_trailing :
    parseLegacy "\x7b\x7d x" = .ok Config.empty ∧
      ¬ Says "\x7b\x7d x" Config.empty := by
  have hv : ValueAt (Json.nestingLimit - 1)
      (Json.skipBlanks "\x7b\x7d x".toList) (.object []) [' ', 'x'] :=
    .object (.close rfl)
  have hlegal : Legal [] :=
    ⟨by simp, by simp, by simp [variablesOf, Members.get?]⟩
  refine ⟨(parseLegacy_of_object hv (by simp)).2 ⟨hlegal, rfl⟩, ?_⟩
  rintro (⟨hblank, -⟩ | ⟨members, ⟨rest, hdocument, hrest⟩, -⟩)
  · exact absurd hblank (by decide)
  · obtain ⟨-, rfl⟩ := unique_object hv hdocument
    cases hrest

end Settings

end SqlWorkflow
