import SqlWorkflow.Proofs.Json.Records
import SqlWorkflow.Proofs.Json.TypedReading
import SqlWorkflow.Settings.Legacy

/-!
# The record of a deprecated settings file

The deprecated settings file is read from the outline of its text. It is read as
a record is decoded from the object at the head of the text, and what follows
the object is not looked at.
-/

namespace SqlWorkflow.Settings

open Json
  (Follows Mirrors Outline Progress ReadError RecordSchema TextSchema ValueAt)

/-- Defaults for notebook runtimes, as they are decoded. -/
def notebookRecord : RecordSchema NotebookOptions where
  name := "NotebookRuntimeOptions"
  fields := ["outputBucket", "runtimeTemplateName"]
  aliases := []
  strict := true
  empty := ⟨none, none⟩
  set field value record :=
    match field with
    | "outputBucket" =>
      (Json.Decode.option Json.Decode.string value).map fun x =>
      { record with outputBucket := x }
    | "runtimeTemplateName" =>
      (Json.Decode.option Json.Decode.string value).map fun x =>
      { record with runtimeTemplateName := x }
    | _ => .ok record

/-- A field of the configuration, as it is decoded. -/
def decodeField {α : Type} (decoder : Json.Decoder α) (value : Json)
    (draft : Draft) (f : α → Config → Config) : Except Json.Mismatch Draft :=
  (decoder value).map fun x => draft.withConfig (f x draft.config)

/-- The settings, as they are decoded. The variables are values that stand for
what is written. -/
def legacyRecord : RecordSchema Draft where
  name := "LegacyProjectSettings"
  fields := legacySchema.fields
  aliases := []
  strict := true
  empty := Draft.empty
  set field value draft :=
    let text := Json.Decode.option Json.Decode.string
    match field with
    | "warehouse" =>
      decodeField (Json.Decode.option (Json.Decode.variant Warehouse.variants))
        value draft fun x c =>
      { c with warehouse := x.getD .bigquery }
    | "defaultDatabase" =>
      decodeField text value draft fun x c => { c with defaultDatabase := x }
    | "defaultSchema" =>
      decodeField text value draft fun x c => { c with defaultSchema := x }
    | "defaultLocation" =>
      decodeField text value draft fun x c => { c with defaultLocation := x }
    | "assertionSchema" =>
      decodeField text value draft fun x c => { c with assertionSchema := x }
    | "databaseSuffix" =>
      decodeField text value draft fun x c => { c with databaseSuffix := x }
    | "schemaSuffix" =>
      decodeField text value draft fun x c => { c with schemaSuffix := x }
    | "tablePrefix" =>
      decodeField text value draft fun x c => { c with tablePrefix := x }
    | "vars" =>
      (Json.Decode.map (fun v => .ok (Json.collapse v)) value).map fun x =>
      { draft with vars := Dictionary.ofList x }
    | "dataformCoreVersion" =>
      decodeField text value draft fun x c => { c with compilerVersion := x }
    | "defaultNotebookRuntimeOptions" =>
      (Json.Decode.option notebookRecord.decode value).map fun options =>
        match options with
        | none => draft
        | some options =>
          draft.withConfig { draft.config with notebookOptions := some options }
    | _ => .ok draft

/-! ## The file is read as the record is decoded -/

theorem follows_text (levels : Nat) :
    Follows levels (Json.Typed.option Json.Typed.string)
      (Json.Decode.option Json.Decode.string) :=
  (Json.follows_string levels).option

theorem follows_notebook (levels : Nat) (segment : String) :
    (notebookSchema segment).Follows levels notebookRecord where
  fields := rfl
  aliases := rfl
  strict := rfl
  valid {field _ _ _ _} hfield hset hunknown := by
    have hfield : field ∈ ["outputBucket", "runtimeTemplateName"] := hfield
    simp only [List.mem_cons, List.not_mem_nil, or_false] at hfield
    rcases hfield with rfl | rfl
    · exact (follows_text levels).valid_field hset hunknown
    · exact (follows_text levels).valid_field hset hunknown
  reads {field _ _ _ _ _} hfield hmirrors := by
    have hfield : field ∈ ["outputBucket", "runtimeTemplateName"] := hfield
    simp only [List.mem_cons, List.not_mem_nil, or_false] at hfield
    rcases hfield with rfl | rfl
    · exact (follows_text levels).reads_field hmirrors
    · exact (follows_text levels).reads_field hmirrors

theorem valid_notebookOptions {levels : Nat} {segment : String}
    {outline : Outline} {progress next : Progress Draft}
    (hread : readNotebookOptions segment outline progress = .ok next)
    (hunknown : next.unknown = []) :
    progress.unknown = [] ∧
      ∃ value, outline.toJson (levels + 3) = .ok value := by
  obtain ⟨result, hresult, rfl⟩ := Text.exists_of_map_eq_ok hread
  rcases Json.Typed.exists_of_option hresult with
    ⟨rfl, start, after, rfl⟩ | ⟨p, rfl, hp⟩
  · exact ⟨hunknown, .null, rfl⟩
  · exact (follows_notebook levels segment).exists_toJson hp hunknown

theorem reads_notebookOptions {levels : Nat} {segment : String}
    {outline : Outline} {v : Json}
    (hmirrors : Mirrors (ValueAt (levels + 1)) outline v)
    {before next : Draft} :
    readNotebookOptions segment outline ⟨before, []⟩ = .ok ⟨next, []⟩ ↔
      legacyRecord.set "defaultNotebookRuntimeOptions" v before = .ok next :=
  (follows_notebook levels segment).reads_option hmirrors rfl fun _ => rfl

/-- The values of the file stand inside one bracket, what they hold inside
two. -/
theorem follows_legacy :
    legacySchema.Follows (Json.nestingLimit - 3) legacyRecord where
  fields := rfl
  aliases := rfl
  strict := rfl
  valid {field _ _ _ _} hfield hset hunknown := by
    simp only [legacySchema, List.mem_cons, List.not_mem_nil,
      or_false] at hfield
    rcases hfield with
      rfl | rfl | rfl | rfl | rfl | rfl | rfl | rfl | rfl | rfl | rfl
    · exact (Json.follows_variant _ _).option.valid_field hset hunknown
    iterate 7 · exact (follows_text _).valid_field hset hunknown
    -- The levels are written out where the limit has to be computed.
    · exact (Json.follows_map 125).valid_field hset hunknown
    · exact (follows_text _).valid_field hset hunknown
    · exact @valid_notebookOptions 124 _ _ _ _ hset hunknown
  reads {field _ _ _ _ _} hfield hmirrors := by
    simp only [legacySchema, List.mem_cons, List.not_mem_nil,
      or_false] at hfield
    rcases hfield with
      rfl | rfl | rfl | rfl | rfl | rfl | rfl | rfl | rfl | rfl | rfl
    · exact (Json.follows_variant _ _).option.reads_field hmirrors
    iterate 7 · exact (follows_text _).reads_field hmirrors
    · exact (Json.follows_map 125).reads_field hmirrors
    · exact (follows_text _).reads_field hmirrors
    · exact @reads_notebookOptions 124 _ _ _ hmirrors _ _

theorem rejectUnknown_eq_ok_iff {file : String} {known unknown : List String} :
    rejectUnknown file known unknown = .ok () ↔ unknown = [] := by
  cases unknown with
  | nil => exact iff_of_true rfl rfl
  | cons path unknown => exact iff_of_false nofun (List.cons_ne_nil _ _)

/-- A configuration is read if the record is decoded from the value at the head
of the file, whatever follows. -/
theorem parseLegacy_eq_ok_iff {content : String} {config : Config} :
    parseLegacy content = .ok config ↔ ∃ v rest draft,
      ValueAt (Json.nestingLimit - 1) (Json.skipBlanks content.toList) v rest ∧
        legacyRecord.decode v = .ok draft ∧ draft.finish = .ok config := by
  have hread (draft : Draft) : legacySchema.read ⟨Draft.empty, []⟩
      (Json.outlineValue content.toList).value = .ok ⟨draft, []⟩ ↔
      _ := follows_legacy.read_outlineValue_iff
  constructor
  · intro h
    unfold parseLegacy at h
    dsimp only at h
    split at h
    · cases h
    rename_i progress hprogress
    split at h
    · cases h
    rename_i hknown
    obtain ⟨draft, unknown⟩ := progress
    cases rejectUnknown_eq_ok_iff.1 hknown
    obtain ⟨v, rest, hv, hdecode⟩ := (hread draft).1 hprogress
    exact ⟨v, rest, draft, hv, hdecode, h⟩
  · rintro ⟨v, rest, draft, hv, hdecode, hfinish⟩
    rw [parseLegacy, (hread draft).2 ⟨v, rest, hv, hdecode⟩]
    exact hfinish

end SqlWorkflow.Settings
