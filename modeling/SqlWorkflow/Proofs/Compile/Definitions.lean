import SqlWorkflow.Proofs.Action.Kinds
import SqlWorkflow.Proofs.Compile.Registered
import SqlWorkflow.Proofs.Link.Written

/-!
# What files define

Three forms of file define actions: SQL-template files, definition scripts and
listings. What each of them yields, if it is not refused, is told here by one
relation for each form. Whatever the form, a definition has the details and the
content that its kind calls for, so that its action has the variant of the kind
and its templates fit its body.
-/

namespace SqlWorkflow

/-- A config block names no kind that needs a file of its own. -/
theorem Action.Kind.of_ofConfig {value : Json} {kind : Kind}
    (h : Kind.ofConfig value = .ok kind) :
    kind ≠ .notebook ∧ kind ≠ .dataPreparation := by
  rw [ofConfig] at h
  split at h
  · cases h
    exact ⟨nofun, nofun⟩
  · split at h
    · rename_i named hnamed
      cases h
      rw [ofBlockType?.eq_def] at hnamed
      split at hnamed <;> cases hnamed <;> exact ⟨nofun, nofun⟩
    · cases h
  · cases h

@[simp] theorem Link.isIncremental_withoutSql (body : Action.Body) :
    isIncremental body.withoutSql = isIncremental body := by
  cases body <;> rfl

theorem Link.variant_of_isIncremental {body : Action.Body}
    (h : isIncremental body = true) : body.variant = .table := by
  cases body with
  | table => rfl
  | operation | assertion | declaration | notebook | dataPreparation => cases h

namespace Compile

open SqlWorkflow.Action (Kind)
open Sqlx (Blocks)

/-- What an action is compiled from is of the form that its variant calls
for. -/
inductive Content.Suits : Content → Action.Variant → Prop
  | table (query : String) (incrementalQuery : Option String)
      (preOps postOps : List String) (interpolate : Bool)
      (script : Option String) :
      Suits (.sql (.table query incrementalQuery preOps postOps) interpolate
        script) .table
  | operation (queries : List String) (interpolate : Bool)
      (script : Option String) :
      Suits (.sql (.operation queries) interpolate script) .operation
  | assertion (query : String) (interpolate : Bool) (script : Option String) :
      Suits (.sql (.assertion query) interpolate script) .assertion
  | declaration : Suits .nothing .declaration
  | withoutSql (interpolate : Bool) (script : Option String) :
      Suits (.sql .none interpolate script) .declaration
  | notebook (contents : String) : Suits (.notebook contents) .notebook
  | dataPreparation (contents : Action.Preparation) :
      Suits (.preparation contents) .dataPreparation

namespace Definition

/-- The details and the content of a definition are those that its kind calls
for. -/
structure Sound (d : Definition) : Prop where
  details : d.config.details.Suit d.config.kind
  content : d.content.Suits d.config.kind.variant

variable {d : Definition} (settings : Settings.Pair)

/-- The templates of a sound definition fit the body of its action, which has
the variant of its kind. -/
theorem Sound.fits (h : d.Sound) :
    Link.Fits d.pending.templates (d.action settings).body ∧
      (d.action settings).variant = d.config.kind.variant := by
  obtain ⟨⟨hvariant, -⟩, hcontent⟩ := h
  obtain ⟨fileName, config, defaultName, content⟩ := d
  dsimp only at hvariant hcontent
  rw [pending, action, Action.variant]
  dsimp only
  rw [← hvariant] at hcontent ⊢
  generalize config.details = details at hcontent ⊢
  cases details with
  | table => cases hcontent with | table => exact ⟨.table _ _ _ _ rfl, rfl⟩
  | operation => cases hcontent with | operation => exact ⟨.operation _ _, rfl⟩
  | assertion => cases hcontent with | assertion => exact ⟨.assertion _ _, rfl⟩
  | declaration => cases hcontent <;> exact ⟨.declaration, rfl⟩
  | notebook => cases hcontent with | notebook => exact ⟨.notebook _, rfl⟩
  | dataPreparation =>
    cases hcontent with | dataPreparation => exact ⟨.dataPreparation _, rfl⟩

/-- Just the incremental tables are compiled as such. -/
theorem Sound.isIncremental_body (h : d.Sound) :
    Link.isIncremental (d.action settings).body = true ↔
      d.config.kind = .incremental := by
  have hof : d.config.kind.variant = .table →
      (Link.isIncremental (d.action settings).body = true ↔
        d.config.kind = .incremental) := by
    intro hvariant
    cases hdetails : d.config.details with
    | table table =>
      rw [action, hdetails, bodyOf, Link.isIncremental, beq_iff_eq,
        h.details.type table hdetails]
      cases hkind : d.config.kind <;> simp [Kind.tableType]
    | operation | assertion | declaration | notebook | dataPreparation =>
      have hother := h.details.variant
      rw [hvariant, hdetails] at hother
      cases hother
  constructor
  · intro hincremental
    have hvariant := (h.fits settings).2
    rw [Action.variant, Link.variant_of_isIncremental hincremental] at hvariant
    exact (hof hvariant.symm).1 hincremental
  · intro hkind
    exact (hof (by rw [hkind]; rfl)).2 hkind

end Definition

/-- The definition that a SQL-template file makes. -/
def blockDefinition (path : String) (kind : Kind) (config : Action.Config)
    (blocks : Blocks) : Definition where
  fileName := path
  config := config
  defaultName := Sqlx.actionName path
  content := .sql (templatesOf kind blocks) true blocks.script

/-- What a SQL-template file with given blocks yields: a message that its config
could not be evaluated, or the definition of its action after the diagnostics
about its blocks. -/
inductive BlocksYield (path : String) (blocks : Blocks) : List Finding → Prop
  | failed (message : String) : BlocksYield path blocks [.ofFile path message]
  | defined {value : Json} {kind : Kind} {config : Action.Config}
      (hkind : Kind.ofConfig value = .ok kind)
      (hconfig : Action.normalize value kind .block path = .ok config)
      (hbody : kind = .declaration → Text.isBlankText blocks.body = true ∧
        hasOperationBlocks blocks = false) :
      BlocksYield path blocks (blockFindings path kind blocks ++
        [.definition (blockDefinition path kind config blocks)])

/-- A config that a SQL-template file is given, if it is not refused, makes one
definition. -/
theorem defined_of_readConfigured {path : String} {blocks : Blocks}
    {value : Json} {findings : List Finding}
    (h : readConfigured path blocks value = .ok findings) :
    ∃ kind config, Kind.ofConfig value = .ok kind ∧
      Action.normalize value kind .block path = .ok config ∧
      (kind = .declaration → Text.isBlankText blocks.body = true ∧
        hasOperationBlocks blocks = false) ∧
      findings =
        blockFindings path kind blocks ++
          [.definition (blockDefinition path kind config blocks)] := by
  rw [readConfigured] at h
  split at h
  · cases h
  · rename_i kind hkind
    split at h
    · cases h
    · rename_i config hconfig
      split at h
      · cases h
      · rename_i hbodiless
        cases h
        refine ⟨kind, config, hkind, hconfig, fun hdeclaration => ?_, rfl⟩
        simpa [hdeclaration] using hbodiless

theorem yields_readConfigured {path : String} {blocks : Blocks} {value : Json}
    {findings : List Finding}
    (h : readConfigured path blocks value = .ok findings) :
    BlocksYield path blocks findings := by
  obtain ⟨kind, config, hkind, hconfig, hbody, rfl⟩ :=
    defined_of_readConfigured h
  exact .defined hkind hconfig hbody

theorem yields_readBlocks {context : Context} {path : String} {blocks : Blocks}
    {findings : List Finding}
    (h : (readBlocks context path blocks).findings = .ok findings) :
    BlocksYield path blocks findings := by
  rw [readBlocks] at h
  split at h
  · dsimp only [Reading.plain] at h
    exact yields_readConfigured h
  · split at h
    · dsimp only [Reading.plain] at h
      exact yields_readConfigured h
    · dsimp only at h
      split at h
      · exact yields_readConfigured h
      · cases h
        exact .failed _

/-- The definition that an entry of a definition script makes. -/
def ScriptEntry.definition (path : String) (verb : Verb)
    (config : Action.Config) (name : String)
    (entry : ScriptEntry) : Definition where
  fileName := path
  config := config
  defaultName := name
  content := .sql (entry.templates verb) true none

/-- What an entry of a definition script yields. A declaration has neither a
query nor queries. -/
inductive ScriptEntry.Yields (path : String) (verb : Verb)
    (entry : ScriptEntry) : Finding → Prop
  | defined {index : Nat} {value : Json} {kind : Kind} {config : Action.Config}
      {name : String}
      (hkind : ScriptEntry.kind path index verb value = .ok kind)
      (hconfig : Action.normalize value kind .script path = .ok config)
      (hbody : verb = .declare → entry.query = none ∧ entry.queries = none) :
      Yields path verb entry
        (.definition (entry.definition path verb config name))

/-- An entry of a definition script, if it is not refused, makes one definition,
whose config has a name. -/
theorem ScriptEntry.defined_of_read {path : String} {index : Nat} {verb : Verb}
    {entry : ScriptEntry} {finding : Finding}
    (h : entry.read path index verb = .ok finding) :
    ∃ members kind config name, entry.configMembers? = some members ∧
      ScriptEntry.kind path index verb (.object members) = .ok kind ∧
      Action.normalize (.object members) kind .script path = .ok config ∧
      (config.name = some name ∧ name ≠ "") ∧
      (verb = .declare → entry.query = none ∧ entry.queries = none) ∧
      finding = .definition (entry.definition path verb config name) := by
  rw [read] at h
  split at h
  · cases h
  · rename_i members hmembers
    split at h
    · cases h
    · rename_i kind hkind
      split at h
      · cases h
      · rename_i config hconfig
        split at h
        · cases h
        · cases h
        · split at h
          · cases h
          · rename_i name hne hname hbodiless
            cases h
            refine ⟨members, kind, config, name, hmembers, hkind, hconfig,
              ⟨hname, hne⟩, ?_, rfl⟩
            intro hdeclare
            simpa [hdeclare] using hbodiless

theorem ScriptEntry.yields_read {path : String} {index : Nat} {verb : Verb}
    {entry : ScriptEntry} {finding : Finding}
    (h : entry.read path index verb = .ok finding) :
    entry.Yields path verb finding := by
  obtain ⟨members, kind, config, name, -, hkind, hconfig, -, hbody, rfl⟩ :=
    defined_of_read h
  exact .defined hkind hconfig hbody

/-- A definition script yields one finding for each entry. -/
theorem yields_readEntries {path : String} {index : Nat}
    {entries : List (Verb × ScriptEntry)} {findings : List Finding}
    (h : readEntries path index entries = .ok findings) :
    List.Forall₂ (fun entry finding => entry.2.Yields path entry.1 finding)
      entries findings := by
  induction entries generalizing index findings with
  | nil =>
    cases h
    exact .nil
  | cons first rest ih =>
    rw [readEntries] at h
    split at h
    · cases h
    · rename_i finding hfinding
      obtain ⟨others, hrest, rfl⟩ := Text.exists_of_map_eq_ok h
      exact .cons (ScriptEntry.yields_read hfinding) (ih hrest)

/-- What a definition script yields: the message with which it failed, or one
finding for each entry. -/
inductive ScriptYields (context : Context)
    (path text : String) : List Finding → Prop
  | failed {message : String}
      (hfailed : context.evaluator (definitionRequest context path text) =
        .error message) :
      ScriptYields context path text [.ofFile path message]
  | defined {value : Json} {entries : List (Verb × ScriptEntry)}
      {findings : List Finding}
      (hvalue :
        context.evaluator (definitionRequest context path text) = .ok value)
      (hentries : Json.Decode.list ScriptEntry.decode value = .ok entries)
      (hfindings : List.Forall₂ (fun entry finding =>
        entry.2.Yields path entry.1 finding) entries findings) :
      ScriptYields context path text findings

theorem yields_readScriptFile {context : Context} {path text : String}
    {findings : List Finding}
    (h : (readScriptFile context path text).findings = .ok findings) :
    ScriptYields context path text findings := by
  rw [readScriptFile] at h
  split at h
  · rename_i message hfailed
    cases h
    exact .failed hfailed
  · rename_i value hvalue
    dsimp only at h
    rw [readScriptValue] at h
    split at h
    · cases h
    · rename_i entries hentries
      exact .defined hvalue hentries (yields_readEntries h)

/-- What an entry of a listing yields: a declaration belongs to the listing, and
all others to the file that they refer to. -/
inductive EntryYields (files : Dictionary String) (path : String)
    (entry : Json) : List Finding → Prop
  | declaration {value : Json} {config : Action.Config}
      (hentry : entryConfig path entry = .ok (.declaration, value))
      (hconfig :
        Action.normalize value .declaration .listing path = .ok config) :
      EntryYields files path entry
        [.definition ⟨path, config, config.name.getD "", .nothing⟩]
  | referring {kind : Kind} {value : Json} {config : Action.Config}
      {name contents : String}
      (hentry : entryConfig path entry = .ok (kind, value))
      (hkind : kind ≠ .declaration)
      (hconfig : Action.normalize value kind .listing path = .ok config)
      (hname : config.filename = some name)
      (hfile : Dictionary.get? files (Project.resolveRelative path name) =
        some contents) :
      EntryYields files path entry ((contentOf kind
        (Project.resolveRelative path name) contents).1 ++ [.definition
            { fileName := Project.resolveRelative path name
              config := config
              defaultName := Sqlx.actionName (Project.resolveRelative path name)
              content := (contentOf kind (Project.resolveRelative path name)
                contents).2 }])

theorem yields_readEntry {context : Context} {path : String} {entry : Json}
    {findings : List Finding}
    (h : readEntry context path entry = .ok findings) :
    EntryYields context.files path entry findings := by
  rw [readEntry] at h
  split at h
  · cases h
  · rename_i kind value hentry
    split at h
    · cases h
    · rename_i config hconfig
      rw [readConfig] at h
      split at h
      · rename_i hdeclaration
        subst hdeclaration
        cases h
        exact .declaration hentry hconfig
      · rename_i hkind
        split at h
        · cases h
        · rename_i name hname
          dsimp only at h
          split at h
          · cases h
          · rename_i contents hfile
            cases h
            exact .referring hentry hkind hconfig hname hfile

section Sound

variable {path : String} {d : Definition}

theorem suits_templatesOf {kind : Kind}
    (h : kind ≠ .notebook ∧ kind ≠ .dataPreparation) (blocks : Blocks)
    (interpolate : Bool) (script : Option String) :
    (Content.sql (templatesOf kind blocks) interpolate script).Suits
      kind.variant := by
  cases kind with
  | table | view | incremental => exact .table _ _ _ _ _ _
  | operation => exact .operation _ _ _
  | assertion => exact .assertion _ _ _
  | declaration => exact .withoutSql _ _
  | notebook => cases h.1 rfl
  | dataPreparation => cases h.2 rfl

/-- All that holds of a definition which a SQL-template file with given blocks
yields. -/
structure BlocksDefine (path : String) (blocks : Blocks) (d : Definition)
    (findings : List Finding) : Prop where
  definition : d = blockDefinition path d.config.kind d.config blocks
  findings : findings =
    blockFindings path d.config.kind blocks ++ [.definition d]
  kind : d.config.kind ≠ .notebook ∧ d.config.kind ≠ .dataPreparation
  bodiless : d.config.kind = .declaration →
    Text.isBlankText blocks.body = true ∧ hasOperationBlocks blocks = false
  sound : d.Sound

/-- A SQL-template file defines just the action of its config. -/
theorem BlocksYield.of_mem {blocks : Blocks} {findings : List Finding}
    (h : BlocksYield path blocks findings) (hd : .definition d ∈ findings) :
    BlocksDefine path blocks d findings := by
  cases h with
  | failed => cases hd with | tail _ hnone => cases hnone
  | @defined value kind config hkind hconfig hbody =>
    rcases List.mem_append.1 hd with hdiagnostic | hdefined
    · rw [blockFindings] at hdiagnostic
      split at hdiagnostic
      · cases hdiagnostic with | tail _ hnone => cases hnone
      · cases hdiagnostic
    · cases List.mem_singleton.1 hdefined
      obtain ⟨rfl, hdetails⟩ := Action.kind_of_normalize hconfig
      have hnamed := Kind.of_ofConfig hkind
      exact ⟨rfl, rfl, hnamed, hbody, hdetails,
        suits_templatesOf hnamed blocks true blocks.script⟩

/-- The kind of an entry of a script has the variant of the verb. -/
theorem ScriptEntry.suits_templates {index : Nat} {verb : Verb} {value : Json}
    {kind : Kind} (h : ScriptEntry.kind path index verb value = .ok kind)
    (entry : ScriptEntry) (interpolate : Bool) (script : Option String) :
    (Content.sql (entry.templates verb) interpolate script).Suits
      kind.variant := by
  cases verb with
  | publish =>
    rw [ScriptEntry.kind] at h
    split at h
    · cases h
    · split at h
      · rename_i hlike
        cases h
        cases kind <;> cases hlike <;> exact .table _ _ _ _ _ _
      · cases h
  | operate => cases h; exact .operation _ _ _
  | assert => cases h; exact .assertion _ _ _
  | declare => cases h; exact .withoutSql _ _

theorem ScriptEntry.Yields.sound {verb : Verb} {entry : ScriptEntry}
    (h : entry.Yields path verb (.definition d)) : d.Sound := by
  cases h with
  | defined hkind hconfig =>
    obtain ⟨rfl, hdetails⟩ := Action.kind_of_normalize hconfig
    exact ⟨hdetails, entry.suits_templates hkind true none⟩

theorem ScriptYields.sound {context : Context} {text : String}
    {findings : List Finding} (h : ScriptYields context path text findings)
    (hd : .definition d ∈ findings) : d.Sound := by
  cases h with
  | failed => cases hd with | tail _ hnone => cases hnone
  | @defined value entries findings _ _ hfindings =>
    obtain ⟨place, hplace, hget⟩ := List.mem_iff_getElem.1 hd
    have hyields := hfindings.get (hfindings.length_eq ▸ hplace) hplace
    rw [List.get_eq_getElem, List.get_eq_getElem, hget] at hyields
    exact hyields.sound

theorem suits_contentOf {kind : Kind} (h : kind ≠ .declaration)
    (file contents : String) :
    (contentOf kind file contents).2.Suits kind.variant := by
  cases kind with
  | table | view | incremental => exact .table _ _ _ _ _ _
  | operation => exact .operation _ _ _
  | assertion => exact .assertion _ _ _
  | declaration => cases h rfl
  | notebook =>
    rw [contentOf]
    cases notebookText contents <;> exact .notebook _
  | dataPreparation => exact .dataPreparation _

theorem EntryYields.sound {files : Dictionary String} {entry : Json}
    {findings : List Finding} (h : EntryYields files path entry findings)
    (hd : .definition d ∈ findings) : d.Sound := by
  cases h with
  | declaration hentry hconfig =>
    cases List.mem_singleton.1 hd
    obtain ⟨hkind, hdetails⟩ := Action.kind_of_normalize hconfig
    exact ⟨by rwa [hkind], by dsimp only; rw [hkind]; exact .declaration⟩
  | @referring kind value config name contents hentry hkind hconfig
    hname hfile =>
    rcases List.mem_append.1 hd with hdiagnostic | hdefined
    · have houtline :=
        outline_contentOf kind (Project.resolveRelative path name) contents
      rw [outline, List.filterMap_eq_nil_iff] at houtline
      cases houtline _ hdiagnostic
    · cases List.mem_singleton.1 hdefined
      obtain ⟨rfl, hdetails⟩ := Action.kind_of_normalize hconfig
      exact ⟨hdetails, suits_contentOf hkind _ contents⟩

/-- What a file defines is sound, whatever form the file has. -/
theorem sound_of_readFile {context : Context} {file : String × String}
    {findings : List Finding}
    (h : (readFile context file).findings = .ok findings)
    (hd : .definition d ∈ findings) : d.Sound := by
  rw [readFile] at h
  split at h
  · rw [readSqlFile] at h
    split at h
    · cases h
      cases hd with | tail _ hnone => cases hnone
    · exact ((yields_readBlocks h).of_mem hd).sound
  · exact (yields_readScriptFile h).sound hd
  · dsimp only [readListing, Reading.plain] at h
    rw [listedFindings] at h
    split at h
    · cases h
    · cases h
    · obtain ⟨entry, -, own, hown, hmem⟩ := exists_of_mem_collect h hd
      exact (yields_readEntry hown).sound hmem
  · cases h
    cases hd

end Sound

namespace Compilation

variable {files : Project.Files} {evaluator : Script.Evaluator}
  {options : Options} {graph : Graph}
  {c : Compilation files evaluator options graph} {d : Definition}
  {action : Action}

theorem sound_of_finding (h : .definition d ∈ c.findings) : d.Sound := by
  obtain ⟨file, -, own, hown, hd⟩ := exists_of_mem_collect c.collect_eq h
  exact sound_of_readFile hown hd

variable (c d) in
/-- The SQL that a template of a definition is compiled to, in one of the two
modes. -/
def text (rendering : Bool × String) : String :=
  (Link.scopeOf c.registry (surroundings c.context) (d.entry c.settings)).text
    d.pending.interpolate rendering

/-- The action for a definition has all that its kind calls for, and its
templates are written into it. -/
theorem HasAction.written (h : c.HasAction d action) :
    action.variant = d.config.kind.variant ∧
      (Link.isIncremental action.body = true ↔ d.config.kind = .incremental) ∧
        Link.Written (c.text d) d.pending.templates action.body := by
  have hsound := sound_of_finding h.finding_mem
  have hkeeps := Link.keeps_linkEntry c.registry (surroundings c.context)
    (d.entry c.settings)
  have hbody : (c.outcome (d.entry c.settings)).action.body.withoutSql =
      (d.action c.settings).body.withoutSql :=
    congrArg Action.body hkeeps.lasting
  rw [h.eq_outcome]
  refine ⟨?_, ?_, ?_⟩
  · exact (c.variant_outcome _).trans (hsound.fits c.settings).2
  · rw [← hsound.isIncremental_body c.settings, ← Link.isIncremental_withoutSql,
      hbody, Link.isIncremental_withoutSql]
  · exact Link.written_linkEntry c.registry (surroundings c.context)
      (hsound.fits c.settings).1

end Compilation

end Compile

end SqlWorkflow
