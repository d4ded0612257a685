import SqlWorkflow.Proofs.Compile.Definitions

/-!
# The entries of a file

A SQL-template file is one entry if its blocks can be told apart and its config
can be had. A definition script has as many as its value has items, and a
listing as many as it lists. Every entry of a file that is read makes one
definition, from the config that it gives and of the kind that it names, which
belongs to that file or to the one that the entry refers to; no other file has
entries.
-/

namespace SqlWorkflow

namespace Compile

open SqlWorkflow.Action (Kind)
open Sqlx (Blocks lastComponent)

section Paths

variable {name ending before : List Char}

theorem takeWhile_reverse_of_not_mem (h : '/' ∉ ending) (rest : List Char) :
    (ending.reverse ++ rest).takeWhile (· != '/') =
      ending.reverse ++ rest.takeWhile (· != '/') := by
  apply List.takeWhile_append_of_pos
  intro c hc
  rw [bne_iff_ne]
  rintro rfl
  exact h (List.mem_reverse.1 hc)

/-- What follows the last slash of a path is its last component. -/
theorem lastComponent_append (h : '/' ∉ name) :
    lastComponent (before ++ '/' :: name) = name := by
  rw [lastComponent, List.reverse_append, List.reverse_cons, List.append_assoc,
    takeWhile_reverse_of_not_mem h, List.singleton_append,
    List.takeWhile_cons_of_neg (by decide), List.append_nil,
    List.reverse_reverse]

theorem lastComponent_eq_iff {path : List Char} (h : '/' ∉ name)
    (hpath : '/' ∈ path) :
    lastComponent path = name ↔ '/' :: name <:+ path := by
  constructor
  · rintro rfl
    obtain ⟨after, before, hsplit, hafter⟩ :=
      List.eq_append_cons_of_mem (List.mem_reverse.2 hpath)
    have hpath : path = before.reverse ++ '/' :: after.reverse := by
      rw [← List.reverse_reverse path, hsplit]
      simp
    rw [hpath, lastComponent_append (mt List.mem_reverse.1 hafter)]
    exact List.suffix_append _ _
  · rintro ⟨before, rfl⟩
    exact lastComponent_append h

/-- An ending without a slash is that of the path just when it is that of its
last component. -/
theorem suffix_lastComponent_iff {path : List Char} (h : '/' ∉ ending) :
    ending <:+ lastComponent path ↔ ending <:+ path := by
  rw [lastComponent, ← List.reverse_prefix, List.reverse_reverse,
    ← List.reverse_prefix]
  constructor
  · exact fun hprefix => hprefix.trans (List.takeWhile_prefix _)
  · rintro ⟨rest, hrest⟩
    rw [← hrest, takeWhile_reverse_of_not_mem h]
    exact List.prefix_append _ _

end Paths

/-- A path is that of a file among the definitions. -/
def IsDefinition (path : String) : Prop := definitionsDirectory <+: path.toList

/-- A path is that of a file with one of the names of a listing. -/
def NamesListing (path : String) : Prop :=
  "/actions.yaml".toList <:+ path.toList ∨ "/actions.yml".toList <:+ path.toList

instance (path : String) : Decidable (IsDefinition path) :=
  inferInstanceAs (Decidable (definitionsDirectory <+: path.toList))

instance (path : String) : Decidable (NamesListing path) :=
  inferInstanceAs (Decidable (_ ∨ _))

/-- How a file takes part in a compilation can be told from the beginning and
the end of its path. -/
theorem SourceKind.of_eq (path : String) :
    SourceKind.of path =
      if IsDefinition path then
        if NamesListing path then .listing
        else if ".sqlx".toList <:+ path.toList then .sqlTemplate
        else if ".js".toList <:+ path.toList then .script
        else .referenced
      else .referenced := by
  rw [SourceKind.of]
  by_cases hdefinition : IsDefinition path
  · -- The slash of the directory stands before the name, so the name is all
    -- that follows the last one.
    have hslash : '/' ∈ path.toList := hdefinition.subset (by decide)
    have hlisting : (lastComponent path.toList = "actions.yaml".toList ∨
        lastComponent path.toList = "actions.yml".toList) ↔ NamesListing path :=
      or_congr (lastComponent_eq_iff (by decide) hslash)
        (lastComponent_eq_iff (by decide) hslash)
    have hsqlx : ".sqlx".toList.isSuffixOf (lastComponent path.toList) = true ↔
        ".sqlx".toList <:+ path.toList :=
      List.isSuffixOf_iff_suffix.trans (suffix_lastComponent_iff (by decide))
    have hjs : ".js".toList.isSuffixOf (lastComponent path.toList) = true ↔
        ".js".toList <:+ path.toList :=
      List.isSuffixOf_iff_suffix.trans (suffix_lastComponent_iff (by decide))
    have hunder : definitionsDirectory.isPrefixOf path.toList = true :=
      List.isPrefixOf_iff_prefix.2 hdefinition
    simp only [hunder, hlisting, hsqlx, hjs, hdefinition]
    rfl
  · have hother : definitionsDirectory.isPrefixOf path.toList = false :=
      Bool.eq_false_iff.2 (mt List.isPrefixOf_iff_prefix.1 hdefinition)
    rw [if_neg hdefinition, hother]
    rfl

/-- Something in a file that defines an action: the blocks of a SQL-template
file with their config, an item of the value of a definition script, or an item
of a listing. -/
inductive SourceEntry
  | template (blocks : Blocks) (config : Json)
  | built (item : Json)
  | listed (item : Json)

/-- The config that a SQL-template file is given, if it can be had. -/
def blockConfig? (context : Context) (path : String)
    (blocks : Blocks) : Option Json :=
  match blocks.config with
  | none => some (.object [])
  | some content =>
    literalConfig? content <|>
      (context.evaluator (configRequest context path content blocks)).toOption

/-- The entry of a SQL-template file. -/
def template? (context : Context) (path text : String) : Option SourceEntry :=
  (Sqlx.extractBlocks text).toOption.bind fun blocks =>
    (blockConfig? context path blocks).map (.template blocks)

/-- The items of the value of a definition script. -/
def builtItems (context : Context) (path text : String) : List Json :=
  match context.evaluator (definitionRequest context path text) with
  | .ok (.array items) => items
  | _ => []

def listedItems (path text : String) : List Json :=
  (listedEntries path text).toOption.getD []

/-- The entries of a file, in order. -/
def sourceEntries (context : Context) (path text : String) : List SourceEntry :=
  if IsDefinition path then
    if NamesListing path then (listedItems path text).map .listed
    else if ".sqlx".toList <:+ path.toList then
      (template? context path text).toList
    else if ".js".toList <:+ path.toList then
      (builtItems context path text).map .built
    else []
  else []

/-- The kind of action that an entry of a script makes with a config. -/
def Verb.kind? (config : Json) : Verb → Option Kind
  | .publish => (Kind.ofConfig config).toOption
  | .operate => some .operation
  | .assert => some .assertion
  | .declare => some .declaration

namespace SourceEntry

/-- The kind of action that an entry names, with the config that it gives. -/
def config? (path : String) : SourceEntry → Option (Kind × Json)
  | .template _ config => (Kind.ofConfig config).toOption.map (·, config)
  | .built item =>
    (ScriptEntry.decode item).toOption.bind fun (verb, entry) =>
      entry.configMembers?.bind fun members =>
        (verb.kind? (.object members)).map (·, .object members)
  | .listed item => (entryConfig path item).toOption

/-- Where the config of an entry stands. -/
def source : SourceEntry → Action.Source
  | .template _ _ => .block
  | .built _ => .script
  | .listed _ => .listing

/-- The definition that an entry of a listing makes with a config. A declaration
belongs to the listing, and anything else to the file that the config names,
from which it also has its content. -/
def listedDefinition? (files : Project.Files) (path : String)
    (config : Action.Config) : Option Definition :=
  if config.kind = .declaration then
    some ⟨path, config, config.name.getD "", .nothing⟩
  else
    config.filename.bind fun name =>
      let file := Project.resolveRelative path name
      (Dictionary.get? files file).map fun contents =>
        { fileName := file
          config := config
          defaultName := Sqlx.actionName file
          content := (contentOf config.kind file contents).2 }

/-- The definition that an entry makes with a config. In a SQL-template file and
in a definition script it belongs to the file itself. -/
def definition? (files : Project.Files) (path : String)
    (config : Action.Config) : SourceEntry → Option Definition
  | .template blocks _ => some (blockDefinition path config.kind config blocks)
  | .built item =>
    (ScriptEntry.decode item).toOption.bind fun (verb, entry) =>
      config.name.map fun name => entry.definition path verb config name
  | .listed _ => listedDefinition? files path config

/-- An entry makes a definition. The config of the definition is what the one
that the entry gives is read to, for the kind that the entry names; its file,
its name and its content are those of the entry. -/
structure Makes (files : Project.Files) (path : String) (entry : SourceEntry)
    (d : Definition) : Prop where
  config : ∃ value, entry.config? path = some (d.config.kind, value) ∧
    Action.normalize value d.config.kind entry.source path = .ok d.config
  definition : entry.definition? files path d.config = some d

end SourceEntry

open SourceEntry (Makes)

@[simp] theorem definitions_append (findings others : List Finding) :
    definitions (findings ++ others) =
      definitions findings ++ definitions others :=
  List.filterMap_append

theorem definitions_blockFindings (path : String) (kind : Kind)
    (blocks : Blocks) : definitions (blockFindings path kind blocks) = [] := by
  rw [blockFindings]
  split <;> rfl

theorem definitions_contentOf (kind : Kind) (file contents : String) :
    definitions (contentOf kind file contents).1 = [] := by
  cases kind <;> try rfl
  rw [contentOf]
  cases notebookText contents <;> rfl

section Makes

variable {context : Context} {path text : String} {findings : List Finding}

/-- A SQL-template file whose config can be had makes one definition, and
another one makes none. -/
theorem makes_readBlocks {blocks : Blocks}
    (h : (readBlocks context path blocks).findings = .ok findings) :
    List.Forall₂ (Makes context.files path)
      ((blockConfig? context path blocks).map (.template blocks)).toList
      (definitions findings) := by
  have hconfigured {value : Json}
      (hread : readConfigured path blocks value = .ok findings) :
      List.Forall₂ (Makes context.files path) [.template blocks value]
        (definitions findings) := by
    obtain ⟨kind, config, hkind, hconfig, -, rfl⟩ :=
      defined_of_readConfigured hread
    rw [definitions_append, definitions_blockFindings]
    obtain ⟨rfl, -⟩ := Action.kind_of_normalize hconfig
    refine .cons ⟨⟨value, ?_, hconfig⟩, rfl⟩ .nil
    rw [SourceEntry.config?, hkind]
    rfl
  rw [readBlocks] at h
  rw [blockConfig?]
  generalize blocks.config = content? at h ⊢
  cases content? with
  | none => exact hconfigured h
  | some content =>
    dsimp only at h ⊢
    generalize literalConfig? content = literal? at h ⊢
    cases literal? with
    | some value => exact hconfigured h
    | none =>
      dsimp only at h
      generalize context.evaluator
        (configRequest context path content blocks) = answer at h ⊢
      cases answer with
      | ok value => exact hconfigured h
      | error message =>
        cases h
        exact .nil

theorem ScriptEntry.kind?_of_kind {index : Nat} {verb : Verb} {value : Json}
    {kind : Kind} (h : ScriptEntry.kind path index verb value = .ok kind) :
    verb.kind? value = some kind := by
  cases verb with
  | publish =>
    rw [ScriptEntry.kind] at h
    split at h
    · cases h
    · rename_i named hnamed
      split at h
      · cases h
        rw [Verb.kind?, hnamed]
        rfl
      · cases h
  | operate | assert | declare => cases h; rfl

theorem makes_read {index : Nat} {item : Json} {verb : Verb}
    {entry : ScriptEntry} {finding : Finding}
    (hitem : ScriptEntry.decode item = .ok (verb, entry))
    (hread : entry.read path index verb = .ok finding) :
    ∃ d, finding = .definition d ∧
      Makes context.files path (.built item) d := by
  obtain ⟨members, kind, config, name, hmembers, hkind, hconfig, ⟨hname, -⟩, -,
    rfl⟩ := ScriptEntry.defined_of_read hread
  obtain ⟨rfl, -⟩ := Action.kind_of_normalize hconfig
  refine ⟨_, rfl, ⟨.object members, ?_, hconfig⟩, ?_⟩
  · rw [SourceEntry.config?, hitem]
    change entry.configMembers?.bind _ = _
    rw [hmembers]
    change (verb.kind? (.object members)).map _ = _
    rw [ScriptEntry.kind?_of_kind hkind]
    rfl
  · rw [SourceEntry.definition?, hitem]
    change config.name.map _ = _
    rw [hname]
    rfl

theorem makes_readEntries {index : Nat} {items : List Json}
    {entries : List (Verb × ScriptEntry)}
    (hitems : Json.Decode.items ScriptEntry.decode items = .ok entries)
    (hread : readEntries path index entries = .ok findings) :
    List.Forall₂ (Makes context.files path) (items.map .built)
      (definitions findings) := by
  induction items generalizing index entries findings with
  | nil =>
    cases hitems
    cases hread
    exact .nil
  | cons item rest ih =>
    rw [Json.Decode.items] at hitems
    split at hitems
    · cases hitems
    · rename_i first hfirst
      obtain ⟨verb, entry⟩ := first
      obtain ⟨later, hlater, rfl⟩ := Text.exists_of_map_eq_ok hitems
      rw [readEntries] at hread
      split at hread
      · cases hread
      · rename_i finding hfinding
        obtain ⟨others, hothers, rfl⟩ := Text.exists_of_map_eq_ok hread
        obtain ⟨d, rfl, hmakes⟩ := makes_read hfirst hfinding
        exact .cons hmakes (ih hlater hothers)

/-- Each item of the value of a definition script makes one definition. -/
theorem makes_readScriptFile
    (h : (readScriptFile context path text).findings = .ok findings) :
    List.Forall₂ (Makes context.files path)
      ((builtItems context path text).map .built) (definitions findings) := by
  rw [builtItems]
  rw [readScriptFile] at h
  split at h
  · rename_i message hfailed
    rw [hfailed]
    cases h
    exact .nil
  · rename_i value hvalue
    dsimp only at h
    rw [readScriptValue] at h
    split at h
    · cases h
    · rename_i entries hentries
      rw [hvalue]
      cases value with
      | array items => exact makes_readEntries hentries h
      | null | bool | number | string | object => cases hentries

theorem makes_listed {item value : Json} {kind : Kind} {d : Definition}
    (hentry : entryConfig path item = .ok (kind, value))
    (hconfig : Action.normalize value kind .listing path = .ok d.config)
    (hdefinition :
      SourceEntry.listedDefinition? context.files path d.config = some d) :
    Makes context.files path (.listed item) d := by
  have hkind : d.config.kind = kind := (Action.kind_of_normalize hconfig).1
  rw [← hkind] at hentry hconfig
  refine ⟨⟨value, ?_, hconfig⟩, hdefinition⟩
  rw [SourceEntry.config?, hentry]
  rfl

theorem makes_readEntry {item : Json}
    (h : readEntry context path item = .ok findings) :
    ∃ d, definitions findings = [d] ∧
      Makes context.files path (.listed item) d := by
  cases yields_readEntry h with
  | declaration hentry hconfig =>
    refine ⟨_, rfl, makes_listed hentry hconfig ?_⟩
    exact if_pos (Action.kind_of_normalize hconfig).1
  | @referring kind value config name contents hentry hkind hconfig hname
      hfile =>
    rw [definitions_append, definitions_contentOf]
    obtain ⟨rfl, -⟩ := Action.kind_of_normalize hconfig
    refine ⟨_, rfl, makes_listed hentry hconfig ?_⟩
    rw [SourceEntry.listedDefinition?, if_neg hkind, hname]
    change (Dictionary.get? context.files _).map _ = _
    rw [hfile]
    rfl

theorem makes_collect {items : List Json}
    (h : collect (readEntry context path) items = .ok findings) :
    List.Forall₂ (Makes context.files path) (items.map .listed)
      (definitions findings) := by
  induction items generalizing findings with
  | nil =>
    cases h
    exact .nil
  | cons item rest ih =>
    rw [collect] at h
    split at h
    · cases h
    · rename_i own hown
      obtain ⟨others, hothers, rfl⟩ := Text.exists_of_map_eq_ok h
      obtain ⟨d, hd, hmakes⟩ := makes_readEntry hown
      rw [definitions_append, hd]
      exact .cons hmakes (ih hothers)

/-- Each item of a listing makes one definition. -/
theorem makes_readListing
    (h : (readListing context path text).findings = .ok findings) :
    List.Forall₂ (Makes context.files path)
      ((listedItems path text).map .listed) (definitions findings) := by
  change listedFindings context path text = .ok findings at h
  rw [listedFindings] at h
  split at h
  · cases h
  · cases h
  · rename_i items _ hitems
    rw [listedItems, hitems]
    exact makes_collect h

theorem makes_readSqlFile
    (h : (readSqlFile context path text).findings = .ok findings) :
    List.Forall₂ (Makes context.files path) (template? context path text).toList
      (definitions findings) := by
  rw [template?]
  rw [readSqlFile] at h
  split at h
  · rename_i e hfailed
    rw [hfailed]
    cases h
    exact .nil
  · rename_i blocks hblocks
    rw [hblocks]
    exact makes_readBlocks h

/-- Each entry of a file that is read makes one definition, and there are no
other definitions. -/
theorem makes_readFile {file : String × String}
    (h : (readFile context file).findings = .ok findings) :
    List.Forall₂ (Makes context.files file.1)
      (sourceEntries context file.1 file.2) (definitions findings) := by
  have hnone (hread : (Reading.plain (.ok [])).findings = .ok findings) :
      List.Forall₂ (Makes context.files file.1) [] (definitions findings) := by
    cases hread
    exact .nil
  rw [sourceEntries]
  rw [readFile, SourceKind.of_eq] at h
  by_cases hdefinition : IsDefinition file.1
  · rw [if_pos hdefinition] at h ⊢
    by_cases hlisting : NamesListing file.1
    · rw [if_pos hlisting] at h ⊢
      exact makes_readListing h
    · rw [if_neg hlisting] at h ⊢
      by_cases hsqlx : ".sqlx".toList <:+ file.1.toList
      · rw [if_pos hsqlx] at h ⊢
        exact makes_readSqlFile h
      · rw [if_neg hsqlx] at h ⊢
        by_cases hjs : ".js".toList <:+ file.1.toList
        · rw [if_pos hjs] at h ⊢
          exact makes_readScriptFile h
        · rw [if_neg hjs] at h ⊢
          exact hnone h
  · rw [if_neg hdefinition] at h ⊢
    exact hnone h

end Makes

end Compile

end SqlWorkflow
