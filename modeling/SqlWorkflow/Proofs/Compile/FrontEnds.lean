import SqlWorkflow.Proofs.Action.Names
import SqlWorkflow.Proofs.Compile.ConfigBlock
import SqlWorkflow.Proofs.Compile.Definitions
import SqlWorkflow.Proofs.Link.FileNames

/-!
# Two ways to write a table

A table may be defined by a SQL-template file or published by a definition
script. The two are read by different readers. What they make of the same
config, body and operations is the same table: it is registered and linked in
the same way, and it is refused for the same fault.
-/

namespace SqlWorkflow.Compile

open Link (linkEntry)
open SqlWorkflow.Action (Kind)
open Json (Members)
open Registry (Entry)

/-! ## A definition in another file -/

namespace Definition

/-- A definition in another file, with its name written out. -/
def spelledOut (d : Definition) (fileName : String) : Definition :=
  let name := d.config.name.getD d.defaultName
  { fileName := fileName, config := d.config.named name, defaultName := name,
    content := d.content }

/-- A definition is registered for what it is: its entries go to the end of the
registry, and the diagnostics about its SQL are recorded in the log. -/
structure Registers (d : Definition) : Prop where
  entries : ∀ settings (build : Build),
    (build.define settings d).registry.entries =
      build.registry.entries ++ d.entries settings
  diagnostics : ∀ settings (build : Build),
    (build.define settings d).diagnostics =
      build.diagnostics.recordAll ((Finding.definition d).diagnostics settings)

theorem registers (d : Definition) : d.Registers where
  entries settings build := build.entries_define settings d
  diagnostics _ _ := rfl

/-- Two definitions of one table. They add the same to the registry but for the
file name, and it is linked in the same way wherever the rest of the registry is
the same but for file names. -/
structure SameTable (left right : Definition) : Prop where
  variant : ∀ settings, (left.action settings).variant = .table
  registers_left : left.Registers
  registers_right : right.Registers
  entries : ∀ settings, (left.entries settings).map Entry.unfiled =
    (right.entries settings).map Entry.unfiled
  semicolons : ∀ settings, (Finding.definition right).diagnostics settings =
    ((Finding.definition left).diagnostics settings).map
      ({ · with fileName := some right.fileName })
  registered : ∀ settings (build : Build) (later : List Finding),
    (later.foldl (Build.add settings)
      (build.define settings left)).registry.unfiled =
      (later.foldl (Build.add settings)
        (build.define settings right)).registry.unfiled
  linked : ∀ settings (surroundings : Link.Surroundings),
    Script.IgnoresFileNames surroundings.evaluator →
      ∀ r other : Registry, r.unfiled = other.unfiled →
        (left.entries settings).map
          (fun entry => (linkEntry r surroundings entry).unfiled) =
          (right.entries settings).map fun entry =>
            (linkEntry other surroundings entry).unfiled

variable (d : Definition) (fileName : String)

theorem unfiled_entries (settings : Settings.Pair) :
    (d.entries settings).map Entry.unfiled =
      ((d.spelledOut fileName).entries settings).map Entry.unfiled := by
  simp only [entries, assertions, List.map_cons, List.map_map,
    Registry.assertionsFor]
  rfl

end Definition

/-- The diagnostic about a semicolon is the same in another file. -/
theorem semicolonDiagnostics_inFile (fileName : String) (action : Action)
    (templates : Registry.Templates) :
    semicolonDiagnostics { action with
      fileName := fileName } templates =
      (semicolonDiagnostics action templates).map
        ({ · with fileName := some fileName }) := by
  rw [semicolonDiagnostics, semicolonDiagnostics]
  split
  · rfl
  · rfl

namespace Build

variable (settings : Settings.Pair)

theorem unfiled_define (build : Build) (d : Definition) :
    (build.define settings d).registry.unfiled =
      (build.registry.unfiled.register (d.action settings).unfiled
        d.pending).synthesize settings settings.active.warehouse
        (d.action settings).unfiled d.config.database d.config.checks := by
  simp only [define, Registry.unfiled_synthesize, Registry.unfiled_register]

/-- Registries that differ in file names take in the same findings and differ in
file names still. -/
theorem unfiled_foldl_add {build other : Build}
    (h : build.registry.unfiled = other.registry.unfiled)
    (findings : List Finding) :
    (findings.foldl (add settings) build).registry.unfiled =
      (findings.foldl (add settings) other).registry.unfiled := by
  induction findings generalizing build other with
  | nil => exact h
  | cons finding rest ih =>
    apply ih
    cases finding with
    | diagnostic diagnostic => exact h
    | definition d => simp only [add, unfiled_define, h]

end Build

/-- A table is the same in another file, with its name written out. -/
theorem Definition.sameTable_spelledOut {d : Definition}
    (hvariant : ∀ settings, (d.action settings).variant = .table)
    (fileName : String) : d.SameTable (d.spelledOut fileName) where
  variant := hvariant
  registers_left := d.registers
  registers_right := (d.spelledOut fileName).registers
  entries := d.unfiled_entries fileName
  semicolons settings :=
    semicolonDiagnostics_inFile fileName (d.action settings) d.pending.templates
  registered settings build later := by
    apply Build.unfiled_foldl_add
    rw [Build.unfiled_define, Build.unfiled_define]
    rfl
  linked settings surroundings hignores r other hregistry :=
    Link.map_linkEntry_eq hignores hregistry
      (d.unfiled_entries fileName settings)

/-! ## The two readers -/

/-- What the two readers make of a table: each refuses it for the same fault, or
both define it. -/
inductive SameReading (path scriptPath : String) :
    Except CompileError (List Finding) → Except CompileError Finding → Prop
  | refused (fault : Action.Fault) :
      SameReading path scriptPath (.error (.invalidActionConfig path fault))
        (.error (.invalidActionConfig scriptPath fault))
  | defined {left right : Definition} (hleft : left.fileName = path)
      (hright : right.fileName = scriptPath) (hsame : left.SameTable right) :
      SameReading path scriptPath (.ok [.definition left])
        (.ok (.definition right))

/-- What a definition script returns to publish a table. -/
def publication (name : String) (config : Json) (blocks : Sqlx.Blocks) : Json :=
  .object [("action", .string "publish"), ("name", .string name),
    ("config", config), ("query", .string blocks.body),
    ("preOps", Json.strings blocks.preOperations),
    ("postOps", Json.strings blocks.postOperations)]

namespace ScriptEntry

/-- The entry that publishes a table. -/
def published (name : String) (config : Json)
    (blocks : Sqlx.Blocks) : ScriptEntry where
  verb := some .publish
  name := some name
  config := some config
  query := some blocks.body
  incrementalQuery := none
  preOps := blocks.preOperations
  postOps := blocks.postOperations
  queries := none

theorem decode_publication (name : String) (members : Members)
    (blocks : Sqlx.Blocks) :
    decode (publication name (.object members) blocks) =
      .ok (.publish, published name (.object members) blocks) := by
  have hstring (item : String) : Json.Decode.string (.string item) =
      .ok (id item) := rfl
  have hstrings (items : List String) :
      Json.Decode.list Json.Decode.string (Json.strings items) = .ok items :=
    (Json.Decode.items_map hstring items).trans
      (congrArg Except.ok (List.map_id items))
  have hpre (entry : ScriptEntry) :
      layout.set "preOps" (Json.strings blocks.preOperations) entry =
        .ok { entry with preOps := blocks.preOperations } :=
    congrArg (Except.map _) (hstrings blocks.preOperations)
  have hpost (entry : ScriptEntry) :
      layout.set "postOps" (Json.strings blocks.postOperations) entry =
        .ok { entry with postOps := blocks.postOperations } :=
    congrArg (Except.map _) (hstrings blocks.postOperations)
  have hread : layout.decode (publication name (.object members) blocks) =
      .ok (published name (.object members) blocks) := by
    change layout.readMembers [] empty _ = _
    rw [Json.RecordSchema.readMembers_cons rfl (by decide) rfl,
      Json.RecordSchema.readMembers_cons rfl (by decide) rfl,
      Json.RecordSchema.readMembers_cons rfl (by decide) rfl,
      Json.RecordSchema.readMembers_cons rfl (by decide) rfl,
      Json.RecordSchema.readMembers_cons rfl (by decide) (hpre _),
      Json.RecordSchema.readMembers_cons rfl (by decide) (hpost _)]
    rfl
  simp only [decode, hread, published]

/-- The config of the entry is the config of the file, with the name written
out. -/
theorem exists_configMembers {members : Members} {kind : Kind} {name : String}
    (blocks : Sqlx.Blocks) (hkind : Kind.ofConfig (.object members) = .ok kind)
    (htable : kind.isTableLike = true)
    (hnull : members.get? "name" ≠ some .null) (hname : name ≠ "") :
    ∃ others, (published name (.object members) blocks).configMembers? =
      some others ∧
      Kind.ofConfig (.object others) = .ok kind ∧
      ∀ file, Action.normalize (.object others) kind .script file =
        (Action.normalize (.object members) kind .script file).map fun config =>
          config.named (config.name.getD name) := by
  cases hget : members.get? "name" with
  | none =>
    -- The name of the entry is put into the config, where the file takes it for
    -- the default.
    have hmembers : (published name (.object members) blocks).configMembers? =
        some (members.insert "name" (.string name)) := by
      simp only [configMembers?, published, Option.getD_some, hget]
      rfl
    refine ⟨_, hmembers, (Action.ofConfig_insert_name hget _).trans hkind,
      fun file => ?_⟩
    rw [Action.normalize_insert_name htable hget hname]
    cases hread : Action.normalize (.object members) kind .script file with
    | error e => rfl
    | ok config =>
      obtain ⟨written, hwritten, hconfig, -⟩ :=
        Action.exists_written_of_normalize hread
      have hunnamed : config.name = none :=
        hconfig.trans (Action.WrittenConfig.name_eq_none hget hwritten)
      simp only [Except.map, hunnamed, Option.getD_none]
  | some value =>
    -- A config with a name keeps it. With null for its name it would be read as
    -- one without, and be refused.
    have hmembers : (published name (.object members) blocks).configMembers? =
        some members := by
      simp only [configMembers?, published, Option.getD_some, hget]
      rfl
    refine ⟨_, hmembers, hkind, fun file => ?_⟩
    cases hread : Action.normalize (.object members) kind .script file with
    | error e => rfl
    | ok config =>
      have hvalue : value ≠ .null :=
        fun heq => hnull (hget.trans (congrArg some heq))
      obtain ⟨written, hwritten, hconfig, -⟩ :=
        Action.exists_written_of_normalize hread
      obtain ⟨own, hown⟩ :=
        Action.WrittenConfig.exists_name hget hvalue hwritten
      have hnamed : config.named own = config := by
        rw [Action.Config.named, ← hown, ← hconfig]
      simp only [Except.map, hconfig, hown, Option.getD_some, hnamed]

end ScriptEntry

/-- A SQL-template file of a table defines it if its config is accepted. -/
theorem readConfigured_of_isTableLike {path : String} {value : Json}
    {kind : Kind} (hkind : Kind.ofConfig value = .ok kind)
    (htable : kind.isTableLike = true) (blocks : Sqlx.Blocks) :
    readConfigured path blocks value =
      (Action.normalize value kind .block path).map fun config =>
        [.definition (blockDefinition path kind config blocks)] := by
  have hblocks : blockFindings path kind blocks = [] := by
    rw [blockFindings, htable]
    rfl
  simp only [readConfigured, hkind, Action.ne_declaration htable, false_and,
    if_false, hblocks, List.nil_append]
  cases Action.normalize value kind .block path with
  | error e => rfl
  | ok config => rfl

/-- A published entry of a table defines it if its config is accepted and has a
name. -/
theorem ScriptEntry.read_publish {path : String} {index : Nat}
    {entry : ScriptEntry} {members : Members} {kind : Kind}
    (hmembers : entry.configMembers? = some members)
    (hkind : Kind.ofConfig (.object members) = .ok kind)
    (htable : kind.isTableLike = true) :
    (∀ e, Action.normalize (.object members) kind .script path = .error e →
      entry.read path index .publish = .error e) ∧
      ∀ config name, Action.normalize (.object members) kind .script path =
        .ok config → name ≠ "" → config.name = some name →
        entry.read path index .publish =
          .ok (.definition (entry.definition path .publish config name)) := by
  simp only [read, hmembers, ScriptEntry.kind, hkind, htable, if_true]
  constructor
  · intro e he
    rw [he]
  · intro config name hconfig hne hname
    rw [hconfig]
    simp only [hname, reduceCtorEq, false_and, if_false]
    rfl

theorem Definition.variant_action {d : Definition}
    (h : d.config.details.variant = .table)
    (settings : Settings.Pair) : (d.action settings).variant = .table := by
  rw [Action.variant, Definition.action, bodyOf.eq_def]
  cases hdetails : d.config.details with
  | table table => rfl
  | operation | assertion | declaration | notebook | dataPreparation =>
    rw [hdetails] at h
    cases h

/-- The table of a file, with the name written out, is the table of the
entry. -/
theorem spelledOut_blockDefinition {kind : Kind}
    (htable : kind.isTableLike = true) {blocks : Sqlx.Blocks}
    (hscript : blocks.script = none) (path scriptPath : String)
    (config : Action.Config) (value : Json) :
    (blockDefinition path kind config blocks).spelledOut scriptPath =
      (ScriptEntry.published (Sqlx.actionName path) value blocks).definition
        scriptPath .publish
        (config.named (config.name.getD (Sqlx.actionName path)))
        (config.name.getD (Sqlx.actionName path)) := by
  have htemplates : templatesOf kind blocks =
      (ScriptEntry.published (Sqlx.actionName path) value blocks).templates
        .publish := by
    cases kind <;> first | rfl | cases htable
  simp only [Definition.spelledOut, blockDefinition, ScriptEntry.definition,
    htemplates, hscript]

theorem sameReading_published {path : String} {blocks : Sqlx.Blocks}
    {members : Members} {kind : Kind} (hscript : blocks.script = none)
    (hkind : Kind.ofConfig (.object members) = .ok kind)
    (htable : kind.isTableLike = true)
    (hnull : members.get? "name" ≠ some .null)
    (hstem : Sqlx.actionName path ≠ "") (scriptPath : String) (index : Nat) :
    SameReading path scriptPath (readConfigured path blocks (.object members))
      ((ScriptEntry.published (Sqlx.actionName path)
        (.object members) blocks).read scriptPath index .publish) := by
  obtain ⟨others, hothers, hkind', hnormalize⟩ :=
    ScriptEntry.exists_configMembers blocks hkind htable hnull hstem
  obtain ⟨result, hresult⟩ :=
    Action.exists_normalize_eq htable (.object members)
  obtain ⟨hrefused, hdefined⟩ := ScriptEntry.read_publish hothers hkind' htable
  have hblock := hresult .block path nofun
  have hentry := (hnormalize scriptPath).trans
    (congrArg (Except.map _) (hresult .script scriptPath nofun))
  rw [readConfigured_of_isTableLike hkind htable, hblock]
  cases result with
  | error fault =>
    rw [hrefused _ hentry]
    exact .refused fault
  | ok config =>
    have hname : config.name.getD (Sqlx.actionName path) ≠ "" := by
      obtain ⟨-, -, -, hne⟩ := Action.exists_written_of_normalize hblock
      cases hconfig : config.name with
      | none => exact hstem
      | some name => exact fun heq => hne (hconfig.trans (congrArg some heq))
    have hvariant (settings : Settings.Pair) :
        ((blockDefinition path kind config blocks).action settings).variant =
          .table := by
      refine Definition.variant_action ?_ settings
      rw [blockDefinition, (Action.kind_of_normalize hblock).2.variant]
      cases kind <;> first | rfl | cases htable
    rw [hdefined _ _ hentry hname rfl,
      ← spelledOut_blockDefinition htable hscript]
    exact .defined rfl rfl (Definition.sameTable_spelledOut hvariant scriptPath)

/-- A table that is written in a SQL-template file and the same table published
by a definition script. The file has no script blocks, and its config is a
literal; the entry has the name of the file, its config, body and operations.
Both are refused for the same fault, or they define the same table. -/
theorem sameReading_publication {path text content : String}
    {blocks : Sqlx.Blocks} {value : Json} {kind : Kind}
    (hextract : Sqlx.extractBlocks text = .ok blocks)
    (hscript : blocks.script = none) (hconfig : blocks.config = some content)
    (hliteral : literalConfig? content = some value)
    (hkind : Kind.ofConfig value = .ok kind) (htable : kind.isTableLike = true)
    (hnull : value.get? "name" ≠ some .null)
    (hstem : Sqlx.actionName path ≠ "") :
    ∃ entry,
      ScriptEntry.decode (publication (Sqlx.actionName path) value blocks) =
        .ok (.publish, entry) ∧
        ∀ context scriptPath index,
          SameReading path scriptPath (readSqlFile context path text).findings
            (entry.read scriptPath index .publish) := by
  -- The braces of the block are those of an object, whatever the literal
  -- between them.
  obtain ⟨members, rfl⟩ : ∃ members, value = .object members := by
    obtain ⟨e, hparse, hvalue⟩ := Option.bind_eq_some_iff.1 hliteral
    obtain ⟨entries, rfl, -⟩ :=
      Expr.exists_object_of_closing? (closing?_config hextract hconfig)
        (eq_ok_of_toOption hparse)
    exact exists_members_of_toJson? hvalue
  refine ⟨_, ScriptEntry.decode_publication _ members blocks,
    fun context scriptPath index => ?_⟩
  have hread : (readSqlFile context path text).findings =
      readConfigured path blocks (.object members) := by
    simp only [readSqlFile, hextract, readBlocks, hconfig, hliteral,
      Reading.plain]
  rw [hread]
  exact sameReading_published hscript hkind htable hnull hstem scriptPath index

/-- The inside of the config block of an incremental table without a name. -/
def dailyConfig : String :=
  "type: 'incremental', assertions: \x7b nonNull: 'day' \x7d"

def dailyText : String :=
  "config \x7b" ++ dailyConfig ++
    "\x7d\npre_operations \x7bSET x = 1\x7d SELECT $\x7bref('t')\x7d;"

def dailyBlocks : Sqlx.Blocks where
  config := some dailyConfig
  script := none
  preOperations := ["SET x = 1"]
  postOperations := []
  body := "\n SELECT $\x7bref('t')\x7d;"

/-- The file of the day and its entry define the same table; neither is
refused. -/
theorem sameReading_publication_daily :
    ∃ value entry, literalConfig? dailyConfig = some value ∧
      ScriptEntry.decode (publication "daily" value dailyBlocks) =
        .ok (.publish, entry) ∧
      ∀ context scriptPath index,
        (readSqlFile context "definitions/daily.sqlx"
          dailyText).findings.toOption.isSome = true ∧
          SameReading "definitions/daily.sqlx" scriptPath
            (readSqlFile context "definitions/daily.sqlx" dailyText).findings
            (entry.read scriptPath index .publish) := by
  have hextract : Sqlx.extractBlocks dailyText = .ok dailyBlocks :=
    eq_ok_of_toOption (by decide +kernel)
  have hstem : Sqlx.actionName "definitions/daily.sqlx" = "daily" := by
    decide +kernel
  have hvalue : (literalConfig? dailyConfig).any (fun value =>
      (Kind.ofConfig value).toOption =
        some .incremental && (value.get? "name").isNone &&
          (readConfigured "definitions/daily.sqlx" dailyBlocks
            value).toOption.isSome) = true := by
    decide +kernel
  cases hliteral : literalConfig? dailyConfig with
  | none =>
    rw [hliteral] at hvalue
    cases hvalue
  | some value =>
    rw [hliteral, Option.any_some, Bool.and_eq_true, Bool.and_eq_true,
      decide_eq_true_iff, Option.isNone_iff_eq_none] at hvalue
    obtain ⟨⟨hkind, hunnamed⟩, haccepted⟩ := hvalue
    have hnull : value.get? "name" ≠ some .null := by
      rw [hunnamed]
      nofun
    have hsame := sameReading_publication hextract rfl rfl hliteral
      (eq_ok_of_toOption hkind) rfl hnull (by rw [hstem]; decide)
    rw [hstem] at hsame
    obtain ⟨entry, hentry, hreading⟩ := hsame
    refine ⟨value, entry, rfl, hentry,
      fun context scriptPath index => ⟨?_, hreading context scriptPath index⟩⟩
    simp only [readSqlFile, hextract, readBlocks, dailyBlocks, hliteral,
      Reading.plain]
    exact haccepted

end SqlWorkflow.Compile
