import SqlWorkflow.Compile.Basic
import SqlWorkflow.Proofs.Compile.Readings

/-!
# One project in several environments

The environments of a project differ in the overrides of a run, and in the
suffixes and the prefix that the settings file gives. With a script runtime that
ignores the configuration, the project can be compiled in all of them or in
none, and the canonical targets of the actions are the same.
-/

namespace SqlWorkflow.Compile

def isSettingsFile (path : String) : Bool :=
  path = Settings.workflowFile ∨ path = Settings.legacyFile

/-- Two environments of one project. The settings agree but for suffixes and
prefix, or cannot be read for the same reason; all other files are the same. -/
structure SameProject (files others : Project.Files) : Prop where
  settings : (Settings.ofFiles files).map (·.canonical) =
    (Settings.ofFiles others).map (·.canonical)
  sources : files.filter (!isSettingsFile ·.1) =
    others.filter (!isSettingsFile ·.1)

/-- Where a listing refers to a settings file, as it may refer to any other,
both environments have that file, or neither has it. -/
def ReferAlike (files others : Project.Files) : Prop :=
  ∀ path, isSettingsFile path = true → RefersTo files path →
    HaveAlike files others path

/-- Two runs that both end with the same fatal error, or both with a graph,
where the canonical targets of the graphs are the same, variant by variant and
in order. -/
def SameTargets (run other : Except CompileError Graph) : Prop :=
  (∃ error, run = .error error ∧ other = .error error) ∨
    ∃ graph graph', run = .ok graph ∧ other = .ok graph' ∧
      ∀ variant,
        graph.canonicalTargets variant = graph'.canonicalTargets variant

/-- A project is the same in all runs, whatever these override. -/
theorem SameProject.refl (files : Project.Files) : SameProject files files :=
  ⟨rfl, rfl⟩

theorem isSome_get? (files : Project.Files) (file : String) :
    (Dictionary.get? files file).isSome =
      decide (file ∈ files.map Prod.fst) := by
  induction files with
  | nil => rfl
  | cons first rest ih =>
    rw [Dictionary.get?, List.map_cons]
    by_cases h : first.1 = file
    · simp [h]
    · rw [if_neg h, ih, decide_eq_decide, List.mem_cons,
        or_iff_right (Ne.symm h)]

theorem haveAlike_iff {files others : Project.Files} {file : String} :
    HaveAlike files others file ↔
      (file ∈ files.map Prod.fst ↔ file ∈ others.map Prod.fst) := by
  rw [HaveAlike, isSome_get?, isSome_get?, decide_eq_decide]

/-- Environments with the same paths have every file alike. -/
theorem ReferAlike.of_paths {files others : Project.Files}
    (hpaths : files.map Prod.fst = others.map Prod.fst) :
    ReferAlike files others :=
  fun _ _ _ => haveAlike_iff.2 (by rw [hpaths])

theorem mem_paths_sources {files : Project.Files} {file : String}
    (hsource : isSettingsFile file = false) :
    file ∈ (files.filter (!isSettingsFile ·.1)).map Prod.fst ↔
      file ∈ files.map Prod.fst := by
  simp only [List.mem_map, List.mem_filter]
  constructor
  · rintro ⟨entry, ⟨hentry, -⟩, hpath⟩
    exact ⟨entry, hentry, hpath⟩
  · rintro ⟨entry, hentry, rfl⟩
    exact ⟨entry, ⟨hentry, by rw [hsource]; rfl⟩, rfl⟩

/-- Two results that look alike are both errors, or both values. -/
theorem both_of_map_eq {α β γ : Type} {result : Except CompileError α}
    {other : Except CompileError β} {f : α → γ} {g : β → γ}
    (h : result.map f = other.map g) :
    (∃ error, result = .error error ∧ other = .error error) ∨
      ∃ a b, result = .ok a ∧ other = .ok b ∧ f a = g b := by
  cases result with
  | error e =>
    cases other with
    | error e' =>
      cases h
      exact Or.inl ⟨e, rfl, rfl⟩
    | ok b => cases h
  | ok a =>
    cases other with
    | error e' => cases h
    | ok b => exact Or.inr ⟨a, b, rfl, rfl, Except.ok.inj h⟩

/-- A settings file does not lie among the definitions. -/
theorem readFile_of_isSettingsFile (context : Context) {file : String × String}
    (h : isSettingsFile file.1) : readFile context file = .plain (.ok []) := by
  have hkind : SourceKind.of file.1 = .referenced := by
    rw [isSettingsFile, decide_eq_true_iff] at h
    rcases h with h | h <;> rw [h] <;> decide +kernel
  rw [readFile, hkind]

theorem findings_readFiles (context : Context) :
    (readFiles context).findings =
      collect (fun file => (readFile context file).findings)
        (context.files.filter (!isSettingsFile ·.1)) := by
  rw [readFiles, findings_all]
  apply Eq.symm
  apply collect_filter
  intro file _ hsettings
  rw [readFile_of_isSettingsFile context (by simpa using hsettings)]
  rfl

/-- A settings file is no shared script. -/
theorem includesOf_filter (files : Project.Files) :
    includesOf (files.filter (!isSettingsFile ·.1)) = includesOf files := by
  rw [includesOf, includesOf, List.filter_filter]
  apply List.filter_congr
  intro file _
  by_cases h : isSettingsFile file.1
  · have hinclude : isInclude file.1 = false := by
      rw [isSettingsFile, decide_eq_true_iff] at h
      rcases h with h | h <;> rw [h] <;> decide +kernel
    simp [hinclude]
  · simp [h]

/-- The canonical settings are those that the settings file gives, whatever is
overridden. -/
theorem map_canonical_load (files : Project.Files)
    (override : Settings.Override) (version : String) :
    (Settings.load files override version).map (·.canonical) =
      match (Settings.ofFiles files).map (·.canonical) with
      | .error e => .error e
      | .ok canonical =>
        (Settings.checkVersion canonical version).map fun () => canonical := by
  rw [Settings.load]
  cases Settings.ofFiles files with
  | error e => rfl
  | ok config =>
    change _ = (Settings.checkVersion config version).map _
    dsimp only
    cases Settings.checkVersion config version <;> rfl

namespace SameProject

variable {files others : Project.Files} {evaluator : Script.Evaluator}

theorem contextOf_eq (h : SameProject files others)
    (settings other : Settings.Pair) :
    contextOf others evaluator other =
      (contextOf files evaluator settings).elsewhere others other.active := by
  have hincludes : includesOf others = includesOf files := by
    rw [← includesOf_filter others, ← h.sources, includesOf_filter]
  rw [contextOf, hincludes]
  rfl

/-- All files that a listing refers to are in both environments, or in neither:
those that are not settings files are the same in both. -/
theorem haveAlike (h : SameProject files others)
    (halike : ReferAlike files others) {file : String}
    (hrefers : RefersTo files file) : HaveAlike files others file := by
  cases hsettings : isSettingsFile file with
  | true => exact halike file hsettings hrefers
  | false =>
    rw [haveAlike_iff, ← mem_paths_sources hsettings, h.sources,
      mem_paths_sources hsettings]

/-- The files of a project yield the same definitions in both environments, or
the same fatal error. -/
theorem outline_readFiles (h : SameProject files others)
    (halike : ReferAlike files others)
    (hignores : Script.IgnoresConfig evaluator)
    (settings other : Settings.Pair) :
    (readFiles (contextOf others evaluator other)).findings.map outline =
      (readFiles (contextOf files evaluator settings)).findings.map
        outline := by
  rw [findings_readFiles, findings_readFiles, h.contextOf_eq settings other]
  change (collect _ (others.filter _)).map outline =
    (collect _ (files.filter _)).map outline
  rw [← h.sources]
  apply outline_collect
  intro file hfile
  exact outline_readFile others other.active hignores
    (List.mem_of_mem_filter hfile) fun _ hrefers => h.haveAlike halike hrefers

end SameProject

/-- What identifies the actions of a compiled graph follows from the outline of
the project and the canonical settings. -/
theorem identities_compile (files : Project.Files)
    (evaluator : Script.Evaluator) (options : Options) :
    (compile files evaluator options).result.map
      (·.actions.map Action.identity) =
      match Settings.load files options.override options.version with
      | .error e => .error e
      | .ok settings =>
        ((readFiles (contextOf files evaluator settings)).findings.map
          outline).map
          (·.flatMap (Definition.identities settings.canonical)) := by
  rw [compile]
  cases Settings.load files options.override options.version with
  | error e => rfl
  | ok settings =>
    simp only [withSettings]
    cases (readFiles (contextOf files evaluator settings)).findings with
    | error e => rfl
    | ok findings =>
      exact congrArg Except.ok (identities_finish _ _ settings findings)

theorem SameProject.identities_compile_eq {files others : Project.Files}
    (h : SameProject files others) (halike : ReferAlike files others)
    {evaluator : Script.Evaluator} (hignores : Script.IgnoresConfig evaluator)
    (override other : Settings.Override) (version : String) :
    (compile files evaluator ⟨override, version⟩).result.map
      (·.actions.map Action.identity) =
      (compile others evaluator ⟨other, version⟩).result.map
        (·.actions.map Action.identity) := by
  have hload : (Settings.load files override version).map (·.canonical) =
      (Settings.load others other version).map (·.canonical) := by
    rw [map_canonical_load, map_canonical_load, h.settings]
  rw [identities_compile, identities_compile]
  rcases both_of_map_eq hload with
    ⟨error, hfiles, hothers⟩ | ⟨settings, settings', hfiles, hothers,
      hcanonical⟩
  · rw [hfiles, hothers]
  · rw [hfiles, hothers]
    dsimp only
    rw [h.outline_readFiles halike hignores settings settings', hcanonical]

theorem SameProject.sameTargets_compile {files others : Project.Files}
    (h : SameProject files others) (halike : ReferAlike files others)
    {evaluator : Script.Evaluator} (hignores : Script.IgnoresConfig evaluator)
    (override other : Settings.Override) (version : String) :
    SameTargets (compile files evaluator ⟨override, version⟩).result
      (compile others evaluator ⟨other, version⟩).result := by
  rcases both_of_map_eq
      (h.identities_compile_eq halike hignores override other version) with
    hfatal | ⟨graph, graph', hfiles, hothers, hidentities⟩
  · exact Or.inl hfatal
  · refine Or.inr ⟨graph, graph', hfiles, hothers, ?_⟩
    intro variant
    rw [Graph.canonicalTargets_eq, Graph.canonicalTargets_eq, hidentities]

/-- The canonical targets do not depend on the environment. With a script
runtime that ignores the configuration, a project can be compiled in all
environments or in none, whatever is overridden; and the graphs have the same
canonical targets, variant by variant and in order. This holds of any two
settings files with one path. Where the settings move to another path, it holds
as long as no listing refers to a settings file that only one of the
environments has. -/
theorem canonicalTargets_compile {files others : Project.Files}
    (h : SameProject files others) {evaluator : Script.Evaluator}
    (hignores : Script.IgnoresConfig evaluator)
    (override other : Settings.Override) (version : String) :
    (files.map Prod.fst = others.map Prod.fst →
      SameTargets (compile files evaluator ⟨override, version⟩).result
        (compile others evaluator ⟨other, version⟩).result) ∧
    (ReferAlike files others →
      SameTargets (compile files evaluator ⟨override, version⟩).result
        (compile others evaluator ⟨other, version⟩).result) := by
  have hsame (halike : ReferAlike files others) :=
    h.sameTargets_compile halike hignores override other version
  exact ⟨fun hpaths => hsame (.of_paths hpaths), hsame⟩

/-- A table with a key that is checked. -/
def orders : String × String :=
  ("definitions/orders.sqlx",
    "config \x7b type: \"table\", assertions: \x7b uniqueKey: [\"id\"] \x7d" ++
      " \x7d\nSELECT 1 AS id")

/-- The table, and an operation that is compiled from the settings file. -/
def shopWith (settings : String) : Project.Files :=
  [("definitions/actions.yaml",
      "actions:\n- operation:\n    filename: ../workflow_settings.yaml\n"),
    orders, ("workflow_settings.yaml", settings)]

def development : Project.Files :=
  shopWith "defaultDataset: shop\ndatasetSuffix: dev\nnamePrefix: test\n"

def production : Project.Files := shopWith "defaultDataset: shop\n"

/-- The table alone, with settings that have two forms. -/
def stall : Project.Files :=
  [orders, ("workflow_settings.yaml", "defaultDataset: shop\n")]

def legacyStall : Project.Files :=
  [("dataform.json", "\x7b\"defaultSchema\": \"shop\"\x7d"), orders]

/-- Another database and another schema for assertions. -/
def relocated : Settings.Override :=
  { Settings.Override.empty with
    defaultDatabase := some "sandbox", assertionSchema := some "checks" }

/-- The canonical settings of an environment of the shop. -/
def shopSettings : Settings.Config :=
  { Settings.Config.empty with defaultSchema := some "shop" }

theorem canonical_eq_shopSettings {files : Project.Files}
    (h : (Settings.ofFiles files).toOption.map (·.canonical) =
      some shopSettings) :
    (Settings.ofFiles files).map (·.canonical) = .ok shopSettings := by
  cases hfiles : Settings.ofFiles files with
  | error e =>
    rw [hfiles] at h
    cases h
  | ok config =>
    rw [hfiles] at h
    exact congrArg Except.ok (Option.some.inj h)

theorem sameProject_development : SameProject development production where
  settings := by
    rw [canonical_eq_shopSettings (by decide +kernel),
      canonical_eq_shopSettings (by decide +kernel)]
  sources := by decide +kernel

theorem sameProject_stall : SameProject stall legacyStall where
  settings := by
    rw [canonical_eq_shopSettings (by decide +kernel),
      canonical_eq_shopSettings (by decide +kernel)]
  sources := by decide +kernel

/-- A project without listings refers to no file. -/
theorem referAlike_stall : ReferAlike stall legacyStall := by
  rintro path - ⟨listing, hlisting, hkind, -⟩
  have hnone : ∀ file ∈ stall, SourceKind.of file.1 ≠ .listing := by
    decide +kernel
  exact absurd hkind (hnone listing hlisting)

theorem canonicalTargets_compile_shop :
    SameProject development production ∧
      development.map Prod.fst = production.map Prod.fst ∧
      SameProject stall legacyStall ∧ ReferAlike stall legacyStall ∧
      Script.IgnoresConfig Script.noRuntime ∧
      (∀ override : Settings.Override,
        SameTargets (compile stall Script.noRuntime ⟨.empty, version⟩).result
          (compile legacyStall Script.noRuntime ⟨override, version⟩).result) ∧
      ∃ graph graph',
        (compile development Script.noRuntime ⟨relocated, version⟩).result =
          .ok graph ∧
        (compile production Script.noRuntime ⟨.empty, version⟩).result =
          .ok graph' ∧
        graph.canonicalTargets .assertion =
          [⟨none, some "dataform_assertions",
            "shop_orders_assertions_uniqueKey_0"⟩] ∧
        (∀ variant, graph.canonicalTargets variant =
          graph'.canonicalTargets variant) ∧
        ∀ override : Settings.Override, ∃ other : Graph,
          (compile production Script.noRuntime ⟨override, version⟩).result =
            .ok other ∧
          ∀ variant, graph'.canonicalTargets variant =
            other.canonicalTargets variant := by
  have hassertions :
      (compile development Script.noRuntime
        ⟨relocated, version⟩).result.toOption.map
          (·.canonicalTargets .assertion) =
        some [⟨none, some "dataform_assertions",
          "shop_orders_assertions_uniqueKey_0"⟩] := by
    decide +kernel
  have hignores : Script.IgnoresConfig Script.noRuntime := fun _ _ => rfl
  refine ⟨sameProject_development, rfl, sameProject_stall, referAlike_stall,
    hignores, fun override => ?_, ?_⟩
  · exact (canonicalTargets_compile sameProject_stall hignores .empty override
      version).2 referAlike_stall
  rcases (canonicalTargets_compile sameProject_development hignores relocated
      .empty version).1 rfl with
    ⟨error, herror, -⟩ | ⟨graph, graph', hgraph, hgraph', hall⟩
  · rw [herror] at hassertions
    cases hassertions
  · rw [hgraph] at hassertions
    refine ⟨graph, graph', hgraph, hgraph', Option.some.inj hassertions, hall,
      ?_⟩
    intro override
    rcases (canonicalTargets_compile (.refl production) hignores .empty override
        version).1 rfl with
      ⟨error, herror, -⟩ | ⟨same, other, hsame, hother, hall⟩
    · rw [hgraph'] at herror
      cases herror
    · obtain rfl : graph' = same := Except.ok.inj (hgraph'.symm.trans hsame)
      exact ⟨other, hother, hall⟩

end SqlWorkflow.Compile
