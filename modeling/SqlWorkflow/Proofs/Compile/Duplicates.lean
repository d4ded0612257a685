import SqlWorkflow.Proofs.Compile.Registered
import SqlWorkflow.Proofs.Registry.Repeated
import SqlWorkflow.Proofs.Target.AssertionNames

/-!
# Which canonical targets a project repeats

The actions that the files of a project define may have different canonical
targets while their assertions for data checks do not. That happens just when
two of them are in one database, have the same joined text of schema and name,
and have a check in common.
-/

namespace SqlWorkflow

open Action.Checks (IsWord)
open Target
  (assertionMark assertionTargets assertionTargets_eq_iff assertionName)

namespace Compile

namespace Definition

variable (settings : Settings.Pair)

/-- The canonical target of the action that a definition defines. -/
def canonical (d : Definition) : Target := (d.action settings).canonical

/-- The canonical target of an assertion for a data check of a definition. -/
def checkCanonical (d : Definition) (word : String) : Target :=
  (assertionTargets settings (d.canonical settings) d.config.database
    word).canonical

/-- The canonical targets of the actions that a definition gives rise to. -/
def canonicals (d : Definition) : List Target :=
  d.canonical settings :: d.config.checks.words.map (d.checkCanonical settings)

/-- The name that a definition gives to its action is without the mark of
assertions for data checks. -/
def Unmarked (d : Definition) : Prop :=
  ¬ assertionMark.toList <:+: d.explicit.name.toList

/-- Two definitions are in one database, have the same joined text, and have a
check in common. -/
structure Clash (d e : Definition) : Prop where
  database : (d.canonical settings).database = (e.canonical settings).database
  stem : (d.canonical settings).stem = (e.canonical settings).stem
  word : ∃ word ∈ d.config.checks.words, word ∈ e.config.checks.words

variable {settings} {d e : Definition} {word word' : String}

theorem map_canonical_entries :
    (d.entries settings).map (·.action.canonical) = d.canonicals settings := by
  have hassertions : (d.assertions settings).map (·.canonical) =
      d.config.checks.words.map (d.checkCanonical settings) := by
    rw [assertions, Registry.assertionsFor, List.map_map,
      ← Action.Checks.map_fst_queries_eq_words, List.map_map]
    rfl
  rw [entries, canonicals, ← hassertions, List.map_cons, List.map_map]
  rfl

/-- An assertion for a data check is in the database of the action that is
checked. -/
theorem database_checkCanonical (d : Definition) (word : String) :
    (d.checkCanonical settings word).database =
      (d.canonical settings).database := rfl

theorem checkCanonical_eq_iff (h : IsWord word) (h' : IsWord word') :
    d.checkCanonical settings word = e.checkCanonical settings word' ↔
      (d.canonical settings).database = (e.canonical settings).database ∧
        (d.canonical settings).stem = (e.canonical settings).stem ∧
        word = word' := by
  rw [← Target.assertionName_eq_iff h h',
    ← Target.withPrefix_inj settings.canonical.tablePrefix]
  constructor
  · intro heq
    refine ⟨?_, congrArg Target.name heq⟩
    rw [← database_checkCanonical d word, heq, database_checkCanonical]
  · rintro ⟨hdatabase, hnames⟩
    exact congrArg₂ (fun database name => (⟨database, _, name⟩ : Target))
      hdatabase hnames

/-- A name without the mark is no name of an assertion for a data check. -/
theorem canonical_ne_checkCanonical (hname : d.Unmarked) :
    d.canonical settings ≠ e.checkCanonical settings word := by
  intro heq
  have hmark := Target.mark_infix_assertionName (e.canonical settings) word
  have hnames : (if roleOf d.config.kind = .declaration then d.explicit.name
      else Target.withPrefix settings.canonical.tablePrefix d.explicit.name) =
      Target.withPrefix settings.canonical.tablePrefix
        (assertionName (e.canonical settings) word) :=
    congrArg Target.name heq
  split at hnames
  · -- A declaration has no prefix, but an assertion with one has the mark in
    -- its name all the same.
    rw [Unmarked, hnames] at hname
    exact hname (hmark.trans (Target.suffix_withPrefix _ _).isInfix)
  · rw [Unmarked, (Target.withPrefix_inj _).1 hnames] at hname
    exact hname hmark

/-- The actions that one definition gives rise to have different canonical
targets. -/
theorem nodup_canonicals (hname : d.Unmarked) :
    (d.canonicals settings).Nodup := by
  rw [canonicals, List.nodup_cons]
  constructor
  · intro hmem
    obtain ⟨word, -, heq⟩ := List.mem_map.1 hmem
    exact canonical_ne_checkCanonical hname heq.symm
  · refine d.config.checks.nodup_words.map_on ?_
    intro word hword word' hword' heq
    exact ((checkCanonical_eq_iff (Action.Checks.isWord_of_mem_words hword)
      (Action.Checks.isWord_of_mem_words hword')).1 heq).2.2

/-- Definitions whose own canonical targets differ share one just when they
clash. -/
theorem disjoint_canonicals_iff
    (hne : d.canonical settings ≠ e.canonical settings) (hd : d.Unmarked)
    (he : e.Unmarked) :
    List.Disjoint (d.canonicals settings) (e.canonicals settings) ↔
      ¬ Clash settings d e := by
  constructor
  · rintro hdisjoint ⟨hdatabase, hstem, word, hword, hword'⟩
    have hsame : d.checkCanonical settings word =
        e.checkCanonical settings word :=
      (checkCanonical_eq_iff (Action.Checks.isWord_of_mem_words hword)
        (Action.Checks.isWord_of_mem_words hword')).2 ⟨hdatabase, hstem, rfl⟩
    refine hdisjoint (List.mem_cons_of_mem _ (List.mem_map_of_mem hword)) ?_
    rw [hsame]
    exact List.mem_cons_of_mem _ (List.mem_map_of_mem hword')
  · intro hclash target htarget htarget'
    rcases List.mem_cons.1 htarget with rfl | hcheck
    · rcases List.mem_cons.1 htarget' with heq | hcheck'
      · exact hne heq
      · obtain ⟨word, -, heq⟩ := List.mem_map.1 hcheck'
        exact canonical_ne_checkCanonical hd heq.symm
    · obtain ⟨word, hword, rfl⟩ := List.mem_map.1 hcheck
      rcases List.mem_cons.1 htarget' with heq | hcheck'
      · exact canonical_ne_checkCanonical he heq.symm
      · obtain ⟨word', hword', heq⟩ := List.mem_map.1 hcheck'
        obtain ⟨hdatabase, hstem, rfl⟩ :=
          (checkCanonical_eq_iff (Action.Checks.isWord_of_mem_words hword')
            (Action.Checks.isWord_of_mem_words hword)).1 heq
        exact hclash ⟨hdatabase.symm, hstem.symm, word', hword, hword'⟩

end Definition

/-- If the actions that the files define have different canonical targets, and
names without the mark, all actions that are registered have different canonical
targets just when no two definitions clash. -/
theorem nodup_canonicals_iff {settings : Settings.Pair} {ds : List Definition}
    (hdistinct : (ds.map (Definition.canonical settings)).Nodup)
    (hnames : ∀ d ∈ ds, d.Unmarked) :
    (ds.flatMap (Definition.canonicals settings)).Nodup ↔
      ds.Pairwise fun d e => ¬ Definition.Clash settings d e := by
  have hpairwise : ds.Pairwise fun d e => d.canonical settings ≠
      e.canonical settings :=
    List.pairwise_map.1 hdistinct
  -- Each definition has different canonical targets of its own, so only those
  -- of two definitions can agree.
  rw [List.nodup_flatMap]
  constructor
  · rintro ⟨-, hdisjoint⟩
    refine (hpairwise.and hdisjoint).imp_of_mem ?_
    rintro d e hd he ⟨hne, hshared⟩
    exact (Definition.disjoint_canonicals_iff hne (hnames d hd) (hnames e he)).1
      hshared
  · intro hclash
    refine ⟨fun d hd => Definition.nodup_canonicals (hnames d hd), ?_⟩
    refine (hpairwise.and hclash).imp_of_mem ?_
    rintro d e hd he ⟨hne, hnone⟩
    exact (Definition.disjoint_canonicals_iff hne (hnames d hd) (hnames e he)).2
      hnone

/-- Definitions with different joined texts do not clash. -/
theorem pairwise_not_clash {settings : Settings.Pair} {ds : List Definition}
    (h : ((ds.map (Definition.canonical settings)).map Target.stem).Nodup) :
    ds.Pairwise fun d e => ¬ Definition.Clash settings d e := by
  rw [List.map_map] at h
  exact (List.pairwise_map.1 h).imp fun hne hclash => hne hclash.stem

section

variable {files : Project.Files} {evaluator : Script.Evaluator}
  {options : Options} {graph : Graph}

namespace Compilation

variable (c : Compilation files evaluator options graph)

/-- What validation finds wrong with the actions together. -/
def validation : List Diagnostic :=
  Graph.validate (Link.linked c.registry (surroundings c.context))
    c.context.config

theorem validation_subset : c.validation ⊆ graph.diagnostics := by
  intro e he
  rw [c.finished]
  exact Diagnostics.mem_recordAll.2 (.inr he)

theorem map_canonical_registry :
    c.registry.actions.map (·.canonical) =
      (definitions c.findings).flatMap (Definition.canonicals c.settings) := by
  rw [Registry.actions, c.entries_registry, List.map_map, List.map_flatMap]
  exact List.flatMap_congr fun d _ => Definition.map_canonical_entries

/-- Validation reports no repeated canonical target just when no two registered
actions have the same one. -/
theorem noDuplicateCanonical_iff :
    (∀ e ∈ c.validation, ∀ target, e.message ≠
      Graph.duplicateCanonicalMessage target) ↔
      ((definitions c.findings).flatMap
        (Definition.canonicals c.settings)).Nodup := by
  rw [validation, Graph.noDuplicateCanonicalMessage_iff,
    ← c.map_canonical_registry]
  exact c.reachable_registry.indexed.duplicateCanonicals_eq_nil_iff
    c.reachable_registry.nodup_canonicalKeys

end Compilation

/-- Assertions for data checks of two actions with the same database of their
own have the same target, and the same canonical target, just when the joined
texts of the actions and the words for the checks are the same. So if the
actions that the files of a project define have different canonical targets, and
names without the mark, no repeated canonical target is reported just when no
two of them clash. -/
theorem assertions_distinct_iff :
    (∀ (settings : Settings.Pair) (parent other : Target)
      (database : Option String) (word word' : String),
      IsWord word → IsWord word' →
        ((assertionTargets settings parent database word).target =
          (assertionTargets settings other database word').target ↔
          parent.stem = other.stem ∧ word = word') ∧
          ((assertionTargets settings parent database word).canonical =
            (assertionTargets settings other database word').canonical ↔
            parent.stem = other.stem ∧ word = word')) ∧
      ∀ (files : Project.Files) (evaluator : Script.Evaluator)
        (options : Options) (graph : Graph),
        (compile files evaluator options).result = .ok graph →
          ∃ c : Compilation files evaluator options graph,
            ((definitions c.findings).map
              (Definition.canonical c.settings)).Nodup →
              (∀ d ∈ definitions c.findings, d.Unmarked) →
              ((∀ e ∈ c.validation,
                ∀ target, e.message ≠ Graph.duplicateCanonicalMessage target) ↔
                (definitions c.findings).Pairwise fun d e =>
                  ¬ Definition.Clash c.settings d e) := by
  refine ⟨fun settings parent other database word word' h h' =>
    assertionTargets_eq_iff settings parent other database h h', ?_⟩
  intro files evaluator options graph hgraph
  obtain ⟨c⟩ := exists_compilation hgraph
  refine ⟨c, ?_⟩
  intro hdistinct hnames
  rw [← nodup_canonicals_iff hdistinct hnames, ← c.noDuplicateCanonical_iff]

end

theorem unmarked_of_names {ds : List Definition} {names : List String}
    (hnames : ds.map (·.explicit.name) = names)
    (hunmarked : ∀ name ∈ names, ¬ assertionMark.toList <:+: name.toList) :
    ∀ d ∈ ds, d.Unmarked := by
  intro d hd
  have hname : d.explicit.name ∈ ds.map (·.explicit.name) :=
    List.mem_map_of_mem hd
  exact hunmarked _ (hnames ▸ hname)

/-- A table in a schema, with a column that must not be null. -/
def shelf (schema name : String) : Json :=
  .object [("action", .string "publish"),
    ("config", .object [("schema", .string schema), ("name", .string name),
      ("assertions", .object [("nonNull", .array [.string "id"])])]),
    ("query", .string "SELECT 1 AS id")]

def shelves : Project.Files :=
  [("definitions/shelves.js", "x"),
    ("workflow_settings.yaml", "defaultLocation: EU\n")]

/-- A script that publishes two tables. -/
def shelvesRuntime (first second : Json) : Script.Evaluator :=
  fun _ => .ok (.array [first, second])

def shelvesContext (first second : Json) : Context :=
  contextOf shelves (shelvesRuntime first second) locatedSettings

def shelvesFindings (first second : Json) : List Finding :=
  (readFiles (shelvesContext first second)).findings.toOption.getD []

def shelvesBuild (first second : Json) : Build :=
  Build.ofFindings locatedSettings (shelvesFindings first second)

def shelvesGraph (first second : Json) : Graph :=
  (finish (shelvesContext first second) version (shelvesBuild first second)).1

theorem loaded_shelves : (Settings.load shelves Options.default.override
    Options.default.version).toOption = some locatedSettings := by
  decide +kernel

/-- The two tables have different joined texts. -/
def apart : Json × Json := (shelf "a" "b_c", shelf "a_b" "d")

/-- The schemas of the two tables end at different underscores of one text. -/
def alike : Json × Json := (shelf "a" "b_c", shelf "a_b" "c")

theorem result_apart :
    (compile shelves (shelvesRuntime apart.1 apart.2) .default).result =
      .ok (shelvesGraph apart.1 apart.2) :=
  result_compile loaded_shelves (by decide +kernel)

theorem definitions_apart :
    (definitions (shelvesFindings apart.1 apart.2)).map
      (Definition.canonical locatedSettings) =
      [⟨none, some "a", "b_c"⟩, ⟨none, some "a_b", "d"⟩] ∧
      (definitions (shelvesFindings apart.1 apart.2)).map (·.explicit.name) =
        ["b_c", "d"] := by
  decide +kernel

theorem assertions_distinct_shelves :
    (assertionTargets locatedSettings
      ⟨none, some "a", "b_c"⟩ none "rowConditions").canonical ≠
      (assertionTargets locatedSettings
        ⟨none, some "a_b", "d"⟩ none "rowConditions").canonical ∧
      ∃ graph : Graph,
        (compile shelves (shelvesRuntime apart.1 apart.2) .default).result =
          .ok graph ∧
      ∃ c : Compilation shelves (shelvesRuntime apart.1 apart.2) .default graph,
        (definitions c.findings).map (Definition.canonical c.settings) =
          [⟨none, some "a", "b_c"⟩, ⟨none, some "a_b", "d"⟩] ∧
          ∀ e ∈ c.validation, ∀ target, e.message ≠
            Graph.duplicateCanonicalMessage target := by
  obtain ⟨htargets, hprojects⟩ := assertions_distinct_iff
  have hcanonical :=
    (htargets locatedSettings ⟨none, some "a", "b_c"⟩ ⟨none, some "a_b", "d"⟩
      none "rowConditions" "rowConditions" .rowConditions .rowConditions).2
  refine ⟨fun heq => absurd (hcanonical.1 heq).1 (by decide), _,
    result_apart, ?_⟩
  obtain ⟨c, hreports⟩ := hprojects _ _ _ _ result_apart
  have hsettings : c.settings = locatedSettings := c.settings_eq loaded_shelves
  have hfindings : c.findings = shelvesFindings apart.1 apart.2 :=
    c.findings_eq loaded_shelves
  obtain ⟨hcanonicals, hnames⟩ := definitions_apart
  rw [← hsettings, ← hfindings] at hcanonicals
  rw [← hfindings] at hnames
  refine ⟨c, hcanonicals, (hreports ?_ ?_).2 (pairwise_not_clash ?_)⟩
  · rw [hcanonicals]
    decide
  · exact unmarked_of_names hnames (by decide)
  · rw [hcanonicals]
    decide

theorem result_alike :
    (compile shelves (shelvesRuntime alike.1 alike.2) .default).result =
      .ok (shelvesGraph alike.1 alike.2) :=
  result_compile loaded_shelves (by decide +kernel)

theorem definitions_alike :
    (definitions (shelvesFindings alike.1 alike.2)).map
      (Definition.canonical locatedSettings) =
      [⟨none, some "a", "b_c"⟩, ⟨none, some "a_b", "c"⟩] ∧
      (definitions (shelvesFindings alike.1 alike.2)).map (·.explicit.name) =
        ["b_c", "c"] := by
  decide +kernel

/-- What is reported of the two assertions. -/
def repeatedCheck : Diagnostic where
  fileName := some "definitions/shelves.js"
  actionName := some "dataform_assertions.a_b_c_assertions_rowConditions"
  message := Graph.duplicateCanonicalMessage
    ⟨none, some "dataform_assertions", "a_b_c_assertions_rowConditions"⟩

theorem repeatedCheck_mem : repeatedCheck ∈ Graph.duplicateDiagnostics
    (Link.linked (shelvesBuild alike.1 alike.2).registry
      (surroundings (shelvesContext alike.1 alike.2))) := by
  decide +kernel

/-- The tables have different canonical targets, but one canonical target is
repeated. -/
theorem assertions_collide :
    (∀ settings : Settings.Pair,
      assertionTargets settings ⟨none, some "a", "b_c"⟩ none "rowConditions" =
      assertionTargets settings ⟨none, some "a_b", "c"⟩ none "rowConditions") ∧
      ∃ graph : Graph,
        (compile shelves (shelvesRuntime alike.1 alike.2) .default).result =
          .ok graph ∧
      ∃ c : Compilation shelves (shelvesRuntime alike.1 alike.2) .default graph,
        ((definitions c.findings).map (Definition.canonical c.settings)).Nodup ∧
          (∀ d ∈ definitions c.findings, d.Unmarked) ∧
          ∃ e ∈ graph.diagnostics, e.message =
            Graph.duplicateCanonicalMessage ⟨none, some "dataform_assertions",
              "a_b_c_assertions_rowConditions"⟩ := by
  refine ⟨?_, _, result_alike, ?_⟩
  · intro settings
    have hname : assertionName ⟨none, some "a", "b_c"⟩ "rowConditions" =
        assertionName ⟨none, some "a_b", "c"⟩ "rowConditions" := by decide
    rw [assertionTargets, hname, ← assertionTargets]
  · obtain ⟨c⟩ := exists_compilation result_alike
    have hsettings : c.settings = locatedSettings :=
      c.settings_eq loaded_shelves
    have hfindings : c.findings = shelvesFindings alike.1 alike.2 :=
      c.findings_eq loaded_shelves
    obtain ⟨hcanonicals, hnames⟩ := definitions_alike
    have hvalidation : c.validation =
        Graph.validate (Link.linked (shelvesBuild alike.1 alike.2).registry
          (surroundings (shelvesContext alike.1 alike.2)))
          locatedSettings.active := by
      rw [Compilation.validation, Compilation.registry, Compilation.build,
        Compilation.context, hsettings, hfindings]
      rfl
    refine ⟨c, ?_, ?_, repeatedCheck, ?_, rfl⟩
    · rw [hfindings, hsettings, hcanonicals]
      decide
    · rw [hfindings]
      exact unmarked_of_names hnames (by decide)
    · apply c.validation_subset
      rw [hvalidation]
      exact List.mem_append_left _ repeatedCheck_mem

end Compile

end SqlWorkflow
