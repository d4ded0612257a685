import SqlWorkflow.Proofs.Action.Checks
import SqlWorkflow.Proofs.Link.Dependencies
import SqlWorkflow.Proofs.Link.Kept

/-!
# The assertions for data checks

The data checks of an action add one assertion for each group of key columns to
the registry, and one more if there are conditions on rows or columns that must
not be null. They come after all that is there, and nothing else changes.
Nothing is left to be done for them: linking takes them as they are, also where
the text of a condition has the look of a placeholder.
-/

namespace SqlWorkflow

namespace Action.Checks

/-- The query looks for combinations of columns that several rows of a table
have. -/
def FindsRepeated (table : String) (columns : List String)
    (query : String) : Prop :=
  query = "SELECT\n  *\nFROM (\n  SELECT\n    " ++ ", ".intercalate columns ++
    ",\n    COUNT(1) AS index_row_count\n  FROM " ++ table ++ "\n  GROUP BY " ++
    ", ".intercalate columns ++ "\n  ) AS data\nWHERE index_row_count > 1"

/-- The query looks for the rows of a table for which a condition does not hold,
and tags them with a text. -/
def FindsRows (table tag condition query : String) : Prop :=
  query = "SELECT\n  " ++ tag ++ " AS failing_row_condition,\n  *\nFROM " ++
    table ++ "\nWHERE NOT (" ++ condition ++ ")"

/-- The query has a branch for each condition, tagged with the condition as a
string. -/
def FindsBroken (warehouse : Warehouse) (table : String)
    (conditions : List String) (query : String) : Prop :=
  ∃ branches, List.Forall₂ (fun condition =>
    FindsRows table (warehouse.quoteString condition) condition)
    conditions branches ∧ query = "\nUNION ALL\n".intercalate branches

variable (warehouse : Warehouse) (target : Target)

-- The pieces are variables here, so that no literal is ever taken apart.
theorem append_pieces (a b c d e f g : String) :
    a ++ (b ++ (c ++ (d ++ (e ++ (f ++ g))))) =
      a ++ b ++ c ++ d ++ e ++ f ++ g := by
  simp only [String.append_assoc]

theorem findsRepeated_uniqueKeyQuery (columns : List String) :
    FindsRepeated (warehouse.quoteTarget target) columns
      (uniqueKeyQuery warehouse target columns) :=
  append_pieces _ _ _ _ _ _ _

theorem findsRows_conditionQuery (condition : String) :
    FindsRows (warehouse.quoteTarget target) (warehouse.quoteString condition)
      condition (conditionQuery warehouse target condition) :=
  append_pieces _ _ _ _ _ _ _

theorem findsBroken_rowConditionsQuery (conditions : List String) :
    FindsBroken warehouse (warehouse.quoteTarget target) conditions
      (rowConditionsQuery warehouse target conditions) := by
  refine ⟨conditions.map (conditionQuery warehouse target), ?_, rfl⟩
  rw [List.forall₂_map_right_iff, List.forall₂_same]
  intro condition _
  exact findsRows_conditionQuery warehouse target condition

theorem getElem?_uniqueKeyQueries (start index : Nat)
    (groups : List (List String)) :
    (uniqueKeyQueries warehouse target start groups)[index]? =
      groups[index]?.map fun columns =>
        (uniqueKeyName (start + index),
          uniqueKeyQuery warehouse target columns) := by
  induction groups generalizing start index with
  | nil => rfl
  | cons columns rest ih =>
    cases index with
    | zero => rfl
    | succ index =>
      rw [uniqueKeyQueries, List.getElem?_cons_succ, List.getElem?_cons_succ,
        ih, Nat.add_right_comm]
      rfl

theorem length_uniqueKeyQueries (start : Nat) (groups : List (List String)) :
    (uniqueKeyQueries warehouse target start groups).length =
      groups.length := by
  rw [← List.length_map, map_fst_uniqueKeyQueries, List.length_map,
    List.length_range']

/-- The queries for groups of key columns come first, numbered as the groups
are. -/
theorem queries_uniqueKey {checks : Checks} {index : Nat}
    {columns : List String} (h : checks.uniqueKeys[index]? = some columns) :
    (checks.queries warehouse target)[index]? =
      some (uniqueKeyName index, uniqueKeyQuery warehouse target columns) := by
  have hlt : index <
      (uniqueKeyQueries warehouse target 0 checks.uniqueKeys).length := by
    rw [length_uniqueKeyQueries]
    exact (List.getElem?_eq_some_iff.1 h).1
  rw [queries, List.getElem?_append_left hlt, getElem?_uniqueKeyQueries, h,
    Nat.zero_add]
  rfl

/-- The query for conditions follows. -/
theorem queries_rowConditions {checks : Checks} (h : checks.conditions ≠ []) :
    (checks.queries warehouse target)[checks.uniqueKeys.length]? =
      some (rowConditionsName,
        rowConditionsQuery warehouse target checks.conditions) := by
  rw [queries, if_neg (mt List.isEmpty_iff.1 h),
    ← length_uniqueKeyQueries warehouse target 0]
  exact List.getElem?_concat_length

end Action.Checks

namespace Registry

/-- An entry for a data check of a parent. The assertion has the file, the tags
and the disabled flag of the parent and depends on it alone, and nothing is left
to be done for it. -/
structure ChecksParent (settings : Settings.Pair) (parent : Action)
    (parentDatabase : Option String) (word query : String)
    (entry : Entry) : Prop where
  targets : (⟨entry.action.target, entry.action.canonical⟩ : Target.Resolved) =
    Target.assertionTargets settings parent.canonical parentDatabase word
  fileName : entry.action.fileName = parent.fileName
  tags : entry.action.tags = parent.tags
  disabled : entry.action.disabled = parent.disabled
  dependencies : entry.action.dependencies = [parent.target]
  hermetic : entry.action.hermetic = true
  body : entry.action.body = .assertion ⟨query, some parent.target⟩
  bare : entry.action.description = none ∧ entry.action.columns = []
  pending : entry.pending = .nothing

theorem checksParent_assertionFor (settings : Settings.Pair) (parent : Action)
    (parentDatabase : Option String) (word query : String) :
    ChecksParent settings parent parentDatabase word query
      ⟨assertionFor settings parent parentDatabase word query, .nothing⟩ where
  targets := rfl
  fileName := rfl
  tags := rfl
  disabled := rfl
  dependencies := rfl
  hermetic := rfl
  body := rfl
  bare := ⟨rfl, rfl⟩
  pending := rfl

theorem ChecksParent.parent? {settings : Settings.Pair} {parent : Action}
    {parentDatabase : Option String} {word query : String} {entry : Entry}
    (h : ChecksParent settings parent parentDatabase word query entry) :
    entry.action.parent? = some parent.target := by
  rw [Action.parent?, h.body]

/-- The entries that data checks of a parent add. -/
def checkEntries (settings : Settings.Pair) (warehouse : Warehouse)
    (parent : Action) (parentDatabase : Option String)
    (checks : Action.Checks) : List Entry :=
  (checks.queries warehouse parent.target).map fun check =>
    ⟨assertionFor settings parent parentDatabase check.1 check.2, .nothing⟩

theorem map_assertionsFor (settings : Settings.Pair) (warehouse : Warehouse)
    (parent : Action) (parentDatabase : Option String)
    (checks : Action.Checks) :
    (assertionsFor settings warehouse parent parentDatabase checks).map
      (⟨·, .nothing⟩) =
      checkEntries settings warehouse parent parentDatabase checks := by
  rw [assertionsFor, List.map_map]
  rfl

section

variable (settings : Settings.Pair) (warehouse : Warehouse) (parent : Action)
  (parentDatabase : Option String)
variable {checks : Action.Checks}

theorem length_checkEntries :
    (checkEntries settings warehouse parent parentDatabase checks).length =
      checks.uniqueKeys.length + if checks.rowConditions = [] ∧
      checks.nonNull = [] then 0 else 1 := by
  rw [checkEntries, List.length_map, ← List.length_map (·.1),
    Action.Checks.map_fst_queries_eq_words, Action.Checks.length_words]
  simp only [and_comm]

theorem checksParent_of_mem {entry : Entry}
    (h : entry ∈ checkEntries settings warehouse parent parentDatabase checks) :
    ∃ word query,
      ChecksParent settings parent parentDatabase word query entry := by
  obtain ⟨check, -, rfl⟩ := List.mem_map.1 h
  exact ⟨check.1, check.2,
    checksParent_assertionFor settings parent parentDatabase check.1 check.2⟩

theorem checkEntries_of_queries {place : Nat} {word query : String}
    (h :
      (checks.queries warehouse parent.target)[place]? = some (word, query)) :
    ∃ entry,
      (checkEntries settings warehouse parent parentDatabase checks)[place]? =
        some entry ∧
        ChecksParent settings parent parentDatabase word query entry := by
  refine ⟨_, ?_,
    checksParent_assertionFor settings parent parentDatabase word query⟩
  rw [checkEntries, List.getElem?_map, h]
  rfl

theorem exists_uniqueKey_entry {index : Nat} {columns : List String}
    (h : checks.uniqueKeys[index]? = some columns) :
    ∃ query entry,
      (checkEntries settings warehouse parent parentDatabase checks)[index]? =
        some entry ∧
        ChecksParent settings parent parentDatabase
          (Action.Checks.uniqueKeyName index) query entry ∧
        Action.Checks.FindsRepeated (warehouse.quoteTarget parent.target)
          columns query := by
  obtain ⟨entry, hentry, hchecks⟩ :=
    checkEntries_of_queries settings warehouse parent parentDatabase
      (Action.Checks.queries_uniqueKey warehouse parent.target h)
  exact ⟨_, entry, hentry, hchecks,
    Action.Checks.findsRepeated_uniqueKeyQuery warehouse parent.target columns⟩

theorem exists_rowConditions_entry
    (h : ¬ (checks.rowConditions = [] ∧ checks.nonNull = [])) :
    ∃ query entry,
      (checkEntries settings warehouse parent parentDatabase
        checks)[checks.uniqueKeys.length]? = some entry ∧
        ChecksParent settings parent parentDatabase
          Action.Checks.rowConditionsName query entry ∧
        Action.Checks.FindsBroken warehouse
          (warehouse.quoteTarget parent.target) checks.conditions query := by
  have hconditions : checks.conditions ≠ [] := by
    rwa [Ne, Action.Checks.conditions_eq_nil_iff, and_comm]
  obtain ⟨entry, hentry, hchecks⟩ :=
    checkEntries_of_queries settings warehouse parent parentDatabase
      (Action.Checks.queries_rowConditions warehouse parent.target hconditions)
  exact ⟨_, entry, hentry, hchecks, Action.Checks.findsBroken_rowConditionsQuery
    warehouse parent.target checks.conditions⟩

theorem synthesizeWithPlaces_snd (r : Registry) :
    (r.synthesizeWithPlaces settings warehouse parent parentDatabase checks).2 =
      List.range' r.size (checkEntries settings warehouse parent parentDatabase
        checks).length := by
  rw [synthesizeWithPlaces, registerAll_snd, ← map_assertionsFor,
    List.length_map]

end

end Registry

namespace Link

open Registry (ChecksParent Gains)

/-- An entry for which linking has nothing to do. -/
def Settled (entry : Registry.Entry) : Prop :=
  entry.pending = .nothing ∧ entry.action.dependencies.Nodup

/-- Linking takes a settled entry as it is, with no fault and no request. -/
theorem linkEntry_of_settled {entry : Registry.Entry} (h : Settled entry)
    (r : Registry) (surroundings : Surroundings) :
    linkEntry r surroundings entry = ⟨entry.action, [], []⟩ := by
  obtain ⟨action, pending⟩ := entry
  obtain ⟨rfl, hnodup⟩ := h
  have hbody :=
    @applyTo_renderedSql_of_none r surroundings ⟨action, .nothing⟩ rfl
  have hdependencies : Target.distinct (action.dependencies ++ []) =
      action.dependencies := by
    rw [List.append_nil]
    exact Target.distinct_of_nodup hnodup
  change Outcome.mk { action with
    dependencies := Target.distinct (action.dependencies ++ []),
      body := _ } [] [] = _
  rw [hdependencies, hbody]

theorem settled_of_checksParent {settings : Settings.Pair} {parent : Action}
    {parentDatabase : Option String} {word query : String}
    {entry : Registry.Entry}
    (h : ChecksParent settings parent parentDatabase word query entry) :
    Settled entry := by
  refine ⟨h.pending, ?_⟩
  rw [h.dependencies]
  exact List.nodup_singleton _

/-- A registry that another one turns into when actions are registered,
assertions made and links worked out, in any order. -/
inductive EvolvedFrom (start : Registry) : Registry → Prop
  | refl : EvolvedFrom start start
  | register {r : Registry} (action : Action) (pending : Registry.Pending)
      (h : EvolvedFrom start r) : EvolvedFrom start (r.register action pending)
  | synthesize {r : Registry} (settings : Settings.Pair) (warehouse : Warehouse)
      (parent : Action) (parentDatabase : Option String)
      (checks : Action.Checks) (h : EvolvedFrom start r) :
      EvolvedFrom start
        (r.synthesize settings warehouse parent parentDatabase checks)
  | link {r : Registry} (surroundings : Surroundings)
      (h : EvolvedFrom start r) : EvolvedFrom start (linked r surroundings)

/-- A settled entry stays at its place as it is. -/
theorem EvolvedFrom.settled {start r : Registry} (h : EvolvedFrom start r)
    {place : Nat} {entry : Registry.Entry}
    (hentry : start.entries[place]? = some entry) (hsettled : Settled entry) :
    r.entries[place]? = some entry := by
  induction h with
  | refl => exact hentry
  | register action pending _ ih =>
    exact (Registry.gains_register _ action pending).getElem?_of_some ih
  | synthesize settings warehouse parent parentDatabase checks _ ih =>
    exact (Registry.gains_synthesize _ settings warehouse parent parentDatabase
      checks).getElem?_of_some ih
  | link surroundings _ ih =>
    rw [entries_linked, List.getElem?_map, ih, Option.map_some,
      linkEntry_of_settled hsettled]

/-- What the data checks of a parent add to a registry, at the places that are
told. -/
structure MakesChecks (settings : Settings.Pair) (warehouse : Warehouse)
    (parent : Action) (parentDatabase : Option String) (checks : Action.Checks)
    (r next : Registry) (places : List Nat)
    (made : List Registry.Entry) : Prop where
  gains : Gains r next made
  told : places = List.range' r.size made.length
  length : made.length =
    checks.uniqueKeys.length + if checks.rowConditions = [] ∧
    checks.nonNull = [] then 0 else 1
  uniqueKey : ∀ (index : Nat) columns,
    checks.uniqueKeys[index]? = some columns → ∃ query entry,
      made[index]? = some entry ∧
        ChecksParent settings parent parentDatabase
          ("uniqueKey_" ++ toString index) query entry ∧
        Action.Checks.FindsRepeated (warehouse.quoteTarget parent.target)
          columns query
  rowConditions : ¬ (checks.rowConditions = [] ∧ checks.nonNull = []) →
    ∃ query entry, made[checks.uniqueKeys.length]? = some entry ∧
      ChecksParent settings parent parentDatabase "rowConditions" query entry ∧
      Action.Checks.FindsBroken warehouse (warehouse.quoteTarget parent.target)
        (checks.rowConditions ++ checks.nonNull.map (· ++ " IS NOT NULL")) query
  assertionsOf : ∀ target, next.assertionsOf target =
    r.assertionsOf target ++ if target = parent.target then places else []
  settled : ∀ later, EvolvedFrom next later → ∀ place ∈ places,
    later.entries[place]? = next.entries[place]?
  linked : ∀ entry ∈ made, ∀ registry surroundings,
    linkEntry registry surroundings entry = ⟨entry.action, [], []⟩

/-- Making the assertions for the data checks of an action adds one for each
group of key columns and then, if there are conditions on rows or columns that
must not be null, one more. Nothing else changes, and what is registered or
linked later leaves the assertions as they are. -/
theorem synthesize_makesChecks (r : Registry) (settings : Settings.Pair)
    (warehouse : Warehouse) (parent : Action) (parentDatabase : Option String)
    (checks : Action.Checks) :
    ∃ made, MakesChecks settings warehouse parent parentDatabase checks r
      (r.synthesize settings warehouse parent parentDatabase checks)
      (r.synthesizeWithPlaces settings warehouse parent parentDatabase checks).2
      made := by
  have hgains :=
    Registry.gains_synthesize r settings warehouse parent parentDatabase checks
  have hplaces := @Registry.synthesizeWithPlaces_snd settings warehouse parent
    parentDatabase checks r
  have hmade := @Registry.checksParent_of_mem settings warehouse parent
    parentDatabase checks
  rw [Registry.map_assertionsFor] at hgains
  refine ⟨_, hgains, hplaces,
    Registry.length_checkEntries settings warehouse parent parentDatabase,
    fun _ _ => Registry.exists_uniqueKey_entry settings warehouse parent
      parentDatabase, Registry.exists_rowConditions_entry settings warehouse
        parent parentDatabase, ?assertionsOf, ?settled, ?linked⟩
  case assertionsOf =>
    rw [hplaces]
    apply hgains.assertionsOf
    intro entry hentry
    obtain ⟨word, query, hchecks⟩ := hmade hentry
    exact hchecks.parent?
  case settled =>
    intro later hlater place hplace
    rw [hplaces] at hplace
    obtain ⟨entry, hmem, hentry⟩ := hgains.exists_mem hplace
    obtain ⟨word, query, hchecks⟩ := hmade hmem
    rw [hentry]
    exact hlater.settled hentry (settled_of_checksParent hchecks)
  case linked =>
    intro entry hentry registry surroundings
    obtain ⟨word, query, hchecks⟩ := hmade hentry
    exact linkEntry_of_settled (settled_of_checksParent hchecks) registry
      surroundings

/-- A condition with the look of a reference that leads nowhere is left as it
is. -/
example :
    let parent : Action := ⟨⟨none, some "shop_dev", "orders"⟩,
      ⟨none, some "shop", "orders"⟩, "definitions/orders.sqlx", false, [], [],
      false, none, [], .operation ⟨[], true⟩⟩
    let made := Registry.empty.synthesize ⟨.empty, .empty⟩ .snowflake parent
      none ⟨[], [], ["id > $\x7bref(missing)\x7d"]⟩
    (linked made ⟨.empty, Script.noRuntime, []⟩).entries = made.entries ∧
      made.entries.map (·.action.body) = [.assertion
        ⟨"SELECT\n  'id > $\x7bref(missing)\x7d' AS failing_row_condition,\n  *\n" ++
          "FROM \"shop_dev\".\"orders\"\nWHERE NOT (id > $\x7bref(missing)\x7d)",
          some ⟨none, some "shop_dev", "orders"⟩⟩] := by
  decide +kernel

end Link

end SqlWorkflow
