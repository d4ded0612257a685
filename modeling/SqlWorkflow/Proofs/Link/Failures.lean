import SqlWorkflow.Proofs.Link.Dependencies
import SqlWorkflow.Proofs.Link.Neutral
import SqlWorkflow.Proofs.Registry.Lookups
import SqlWorkflow.Proofs.Registry.Repeated

/-!
# Reports of failing lookups

Every declared dependency of an action and every call in its templates that
leads to no target is reported, and no other fault is of this kind, nor does it
read like one that is. A fault that comes up several times, as in the two
renderings of an incremental table, is one diagnostic.
-/

namespace SqlWorkflow.Link

open SqlWorkflow.Graph (Opens opens_append)
open Registry (Reachable)

/-! ## Messages -/

/-- The words that the message of a fault begins with. -/
def Fault.opening : Fault → String
  | .template _ => "Unclosed"
  | .evaluation _ _ => "Error evaluating"
  | .unresolved _ => "Could not resolve"
  | .missing _ _ => "Missing dependency"
  | .ambiguous _ _ => "Ambiguous Action name"
  | .conflict _ => "Conflicting"

theorem Fault.opens_message (fault : Fault) :
    Opens fault.opening fault.message := by
  cases fault <;> rw [opening]
  case template =>
    refine opens_append ?_ _
    decide +kernel
  case unresolved | conflict =>
    refine opens_append (opens_append ?_ _) _
    decide +kernel
  case evaluation =>
    refine opens_append (opens_append (opens_append ?_ _) _) _
    decide +kernel
  case missing | ambiguous =>
    refine opens_append (opens_append (opens_append (opens_append ?_ _) _) _) _
    decide +kernel

/-- Of two texts that a message begins with, one begins with the other. -/
theorem Fault.comparable {fault : Fault} {start : String}
    (h : Opens start fault.message) :
    start.toList <+: fault.opening.toList ∨
      fault.opening.toList <+: start.toList :=
  List.prefix_or_prefix_of_prefix h fault.opens_message

/-- What the message of a fault of a lookup names: the references and targets
that it is about. -/
def Fault.named : Fault → List String
  | .unresolved reference => [reference.text]
  | .missing action reference => [action.text, reference.text]
  | .ambiguous reference candidates =>
    reference.text :: candidates.map Target.qualifiedName
  | .template _ | .evaluation _ _ | .conflict _ => []

theorem infix_intercalate_of_mem {α : Type} {separator part : List α}
    {parts : List (List α)}
    (h : part ∈ parts) : part <:+: separator.intercalate parts := by
  induction parts with
  | nil => cases h
  | cons first rest ih =>
    cases rest with
    | nil =>
      have heq : part = separator.intercalate [first] := by
        rw [List.mem_singleton.1 h, List.intercalate_singleton]
      exact heq ▸ List.infix_refl part
    | cons second rest =>
      rw [List.intercalate_cons_cons]
      rcases List.mem_cons.1 h with rfl | h
      · rw [List.append_assoc]
        exact (List.prefix_append _ _).isInfix
      · exact (ih h).trans (List.suffix_append _ _).isInfix

theorem Fault.infix_message {fault : Fault} {part : String}
    (h : part ∈ fault.named) : part.toList <:+: fault.message.toList := by
  cases fault with
  | template | evaluation | conflict => exact absurd h List.not_mem_nil
  | unresolved reference =>
    change part.toList <:+:
      ("Could not resolve \"" ++ reference.text ++ "\"").toList
    rw [String.toList_append, String.toList_append]
    obtain rfl : part = reference.text := List.mem_singleton.1 h
    exact List.infix_append _ _ _
  | missing action reference =>
    change part.toList <:+: ("Missing dependency detected: Action \"" ++
      action.text ++ "\" depends on \"" ++ reference.text ++
      "\" which does not exist").toList
    simp only [String.toList_append]
    rcases List.mem_cons.1 h with rfl | h
    · simp only [List.append_assoc]
      exact List.infix_append' _ _ _
    · obtain rfl : part = reference.text := List.mem_singleton.1 h
      exact List.infix_append _ _ _
  | ambiguous reference candidates =>
    change part.toList <:+: ("Ambiguous Action name: " ++ reference.text ++
      ". Did you mean one of: " ++
      ", ".intercalate (candidates.map Target.qualifiedName) ++ ".").toList
    simp only [String.toList_append]
    rcases List.mem_cons.1 h with rfl | h
    · simp only [List.append_assoc]
      exact List.infix_append' _ _ _
    · refine List.IsInfix.trans ?_ (List.infix_append _ _ _)
      rw [String.toList_intercalate]
      exact infix_intercalate_of_mem (List.mem_map_of_mem h)

/-! ## Faults -/

/-- The faults of an action tell of its lookups that fail, and of no other. -/
structure Reports (r : Registry) (surroundings : Surroundings)
    (entry : Registry.Entry) (faults : List Fault) : Prop where
  missing_iff : ∀ action reference, .missing action reference ∈ faults ↔
    action = entry.action.target ∧ reference ∈ entry.pending.dependencies ∧
      r.find reference = .missing
  unresolved_iff : ∀ reference, .unresolved reference ∈ faults ↔
    (∃ depends, Calls r surroundings entry ⟨reference, depends⟩) ∧
      r.find reference = .missing
  ambiguous_iff : ∀ reference candidates,
    .ambiguous reference candidates ∈ faults ↔
      (reference ∈ entry.pending.dependencies ∨
        ∃ depends, Calls r surroundings entry ⟨reference, depends⟩) ∧
        r.find reference = .ambiguous candidates
  /-- Every target that the reference fits is a candidate, and each is named
  once. -/
  candidates_eq : ∀ reference candidates, .ambiguous reference candidates ∈
    faults →
    candidates = ((r.matching reference).map (·.target)).eraseDups
  named : ∀ fault ∈ faults, ∀ part ∈ fault.named, part.toList <:+:
    fault.message.toList
  missing_of_message : ∀ fault ∈ faults,
    Opens "Missing dependency" fault.message →
      ∃ action reference, fault = .missing action reference
  unresolved_of_message : ∀ fault ∈ faults,
    Opens "Could not resolve" fault.message →
      ∃ reference, fault = .unresolved reference
  ambiguous_of_message : ∀ fault ∈ faults,
    Opens "Ambiguous Action name" fault.message →
      ∃ reference candidates, fault = .ambiguous reference candidates

section Faults

variable {r : Registry} {surroundings : Surroundings} {entry : Registry.Entry}

/-- A fault of a lookup comes from a call or from a declared dependency. -/
theorem mem_faults_linkEntry {fault : Fault} (hlookup : fault.isLookup) :
    fault ∈ (linkEntry r surroundings entry).faults ↔
      (∃ call, Calls r surroundings entry call ∧ call.fault? r = some fault) ∨
        ∃ reference ∈ entry.pending.dependencies,
          failure? r (.missing entry.action.target reference) reference =
            some fault := by
  have hconflict (demands : Demands) : fault ∉ conflicts demands := by
    intro hmem
    rw [isLookup_of_mem_conflicts hmem] at hlookup
    cases hlookup
  rw [linkEntry_eq_outcomeOf, outcomeOf]
  dsimp only
  rw [List.mem_append, List.mem_append, tells_renderedSql r surroundings entry
    fault hlookup, declaredSites_snd, List.mem_filterMap]
  simp only [hconflict, or_false]

theorem missing_mem_faults_iff {action : Target} {reference : Reference} :
    .missing action reference ∈ (linkEntry r surroundings entry).faults ↔
      action = entry.action.target ∧ reference ∈ entry.pending.dependencies ∧
        r.find reference = .missing := by
  rw [mem_faults_linkEntry rfl]
  simp only [Call.fault?, failure?_eq_some_iff, Fault.missing.injEq,
    reduceCtorEq, and_false, exists_false, or_false, false_or]
  constructor
  · rintro ⟨other, hmem, hfind, rfl, rfl⟩
    exact ⟨rfl, hmem, hfind⟩
  · rintro ⟨rfl, hmem, hfind⟩
    exact ⟨reference, hmem, hfind, rfl, rfl⟩

theorem unresolved_mem_faults_iff {reference : Reference} :
    .unresolved reference ∈ (linkEntry r surroundings entry).faults ↔
      (∃ depends, Calls r surroundings entry ⟨reference, depends⟩) ∧
        r.find reference = .missing := by
  rw [mem_faults_linkEntry rfl]
  simp only [Call.fault?, failure?_eq_some_iff, Fault.unresolved.injEq,
    reduceCtorEq, and_false, exists_false, or_false]
  constructor
  · rintro ⟨⟨other, depends⟩, hcall, hfind, rfl⟩
    exact ⟨⟨depends, hcall⟩, hfind⟩
  · rintro ⟨⟨depends, hcall⟩, hfind⟩
    exact ⟨⟨reference, depends⟩, hcall, hfind, rfl⟩

theorem ambiguous_mem_faults_iff {reference : Reference}
    {candidates : List Target} :
    .ambiguous reference candidates ∈ (linkEntry r surroundings entry).faults ↔
      (reference ∈ entry.pending.dependencies ∨
        ∃ depends, Calls r surroundings entry ⟨reference, depends⟩) ∧
        r.find reference = .ambiguous candidates := by
  rw [mem_faults_linkEntry rfl]
  simp only [Call.fault?, failure?_eq_some_iff, Fault.ambiguous.injEq,
    reduceCtorEq, and_false, false_or]
  constructor
  · rintro (⟨⟨other, depends⟩, hcall, _, hfind, rfl, rfl⟩ | ⟨other, hmem, _,
      hfind, rfl, rfl⟩)
    · exact ⟨.inr ⟨depends, hcall⟩, hfind⟩
    · exact ⟨.inl hmem, hfind⟩
  · rintro ⟨hmem | ⟨depends, hcall⟩, hfind⟩
    · exact .inr ⟨reference, hmem, candidates, hfind, rfl, rfl⟩
    · exact .inl ⟨⟨reference, depends⟩, hcall, candidates, hfind, rfl, rfl⟩

theorem Fault.missing_of_opens {fault : Fault}
    (h : Opens "Missing dependency" fault.message) :
    ∃ action reference, fault = .missing action reference := by
  have hcomparable := Fault.comparable h
  cases fault with
  | missing action reference => exact ⟨action, reference, rfl⟩
  | _ =>
    rw [Fault.opening] at hcomparable
    exact absurd hcomparable (by decide)

theorem Fault.unresolved_of_opens {fault : Fault}
    (h : Opens "Could not resolve" fault.message) :
    ∃ reference, fault = .unresolved reference := by
  have hcomparable := Fault.comparable h
  cases fault with
  | unresolved reference => exact ⟨reference, rfl⟩
  | _ =>
    rw [Fault.opening] at hcomparable
    exact absurd hcomparable (by decide)

theorem Fault.ambiguous_of_opens {fault : Fault}
    (h : Opens "Ambiguous Action name" fault.message) :
    ∃ reference candidates, fault = .ambiguous reference candidates := by
  have hcomparable := Fault.comparable h
  cases fault with
  | ambiguous reference candidates => exact ⟨reference, candidates, rfl⟩
  | _ =>
    rw [Fault.opening] at hcomparable
    exact absurd hcomparable (by decide)

variable (surroundings entry)

theorem reports_linkEntry (h : Reachable r) :
    Reports r surroundings entry (linkEntry r surroundings entry).faults where
  missing_iff _ _ := missing_mem_faults_iff
  unresolved_iff _ := unresolved_mem_faults_iff
  ambiguous_iff _ _ := ambiguous_mem_faults_iff
  candidates_eq reference candidates hmem :=
    (((h.indexed.findExact reference).ambiguous_iff candidates).1
      (ambiguous_mem_faults_iff.1 hmem).2).2
  named _ _ _ := Fault.infix_message
  missing_of_message _ _ := Fault.missing_of_opens
  unresolved_of_message _ _ := Fault.unresolved_of_opens
  ambiguous_of_message _ _ := Fault.ambiguous_of_opens

end Faults

/-- Linking reports the lookups of every action that fail, and only these as
such. What leads to no target is neutral: it makes no dependency, and in the SQL
it is the empty string. Every fault of an action is one diagnostic in a log
without repetitions, however often it comes up. -/
theorem link_failures {r : Registry} (h : Reachable r)
    (surroundings : Surroundings) {place : Nat} {entry : Registry.Entry}
    (hentry : r.entries[place]? = some entry) :
    ∃ outcome, (outcomes r surroundings)[place]? = some outcome ∧
      (linked r surroundings).actions[place]? = some outcome.action ∧
      Reports r surroundings entry outcome.faults ∧
      emptiedOutcome r surroundings entry = outcome.silenced ∧
      ∀ fault ∈ outcome.faults, ∀ log : Diagnostics, log.Nodup →
        (Compile.linkDiagnostics (outcomes r surroundings) log).count
          ⟨some entry.action.fileName, some entry.action.target.text,
            fault.message⟩ = 1 := by
  have houtcome : (outcomes r surroundings)[place]? =
      some (linkEntry r surroundings entry) := by
    rw [outcomes, List.getElem?_map, hentry, Option.map_some]
  refine ⟨linkEntry r surroundings entry, houtcome, ?_, reports_linkEntry
    surroundings entry h, emptiedOutcome_eq r surroundings entry, ?_⟩
  · rw [actions_linked, List.getElem?_map, houtcome, Option.map_some]
  · intro fault hfault log hlog
    rw [Compile.linkDiagnostics,
      (Diagnostics.nodup_recordAll hlog _).count, if_pos]
    rw [Diagnostics.mem_recordAll, List.mem_flatMap]
    apply Or.inr
    exact ⟨_, List.mem_of_getElem? houtcome,
      List.mem_map.2 ⟨fault, hfault, rfl⟩⟩

/-- Users in two schemas, and an incremental report on users and on a table that
does not exist. In the incremental rendering its users are a call of their own,
in the other one they stand in a nested template. -/
def depot : Registry :=
  let tableIn (schema name : String) (body : Action.Body) : Action :=
    ⟨⟨none, some schema, name⟩, ⟨none, some schema, name⟩,
      "definitions/" ++ name ++ ".sqlx", false, [], [], false, none, [], body⟩
  let report : Registry.Pending :=
    { dependencies := [.named "lost"]
      dependOnDependencyAssertions := false
      templates := .table ("FROM $\x7bref(\"gone\")\x7d JOIN " ++
        "$\x7bwhen(incremental(), ref(\"users\"), `$\x7bresolve(\"users\")\x7d u`)\x7d")
        none [] []
      interpolate := true
      script := none }
  let users := (Registry.empty.register (tableIn "west" "users" .declaration)
    .nothing).register (tableIn "east" "users" .declaration) .nothing
  users.register (tableIn "shop" "report" (.table ⟨.incremental, "", none, [],
    [], [], [], [], none, false, false, none⟩)) report

theorem link_failures_depot :
    ((linked depot ⟨.empty, Script.noRuntime, []⟩).actions[2]?).map
      (fun action => (action.dependencies, action.body)) =
      some ([], .table ⟨.incremental, "FROM  JOIN  u", some "FROM  JOIN", [],
        [], [], [], [], none, false, false, none⟩) ∧
      ((outcomes depot ⟨.empty, Script.noRuntime, []⟩)[2]?).map
        (·.faults.count (.unresolved (.named "gone"))) = some 2 ∧
      (Compile.linkDiagnostics (outcomes depot ⟨.empty, Script.noRuntime, []⟩)
        []).count ⟨some "definitions/report.sqlx", some "shop.report",
          (Fault.unresolved (.named "gone")).message⟩ = 1 := by
  have hreachable : Reachable depot :=
    .register _ _ (.register _ _ (.register _ _ .empty))
  have hreport : depot.entries[2]? = some depot.entries[2] := rfl
  have htwice : ((outcomes depot ⟨.empty, Script.noRuntime, []⟩)[2]?).map
      (·.faults.count (.unresolved (.named "gone"))) = some 2 := by
    decide +kernel
  obtain ⟨outcome, houtcome, hlinked, -, hneutral, honce⟩ :=
    link_failures hreachable ⟨.empty, Script.noRuntime, []⟩ hreport
  refine ⟨?_, htwice, ?_⟩
  · have haction : outcome.action =
        (emptiedOutcome depot ⟨.empty, Script.noRuntime, []⟩
          depot.entries[2]).action := by
      rw [hneutral]
      rfl
    rw [hlinked, Option.map_some, haction]
    decide +kernel
  · have hgone : .unresolved (.named "gone") ∈ outcome.faults := by
      rw [houtcome, Option.map_some, Option.some.injEq] at htwice
      rw [← List.count_pos_iff, htwice]
      exact Nat.two_pos
    exact honce _ hgone [] .nil

end SqlWorkflow.Link
