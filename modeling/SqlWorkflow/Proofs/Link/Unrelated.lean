import SqlWorkflow.Proofs.Link.Modes
import SqlWorkflow.Proofs.Registry.Growth

/-!
# Unrelated actions

What an action is linked to depends on the lookups of its references and on the
assertions of the targets that it refers to. An action that is registered later
changes neither if nothing refers to its name, and, where it is an assertion
that was made for another action, to that action. So it leaves what the others
are linked to as it was.
-/

namespace SqlWorkflow.Link

open Registry (Entry Gains Indexed Lookup)

variable {r next : Registry} {added : List Entry}

/-- A target has the same assertions if none that is added was made for it. -/
theorem assertionTargets_eq_of_gains (hgains : Gains r next added)
    (h : Indexed r) {target : Target}
    (hother : ∀ entry ∈ added, entry.action.parent? ≠ some target)
    (self : Target) :
    assertionTargets next self target = assertionTargets r self target := by
  have hnone : (added.map (·.action)).filter
      (fun action => action.parent? = some target) = [] := by
    rw [List.filter_eq_nil_iff, List.forall_mem_map]
    intro entry hentry
    simpa using hother entry hentry
  rw [assertionTargets_eq (h.of_gains hgains), assertionTargets_eq h,
    hgains.actions, List.filter_append, hnone, List.append_nil]

/-- No action of a registry refers to an action: none declares its name or calls
it, and if it was made for a parent, none refers to that parent. -/
structure Unrelated (r : Registry) (surroundings : Surroundings)
    (action : Action) : Prop where
  declared : ∀ entry ∈ r.entries, ∀ reference ∈ entry.pending.dependencies,
    reference.name ≠ action.canonical.name
  called : ∀ entry ∈ r.entries, ∀ call, Calls r surroundings entry call →
    call.reference.name ≠ action.canonical.name
  parent : ∀ entry ∈ r.entries, ∀ site ∈ sitesOf r surroundings entry,
    action.parent? ≠ some site.target

variable {surroundings : Surroundings}

/-- Unrelated actions change nothing for an action that was there before. -/
theorem linkEntry_of_gains (hgains : Gains r next added) (h : Indexed r)
    (hunrelated : ∀ other ∈ added, Unrelated r surroundings other.action)
    {entry : Entry} (hentry : entry ∈ r.entries) :
    linkEntry next surroundings entry = linkEntry r surroundings entry := by
  apply linkEntry_eq_of_agree
  · intro reference hreference
    exact hgains.find_eq h fun other hother =>
      (hunrelated other hother).declared entry hentry reference hreference
  · intro call hcall
    exact hgains.find_eq h fun other hother =>
      (hunrelated other hother).called entry hentry call hcall
  · intro site hsite
    exact assertionTargets_eq_of_gains hgains h (fun other hother =>
      (hunrelated other hother).parent entry hentry site hsite)
      entry.action.target

theorem outcomes_of_gains (hgains : Gains r next added) (h : Indexed r)
    (hunrelated : ∀ other ∈ added, Unrelated r surroundings other.action) :
    outcomes next surroundings =
      outcomes r surroundings ++ added.map (linkEntry next surroundings) := by
  rw [outcomes, outcomes, hgains.entries, List.map_append]
  congr 1
  apply List.map_congr_left
  intro entry hentry
  exact linkEntry_of_gains hgains h hunrelated hentry

/-- An unrelated action that is registered leaves what all others are linked to
as it is: their SQL, their dependencies and their errors; its own diagnostics
come after theirs. A reference that found nothing may find a registered action,
one that found a target may become ambiguous, and targets among which a
reference does not decide stay, in the same order, in front of more. -/
theorem unrelated_neutral (h : Evolved r) (surroundings : Surroundings)
    (action : Action) (pending : Registry.Pending) :
    (Unrelated r surroundings action →
      outcomes (r.register action pending) surroundings =
        outcomes r surroundings ++
        [linkEntry (r.register action pending) surroundings ⟨action, pending⟩] ∧
        ∀ log : Diagnostics, Compile.linkDiagnostics
          (outcomes (r.register action pending) surroundings) log =
          (Compile.linkDiagnostics (outcomes r surroundings) log).recordAll
            (linkEntry (r.register action pending) surroundings
              ⟨action, pending⟩).diagnostics) ∧
      ∀ reference, (r.find reference).Grows
        ((r.register action pending).find reference) := by
  refine ⟨fun hunrelated => ?_,
    Registry.grows_find_register h.indexed action pending⟩
  have houtcomes := outcomes_of_gains (Registry.gains_register r action pending)
    h.indexed (List.forall_mem_singleton.2 hunrelated)
  refine ⟨houtcomes, fun log => ?_⟩
  rw [houtcomes, Compile.linkDiagnostics, Compile.linkDiagnostics,
    List.flatMap_append, Diagnostics.recordAll, List.foldl_append]
  simp only [List.map_cons, List.map_nil, List.flatMap_cons, List.flatMap_nil,
    List.append_nil]
  rfl

/-- An assertion that was made for users. -/
def usersUnique : Action :=
  { tableOf "users_unique" .table with
    body := .assertion ⟨"SELECT 1", some ⟨none, some "shop", "users"⟩⟩ }

theorem name_of_calls_ledger {entry : Entry} (hentry : entry ∈ ledger.entries)
    {call : Call}
    (hcall : Calls ledger ⟨.empty, Script.noRuntime, []⟩ entry call) :
    call.reference = .named "orders" := by
  obtain ⟨hinterpolate, rendering, hrendering, e, hholds, hevaluates⟩ := hcall
  have hentries : ∀ entry ∈ ledger.entries, entry = ledger.entries[0] ∨
      entry = ledger.entries[1] := by
    decide +kernel
  obtain rfl | rfl := hentries entry hentry
  · cases hinterpolate
  · have htemplates : ∀ rendering ∈
        renderings (isIncremental ledger.entries[1].action.body)
          ledger.entries[1].pending.templates,
        rendering.2 = "SELECT * FROM $\x7bref(\"orders\")\x7d" := by
      decide +kernel
    rw [htemplates rendering hrendering] at hholds
    obtain rfl := eq_of_holdsNative_ledger hholds
    rw [Scope.evaluates_call_iff (by decide)] at hevaluates
    have hcall : call? (.ident "ref") [.string "orders"] =
        some ⟨.named "orders", true⟩ := rfl
    obtain rfl := Option.some.inj (hcall.symm.trans hevaluates)
    rfl

theorem unrelated_neutral_ledger :
    let surroundings : Surroundings := ⟨.empty, Script.noRuntime, []⟩
    let next := ledger.register usersUnique .nothing
    outcomes next surroundings =
      outcomes ledger surroundings ++
        [linkEntry next surroundings ⟨usersUnique, .nothing⟩] ∧
      ledger.find (.named "users_unique") = .missing ∧
      next.find (.named "users_unique") = .found 2 usersUnique.target := by
  have hevolved : Evolved ledger := .register _ _ (.register _ _ .empty)
  have hunrelated :
      Unrelated ledger ⟨.empty, Script.noRuntime, []⟩ usersUnique :=
    { declared := by decide +kernel
      called := by
        intro entry hentry call hcall
        rw [name_of_calls_ledger hentry hcall]
        decide
      parent := by decide +kernel }
  have hneutral := unrelated_neutral hevolved ⟨.empty, Script.noRuntime, []⟩
    usersUnique .nothing
  exact ⟨(hneutral.1 hunrelated).1, by decide +kernel, by decide +kernel⟩

end SqlWorkflow.Link
