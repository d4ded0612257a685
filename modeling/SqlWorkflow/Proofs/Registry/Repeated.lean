import SqlWorkflow.Graph.Validation
import SqlWorkflow.Proofs.Registry.Indexed

/-!
# Repeated canonical targets

An index has one entry for each key. A registry therefore finds a repeated
canonical target just when two of its actions have the same one, and validation
says so in words that it has for nothing else.
-/

namespace SqlWorkflow

namespace Registry

namespace Index

variable {κ : Type} [DecidableEq κ]

theorem map_fst_add (key : κ) (place : Nat) (index : Index κ) :
    (add key place index).map Prod.fst = if key ∈ index.map Prod.fst then
      index.map Prod.fst else index.map Prod.fst ++ [key] := by
  induction index with
  | nil => rfl
  | cons entry rest ih =>
    obtain ⟨k, ps⟩ := entry
    rw [add]
    by_cases hk : k = key
    · simp [hk]
    · rw [if_neg hk, List.map_cons, ih, List.map_cons]
      by_cases hmem : key ∈ rest.map Prod.fst
      · rw [if_pos hmem, if_pos (List.mem_cons_of_mem k hmem)]
      · rw [if_neg hmem,
          if_neg (List.not_mem_cons_of_ne_of_not_mem (Ne.symm hk) hmem)]
        rfl

theorem nodup_keys_add {index : Index κ} (h : (index.map Prod.fst).Nodup)
    (key : κ) (place : Nat) : ((add key place index).map Prod.fst).Nodup := by
  rw [map_fst_add]
  split
  · exact h
  · rename_i hkey
    rw [List.nodup_append]
    refine ⟨h, List.nodup_singleton key, ?_⟩
    intro k hk other hother heq
    rw [heq, List.mem_singleton.1 hother] at hk
    exact hkey hk

/-- An entry holds all places of its key. -/
theorem places_of_mem {index : Index κ} (h : (index.map Prod.fst).Nodup)
    {key : κ} {ps : List Nat}
    (hentry : (key, ps) ∈ index) : places key index = ps := by
  induction index with
  | nil => cases hentry
  | cons entry rest ih =>
    obtain ⟨k, first⟩ := entry
    obtain ⟨hfresh, hrest⟩ := List.nodup_cons.1 h
    rcases List.mem_cons.1 hentry with heq | hlater
    · cases heq
      exact if_pos rfl
    · have hk : k ≠ key := by
        rintro rfl
        exact hfresh (List.mem_map.2 ⟨(k, ps), hlater, rfl⟩)
      rw [places, if_neg hk]
      exact ih hrest hlater

end Index

theorem Reachable.nodup_canonicalKeys {r : Registry} (h : Reachable r) :
    (r.byCanonical.map Prod.fst).Nodup := by
  induction h with
  | empty => exact List.nodup_nil
  | register action pending _ ih => exact Index.nodup_keys_add ih _ _
  | synthesize settings warehouse parent parentDatabase checks _ ih =>
    exact preserved_synthesize
      (P := fun r => (r.byCanonical.map Prod.fst).Nodup)
      (fun _ _ _ hr => Index.nodup_keys_add hr _ _) ih settings warehouse parent
      parentDatabase checks

/-- A registry finds no repeated canonical target just when no two of its
actions have the same one. -/
theorem Indexed.duplicateCanonicals_eq_nil_iff {r : Registry} (h : Indexed r)
    (hkeys : (r.byCanonical.map Prod.fst).Nodup) :
    r.duplicateCanonicals = [] ↔ (r.actions.map (·.canonical)).Nodup := by
  refine ⟨h.nodup_canonicals, ?_⟩
  intro hnodup
  refine List.filter_eq_nil_iff.2 ?_
  rintro ⟨target, ps⟩ hentry
  have hlength : ps.length ≤ 1 := by
    calc
      ps.length = (r.byCanonical.places target).length := by
        rw [Index.places_of_mem hkeys hentry]
      _ = r.actions.countP (fun action => action.canonical = target) := by
        rw [h.byCanonical, List.length_findIdxs]
      _ = (r.actions.map (·.canonical)).count target := by
        rw [List.count_eq_countP, List.countP_map]
        apply List.countP_congr
        simp
      _ ≤ 1 := List.nodup_iff_count_le_one.1 hnodup target
  simpa using hlength

end Registry

namespace Graph

/-- A text begins with another one. -/
def Opens (start message : String) : Prop := start.toList <+: message.toList

instance (start message : String) : Decidable (Opens start message) :=
  inferInstanceAs (Decidable (start.toList <+: message.toList))

theorem opens_append {start first : String} (h : Opens start first)
    (second : String) : Opens start (first ++ second) := by
  rw [Opens, String.toList_append]
  exact h.trans (List.prefix_append _ _)

theorem opens_duplicateCanonicalMessage (target : Target) :
    Opens "Duplicate c" (duplicateCanonicalMessage target) := by
  refine opens_append (opens_append (opens_append ?_ _) _) _
  decide +kernel

/-- No other text of validation begins like the one about canonical targets. -/
theorem ne_duplicateCanonicalMessage {start message : String}
    (h : Opens start message) (hstart : ¬ start.toList <+: "Duplicate c".toList)
    (hshort : start.toList.length ≤ 11)
    (target : Target) : message ≠ duplicateCanonicalMessage target := by
  rintro rfl
  exact hstart (List.prefix_of_prefix_length_le h
    (opens_duplicateCanonicalMessage target) hshort)

/-- Validation says of no canonical target that it is repeated just when the
registry finds none. -/
theorem noDuplicateCanonicalMessage_iff {r : Registry}
    {config : Settings.Config} :
    (∀ e ∈ validate r config, ∀ target, e.message ≠
      duplicateCanonicalMessage target) ↔
      r.duplicateCanonicals = [] := by
  constructor
  · intro hnever
    by_contra hsome
    obtain ⟨duplicate, hduplicate⟩ := List.exists_mem_of_ne_nil _ hsome
    refine hnever (duplicateDiagnostic r duplicateCanonicalMessage duplicate) ?_
      duplicate.1 rfl
    rw [validate, duplicateDiagnostics]
    exact List.mem_append_left
      _ (List.mem_append_right _ (List.mem_map_of_mem hduplicate))
  · intro hnone e he target hmessage
    rw [validate, duplicateDiagnostics, hnone, List.map_nil, List.append_nil,
      List.mem_append, List.mem_append] at he
    suffices hopens : ∃ start, Opens start e.message ∧
        ¬ start.toList <+: "Duplicate c".toList ∧ start.toList.length ≤ 11 by
      obtain ⟨start, hopens, hother, hshort⟩ := hopens
      exact ne_duplicateCanonicalMessage hopens hother hshort target hmessage
    rcases he with htarget | hcycle | hsettings
    · obtain ⟨duplicate, -, rfl⟩ := List.mem_map.1 htarget
      refine ⟨"Duplicate a", opens_append (opens_append (opens_append ?_ _) _)
        _, by decide, by decide⟩
      decide +kernel
    · obtain ⟨cycle, -, hcycle⟩ := List.mem_filterMap.1 hcycle
      obtain ⟨action, -, rfl⟩ := Option.map_eq_some_iff.1 hcycle
      refine ⟨"Circular",
        opens_append (opens_append ?_ _) _, by decide, by decide⟩
      decide +kernel
    · rw [settingsDiagnostics] at hsettings
      split at hsettings
      · cases List.mem_singleton.1 hsettings
        exact ⟨"A default", by decide +kernel, by decide, by decide⟩
      · cases hsettings

end Graph

end SqlWorkflow
