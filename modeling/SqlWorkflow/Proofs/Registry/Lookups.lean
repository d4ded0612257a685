import SqlWorkflow.Proofs.Registry.Indexed
import SqlWorkflow.Registry.Lookup

/-!
# What a registry answers

The answers of a registry are told from its actions alone. An index lists the
places of the actions with a key, each once and in order. A reference is looked
up among the actions that match it: none is found if there is none, the first if
all have one target, and otherwise the lookup gives the targets that they have,
each once, in the order of their first registration.
-/

namespace SqlWorkflow.Registry

/-- The places of the actions with a property, each once and in order. -/
structure Lists (places : List Nat) (actions : List Action)
    (property : Action → Prop) : Prop where
  increasing : places.Pairwise (· < ·)
  mem_iff : ∀ place, place ∈ places ↔
    ∃ action, actions[place]? = some action ∧ property action

/-- The indexes of a registry hold what its actions say. -/
structure IndexesExact (r : Registry) : Prop where
  byName : ∀ name,
    Lists (r.byName.places name) r.actions (·.canonical.name = name)
  byTarget : ∀ target,
    Lists (r.byTarget.places target) r.actions (·.target = target)
  byCanonical : ∀ target,
    Lists (r.byCanonical.places target) r.actions (·.canonical = target)
  byParent : ∀ parent,
    Lists (r.byParent.places parent) r.actions (·.parent? = some parent)

theorem lists_findIdxs (actions : List Action) (property : Action → Prop)
    [DecidablePred property] :
    Lists (actions.findIdxs (property ·)) actions property where
  increasing := List.pairwise_findIdxs
  mem_iff place := by
    rw [List.mem_findIdxs_iff_exists_getElem_pos]
    constructor
    · rintro ⟨hlt, hproperty⟩
      exact ⟨actions[place], List.getElem?_eq_getElem hlt,
        of_decide_eq_true hproperty⟩
    · rintro ⟨action, hplace, hproperty⟩
      obtain ⟨hlt, rfl⟩ := List.getElem?_eq_some_iff.1 hplace
      exact ⟨hlt, decide_eq_true hproperty⟩

theorem Indexed.indexesExact {r : Registry}
    (h : Indexed r) : IndexesExact r where
  byName name := h.byName name ▸ lists_findIdxs _ _
  byTarget target := h.byTarget target ▸ lists_findIdxs _ _
  byCanonical target := h.byCanonical target ▸ lists_findIdxs _ _
  byParent parent := h.byParent parent ▸ lists_findIdxs _ _

/-- The action has the name of the reference, and each other part that the
reference gives is that of its target or that of its canonical target. -/
def Matches (reference : Reference) (action : Action) : Prop :=
  action.canonical.name = reference.name ∧
    (reference.schema.isSome → reference.schema = action.target.schema ∨
      reference.schema = action.canonical.schema) ∧
    (reference.database.isSome → reference.database = action.target.database ∨
      reference.database = action.canonical.database)

instance (reference : Reference) : DecidablePred (Matches reference) := fun _ =>
  inferInstanceAs (Decidable (_ ∧ _ ∧ _))

/-- The actions that match a reference, in the order of their registration. -/
def matching (r : Registry) (reference : Reference) : List Action :=
  r.actions.filter fun action => Matches reference action

/-- A lookup gives what the actions that match the reference tell. -/
structure FindExact (r : Registry) (reference : Reference) : Prop where
  missing_iff : r.find reference = .missing ↔ r.matching reference = []
  found_iff : ∀ place target, r.find reference = .found place target ↔
    (∃ action, r.actions[place]? = some action ∧ Matches reference action ∧
      action.target = target) ∧
      ∀ other action, r.actions[other]? = some action →
        Matches reference action → place ≤ other ∧ action.target = target
  ambiguous_iff : ∀ targets, r.find reference = .ambiguous targets ↔
    (∃ left ∈ r.matching reference, ∃ right ∈ r.matching reference,
      left.target ≠ right.target) ∧
      targets = ((r.matching reference).map (·.target)).eraseDups
  nodup_of_ambiguous : ∀ targets, r.find reference = .ambiguous targets →
    targets.Nodup

theorem partFits_iff {wanted effective canonical : Option String} :
    partFits wanted effective canonical ↔
      (wanted.isSome → wanted = effective ∨ wanted = canonical) := by
  cases wanted <;> simp [partFits]

theorem matches_iff {reference : Reference} {action : Action} :
    Matches reference action ↔
      action.canonical.name = reference.name ∧ fits reference action := by
  rw [Matches, fits, Bool.and_eq_true, partFits_iff, partFits_iff]

section Candidates

variable {r : Registry} (h : Indexed r) (reference : Reference)
include h

theorem mem_candidates {place : Nat} {target : Target} :
    (place, target) ∈ r.candidates reference ↔
      ∃ action, r.actions[place]? = some action ∧ Matches reference action ∧
        action.target = target := by
  rw [candidates, List.mem_filterMap]
  constructor
  · rintro ⟨other, hother, hchosen⟩
    obtain ⟨action, haction, hsome⟩ := Option.bind_eq_some_iff.1 hchosen
    rw [action?_eq] at haction
    obtain ⟨named, hnamed, hname⟩ :=
      ((h.indexesExact.byName _).mem_iff other).1 hother
    obtain rfl : named = action := Option.some.inj (hnamed.symm.trans haction)
    by_cases hfits : fits reference named
    · rw [if_pos hfits, Option.some.injEq, Prod.mk.injEq] at hsome
      obtain ⟨rfl, htarget⟩ := hsome
      exact ⟨named, hnamed, matches_iff.2 ⟨hname, hfits⟩, htarget⟩
    · rw [if_neg hfits] at hsome
      cases hsome
  · rintro ⟨action, hplace, hmatches, rfl⟩
    obtain ⟨hname, hfits⟩ := matches_iff.1 hmatches
    refine ⟨place,
      ((h.indexesExact.byName _).mem_iff place).2 ⟨action, hplace, hname⟩, ?_⟩
    rw [action?_eq, hplace, Option.bind_some, if_pos hfits]

/-- Candidates stand in the order of their places. -/
theorem pairwise_candidates :
    (r.candidates reference).Pairwise (·.1 < ·.1) := by
  rw [candidates, List.pairwise_filterMap]
  refine (h.indexesExact.byName reference.name).increasing.imp ?_
  intro place other hlt left hleft right hright
  obtain ⟨_, -, hleft⟩ := Option.bind_eq_some_iff.1 hleft
  obtain ⟨_, -, hright⟩ := Option.bind_eq_some_iff.1 hright
  split at hleft
  · split at hright
    · cases hleft
      cases hright
      exact hlt
    · cases hright
  · cases hleft

theorem map_candidates :
    (r.candidates reference).map (·.2) =
      (r.matching reference).map (·.target) := by
  let chosen : Action → Option Target := fun action =>
    if fits reference action then some action.target else none
  calc
    (r.candidates reference).map (·.2) =
      (r.byName.places reference.name).filterMap fun place =>
        r.actions[place]?.bind chosen := by
      rw [candidates, List.map_filterMap]
      apply List.filterMap_congr
      intro place _
      rw [← action?_eq, Option.map_bind]
      congr 1
      funext action
      simp only [Function.comp_apply, chosen]
      split <;> rfl
    _ = ((r.byName.places reference.name).filterMap fun place =>
        r.actions[place]?).filterMap chosen := by
      rw [List.filterMap_filterMap]
    _ = (r.actions.filter fun action => action.canonical.name =
        reference.name).filterMap chosen := by
      rw [h.byName, filterMap_getElem?_findIdxs]
    _ = (r.matching reference).map (·.target) := by
      rw [matching, ← List.filterMap_eq_filter, List.filterMap_filterMap,
        ← List.filterMap_eq_filter, List.map_filterMap]
      apply List.filterMap_congr
      intro action _
      by_cases hname : action.canonical.name = reference.name <;>
        by_cases hfits : fits reference action <;>
          simp [Option.guard, matches_iff, chosen, hname, hfits]

end Candidates

/-- Leaving out targets commutes with keeping the first candidate of each. -/
theorem firstOfEach_filter (keep : Target → Bool) (cs : List (Nat × Target)) :
    firstOfEach (cs.filter fun c => keep c.2) = (firstOfEach cs).filter fun c =>
      keep c.2 := by
  induction cs with
  | nil => rfl
  | cons c cs ih =>
    by_cases hkeep : keep c.2
    · rw [List.filter_cons_of_pos (by exact hkeep), firstOfEach, firstOfEach,
        List.filter_cons_of_pos (by exact hkeep), ih, List.filter_comm]
    · rw [List.filter_cons_of_neg (by exact hkeep), firstOfEach,
        List.filter_cons_of_neg (by exact hkeep), ih, List.filter_filter]
      apply List.filter_congr
      intro other _
      by_cases hsame : other.2 = c.2
      · simp [hsame, hkeep]
      · simp [hsame]

theorem map_firstOfEach (cs : List (Nat × Target)) :
    (firstOfEach cs).map (·.2) = (cs.map (·.2)).eraseDups := by
  induction hlength : cs.length using Nat.strongRecOn generalizing cs with
  | ind length ih =>
    subst hlength
    cases cs with
    | nil => rfl
    | cons c cs =>
      have hshorter : (cs.filter fun other => other.2 ≠ c.2).length <
          (c :: cs).length :=
        Nat.lt_succ_of_le (List.length_filter_le _ _)
      have hrest := ih _ hshorter _ rfl
      rw [firstOfEach, List.map_cons, List.map_cons, List.eraseDups_cons,
        List.filter_map]
      congr 1
      rw [← firstOfEach_filter fun other => other ≠ c.2, hrest]
      congr 3
      funext other
      simp [beq_eq_decide]

theorem firstOfEach_eq_nil_iff {cs : List (Nat × Target)} :
    firstOfEach cs = [] ↔ cs = [] := by
  cases cs <;> simp [firstOfEach]

/-- A single candidate is left of those that all have one target: the first. -/
theorem firstOfEach_eq_singleton_iff {cs : List (Nat × Target)}
    (hincreasing : cs.Pairwise (·.1 < ·.1)) {place : Nat} {target : Target} :
    firstOfEach cs = [(place, target)] ↔
      (place, target) ∈ cs ∧ ∀ c ∈ cs, place ≤ c.1 ∧ c.2 = target := by
  cases cs with
  | nil => simp [firstOfEach]
  | cons first rest =>
    obtain ⟨hfirst, -⟩ := List.pairwise_cons.1 hincreasing
    rw [firstOfEach, ← firstOfEach_filter fun other => other ≠ first.2,
      List.cons.injEq, firstOfEach_eq_nil_iff, List.filter_eq_nil_iff]
    constructor
    · rintro ⟨rfl, hrest⟩
      refine ⟨List.mem_cons_self, ?_⟩
      intro c hc
      rcases List.mem_cons.1 hc with rfl | hc
      · exact ⟨Nat.le_refl _, rfl⟩
      · exact ⟨Nat.le_of_lt (hfirst c hc), by simpa using hrest c hc⟩
    · rintro ⟨hmem, hall⟩
      have hhead : first = (place, target) := by
        rcases List.mem_cons.1 hmem with heq | hlater
        · exact heq.symm
        · exact absurd (hall first List.mem_cons_self).1
            (Nat.not_le_of_gt (hfirst _ hlater))
      refine ⟨hhead, ?_⟩
      intro c hc
      simp [hhead, (hall c (List.mem_cons_of_mem _ hc)).2]

/-- A list without repetitions has two different members if it has more than
one. -/
theorem exists_ne_iff_one_lt_length {targets : List Target}
    (h : targets.Nodup) :
    (∃ left ∈ targets, ∃ right ∈ targets, left ≠ right) ↔
      1 < targets.length := by
  match targets with
  | [] => simp
  | [target] => simp
  | first :: second :: rest =>
    have hne : first ≠ second := by
      rintro rfl
      simp at h
    exact iff_of_true ⟨first, by simp, second, by simp, hne⟩ (by simp)

section Found

variable {r : Registry} {reference : Reference}

theorem find_eq_missing_iff :
    r.find reference = .missing ↔ r.candidates reference = [] := by
  rw [← firstOfEach_eq_nil_iff, find]
  split <;> simp_all

theorem find_eq_found_iff {place : Nat} {target : Target} :
    r.find reference = .found place target ↔
      firstOfEach (r.candidates reference) = [(place, target)] := by
  rw [find]
  split <;> simp_all

theorem find_eq_ambiguous_iff {targets : List Target} :
    r.find reference = .ambiguous targets ↔
      1 < targets.length ∧
        targets = (firstOfEach (r.candidates reference)).map (·.2) := by
  rw [find]
  generalize firstOfEach (r.candidates reference) = each
  have hfew : each.length ≤ 1 →
      ¬(1 < targets.length ∧ targets = each.map (·.2)) := by
    rintro hle ⟨hlt, rfl⟩
    rw [List.length_map] at hlt
    exact Nat.not_lt_of_le hle hlt
  match each with
  | [] => exact iff_of_false nofun (hfew (Nat.zero_le 1))
  | [_] => exact iff_of_false nofun (hfew (Nat.le_refl 1))
  | first :: second :: rest =>
    constructor
    · rintro ⟨⟩
      exact ⟨by simp, rfl⟩
    · rintro ⟨-, rfl⟩
      rfl

/-- What a lookup answers follows from the actions that match the reference. -/
theorem Indexed.findExact (h : Indexed r)
    (reference : Reference) : FindExact r reference where
  missing_iff := by
    rw [find_eq_missing_iff, ← List.map_eq_nil_iff, map_candidates h,
      List.map_eq_nil_iff]
  found_iff place target := by
    rw [find_eq_found_iff,
      firstOfEach_eq_singleton_iff (pairwise_candidates h reference),
      mem_candidates h]
    apply and_congr_right
    rintro -
    constructor
    · intro hall other action hplace hmatches
      exact hall
        _ ((mem_candidates h reference).2 ⟨action, hplace, hmatches, rfl⟩)
    · rintro hall ⟨other, _⟩ hc
      obtain ⟨action, hplace, hmatches, rfl⟩ :=
        (mem_candidates h reference).1 hc
      exact hall other action hplace hmatches
  ambiguous_iff targets := by
    have htargets : (firstOfEach (r.candidates reference)).map (·.2) =
        ((r.matching reference).map (·.target)).eraseDups := by
      rw [map_firstOfEach, map_candidates h]
    have hnodup := htargets ▸ nodup_firstOfEach (r.candidates reference)
    have hseveral := exists_ne_iff_one_lt_length hnodup
    simp only [List.mem_eraseDups, List.mem_map,
      exists_exists_and_eq_and] at hseveral
    rw [find_eq_ambiguous_iff, htargets, hseveral]
    apply and_congr_left
    rintro rfl
    rfl
  nodup_of_ambiguous targets htargets := by
    rw [(find_eq_ambiguous_iff.1 htargets).2]
    exact nodup_firstOfEach _

end Found

end SqlWorkflow.Registry
