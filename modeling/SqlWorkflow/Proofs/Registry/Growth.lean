import SqlWorkflow.Proofs.Registry.Lookups

/-!
# Lookups in a registry that grows

Registering adds a candidate to the lookups that the new action matches, after
the candidates that they had, and leaves all others as they are. So a reference
never loses what it found: a target that was found may have to share the
reference with another one, and targets that share a reference keep their order.
-/

namespace SqlWorkflow.Registry

namespace Gains

variable {r next : Registry} {added : List Entry}

theorem action?_of_lt (hgains : Gains r next added) {place : Nat}
    (hlt : place < r.size) : next.action? place = r.action? place := by
  rw [action?_eq, action?_eq, hgains.actions,
    List.getElem?_append_left (by rwa [length_actions])]

/-- The action that is added first stands right after those that were there. -/
theorem action?_size {entry : Entry} (hgains : Gains r next (entry :: added)) :
    next.action? r.size = some entry.action := by
  rw [action?_eq, hgains.actions,
    List.getElem?_append_right (Nat.le_of_eq (length_actions r)),
    length_actions, Nat.sub_self]
  rfl

/-- The candidates of a reference stay, and those among the new actions come
after them. -/
theorem candidates_eq (hgains : Gains r next added) (h : Indexed r)
    (reference : Reference) :
    next.candidates reference = r.candidates reference ++
      (added.findIdxs (fun entry => entry.action.canonical.name =
        reference.name) r.size).filterMap fun place =>
        (next.action? place).bind fun action =>
          if fits reference action then some (place, action.target)
          else none := by
  rw [candidates, candidates, hgains.byName, List.filterMap_append]
  congr 1
  apply List.filterMap_congr
  intro place hplace
  obtain ⟨action, haction, -⟩ :=
    ((h.indexesExact.byName _).mem_iff place).1 hplace
  have hlt : place < r.actions.length := (List.getElem?_eq_some_iff.1 haction).1
  rw [hgains.action?_of_lt (by rwa [length_actions] at hlt)]

/-- A reference finds the same if no new action has its name. -/
theorem find_eq (hgains : Gains r next added) (h : Indexed r)
    {reference : Reference}
    (hother : ∀ entry ∈ added, reference.name ≠ entry.action.canonical.name) :
    next.find reference = r.find reference := by
  have hnone : added.findIdxs (fun entry => entry.action.canonical.name =
      reference.name) r.size = [] := by
    rw [List.findIdxs_eq_nil_iff]
    intro entry hentry
    exact decide_eq_false (hother entry hentry).symm
  rw [find, find, hgains.candidates_eq h, hnone, List.filterMap_nil,
    List.append_nil]

end Gains

/-- The answer of a lookup when one more action matches the reference. -/
def Lookup.gaining (place : Nat) (target : Target) : Lookup → Lookup
  | .missing => .found place target
  | .found first known =>
    if target = known then .found first known else .ambiguous [known, target]
  | .ambiguous known => .ambiguous (Target.addTo known target)

/-- Only a candidate with a new target is the first of its target. -/
theorem firstOfEach_concat (cs : List (Nat × Target)) (c : Nat × Target) :
    firstOfEach (cs ++ [c]) = firstOfEach cs ++ if c.2 ∈ cs.map (·.2) then
      [] else [c] := by
  induction cs with
  | nil => rfl
  | cons first cs ih =>
    rw [List.cons_append, firstOfEach, ih, List.filter_append, firstOfEach,
      List.cons_append]
    by_cases hfirst : c.2 = first.2
    · simp [hfirst, apply_ite (List.filter _)]
    · by_cases hmem : c.2 ∈ cs.map (·.2)
      · simp only [hmem, List.map_cons, List.mem_cons, or_true, if_true,
          List.filter_nil]
      · simp only [hmem, hfirst, List.map_cons, List.mem_cons,
          or_self, if_false]
        rw [List.filter_cons_of_pos (by simpa using hfirst), List.filter_nil]

theorem candidates_register {r : Registry} (h : Indexed r) (action : Action)
    (pending : Pending) (reference : Reference) :
    (r.register action pending).candidates reference =
      r.candidates reference ++ if Matches reference action then
        [(r.size, action.target)] else [] := by
  have hgains := gains_register r action pending
  rw [hgains.candidates_eq h, List.findIdxs_singleton]
  by_cases hname : action.canonical.name = reference.name
  · by_cases hfits : fits reference action
    · simp [hname, hfits, matches_iff, hgains.action?_size]
    · simp [hname, hfits, matches_iff, hgains.action?_size]
  · simp [hname, matches_iff]

/-- What a lookup answers after one more action was registered. -/
theorem find_register {r : Registry} (h : Indexed r) (action : Action)
    (pending : Pending) (reference : Reference) :
    (r.register action pending).find reference =
      if Matches reference action then
        (r.find reference).gaining r.size action.target
      else r.find reference := by
  -- The new candidate counts only if no candidate before it has its target.
  rw [find, find, candidates_register h]
  by_cases hmatches : Matches reference action
  · rw [if_pos hmatches, if_pos hmatches, firstOfEach_concat]
    have hmem : action.target ∈ (r.candidates reference).map (·.2) ↔
        action.target ∈ (firstOfEach (r.candidates reference)).map (·.2) := by
      rw [map_firstOfEach, List.mem_eraseDups]
    simp only [hmem]
    rcases firstOfEach (r.candidates reference) with
      _ | ⟨⟨place, target⟩, _ | ⟨second, rest⟩⟩
    · rfl
    · by_cases hsame : action.target = target <;> simp [Lookup.gaining, hsame]
    · by_cases hknown : action.target ∈
        ((place, target) :: second :: rest).map (·.2)
      · rw [if_pos hknown, List.append_nil]
        exact congrArg Lookup.ambiguous (if_pos hknown).symm
      · rw [if_neg hknown]
        have hadded : ((place, target) :: second :: rest ++
            [(r.size, action.target)]).map (·.2) =
            ((place, target) :: second :: rest).map (·.2) ++ [action.target] :=
          List.map_append
        exact congrArg Lookup.ambiguous (hadded.trans (if_neg hknown).symm)
  · rw [if_neg hmatches, if_neg hmatches, List.append_nil]

/-- How a lookup may change when actions are registered. -/
inductive Lookup.Grows : Lookup → Lookup → Prop
  | missing : Grows .missing .missing
  | appears (place : Nat)
      (target : Target) : Grows .missing (.found place target)
  | found (place : Nat)
      (target : Target) : Grows (.found place target) (.found place target)
  | shared (place : Nat) (target : Target) (candidates : List Target) :
      Grows (.found place target) (.ambiguous candidates)
  | ambiguous {candidates more : List Target} (h : candidates <+: more) :
      Grows (.ambiguous candidates) (.ambiguous more)

theorem Lookup.grows_gaining (place : Nat) (target : Target) (lookup : Lookup) :
    lookup.Grows (lookup.gaining place target) := by
  cases lookup with
  | missing => exact .appears place target
  | found first known =>
    rw [gaining]
    split
    · exact .found first known
    · exact .shared first known _
  | ambiguous known =>
    refine .ambiguous ?_
    rw [Target.addTo]
    split
    · exact List.prefix_refl known
    · exact List.prefix_append known [target]

theorem Lookup.Grows.refl (lookup : Lookup) : lookup.Grows lookup := by
  cases lookup with
  | missing => exact .missing
  | found place target => exact .found place target
  | ambiguous candidates => exact .ambiguous (List.prefix_refl candidates)

/-- Registering an action makes a lookup grow, whatever the action is. -/
theorem grows_find_register {r : Registry} (h : Indexed r) (action : Action)
    (pending : Pending) (reference : Reference) :
    (r.find reference).Grows ((r.register action pending).find reference) := by
  rw [find_register h]
  split
  · exact Lookup.grows_gaining r.size action.target _
  · exact .refl _

end SqlWorkflow.Registry
