import SqlWorkflow.Proofs.Registry.Lookups

/-!
# The order of registration

The same actions may be registered in any order. What a reference finds does not
depend on it: a lookup finds the same target, or none, or the same candidates,
which are then listed in another order.
-/

namespace SqlWorkflow.Registry

/-- The registry of some entries, registered one after the other. -/
def ofEntries (entries : List Entry) : Registry :=
  entries.foldl (fun r entry => r.register entry.action entry.pending) .empty

theorem ofEntries_concat (entries : List Entry) (entry : Entry) :
    ofEntries (entries ++ [entry]) =
      (ofEntries entries).register entry.action entry.pending := by
  rw [ofEntries, List.foldl_append]
  rfl

@[simp] theorem entries_ofEntries (entries : List Entry) :
    (ofEntries entries).entries = entries := by
  induction entries using List.reverseRecOn with
  | nil => rfl
  | append_singleton entries entry ih =>
    rw [ofEntries_concat, register, ih]

theorem indexed_ofEntries (entries : List Entry) :
    Indexed (ofEntries entries) := by
  induction entries using List.reverseRecOn with
  | nil => exact indexed_empty
  | append_singleton entries entry ih =>
    rw [ofEntries_concat]
    exact ih.of_gains (gains_register _ entry.action entry.pending)

/-- Answers that differ in the place of an action and in the order of the
candidates at most. -/
inductive Lookup.Alike : Lookup → Lookup → Prop
  | found (place other : Nat)
      (target : Target) : Alike (.found place target) (.found other target)
  | missing : Alike .missing .missing
  | ambiguous {candidates others : List Target} (h : candidates.Perm others) :
      Alike (.ambiguous candidates) (.ambiguous others)

/-- All lookups are alike in the two registries. -/
def Alike (r other : Registry) : Prop :=
  ∀ reference, (r.find reference).Alike (other.find reference)

/-- All actions that match a reference have the target that it finds. -/
theorem FindExact.targets_of_found {r : Registry} {reference : Reference}
    (h : FindExact r reference) {place : Nat} {target : Target}
    (hfind : r.find reference = .found place target) :
    r.matching reference ≠ [] ∧
      ∀ action ∈ r.matching reference, action.target = target := by
  obtain ⟨⟨action, hplace, hmatches, -⟩, hall⟩ :=
    (h.found_iff place target).1 hfind
  constructor
  · apply List.ne_nil_of_mem
    exact List.mem_filter.2
      ⟨List.mem_of_getElem? hplace, decide_eq_true hmatches⟩
  · intro other hother
    obtain ⟨hmem, hmatches⟩ := List.mem_filter.1 hother
    obtain ⟨otherPlace, hotherPlace⟩ := List.mem_iff_getElem?.1 hmem
    exact (hall otherPlace other hotherPlace (of_decide_eq_true hmatches)).2

/-- Lookups agree in registries of which the matching actions are the same in
some order. -/
theorem FindExact.alike {r other : Registry} {reference : Reference}
    (h : FindExact r reference) (hother : FindExact other reference)
    (hperm : (r.matching reference).Perm (other.matching reference)) :
    Lookup.Alike (r.find reference) (other.find reference) := by
  cases hfind : r.find reference with
  | missing =>
    have hnil : other.matching reference = [] := by
      have hempty := h.missing_iff.1 hfind
      rw [hempty] at hperm
      exact hperm.nil_eq.symm
    rw [hother.missing_iff.2 hnil]
    exact .missing
  | found place target =>
    obtain ⟨hne, htargets⟩ := h.targets_of_found hfind
    cases hfindOther : other.find reference with
    | missing =>
      rw [hother.missing_iff.1 hfindOther] at hperm
      exact absurd hperm.eq_nil hne
    | found otherPlace otherTarget =>
      obtain ⟨-, hothers⟩ := hother.targets_of_found hfindOther
      obtain ⟨action, haction⟩ := List.exists_mem_of_ne_nil _ hne
      have hsame : target = otherTarget :=
        (htargets action haction).symm.trans
          (hothers action (hperm.mem_iff.1 haction))
      rw [hsame]
      exact .found _ _ _
    | ambiguous candidates =>
      obtain ⟨⟨left, hleft, right, hright, hne⟩, -⟩ :=
        (hother.ambiguous_iff _).1 hfindOther
      apply absurd _ hne
      rw [htargets left (hperm.mem_iff.2 hleft),
        htargets right (hperm.mem_iff.2 hright)]
  | ambiguous candidates =>
    obtain ⟨⟨left, hleft, right, hright, hne⟩, hcandidates⟩ :=
      (h.ambiguous_iff _).1 hfind
    have hfindOther := (hother.ambiguous_iff _).2
      ⟨⟨left, hperm.mem_iff.1 hleft, right, hperm.mem_iff.1 hright, hne⟩, rfl⟩
    rw [hfindOther]
    apply Lookup.Alike.ambiguous
    rw [List.perm_ext_iff_of_nodup (h.nodup_of_ambiguous _ hfind)
      (hother.nodup_of_ambiguous _ hfindOther)]
    intro target
    rw [hcandidates, List.mem_eraseDups, List.mem_eraseDups,
      (hperm.map _).mem_iff]

theorem perm_actions_ofEntries {entries others : List Entry}
    (h : entries.Perm others) :
    (ofEntries entries).actions.Perm (ofEntries others).actions := by
  rw [actions, actions, entries_ofEntries, entries_ofEntries]
  exact h.map _

/-- What references find does not depend on the order in which the actions were
registered. -/
theorem alike_of_perm {entries others : List Entry} (h : entries.Perm others) :
    Alike (ofEntries entries) (ofEntries others) := fun reference =>
  ((indexed_ofEntries entries).findExact reference).alike
    ((indexed_ofEntries others).findExact reference)
    ((perm_actions_ofEntries h).filter _)

end SqlWorkflow.Registry
