import SqlWorkflow.Proofs.Link.Like
import SqlWorkflow.Proofs.Registry.Reordered

/-!
# Rendering in like registries

Rendering asks a registry what references find, and nothing else. In two
registries where all lookups are alike, a template gives the same text, the same
places and the same requests, and faults that differ in the order of the
candidates at most.
-/

namespace SqlWorkflow.Link

open Registry (Lookup Templates)

/-- Faults that differ in the order in which candidates are listed at most. -/
inductive Fault.Alike : Fault → Fault → Prop
  | same (fault : Fault) : Alike fault fault
  | ambiguous (reference : Reference) {candidates others : List Target}
      (h : candidates.Perm others) :
      Alike (.ambiguous reference candidates) (.ambiguous reference others)

theorem Fault.Alike.refl_all (faults : List Fault) :
    List.Forall₂ Fault.Alike faults faults :=
  List.forall₂_same.2 fun fault _ => .same fault

theorem exists_alike_of_mem {left right : List Fault}
    (h : List.Forall₂ Fault.Alike left right) {fault : Fault}
    (hfault : fault ∈ left) : ∃ other ∈ right, fault.Alike other := by
  induction h with
  | nil => cases hfault
  | cons hfirst _ ih =>
    rcases List.mem_cons.1 hfault with rfl | hrest
    · exact ⟨_, List.mem_cons_self, hfirst⟩
    · obtain ⟨other, hother, hlike⟩ := ih hrest
      exact ⟨other, List.mem_cons_of_mem _ hother, hlike⟩

/-- The same value, with notes that differ in the order of candidates at
most. -/
structure Rendered.Alike {α : Type} (left right : Rendered α) : Prop where
  value : left.value = right.value
  sites : left.notes.sites = right.notes.sites
  faults : List.Forall₂ Fault.Alike left.notes.faults right.notes.faults
  requests : left.notes.requests = right.notes.requests

theorem Rendered.Like.alike {α : Type} {left right : Rendered α}
    (h : left.Like Fault.Alike (· = ·) right) : left.Alike right :=
  ⟨h.value, h.sites, h.faults, List.forall₂_eq_eq_eq ▸ h.requests⟩

namespace Scope

/-- The same scope in another registry. -/
def within (scope : Scope) (other : Registry) : Scope :=
  { scope with registry := other }

variable (scope : Scope) {other : Registry}

/-- A reference comes to the same value. A placeholder for the script runtime
makes the same request. -/
theorem like_within (hfind : scope.registry.Alike other) :
    scope.Like Fault.Alike (· = ·) (scope.within other) where
  config := rfl
  selfTarget := rfl
  incremental := rfl
  template error := .same (.template error)
  resolve reference depends := by
    have h := hfind reference
    simp only [resolve, within]
    generalize scope.registry.find reference = left at h ⊢
    generalize other.find reference = right at h ⊢
    cases h with
    | found place other target => exact ⟨rfl, rfl, .nil, .nil⟩
    | missing => exact .faulty _ (.same _)
    | ambiguous hperm => exact .faulty _ (.ambiguous reference hperm)
  evaluate _ _ := ⟨rfl, rfl, Fault.Alike.refl_all _, List.forall₂_refl _⟩

/-- The SQL of an action is the same in registries where lookups are alike. -/
theorem alike_sql (hfind : scope.registry.Alike other)
    (isIncremental interpolate : Bool) (templates : Templates) :
    (scope.sql isIncremental interpolate templates).Alike
      ((scope.within other).sql isIncremental interpolate templates) :=
  ((scope.like_within hfind).sql isIncremental interpolate templates).alike

end Scope

end SqlWorkflow.Link
