import Mathlib.Data.List.Nodup
import SqlWorkflow.Registry.Synthesis

/-!
# Entries at the end of a registry

Registering adds entries at the end. The entries before them stay as they are,
and each index gains the places of the new entries with a key, after the places
that it had. One step and any number of steps are described in the same way.
-/

namespace SqlWorkflow

namespace Registry

/-- A registry to whose end entries were added. -/
structure Gains (r next : Registry) (added : List Entry) : Prop where
  entries : next.entries = r.entries ++ added
  byName : ∀ name, next.byName.places name =
    r.byName.places name ++
      added.findIdxs (fun entry => entry.action.canonical.name = name) r.size
  byTarget : ∀ target, next.byTarget.places target =
    r.byTarget.places target ++
      added.findIdxs (fun entry => entry.action.target = target) r.size
  byCanonical : ∀ target, next.byCanonical.places target =
    r.byCanonical.places target ++
      added.findIdxs (fun entry => entry.action.canonical = target) r.size
  byParent : ∀ parent, next.byParent.places parent =
    r.byParent.places parent ++
      added.findIdxs (fun entry => entry.action.parent? = some parent) r.size

theorem gains_nothing (r : Registry) : Gains r r [] where
  entries := (List.append_nil _).symm
  byName _ := (List.append_nil _).symm
  byTarget _ := (List.append_nil _).symm
  byCanonical _ := (List.append_nil _).symm
  byParent _ := (List.append_nil _).symm

theorem gains_register (r : Registry) (action : Action) (pending : Pending) :
    Gains r (r.register action pending) [⟨action, pending⟩] where
  entries := rfl
  byName name := by
    rw [List.findIdxs_singleton, register, Index.places_add]
    simp only [decide_eq_true_eq, @eq_comm _ name]
  byTarget target := by
    rw [List.findIdxs_singleton, register, Index.places_add]
    simp only [decide_eq_true_eq, @eq_comm _ target]
  byCanonical target := by
    rw [List.findIdxs_singleton, register, Index.places_add]
    simp only [decide_eq_true_eq, @eq_comm _ target]
  byParent parent := by
    rw [List.findIdxs_singleton, register]
    cases hparent : action.parent? with
    | none => simp
    | some other => simp [Index.places_add, eq_comm]

theorem length_actions (r : Registry) : r.actions.length = r.size :=
  List.length_map _

section

variable {r next : Registry} {added : List Entry}

theorem Gains.actions (h : Gains r next added) :
    next.actions = r.actions ++ added.map (·.action) := by
  rw [Registry.actions, h.entries, List.map_append]
  rfl

theorem Gains.size (h : Gains r next added) :
    next.size = r.size + added.length := by
  rw [Registry.size, h.entries, List.length_append]
  rfl

/-- The entries before stay at their places. -/
theorem Gains.getElem?_of_some (h : Gains r next added) {place : Nat}
    {entry : Entry} (hentry : r.entries[place]? = some entry) :
    next.entries[place]? = some entry := by
  have hlt : place < r.entries.length := (List.getElem?_eq_some_iff.1 hentry).1
  rw [h.entries, List.getElem?_append_left hlt, hentry]

end

theorem Gains.trans {r middle next : Registry} {first second : List Entry}
    (hfirst : Gains r middle first)
    (hsecond : Gains middle next second) : Gains r next (first ++ second) := by
  exact
    { entries := by rw [hsecond.entries, hfirst.entries, List.append_assoc]
      byName := fun name => by
        rw [hsecond.byName, hfirst.byName, hfirst.size, List.findIdxs_append,
          List.append_assoc]
      byTarget := fun target => by
        rw [hsecond.byTarget, hfirst.byTarget, hfirst.size,
          List.findIdxs_append, List.append_assoc]
      byCanonical := fun target => by
        rw [hsecond.byCanonical, hfirst.byCanonical, hfirst.size,
          List.findIdxs_append, List.append_assoc]
      byParent := fun parent => by
        rw [hsecond.byParent, hfirst.byParent, hfirst.size,
          List.findIdxs_append, List.append_assoc] }

theorem findIdxs_of_forall {α : Type} {p : α → Bool} {as : List α}
    (h : ∀ a ∈ as, p a = true) (start : Nat) :
    as.findIdxs p start = List.range' start as.length := by
  induction as generalizing start with
  | nil => rfl
  | cons a as ih =>
    obtain ⟨ha, has⟩ := List.forall_mem_cons.1 h
    rw [List.findIdxs_cons, if_pos ha, ih has, List.length_cons,
      List.range'_succ]

/-- At the places of the entries that are added stand those entries. -/
theorem Gains.exists_mem {r next : Registry} {added : List Entry}
    (h : Gains r next added) {place : Nat}
    (hplace : place ∈ List.range' r.size added.length) :
    ∃ entry ∈ added, next.entries[place]? = some entry := by
  obtain ⟨index, hlt, rfl⟩ := List.mem_range'.1 hplace
  refine ⟨added[index], List.getElem_mem hlt, ?_⟩
  rw [h.entries, Nat.one_mul, Registry.size,
    List.getElem?_append_right (Nat.le_add_right _ _), Nat.add_sub_cancel_left]
  exact List.getElem?_eq_getElem hlt

/-- Entries of one parent are gained as the assertions of that parent. -/
theorem Gains.assertionsOf {r next : Registry} {added : List Entry}
    (h : Gains r next added) {parent : Target}
    (hparent : ∀ entry ∈ added, entry.action.parent? = some parent)
    (target : Target) :
    next.assertionsOf target = r.assertionsOf target ++ if target = parent then
      List.range' r.size added.length else [] := by
  rw [Registry.assertionsOf, h.byParent]
  congr 1
  split
  · rename_i htarget
    apply findIdxs_of_forall
    intro entry hentry
    rw [htarget, hparent entry hentry]
    exact decide_eq_true rfl
  · rename_i hother
    rw [List.findIdxs_eq_nil_iff]
    intro entry hentry
    rw [hparent entry hentry]
    exact decide_eq_false fun heq => hother (Option.some.inj heq).symm

theorem gains_registerAll (r : Registry) (actions : List Action) :
    Gains r (r.registerAll actions).1 (actions.map (⟨·, .nothing⟩)) := by
  induction actions generalizing r with
  | nil => exact gains_nothing r
  | cons action rest ih =>
    exact (gains_register r action .nothing).trans
      (ih (r.register action .nothing))

/-- Registering tells the places of the entries that it adds. -/
theorem registerAll_snd (r : Registry) (actions : List Action) :
    (r.registerAll actions).2 = List.range' r.size actions.length := by
  induction actions generalizing r with
  | nil => rfl
  | cons action rest ih =>
    rw [List.length_cons, List.range'_succ,
      ← size_register r action .nothing, ← ih]
    rfl

theorem gains_synthesize (r : Registry) (settings : Settings.Pair)
    (warehouse : Warehouse) (parent : Action) (parentDatabase : Option String)
    (checks : Action.Checks) :
    Gains r (r.synthesize settings warehouse parent parentDatabase checks)
      ((assertionsFor settings warehouse parent parentDatabase checks).map
        (⟨·, .nothing⟩)) := by
  rw [← synthesizeWithPlaces_fst]
  exact gains_registerAll r _

end Registry

end SqlWorkflow
