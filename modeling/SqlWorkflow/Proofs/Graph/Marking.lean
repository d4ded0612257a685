import Mathlib.Logic.Relation
import SqlWorkflow.Proofs.Graph.Search

/-!
# The search with marks

A depth-first search in single steps. It marks each node as not visited, on the
stack or done, keeps with each node on the stack the place of the edge to follow
next, and looks up where on the stack a cycle begins. It is shown to report what
the search over the nodes not reached yet reports, and always to find the place
that it looks up.
-/

namespace SqlWorkflow.Graph

open Relation (ReflTransGen)

inductive Mark
  | unvisited
  | onStack
  | done
  deriving DecidableEq

/-- The state of a search that marks its nodes. -/
structure Marking where
  marks : List Mark
  /-- The nodes that were not considered as roots yet. -/
  roots : List Nat
  /-- The nodes under way, last one first, with the place of the edge to follow
  next. -/
  stack : List (Nat × Nat)
  cycles : List (List Nat)

namespace Marking

def start (edges : List (List Nat)) : Marking :=
  ⟨List.replicate edges.length .unvisited, List.range edges.length, [], []⟩

/-- The nodes on the stack, first one first. -/
def nodes (state : Marking) : List Nat :=
  (state.stack.map Prod.fst).reverse

/-- The place of a node on the stack. -/
def position? (state : Marking) (node : Nat) : Option Nat :=
  state.nodes.findIdx? (· == node)

/-- The chain from a node on the stack round to itself. If the node were not on
the stack, the chain would begin where the stack begins. -/
def chainTo (state : Marking) (node : Nat) : List Nat :=
  state.nodes.drop ((state.position? node).getD 0) ++ [node]

def visit (state : Marking) (node : Nat) : Marking :=
  { state with
    marks := state.marks.set node .onStack, stack := (node, 0) :: state.stack }

def leave (state : Marking) (node : Nat) (below : List (Nat × Nat)) : Marking :=
  { state with marks := state.marks.set node .done, stack := below }

/-- Goes on to the next edge of a node. -/
def advance (state : Marking) (node next : Nat)
    (below : List (Nat × Nat)) : Marking :=
  { state with stack := (node, next + 1) :: below }

def report (state : Marking) (node : Nat) : Marking :=
  { state with cycles := state.cycles ++ [state.chainTo node] }

def withRoots (state : Marking) (roots : List Nat) : Marking :=
  { state with roots := roots }

/-- Follows an edge to a node. -/
def follow (state : Marking) (node : Nat) : Marking :=
  match state.marks[node]? with
  | some Mark.unvisited => state.visit node
  | some Mark.onStack => state.report node
  | some Mark.done | none => state

/-- One step of the search, unless it is over. -/
def step (edges : List (List Nat)) (state : Marking) : Option Marking :=
  match state.stack with
  | [] =>
    match state.roots with
    | [] => none
    | root :: rest =>
      if state.marks[root]? = some .unvisited then
        some ((state.visit root).withRoots rest)
      else some (state.withRoots rest)
  | (node, next) :: below =>
    match (edges[node]?.getD [])[next]? with
    | none => some (state.leave node below)
    | some child => some ((state.advance node next below).follow child)

abbrev Runs (edges : List (List Nat)) : Marking → Marking → Prop :=
  ReflTransGen fun state later => step edges state = some later

/-- The marks of a state fit its stack and the roots that are left. -/
structure Consistent (state : Marking) : Prop where
  onStack : ∀ node, state.marks[node]? = some .onStack ↔
    node ∈ state.stack.map Prod.fst
  nodup : (state.stack.map Prod.fst).Nodup
  unvisited : ∀ node, state.marks[node]? = some .unvisited → node ∈ state.roots
  nodup_roots : state.roots.Nodup

namespace Consistent

variable {state : Marking}

theorem start (edges : List (List Nat)) : Consistent (start edges) where
  onStack node := by simp [Marking.start, List.getElem?_replicate]
  nodup := .nil
  unvisited node h := by
    obtain ⟨hlt, -⟩ := List.getElem?_eq_some_iff.1 h
    simpa [Marking.start] using hlt
  nodup_roots := List.nodup_range

/-- Visiting a node that is not visited yet; it may be the root that was taken
last. -/
theorem visit {node : Nat} (h : Consistent state)
    (hnode : state.marks[node]? = some .unvisited) :
    Consistent (state.visit node) where
  onStack other := by
    by_cases heq : node = other
    · subst heq
      obtain ⟨hlt, -⟩ := List.getElem?_eq_some_iff.1 hnode
      simp [Marking.visit, hlt]
    · simp [Marking.visit, List.getElem?_set_ne heq, h.onStack, Ne.symm heq]
  nodup := by
    refine List.nodup_cons.2 ⟨?_, h.nodup⟩
    rw [← h.onStack, hnode]
    simp
  unvisited other hother := by
    by_cases heq : node = other
    · subst heq
      exact h.unvisited node hnode
    · rw [Marking.visit, List.getElem?_set_ne heq] at hother
      exact h.unvisited other hother
  nodup_roots := h.nodup_roots

theorem leave {node next : Nat} {below : List (Nat × Nat)}
    (h : Consistent state) (hstack : state.stack = (node, next) :: below) :
    Consistent (state.leave node below) := by
  have hnodup := h.nodup
  rw [hstack, List.map_cons, List.nodup_cons] at hnodup
  have hmark : ∀ other, node ≠ other →
      (state.leave node below).marks[other]? = state.marks[other]? :=
    fun other heq => List.getElem?_set_ne heq
  have hleft : (state.leave node below).marks[node]? ≠ some .onStack ∧
      (state.leave node below).marks[node]? ≠ some .unvisited := by
    simp only [Marking.leave, List.getElem?_set_self']
    cases state.marks[node]? <;> simp
  constructor
  · intro other
    by_cases heq : node = other
    · subst heq
      exact iff_of_false hleft.1 hnodup.1
    · rw [hmark other heq, h.onStack, hstack]
      simp [Marking.leave, Ne.symm heq]
  · exact hnodup.2
  · intro other hother
    by_cases heq : node = other
    · subst heq
      exact absurd hother hleft.2
    · rw [hmark other heq] at hother
      exact h.unvisited other hother
  · exact h.nodup_roots

theorem advance {node next : Nat} {below : List (Nat × Nat)}
    (h : Consistent state) (hstack : state.stack = (node, next) :: below) :
    Consistent (state.advance node next below) := by
  have hnodes : (state.advance node next below).stack.map Prod.fst =
      state.stack.map Prod.fst := by
    rw [hstack]
    rfl
  exact
    { onStack := fun other => by rw [hnodes]; exact h.onStack other
      nodup := by rw [hnodes]; exact h.nodup
      unvisited := h.unvisited
      nodup_roots := h.nodup_roots }

theorem follow (h : Consistent state)
    (node : Nat) : Consistent (state.follow node) := by
  rw [Marking.follow]
  split
  · rename_i hmark
    exact h.visit hmark
  · exact ⟨h.onStack, h.nodup, h.unvisited, h.nodup_roots⟩
  · exact h
  · exact h

/-- A root that is visited, or was visited before, need not be considered
again. -/
theorem withRoots {root : Nat} {rest : List Nat} (h : Consistent state)
    (hroots : state.roots = root :: rest)
    (hmark : state.marks[root]? ≠ some .unvisited) :
    Consistent (state.withRoots rest) where
  onStack := h.onStack
  nodup := h.nodup
  unvisited node hnode := by
    have hmem := h.unvisited node hnode
    rw [hroots] at hmem
    rcases List.mem_cons.1 hmem with rfl | hrest
    · exact absurd hnode hmark
    · exact hrest
  nodup_roots := by
    have hnodup := h.nodup_roots
    rw [hroots] at hnodup
    exact (List.nodup_cons.1 hnodup).2

theorem visit_root {root : Nat} {rest : List Nat} (h : Consistent state)
    (hroots : state.roots = root :: rest)
    (hmark : state.marks[root]? = some .unvisited) :
    Consistent ((state.visit root).withRoots rest) := by
  have hvisit := h.visit hmark
  apply hvisit.withRoots hroots
  rw [(hvisit.onStack root).2 List.mem_cons_self]
  simp

/-- A step keeps the marks in line with the stack. -/
theorem step {edges : List (List Nat)} {later : Marking} (h : Consistent state)
    (hstep : Marking.step edges state = some later) : Consistent later := by
  rw [Marking.step] at hstep
  split at hstep
  · split at hstep
    · cases hstep
    · rename_i root rest hroots
      split at hstep
      · rename_i hmark
        cases hstep
        exact h.visit_root hroots hmark
      · rename_i hmark
        cases hstep
        exact h.withRoots hroots hmark
  · rename_i node next below hstack
    split at hstep
    · cases hstep
      exact h.leave hstack
    · rename_i child hchild
      cases hstep
      exact (h.advance hstack).follow child

theorem runs {edges : List (List Nat)} {later : Marking} (h : Consistent state)
    (hruns : Runs edges state later) : Consistent later := by
  induction hruns with
  | refl => exact h
  | tail _ hstep ih => exact ih.step hstep

/-- A node that is marked as on the stack is found there. -/
theorem exists_position? (h : Consistent state) {node : Nat}
    (hmark : state.marks[node]? = some .onStack) :
    ∃ place, state.position? node = some place ∧
      state.nodes[place]? = some node := by
  have hmem : node ∈ state.nodes :=
    List.mem_reverse.2 ((h.onStack node).1 hmark)
  have hfound : state.position? node = some (state.nodes.findIdx (· == node)) :=
    List.findIdx?_eq_some_of_exists ⟨node, hmem, beq_self_eq_true node⟩
  refine ⟨_, hfound, ?_⟩
  obtain ⟨hlt, hplace, -⟩ := List.findIdx?_eq_some_iff_getElem.1 hfound
  rw [List.getElem?_eq_getElem hlt, eq_of_beq hplace]

end Consistent

/-- The nodes that are not visited yet, in the order in which they are
considered as roots. -/
def fresh (state : Marking) : List Nat :=
  state.roots.filter fun node => state.marks[node]? = some .unvisited

/-- The stack, with the edges that are still to be followed. -/
def path (edges : List (List Nat)) (state : Marking) : Path :=
  state.stack.map fun frame => (frame.1, (edges[frame.1]?.getD []).drop frame.2)

section

variable {edges : List (List Nat)} {state : Marking}

theorem nodes_path (edges : List (List Nat)) (state : Marking) :
    (state.path edges).nodes = state.nodes := by
  rw [Path.nodes, path, List.map_map]
  rfl

theorem mem_fresh (h : Consistent state) {node : Nat} :
    node ∈ state.fresh ↔ state.marks[node]? = some .unvisited := by
  rw [fresh, List.mem_filter, decide_eq_true_iff, and_iff_right_iff_imp]
  exact h.unvisited node

theorem fresh_visit (h : Consistent state) {node : Nat}
    (hmark : state.marks[node]? = some .unvisited) :
    (state.visit node).fresh = state.fresh.erase node := by
  have hnodup : state.fresh.Nodup := h.nodup_roots.filter _
  rw [hnodup.erase_eq_filter, fresh, fresh, List.filter_filter]
  apply List.filter_congr
  intro other _
  by_cases heq : node = other
  · subst heq
    have hnode := ((h.visit hmark).onStack node).2 List.mem_cons_self
    simp [hnode]
  · simp [visit, List.getElem?_set_ne heq, Ne.symm heq]

theorem fresh_leave (h : Consistent state) {node next : Nat}
    {below : List (Nat × Nat)} (hstack : state.stack = (node, next) :: below) :
    (state.leave node below).fresh = state.fresh := by
  apply List.filter_congr
  intro other _
  by_cases heq : node = other
  · subst heq
    have hnode : state.marks[node]? = some .onStack :=
      (h.onStack node).2 (by simp [hstack])
    simp [leave, List.getElem?_set_self', hnode]
  · simp [leave, List.getElem?_set_ne heq]

theorem fresh_withRoots {root : Nat} {rest : List Nat}
    (hroots : state.roots = root :: rest)
    (hmark : state.marks[root]? ≠ some .unvisited) :
    (state.withRoots rest).fresh = state.fresh := by
  have hskip : state.fresh = rest.filter fun node => state.marks[node]? =
      some .unvisited := by
    rw [fresh, hroots, List.filter_cons_of_neg (by simpa using hmark)]
  rw [hskip]
  rfl

/-- Looking up the place where a cycle begins gives the cycle that the path
closes. -/
theorem chainTo_eq {node : Nat} {found : List Nat}
    (hfound : (state.path edges).cycleTo? node = some found) :
    state.chainTo node = found := by
  obtain ⟨rest, -, hsuffix⟩ := Path.cycleTo?_eq_some hfound
  rw [Path.cycleTo?, nodes_path, List.dropWhile_eq_drop_findIdx_not] at hfound
  rw [nodes_path] at hsuffix
  have hposition : state.position? node =
      some (state.nodes.findIdx (· == node)) :=
    List.findIdx?_eq_some_of_exists
      ⟨node, hsuffix.subset List.mem_cons_self, beq_self_eq_true node⟩
  simp only [bne, Bool.not_not] at hfound
  rw [chainTo, hposition, Option.getD_some]
  split at hfound
  · cases hfound
  · exact Option.some.inj hfound

/-- Roots that are visited are passed over. -/
theorem runs_withRoots {before rest : List Nat} (hstack : state.stack = [])
    (hbefore : ∀ node ∈ before, state.marks[node]? ≠ some .unvisited) :
    Runs edges (state.withRoots (before ++ rest)) (state.withRoots rest) := by
  induction before with
  | nil => exact .refl
  | cons root before ih =>
    have hstep : step edges (state.withRoots (root :: before ++ rest)) =
        some (state.withRoots (before ++ rest)) := by
      have hmark := hbefore root List.mem_cons_self
      simp only [step, withRoots, hstack, List.cons_append, if_neg hmark]
    exact .head hstep
      (ih fun node hnode => hbefore node (List.mem_cons_of_mem root hnode))

/-- When nothing is pending at the last node of the path, the next step leaves
it. -/
theorem step_leave (h : Consistent state) {node : Nat} {below : Path}
    (hpath : state.path edges = (node, []) :: below) :
    ∃ later, step edges state = some later ∧ Consistent later ∧
      later.fresh = state.fresh ∧
      later.path edges = below ∧ later.cycles = state.cycles := by
  obtain ⟨⟨source, next⟩, rest, hstack, hframe, hbelow⟩ :=
    List.map_eq_cons_iff.1 hpath
  obtain ⟨rfl, hpending⟩ := Prod.mk.inj hframe
  have hnone : (edges[source]?.getD [])[next]? = none := by
    rw [← List.head?_drop, hpending, List.head?_nil]
  refine ⟨state.leave source rest, ?_, h.leave hstack, fresh_leave h hstack,
    hbelow, rfl⟩
  simp only [step, hstack, hnone]

/-- When an edge is pending at the last node of the path, the next step takes it
off and follows it. -/
theorem step_follow (h : Consistent state) {node child : Nat}
    {pending : List Nat} {below : Path}
    (hpath : state.path edges = (node, child :: pending) :: below) :
    ∃ advanced, step edges state = some (advanced.follow child) ∧
      Consistent advanced ∧ advanced.fresh = state.fresh ∧
      advanced.path edges = (node, pending) :: below ∧
      advanced.cycles = state.cycles := by
  obtain ⟨⟨source, next⟩, rest, hstack, hframe, hbelow⟩ :=
    List.map_eq_cons_iff.1 hpath
  obtain ⟨rfl, hpending⟩ := Prod.mk.inj hframe
  have hsome : (edges[source]?.getD [])[next]? = some child := by
    rw [← List.head?_drop, hpending, List.head?_cons]
  have htail : (edges[source]?.getD []).drop (next + 1) = pending := by
    rw [← List.tail_drop, hpending, List.tail_cons]
  refine ⟨state.advance source next rest, ?_, h.advance hstack, rfl, ?_, rfl⟩
  · simp only [step, hstack, hsome]
  · rw [path, advance, List.map_cons, hbelow, htail]

/-- When no node is under way, the roots that are visited are passed over, and
the next one that is not is visited. -/
theorem runs_root (h : Consistent state) {root : Nat} {rest : List Nat}
    (hpath : state.path edges = []) (hfresh : state.fresh = root :: rest) :
    ∃ later, Runs edges state later ∧ Consistent later ∧ later.fresh = rest ∧
      later.path edges = [(root, edges[root]?.getD [])] ∧
      later.cycles = state.cycles := by
  have hstack : state.stack = [] := List.map_eq_nil_iff.1 hpath
  obtain ⟨before, after, hroots, hbefore, hroot, hafter⟩ :=
    List.filter_eq_cons_iff.1 hfresh
  have hruns : Runs edges state (state.withRoots (root :: after)) := by
    have hpass : Runs edges (state.withRoots (before ++ root :: after))
        (state.withRoots (root :: after)) :=
      runs_withRoots hstack (by simpa using hbefore)
    rwa [← hroots] at hpass
  have hreached : Consistent (state.withRoots (root :: after)) := h.runs hruns
  have hmark : (state.withRoots (root :: after)).marks[root]? =
      some .unvisited :=
    of_decide_eq_true hroot
  have hstep : step edges (state.withRoots (root :: after)) =
      some (((state.withRoots (root :: after)).visit root).withRoots
        after) := by
    rw [step]
    simp only [withRoots, hstack] at hmark ⊢
    rw [if_pos hmark]
  have hvisited := ((hreached.visit hmark).onStack root).2 List.mem_cons_self
  refine ⟨_, hruns.tail hstep, hreached.visit_root rfl hmark, ?_, ?_, rfl⟩
  · have hdrop :
        (((state.withRoots (root :: after)).visit root).withRoots after).fresh =
          ((state.withRoots (root :: after)).visit root).fresh :=
      fresh_withRoots rfl (by simp [hvisited])
    have hleft : (state.withRoots (root :: after)).fresh = root :: rest := by
      rw [← hafter]
      exact List.filter_cons_of_pos hroot
    rw [hdrop, fresh_visit hreached hmark, hleft, List.erase_cons_head]
  · simp [path, visit, withRoots, hstack]

/-- A search with marks ends, and reports what the search over the nodes not
reached yet reports. -/
theorem exists_run (h : Consistent state) :
    ∃ final, Runs edges state final ∧ step edges final = none ∧
      final.cycles = state.cycles ++ searchFrom
        (fun node => edges[node]?.getD []) state.fresh (state.path edges) := by
  generalize hfresh : state.fresh = fresh
  generalize hpath : state.path edges = path
  fun_induction searchFrom (fun node => edges[node]?.getD []) fresh path
    generalizing state with
  | case1 =>
    have hstack : state.stack = [] := List.map_eq_nil_iff.1 hpath
    have hroots : ∀ node ∈ state.roots, state.marks[node]? ≠
        some .unvisited := by
      intro node hnode hmark
      have hmem := (mem_fresh h).2 hmark
      rw [hfresh] at hmem
      cases hmem
    have hruns :
        Runs edges (state.withRoots (state.roots ++ [])) (state.withRoots []) :=
      runs_withRoots hstack hroots
    rw [List.append_nil] at hruns
    refine ⟨state.withRoots [], hruns, ?_, (List.append_nil _).symm⟩
    simp only [step, withRoots, hstack]
  | case2 root rest ih =>
    obtain ⟨later, hruns, hlater, hfresh, hpath, hcycles⟩ :=
      runs_root h hpath hfresh
    obtain ⟨final, hrest, hfinal, hfound⟩ := ih hlater hfresh hpath
    exact ⟨final, hruns.trans hrest, hfinal, by rw [hfound, hcycles]⟩
  | case3 fresh node below ih =>
    obtain ⟨later, hstep, hlater, hsame, hpath, hcycles⟩ := step_leave h hpath
    obtain ⟨final, hrest, hfinal, hfound⟩ :=
      ih hlater (hsame.trans hfresh) hpath
    exact ⟨final, .head hstep hrest, hfinal, by rw [hfound, hcycles]⟩
  | case4 fresh node next pending below hmem ih =>
    obtain ⟨advanced, hstep, hadvanced, hsame, hpath, hcycles⟩ :=
      step_follow h hpath
    have hmark : advanced.marks[next]? = some .unvisited := by
      rwa [← mem_fresh hadvanced, hsame, hfresh]
    have hvisit : advanced.follow next = advanced.visit next := by
      simp only [follow, hmark]
    obtain ⟨final, hrest, hfinal, hfound⟩ := ih (hadvanced.visit hmark) (by
      rw [fresh_visit hadvanced hmark, hsame, hfresh]) (by rw [← hpath]; rfl)
    refine ⟨final, .head (hvisit ▸ hstep) hrest, hfinal, ?_⟩
    rw [hfound, ← hcycles]
    rfl
  | case5 fresh node next pending below hmem found hfound ih =>
    obtain ⟨advanced, hstep, hadvanced, hsame, hpath, hcycles⟩ :=
      step_follow h hpath
    have hnode : next ∈ advanced.stack.map Prod.fst := by
      obtain ⟨rest, -, hsuffix⟩ := Path.cycleTo?_eq_some hfound
      rw [← hpath, nodes_path] at hsuffix
      exact List.mem_reverse.1 (hsuffix.subset List.mem_cons_self)
    have hreport : advanced.follow next = advanced.report next := by
      simp only [follow, (hadvanced.onStack next).2 hnode]
    have hreported : Consistent (advanced.report next) :=
      hreport ▸ hadvanced.follow next
    obtain ⟨final, hrest, hfinal, hrests⟩ :=
      ih hreported (hsame.trans hfresh) hpath
    refine ⟨final, .head (hreport ▸ hstep) hrest, hfinal, ?_⟩
    rw [← hpath] at hfound
    have hchain : (advanced.report next).cycles = state.cycles ++ [found] := by
      rw [report, chainTo_eq hfound, hcycles]
    rw [hrests, hchain, List.append_assoc, List.singleton_append]
  | case6 fresh node next pending below hmem hnone ih =>
    obtain ⟨advanced, hstep, hadvanced, hsame, hpath, hcycles⟩ :=
      step_follow h hpath
    have hskip : advanced.follow next = advanced := by
      rw [follow]
      split
      · rename_i hmark
        rw [← mem_fresh hadvanced, hsame, hfresh] at hmark
        exact absurd hmark hmem
      · rename_i hmark
        have hnode : next ∈ advanced.nodes :=
          List.mem_reverse.2 ((hadvanced.onStack next).1 hmark)
        rw [← nodes_path edges, hpath] at hnode
        exact absurd hnode (Path.cycleTo?_eq_none hnone)
      · rfl
      · rfl
    obtain ⟨final, hrest, hfinal, hfound⟩ :=
      ih hadvanced (hsame.trans hfresh) hpath
    exact ⟨final, .head (hskip ▸ hstep) hrest, hfinal, by rw [hfound, hcycles]⟩

end

end Marking

end SqlWorkflow.Graph
