import Mathlib.Data.List.Chain
import Mathlib.Logic.Relation
import SqlWorkflow.Proofs.Graph.Marking

/-!
# What a search reports

A depth-first search reports cycles of the graph and nothing else. It need not
report every cycle, but it reports one in every strongly connected component
that has any, and if the closing edges of the reported cycles are taken out of
the graph, no cycle is left.
-/

namespace SqlWorkflow.Graph

open Relation (ReflTransGen TransGen)

/-- A chain of nodes that follows edges from a node back to it and meets no
other node twice. A cycle of `n` nodes is a chain of `n + 1`. -/
structure IsCycle (edge : Nat → Nat → Prop) (chain : List Nat) : Prop where
  two_le_length : 2 ≤ chain.length
  closed : chain.head? = chain.getLast?
  joined : chain.IsChain edge
  nodup : chain.dropLast.Nodup

def Acyclic (edge : Nat → Nat → Prop) : Prop :=
  ∀ node, ¬TransGen edge node node

/-- Whether each of two nodes can be reached from the other: whether they are in
one strongly connected component. -/
def Connected (edge : Nat → Nat → Prop) (a b : Nat) : Prop :=
  ReflTransGen edge a b ∧ ReflTransGen edge b a

def Edge (edges : List (List Nat)) (source target : Nat) : Prop :=
  target ∈ edges[source]?.getD []

instance (edges : List (List Nat)) :
    DecidableRel (Edge edges) := fun source target =>
  inferInstanceAs (Decidable (target ∈ edges[source]?.getD []))

namespace IsCycle

variable {edge : Nat → Nat → Prop} {chain : List Nat}

theorem exists_eq (h : IsCycle edge chain) :
    ∃ node rest, chain = node :: rest ++ [node] := by
  match chain, h.two_le_length with
  | node :: next :: rest, _ =>
    have hclosed := h.closed
    rw [List.getLast?_cons_cons, List.head?_cons] at hclosed
    obtain ⟨front, hfront⟩ := List.getLast?_eq_some_iff.1 hclosed.symm
    exact ⟨node, front, by rw [hfront, List.cons_append]⟩

/-- From the node where a cycle begins every node of it can be reached, and the
other way round. -/
theorem connected (h : IsCycle edge chain) {node : Nat}
    (hnode : chain.head? = some node) :
    ∀ other ∈ chain, Connected edge node other := by
  obtain ⟨first, rest, hchain⟩ := h.exists_eq
  obtain rfl : first = node := by simpa [hchain] using hnode
  intro other hother
  constructor
  · refine h.joined.induction (ReflTransGen edge first) chain ?_ ?_ other hother
    · intro x y hedge hpath
      exact hpath.tail hedge
    · intro _
      simp only [hchain]
      exact .refl
  · refine h.joined.backwards_induction (ReflTransGen edge · first) chain ?_ ?_
      other hother
    · intro x y hedge hpath
      exact hpath.head hedge
    · intro _
      simp only [hchain, List.getLast_concat]
      exact .refl

/-- The edge that closes a cycle leads to the node where it begins. -/
theorem head?_of_closingEdge? (h : IsCycle edge chain) {source target : Nat}
    (hcloses : closingEdge? chain = some (source, target)) :
    chain.head? = some target := by
  obtain ⟨initial, rfl⟩ := closingEdge?_eq_some_iff.1 hcloses
  rw [h.closed, List.getLast?_append]
  rfl

theorem transGen (h : IsCycle edge chain) :
    ∃ node ∈ chain, TransGen edge node node := by
  obtain ⟨node, rest, hchain⟩ := h.exists_eq
  obtain ⟨next, tail, htail⟩ :=
    List.exists_cons_of_ne_nil (List.concat_ne_nil node rest)
  have hjoined := h.joined
  rw [hchain, List.cons_append, htail, List.isChain_cons_cons] at hjoined
  have hnext : next ∈ chain := by
    rw [hchain, List.cons_append, htail]
    exact List.mem_cons_of_mem _ List.mem_cons_self
  have hnode : chain.head? = some node := by
    rw [hchain, List.cons_append, List.head?_cons]
  exact ⟨node, List.mem_of_head? hnode,
    .head' hjoined.1 (h.connected hnode next hnext).2⟩

end IsCycle

/-- The state of a search between two steps: no node is both on the path and not
reached yet, the path follows edges, and what is pending at a node are edges of
it. -/
structure Sound (edges : Nat → List Nat) (fresh : List Nat)
    (path : Path) : Prop where
  nodup : (path.map Prod.fst ++ fresh).Nodup
  joined : path.nodes.IsChain fun source target => target ∈ edges source
  pending : ∀ frame ∈ path, frame.2 ⊆ edges frame.1

namespace Sound

variable {edges : Nat → List Nat} {fresh : List Nat} {path below : Path}
  {node next : Nat} {pending : List Nat}

theorem start {root : Nat} {rest : List Nat}
    (h : Sound edges (root :: rest) []) :
    Sound edges rest [(root, edges root)] where
  nodup := h.nodup
  joined := List.isChain_singleton root
  pending := by simp

theorem leave (h : Sound edges fresh ((node, []) :: below)) :
    Sound edges fresh below where
  nodup := (List.nodup_cons.1 h.nodup).2
  joined := by
    have hjoined := h.joined
    rw [Path.nodes_cons] at hjoined
    exact hjoined.left_of_append
  pending frame hframe := h.pending frame (List.mem_cons_of_mem _ hframe)

theorem follow (h : Sound edges fresh ((node, next :: pending) :: below)) :
    Sound edges fresh ((node, pending) :: below) where
  nodup := h.nodup
  joined := h.joined
  pending := by
    intro frame hframe
    rcases List.mem_cons.1 hframe with rfl | hbelow
    · intro target htarget
      exact h.pending _ List.mem_cons_self (List.mem_cons_of_mem next htarget)
    · exact h.pending frame (List.mem_cons_of_mem _ hbelow)

theorem edge_next (h : Sound edges fresh ((node, next :: pending) :: below)) :
    next ∈ edges node :=
  h.pending _ List.mem_cons_self List.mem_cons_self

/-- The path, carried on by a pending edge of its last node. -/
theorem joined_next (h : Sound edges fresh ((node, next :: pending) :: below)) :
    (Path.nodes ((node, pending) :: below) ++ [next]).IsChain
      fun source target => target ∈ edges source := by
  refine h.follow.joined.append (List.isChain_singleton next) ?_
  intro last hlast first hfirst
  rw [Path.nodes_cons, List.getLast?_concat, Option.mem_some_iff] at hlast
  rw [List.head?_cons, Option.mem_some_iff] at hfirst
  rw [← hlast, ← hfirst]
  exact h.edge_next

theorem reach (h : Sound edges fresh ((node, next :: pending) :: below))
    (hfresh : next ∈ fresh) :
    Sound edges (fresh.erase next)
      ((next, edges next) :: (node, pending) :: below) where
  nodup := by
    have hmove :
        (((node, pending) :: below).map Prod.fst ++ fresh).Perm (next ::
          (((node, pending) :: below).map Prod.fst ++ fresh.erase next)) :=
      ((List.perm_cons_erase hfresh).append_left _).trans List.perm_middle
    exact hmove.nodup_iff.1 h.follow.nodup
  joined := by
    rw [Path.nodes_cons]
    exact h.joined_next
  pending := by
    intro frame hframe
    rcases List.mem_cons.1 hframe with rfl | hpath
    · exact List.Subset.refl _
    · exact h.follow.pending frame hpath

theorem isCycle_of_cycleTo?
    (h : Sound edges fresh ((node, next :: pending) :: below))
    {found : List Nat}
    (hfound : Path.cycleTo? ((node, pending) :: below) next = some found) :
    IsCycle (fun source target => target ∈ edges source) found := by
  obtain ⟨rest, rfl, hsuffix⟩ := Path.cycleTo?_eq_some hfound
  have hnodes : (Path.nodes ((node, pending) :: below)).Nodup :=
    List.nodup_reverse.2 (List.nodup_append.1 h.nodup).1
  refine ⟨by simp, ?_, ?_, ?_⟩
  · rw [List.getLast?_concat, List.cons_append, List.head?_cons]
  · obtain ⟨initial, hinitial⟩ := hsuffix
    apply h.joined_next.suffix
    exact ⟨initial, by rw [← hinitial, List.append_assoc]⟩
  · rw [List.dropLast_concat]
    exact hnodes.sublist hsuffix.sublist

end Sound

/-- The run lemma of the search: whatever it reports is a cycle. -/
theorem isCycle_of_mem_searchFrom {edges : Nat → List Nat} {fresh : List Nat}
    {path : Path} (h : Sound edges fresh path) :
    ∀ chain ∈ searchFrom edges fresh path,
      IsCycle (fun source target => target ∈ edges source) chain := by
  fun_induction searchFrom edges fresh path with
  | case1 => simp
  | case2 root rest ih => exact ih h.start
  | case3 fresh node below ih => exact ih h.leave
  | case4 fresh node next pending below hfresh ih => exact ih (h.reach hfresh)
  | case5 fresh node next pending below hfresh found hfound ih =>
    intro chain hchain
    rcases List.mem_cons.1 hchain with rfl | hrest
    · exact h.isCycle_of_cycleTo? hfound
    · exact ih h.follow chain hrest
  | case6 fresh node next pending below hfresh hnone ih => exact ih h.follow

/-- In a list without repetitions, members of a pair that stands in it have
places in the same order. -/
theorem idxOf_lt_idxOf_of_pair_sublist {order : List Nat} (h : order.Nodup)
    {a b : Nat}
    (hpair : [a, b].Sublist order) : order.idxOf a < order.idxOf b := by
  have hpairwise : order.Pairwise fun x y => order.idxOf x < order.idxOf y := by
    rw [List.pairwise_iff_getElem]
    intro i j hi hj hlt
    rwa [h.idxOf_getElem i hi, h.idxOf_getElem j hj]
  simpa using hpairwise.sublist hpair

/-- A relation that leads backwards in a list without repetitions has no
cycle. -/
theorem acyclic_of_order {edge : Nat → Nat → Prop} {order : List Nat}
    (h : order.Nodup) (hback : ∀ source target, edge source target →
      [target, source].Sublist order) :
    Acyclic edge := by
  intro node hcycle
  have hdescends : ∀ {a b}, TransGen edge a b →
      order.idxOf b < order.idxOf a := by
    intro a b hpath
    induction hpath with
    | single hedge => exact idxOf_lt_idxOf_of_pair_sublist h (hback _ _ hedge)
    | tail _ hedge ih =>
      exact (idxOf_lt_idxOf_of_pair_sublist h (hback _ _ hedge)).trans ih
  exact Nat.lt_irrefl _ (hdescends hcycle)

/-- All edges of a cycle stay among the nodes that are connected with it. -/
theorem transGen_within {edge : Nat → Nat → Prop} {node : Nat}
    (h : TransGen edge node node) :
    TransGen (fun source target => edge source target ∧
      ReflTransGen edge node source ∧ ReflTransGen edge target node)
      node node := by
  suffices hwithin : ∀ {goal}, TransGen edge node goal →
      ReflTransGen edge goal node →
      TransGen (fun source target => edge source target ∧
        ReflTransGen edge node source ∧ ReflTransGen edge target node)
        node goal from hwithin h .refl
  intro goal hpath
  induction hpath with
  | single hedge => exact fun hrest => .single ⟨hedge, .refl, hrest⟩
  | tail hpath hedge ih =>
    intro hrest
    exact (ih (hrest.head hedge)).tail ⟨hedge, hpath.to_reflTransGen, hrest⟩

section

variable {edges : List (List Nat)}

theorem sound_start (edges : List (List Nat)) :
    Sound (fun node => edges[node]?.getD []) (List.range edges.length) [] where
  nodup := List.nodup_range
  joined := .nil
  pending := by simp

theorem isCycle_of_mem_cycles {chain : List Nat} (h : chain ∈ cycles edges) :
    IsCycle (Edge edges) chain :=
  isCycle_of_mem_searchFrom (sound_start edges) chain h

/-- Without the closing edges of the reported cycles, one for one, the graph has
no cycle. -/
theorem acyclic_diff_closingEdges
    (hvalid : ∀ targets ∈ edges, ∀ target ∈ targets, target < edges.length) :
    Acyclic fun source target =>
      (source, target) ∈
        (edgeList edges).diff (closingEdges (cycles edges)) := by
  obtain ⟨order, hperm, hback⟩ := exists_order_of_cycles hvalid
  exact acyclic_of_order (hperm.nodup_iff.2 List.nodup_range) hback

/-- Every node on a cycle is connected with all nodes of a reported cycle. -/
theorem exists_connected_cycle
    (hvalid : ∀ targets ∈ edges, ∀ target ∈ targets, target < edges.length)
    {node : Nat} (h : TransGen (Edge edges) node node) :
    ∃ chain ∈ cycles edges, ∀ other ∈ chain,
      Connected (Edge edges) node other := by
  by_contra hnone
  -- If no edge of the cycle closes a reported one, all of it is in the graph
  -- that has no cycle.
  apply acyclic_diff_closingEdges hvalid node
  refine TransGen.mono ?_ _ _ (transGen_within h)
  rintro source target ⟨hedge, hsource, htarget⟩
  apply List.mem_diff_of_mem (mem_edgeList.2 hedge)
  intro hclosing
  apply hnone
  obtain ⟨chain, hchain, hcloses⟩ := List.mem_filterMap.1 hclosing
  refine ⟨chain, hchain, ?_⟩
  intro other hother
  have hcycle := isCycle_of_mem_cycles hchain
  have hround := hcycle.connected (hcycle.head?_of_closingEdge? hcloses)
  have hmember : source ∈ chain := by
    obtain ⟨initial, rfl⟩ := closingEdge?_eq_some_iff.1 hcloses
    simp
  have hmeets : Connected (Edge edges) node target :=
    ⟨hsource.trans (hround source hmember).2, htarget⟩
  exact ⟨hmeets.1.trans (hround other hother).1,
    (hround other hother).2.trans hmeets.2⟩

/-- Nothing is reported exactly if there is no cycle. -/
theorem cycles_eq_nil_iff_acyclic
    (hvalid : ∀ targets ∈ edges, ∀ target ∈ targets, target < edges.length) :
    cycles edges = [] ↔ Acyclic (Edge edges) := by
  constructor
  · intro hnone node hcycle
    obtain ⟨chain, hchain, -⟩ := exists_connected_cycle hvalid hcycle
    rw [hnone] at hchain
    cases hchain
  · intro hacyclic
    rw [List.eq_nil_iff_forall_not_mem]
    intro chain hchain
    obtain ⟨node, -, hcycle⟩ := (isCycle_of_mem_cycles hchain).transGen
    exact hacyclic node hcycle

/-- The search with marks reports the cycles of the graph. -/
theorem exists_run_cycles (edges : List (List Nat)) :
    ∃ final, Marking.Runs edges (.start edges) final ∧
      Marking.step edges final = none ∧ final.cycles = cycles edges := by
  have hfresh : (Marking.start edges).fresh = List.range edges.length := by
    apply List.filter_eq_self.2
    intro node hnode
    simpa [Marking.start, List.getElem?_replicate] using hnode
  obtain ⟨final, hruns, hfinal, hcycles⟩ :
      ∃ final, Marking.Runs edges (.start edges) final ∧ _ :=
    Marking.exists_run (.start edges)
  refine ⟨final, hruns, hfinal, ?_⟩
  rw [hcycles, hfresh]
  rfl

/-- The search for cycles is sound and complete. It reports cycles only, and
none exactly if there is none; it reports one in every strongly connected
component that has any; and it leaves no cycle when the closing edges of those
that it reports are taken away. Done with marks and a stack, it comes to an end,
and whenever it looks up on the stack where a cycle begins, it finds the
place. -/
theorem cycles_exact
    (hvalid : ∀ targets ∈ edges, ∀ target ∈ targets, target < edges.length) :
    (∀ chain ∈ cycles edges, IsCycle (Edge edges) chain) ∧
      (cycles edges = [] ↔ Acyclic (Edge edges)) ∧
      (∀ node, TransGen (Edge edges) node node → ∃ chain ∈ cycles edges,
        ∀ other ∈ chain, Connected (Edge edges) node other) ∧
      (Acyclic fun source target =>
        (source, target) ∈
          (edgeList edges).diff (closingEdges (cycles edges))) ∧
      (∃ final, Marking.Runs edges (.start edges) final ∧
        Marking.step edges final = none ∧ final.cycles = cycles edges) ∧
      ∀ state, Marking.Runs edges (.start edges) state →
        ∀ node next below child, state.stack = (node, next) :: below →
          (edges[node]?.getD [])[next]? = some child →
          state.marks[child]? = some .onStack → ∃ place,
            (state.advance node next below).position? child = some place ∧
              (state.advance node next below).nodes[place]? = some child := by
  refine ⟨fun chain => isCycle_of_mem_cycles, cycles_eq_nil_iff_acyclic hvalid,
    fun node => exists_connected_cycle hvalid, acyclic_diff_closingEdges hvalid,
    exists_run_cycles edges, ?_⟩
  intro state hruns node next below child hstack _ hmark
  have hconsistent := (Marking.Consistent.start edges).runs hruns
  exact (hconsistent.advance hstack).exists_position? hmark

end

/-- Two components: three nodes in a ring, of which the first also leads to
itself, and a node that leads to itself only. -/
def ringAndLoop : List (List Nat) := [[1, 0], [2, 3], [0], [3]]

theorem cycles_exact_ringAndLoop :
    (∀ targets ∈ ringAndLoop, ∀ target ∈ targets, target < ringAndLoop.length) ∧
      cycles ringAndLoop = [[0, 1, 2, 0], [3, 3], [0, 0]] ∧
      IsCycle (Edge ringAndLoop) [0, 1, 2, 0] ∧
      (∃ chain ∈ cycles ringAndLoop, ∀ other ∈ chain,
        Connected (Edge ringAndLoop) 2 other) ∧
      Acyclic fun source target => (source, target) ∈
        [(0, 1), (1, 2), (1, 3)] := by
  have hvalid : ∀ targets ∈ ringAndLoop, ∀ target ∈ targets, target <
      ringAndLoop.length := by decide
  have hcycles : cycles ringAndLoop = [[0, 1, 2, 0], [3, 3], [0, 0]] := by cbv
  obtain ⟨hsound, -, hcomplete, hrest, -⟩ := cycles_exact hvalid
  have hround : TransGen (Edge ringAndLoop) 2 2 := by
    have hfirst : Edge ringAndLoop 2 0 := by decide
    have hsecond : Edge ringAndLoop 0 1 := by decide
    have hthird : Edge ringAndLoop 1 2 := by decide
    exact ((TransGen.single hfirst).tail hsecond).tail hthird
  refine ⟨hvalid, hcycles, hsound _ (by simp [hcycles]), hcomplete 2 hround, ?_⟩
  rw [hcycles] at hrest
  exact hrest

end SqlWorkflow.Graph
