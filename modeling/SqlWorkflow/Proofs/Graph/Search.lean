import Mathlib.Data.List.Nodup
import Mathlib.Data.List.Perm.Basic
import Mathlib.Data.List.TakeWhile
import SqlWorkflow.Graph.Cycle

/-!
# What a search leaves behind

A depth-first search leaves every node once. In the order in which the nodes are
left, an edge leads back to a node that was left before, unless it leads out of
the graph or closes one of the cycles that the search reports. Without cycles
this order is one in which everything comes after what it depends on.
-/

namespace SqlWorkflow.Graph

/-- The edges of some nodes, node by node. -/
def edgesOf (edges : Nat → List Nat) (nodes : List Nat) : List (Nat × Nat) :=
  nodes.flatMap fun node => (edges node).map (node, ·)

/-- The edges that the rest of a search follows: those that are pending on the
path, and all edges of the nodes that are not reached yet. -/
def outstanding (edges : Nat → List Nat) (fresh : List Nat)
    (path : Path) : List (Nat × Nat) :=
  path.flatMap (fun frame => frame.2.map (frame.1, ·)) ++ edgesOf edges fresh

/-- The edge that closes a chain, from its last node but one to its last. -/
def closingEdge? (chain : List Nat) : Option (Nat × Nat) :=
  match chain.reverse with
  | target :: source :: _ => some (source, target)
  | _ => none

/-- The edges that close some chains, one for each chain. -/
def closingEdges (chains : List (List Nat)) : List (Nat × Nat) :=
  chains.filterMap closingEdge?

theorem closingEdge?_eq_some_iff {chain : List Nat} {source target : Nat} :
    closingEdge? chain = some (source, target) ↔
      ∃ initial, chain = initial ++ [source, target] := by
  constructor
  · intro h
    rw [closingEdge?] at h
    split at h
    · rename_i last previous rest hreverse
      cases h
      exact ⟨rest.reverse, by rw [← List.reverse_reverse chain, hreverse]; simp⟩
    · cases h
  · rintro ⟨initial, rfl⟩
    rw [closingEdge?, List.reverse_append]
    rfl

theorem Path.mem_nodes {path : Path}
    {node : Nat} : node ∈ path.nodes ↔ node ∈ path.map Prod.fst :=
  List.mem_reverse

theorem Path.nodes_cons (node : Nat) (pending : List Nat) (below : Path) :
    Path.nodes ((node, pending) :: below) = Path.nodes below ++ [node] := by
  rw [Path.nodes, List.map_cons, List.reverse_cons]
  rfl

/-- The part of a path from a node on, if the node is on it, is a suffix that
begins with the node. -/
theorem Path.cycleTo?_eq_some {path : Path} {node : Nat} {cycle : List Nat}
    (h : path.cycleTo? node = some cycle) :
    ∃ rest, cycle = (node :: rest) ++ [node] ∧ node :: rest <:+ path.nodes := by
  rw [Path.cycleTo?] at h
  split at h
  · cases h
  · rename_i part hne
    cases h
    have hsuffix : path.nodes.dropWhile (· != node) <:+ path.nodes :=
      List.dropWhile_suffix _
    cases hpart : path.nodes.dropWhile (· != node) with
    | nil => exact absurd hpart hne
    | cons first rest =>
      have hfirst := List.head?_dropWhile_not (· != node) path.nodes
      rw [hpart] at hfirst
      obtain rfl : first = node := by simpa using hfirst
      rw [hpart] at hsuffix
      exact ⟨rest, rfl, hsuffix⟩

theorem Path.cycleTo?_eq_none {path : Path} {node : Nat}
    (h : path.cycleTo? node = none) : node ∉ path.nodes := by
  rw [Path.cycleTo?] at h
  split at h
  · rename_i hnil
    rw [List.dropWhile_eq_nil_iff] at hnil
    intro hmem
    simpa using hnil node hmem
  · cases h

/-- A cycle that is reported at the end of a path is closed by the edge from the
last node. -/
theorem Path.closingEdge?_of_cycleTo? {node next : Nat} {pending : List Nat}
    {below : Path} {cycle : List Nat}
    (h : Path.cycleTo? ((node, pending) :: below) next = some cycle) :
    closingEdge? cycle = some (node, next) := by
  obtain ⟨rest, rfl, hsuffix⟩ := Path.cycleTo?_eq_some h
  rw [Path.nodes_cons] at hsuffix
  obtain ⟨initial, hinitial⟩ := hsuffix
  have hlast : ((next :: rest).getLast?) = some node := by
    have := congrArg List.getLast? hinitial
    simpa [List.getLast?_append] using this
  obtain ⟨front, hfront⟩ := List.getLast?_eq_some_iff.1 hlast
  exact closingEdge?_eq_some_iff.2
    ⟨front, by rw [hfront, List.append_assoc]; rfl⟩

/-- What a search reports is a nonempty chain of nodes that it could reach. -/
theorem mem_of_mem_searchFrom {edges : Nat → List Nat} {fresh : List Nat}
    {path : Path} {cycle : List Nat} (h : cycle ∈ searchFrom edges fresh path) :
    cycle ≠ [] ∧ ∀ node ∈ cycle, node ∈ path.map Prod.fst ∨ node ∈ fresh := by
  fun_induction searchFrom edges fresh path with
  | case1 => cases h
  | case2 root rest ih =>
    obtain ⟨hne, hnodes⟩ := ih h
    refine ⟨hne, ?_⟩
    intro node hnode
    simpa using hnodes node hnode
  | case3 fresh node below ih =>
    obtain ⟨hne, hnodes⟩ := ih h
    refine ⟨hne, ?_⟩
    intro other hother
    exact (hnodes other hother).imp_left (List.mem_cons_of_mem _)
  | case4 fresh node next pending below hfresh ih =>
    obtain ⟨hne, hnodes⟩ := ih h
    refine ⟨hne, ?_⟩
    intro other hother
    rcases hnodes other hother with hpath | hleft
    · rcases List.mem_cons.1 hpath with rfl | hbelow
      · exact Or.inr hfresh
      · exact Or.inl hbelow
    · exact Or.inr (List.mem_of_mem_erase hleft)
  | case5 fresh node next pending below hfresh found hfound ih =>
    rcases List.mem_cons.1 h with rfl | h
    · obtain ⟨rest, rfl, hsuffix⟩ := Path.cycleTo?_eq_some hfound
      refine ⟨by simp, ?_⟩
      intro other hother
      apply Or.inl
      rw [← Path.mem_nodes]
      apply hsuffix.subset
      rcases List.mem_append.1 hother with hpart | hlast
      · exact hpart
      · rw [List.mem_singleton.1 hlast]
        exact List.mem_cons_self
    · exact ih h
  | case6 fresh node next pending below hfresh hnone ih => exact ih h

section

variable {edges : Nat → List Nat}

/-- The edges of a node that is reached are pending from then on. -/
theorem outstanding_reach {fresh : List Nat} {path : Path} {next : Nat}
    (hfresh : next ∈ fresh) :
    (outstanding edges fresh path).Perm
      (outstanding edges (fresh.erase next) ((next, edges next) :: path)) := by
  have hnext : (edgesOf edges fresh).Perm
      ((edges next).map (next, ·) ++ edgesOf edges (fresh.erase next)) :=
    (List.perm_cons_erase hfresh).flatMap_right _
  have hswap : (path.flatMap (fun frame => frame.2.map (frame.1, ·)) ++
      ((edges next).map (next, ·) ++ edgesOf edges (fresh.erase next))).Perm
      (outstanding edges (fresh.erase next) ((next, edges next) :: path)) := by
    rw [outstanding, List.flatMap_cons, ← List.append_assoc]
    exact List.perm_append_comm.append_right _
  exact (hnext.append_left _).trans hswap

theorem source_of_mem_outstanding {fresh : List Nat} {path : Path}
    {edge : Nat × Nat} (h : edge ∈ outstanding edges fresh path) :
    edge.1 ∈ path.map Prod.fst ++ fresh := by
  rcases List.mem_append.1 h with hpath | hfresh
  · obtain ⟨frame, hframe, hedge⟩ := List.mem_flatMap.1 hpath
    obtain ⟨target, -, rfl⟩ := List.mem_map.1 hedge
    exact List.mem_append_left _ (List.mem_map_of_mem hframe)
  · obtain ⟨node, hnode, hedge⟩ := List.mem_flatMap.1 hfresh
    obtain ⟨target, -, rfl⟩ := List.mem_map.1 hedge
    exact List.mem_append_right _ hnode

/-- The run lemma of the search. There is an order of the nodes still to be left
in which those on the path come last node first. Take the closing edge of each
reported cycle away from the outstanding edges, one for one: what remains leads
backwards in this order, or to a node that was left earlier. -/
theorem exists_order_of_searchFrom (edges : Nat → List Nat) (fresh : List Nat)
    (path : Path) :
    ∃ order : List Nat, order.Perm (path.map Prod.fst ++ fresh) ∧
      (path.map Prod.fst).Sublist order ∧
      ∀ edge ∈ (outstanding edges fresh path).diff
        (closingEdges (searchFrom edges fresh path)),
        (edge.2 ∉ fresh ∧ edge.2 ∉ path.map Prod.fst) ∨
          [edge.2, edge.1].Sublist order := by
  fun_induction searchFrom edges fresh path with
  | case1 => exact ⟨[], .refl _, .slnil, by simp [outstanding, edgesOf]⟩
  | case2 root rest ih =>
    obtain ⟨order, hperm, hpath, hedges⟩ := ih
    refine ⟨order, hperm, List.nil_sublist _, ?_⟩
    intro edge hedge
    have hsame : outstanding edges (root :: rest) [] =
        outstanding edges rest [(root, edges root)] := by
      simp [outstanding, edgesOf]
    rw [hsame] at hedge
    apply (hedges edge hedge).imp_left
    rintro ⟨hrest, hroot⟩
    have htarget : edge.2 ∉ root :: rest := by
      rw [List.mem_cons, not_or]
      exact ⟨by simpa using hroot, hrest⟩
    exact ⟨htarget, List.not_mem_nil⟩
  | case3 fresh node below ih =>
    -- The node is left now, so it comes first, and all that may still lead to
    -- it comes later.
    obtain ⟨order, hperm, hpath, hedges⟩ := ih
    refine ⟨node :: order, hperm.cons node, hpath.cons_cons node, ?_⟩
    intro edge hedge
    rcases hedges edge hedge with ⟨hfresh, hbelow⟩ | hback
    · by_cases hnode : edge.2 = node
      · have hsource : edge.1 ∈ order :=
          hperm.mem_iff.2
            (source_of_mem_outstanding (List.diff_subset _ _ hedge))
        rw [hnode]
        exact Or.inr ((List.singleton_sublist.2 hsource).cons_cons node)
      · have hpath : edge.2 ∉ ((node, []) :: below).map Prod.fst := by
          rw [List.map_cons, List.mem_cons, not_or]
          exact ⟨hnode, hbelow⟩
        exact Or.inl ⟨hfresh, hpath⟩
    · exact Or.inr (hback.cons node)
  | case4 fresh node next pending below hfresh ih =>
    -- The next node joins the path above this one, so it is left earlier.
    obtain ⟨order, hperm, hpath, hedges⟩ := ih
    have hmove : (next :: node :: (below.map Prod.fst ++ fresh.erase next)).Perm
        (node :: (below.map Prod.fst ++ next :: fresh.erase next)) :=
      (List.Perm.swap node next _).trans (List.perm_middle.symm.cons node)
    have hback : ((next, edges next) :: (node, pending) :: below).map
        Prod.fst ++ fresh.erase next =
        next :: node :: (below.map Prod.fst ++ fresh.erase next) := rfl
    rw [hback] at hperm
    refine ⟨order, (hperm.trans hmove).trans
      (((List.perm_cons_erase hfresh).symm.append_left _).cons node),
      (List.sublist_cons_self next _).trans hpath, ?_⟩
    intro edge hedge
    have hreach : (outstanding edges fresh ((node, pending) :: below)).Perm
        (outstanding edges (fresh.erase next)
          ((next, edges next) :: (node, pending) :: below)) :=
      outstanding_reach hfresh
    have hfollow := ((hreach.cons (node, next)).diff_right _).subset hedge
    rcases List.mem_cons.1 (List.subset_cons_diff hfollow) with
      rfl | hrest
    · have hpair : [next, node].Sublist
          (((next, edges next) :: (node, pending) :: below).map Prod.fst) :=
        ((List.nil_sublist _).cons_cons node).cons_cons next
      exact Or.inr (hpair.trans hpath)
    · apply (hedges edge hrest).imp_left
      rintro ⟨hleft, hnew⟩
      rw [List.map_cons, List.mem_cons, not_or] at hnew
      exact ⟨fun htarget => hleft ((List.mem_erase_of_ne hnew.1).2 htarget),
        hnew.2⟩
  | case5 fresh node next pending below hfresh found hfound ih =>
    -- The edge that is followed is the one that closes the reported cycle: both
    -- are taken away.
    obtain ⟨order, hperm, hpath, hedges⟩ := ih
    refine ⟨order, hperm, hpath, ?_⟩
    intro edge hedge
    have hclosing : closingEdges
        (found :: searchFrom edges fresh ((node, pending) :: below)) =
        (node, next) ::
          closingEdges (searchFrom edges fresh ((node, pending) :: below)) :=
      List.filterMap_cons_some (Path.closingEdge?_of_cycleTo? hfound)
    have hfollow : outstanding edges fresh ((node, next :: pending) :: below) =
        (node, next) :: outstanding edges fresh ((node, pending) :: below) :=
      rfl
    rw [hclosing, hfollow, List.diff_cons, List.erase_cons_head] at hedge
    exact hedges edge hedge
  | case6 fresh node next pending below hfresh hnone ih =>
    obtain ⟨order, hperm, hpath, hedges⟩ := ih
    refine ⟨order, hperm, hpath, ?_⟩
    intro edge hedge
    rcases List.mem_cons.1 (List.subset_cons_diff hedge) with rfl | hrest
    · exact Or.inl ⟨hfresh,
        fun hmem => Path.cycleTo?_eq_none hnone (Path.mem_nodes.2 hmem)⟩
    · exact hedges edge hrest

end

/-- The edges of a graph that is given by the targets of the edges of each
node. -/
def edgeList (edges : List (List Nat)) : List (Nat × Nat) :=
  edgesOf (fun node => edges[node]?.getD []) (List.range edges.length)

theorem mem_edgeList {edges : List (List Nat)} {source target : Nat} :
    (source, target) ∈ edgeList edges ↔ target ∈ edges[source]?.getD [] := by
  rw [edgeList, edgesOf, List.mem_flatMap]
  constructor
  · rintro ⟨node, -, hedge⟩
    obtain ⟨other, hother, heq⟩ := List.mem_map.1 hedge
    cases heq
    exact hother
  · intro htarget
    have hlt : source < edges.length := by
      by_contra hout
      rw [List.getElem?_eq_none (Nat.le_of_not_lt hout)] at htarget
      cases htarget
    exact ⟨source, List.mem_range.2 hlt, List.mem_map_of_mem htarget⟩

/-- The nodes of a graph whose edges all lead to nodes can be ordered so that
every edge leads backwards that remains when the closing edges of the reported
cycles are taken away. -/
theorem exists_order_of_cycles {edges : List (List Nat)}
    (hvalid : ∀ targets ∈ edges, ∀ target ∈ targets, target < edges.length) :
    ∃ order : List Nat, order.Perm (List.range edges.length) ∧ ∀ source target,
      (source, target) ∈ (edgeList edges).diff (closingEdges (cycles edges)) →
        [target, source].Sublist order := by
  obtain ⟨order, hperm, _, hedges⟩ := exists_order_of_searchFrom
    (fun node => edges[node]?.getD []) (List.range edges.length) []
  refine ⟨order, hperm, ?_⟩
  intro source target hedge
  rcases hedges (source, target) hedge with ⟨hleft, _⟩ | hback
  · have htarget : target ∈ edges[source]?.getD [] :=
      mem_edgeList.1 (List.diff_subset _ _ hedge)
    cases htargets : edges[source]? with
    | none => simp [htargets] at htarget
    | some targets =>
      rw [htargets, Option.getD_some] at htarget
      have hlt := hvalid targets (List.mem_of_getElem? htargets) target htarget
      exact absurd (List.mem_range.2 hlt) hleft
  · exact hback

end SqlWorkflow.Graph
