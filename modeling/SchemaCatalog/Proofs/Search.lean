import Mathlib.Data.List.Perm.Subperm
import Mathlib.Logic.Relation
import SchemaCatalog.Teardown.Graph
/-!
# Depth-first search

What a search adds to the nodes entered before it. From this come the laws of `reachable` and
`component`, and the law of `order`: it lists every node once, and an edge that does not lead forward
in it lies on a cycle.
-/
namespace SchemaCatalog.Graph

open Relation

/-- The graph has an edge from `a` to `b`. -/
def Edge (graph : Graph) (a b : Nat) : Prop :=
  (a, b) ∈ graph.edges

/-- There is a path from `a` to `b`, the empty one included. -/
def Reach (graph : Graph) : Nat → Nat → Prop :=
  ReflTransGen graph.Edge

/-- No path leads from a node back to it. -/
def Acyclic (graph : Graph) : Prop :=
  ∀ a, ¬ TransGen graph.Edge a a

/-- Edges join nodes of the graph. -/
def Proper (graph : Graph) : Prop :=
  ∀ a b, graph.Edge a b → a < graph.size ∧ b < graph.size

theorem mem_successors {graph : Graph} {a b : Nat} :
    b ∈ graph.successors a ↔ graph.Edge a b := by
  simp only [successors, Edge, List.mem_map, List.mem_filter, beq_iff_eq]
  constructor
  · rintro ⟨e, ⟨he, rfl⟩, rfl⟩
    exact he
  · intro h
    exact ⟨(a, b), ⟨h, rfl⟩, rfl⟩

/-- The nodes entered are nodes of the graph, each entered once. -/
structure Search.Within (graph : Graph) (search : Search) : Prop where
  nodup : search.entered.Nodup
  bound : ∀ x ∈ search.entered, x < graph.size

/-- A search from some roots enters and leaves the nodes `found`. They are reached from the roots,
all their successors have been entered by the end, and a successor is found deeper, had been entered
before, or leads back. -/
structure Explored (graph : Graph) (roots : List Nat) (start stop : Search) (found : List Nat) :
    Prop where
  left : stop.left = found ++ start.left
  entered : stop.entered.Perm (found ++ start.entered)
  visited : ∀ r ∈ roots, r ∈ stop.entered
  reached : ∀ x ∈ found, ∃ r ∈ roots, graph.Reach r x
  closed : ∀ x ∈ found, ∀ y, graph.Edge x y → y ∈ stop.entered
  ordered : ∀ before x after, found = before ++ x :: after → ∀ y, graph.Edge x y →
    y ∈ after ∨ y ∈ start.entered ∨ graph.Reach y x

namespace Explored

variable {graph : Graph} {start middle stop : Search} {roots roots' found found' : List Nat}

/-- A search that finds nothing. -/
private theorem none (search : Search) (h : ∀ r ∈ roots, r ∈ search.entered) :
    graph.Explored roots search search [] where
  left := rfl
  entered := .refl _
  visited := h
  reached := by simp
  closed := by simp
  ordered := by simp

theorem subset (h : graph.Explored roots start stop found) {x : Nat} (hx : x ∈ start.entered) :
    x ∈ stop.entered :=
  h.entered.mem_iff.mpr (List.mem_append_right _ hx)

/-- One search after the other. -/
private theorem trans (h : graph.Explored roots start middle found)
    (h' : graph.Explored roots' middle stop found') :
    graph.Explored (roots ++ roots') start stop (found' ++ found) where
  left := by rw [h'.left, h.left, List.append_assoc]
  entered := by
    rw [List.append_assoc]
    exact h'.entered.trans (h.entered.append_left found')
  visited := by
    intro r hr
    rcases List.mem_append.mp hr with hr | hr
    · exact h'.subset (h.visited r hr)
    · exact h'.visited r hr
  reached := by
    intro x hx
    rcases List.mem_append.mp hx with hx | hx
    · obtain ⟨r, hr, hp⟩ := h'.reached x hx
      exact ⟨r, List.mem_append_right _ hr, hp⟩
    · obtain ⟨r, hr, hp⟩ := h.reached x hx
      exact ⟨r, List.mem_append_left _ hr, hp⟩
  closed := by
    intro x hx y hy
    rcases List.mem_append.mp hx with hx | hx
    · exact h'.closed x hx y hy
    · exact h'.subset (h.closed x hx y hy)
  ordered := by
    intro before x after heq y hy
    rcases List.append_eq_append_iff.mp heq with ⟨mid, rfl, hfound⟩ | ⟨mid, hfound', hafter⟩
    · exact h.ordered mid x after hfound y hy
    · cases mid with
      | nil => exact h.ordered [] x after (by simpa using hafter.symm) y hy
      | cons z mid =>
        obtain ⟨rfl, rfl⟩ := List.cons_eq_cons.mp hafter
        rcases h'.ordered before x mid hfound' y hy with hm | hm | hm
        · exact .inl (List.mem_append_left _ hm)
        · rcases List.mem_append.mp (h.entered.mem_iff.mp hm) with hf | hs
          · exact .inl (List.mem_append_right _ hf)
          · exact .inr (.inl hs)
        · exact .inr (.inr hm)

/-- A node is entered, its successors are searched, and the node is left. -/
private theorem enter {node : Nat} {inner : Search}
    (h : graph.Explored (graph.successors node)
      { start with entered := node :: start.entered } inner found) :
    graph.Explored [node] start { inner with left := node :: inner.left } (node :: found) where
  left := by simp [h.left]
  entered := h.entered.trans List.perm_middle
  visited := by
    intro r hr
    obtain rfl := List.mem_singleton.mp hr
    exact h.subset List.mem_cons_self
  reached := by
    intro x hx
    refine ⟨node, List.mem_singleton_self node, ?_⟩
    rcases List.mem_cons.mp hx with rfl | hx
    · exact .refl
    · obtain ⟨r, hr, hp⟩ := h.reached x hx
      exact .head (mem_successors.mp hr) hp
  closed := by
    intro x hx y hy
    rcases List.mem_cons.mp hx with rfl | hx
    · exact h.visited y (mem_successors.mpr hy)
    · exact h.closed x hx y hy
  ordered := by
    intro before x after heq y hy
    cases before with
    | nil =>
      obtain ⟨rfl, rfl⟩ := List.cons_eq_cons.mp heq
      rcases List.mem_append.mp (h.entered.mem_iff.mp (h.visited y (mem_successors.mpr hy)))
        with hf | hs
      · exact .inl hf
      · rcases List.mem_cons.mp hs with rfl | hs
        · exact .inr (.inr .refl)
        · exact .inr (.inl hs)
    | cons z before =>
      obtain ⟨-, rfl⟩ := List.cons_eq_cons.mp heq
      rcases h.ordered before x after rfl y hy with ha | hs | hr
      · exact .inl ha
      · rcases List.mem_cons.mp hs with rfl | hs
        -- the edge leads back to the node whose successors are searched
        · obtain ⟨r, hr, hp⟩ := h.reached x (by simp)
          exact .inr (.inr (.head (mem_successors.mp hr) hp))
        · exact .inr (.inl hs)
      · exact .inr (.inr hr)

end Explored

/-- A search of a depth that has entered all nodes but that many stays inside the graph. -/
structure Search.Roomy (graph : Graph) (depth : Nat) (search : Search) : Prop where
  within : search.Within graph
  room : graph.size ≤ depth + search.entered.length

/-- A search that has entered as many nodes as there are has entered all of them. -/
theorem Search.Within.mem_of_size_le {graph : Graph} {search : Search} (h : search.Within graph)
    (hsize : graph.size ≤ search.entered.length) {node : Nat} (hnode : node < graph.size) :
    node ∈ search.entered := by
  have hsub : search.entered ⊆ List.range graph.size := fun x hx =>
    List.mem_range.mpr (h.bound x hx)
  have hperm : search.entered.Perm (List.range graph.size) :=
    (h.nodup.subperm hsub).perm_of_length_le (by simpa using hsize)
  exact hperm.mem_iff.mpr (List.mem_range.mpr hnode)

/-- What enters a node has to go less deep from there. -/
theorem Search.Roomy.enter {graph : Graph} {depth node : Nat} {search : Search}
    (h : search.Roomy graph (depth + 1)) (hnode : node < graph.size) (hmem : node ∉ search.entered) :
    Search.Roomy graph depth { search with entered := node :: search.entered } := by
  refine ⟨⟨List.nodup_cons.mpr ⟨hmem, h.within.nodup⟩, ?_⟩, ?_⟩
  · exact List.forall_mem_cons.mpr ⟨hnode, h.within.bound⟩
  · have := h.room
    simp only [List.length_cons]
    omega

/-- What `visit` has to do at one depth, for every search and node. -/
def VisitExplores (graph : Graph) (depth : Nat) : Prop :=
  ∀ search node, search.Roomy graph depth → node < graph.size →
    ∃ found, graph.Explored [node] search (graph.visit depth search node) found ∧
      (graph.visit depth search node).Roomy graph depth

theorem foldl_visit_explored {graph : Graph} {depth : Nat}
    (hvisit : VisitExplores graph depth) (nodes : List Nat) (search : Search)
    (hsearch : search.Roomy graph depth) (hnodes : ∀ x ∈ nodes, x < graph.size) :
    ∃ found, graph.Explored nodes search (nodes.foldl (graph.visit depth) search) found ∧
      (nodes.foldl (graph.visit depth) search).Roomy graph depth := by
  induction nodes generalizing search with
  | nil => exact ⟨[], .none search (by simp), hsearch⟩
  | cons node nodes ih =>
    obtain ⟨found, hfound, hroomy⟩ := hvisit search node hsearch (hnodes node (by simp))
    obtain ⟨found', hfound', hroomy'⟩ :=
      ih _ hroomy fun x hx => hnodes x (List.mem_cons_of_mem _ hx)
    exact ⟨found' ++ found, hfound.trans hfound', hroomy'⟩

theorem visit_explored {graph : Graph} (hgraph : graph.Proper) (depth : Nat) :
    VisitExplores graph depth := by
  induction depth with
  | zero =>
    intro search node hsearch hnode
    have hmem := hsearch.within.mem_of_size_le (by simpa using hsearch.room) hnode
    exact ⟨[], .none search (by simpa using hmem), hsearch⟩
  | succ depth ih =>
    intro search node hsearch hnode
    rw [visit]
    by_cases hmem : node ∈ search.entered
    · rw [if_pos (by simpa using hmem)]
      exact ⟨[], .none search (by simpa using hmem), hsearch⟩
    · rw [if_neg (by simpa using hmem)]
      obtain ⟨found, hfound, hroomy⟩ := foldl_visit_explored ih (graph.successors node) _
        (hsearch.enter hnode hmem) fun x hx => (hgraph _ _ (mem_successors.mp hx)).2
      refine ⟨node :: found, hfound.enter, ⟨hroomy.within.nodup, hroomy.within.bound⟩, ?_⟩
      have := hroomy.room
      simp only
      omega

theorem roomy_empty (graph : Graph) : Search.Roomy graph graph.size ⟨[], []⟩ :=
  ⟨⟨.nil, by simp⟩, by simp⟩

/-- `reachable` lists the nodes to which a path leads. -/
private theorem mem_reachable {graph : Graph} (hgraph : graph.Proper) {node other : Nat}
    (hnode : node < graph.size) : other ∈ graph.reachable node ↔ graph.Reach node other := by
  obtain ⟨found, h, -⟩ := visit_explored hgraph graph.size _ node (roomy_empty graph) hnode
  have hentered : ∀ x, x ∈ graph.reachable node ↔ x ∈ found := fun x => by
    simpa [reachable] using h.entered.mem_iff
  rw [hentered]
  constructor
  · intro hx
    obtain ⟨r, hr, hp⟩ := h.reached other hx
    rwa [List.mem_singleton.mp hr] at hp
  · intro hp
    induction hp with
    | refl => exact (hentered node).mp (h.visited node (by simp))
    | tail _ hedge ih => exact (hentered _).mp (h.closed _ ih _ hedge)

/-- The order lists every node once, and an edge leads to a later place or lies on a cycle. -/
theorem order_explored {graph : Graph} (hgraph : graph.Proper) :
    graph.order.Perm (List.range graph.size) ∧
      ∀ before x after, graph.order = before ++ x :: after → ∀ y, graph.Edge x y →
        y ∈ after ∨ graph.Reach y x := by
  obtain ⟨found, h, hroomy⟩ := foldl_visit_explored (visit_explored hgraph graph.size)
    (List.range graph.size) ⟨[], []⟩ (roomy_empty graph) (by simp)
  have horder : graph.order = found := by simpa [order] using h.left
  have hperm := h.entered
  rw [List.append_nil] at hperm
  refine ⟨?_, ?_⟩
  · rw [horder]
    refine (List.perm_ext_iff_of_nodup (hperm.nodup_iff.mp hroomy.within.nodup)
      List.nodup_range).mpr fun x => ⟨fun hx => ?_, fun hx => ?_⟩
    · exact List.mem_range.mpr (hroomy.within.bound x (hperm.mem_iff.mpr hx))
    · exact hperm.mem_iff.mp (h.visited x hx)
  · intro before x after heq y hy
    have := h.ordered before x after (horder ▸ heq) y hy
    simpa using this

/-- The order lists every node once. -/
theorem order_perm {graph : Graph} (hgraph : graph.Proper) :
    graph.order.Perm (List.range graph.size) :=
  (order_explored hgraph).1

theorem leadsForward_iff {graph : Graph} {nodes : List Nat} :
    graph.leadsForward nodes = true ↔
      ∀ a b, graph.Edge a b → nodes.idxOf a < nodes.idxOf b := by
  simp only [leadsForward, List.all_eq_true, decide_eq_true_eq, Edge, Prod.forall]

/-- A list in which every edge leads forward rules out cycles. -/
private theorem Acyclic.of_leadsForward {graph : Graph} {nodes : List Nat}
    (h : graph.leadsForward nodes = true) : graph.Acyclic := by
  have hlt : ∀ a b, TransGen graph.Edge a b → nodes.idxOf a < nodes.idxOf b := by
    intro a b hab
    induction hab with
    | single hedge => exact leadsForward_iff.mp h _ _ hedge
    | tail _ hedge ih => exact Nat.lt_trans ih (leadsForward_iff.mp h _ _ hedge)
  exact fun a ha => Nat.lt_irrefl _ (hlt a a ha)

/-- Without cycles every edge leads forward in the order. -/
private theorem leadsForward_order {graph : Graph} (hgraph : graph.Proper) (h : graph.Acyclic) :
    graph.leadsForward graph.order = true := by
  obtain ⟨hperm, hordered⟩ := order_explored hgraph
  apply leadsForward_iff.mpr
  intro a b hedge
  have ha : a ∈ graph.order := hperm.mem_iff.mpr (List.mem_range.mpr (hgraph a b hedge).1)
  obtain ⟨before, after, heq⟩ := List.append_of_mem ha
  have hnodup : (before ++ a :: after).Nodup := heq ▸ hperm.nodup_iff.mpr List.nodup_range
  have hb : b ∈ after := (hordered before a after heq b hedge).resolve_right fun hp =>
    h a (.head' hedge hp)
  obtain ⟨-, hcons, hdisj⟩ := List.nodup_append.mp hnodup
  have hbefore : a ∉ before := fun hm => hdisj a hm a (by simp) rfl
  have hbefore' : b ∉ before := fun hm => hdisj b hm b (List.mem_cons_of_mem _ hb) rfl
  have hne : a ≠ b := fun hab => (List.nodup_cons.mp hcons).1 (hab ▸ hb)
  rw [heq, List.idxOf_append_of_notMem hbefore, List.idxOf_append_of_notMem hbefore',
    List.idxOf_cons_self, List.idxOf_cons_ne _ hne]
  omega

/-- In the order of an acyclic graph no edge leads back. -/
theorem pairwise_order {graph : Graph} (hgraph : graph.Proper) (h : graph.Acyclic) :
    graph.order.Pairwise fun a b => ¬ graph.Edge b a := by
  have hnodup : graph.order.Nodup := (order_perm hgraph).nodup_iff.mpr List.nodup_range
  apply List.pairwise_iff_getElem.mpr
  intro i j hi hj hij hedge
  have hlt := leadsForward_iff.mp (leadsForward_order hgraph h) _ _ hedge
  rw [hnodup.idxOf_getElem, hnodup.idxOf_getElem] at hlt
  omega

theorem edge_reversed {graph : Graph} {a b : Nat} :
    graph.reversed.Edge a b ↔ graph.Edge b a := by
  simp only [Edge, reversed, List.mem_map]
  constructor
  · rintro ⟨e, he, heq⟩
    rwa [← Prod.swap_inj.mp (heq.trans (Prod.swap_prod_mk (a := b) (b := a)).symm)]
  · intro h
    exact ⟨(b, a), h, rfl⟩

private theorem Proper.reversed {graph : Graph} (h : graph.Proper) : graph.reversed.Proper :=
  fun a b hab => (h b a (edge_reversed.mp hab)).symm

private theorem reach_reversed {graph : Graph} {a b : Nat} :
    graph.reversed.Reach a b ↔ graph.Reach b a := by
  have hswap : graph.reversed.Edge = Function.swap graph.Edge := by
    funext a b
    exact propext edge_reversed
  rw [Reach, Reach, hswap, reflTransGen_swap]

/-- The component of a node is what it reaches and is reached from. -/
theorem mem_component {graph : Graph} (hgraph : graph.Proper) {node other : Nat}
    (hnode : node < graph.size) :
    other ∈ graph.component node ↔
      other < graph.size ∧ graph.Reach node other ∧ graph.Reach other node := by
  simp only [component, List.mem_filter, List.mem_range, Bool.and_eq_true,
    List.contains_iff_mem, mem_reachable hgraph hnode]
  rw [mem_reachable hgraph.reversed hnode, reach_reversed]

/-- A cycle that is no loop shows up as a component of several nodes. -/
theorem two_le_length_component {graph : Graph} (hgraph : graph.Proper) {a b : Nat}
    (hne : a ≠ b) (hedge : graph.Edge a b) (hback : graph.Reach b a) :
    2 ≤ (graph.component a).length := by
  obtain ⟨ha, hb⟩ := hgraph a b hedge
  have hsub : [a, b] ⊆ graph.component a := by
    intro x hx
    rcases List.mem_cons.mp hx with rfl | hx
    · exact (mem_component hgraph ha).mpr ⟨ha, .refl, .refl⟩
    · obtain rfl := List.mem_singleton.mp hx
      exact (mem_component hgraph ha).mpr ⟨hb, .single hedge, hback⟩
  have hnodup : [a, b].Nodup := by simp [hne]
  exact (hnodup.subperm hsub).length_le

/-- The order finds a cycle exactly when there is one. -/
theorem cycle?_eq_none_iff {graph : Graph} (hgraph : graph.Proper)
    (hloop : ∀ a, ¬ graph.Edge a a) : graph.cycle? = none ↔ graph.Acyclic := by
  rw [cycle?]
  constructor
  · intro h
    split at h
    next hforward => exact .of_leadsForward hforward
    next hforward =>
      by_contra hcyclic
      simp only [Acyclic, not_forall, not_not] at hcyclic
      obtain ⟨a, ha⟩ := hcyclic
      obtain ⟨b, hedge, hback⟩ := TransGen.head'_iff.mp ha
      have hne : a ≠ b := fun hab => hloop a (by rwa [← hab] at hedge)
      have hmem : a ∈ graph.order :=
        (order_perm hgraph).mem_iff.mpr (List.mem_range.mpr (hgraph a b hedge).1)
      have hnone := List.findSome?_eq_none_iff.mp h a hmem
      simp [two_le_length_component hgraph hne hedge hback] at hnone
  · intro h
    rw [if_pos (leadsForward_order hgraph h)]

end SchemaCatalog.Graph
