import SchemaCatalog.Proofs.Search
/-!
# Sorting with a stack

The order of a graph as two loops find it. The first searches all nodes with an explicit stack and
lists them in the reverse of the order in which it leaves them. The second goes through this list
and searches back from each node, over the edges into it, until it meets another node that it has not
met before. The loops end, the list is the order of the graph, and the node that is met in the end
lies in the component that `cycle?` gives.
-/
namespace SchemaCatalog.Graph

open Relation

/-- One turn of the first loop. The node on the stack is entered, and those of its successors that
have not been entered are put on top of it; or it is taken off, and left if it has not been yet. -/
def turn (graph : Graph) (node : Nat) (stack : List Nat) (search : Search) : List Nat × Search :=
  if search.entered.contains node then
    (stack, if search.left.contains node then search
      else { search with left := node :: search.left })
  else
    let search := { search with entered := node :: search.entered }
    ((graph.successors node).filter (!search.entered.contains ·) ++ node :: stack, search)

/-- The turns from a stack until it is empty. -/
inductive Sweeps (graph : Graph) : List Nat → Search → Search → Prop
  | done (search : Search) : graph.Sweeps [] search search
  | turn {node : Nat} {stack : List Nat} {search stop : Search}
    (h : graph.Sweeps (graph.turn node stack search).1 (graph.turn node stack search).2 stop) :
    graph.Sweeps (node :: stack) search stop

/-- The search of every node that has not been entered when its turn comes. -/
inductive SweepsAll (graph : Graph) : List Nat → Search → Search → Prop
  | done (search : Search) : graph.SweepsAll [] search search
  | passed {node : Nat} {nodes : List Nat} {search stop : Search} (hold : node ∈ search.entered)
    (h : graph.SweepsAll nodes search stop) : graph.SweepsAll (node :: nodes) search stop
  | swept {node : Nat} {nodes : List Nat} {search mid stop : Search}
    (hnew : node ∉ search.entered) (hsweep : graph.Sweeps [node] search mid)
    (h : graph.SweepsAll nodes mid stop) : graph.SweepsAll (node :: nodes) search stop

/-- The second loop: the first node that is met as the second one in a search back. Such a search
puts the nodes before the first on its stack that have not been met, and takes the top one. -/
def metBack (graph : Graph) (met : List Nat) : List Nat → Option Nat
  | [] => none
  | node :: nodes =>
    if met.contains node then metBack graph met nodes
    else
      let met := node :: met
      match ((graph.reversed.successors node).filter (!met.contains ·)).head? with
      | some other => some other
      | none => metBack graph met nodes

/-- Both loops: they give the nodes in order, or a node on a cycle. -/
inductive Toposort (graph : Graph) : Except Nat (List Nat) → Prop
  | sorted {stop : Search} (hsweep : graph.SweepsAll (List.range graph.size) ⟨[], []⟩ stop)
    (hback : graph.metBack [] stop.left = none) : graph.Toposort (.ok stop.left)
  | cyclic {stop : Search} {node : Nat}
    (hsweep : graph.SweepsAll (List.range graph.size) ⟨[], []⟩ stop)
    (hback : graph.metBack [] stop.left = some node) : graph.Toposort (.error node)

section FirstLoop

variable {graph : Graph} {depth : Nat} {search stop : Search} {node : Nat} {stack nodes : List Nat}

private theorem visit_of_mem (depth : Nat) (h : node ∈ search.entered) :
    graph.visit depth search node = search := by
  cases depth with
  | zero => rfl
  | succ depth => rw [visit, if_pos (by simpa using h)]

private theorem subset_foldl_visit (hvisit : ∀ search node, search.entered ⊆
      (graph.visit depth search node).entered) (nodes : List Nat) (search : Search) :
    search.entered ⊆ (nodes.foldl (graph.visit depth) search).entered := by
  induction nodes generalizing search with
  | nil => exact List.Subset.refl _
  | cons node nodes ih => exact List.Subset.trans (hvisit search node) (ih _)

/-- What has been entered stays so. -/
private theorem subset_visit (depth : Nat) (search : Search) (node : Nat) :
    search.entered ⊆ (graph.visit depth search node).entered := by
  induction depth generalizing search node with
  | zero => exact List.Subset.refl _
  | succ depth ih =>
    rw [visit]
    split
    · exact List.Subset.refl _
    · intro x hx
      exact subset_foldl_visit ih _ _ (List.mem_cons_of_mem node hx)

/-- Nodes that have been entered before need not be visited. -/
private theorem foldl_visit_filter {start : List Nat} (hstart : start ⊆ search.entered)
    (nodes : List Nat) :
    (nodes.filter (!start.contains ·)).foldl (graph.visit depth) search =
      nodes.foldl (graph.visit depth) search := by
  induction nodes generalizing search with
  | nil => rfl
  | cons node nodes ih =>
    by_cases hmem : node ∈ start
    · rw [List.filter_cons_of_neg (by simpa using hmem), List.foldl_cons,
        visit_of_mem depth (hstart hmem), ih hstart]
    · rw [List.filter_cons_of_pos (by simpa using hmem), List.foldl_cons, List.foldl_cons,
        ih (List.Subset.trans hstart (subset_visit depth search node))]

/-- A node that is put on the stack once more has been left by the time it comes to the top. -/
structure Search.Settled (search : Search) (nodes : List Nat) : Prop where
  sub : search.left ⊆ search.entered
  settled : ∀ x ∈ nodes, x ∈ search.entered → x ∈ search.left

/-- What a search finds it has both entered and left. -/
private theorem Explored.settled {roots found : List Nat} {start : Search}
    (h : graph.Explored roots start stop found) (hstart : start.Settled nodes) :
    stop.Settled nodes := by
  constructor
  · intro x hx
    rw [h.left] at hx
    rcases List.mem_append.mp hx with hx | hx
    · exact h.entered.mem_iff.mpr (List.mem_append_left _ hx)
    · exact h.subset (hstart.sub hx)
  · intro x hx hentered
    rw [h.left]
    rcases List.mem_append.mp (h.entered.mem_iff.mp hentered) with hfound | hold
    · exact List.mem_append_left _ hfound
    · exact List.mem_append_right _ (hstart.settled x hx hold)

private theorem Sweeps.skip (hentered : node ∈ search.entered) (hleft : node ∈ search.left)
    (h : graph.Sweeps stack search stop) : graph.Sweeps (node :: stack) search stop := by
  apply Sweeps.turn
  simpa [Graph.turn, hentered, hleft] using h

private theorem Sweeps.leave (hentered : node ∈ search.entered) (hleft : node ∉ search.left)
    (h : graph.Sweeps stack { search with left := node :: search.left } stop) :
    graph.Sweeps (node :: stack) search stop := by
  apply Sweeps.turn
  simpa [Graph.turn, hentered, hleft] using h

/-- What the loop has to do at one depth: come from a node on the stack to where `visit` comes. -/
def VisitSweeps (graph : Graph) (depth : Nat) : Prop :=
  ∀ search node stack stop, search.Roomy graph depth → node < graph.size →
    search.Settled [node] → graph.Sweeps stack (graph.visit depth search node) stop →
      graph.Sweeps (node :: stack) search stop

theorem foldl_visit_sweeps (hgraph : graph.Proper) (hvisit : VisitSweeps graph depth)
    (hnodes : ∀ x ∈ nodes, x < graph.size) (hroomy : search.Roomy graph depth)
    (hsettled : search.Settled nodes)
    (h : graph.Sweeps stack (nodes.foldl (graph.visit depth) search) stop) :
    graph.Sweeps (nodes ++ stack) search stop := by
  induction nodes generalizing search with
  | nil => exact h
  | cons node nodes ih =>
    have hnode := hnodes node List.mem_cons_self
    obtain ⟨found, hfound, hroomy'⟩ := visit_explored hgraph depth search node hroomy hnode
    have hsettled' := hfound.settled hsettled
    apply hvisit search node _ stop hroomy hnode
    · exact ⟨hsettled.sub, fun x hx => hsettled.settled x (by simp_all)⟩
    · apply ih (fun x hx => hnodes x (List.mem_cons_of_mem _ hx)) hroomy'
      · exact ⟨hsettled'.sub, fun x hx => hsettled'.settled x (List.mem_cons_of_mem _ hx)⟩
      · exact h

/-- The loop does what the recursion does. -/
theorem visit_sweeps (hgraph : graph.Proper) (depth : Nat) : VisitSweeps graph depth := by
  induction depth with
  | zero =>
    intro search node stack stop hroomy hnode hsettled h
    have hmem := hroomy.within.mem_of_size_le (by simpa using hroomy.room) hnode
    exact h.skip hmem (hsettled.settled node (by simp) hmem)
  | succ depth ih =>
    intro search node stack stop hroomy hnode hsettled h
    by_cases hmem : node ∈ search.entered
    · rw [visit_of_mem _ hmem] at h
      exact h.skip hmem (hsettled.settled node (by simp) hmem)
    · let start : Search := { search with entered := node :: search.entered }
      have hstart : start.Roomy graph depth := hroomy.enter hnode hmem
      have hsucc : ∀ x ∈ graph.successors node, x < graph.size := fun x hx =>
        (hgraph _ _ (mem_successors.mp hx)).2
      obtain ⟨found, hfound, hinner⟩ :=
        foldl_visit_explored (visit_explored hgraph depth) (graph.successors node) start hstart hsucc
      -- a node that is being searched has not been left before
      have hopen : node ∉ ((graph.successors node).foldl (graph.visit depth) start).left := by
        rw [hfound.left]
        intro hx
        rcases List.mem_append.mp hx with hx | hx
        · have hnodup := hfound.entered.nodup_iff.mp hinner.within.nodup
          exact (List.nodup_append.mp hnodup).2.2 node hx node List.mem_cons_self rfl
        · exact hmem (hsettled.sub hx)
      rw [visit, if_neg (by simpa using hmem)] at h
      have hback := Sweeps.leave (hfound.subset List.mem_cons_self) hopen h
      rw [← foldl_visit_filter (List.Subset.refl start.entered)] at hback
      apply Sweeps.turn
      simp only [Graph.turn, List.contains_iff_mem, if_neg hmem]
      apply foldl_visit_sweeps hgraph ih _ hstart _ hback
      · exact fun x hx => hsucc x (List.mem_filter.mp hx).1
      · refine ⟨fun x hx => List.mem_cons_of_mem _ (hsettled.sub hx), fun x hx hentered => ?_⟩
        simp [hentered] at hx

private theorem Sweeps.unique {stop' : Search} (h : graph.Sweeps stack search stop)
    (h' : graph.Sweeps stack search stop') : stop' = stop := by
  induction h with
  | done search =>
    cases h'
    rfl
  | turn _ ih =>
    cases h' with
    | turn h' => exact ih h'

private theorem SweepsAll.unique {stop' : Search} (h : graph.SweepsAll nodes search stop)
    (h' : graph.SweepsAll nodes search stop') : stop' = stop := by
  induction h with
  | done search =>
    cases h'
    rfl
  | passed hold _ ih =>
    cases h' with
    | passed _ h' => exact ih h'
    | swept hnew _ _ => exact absurd hold hnew
  | swept hnew hsweep _ ih =>
    cases h' with
    | passed hold _ => exact absurd hold hnew
    | swept _ hsweep' h' =>
      rw [hsweep.unique hsweep'] at h'
      exact ih h'

private theorem sweepsAll_foldl (hgraph : graph.Proper) (hnodes : ∀ x ∈ nodes, x < graph.size)
    (hroomy : search.Roomy graph graph.size)
    (hsettled : search.Settled (List.range graph.size)) :
    graph.SweepsAll nodes search (nodes.foldl (graph.visit graph.size) search) := by
  induction nodes generalizing search with
  | nil => exact .done search
  | cons node nodes ih =>
    have hnode := hnodes node List.mem_cons_self
    have hrest := fun x hx => hnodes x (List.mem_cons_of_mem node hx)
    by_cases hmem : node ∈ search.entered
    · rw [List.foldl_cons, visit_of_mem _ hmem]
      exact .passed hmem (ih hrest hroomy hsettled)
    · obtain ⟨found, hfound, hroomy'⟩ := visit_explored hgraph _ search node hroomy hnode
      apply SweepsAll.swept hmem
      · apply visit_sweeps hgraph graph.size search node [] _ hroomy hnode
        · refine ⟨hsettled.sub, fun x hx => hsettled.settled x ?_⟩
          rw [List.mem_singleton.mp hx]
          exact List.mem_range.mpr hnode
        · exact .done _
      · exact ih hrest hroomy' (hfound.settled hsettled)

/-- The first loop comes to its end, and to the order of the graph. -/
private theorem exists_sweepsAll (hgraph : graph.Proper) :
    ∃ stop, graph.SweepsAll (List.range graph.size) ⟨[], []⟩ stop ∧ stop.left = graph.order := by
  refine ⟨_, sweepsAll_foldl hgraph (fun x hx => List.mem_range.mp hx) (roomy_empty graph) ?_, rfl⟩
  exact ⟨List.Subset.refl _, fun _ _ h => h⟩

end FirstLoop

section SecondLoop

variable {graph : Graph} {met nodes : List Nat} {node other : Nat}

/-- No edge into the list comes from a later node of it, or from elsewhere than the nodes met. -/
def ClosedBack (graph : Graph) (met nodes : List Nat) : Prop :=
  ∀ before node after, nodes = before ++ node :: after → ∀ other, graph.Edge other node →
    other ∈ met ∨ other ∈ before ∨ other = node

private theorem closedBack_cons : graph.ClosedBack met (node :: nodes) ↔
    (∀ other, graph.Edge other node → other ∈ met ∨ other = node) ∧
      graph.ClosedBack (node :: met) nodes := by
  constructor
  · intro h
    refine ⟨fun other hedge => by simpa using h [] node nodes rfl other hedge, ?_⟩
    intro before x after heq other hedge
    have := h (node :: before) x after (by rw [heq, List.cons_append]) other hedge
    grind
  · rintro ⟨hnode, hnodes⟩ before x after heq other hedge
    cases before with
    | nil =>
      obtain ⟨rfl, -⟩ := List.cons_eq_cons.mp heq
      rcases hnode other hedge with h | h
      · exact .inl h
      · exact .inr (.inr h)
    | cons z before =>
      obtain ⟨rfl, rfl⟩ := List.cons_eq_cons.mp heq
      have := hnodes before x after rfl other hedge
      grind

/-- The first node that the second loop finds behind a node has not been met. -/
private theorem edge_of_head? (h : ((graph.reversed.successors node).filter
    (!(node :: met).contains ·)).head? = some other) :
    graph.Edge other node ∧ other ≠ node ∧ other ∉ met := by
  have hmem := List.mem_of_head? h
  simpa only [List.mem_filter, mem_successors, edge_reversed, Bool.not_eq_true',
    List.contains_eq_mem, decide_eq_false_iff_not, List.mem_cons, not_or] using hmem

private theorem met_of_head?_eq_none (h : ((graph.reversed.successors node).filter
    (!(node :: met).contains ·)).head? = none) (hedge : graph.Edge other node) :
    other ∈ met ∨ other = node := by
  by_contra hnot
  have hmem : other ∈ (graph.reversed.successors node).filter (!(node :: met).contains ·) := by
    simp only [List.mem_filter, mem_successors, edge_reversed]
    grind
  rw [List.head?_eq_none_iff.mp h] at hmem
  cases hmem

/-- The second loop stops at the first node into which an edge leads from a node that has not been
met, and gives such a node. -/
private theorem metBack_spec (graph : Graph) (met : List Nat) (hnodup : nodes.Nodup)
    (hmet : ∀ x ∈ nodes, x ∉ met) :
    match graph.metBack met nodes with
    | none => graph.ClosedBack met nodes
    | some other => ∃ before node after, nodes = before ++ node :: after ∧
      graph.ClosedBack met before ∧ graph.Edge other node ∧ other ∉ met ∧ other ∉ before ∧
        other ≠ node := by
  induction nodes generalizing met with
  | nil =>
    intro before node after heq
    simp at heq
  | cons node nodes ih =>
    obtain ⟨hnode, hnodup⟩ := List.nodup_cons.mp hnodup
    have hnew : node ∉ met := hmet node List.mem_cons_self
    rw [metBack, if_neg (by simpa using hnew)]
    dsimp only
    cases hhead : ((graph.reversed.successors node).filter (!(node :: met).contains ·)).head? with
    | some other =>
      obtain ⟨hedge, hne, hother⟩ := edge_of_head? hhead
      refine ⟨[], node, nodes, rfl, ?_, hedge, hother, by simp, hne⟩
      intro before x after heq
      simp at heq
    | none =>
      have hin : ∀ other, graph.Edge other node → other ∈ met ∨ other = node :=
        fun _ => met_of_head?_eq_none hhead
      have hrest := ih (node :: met) hnodup (by grind)
      cases hback : graph.metBack (node :: met) nodes with
      | none =>
        rw [hback] at hrest
        exact closedBack_cons.mpr ⟨hin, hrest⟩
      | some other =>
        rw [hback] at hrest
        obtain ⟨before, x, after, rfl, hclosed, hedge, hother, hbefore, hne⟩ := hrest
        refine ⟨node :: before, x, after, rfl, closedBack_cons.mpr ⟨hin, hclosed⟩, hedge, ?_⟩
        grind

/-- A path into the list starts in it, and not later than it ends. -/
private theorem ClosedBack.reach (h : graph.ClosedBack [] nodes) (hnode : node ∈ nodes)
    (hpath : graph.Reach other node) :
    other ∈ nodes ∧ nodes.idxOf other ≤ nodes.idxOf node := by
  induction hpath using ReflTransGen.head_induction_on with
  | refl => exact ⟨hnode, Nat.le_refl _⟩
  | @head a b hedge _ ih =>
    obtain ⟨hb, hle⟩ := ih
    obtain ⟨before, after, heq, hnot⟩ := List.eq_append_cons_of_mem hb
    rcases h before b after heq a hedge with hmet | hbefore | rfl
    · cases hmet
    · refine ⟨by simp [heq, hbefore], Nat.le_trans (Nat.le_of_lt ?_) hle⟩
      rw [heq, List.idxOf_append_of_mem hbefore, List.idxOf_append_of_notMem hnot]
      exact Nat.lt_of_lt_of_le (List.idxOf_lt_length_of_mem hbefore) (Nat.le_add_right _ _)
    · exact ⟨hb, hle⟩

/-- A node of the list is alone in its component. -/
private theorem ClosedBack.length_component_lt (hgraph : graph.Proper)
    (h : graph.ClosedBack [] nodes) (hnode : node ∈ nodes) (hsize : node < graph.size) :
    (graph.component node).length < 2 := by
  have hall : ∀ x ∈ graph.component node, x = node := by
    intro x hx
    obtain ⟨-, hto, hfrom⟩ := (mem_component hgraph hsize).mp hx
    obtain ⟨hmem, hle⟩ := h.reach hnode hfrom
    exact (List.idxOf_inj hmem).mp (Nat.le_antisymm hle (h.reach hmem hto).2)
  have hnodup : (graph.component node).Nodup := List.nodup_range.filter _
  have hsub : graph.component node ⊆ [node] := fun x hx => by simp [hall x hx]
  have := (hnodup.subperm hsub).length_le
  simpa using Nat.lt_succ_of_le this

/-- Nodes that reach each other have the same component. -/
private theorem component_congr (hgraph : graph.Proper) {a b : Nat} (ha : a < graph.size)
    (hb : b < graph.size) (hab : graph.Reach a b) (hba : graph.Reach b a) :
    graph.component a = graph.component b := by
  have hiff : ∀ x, x ∈ graph.component a ↔ x ∈ graph.component b := by
    intro x
    rw [mem_component hgraph ha, mem_component hgraph hb]
    constructor
    · rintro ⟨hx, hto, hfrom⟩
      exact ⟨hx, hba.trans hto, hfrom.trans hab⟩
    · rintro ⟨hx, hto, hfrom⟩
      exact ⟨hx, hab.trans hto, hfrom.trans hba⟩
  refine List.filter_congr fun x hx => Bool.eq_iff_iff.mpr ?_
  have hmem := hiff x
  simp only [component, List.mem_filter, hx, true_and] at hmem
  exact hmem

/-- The second loop finds nothing exactly when every edge leads forward. -/
theorem closedBack_order_iff (hgraph : graph.Proper) (hloop : ∀ a, ¬ graph.Edge a a) :
    graph.ClosedBack [] graph.order ↔ graph.leadsForward graph.order = true := by
  rw [leadsForward_iff]
  constructor
  · intro h a b hedge
    have hb : b ∈ graph.order :=
      (order_perm hgraph).mem_iff.mpr (List.mem_range.mpr (hgraph a b hedge).2)
    obtain ⟨ha, hle⟩ := h.reach hb (.single hedge)
    refine Nat.lt_of_le_of_ne hle fun heq => hloop b ?_
    rwa [(List.idxOf_inj ha).mp heq] at hedge
  · intro h before node after heq other hedge
    have hnodup : (before ++ node :: after).Nodup :=
      heq ▸ (order_perm hgraph).nodup_iff.mpr List.nodup_range
    have hnode : node ∉ before := fun hmem =>
      (List.nodup_append.mp hnodup).2.2 node hmem node List.mem_cons_self rfl
    have hlt := h other node hedge
    by_contra hnot
    simp only [List.not_mem_nil, false_or, not_or] at hnot
    rw [heq, List.idxOf_append_of_notMem hnot.1, List.idxOf_append_of_notMem hnode,
      List.idxOf_cons_self] at hlt
    omega

/-- The node that is met lies in the first component of several nodes. -/
private theorem cycle?_eq_of_metBack (hgraph : graph.Proper) (hloop : ∀ a, ¬ graph.Edge a a)
    (h : graph.metBack [] graph.order = some other) :
    graph.cycle? = some (graph.component other) := by
  obtain ⟨hperm, hordered⟩ := order_explored hgraph
  have hnodup : graph.order.Nodup := hperm.nodup_iff.mpr List.nodup_range
  have hspec := metBack_spec graph [] hnodup (by simp)
  rw [h] at hspec
  obtain ⟨before, node, after, heq, hclosed, hedge, -, hbefore, hne⟩ := hspec
  obtain ⟨hother, hnode⟩ := hgraph other node hedge
  -- the edge does not lead forward, so it lies on a cycle
  have hafter : other ∈ after := by
    have hmem := hperm.mem_iff.mpr (List.mem_range.mpr hother)
    simpa [heq, hbefore, hne] using hmem
  have hback : graph.Reach node other := by
    obtain ⟨mid, rest, rfl⟩ := List.append_of_mem hafter
    refine (hordered (before ++ node :: mid) other rest (by simp [heq]) node hedge).resolve_left ?_
    intro hrest
    rw [heq, List.nodup_append] at hnodup
    simp [hrest] at hnodup
  have hsome : 2 ≤ (graph.component node).length := by
    rw [component_congr hgraph hnode hother hback (.single hedge)]
    exact two_le_length_component hgraph hne hedge hback
  have hnone : before.findSome? (fun node =>
      let component := graph.component node
      if 2 ≤ component.length then some component else none) = none := by
    rw [List.findSome?_eq_none_iff]
    intro x hx
    have hsize : x < graph.size := List.mem_range.mp (hperm.mem_iff.mp (by simp [heq, hx]))
    have hlt := hclosed.length_component_lt hgraph hx hsize
    simp only [if_neg (Nat.not_le.mpr hlt)]
  have hforward : graph.leadsForward graph.order ≠ true := by
    intro hforward
    have hin := (closedBack_order_iff hgraph hloop).mpr hforward before node after heq other hedge
    simp [hbefore, hne] at hin
  rw [cycle?, if_neg hforward, heq, List.findSome?_append, hnone, Option.none_or,
    List.findSome?_cons]
  simp only [if_pos hsome]
  rw [component_congr hgraph hnode hother hback (.single hedge)]

end SecondLoop

section Both

variable {graph : Graph}

/-- The loops come to their ends with one result. -/
theorem exists_toposort (hgraph : graph.Proper) : ∃ result, graph.Toposort result := by
  obtain ⟨stop, hsweep, -⟩ := exists_sweepsAll hgraph
  cases hback : graph.metBack [] stop.left with
  | none => exact ⟨_, .sorted hsweep hback⟩
  | some node => exact ⟨_, .cyclic hsweep hback⟩

/-- When the second loop finds nothing, the nodes come in the order of the graph. -/
theorem Toposort.of_ok {nodes : List Nat} (h : graph.Toposort (.ok nodes))
    (hgraph : graph.Proper) (hloop : ∀ a, ¬ graph.Edge a a) :
    graph.cycle? = none ∧ nodes = graph.order := by
  obtain ⟨stop, hstop, horder⟩ := exists_sweepsAll hgraph
  cases h with
  | sorted hsweep hback =>
    obtain rfl := hstop.unique hsweep
    rw [horder] at hback
    have hspec := metBack_spec graph []
      ((order_perm hgraph).nodup_iff.mpr List.nodup_range) (by simp)
    rw [hback] at hspec
    refine ⟨?_, horder⟩
    rw [cycle?, if_pos ((closedBack_order_iff hgraph hloop).mp hspec)]

/-- When it finds a node, there is a cycle, and the node lies in the first component of several. -/
theorem Toposort.of_error {node : Nat} (h : graph.Toposort (.error node))
    (hgraph : graph.Proper) (hloop : ∀ a, ¬ graph.Edge a a) :
    graph.cycle? = some (graph.component node) := by
  obtain ⟨stop, hstop, horder⟩ := exists_sweepsAll hgraph
  cases h with
  | cyclic hsweep hback =>
    obtain rfl := hstop.unique hsweep
    rw [horder] at hback
    exact cycle?_eq_of_metBack hgraph hloop hback

end Both

end SchemaCatalog.Graph
