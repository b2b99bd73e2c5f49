import Mathlib.Data.List.Nodup
import SchemaCatalog.Proofs.OutsideReaders
import SchemaCatalog.Proofs.RemovalErrors
/-!
# Reported cycles

Which tables are named when a schema cannot be dropped because its tables read each other in a cycle.
They are one strongly connected component of the tables, the one in which the sort with a stack meets
a node a second time: each of them reaches every other through tables that read each other, and
nothing else in the schema does so with them. Their names come in order and none comes twice. No other
part of the removal reports a cycle, so nothing has been removed when one is reported.
-/
namespace SchemaCatalog

open Database Relation

section Names

variable {name : String} {names : List String}

private theorem pairwise_insertName (h : names.Pairwise (· ≤ ·)) :
    (insertName name names).Pairwise (· ≤ ·) := by
  induction names with
  | nil => simp [insertName]
  | cons other rest ih =>
    obtain ⟨hother, hrest⟩ := List.pairwise_cons.mp h
    rw [insertName]
    split
    next hle =>
      apply List.pairwise_cons.mpr
      refine ⟨fun x hx => ?_, h⟩
      rcases List.mem_cons.mp hx with rfl | hx
      · exact hle
      · exact String.le_trans hle (hother x hx)
    next hlt =>
      apply List.pairwise_cons.mpr
      refine ⟨fun x hx => ?_, ih hrest⟩
      rcases List.mem_cons.mp ((insertName_perm name rest).mem_iff.mp hx) with rfl | hx
      · exact (String.le_total x other).resolve_left hlt
      · exact hother x hx

private theorem pairwise_sortNames (names : List String) : (sortNames names).Pairwise (· ≤ ·) := by
  induction names with
  | nil => exact .nil
  | cons name names ih => exact pairwise_insertName ih

/-- Names that differ come in strictly increasing order. -/
private theorem pairwise_lt_sortNames (h : names.Nodup) : (sortNames names).Pairwise (· < ·) := by
  have hnodup : (sortNames names).Nodup := (sortNames_perm names).nodup_iff.mpr h
  apply (pairwise_sortNames names).imp₂ _ hnodup
  intro a b hle hne
  exact String.not_le.mp fun hge => hne (String.le_antisymm hle hge)

end Names

section Components

variable {tables : List ObjectRef} {edges : List (Nat × Nat)}
  {reads : ObjectRef → ObjectRef → Prop} {u t : ObjectRef} {j i : Nat}

/-- What a cycle is reported with is the component of the node that the sort has met twice. -/
private theorem Graph.component_of_cycle? {graph : Graph} {nodes : List Nat} (hgraph : graph.Proper)
    (hloop : ∀ a, ¬ graph.Edge a a) (h : graph.cycle? = some nodes) :
    ∃ node, graph.Toposort (.error node) ∧ nodes = graph.component node := by
  obtain ⟨result, hresult⟩ := Graph.exists_toposort hgraph
  cases result with
  | ok order =>
    obtain ⟨hnone, -⟩ := hresult.of_ok hgraph hloop
    rw [h] at hnone
    cases hnone
  | error node =>
    have hsome := hresult.of_error hgraph hloop
    rw [h] at hsome
    exact ⟨node, hresult, Option.some.inj hsome⟩

/-- What a cycle is reported with is a component of several nodes. -/
theorem Graph.cycle?_eq_some {graph : Graph} {nodes : List Nat} (hgraph : graph.Proper)
    (h : graph.cycle? = some nodes) :
    ∃ node < graph.size, nodes = graph.component node ∧ 2 ≤ nodes.length := by
  rw [Graph.cycle?] at h
  split at h
  · cases h
  · obtain ⟨node, hmem, hnode⟩ := List.exists_of_findSome?_eq_some h
    have hsize : node < graph.size :=
      List.mem_range.mp ((Graph.order_perm hgraph).mem_iff.mp hmem)
    dsimp only at hnode
    split at hnode
    next hlength =>
      obtain rfl := Option.some.inj hnode
      exact ⟨node, hsize, rfl, hlength⟩
    next => cases hnode

/-- Paths in the graph of a list are paths of reads. -/
private theorem Draws.reach_iff (hdraws : Draws edges tables reads)
    (hreads : ∀ u t, reads u t → u ∈ tables ∧ t ∈ tables) (hnodup : tables.Nodup)
    (hj : tables[j]? = some u) (hi : tables[i]? = some t) :
    (Graph.mk tables.length edges).Reach j i ↔ ReflTransGen reads u t := by
  have hat : ∀ {k x}, tables[k]? = some x → tables.getD k default = x ∧ tables.idxOf x = k := by
    intro k x hk
    obtain ⟨hlt, rfl⟩ := List.getElem?_eq_some_iff.mp hk
    exact ⟨by simp [hlt], hnodup.idxOf_getElem k hlt⟩
  have hidx : ∀ x ∈ tables, tables[tables.idxOf x]? = some x := by
    intro x hx
    rw [List.getElem?_eq_getElem (List.idxOf_lt_length_of_mem hx), List.getElem_idxOf]
  constructor
  · intro hpath
    have hlift : ReflTransGen reads (tables.getD j default) (tables.getD i default) := by
      refine hpath.lift (tables.getD · default) fun a b hedge => ?_
      obtain ⟨x, y, hx, hy, hxy⟩ := (hdraws a b).mp hedge
      change reads (tables.getD a default) (tables.getD b default)
      rwa [(hat hx).1, (hat hy).1]
    rwa [(hat hj).1, (hat hi).1] at hlift
  · intro hpath
    have hlift : (Graph.mk tables.length edges).Reach (tables.idxOf u) (tables.idxOf t) := by
      refine hpath.lift tables.idxOf fun x y hxy => ?_
      obtain ⟨hx, hy⟩ := hreads x y hxy
      exact (hdraws _ _).mpr ⟨x, y, hidx x hx, hidx y hy, hxy⟩
    rwa [(hat hj).2, (hat hi).2] at hlift

end Components

section Entangled

variable {db : Database} {s : SchemaRef} {t u : ObjectRef}

/-- All the tables of a schema that reach one of them and are reached from it through tables that read
each other. -/
structure Database.Entangled (db : Database) (s : SchemaRef) (tables : List ObjectRef) : Prop where
  nodup : tables.Nodup
  several : 2 ≤ tables.length
  registered : ∀ t ∈ tables, t ∈ db.tablesIn s
  mem_iff : ∀ t ∈ tables, ∀ u, u ∈ tables ↔
    ReflTransGen (db.ReadsWithin s) t u ∧ ReflTransGen (db.ReadsWithin s) u t

/-- Only tables of the schema are reached from its tables. -/
private theorem Database.mem_tablesIn_of_reach (h : ReflTransGen (db.ReadsWithin s) t u)
    (ht : t ∈ db.tablesIn s) : u ∈ db.tablesIn s := by
  induction h with
  | refl => exact ht
  | tail _ hread => exact hread.mem_tablesIn.2

/-- A component of several nodes stands for tables that are entangled. -/
private theorem Draws.entangled {edges : List (Nat × Nat)} {node : Nat}
    (hdraws : Draws edges (db.tablesIn s) (db.ReadsWithin s)) (hnodup : (db.tablesIn s).Nodup)
    (hnode : node < (db.tablesIn s).length)
    (hseveral : 2 ≤ ((Graph.mk (db.tablesIn s).length edges).component node).length) :
    db.Entangled s (((Graph.mk (db.tablesIn s).length edges).component node).filterMap fun node =>
      (db.tablesIn s)[node]?) := by
  let graph : Graph := ⟨(db.tablesIn s).length, edges⟩
  have hreach : ∀ {j i u t}, (db.tablesIn s)[j]? = some u → (db.tablesIn s)[i]? = some t →
      (graph.Reach j i ↔ ReflTransGen (db.ReadsWithin s) u t) :=
    fun hj hi => hdraws.reach_iff (fun _ _ hread => hread.mem_tablesIn) hnodup hj hi
  have hmem : ∀ {i}, i ∈ graph.component node ↔
      i < (db.tablesIn s).length ∧ graph.Reach node i ∧ graph.Reach i node :=
    Graph.mem_component hdraws.proper hnode
  have hlisted : ∀ t, t ∈ (graph.component node).filterMap (fun i => (db.tablesIn s)[i]?) ↔
      ∃ i ∈ graph.component node, (db.tablesIn s)[i]? = some t := fun t => List.mem_filterMap
  refine ⟨?_, ?_, ?_, ?_⟩
  · apply List.Nodup.filterMap _ (List.nodup_range.filter _)
    intro i j t hi hj
    obtain ⟨hi', rfl⟩ := List.getElem?_eq_some_iff.mp hi
    obtain ⟨hj', heq⟩ := List.getElem?_eq_some_iff.mp hj
    exact (hnodup.getElem_inj_iff.mp heq).symm
  · rw [List.filterMap_length_eq_length.mpr]
    · exact hseveral
    · intro i hi
      simpa using (hmem.mp hi).1
  · intro t ht
    obtain ⟨i, -, hi⟩ := (hlisted t).mp ht
    exact List.mem_of_getElem? hi
  · intro t ht u
    obtain ⟨i, hcomponent, hi⟩ := (hlisted t).mp ht
    obtain ⟨-, hto, hfrom⟩ := hmem.mp hcomponent
    rw [hlisted]
    constructor
    · rintro ⟨j, hcomponent', hj⟩
      obtain ⟨-, hto', hfrom'⟩ := hmem.mp hcomponent'
      exact ⟨(hreach hi hj).mp (hfrom.trans hto'), (hreach hj hi).mp (hfrom'.trans hto)⟩
    · rintro ⟨hthere, hback⟩
      obtain ⟨j, hj⟩ := List.getElem?_of_mem
        (Database.mem_tablesIn_of_reach hthere (List.mem_of_getElem? hi))
      refine ⟨j, hmem.mpr ⟨(List.getElem?_eq_some_iff.mp hj).1, ?_, ?_⟩, hj⟩
      · exact hto.trans ((hreach hi hj).mpr hthere)
      · exact ((hreach hj hi).mpr hback).trans hfrom

end Entangled

section Report

variable {db db' : Database} {s : SchemaRef} {session : Option SessionRef} {name : String}
  {names : List String}

/-- The names are those of one component of the tables of a schema, in order: the component of the
node at which the sort with a stack stops. -/
structure Database.ReportsCycle (db : Database) (s : SchemaRef) (names : List String) : Prop where
  sorted : names.Pairwise (· < ·)
  component : ∃ tables, db.Entangled s tables ∧ names.Perm (tables.map db.nameOf) ∧
    ∃ edges node, edgesOf db (db.tablesIn s) (db.tablesIn s).zipIdx = .ok edges ∧
      (Graph.mk (db.tablesIn s).length edges).Toposort (.error node) ∧
      tables = ((Graph.mk (db.tablesIn s).length edges).component node).filterMap fun node =>
        (db.tablesIn s)[node]?

/-- Tables of one schema differ in their names. -/
private theorem Database.Consistent.nodup_names (h : db.Consistent) (hs : s ∈ db.allSchemas)
    {tables : List ObjectRef} (hnodup : tables.Nodup) (htables : ∀ t ∈ tables, t ∈ db.tablesIn s) :
    (tables.map db.nameOf).Nodup := by
  refine List.Nodup.map_on (fun t ht u hu hname => ?_) hnodup
  have hmem : ∀ o ∈ tables, o ∈ (db.space s .tableOrView).values := fun o ho =>
    (mem_tablesIn.mp (htables o ho)).2
  exact (h.keyed s hs .tableOrView).eq_of_key_eq (hmem t ht) (hmem u hu) (by rw [hname])

/-- A cycle is reported by the search for an order of removal for what it is. -/
theorem Database.Consistent.tableRemovalOrder_reports (h : db.Consistent) (hs : s ∈ db.allSchemas)
    (hactive : (db.schema s).state = .active) {state : Database × Unit}
    (hrun : tableRemovalOrder Database.host s (db, ()) = .error (.dependencyCycle names) state) :
    state = (db, ()) ∧ db.ReportsCycle s names := by
  have hinside : ¬ db.ReadFromOutside s := by
    intro hread
    obtain ⟨t, u, -, hrefused⟩ := tableRemovalOrder_of_readFromOutside h hs hactive hread
    rw [hrefused] at hrun
    cases hrun
  obtain ⟨edges, hedges, hdraws⟩ := edgesOf_run h hs hactive hinside
  have hloop := hdraws.not_edge_self fun _ hself => hself.ne rfl
  rw [tableRemovalOrder_run hactive, hedges] at hrun
  cases hcycle : (Graph.mk (db.tablesIn s).length edges).cycle? with
  | none =>
    simp only [hcycle] at hrun
    cases hrun
  | some nodes =>
    simp only [hcycle] at hrun
    cases hrun
    have hnodup := h.nodup_tablesIn hs hactive
    obtain ⟨node, hsort, rfl⟩ := Graph.component_of_cycle? hdraws.proper hloop hcycle
    obtain ⟨node', hsize, hsame, hseveral⟩ := Graph.cycle?_eq_some hdraws.proper hcycle
    have hentangled := hdraws.entangled hnodup hsize (hsame ▸ hseveral)
    rw [← hsame] at hentangled
    refine ⟨rfl, pairwise_lt_sortNames ?_, _, hentangled, sortNames_perm _, edges, node, hedges,
      hsort, rfl⟩
    exact h.nodup_names hs hentangled.nodup hentangled.registered

/-- When a schema is not dropped for a cycle, the tables that are named form one strongly connected
component of its tables, and everything stays as it was. -/
theorem Database.Consistent.dropSchema_reports (h : db.Consistent)
    (hrun : dropSchema session name db = .error (.dependencyCycle names) db') :
    db' = db ∧ ∃ s, db.findSchema name = some s ∧ (db.schema s).state = .active ∧
      db.ReportsCycle s names := by
  cases hname : db.findSchema name with
  | none =>
    rw [dropSchema, bind_of_error (lift_of_error (getSchema_of_none hname))] at hrun
    cases hrun
  | some s =>
    cases hsystem : (db.schema s).system with
    | true =>
      rw [dropSchema_of_system hname hsystem] at hrun
      cases hrun
    | false =>
      rw [dropSchema_run hname hsystem] at hrun
      cases hchildren : removeChildren Database.host session s (db, ()) with
      | ok _ state =>
        rw [hchildren] at hrun
        cases hrun
      | error e state =>
        rw [hchildren] at hrun
        cases hrun
        have horder := tableRemovalOrder_of_namesCycle hchildren trivial
        cases hstate : (db.schema s).state with
        | invalid =>
          rw [tableRemovalOrder_of_invalid _ _ hstate] at horder
          cases horder
        | active =>
          obtain ⟨hsame, hreports⟩ :=
            h.tableRemovalOrder_reports (mem_allSchemas_of_find hname) hstate horder
          cases hsame
          exact ⟨rfl, s, rfl, hstate, hreports⟩

/-- Make four tables, whose ids are 5 to 8. The first reads itself and the second, the second reads
the first and the third, and the third reads the second and the fourth. -/
def makeOverlappingCycles : CatalogM Unit := do
  let s ← createSchema "APP" ⟨1, "SA"⟩
  for (name, references) in [("C", [5, 6]), ("B", [5, 7]), ("A", [6, 8]), ("D", [])] do
    let _ ← registerNew s name (.table
      { kind := .table, scope := .persistent, columns := [], checks := [], references })

/-- A database with two cycles of tables that have a table in common, and a table that they read. -/
def withOverlappingCycles : Database :=
  stateAfter makeOverlappingCycles (bootstrap .standard)

-- the table that is only read is not named
theorem dropSchema_reports_withOverlappingCycles : withOverlappingCycles.Consistent ∧
    dropSchema none "APP" withOverlappingCycles =
      .error (.dependencyCycle ["A", "B", "C"]) withOverlappingCycles ∧
    ∃ s, withOverlappingCycles.findSchema "APP" = some s ∧
      withOverlappingCycles.ReportsCycle s ["A", "B", "C"] := by
  have hconsistent : withOverlappingCycles.Consistent := by decide +kernel
  have hrun : dropSchema none "APP" withOverlappingCycles =
      .error (.dependencyCycle ["A", "B", "C"]) withOverlappingCycles := by decide +kernel
  obtain ⟨-, s, hname, -, hreports⟩ := hconsistent.dropSchema_reports hrun
  exact ⟨hconsistent, hrun, s, hname, hreports⟩

end Report

end SchemaCatalog
