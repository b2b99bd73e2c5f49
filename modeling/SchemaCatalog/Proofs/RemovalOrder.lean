import SchemaCatalog.Proofs.Removal
import SchemaCatalog.Proofs.Search
import SchemaCatalog.Teardown.Order
/-!
# The order of removal

With the database as host, a schema has an order of removal exactly when no table outside reads one
of its tables and its tables do not read each other in a cycle. The order lists the tables once each,
and none after a table that it reads.
-/
namespace SchemaCatalog

open Relation

/-- The errors for tables that are read. -/
def CatalogError.RefusesRemoval : CatalogError → Prop
  | cannotDrop _ _ => True
  | dependencyCycle _ => True
  | _ => False

namespace Database

/-- One table of the schema reads another. -/
def ReadsWithin (db : Database) (s : SchemaRef) (u t : ObjectRef) : Prop :=
  u ∈ db.tablesIn s ∧ t ∈ db.tablesIn s ∧ u ≠ t ∧ (db.object t).id ∈ (db.tableOf u).references

theorem ReadsWithin.mem_tablesIn {db : Database} {s : SchemaRef} {u t : ObjectRef}
    (h : db.ReadsWithin s u t) : u ∈ db.tablesIn s ∧ t ∈ db.tablesIn s :=
  ⟨h.1, h.2.1⟩

theorem ReadsWithin.ne {db : Database} {s : SchemaRef} {u t : ObjectRef}
    (h : db.ReadsWithin s u t) : u ≠ t :=
  h.2.2.1

/-- A registered table outside the schema reads a table of it. -/
def ReadFromOutside (db : Database) (s : SchemaRef) : Prop :=
  ∃ t ∈ db.tablesIn s, ∃ u ∈ db.allTables, u ∉ db.tablesIn s ∧
    (db.object t).id ∈ (db.tableOf u).references

/-- Nothing outside reads the tables of the schema, and they do not read each other in a cycle. -/
structure Droppable (db : Database) (s : SchemaRef) : Prop where
  inside : ¬ db.ReadFromOutside s
  acyclic : ∀ t, ¬ TransGen (db.ReadsWithin s) t t

theorem mem_allTables_of_mem_tablesIn {db : Database} {s : SchemaRef} {t : ObjectRef}
    (hs : s ∈ db.allSchemas) (ht : t ∈ db.tablesIn s) : t ∈ db.allTables :=
  mem_allTables.mpr ⟨s, hs, ht⟩

theorem Consistent.nodup_tablesIn {db : Database} {s : SchemaRef} (h : db.Consistent)
    (hs : s ∈ db.allSchemas) (hactive : (db.schema s).state = .active) : (db.tablesIn s).Nodup := by
  rw [tablesIn_of_active hactive]
  exact (h.keyed s hs .tableOrView).nodup_values

/-- Registered tables are told apart by their ids. -/
theorem Consistent.dependsOn_iff_ne {db : Database} (h : db.Consistent) {t u : ObjectRef}
    (ht : t ∈ db.allTables) (hu : u ∈ db.allTables) : db.dependsOn u t = true ↔
      u ≠ t ∧ (db.object t).id ∈ (db.tableOf u).references := by
  rw [dependsOn_iff]
  refine and_congr_left fun _ => not_congr ⟨h.tableIds u hu t ht, ?_⟩
  rintro rfl
  rfl

end Database

section Host

variable {η α : Type} {db db' : Database} {own : η} {a : α}

theorem host_run (act : CatalogM α) (db : Database) (own : η) :
    (liftM act : HostM η α) (db, own) = match act db with
      | .ok a db' => .ok a (db', own)
      | .error e db' => .error e (db', own) := rfl

theorem host_of_ok {act : CatalogM α} (h : act db = .ok a db') :
    (liftM act : HostM η α) (db, own) = .ok a (db', own) := by
  rw [host_run, h]

theorem host_of_look {look : Lookup α} (h : look db = .ok a) :
    (liftM look : HostM η α) (db, own) = .ok a (db, own) :=
  host_of_ok (lift_of_ok h)

theorem host_look_run (look : Lookup α) (db : Database) (own : η) :
    (liftM look : HostM η α) (db, own) = match look db with
      | .ok a => .ok a (db, own)
      | .error e => .error e (db, own) := by
  change (match (liftM look : CatalogM α) db with
    | .ok a db' => EStateM.Result.ok a (db', own)
    | .error e db' => .error e (db', own)) = _
  rw [lift_run]
  cases look db <;> rfl

theorem host_look_eq_ok_iff {look : Lookup α} {state state' : Database × η} :
    (liftM look : HostM η α) state = .ok a state' ↔ look state.1 = .ok a ∧ state' = state := by
  obtain ⟨db, own⟩ := state
  rw [host_look_run]
  cases look db <;> simp [eq_comm]

private theorem host_look_eq_error_iff {look : Lookup α} {state state' : Database × η}
    {e : CatalogError} :
    (liftM look : HostM η α) state = .error e state' ↔ look state.1 = .error e ∧ state' = state := by
  obtain ⟨db, own⟩ := state
  rw [host_look_run]
  cases look db <;> simp [eq_comm]

end Host

section Edges

variable {db : Database} {tables : List ObjectRef} {t : ObjectRef} {i : Nat}

/-- The first dependent outside refuses the removal. -/
theorem edgesInto_of_outside {dependents : List ObjectRef} {u : ObjectRef}
    (h : dependents.find? (fun u => u ≠ t && u ∉ tables) = some u) :
    edgesInto db tables t i dependents = .error (.cannotDrop (db.nameOf t) (db.nameOf u)) := by
  induction dependents with
  | nil => cases h
  | cons dependent rest ih =>
    rw [edgesInto]
    by_cases hself : dependent = t
    · rw [if_pos hself]
      exact ih (by simpa [hself] using h)
    · rw [if_neg hself]
      cases hidx : tables.idxOf? dependent with
      | none =>
        have hout := List.idxOf?_eq_none_iff.mp hidx
        rw [List.find?_cons_of_pos (by simp [hself, hout])] at h
        rw [Option.some.inj h]
      | some j =>
        have hin : dependent ∈ tables := by
          by_contra hout
          rw [List.idxOf?_eq_none_iff.mpr hout] at hidx
          cases hidx
        rw [List.find?_cons_of_neg (by simp [hin])] at h
        simp only [ih h]
        rfl

/-- Without dependents outside there is one edge from each dependent. -/
theorem edgesInto_of_inside (db : Database) (i : Nat) {dependents : List ObjectRef}
    (h : dependents.find? (fun u => u ≠ t && u ∉ tables) = none) :
    ∃ edges, edgesInto db tables t i dependents = .ok edges ∧ ∀ e, e ∈ edges ↔
      ∃ u ∈ dependents, u ≠ t ∧ tables.idxOf? u = some e.1 ∧ e.2 = i := by
  induction dependents with
  | nil => exact ⟨[], rfl, by simp⟩
  | cons dependent rest ih =>
    have hrest : rest.find? (fun u => u ≠ t && u ∉ tables) = none :=
      List.find?_eq_none.mpr fun u hu => List.find?_eq_none.mp h u (List.mem_cons_of_mem _ hu)
    obtain ⟨edges, hedges, hmem⟩ := ih hrest
    rw [edgesInto]
    by_cases hself : dependent = t
    · refine ⟨edges, by rw [if_pos hself, hedges], fun e => ?_⟩
      simp [hmem, hself]
    · rw [if_neg hself]
      have hin : dependent ∈ tables := by
        simpa [hself] using List.find?_eq_none.mp h dependent (by simp)
      cases hidx : tables.idxOf? dependent with
      | none => exact absurd hin (List.idxOf?_eq_none_iff.mp hidx)
      | some j =>
        refine ⟨(j, i) :: edges, by simp only [hedges]; rfl, fun e => ?_⟩
        rw [List.mem_cons, hmem]
        constructor
        · rintro (rfl | ⟨u, hu, hedge⟩)
          · exact ⟨dependent, by simp, hself, hidx, rfl⟩
          · exact ⟨u, List.mem_cons_of_mem _ hu, hedge⟩
        · rintro ⟨u, hu, hne, hidx', hi⟩
          rcases List.mem_cons.mp hu with rfl | hu
          · rw [hidx] at hidx'
            exact .inl (Prod.ext (Option.some.inj hidx').symm hi)
          · exact .inr ⟨u, hu, hne, hidx', hi⟩

/-- The edges between tables as the database sees them. -/
def edgesOf (db : Database) (tables : List ObjectRef) :
    List (ObjectRef × Nat) → Except CatalogError (List (Nat × Nat))
  | [] => .ok []
  | (t, i) :: rest =>
    match edgesInto db tables t i (db.dependentsOf t), edgesOf db tables rest with
    | .ok edges, .ok edges' => .ok (edges ++ edges')
    | .ok _, .error e => .error e
    | .error e, _ => .error e

/-- Asking the database leaves it as it is. Whatever is said to the question whether a table has
dependents makes no difference, as long as no dependents are denied. -/
private theorem edgesBetween_host {hasDependents : ObjectRef → Database × Unit → Bool × Unit}
    (hasked : ∀ t, (hasDependents t (db, ())).1 = false → db.dependentsOf t = [])
    (tables : List ObjectRef) (numbered : List (ObjectRef × Nat)) :
    edgesBetween { Database.host with hasDependents } tables numbered (db, ()) =
      match edgesOf db tables numbered with
      | .ok edges => .ok edges (db, ())
      | .error e => .error e (db, ()) := by
  induction numbered with
  | nil => rfl
  | cons head rest ih =>
    obtain ⟨t, i⟩ := head
    have hask : CatalogHost.ask (hasDependents t) (db, ()) =
        .ok (hasDependents t (db, ())).1 (db, ()) := rfl
    have hlist : CatalogHost.ask (Database.host.dependentsOf t) (db, ()) =
        .ok (db.dependentsOf t) (db, ()) := rfl
    have hget : (get : HostM Unit (Database × Unit)) (db, ()) = .ok (db, ()) (db, ()) := rfl
    rw [edgesBetween, bind_of_ok hask, edgesOf]
    cases hhas : (hasDependents t (db, ())).1 with
    | false =>
      simp only [Bool.false_eq_true, if_false, ih, hasked t hhas, edgesInto]
      cases edgesOf db tables rest <;> rfl
    | true =>
      simp only [if_true]
      rw [bind_of_ok hlist, bind_of_ok hget]
      cases edgesInto db tables t i (db.dependentsOf t) with
      | error e => rfl
      | ok edges =>
        simp only [bind_run, ih]
        cases edgesOf db tables rest <;> rfl

private theorem edgesOf_of_inside {numbered : List (ObjectRef × Nat)}
    (h : ∀ a ∈ numbered, ∀ u ∈ db.dependentsOf a.1, u ≠ a.1 → u ∈ tables) :
    ∃ edges, edgesOf db tables numbered = .ok edges ∧ ∀ e, e ∈ edges ↔
      ∃ t, (t, e.2) ∈ numbered ∧ ∃ u ∈ db.dependentsOf t, u ≠ t ∧ tables.idxOf? u = some e.1 := by
  induction numbered with
  | nil => exact ⟨[], rfl, by simp⟩
  | cons head rest ih =>
    obtain ⟨t, i⟩ := head
    obtain ⟨hhead, hrest⟩ := List.forall_mem_cons.mp h
    obtain ⟨edges, hedges, hmem⟩ := edgesInto_of_inside db i
      (List.find?_eq_none.mpr fun u hu => by simpa using hhead u hu)
    obtain ⟨edges', hedges', hmem'⟩ := ih hrest
    refine ⟨edges ++ edges', by rw [edgesOf, hedges, hedges'], fun e => ?_⟩
    rw [List.mem_append, hmem, hmem']
    constructor
    · rintro (⟨u, hu, hne, hidx, rfl⟩ | ⟨t', ht', hu⟩)
      · exact ⟨t, by simp, u, hu, hne, hidx⟩
      · exact ⟨t', List.mem_cons_of_mem _ ht', hu⟩
    · rintro ⟨t', ht', u, hu, hne, hidx⟩
      rcases List.mem_cons.mp ht' with heq | ht'
      · obtain ⟨rfl, rfl⟩ := Prod.mk.inj heq
        exact .inl ⟨u, hu, hne, hidx, rfl⟩
      · exact .inr ⟨t', ht', u, hu, hne, hidx⟩

private theorem edgesOf_of_outside {numbered : List (ObjectRef × Nat)} {a : ObjectRef × Nat}
    (ha : a ∈ numbered) {u : ObjectRef} (hu : u ∈ db.dependentsOf a.1) (hne : u ≠ a.1)
    (hout : u ∉ tables) :
    ∃ name dependent, edgesOf db tables numbered = .error (.cannotDrop name dependent) := by
  induction numbered with
  | nil => cases ha
  | cons head rest ih =>
    obtain ⟨t, i⟩ := head
    rw [edgesOf]
    cases hfind : (db.dependentsOf t).find? (fun u => u ≠ t && u ∉ tables) with
    | some v => exact ⟨_, _, by rw [edgesInto_of_outside hfind]⟩
    | none =>
      obtain ⟨edges, hedges, -⟩ := edgesInto_of_inside db i hfind
      rcases List.mem_cons.mp ha with rfl | ha
      · have := List.find?_eq_none.mp hfind u hu
        simp [hne, hout] at this
      · obtain ⟨name, dependent, herror⟩ := ih ha
        exact ⟨name, dependent, by rw [hedges, herror]⟩

end Edges

section Order

variable {db : Database} {s : SchemaRef}

/-- The graph on the places of a list has an edge wherever one table reads another. -/
def Draws (edges : List (Nat × Nat)) (tables : List ObjectRef)
    (reads : ObjectRef → ObjectRef → Prop) : Prop :=
  ∀ j i, (Graph.mk tables.length edges).Edge j i ↔
    ∃ u t, tables[j]? = some u ∧ tables[i]? = some t ∧ reads u t

private theorem draws_dependents {tables : List ObjectRef} {edges : List (Nat × Nat)}
    (hnodup : tables.Nodup)
    (hedges : ∀ e, e ∈ edges ↔ ∃ t, (t, e.2) ∈ tables.zipIdx ∧
      ∃ u ∈ db.dependentsOf t, u ≠ t ∧ tables.idxOf? u = some e.1) :
    Draws edges tables fun u t => u ∈ db.dependentsOf t ∧ u ≠ t := by
  intro j i
  have hidx : ∀ u, tables.idxOf? u = some j ↔ tables[j]? = some u := by
    intro u
    rw [List.idxOf?_eq_some_iff, List.getElem?_eq_some_iff]
    refine exists_congr fun hj => and_iff_left_of_imp fun heq k hk heq' => ?_
    have hpos : k = j := (List.Nodup.getElem_inj_iff hnodup).mp (heq'.trans heq.symm)
    omega
  rw [Graph.Edge, hedges]
  constructor
  · rintro ⟨t, ht, u, hu, hne, hj⟩
    exact ⟨u, t, (hidx u).mp hj, List.mem_zipIdx_iff_getElem?.mp ht, hu, hne⟩
  · rintro ⟨u, t, hj, hi, hu, hne⟩
    exact ⟨t, List.mem_zipIdx_iff_getElem?.mpr hi, u, hu, hne, (hidx u).mpr hj⟩

private theorem filterMap_range (tables : List ObjectRef) :
    (List.range tables.length).filterMap (fun node => tables[node]?) = tables := by
  induction tables with
  | nil => rfl
  | cons t tables ih =>
    rw [List.length_cons, List.range_succ_eq_map, List.filterMap_cons_some (by rfl),
      List.filterMap_map]
    exact congrArg (t :: ·) ih

/-- What the order of removal promises: every table once, and none after a table that it reads. -/
structure RemovesReadersFirst (db : Database) (s : SchemaRef) (order : List ObjectRef) : Prop where
  perm : order.Perm (db.tablesIn s)
  readersFirst : order.Pairwise fun t u => db.dependsOn u t = false

private theorem Database.dependentsOf_eq_nil {t : ObjectRef}
    (h : (Database.host.hasDependents t (db, ())).1 = false) : db.dependentsOf t = [] := by
  simpa [Database.host, Database.dependentsOf, Database.hasDependents] using h

theorem tableRemovalOrder_run (hactive : (db.schema s).state = .active) :
    tableRemovalOrder Database.host s (db, ()) =
      match edgesOf db (db.tablesIn s) (db.tablesIn s).zipIdx with
      | .error e => .error e (db, ())
      | .ok edges =>
        let graph : Graph := ⟨(db.tablesIn s).length, edges⟩
        match graph.cycle? with
        | none => .ok (graph.order.filterMap fun node => (db.tablesIn s)[node]?) (db, ())
        | some component =>
          .error (.dependencyCycle (sortNames ((component.filterMap fun node =>
            (db.tablesIn s)[node]?).map db.nameOf))) (db, ()) := by
  have htables : s.tables db = .ok (db.tablesIn s) := by
    rw [SchemaRef.tables, Database.objectsOf_eq hactive, Database.tablesIn_of_active hactive]
  rw [tableRemovalOrder, bind_of_ok (host_of_look htables), bind_run,
    edgesBetween_host fun _ => Database.dependentsOf_eq_nil]
  cases edgesOf db (db.tablesIn s) (db.tablesIn s).zipIdx with
  | error e => rfl
  | ok edges =>
    simp only
    cases (Graph.mk (db.tablesIn s).length edges).cycle? <;> rfl

/-- An invalid schema has no order of removal. -/
theorem tableRemovalOrder_of_invalid {η : Type} (host : CatalogHost η) (own : η)
    (h : (db.schema s).state = .invalid) : tableRemovalOrder host s (db, own) =
      .error (.schemaInvalid (db.schema s).name) (db, own) := by
  have htables : s.tables db = .error (.schemaInvalid (db.schema s).name) :=
    look_bind_of_error (Database.activeRegistry_of_invalid h)
  exact bind_of_error (host_look_eq_error_iff.mpr ⟨htables, rfl⟩)

/-- Asking whether a table has dependents only saves asking for them. -/
theorem tableRemovalOrder_asked {hasDependents : ObjectRef → Database × Unit → Bool × Unit}
    (hasked : ∀ t, (hasDependents t (db, ())).1 = false → db.dependentsOf t = []) :
    tableRemovalOrder { Database.host with hasDependents } s (db, ()) =
      tableRemovalOrder Database.host s (db, ()) := by
  rw [tableRemovalOrder, tableRemovalOrder, bind_run, bind_run, host_look_run]
  cases s.tables db with
  | error e => rfl
  | ok tables =>
    dsimp only
    rw [bind_run, bind_run, edgesBetween_host hasked,
      edgesBetween_host fun _ => Database.dependentsOf_eq_nil]

/-- Within the tables of a schema the dependents are the tables that read. -/
private theorem Draws.readsWithin (h : db.Consistent) (hs : s ∈ db.allSchemas)
    {edges : List (Nat × Nat)}
    (hdraws : Draws edges (db.tablesIn s) fun u t => u ∈ db.dependentsOf t ∧ u ≠ t) :
    Draws edges (db.tablesIn s) (db.ReadsWithin s) := by
  intro j i
  rw [hdraws]
  refine exists_congr fun u => exists_congr fun t => and_congr_right fun hj =>
    and_congr_right fun hi => ?_
  have hu := List.mem_of_getElem? hj
  have ht := List.mem_of_getElem? hi
  have hu' := Database.mem_allTables_of_mem_tablesIn hs hu
  have ht' := Database.mem_allTables_of_mem_tablesIn hs ht
  simp only [Database.mem_dependentsOf, h.dependsOn_iff_ne ht' hu']
  constructor
  · rintro ⟨⟨-, hne, href⟩, -⟩
    exact ⟨hu, ht, hne, href⟩
  · rintro ⟨-, -, hne, href⟩
    exact ⟨⟨hu', hne, href⟩, hne⟩

private theorem Draws.acyclic_iff {tables : List ObjectRef} {edges : List (Nat × Nat)}
    {reads : ObjectRef → ObjectRef → Prop} (hdraws : Draws edges tables reads)
    (hreads : ∀ u t, reads u t → u ∈ tables ∧ t ∈ tables) :
    (Graph.mk tables.length edges).Acyclic ↔ ∀ t, ¬ TransGen reads t t := by
  have hidx : ∀ u ∈ tables, tables[tables.idxOf u]? = some u := by
    intro u hu
    rw [List.getElem?_eq_getElem (List.idxOf_lt_length_of_mem hu), List.getElem_idxOf]
  constructor
  · intro hacyclic t hcycle
    refine hacyclic (tables.idxOf t) (hcycle.lift tables.idxOf fun u t hut => ?_)
    obtain ⟨hu, ht⟩ := hreads u t hut
    exact (hdraws _ _).mpr ⟨u, t, hidx u hu, hidx t ht, hut⟩
  · intro hacyclic i hcycle
    refine hacyclic (tables.getD i default) (hcycle.lift (tables.getD · default) fun j i hji => ?_)
    obtain ⟨u, t, hj, hi, hut⟩ := (hdraws j i).mp hji
    simpa [Function.onFun, List.getD, hj, hi] using hut

/-- The graph of a schema that nothing outside reads has an edge for every read within. -/
theorem edgesOf_run (h : db.Consistent) (hs : s ∈ db.allSchemas)
    (hactive : (db.schema s).state = .active) (hinside : ¬ db.ReadFromOutside s) :
    ∃ edges, edgesOf db (db.tablesIn s) (db.tablesIn s).zipIdx = .ok edges ∧
      Draws edges (db.tablesIn s) (db.ReadsWithin s) := by
  have hmem : ∀ a ∈ (db.tablesIn s).zipIdx, ∀ u ∈ db.dependentsOf a.1, u ≠ a.1 →
      u ∈ db.tablesIn s := by
    intro a ha u hu _
    by_contra hout
    have ht := List.mem_of_getElem? (List.mem_zipIdx_iff_getElem?.mp ha)
    obtain ⟨hu, hdep⟩ := Database.mem_dependentsOf.mp hu
    exact hinside ⟨a.1, ht, u, hu, hout, (Database.dependsOn_iff.mp hdep).2⟩
  obtain ⟨edges, hrun, hedges⟩ := edgesOf_of_inside hmem
  have hdraws := draws_dependents (h.nodup_tablesIn hs hactive) hedges
  exact ⟨edges, hrun, hdraws.readsWithin h hs⟩

theorem Draws.proper {tables : List ObjectRef} {edges : List (Nat × Nat)}
    {reads : ObjectRef → ObjectRef → Prop} (hdraws : Draws edges tables reads) :
    (Graph.mk tables.length edges).Proper := by
  intro j i hji
  obtain ⟨u, t, hj, hi, -⟩ := (hdraws j i).mp hji
  exact ⟨(List.getElem?_eq_some_iff.mp hj).1, (List.getElem?_eq_some_iff.mp hi).1⟩

/-- No node has an edge to itself where nothing reads itself. -/
theorem Draws.not_edge_self {tables : List ObjectRef} {edges : List (Nat × Nat)}
    {reads : ObjectRef → ObjectRef → Prop} (hdraws : Draws edges tables reads)
    (hreads : ∀ t, ¬ reads t t) (i : Nat) : ¬ (Graph.mk tables.length edges).Edge i i := by
  intro hloop
  obtain ⟨u, t, hu, ht, hread⟩ := (hdraws i i).mp hloop
  obtain rfl := Option.some.inj (hu.symm.trans ht)
  exact hreads u hread

private theorem removesReadersFirst_of_acyclic (h : db.Consistent) (hs : s ∈ db.allSchemas)
    {edges : List (Nat × Nat)} (hdraws : Draws edges (db.tablesIn s) (db.ReadsWithin s))
    (hacyclic : (Graph.mk (db.tablesIn s).length edges).Acyclic) :
    RemovesReadersFirst db s ((Graph.mk (db.tablesIn s).length edges).order.filterMap fun node =>
      (db.tablesIn s)[node]?) := by
  refine ⟨?_, List.pairwise_filterMap.mpr ?_⟩
  · have hperm := (Graph.order_perm hdraws.proper).filterMap fun node => (db.tablesIn s)[node]?
    rwa [filterMap_range] at hperm
  · refine (Graph.pairwise_order hdraws.proper hacyclic).imp fun {i j} hback t hi u hj => ?_
    by_contra hdep
    have ht := List.mem_of_getElem? hi
    have hu := List.mem_of_getElem? hj
    rw [Bool.not_eq_false, h.dependsOn_iff_ne (Database.mem_allTables_of_mem_tablesIn hs ht)
      (Database.mem_allTables_of_mem_tablesIn hs hu)] at hdep
    exact hback ((hdraws j i).mpr ⟨u, t, hj, hi, hu, ht, hdep⟩)

/-- A schema that can be dropped has an order of removal. -/
theorem tableRemovalOrder_of_droppable (h : db.Consistent) (hs : s ∈ db.allSchemas)
    (hactive : (db.schema s).state = .active) (hdroppable : db.Droppable s) :
    ∃ order, tableRemovalOrder Database.host s (db, ()) = .ok order (db, ()) ∧
      RemovesReadersFirst db s order := by
  obtain ⟨edges, hrun, hdraws⟩ := edgesOf_run h hs hactive hdroppable.inside
  have hacyclic := (hdraws.acyclic_iff fun u t hut => hut.mem_tablesIn).mpr hdroppable.acyclic
  have hnone := (Graph.cycle?_eq_none_iff hdraws.proper
    fun i hi => hacyclic i (.single hi)).mpr hacyclic
  refine ⟨_, ?_, removesReadersFirst_of_acyclic h hs hdraws hacyclic⟩
  rw [tableRemovalOrder_run hactive, hrun]
  simp only [hnone]

/-- A schema that cannot be dropped has no order of removal. -/
theorem tableRemovalOrder_of_not_droppable (h : db.Consistent) (hs : s ∈ db.allSchemas)
    (hactive : (db.schema s).state = .active) (hdroppable : ¬ db.Droppable s) :
    ∃ e, tableRemovalOrder Database.host s (db, ()) = .error e (db, ()) ∧ e.RefusesRemoval := by
  rw [tableRemovalOrder_run hactive]
  by_cases hinside : db.ReadFromOutside s
  · obtain ⟨t, ht, u, hu, hout, href⟩ := hinside
    have hne : u ≠ t := fun heq => hout (heq ▸ ht)
    have hdep := (h.dependsOn_iff_ne (Database.mem_allTables_of_mem_tablesIn hs ht) hu).mpr
      ⟨hne, href⟩
    obtain ⟨i, hi⟩ := List.getElem?_of_mem ht
    have hmem : (t, i) ∈ (db.tablesIn s).zipIdx := List.mem_zipIdx_iff_getElem?.mpr hi
    obtain ⟨name, dependent, herror⟩ :=
      edgesOf_of_outside hmem (Database.mem_dependentsOf.mpr ⟨hu, hdep⟩) hne hout
    exact ⟨.cannotDrop name dependent, by rw [herror], trivial⟩
  · obtain ⟨edges, hrun, hdraws⟩ := edgesOf_run h hs hactive hinside
    have hcyclic : ¬ (Graph.mk (db.tablesIn s).length edges).Acyclic := fun hacyclic =>
      hdroppable ⟨hinside, (hdraws.acyclic_iff fun u t hut => hut.mem_tablesIn).mp hacyclic⟩
    have hloop := hdraws.not_edge_self fun _ hself => hself.ne rfl
    have hsome := (Graph.cycle?_eq_none_iff hdraws.proper hloop).not.mpr hcyclic
    obtain ⟨component, hcomponent⟩ := Option.ne_none_iff_exists'.mp hsome
    let cyclic := component.filterMap fun node => (db.tablesIn s)[node]?
    refine ⟨.dependencyCycle (sortNames (cyclic.map db.nameOf)), ?_, trivial⟩
    rw [hrun]
    simp only [hcomponent]
    rfl

end Order

end SchemaCatalog
