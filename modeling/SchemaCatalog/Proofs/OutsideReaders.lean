import SchemaCatalog.Proofs.Reachable
import SchemaCatalog.Proofs.RemovalOrder
import SchemaCatalog.Proofs.Toposort
/-!
# Readers from outside

What the order of removal of a schema is, to the letter. A schema that is read from outside is
refused with the names of the first of its tables that is read so, and of the first reader outside;
first in the order of the keys under which schemas and tables are registered. Otherwise there is an
order exactly when the tables do not read each other in a cycle, and it is the one that the two loops
of a sort with a stack find.
-/
namespace SchemaCatalog

open Relation

namespace Database

variable {db : Database} {s : SchemaRef} {t t' u u' : ObjectRef}

/-- A registered table outside the schema reads the table. -/
def OutsideReader (db : Database) (s : SchemaRef) (t u : ObjectRef) : Prop :=
  u ∈ db.allTables ∧ u ∉ db.tablesIn s ∧ (db.object t).id ∈ (db.tableOf u).references

/-- One table of the schema is registered under a lesser key than another. -/
def BeforeIn (db : Database) (s : SchemaRef) (t t' : ObjectRef) : Prop :=
  (db.space s .tableOrView).key (db.nameOf t) < (db.space s .tableOrView).key (db.nameOf t')

/-- One registered table has a lesser key than another: that of its schema decides, or in one schema
its own. -/
def Before (db : Database) (t t' : ObjectRef) : Prop :=
  ∃ s ∈ db.allSchemas, t ∈ db.tablesIn s ∧ ∃ s' ∈ db.allSchemas, t' ∈ db.tablesIn s' ∧
    (db.schemas.key (db.schema s).name < db.schemas.key (db.schema s').name ∨
      s = s' ∧ db.BeforeIn s t t')

/-- The first table of the schema that is read from outside, and the first that reads it. -/
structure FirstRead (db : Database) (s : SchemaRef) (t u : ObjectRef) : Prop where
  table : t ∈ db.tablesIn s
  reader : db.OutsideReader s t u
  tables : ∀ t' ∈ db.tablesIn s, t' ≠ t → (∃ u', db.OutsideReader s t' u') → db.BeforeIn s t t'
  readers : ∀ u', db.OutsideReader s t u' → u' ≠ u → db.Before u u'

theorem readFromOutside_iff :
    db.ReadFromOutside s ↔ ∃ t ∈ db.tablesIn s, ∃ u, db.OutsideReader s t u := Iff.rfl

private theorem BeforeIn.asymm (h : db.BeforeIn s t t') : ¬ db.BeforeIn s t' t :=
  String.lt_asymm h

/-- A table is in one schema only, so its key is its own. -/
private theorem Consistent.not_before (hdb : db.Consistent) (h : db.Before t t') :
    ¬ db.Before t' t := by
  obtain ⟨s, hs, ht, s', hs', ht', hlt⟩ := h
  rintro ⟨r', hr', hu', r, hr, hu, hlt'⟩
  have hholds : ∀ {s t}, t ∈ db.tablesIn s → db.Holds s t := fun ht =>
    ⟨_, (mem_tablesIn.mp ht).2⟩
  obtain rfl := hdb.schema_eq hs hr (hholds ht) (hholds hu)
  obtain rfl := hdb.schema_eq hs' hr' (hholds ht') (hholds hu')
  rcases hlt with hlt | ⟨rfl, hlt⟩
  · rcases hlt' with hlt' | ⟨rfl, -⟩
    · exact String.lt_asymm hlt hlt'
    · exact String.lt_irrefl _ hlt
  · rcases hlt' with hlt' | ⟨-, hlt'⟩
    · exact String.lt_irrefl _ hlt'
    · exact hlt.asymm hlt'

/-- There is one first table and one first reader. -/
theorem FirstRead.unique (hdb : db.Consistent) (h : db.FirstRead s t u)
    (h' : db.FirstRead s t' u') : t' = t ∧ u' = u := by
  have htable : t' = t := by
    by_contra hne
    have hlt := h.tables t' h'.table hne ⟨u', h'.reader⟩
    exact hlt.asymm (h'.tables t h.table (Ne.symm hne) ⟨u, h.reader⟩)
  subst htable
  refine ⟨rfl, ?_⟩
  by_contra hne
  have hlt := h.readers u' h'.reader hne
  exact hdb.not_before hlt (h'.readers u h.reader (Ne.symm hne))

section KeyOrder

/-- The tables of a schema are listed in the order of their keys. -/
private theorem Consistent.pairwise_tablesIn (h : db.Consistent) (hs : s ∈ db.allSchemas) :
    (db.tablesIn s).Pairwise (db.BeforeIn s) := by
  cases hstate : (db.schema s).state with
  | active =>
    rw [tablesIn_of_active hstate]
    exact (h.keyed s hs .tableOrView).pairwise_values
  | invalid =>
    have hnone : db.tablesIn s = [] := by
      apply List.eq_nil_iff_forall_not_mem.mpr
      intro t ht
      rw [active_of_mem_tablesIn ht] at hstate
      cases hstate
    rw [hnone]
    exact .nil

/-- All registered tables are listed in the order of their keys. -/
private theorem Consistent.pairwise_allTables (h : db.Consistent) :
    db.allTables.Pairwise db.Before := by
  apply List.pairwise_flatMap.mpr
  constructor
  · intro s hs
    refine (h.pairwise_tablesIn hs).imp_of_mem fun {t t'} ht ht' hlt => ?_
    exact ⟨s, hs, ht, s, hs, ht', .inr ⟨rfl, hlt⟩⟩
  · refine h.schemas.pairwise_values.imp_of_mem fun {s s'} hs hs' hlt t ht t' ht' => ?_
    exact ⟨s, hs, ht, s', hs', ht', .inl hlt⟩

end KeyOrder

end Database

section Refusal

variable {db : Database} {s : SchemaRef} {t u : ObjectRef}

/-- The first table with a dependent outside is named, with the first of these. -/
private theorem edgesOf_eq_error {tables : List ObjectRef} {numbered : List (ObjectRef × Nat)}
    (h : numbered.findSome? (fun a =>
      ((db.dependentsOf a.1).find? fun u => u ≠ a.1 && u ∉ tables).map (a.1, ·)) = some (t, u)) :
    edgesOf db tables numbered = .error (.cannotDrop (db.nameOf t) (db.nameOf u)) := by
  induction numbered with
  | nil => cases h
  | cons head rest ih =>
    obtain ⟨t', i⟩ := head
    rw [edgesOf]
    cases hfind : (db.dependentsOf t').find? fun u => u ≠ t' && u ∉ tables with
    | some u' =>
      simp only [List.findSome?_cons, hfind, Option.map_some, Option.some.injEq,
        Prod.mk.injEq] at h
      obtain ⟨rfl, rfl⟩ := h
      rw [edgesInto_of_outside hfind]
    | none =>
      obtain ⟨edges, hedges, -⟩ := edgesInto_of_inside db i hfind
      simp only [List.findSome?_cons, hfind, Option.map_none] at h
      rw [hedges, ih h]

/-- For a table of the schema, a dependent that is not in the schema is a reader from outside. -/
private theorem Database.Consistent.outsideReader_iff (h : db.Consistent) (hs : s ∈ db.allSchemas)
    (ht : t ∈ db.tablesIn s) : db.OutsideReader s t u ↔ u ∈ db.dependentsOf t ∧ u ∉ db.tablesIn s := by
  have ht' := mem_allTables_of_mem_tablesIn hs ht
  rw [OutsideReader, mem_dependentsOf]
  constructor
  · rintro ⟨hu, hout, href⟩
    have hne : u ≠ t := fun heq => hout (heq ▸ ht)
    exact ⟨⟨hu, (h.dependsOn_iff_ne ht' hu).mpr ⟨hne, href⟩⟩, hout⟩
  · rintro ⟨⟨hu, hdep⟩, hout⟩
    exact ⟨hu, hout, (dependsOn_iff.mp hdep).2⟩

/-- In a sorted list every member but those before it comes after a member. -/
private theorem rel_of_split {α : Type} {R : α → α → Prop} {l before after : List α} {a b : α}
    (hl : l.Pairwise R) (hsplit : l = before ++ a :: after) (hb : b ∈ l) (hne : b ≠ a)
    (hbefore : b ∉ before) : R a b := by
  subst hsplit
  have hafter : b ∈ after := by simpa [hne, hbefore] using hb
  exact (List.pairwise_cons.mp (List.pairwise_append.mp hl).2.1).1 b hafter

/-- The first table with a dependent outside, and the first of these, are first in key order. -/
private theorem Database.Consistent.firstRead (h : db.Consistent) (hs : s ∈ db.allSchemas)
    {before after earlier later : List ObjectRef}
    (htables : db.tablesIn s = before ++ t :: after)
    (hbefore : ∀ t' ∈ before, ∀ u', ¬ db.OutsideReader s t' u')
    (hdependents : db.dependentsOf t = earlier ++ u :: later)
    (hearlier : ∀ u' ∈ earlier, ¬ db.OutsideReader s t u') (hout : u ∉ db.tablesIn s) :
    db.FirstRead s t u := by
  have ht : t ∈ db.tablesIn s := by simp [htables]
  refine ⟨ht, (h.outsideReader_iff hs ht).mpr ⟨by simp [hdependents], hout⟩, ?_, ?_⟩
  · intro t' ht' hne hread
    obtain ⟨u', hu'⟩ := hread
    apply rel_of_split (h.pairwise_tablesIn hs) htables ht' hne
    exact fun hmem => hbefore t' hmem u' hu'
  · intro u' hu' hne
    have hdep := ((h.outsideReader_iff hs ht).mp hu').1
    apply rel_of_split (h.pairwise_allTables.filter _) hdependents hdep hne
    exact fun hmem => hearlier u' hmem hu'

/-- A schema that is read from outside is refused in the name of the first table and reader. -/
theorem tableRemovalOrder_of_readFromOutside (h : db.Consistent) (hs : s ∈ db.allSchemas)
    (hactive : (db.schema s).state = .active) (hread : db.ReadFromOutside s) :
    ∃ t u, db.FirstRead s t u ∧ tableRemovalOrder Database.host s (db, ()) =
      .error (.cannotDrop (db.nameOf t) (db.nameOf u)) (db, ()) := by
  let outside (a : ObjectRef × Nat) : Option (ObjectRef × ObjectRef) :=
    ((db.dependentsOf a.1).find? fun u => u ≠ a.1 && u ∉ db.tablesIn s).map (a.1, ·)
  have hplace : ∀ a ∈ (db.tablesIn s).zipIdx, a.1 ∈ db.tablesIn s := fun a ha =>
    List.mem_of_getElem? (List.mem_zipIdx_iff_getElem?.mp ha)
  have hnone : ∀ a ∈ (db.tablesIn s).zipIdx, outside a = none →
      ∀ u, ¬ db.OutsideReader s a.1 u := by
    intro a ha hnone u hu
    obtain ⟨hdep, hout⟩ := (h.outsideReader_iff hs (hplace a ha)).mp hu
    have hne : u ≠ a.1 := fun heq => hout (heq ▸ hplace a ha)
    have hnot := List.find?_eq_none.mp (Option.map_eq_none_iff.mp hnone) u hdep
    simp [hne, hout] at hnot
  cases hfirst : (db.tablesIn s).zipIdx.findSome? outside with
  | none =>
    obtain ⟨t, ht, u, hu⟩ := Database.readFromOutside_iff.mp hread
    obtain ⟨i, hi⟩ := List.getElem?_of_mem ht
    have hmem : (t, i) ∈ (db.tablesIn s).zipIdx := List.mem_zipIdx_iff_getElem?.mpr hi
    exact absurd hu (hnone (t, i) hmem (List.findSome?_eq_none_iff.mp hfirst _ hmem) u)
  | some first =>
    obtain ⟨t, u⟩ := first
    refine ⟨t, u, ?_, by rw [tableRemovalOrder_run hactive, edgesOf_eq_error hfirst]⟩
    obtain ⟨before, a, after, hsplit, hfound, hbefore⟩ := List.findSome?_eq_some_iff.mp hfirst
    obtain ⟨v, hfind, heq⟩ := Option.map_eq_some_iff.mp hfound
    obtain ⟨rfl, rfl⟩ := Prod.mk.inj heq
    obtain ⟨hout, earlier, later, hdependents, hearlier⟩ :=
      List.find?_eq_some_iff_append.mp hfind
    have htables : db.tablesIn s = before.map Prod.fst ++ a.1 :: after.map Prod.fst := by
      rw [← List.zipIdx_map_fst 0 (db.tablesIn s), hsplit, List.map_append, List.map_cons]
    have ha : a.1 ∈ db.tablesIn s := by simp [htables]
    apply h.firstRead hs htables _ hdependents
    · intro u' hu' hreader
      have hskipped := hearlier u' hu'
      have hne : u' ≠ a.1 := fun heq => hreader.2.1 (heq ▸ ha)
      simp [hne, hreader.2.1] at hskipped
    · simp only [Bool.and_eq_true, decide_eq_true_eq] at hout
      exact hout.2
    · intro t' ht'
      obtain ⟨b, hb, rfl⟩ := List.mem_map.mp ht'
      exact hnone b (by simp [hsplit, hb]) (hbefore b hb)

end Refusal

section Exact

variable {db : Database} {s : SchemaRef} {t u : ObjectRef}

/-- With edges between the tables no reader is to blame. -/
private theorem tableRemovalOrder_ne_cannotDrop (hactive : (db.schema s).state = .active)
    {edges : List (Nat × Nat)}
    (hedges : edgesOf db (db.tablesIn s) (db.tablesIn s).zipIdx = .ok edges)
    {name dependent : String} {state : Database × Unit} :
    tableRemovalOrder Database.host s (db, ()) ≠ .error (.cannotDrop name dependent) state := by
  rw [tableRemovalOrder_run hactive, hedges]
  dsimp only
  split <;> exact fun h => by cases h

/-- The two loops of the sort come to an end on the graph of a schema, and what they find is what is
answered: their order of the tables, or the tables of the cycle on which their node lies. -/
private theorem tableRemovalOrder_of_toposort (h : db.Consistent) (hs : s ∈ db.allSchemas)
    (hactive : (db.schema s).state = .active) {edges : List (Nat × Nat)}
    (hedges : edgesOf db (db.tablesIn s) (db.tablesIn s).zipIdx = .ok edges) :
    (∃ result, (Graph.mk (db.tablesIn s).length edges).Toposort result) ∧
    ∀ result, (Graph.mk (db.tablesIn s).length edges).Toposort result →
      tableRemovalOrder Database.host s (db, ()) = match result with
        | .ok nodes => .ok (nodes.filterMap fun node => (db.tablesIn s)[node]?) (db, ())
        | .error node => .error (.dependencyCycle (sortNames
          ((((Graph.mk (db.tablesIn s).length edges).component node).filterMap fun node =>
            (db.tablesIn s)[node]?).map db.nameOf))) (db, ()) := by
  have hinside : ¬ db.ReadFromOutside s := by
    intro hread
    obtain ⟨t, u, -, hrun⟩ := tableRemovalOrder_of_readFromOutside h hs hactive hread
    exact tableRemovalOrder_ne_cannotDrop hactive hedges hrun
  obtain ⟨edges', hrun, hdraws⟩ := edgesOf_run h hs hactive hinside
  obtain rfl := Except.ok.inj (hrun.symm.trans hedges)
  have hloop := hdraws.not_edge_self fun _ hself => hself.ne rfl
  refine ⟨Graph.exists_toposort hdraws.proper, fun result hresult => ?_⟩
  rw [tableRemovalOrder_run hactive, hrun]
  cases result with
  | ok nodes =>
    obtain ⟨hnone, rfl⟩ := hresult.of_ok hdraws.proper hloop
    simp only [hnone]
  | error node => simp only [hresult.of_error hdraws.proper hloop]

/-- A table stands before the tables that it reads. -/
private theorem RemovesReadersFirst.idxOf_lt {order : List ObjectRef} (h : db.Consistent)
    (hs : s ∈ db.allSchemas) (horder : RemovesReadersFirst db s order)
    (hreads : db.ReadsWithin s u t) : order.idxOf u < order.idxOf t := by
  obtain ⟨hu, ht, hne, href⟩ := hreads
  have hdep := (h.dependsOn_iff_ne (Database.mem_allTables_of_mem_tablesIn hs ht)
    (Database.mem_allTables_of_mem_tablesIn hs hu)).mpr ⟨hne, href⟩
  have hu' := horder.perm.mem_iff.mpr hu
  have ht' := horder.perm.mem_iff.mpr ht
  by_contra hnot
  have hlt : order.idxOf t < order.idxOf u := by
    refine Nat.lt_of_le_of_ne (Nat.not_lt.mp hnot) fun heq => hne ?_
    exact ((List.idxOf_inj ht').mp heq).symm
  have hback := List.pairwise_iff_getElem.mp horder.readersFirst _ _
    (List.idxOf_lt_length_of_mem ht') (List.idxOf_lt_length_of_mem hu') hlt
  rw [List.getElem_idxOf, List.getElem_idxOf, hdep] at hback
  cases hback

/-- A schema that nothing outside reads is never refused for a reader. -/
private theorem readFromOutside_of_cannotDrop {name dependent : String} {state : Database × Unit}
    (h : db.Consistent) (hs : s ∈ db.allSchemas) (hactive : (db.schema s).state = .active)
    (hrun : tableRemovalOrder Database.host s (db, ()) =
      .error (.cannotDrop name dependent) state) : db.ReadFromOutside s := by
  by_contra hinside
  obtain ⟨edges, hedges, -⟩ := edgesOf_run h hs hactive hinside
  exact tableRemovalOrder_ne_cannotDrop hactive hedges hrun

/-- Only a schema that can be dropped has an order. -/
private theorem removesReadersFirst_of_ok {order : List ObjectRef} {state : Database × Unit}
    (h : db.Consistent) (hs : s ∈ db.allSchemas) (hactive : (db.schema s).state = .active)
    (hrun : tableRemovalOrder Database.host s (db, ()) = .ok order state) :
    db.Droppable s ∧ state = (db, ()) ∧ RemovesReadersFirst db s order := by
  by_cases hdroppable : db.Droppable s
  · obtain ⟨order', hrun', horder⟩ := tableRemovalOrder_of_droppable h hs hactive hdroppable
    rw [hrun'] at hrun
    cases hrun
    exact ⟨hdroppable, rfl, horder⟩
  · obtain ⟨e, hrun', -⟩ := tableRemovalOrder_of_not_droppable h hs hactive hdroppable
    rw [hrun'] at hrun
    cases hrun

/-- The search for an order refuses exactly the schemas that are read from outside, in the name of
the first table and the first reader; otherwise it gives an order exactly when there is no cycle, and
readers come first in it. It is no matter whether tables are asked if they have dependents, and the
order is the one of the sort with a stack. -/
theorem Database.Consistent.tableRemovalOrder_exact (h : db.Consistent) (hs : s ∈ db.allSchemas)
    (hactive : (db.schema s).state = .active) :
    (∀ name dependent state,
      tableRemovalOrder Database.host s (db, ()) = .error (.cannotDrop name dependent) state ↔
        state = (db, ()) ∧ ∃ t u, db.FirstRead s t u ∧ db.nameOf t = name ∧
          db.nameOf u = dependent) ∧
    ((∃ t u, db.FirstRead s t u) ↔ db.ReadFromOutside s) ∧
    (¬ db.ReadFromOutside s →
      ((∃ order state, tableRemovalOrder Database.host s (db, ()) = .ok order state) ↔
        ∀ t, ¬ TransGen (db.ReadsWithin s) t t)) ∧
    (∀ order state, tableRemovalOrder Database.host s (db, ()) = .ok order state →
      state = (db, ()) ∧ order.Perm (db.tablesIn s) ∧
        ∀ u t, db.ReadsWithin s u t → order.idxOf u < order.idxOf t) ∧
    (∀ hasDependents : ObjectRef → Database × Unit → Bool × Unit,
      (∀ t, (hasDependents t (db, ())).1 = false → db.dependentsOf t = []) →
        tableRemovalOrder { Database.host with hasDependents } s (db, ()) =
          tableRemovalOrder Database.host s (db, ())) ∧
    ∀ edges, edgesOf db (db.tablesIn s) (db.tablesIn s).zipIdx = .ok edges →
      (∃ result, (Graph.mk (db.tablesIn s).length edges).Toposort result) ∧
      ∀ result, (Graph.mk (db.tablesIn s).length edges).Toposort result →
        tableRemovalOrder Database.host s (db, ()) = match result with
          | .ok nodes => .ok (nodes.filterMap fun node => (db.tablesIn s)[node]?) (db, ())
          | .error node => .error (.dependencyCycle (sortNames
            ((((Graph.mk (db.tablesIn s).length edges).component node).filterMap fun node =>
              (db.tablesIn s)[node]?).map db.nameOf))) (db, ()) := by
  have hread : (∃ t u, db.FirstRead s t u) ↔ db.ReadFromOutside s := by
    constructor
    · rintro ⟨t, u, hfirst⟩
      exact Database.readFromOutside_iff.mpr ⟨t, hfirst.table, u, hfirst.reader⟩
    · intro hread
      obtain ⟨t, u, hfirst, -⟩ := tableRemovalOrder_of_readFromOutside h hs hactive hread
      exact ⟨t, u, hfirst⟩
  refine ⟨?_, hread, ?_, ?_, fun _ => tableRemovalOrder_asked,
    fun _ => tableRemovalOrder_of_toposort h hs hactive⟩
  · intro name dependent state
    constructor
    · intro hrun
      have houtside := readFromOutside_of_cannotDrop h hs hactive hrun
      obtain ⟨t, u, hfirst, hrun'⟩ := tableRemovalOrder_of_readFromOutside h hs hactive houtside
      rw [hrun'] at hrun
      cases hrun
      exact ⟨rfl, t, u, hfirst, rfl, rfl⟩
    · rintro ⟨rfl, t, u, hfirst, rfl, rfl⟩
      obtain ⟨t', u', hfirst', hrun⟩ :=
        tableRemovalOrder_of_readFromOutside h hs hactive (hread.mp ⟨t, u, hfirst⟩)
      obtain ⟨rfl, rfl⟩ := hfirst'.unique h hfirst
      exact hrun
  · intro hinside
    constructor
    · rintro ⟨order, state, hrun⟩
      exact (removesReadersFirst_of_ok h hs hactive hrun).1.acyclic
    · intro hacyclic
      obtain ⟨order, hrun, -⟩ :=
        tableRemovalOrder_of_droppable h hs hactive ⟨hinside, hacyclic⟩
      exact ⟨order, _, hrun⟩
  · intro order state hrun
    obtain ⟨-, hstate, horder⟩ := removesReadersFirst_of_ok h hs hactive hrun
    exact ⟨hstate, horder.perm, fun u t hreads => horder.idxOf_lt h hs hreads⟩

/-- Make another schema with a table that reads a table of the first one. -/
def withOutsideReader : Database :=
  let db := List.foldl (fun db action => Action.run action db) withView
    [.execute ⟨0⟩ (.createSchema "REPORTS" false),
      .execute ⟨0⟩ (.createTable
        { schema := "REPORTS", tableName := "W", columns := [.plain "A" "INT"], kind := .table,
          scope := .persistent, references := [], ifNotExists := false })]
  db.modifyObject ⟨3⟩ (Object.mapTable fun table =>
    { table with references := [(db.object ⟨0⟩).id] })

-- the table is read by the view too, but that is within the schema
theorem tableRemovalOrder_exact_withOutsideReader :
    withOutsideReader.Consistent ∧ ⟨2⟩ ∈ withOutsideReader.allSchemas ∧
    (withOutsideReader.schema ⟨2⟩).state = .active ∧
    ∃ t u, withOutsideReader.FirstRead ⟨2⟩ t u ∧ withOutsideReader.nameOf t = "T" ∧
      withOutsideReader.nameOf u = "W" := by
  have hconsistent : withOutsideReader.Consistent := by decide +kernel
  have hschema : ⟨2⟩ ∈ withOutsideReader.allSchemas := by decide +kernel
  have hactive : (withOutsideReader.schema ⟨2⟩).state = .active := by decide +kernel
  have hexact := (hconsistent.tableRemovalOrder_exact hschema hactive).1 "T" "W"
  exact ⟨hconsistent, hschema, hactive, ((hexact (withOutsideReader, ())).mp rfl).2⟩

end Exact

end SchemaCatalog
