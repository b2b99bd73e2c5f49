import SchemaCatalog.Proofs.StableColumns
import SchemaCatalog.Proofs.Turns
/-!
# Columns of indexes

An index that a key needs is on columns of its table, and columns that an index lists are not
dropped, so that an index which starts on columns of its table stays on them. `CREATE INDEX` takes
its list of columns as it is, so that an index may start on no column, or on one that is not there.
-/
namespace SchemaCatalog

open Database

/-- There is at least one of the columns, and the table has them all. -/
def Table.Backs (table : Table) (columns : List String) : Prop :=
  columns ≠ [] ∧ ∀ name ∈ columns, table.hasColumn name = true

/-- The index is with a table that has the columns which it lists. -/
def Database.IndexBacked (db : Database) (i : ObjectRef) : Prop :=
  ∃ t, db.Carries t i ∧ (db.tableOf t).Backs (db.indexOf i).columns

section Runs

variable {c : SessionRef} {statement : Statement} {start db db' : Database} {i : ObjectRef}

/-- A `CREATE INDEX` that makes this index, if it makes any, lists columns of the table it finds. -/
def Action.ListsColumns (i : ObjectRef) (db : Database) : Action → Prop
  | execute c (.createIndex definition) => db.nextObject = i →
    ∀ t, db.FindsTable c definition.schema definition.table t →
      (db.tableOf t).Backs definition.columns
  | _ => True

/-- No step takes a column away from the table of an index that lists it. -/
theorem Statement.Step.indexBacked (h : statement.Step c start db db') (hdb : db.Placed)
    (hbacked : db.IndexBacked i) (hi : db'.Present i) : db'.IndexBacked i := by
  obtain ⟨t, hon, hsome, hall⟩ := hbacked
  have htable := h.remains hdb (hdb.slot_of_present hon.table_present)
  have hindex := h.remains hdb (hdb.slot_of_present hon.index_present)
  refine ⟨t, h.carries hdb hon hi, ?_⟩
  rw [hindex.index]
  refine ⟨hsome, fun name hname => ?_⟩
  rcases htable.table with hsame | haltered
  · rw [hsame]
    exact hall name hname
  · have hkept := haltered.retains.column name (hall name hname)
    exact hkept.resolve_right (not_not_intro ⟨i, hon, hname⟩)

/-- A new index is on the columns that are asked for, and a key only asks for those of its table. -/
theorem Statement.Step.indexBacked_of_made (h : statement.Step c start db db') (hdb : db.Placed)
    (hallowed : Action.ListsColumns db.nextObject start (.execute c statement))
    (hi : db'.Present db.nextObject) (hkind : (db'.object db.nextObject).kind = .index) :
    db'.IndexBacked db.nextObject := by
  obtain ⟨t, hon, htable, hindexes⟩ := (h.makes hdb hi).index hkind
  refine ⟨t, hon, ?_⟩
  rw [htable]
  cases statement with
  | createIndex definition =>
    obtain ⟨hfinds, hcolumns, hnext, hstart⟩ := hindexes
    rw [hcolumns, hstart]
    exact hallowed hnext.symm t hfinds
  | addConstraint definition => exact hindexes
  | _ => exact hindexes.elim

/-- In a run in which an index is only made on columns of its table, it is on them as long as it is
there. -/
theorem Becomes.indexBacked_of_listsColumns {settings : Settings}
    (h : Becomes (Action.ListsColumns i) (bootstrap settings) db) (hi : db.Present i)
    (hkind : (db.object i).kind = .index) : db.IndexBacked i := by
  have hstart := placed_bootstrap settings
  refine h.invariant (P := fun db => db.Present i → (db.object i).kind = .index → db.IndexBacked i)
    hstart ?_ ?_ ?_ hi hkind
  · exact fun hold => absurd (hstart.slot_of_present hold) (Nat.not_lt_zero _)
  · intro c statement start db db' hallowed hdb _ hstep hbacked hpresent hkind
    rcases hstep.present hdb hpresent with hold | rfl
    · have hremains := hstep.remains hdb (hdb.slot_of_present hold)
      exact hstep.indexBacked hdb (hbacked hold (hremains.kind.symm.trans hkind)) hpresent
    · exact hstep.indexBacked_of_made hdb hallowed hpresent hkind
  · intro db db' hdb hturn hbacked hpresent hkind
    have hclears := hturn.clears hdb
    have hsame := hclears.lessens.objects i
    obtain ⟨t, hon, hcolumns⟩ :=
      hbacked (hclears.lessens.present hpresent) (hsame.kind.symm.trans hkind)
    refine ⟨t, hclears.carries t i hon hpresent, ?_⟩
    rwa [hclears.tables, hsame.index]

private theorem listsColumns_withColumnAdded :
    Becomes (Action.ListsColumns ⟨3⟩) (bootstrap .standard) withColumnAdded := by
  have hfirst : InTurn (Action.ListsColumns ⟨3⟩) (bootstrap .standard) tempIndexActions := by
    refine ⟨trivial, trivial, trivial, fun hnext => absurd hnext (by decide +kernel), trivial,
      fun _ t hfinds => ?_, trivial⟩
    obtain ⟨s, hs, ht⟩ := hfinds
    obtain rfl : s = ⟨2⟩ := Except.ok.inj (hs.symm.trans (by decide +kernel))
    obtain rfl : t = ⟨2⟩ := Except.ok.inj (ht.symm.trans (by decide +kernel))
    exact ⟨by decide, by decide +kernel⟩
  have hlast : InTurn (Action.ListsColumns ⟨3⟩) withTempIndex columnActions :=
    ⟨trivial, trivial, trivial⟩
  exact hfirst.becomes.trans hlast.becomes

theorem indexBacked_withColumnAdded :
    Becomes (Action.ListsColumns ⟨3⟩) (bootstrap .standard) withColumnAdded ∧
    withColumnAdded.Present ⟨3⟩ ∧ (withColumnAdded.object ⟨3⟩).kind = .index ∧
    (withColumnAdded.indexOf ⟨3⟩).columns = ["A"] ∧ withColumnAdded.IndexBacked ⟨3⟩ := by
  have hpresent : withColumnAdded.Present ⟨3⟩ := .inr ⟨⟨0⟩, .inr (by decide +kernel)⟩
  have hkind : (withColumnAdded.object ⟨3⟩).kind = .index := by decide +kernel
  exact ⟨listsColumns_withColumnAdded, hpresent, hkind, by decide +kernel,
    listsColumns_withColumnAdded.indexBacked_of_listsColumns hpresent hkind⟩

/-- Make a table with an index on no column and one on a column that the table does not have. -/
def looseIndexActions : List Action :=
  [.openSession ⟨1, "SA"⟩,
    .execute ⟨0⟩ (.createSchema "APP" false),
    .execute ⟨0⟩ (.createTable
      { schema := "APP", tableName := "T", columns := [.plain "A" "INT"], kind := .table,
        scope := .persistent, references := [], ifNotExists := false }),
    .execute ⟨0⟩ (.createIndex
      { schema := "APP", table := "T", indexName := some "I", columns := [], kind := .nonUnique,
        ifNotExists := false }),
    .execute ⟨0⟩ (.createIndex
      { schema := "APP", table := "T", indexName := some "J", columns := ["X"], kind := .nonUnique,
        ifNotExists := false })]

-- the statement that makes an index is not asked for columns of the table
example : let db := looseIndexActions.foldl (fun db action => action.run db) (bootstrap .standard)
    (db.space ⟨2⟩ .index).values = [⟨1⟩, ⟨2⟩] ∧ (db.indexOf ⟨1⟩).columns = [] ∧
      (db.indexOf ⟨2⟩).columns = ["X"] ∧ (db.tableOf ⟨0⟩).hasColumn "X" = false := by
  decide +kernel

end Runs

end SchemaCatalog
