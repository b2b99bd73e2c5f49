import SchemaCatalog.Proofs.StableColumns
import SchemaCatalog.Proofs.Turns
/-!
# Names of columns

The columns of a table that starts with distinct names have distinct names for good, so that a name
stands for one column at most. `CREATE TABLE` takes its list of columns as it is, so that a table
may start with a name that stands for two.
-/
namespace SchemaCatalog

open Database

namespace Table

variable {listed : String → Prop} {table table' : Table} {name : String} {columns : List Column}
  {change : Column → Column}

/-- No two columns have the same name. -/
def DistinctNames (table : Table) : Prop :=
  (table.columns.map (·.name)).Nodup

private theorem map_name_changeFirst (hchange : ∀ column, (change column).name = column.name)
    (columns : List Column) : (changeFirst name change columns).map (·.name) =
      columns.map (·.name) := by
  induction columns with
  | nil => rfl
  | cons head columns ih =>
    rw [changeFirst]
    split
    · simp only [List.map_cons, hchange]
    · simp only [List.map_cons, ih]

/-- Columns that come have a new name, and columns that change keep theirs. -/
private theorem Alters.distinctNames (h : Alters listed table table')
    (hdistinct : table.DistinctNames) :
    table'.DistinctNames := by
  cases h with
  | @added column _ h =>
    rw [addColumn?] at h
    split at h
    · cases h
    next hnew =>
      cases h
      rw [DistinctNames, List.map_append, List.map_singleton]
      apply List.Nodup.append hdistinct (List.nodup_singleton _)
      rw [List.disjoint_singleton]
      intro hmem
      obtain ⟨old, hold, hname⟩ := List.mem_map.mp hmem
      exact hnew (List.any_eq_true.mpr ⟨old, hold, beq_iff_eq.mpr hname⟩)
  | @dropped name _ _ h =>
    obtain ⟨_, -, heq⟩ := Option.map_eq_some_iff.mp h
    cases heq
    exact hdistinct.sublist (List.eraseP_sublist.map _)
  | @updated name change _ h hchange =>
    rw [updateColumn?] at h
    split at h
    · cases h
      rwa [DistinctNames, map_name_changeFirst hchange]
    · cases h
  | checked => exact hdistinct

section First

private theorem name_ne {head column : Column} (h : ((head :: columns).map (·.name)).Nodup)
    (hmem : column ∈ columns) : column.name ≠ head.name := by
  rw [List.map_cons, List.nodup_cons] at h
  exact fun heq => h.1 (heq ▸ List.mem_map_of_mem hmem)

private theorem find?_name (h : (columns.map (·.name)).Nodup) {column : Column}
    (hmem : column ∈ columns) :
    columns.find? (·.name == column.name) = some column := by
  induction columns with
  | nil => cases hmem
  | cons head columns ih =>
    rcases List.mem_cons.mp hmem with rfl | hmem
    · exact List.find?_cons_of_pos (beq_self_eq_true _)
    · rw [List.find?_cons_of_neg (by simpa using (name_ne h hmem).symm)]
      exact ih h.of_cons hmem

private theorem eraseP_name (h : (columns.map (·.name)).Nodup) (name : String) :
    columns.eraseP (·.name == name) = columns.filter (·.name != name) := by
  induction columns with
  | nil => rfl
  | cons head columns ih =>
    by_cases hname : head.name = name
    · subst hname
      rw [List.eraseP_cons_of_pos (by simp), List.filter_cons_of_neg (by simp)]
      refine (List.filter_eq_self.mpr fun column hmem => ?_).symm
      simpa using name_ne h hmem
    · rw [List.eraseP_cons_of_neg (by simpa using hname),
        List.filter_cons_of_pos (by simpa using hname), ih h.of_cons]

private theorem changeFirst_eq_map (h : (columns.map (·.name)).Nodup) (name : String)
    (change : Column → Column) : changeFirst name change columns =
      columns.map fun column => if column.name = name then change column else column := by
  induction columns with
  | nil => rfl
  | cons head columns ih =>
    rw [changeFirst, List.map_cons]
    by_cases hname : head.name = name
    · subst hname
      have hrest : columns.map (fun column =>
          if column.name = head.name then change column else column) = columns :=
        (List.map_congr_left fun column hmem => if_neg (name_ne h hmem)).trans (List.map_id' _)
      simp [hrest]
    · simp [hname, ih h.of_cons]

end First

/-- A name stands for one column, and that is the one that is found, dropped and changed. -/
structure NamesColumns (table : Table) : Prop where
  distinct : table.DistinctNames
  found : ∀ column ∈ table.columns, table.column? column.name = some column
  dropped : ∀ name column table', table.dropColumn? name = some (column, table') →
    table'.columns = table.columns.filter (·.name != name)
  updated : ∀ name change table', table.updateColumn? name change = some table' →
    table'.columns = table.columns.map fun column =>
      if column.name = name then change column else column

private theorem DistinctNames.namesColumns (h : table.DistinctNames) : table.NamesColumns where
  distinct := h
  found := fun _ => find?_name h
  dropped := by
    intro name column table' hdrop
    obtain ⟨_, -, heq⟩ := Option.map_eq_some_iff.mp hdrop
    cases heq
    exact eraseP_name h name
  updated := by
    intro name change table' hupdate
    rw [updateColumn?] at hupdate
    split at hupdate
    · cases hupdate
      exact changeFirst_eq_map h name change
    · cases hupdate

end Table

section Runs

variable {c : SessionRef} {statement : Statement} {start db db' : Database} {t : ObjectRef}

/-- A `CREATE TABLE` that makes this table, if it makes any, lists distinct names. -/
def Action.NamesApart (t : ObjectRef) (db : Database) : Action → Prop
  | execute _ (.createTable definition) =>
    db.nextObject = t → (definition.columns.map (·.name)).Nodup
  | _ => True

theorem Statement.Step.distinctNames (h : statement.Step c start db db') (hdb : db.Placed)
    (ht : db.Present t) (hdistinct : (db.tableOf t).DistinctNames) :
    (db'.tableOf t).DistinctNames := by
  rcases (h.remains hdb (hdb.slot_of_present ht)).table with hsame | haltered
  · rwa [hsame]
  · exact haltered.distinctNames hdistinct

/-- A new table has the columns that are asked for. -/
theorem Statement.Step.distinctNames_of_made (h : statement.Step c start db db') (hdb : db.Placed)
    (hallowed : Action.NamesApart db.nextObject start (.execute c statement))
    (ht : db'.Present db.nextObject) : (db'.tableOf db.nextObject).DistinctNames := by
  by_cases hkind : (db'.object db.nextObject).kind = .tableOrView
  · obtain ⟨definition, rfl, hcolumns, -, hnext⟩ := (h.makes hdb ht).table hkind
    rw [Table.DistinctNames, hcolumns]
    exact hallowed hnext.symm
  · rw [tableOf_of_kind_ne hkind]
    exact List.nodup_nil

/-- In a run in which a table is only made with distinct names, each of them stands for one of its
columns as long as the table is there. -/
theorem Becomes.namesColumns_of_namesApart {settings : Settings}
    (h : Becomes (Action.NamesApart t) (bootstrap settings) db) (ht : db.Present t) :
    (db.tableOf t).NamesColumns := by
  have hstart := placed_bootstrap settings
  refine Table.DistinctNames.namesColumns ?_
  refine h.invariant (P := fun db => db.Present t → (db.tableOf t).DistinctNames) hstart ?_ ?_ ?_ ht
  · exact fun hold => absurd (hstart.slot_of_present hold) (Nat.not_lt_zero _)
  · intro c statement start db db' hallowed hdb _ hstep hdistinct hpresent
    rcases hstep.present hdb hpresent with hold | rfl
    · exact hstep.distinctNames hdb hold (hdistinct hold)
    · exact hstep.distinctNames_of_made hdb hallowed hpresent
  · intro db db' hdb hturn hdistinct hpresent
    have hclears := hturn.clears hdb
    rw [hclears.tables]
    exact hdistinct (hclears.lessens.present hpresent)

private theorem namesApart_withColumnAdded :
    Becomes (Action.NamesApart ⟨2⟩) (bootstrap .standard) withColumnAdded := by
  have hfirst : InTurn (Action.NamesApart ⟨2⟩) (bootstrap .standard) tempIndexActions :=
    ⟨trivial, trivial, fun _ => List.nodup_singleton _, trivial, fun _ => List.nodup_singleton _,
      trivial, trivial⟩
  have hlast : InTurn (Action.NamesApart ⟨2⟩) withTempIndex columnActions :=
    ⟨trivial, trivial, trivial⟩
  exact hfirst.becomes.trans hlast.becomes

theorem namesColumns_withColumnAdded :
    Becomes (Action.NamesApart ⟨2⟩) (bootstrap .standard) withColumnAdded ∧
    withColumnAdded.Present ⟨2⟩ ∧
    (withColumnAdded.tableOf ⟨2⟩).columns.map (·.name) = ["A", "B"] ∧
    (withColumnAdded.tableOf ⟨2⟩).NamesColumns := by
  have hpresent : withColumnAdded.Present ⟨2⟩ := .inr ⟨⟨0⟩, .inl (by decide +kernel)⟩
  exact ⟨namesApart_withColumnAdded, hpresent, by decide +kernel,
    namesApart_withColumnAdded.namesColumns_of_namesApart hpresent⟩

/-- Make a table with two columns of one name, and drop one of them. -/
def doubleColumnActions : List Action :=
  [.openSession ⟨1, "SA"⟩,
    .execute ⟨0⟩ (.createSchema "APP" false),
    .execute ⟨0⟩ (.createTable
      { schema := "APP", tableName := "T", columns := [.plain "A" "INT", .plain "A" "TEXT"],
        kind := .table, scope := .persistent, references := [], ifNotExists := false }),
    .execute ⟨0⟩ (.alterColumn { schema := "APP", table := "T", action := .drop "A" })]

-- the statement that makes a table is not asked for distinct names
example : ((doubleColumnActions.foldl (fun db action => action.run db)
    (bootstrap .standard)).tableOf ⟨0⟩).columns = [.plain "A" "TEXT"] := by
  decide +kernel

end Runs

end SchemaCatalog
