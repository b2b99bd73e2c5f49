import SchemaCatalog.Proofs.IfNotExists
import SchemaCatalog.Proofs.Readers
import SchemaCatalog.Proofs.StableColumns
/-!
# Foreign keys

A foreign key makes do with an index that lists exactly its columns, and its table gets one only if it
carries none. A new index comes with a name that was free where the indexes of the table are kept, so
it is among those that are looked through the next time: adding the foreign key again passes the same
checks, finds an index and changes nothing.
-/
namespace SchemaCatalog

open Database Execution

variable {db db' : Database} {c : SessionRef} {s : SchemaRef} {t r i : ObjectRef} {name : String}
  {definition : ConstraintDefinition} {refTable : String} {columns refColumns : List String}
  {outcome : Outcome} {kept : Bool}

section Checks

/-- There are columns, and the table has all of them. -/
def Database.HasColumns (db : Database) (t : ObjectRef) (columns : List String) : Prop :=
  columns ≠ [] ∧ ∀ name ∈ columns, (db.tableOf t).hasColumn name = true

private theorem requireColumns_eq (h : db.HasColumns t columns) :
    requireColumns t columns db = .ok () db := by
  have hnonempty : columns.isEmpty = false := List.isEmpty_eq_false_iff.mpr h.1
  have hfind : (columns.find? fun name => !(db.tableOf t).hasColumn name) = none := by
    rw [List.find?_eq_none]
    intro name hname
    simp [h.2 name hname]
  rw [requireColumns, hnonempty]
  simp only [Bool.false_eq_true, if_false, get_bind_run, hfind]
  rfl

private theorem requireColumns_eq_ok_iff :
    requireColumns t columns db = .ok () db' ↔ db' = db ∧ db.HasColumns t columns := by
  constructor
  · intro h
    exact ⟨((requireColumns_settles t columns db).post_of_ok h).1, columns_of_requireColumns h⟩
  · rintro ⟨rfl, h⟩
    exact requireColumns_eq h

private theorem rejectView_eq_ok_iff :
    rejectView t db = .ok () db' ↔ db' = db ∧ (db.tableOf t).isView = false := by
  have htable : (db.object t).asTable = db.tableOf t := rfl
  rw [rejectView, get_bind_run]
  simp only [htable]
  cases (db.tableOf t).isView with
  | true => exact iff_of_false (fun h => nomatch h) (fun h => nomatch h.2)
  | false =>
    refine ⟨fun h => ?_, ?_⟩
    · cases h
      exact ⟨rfl, rfl⟩
    · rintro ⟨rfl, -⟩
      rfl

/-- The foreign key of the definition passes the checks: its table is found and is no view, the table
that it references is found, and both have the columns, as many one as the other. -/
structure Database.AdmitsKey (db : Database) (c : SessionRef) (definition : ConstraintDefinition)
    (refTable : String) (refColumns : List String) (s : SchemaRef) (t r : ObjectRef) : Prop where
  schema : db.findSchema definition.schema = some s
  table : s.getTable (some c) definition.table db = .ok t
  notView : (db.tableOf t).isView = false
  columns : db.HasColumns t definition.columns
  referenced : s.getTable (some c) refTable db = .ok r
  length : refColumns.length = definition.columns.length
  refColumns : db.HasColumns r refColumns

/-- Only a foreign key that passes the checks is added. -/
private theorem admits_of_ok (hkind : definition.kind = .referential refTable refColumns)
    (h : addConstraint c definition db = .ok outcome db') :
    ∃ s t r, db.AdmitsKey c definition refTable refColumns s t r := by
  rw [addConstraint, bind_eq_ok_iff] at h
  obtain ⟨s, mid, hschema, h⟩ := h
  obtain ⟨rfl, hname⟩ := (getSchema_settles db definition.schema).post_of_ok hschema
  rw [bind_eq_ok_iff] at h
  obtain ⟨t, mid, htable, h⟩ := h
  obtain ⟨htable, rfl⟩ := statement_look_eq_ok_iff.mp htable
  rw [bind_eq_ok_iff] at h
  obtain ⟨⟨⟩, mid, hview, h⟩ := h
  obtain ⟨rfl, hview⟩ := rejectView_eq_ok_iff.mp hview
  simp only [hkind] at h
  rw [addForeignKey, bind_eq_ok_iff] at h
  obtain ⟨⟨⟩, mid, hcolumns, h⟩ := h
  obtain ⟨rfl, hcolumns⟩ := requireColumns_eq_ok_iff.mp hcolumns
  rw [bind_eq_ok_iff] at h
  obtain ⟨r, mid, hreferenced, h⟩ := h
  obtain ⟨hreferenced, rfl⟩ := statement_look_eq_ok_iff.mp hreferenced
  rw [get_bind_run] at h
  split at h
  next => cases h
  next hlength =>
    rw [bind_eq_ok_iff] at h
    obtain ⟨⟨⟩, mid, hrefColumns, -⟩ := h
    obtain ⟨-, hrefColumns⟩ := requireColumns_eq_ok_iff.mp hrefColumns
    exact ⟨s, t, r, hname, htable, hview, hcolumns, hreferenced, not_not.mp hlength, hrefColumns⟩

end Checks

section Runs

/-- The table carries this index on exactly these columns. -/
structure Database.Backs (db : Database) (t : ObjectRef) (columns : List String) (i : ObjectRef) :
    Prop where
  carried : db.Carries t i
  columns : (db.indexOf i).columns = columns

private theorem Database.Placed.indexesOf_eq_ok (hdb : db.Placed) (hs : s ∈ db.allSchemas)
    (hactive : (db.schema s).state = .active) (ht : db.Visible c s t) :
    ∃ indexes, indexesOf (some c) t db = .ok indexes := by
  cases hlocal : (db.tableOf t).isLocalTemporary with
  | true =>
    rw [indexesOf, read_bind_run]
    simp only [hlocal, if_true]
    exact ⟨_, rfl⟩
  | false =>
    have hmem := hdb.mem_space_of_not_local ht hlocal
    exact ⟨_, (hdb.inOrder s).indexesOf_eq hs hactive hmem hlocal⟩

/-- An index for a foreign key can always be made, under a name that is free. -/
private theorem addKeyIndex_run (hs : s ∈ db.allSchemas) (hactive : (db.schema s).state = .active)
    (c : SessionRef) (t : ObjectRef) (definition : ConstraintDefinition) :
    ∃ name db', addKeyIndex c s t definition .nonUnique db = .ok ⟨1, "Constraint added to '" ++
        db'.nameOf t ++ "' with index '" ++ name ++ "'"⟩ db' ∧
      IndexMade c s db.nextObject name (db.tableOf t).isLocalTemporary db db' ∧
      db'.object db.nextObject = newIndex s t name definition.columns .nonUnique db := by
  obtain ⟨r, mid, hunique, -, hlive, -, -, rfl⟩ :=
    uniqueIndexName_run hactive c t (keyNameStem definition)
  let reservations := (db.schema s).reservations.enter r
  let mid := withReservations s reservations db
  let added := indexAdded c s t r.name definition.columns .nonUnique mid
  have hs' : s ∈ mid.allSchemas := hs
  have hadd : addTableIndex c s t r.name definition.columns .nonUnique mid = .ok () added := by
    apply addTableIndex_eq hs'
    · rw [state_withReservations, hactive]
    · exact indexFree_withReservations (indexFree_iff.mpr hlive)
  have hmade := (IndexMade.of_addTableIndex hs' hadd).withReservations
    ((added.schema s).reservations.release r)
  refine ⟨r.name, s.release r added, ?_, ?_, ?_⟩
  · rw [addKeyIndex, withIndexName, bind_of_ok (statement_of_ok hunique), releasing,
      bind_of_ok hadd]
    rfl
  · rw [release_eq]
    exact hmade
  · rw [release_eq]
    exact object_indexAdded c s t r.name definition.columns .nonUnique mid

namespace Database.AdmitsKey

variable (h : db.AdmitsKey c definition refTable refColumns s t r)

include h

private theorem active : (db.schema s).state = .active :=
  active_of_getTable h.table

private theorem mem_indexes (hdb : db.Placed) : ∃ indexes, indexesOf (some c) t db = .ok indexes ∧
    ∀ i, i ∈ indexes ↔ db.Carries t i := by
  have ht := visible_of_getTable h.table
  obtain ⟨indexes, hindexes⟩ := hdb.indexesOf_eq_ok (mem_allSchemas_of_find h.schema) h.active ht
  exact ⟨indexes, hindexes, fun _ => hdb.mem_indexesOf ht hindexes⟩

variable (hkind : definition.kind = .referential refTable refColumns)

include hkind

/-- When the checks are passed, what happens depends on the indexes that the table carries. -/
private theorem run_eq {indexes : List ObjectRef}
    (hindexes : indexesOf (some c) t db = .ok indexes) :
    addConstraint c definition db =
      match indexes.find? fun i => (db.indexOf i).columns = definition.columns with
      | some i => .ok ⟨1, "Foreign key added to '" ++ db.nameOf t ++ "' using index '" ++
          db.nameOf i ++ "'"⟩ db
      | none => addKeyIndex c s t definition .nonUnique db := by
  rw [addConstraint, bind_of_ok (statement_look_of_ok (getSchema_eq h.schema)),
    bind_of_ok (statement_look_of_ok h.table),
    bind_of_ok (rejectView_eq_ok_iff.mpr ⟨rfl, h.notView⟩)]
  simp only [hkind]
  rw [addForeignKey, bind_of_ok (requireColumns_eq h.columns),
    bind_of_ok (statement_look_of_ok h.referenced), get_bind_run]
  simp only [h.length, ne_eq, not_true_eq_false, if_false]
  rw [bind_of_ok (requireColumns_eq h.refColumns), bind_of_ok (statement_look_of_ok hindexes),
    get_bind_run]
  cases indexes.find? fun i => (db.indexOf i).columns = definition.columns <;> rfl

variable (hdb : db.Placed)

include hdb

/-- An index on the columns is made use of. -/
private theorem run_of_backs (hbacks : ∃ i, db.Backs t definition.columns i) :
    ∃ i, db.Backs t definition.columns i ∧ addConstraint c definition db =
      .ok ⟨1, "Foreign key added to '" ++ db.nameOf t ++ "' using index '" ++ db.nameOf i ++ "'"⟩
        db := by
  obtain ⟨indexes, hindexes, hmem⟩ := h.mem_indexes hdb
  rw [h.run_eq hkind hindexes]
  cases hfind : indexes.find? fun i => (db.indexOf i).columns = definition.columns with
  | none =>
    obtain ⟨i, hi⟩ := hbacks
    have hnot := List.find?_eq_none.mp hfind i ((hmem i).mpr hi.carried)
    exact absurd (decide_eq_true hi.columns) hnot
  | some i =>
    have hcarried := (hmem i).mp (List.mem_of_find?_eq_some hfind)
    exact ⟨i, ⟨hcarried, by simpa using List.find?_some hfind⟩, rfl⟩

/-- Where no index is on the columns, one is made. -/
private theorem run_of_not_backs (hnone : ∀ i, ¬ db.Backs t definition.columns i) :
    ∃ name db', addConstraint c definition db = .ok ⟨1, "Constraint added to '" ++
        db'.nameOf t ++ "' with index '" ++ name ++ "'"⟩ db' ∧
      IndexMade c s db.nextObject name (db.tableOf t).isLocalTemporary db db' ∧
      db'.object db.nextObject = newIndex s t name definition.columns .nonUnique db := by
  obtain ⟨indexes, hindexes, hmem⟩ := h.mem_indexes hdb
  obtain ⟨name, db', hrun, hmade, hindex⟩ :=
    addKeyIndex_run (mem_allSchemas_of_find h.schema) h.active c t definition
  refine ⟨name, db', ?_, hmade, hindex⟩
  rw [h.run_eq hkind hindexes]
  cases hfind : indexes.find? fun i => (db.indexOf i).columns = definition.columns with
  | none => exact hrun
  | some i =>
    have hcarried := (hmem i).mp (List.mem_of_find?_eq_some hfind)
    exact absurd ⟨hcarried, by simpa using List.find?_some hfind⟩ (hnone i)

end Database.AdmitsKey

end Runs

section Again

/-- What is found under a name was there before the index was made. -/
private theorem IndexMade.object_of_getTable (hmade : IndexMade c s db.nextObject name kept db db')
    (hdb : db.Placed) {tableName : String} (ht : s.getTable (some c) tableName db = .ok t) :
    db'.object t = db.object t := by
  apply hmade.objects
  rintro rfl
  apply hdb.not_present_nextObject
  exact (visible_of_getTable ht).imp (fun h => ⟨s, _, h⟩) fun h => ⟨c, .inl h⟩

private theorem Database.HasColumns.congr (h : db.HasColumns t columns)
    (hobject : db'.object t = db.object t) : db'.HasColumns t columns := by
  rw [HasColumns, tableOf, hobject]
  exact h

/-- A new index is of no matter to the checks. -/
private theorem Database.AdmitsKey.indexMade
    (h : db.AdmitsKey c definition refTable refColumns s t r) (hdb : db.Placed)
    (hmade : IndexMade c s db.nextObject name kept db db') :
    db'.AdmitsKey c definition refTable refColumns s t r where
  schema := (hmade.findSchema_eq _).trans h.schema
  table := (hmade.getTable_eq h.active _).trans h.table
  notView := by
    rw [tableOf, hmade.object_of_getTable hdb h.table]
    exact h.notView
  columns := h.columns.congr (hmade.object_of_getTable hdb h.table)
  referenced := (hmade.getTable_eq h.active _).trans h.referenced
  length := h.length
  refColumns := h.refColumns.congr (hmade.object_of_getTable hdb h.referenced)

/-- A new index of a table is kept where the table is. -/
private theorem IndexMade.carries
    (hmade : IndexMade c s i name (db.tableOf t).isLocalTemporary db db') (hdb : db.Placed)
    (ht : db.Visible c s t) (hid : (db'.indexOf i).tableId = (db'.object t).id) :
    db'.Carries t i where
  tableId := hid
  beside := by
    have hfree := hmade.free
    cases hlocal : (db.tableOf t).isLocalTemporary with
    | true =>
      rw [hlocal] at hmade hfree
      refine .inr ⟨c, ?_, ?_⟩ <;> rw [hmade.session]
      · exact hdb.mem_tempTables_of_local ht hlocal
      · exact (NameMap.mem_values_insert hfree _ _).mpr (.inl rfl)
    | false =>
      rw [hlocal] at hmade hfree
      refine .inl ⟨s, ?_, ?_⟩ <;> rw [space, hmade.schema]
      · exact hdb.mem_space_of_not_local ht hlocal
      · exact (NameMap.mem_values_insert hfree _ _).mpr (.inl rfl)

/-- So a new index on these columns is one that a foreign key makes do with. -/
private theorem IndexMade.backs {tableName : String} {kind : IndexKind}
    (hmade : IndexMade c s db.nextObject name (db.tableOf t).isLocalTemporary db db')
    (hdb : db.Placed) (ht : s.getTable (some c) tableName db = .ok t)
    (hindex : db'.object db.nextObject = newIndex s t name columns kind db) :
    db'.Backs t columns db.nextObject := by
  have hnew : db'.indexOf db.nextObject = (newIndex s t name columns kind db).asIndex :=
    congrArg Object.asIndex hindex
  refine ⟨hmade.carries hdb (visible_of_getTable ht) ?_, ?_⟩
  · rw [hnew, hmade.object_of_getTable hdb ht]
    rfl
  · rw [hnew]
    rfl

/-- A foreign key was added: the table carries an index on its columns. If it carried none, just one
was made, otherwise nothing has changed. To add it again changes nothing either. -/
structure ForeignKeyAdded (c : SessionRef) (definition : ConstraintDefinition) (s : SchemaRef)
    (t : ObjectRef) (db db' : Database) : Prop where
  schema : db.findSchema definition.schema = some s
  table : s.getTable (some c) definition.table db = .ok t
  backed : ∃ i, db'.Backs t definition.columns i
  kept : (∃ i, db.Backs t definition.columns i) → db' = db
  made : (∀ i, ¬ db.Backs t definition.columns i) → ∃ name,
    IndexMade c s db.nextObject name (db.tableOf t).isLocalTemporary db db' ∧
      db'.object db.nextObject = newIndex s t name definition.columns .nonUnique db
  again : ∃ i, db'.Backs t definition.columns i ∧
    (Statement.addConstraint definition).execute c db' = .ok ⟨1, "Foreign key added to '" ++
      db'.nameOf t ++ "' using index '" ++ db'.nameOf i ++ "'"⟩ db'

/-- In a run of any length, a foreign key that is added has an index on just its columns, and to add
it again changes nothing. -/
theorem Becomes.foreignKeyAdded {settings : Settings} {allowed : Database → Action → Prop}
    (h : Becomes allowed (bootstrap settings) db)
    (hkind : definition.kind = .referential refTable refColumns)
    (hadd : (Statement.addConstraint definition).execute c db = .ok outcome db') :
    ∃ s t, ForeignKeyAdded c definition s t db db' := by
  have hdb := h.placed (placed_bootstrap settings)
  obtain ⟨s, t, r, hadmits⟩ := admits_of_ok hkind hadd
  refine ⟨s, t, ?_⟩
  by_cases hbacks : ∃ i, db.Backs t definition.columns i
  · obtain ⟨i, hi, hrun⟩ := hadmits.run_of_backs hkind hdb hbacks
    obtain rfl : db = db' := by
      cases hrun.symm.trans hadd
      rfl
    exact ⟨hadmits.schema, hadmits.table, hbacks, fun _ => rfl,
      fun hnone => absurd hi (hnone i), i, hi, hrun⟩
  · have hnone := not_exists.mp hbacks
    obtain ⟨name, mid, hrun, hmade, hindex⟩ := hadmits.run_of_not_backs hkind hdb hnone
    obtain rfl : mid = db' := by
      cases hrun.symm.trans hadd
      rfl
    have hplaced : mid.Placed := by
      have hafter := (Statement.addConstraint definition).placed hdb c
      rwa [stateAfter_of_ok hadd] at hafter
    -- the second run meets the same checks and finds the index that the first one has made
    have hnew := hmade.backs hdb hadmits.table hindex
    have hagain := (hadmits.indexMade hdb hmade).run_of_backs hkind hplaced ⟨_, hnew⟩
    exact ⟨hadmits.schema, hadmits.table, ⟨_, hnew⟩, fun hbacks' => absurd hbacks' hbacks,
      fun _ => ⟨name, hmade, hindex⟩, hagain⟩

/-- A foreign key of the local temporary table on the column that was added last. -/
def addedColumnKey : ConstraintDefinition :=
  { schema := "APP", table := "L", constraintName := some "FK", kind := .referential "T" ["A"],
    columns := ["B"] }

private theorem becomes_withColumnAdded :
    Becomes (fun _ _ => True) (bootstrap .standard) withColumnAdded := by
  have hlast : InTurn (fun _ _ => True) withTempIndex columnActions := ⟨trivial, trivial, trivial⟩
  exact becomes_withTempIndex.trans hlast.becomes

-- the index that the table has is on another column, and the new one goes to the session with it
theorem foreignKeyAdded_withColumnAdded :
    Becomes (fun _ _ => True) (bootstrap .standard) withColumnAdded ∧
    addedColumnKey.kind = .referential "T" ["A"] ∧
    (withColumnAdded.session ⟨0⟩).tempIndexes.values = [⟨3⟩] ∧ ∃ db',
      (Statement.addConstraint addedColumnKey).execute ⟨0⟩ withColumnAdded =
        .ok ⟨1, "Constraint added to 'L' with index 'FK_INDEX_A'"⟩ db' ∧
      (db'.session ⟨0⟩).tempIndexes.values = [⟨4⟩, ⟨3⟩] ∧
      (db'.indexOf ⟨4⟩).columns = ["B"] ∧
      ∃ s t, ForeignKeyAdded ⟨0⟩ addedColumnKey s t withColumnAdded db' := by
  have hsucceeds : Succeeds ((Statement.addConstraint addedColumnKey).execute ⟨0⟩) withColumnAdded
      fun outcome db' => outcome = ⟨1, "Constraint added to 'L' with index 'FK_INDEX_A'"⟩ ∧
        (db'.session ⟨0⟩).tempIndexes.values = [⟨4⟩, ⟨3⟩] ∧ (db'.indexOf ⟨4⟩).columns = ["B"] := by
    decide +kernel
  obtain ⟨_, db', hrun, rfl, hindexes, hcolumns⟩ := hsucceeds
  exact ⟨becomes_withColumnAdded, rfl, by decide +kernel, db', hrun, hindexes, hcolumns,
    becomes_withColumnAdded.foreignKeyAdded rfl hrun⟩

end Again

end SchemaCatalog
