import SchemaCatalog.Proofs.Execution.Basic
/-!
# Index statements
-/
namespace SchemaCatalog.Execution

open Database

variable {db : Database} {s : SchemaRef} {c : SessionRef} {t : ObjectRef} {schemaName name : String}
  {columns : List String} {kind : IndexKind}

section Added

/-- The new index on a table. -/
def newIndex (s : SchemaRef) (t : ObjectRef) (name : String) (columns : List String)
    (kind : IndexKind) (db : Database) : Object where
  id := UInt32.ofNat db.nextId
  name := name
  schema := some s
  body := .index { tableId := (db.object t).id, tableName := db.nameOf t, columns, kind }

/-- The database with a new index on a table, which is registered where the table is kept. -/
def indexAdded (c : SessionRef) (s : SchemaRef) (t : ObjectRef) (name : String)
    (columns : List String) (kind : IndexKind) (db : Database) : Database :=
  let made := db.withObject s name (newIndex s t name columns kind db).body
  if (db.tableOf t).isLocalTemporary then indexKept c db.nextObject made
  else entered s db.nextObject made

/-- Where no index has the name nothing can go wrong. -/
theorem addTableIndex_eq (hs : s ∈ db.allSchemas) (hactive : (db.schema s).state = .active)
    (hfree : IndexFree db c s t name) : addTableIndex c s t name columns kind db =
      .ok () (indexAdded c s t name columns kind db) := by
  let body := (newIndex s t name columns kind db).body
  have hnew : (db.withObject s name body).object db.nextObject = newIndex s t name columns kind db :=
    object_nextObject
  have hnameOf : (db.withObject s name body).nameOf db.nextObject = name :=
    congrArg Object.name hnew
  rw [addTableIndex, get_bind_run, bind_of_ok (newObject_run ..), indexAdded]
  cases hlocal : (db.tableOf t).isLocalTemporary with
  | false =>
    have hasTable : (db.object t).asTable.isLocalTemporary = false := hlocal
    have hspace : (db.space s .index).get? name = none := by rwa [IndexFree, hlocal] at hfree
    have hadd : addObject db.nextObject (db.withObject s name body) =
        .ok () (entered s db.nextObject (db.withObject s name body)) := by
      refine addObject_eq hs hactive (congrArg Object.schema hnew) ?_
      rw [hnameOf, hnew]
      exact hspace
    simp only [hasTable, Bool.false_eq_true, if_false]
    exact statement_of_ok hadd
  | true =>
    have hasTable : (db.object t).asTable.isLocalTemporary = true := hlocal
    have hsession : (db.session c).tempIndexes.get? name = none := by
      rwa [IndexFree, hlocal] at hfree
    have hadd : c.addTempIndex db.nextObject (db.withObject s name body) =
        .ok () (indexKept c db.nextObject (db.withObject s name body)) := by
      apply addTempIndex_eq
      rw [hnameOf]
      exact hsession
    simp only [hasTable, if_true]
    exact statement_of_ok hadd

theorem object_indexAdded (c : SessionRef) (s : SchemaRef) (t : ObjectRef) (name : String)
    (columns : List String) (kind : IndexKind) (db : Database) :
    (indexAdded c s t name columns kind db).object db.nextObject =
      newIndex s t name columns kind db := by
  rw [indexAdded]
  split <;> exact object_nextObject

theorem nextId_indexAdded (c : SessionRef) (s : SchemaRef) (t : ObjectRef) (name : String)
    (columns : List String) (kind : IndexKind) (db : Database) :
    (indexAdded c s t name columns kind db).nextId = db.nextId + 1 := by
  rw [indexAdded]
  split <;> rfl

/-- A schema that registers an index strikes its name off, and a session does not. -/
theorem reservations_indexAdded (c : SessionRef) (s : SchemaRef) (t : ObjectRef) (name : String)
    (columns : List String) (kind : IndexKind) (db : Database) :
    ((indexAdded c s t name columns kind db).schema s).reservations =
      if (db.tableOf t).isLocalTemporary then (db.schema s).reservations
      else (db.schema s).reservations.free name := by
  rw [indexAdded]
  split
  · rfl
  · rw [entered, schema_modifySchema, if_pos rfl, Database.nameOf, object_nextObject]
    rfl

end Added

/-- An index is registered where its table is kept, if its name is free there. The objects that were
there stay as they are, and the table can still be found. -/
theorem addTableIndex_run (h : db.WellFormed) (hname : db.findSchema schemaName = some s)
    (ht : db.Visible c s t) (hfree : IndexFree db c s t name) (columns : List String)
    (kind : IndexKind) :
    ∃ db', addTableIndex c s t name columns kind db = .ok () db' ∧ Change c schemaName db db' ∧
      (∀ o : ObjectRef, o.slot < db.objectStore.next → db'.object o = db.object o) ∧
        db'.findSchema schemaName = some s ∧ db'.Visible c s t := by
  have hs := mem_allSchemas_of_find hname
  let body := (newIndex s t name columns kind db).body
  refine ⟨_, addTableIndex_eq hs (h.active s hs) hfree, ?_⟩
  rw [indexAdded]
  cases hlocal : (db.tableOf t).isLocalTemporary with
  | false =>
    have hmem := h.mem_space_of_not_local ht hlocal
    have hspace : (db.space s .index).get? name = none := by
      rwa [IndexFree, hlocal] at hfree
    have hkind : ¬ ObjectKind.tableOrView = ((db.withObject s name body).object
        db.nextObject).kind := by
      rw [object_nextObject]
      exact fun heq => by cases heq
    refine ⟨.objectCreated hname hspace ⟨t, hmem, rfl⟩,
      fun o ho => object_withObject_of_lt s name _ ho, hname, ?_⟩
    simp only [Bool.false_eq_true, if_false]
    rw [Visible, space_entered, if_neg fun heq => hkind heq.2]
    exact ht
  | true =>
    have hmem := h.mem_tempTables_of_local hs ht hlocal
    have hsession : (db.session c).tempIndexes.get? name = none := by
      rwa [IndexFree, hlocal] at hfree
    refine ⟨.tempIndexCreated hsession hmem rfl,
      fun o ho => object_withObject_of_lt s name _ ho, hname, .inr ?_⟩
    simp only [if_true]
    rw [indexKept, session_modifySession, if_pos rfl]
    exact hmem

private theorem createNamedIndex_succeeds (h : db.WellFormed)
    (hname : db.findSchema schemaName = some s) (ht : db.Visible c s t)
    (definition : IndexDefinition) (hfree : IndexFree db c s t name) :
    Succeeds (createNamedIndex c s t definition name) db fun _ db' =>
      Changes c schemaName db db' ∧ db'.findSchema schemaName = some s := by
  obtain ⟨db', hrun, hchange, -, hname', -⟩ :=
    addTableIndex_run h hname ht hfree definition.columns definition.kind
  exact .bind_ok hrun (.pure ⟨.single hchange, hname'⟩)

section Reserved

variable {reservations : ReservationSet}

/-- Reserved names have no part in what a statement sees. -/
theorem visible_withReservations (ht : db.Visible c s t) :
    (withReservations s reservations db).Visible c s t := by
  rw [Visible, space_withReservations]
  exact ht

theorem indexFree_withReservations (hfree : IndexFree db c s t name) :
    IndexFree (withReservations s reservations db) c s t name := by
  rw [IndexFree, space_withReservations]
  exact hfree

end Reserved

theorem createIndex_settles (h : db.WellFormed) (c : SessionRef) (definition : IndexDefinition) :
    Settles (createIndex c definition) db fun _ db' =>
      Changes c definition.schema db db' := by
  refine (getSchema_settles db definition.schema).bind_look fun s hname => ?_
  have hs := mem_allSchemas_of_find hname
  refine (h.getTable_finds hs c definition.table).settles.bind_look fun t ht => ?_
  cases definition.indexName with
  | some name =>
    refine (validateName_settles _ name db).bind_look fun _ _ => ?_
    refine (Finds.of_ok (h.findIndex_eq hs (some c) name) rfl).settles.bind_look fun i? hi? => ?_
    cases i? with
    | none =>
      obtain ⟨hspace, hsession⟩ := Option.or_eq_none_iff.mp hi?
      have hfree : IndexFree db c s t name := by
        rw [IndexFree]
        split
        · exact hsession
        · exact hspace
      have hcreated := createNamedIndex_succeeds h hname ht definition hfree
      exact (hcreated.mono fun _ _ hchanges => hchanges.1).settles
    | some i =>
      simp only [Option.isNone_some, Bool.false_eq_true, if_false]
      split
      · exact .pure .refl
      · exact refuse_settles trivial
  | none =>
    apply withIndexName_settles h hname
    intro name reservations hfree
    have hreserved := h.shrinks (shrinks_withReservations s reservations db)
    exact createNamedIndex_succeeds hreserved hname (visible_withReservations ht) definition
      (indexFree_withReservations hfree)

section Drop

variable {i : ObjectRef}

private theorem removeIndex_run (h : db.WellFormed) (hname : db.findSchema schemaName = some s)
    (hi : i ∈ (db.space s .index).values) :
    removeObject (some c) i db = .ok () (detached s db i) ∧
      Change c schemaName db (detached s db i) := by
  have hs := mem_allSchemas_of_find hname
  have hkind : (db.object i).kind ≠ .tableOrView := by
    rw [h.kind_of_mem hs hi]
    decide
  rw [removeObject_of_other hkind]
  exact ⟨(h.inOrder hs).detachObject_eq hs (h.active s hs) ⟨.index, hi⟩,
    .objectRemoved hname ⟨.index, hi⟩ hkind⟩

theorem dropIndex_settles (h : db.WellFormed) (c : SessionRef) (schemaName name : String)
    (ifExists : Bool) :
    Settles (dropIndex c schemaName name ifExists) db fun _ db' =>
      Changes c schemaName db db' := by
  refine (getSchema_settles db schemaName).bind_look fun s hname => ?_
  have hs := mem_allSchemas_of_find hname
  refine (Finds.of_ok (h.findIndex_eq hs none name) rfl).settles.bind_look fun i? hi? => ?_
  cases i? with
  | some i =>
    have hget : (db.space s .index).get? name = some i := by simpa using hi?
    obtain ⟨hrun, hchange⟩ := removeIndex_run (c := c) h hname (NameMap.mem_values_of_get? hget)
    exact Succeeds.settles (.bind_ok (statement_of_ok hrun) (.pure (.single hchange)))
  | none =>
    have hdrop : c.dropTempIndex name db =
      (c.tempIndex? name db, (c.dropTempIndex name db).2) := by
      rw [SessionRef.dropTempIndex]
      cases c.tempIndex? name db <;> rfl
    have hrun : (modifyGet (c.dropTempIndex name) : ExecM _) db =
        .ok (c.tempIndex? name db) (c.dropTempIndex name db).2 := modifyGet_run hdrop
    simp only
    rw [Settles, bind_of_ok hrun]
    cases hfind : c.tempIndex? name db with
    | some i => exact .single (.tempIndexDropped name)
    | none =>
      have hsame : (c.dropTempIndex name db).2 = db := by
        rw [SessionRef.dropTempIndex, hfind]
      rw [hsame]
      cases ifExists with
      | true => exact .refl
      | false => exact ⟨trivial, rfl⟩

end Drop

end SchemaCatalog.Execution
