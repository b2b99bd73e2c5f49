import SchemaCatalog.Proofs.Execution.Basic
/-!
# Table statements
-/
namespace SchemaCatalog.Execution

open Database

variable {db : Database} {s : SchemaRef} {c : SessionRef} {schemaName name : String}

private theorem readable_of_visible {t : ObjectRef} (ht : db.Visible c s t) :
    db.Readable s (db.object t).id :=
  ⟨t, ht.imp_right fun ht => ⟨c, ht⟩, rfl⟩

/-- A new table reads only tables that the statement can see. -/
private theorem referenceIds_settles (h : db.WellFormed) (hs : s ∈ db.allSchemas) (c : SessionRef)
    (names : List String) : Settles (referenceIds c s names) db fun ids db' =>
      db' = db ∧ ∀ id ∈ ids, db.Readable s id := by
  induction names with
  | nil => exact .pure ⟨rfl, by simp⟩
  | cons name names ih =>
    rw [referenceIds, List.mapM_cons]
    have hfirst : Settles (do
        let t ← s.getTable (some c) name
        return ((← get).object t).id : ExecM UInt32) db fun id db' =>
          db' = db ∧ db.Readable s id :=
      (h.getTable_finds hs c name).settles.bind_look fun t ht =>
        .get_bind (.pure ⟨rfl, readable_of_visible ht⟩)
    refine hfirst.bind_look fun id hid => ih.bind_look fun ids hids => .pure ⟨rfl, ?_⟩
    intro id' hid'
    rcases List.mem_cons.mp hid' with rfl | hid'
    · exact hid
    · exact hids id' hid'

section Create

/-- A table that belongs to a session is kept by the session, any other by the schema. -/
private theorem registerTable_run (h : db.WellFormed) (hname : db.findSchema schemaName = some s)
    {table : Table}
    (hfree : (db.space s .tableOrView).get? name = none)
    (htemp : (db.session c).tempTables.get? name = none)
    (hreferences : ∀ id ∈ table.references, db.Readable s id) :
    ∃ db', registerTable c table.scope db.nextObject (db.withObject s name (.table table)) =
      .ok () db' ∧ Change c schemaName db db' := by
  have hs := mem_allSchemas_of_find hname
  have hadd := addNewObject_eq h hs name (.table table) hfree
  cases hscope : table.scope with
  | localTemporary =>
    have hlocal : table.isLocalTemporary = true := (Table.isLocalTemporary_iff table).mpr hscope
    have hnameOf : (db.withObject s name (.table table)).nameOf db.nextObject = name := by
      rw [nameOf, object_nextObject]
    have hkept : c.addTempTable db.nextObject (db.withObject s name (.table table)) =
        .ok () (tableKept c db.nextObject (db.withObject s name (.table table))) :=
      addTempTable_eq (by rw [hnameOf]; exact htemp)
    exact ⟨_, statement_of_ok hkept, .tempTableCreated htemp hlocal⟩
  | persistent =>
    have hlocal : table.isLocalTemporary = false := by
      simp [Table.isLocalTemporary, Table.isTemporary, hscope]
    exact ⟨_, statement_of_ok hadd, .objectCreated hname hfree ⟨hlocal, hreferences⟩⟩
  | globalTemporary =>
    have hlocal : table.isLocalTemporary = false := by
      simp [Table.isLocalTemporary, Table.isGlobalTemporary, hscope]
    exact ⟨_, statement_of_ok hadd, .objectCreated hname hfree ⟨hlocal, hreferences⟩⟩

theorem createTable_settles (h : db.WellFormed) (c : SessionRef) (definition : TableDefinition) :
    Settles (createTable c definition) db fun _ db' =>
      Changes c definition.schema db db' := by
  rw [createTable]
  refine (schemaForCreate_settles h definition.schema .tableOrView definition.tableName
    definition.ifNotExists).bind_look fun s? hs? => ?_
  cases s? with
  | none => exact .pure .refl
  | some s =>
    obtain ⟨hname, hs, hfree⟩ := hs? s rfl
    apply Settles.get_bind
    cases htemp : c.tempTable? definition.tableName db with
    | some t => exact refuse_settles trivial
    | none =>
      refine (referenceIds_settles h hs c definition.references).bind_look fun ids hids => ?_
      let table : Table := { kind := definition.kind, scope := definition.scope,
                             columns := definition.columns, checks := [], references := ids }
      have hreferences : ∀ id ∈ table.references, db.Readable s id := hids
      obtain ⟨db', hrun, hchange⟩ := registerTable_run h hname hfree htemp hreferences
      exact Succeeds.settles (.bind_ok (newObject_run s definition.tableName (.table table) db)
        (.bind_ok hrun (.pure (.single hchange))))

end Create

section Drop

variable {t : ObjectRef}

/-- The session drops the table that it keeps under the name of this one, which is this one. -/
private theorem removeTempTable_run (h : db.WellFormed)
    (ht : t ∈ (db.session c).tempTables.values) :
    removeTempTable (some c) t db = .ok () (c.dropTempTable (db.nameOf t) db).2 := by
  have hsession : SchemaRef.sessionFor (some c) t db = .ok c := rfl
  have hfind : c.tempTable? (db.nameOf t) db = some t := (h.tempKeyed c).mem_values_iff.mp ht
  have hdrop : c.dropTempTable (db.nameOf t) db =
      (some t, (c.dropTempTable (db.nameOf t) db).2) := by
    rw [SessionRef.dropTempTable, hfind]
  rw [removeTempTable, bind_of_ok (lift_of_ok hsession), get_bind_run,
    bind_of_ok (modifyGet_run hdrop)]
  rfl

/-- A visible table goes with its indexes, out of the schema or out of the session. -/
inductive TableGone (c : SessionRef) (s : SchemaRef) (t : ObjectRef) (db : Database) :
    Database → Prop
  | registered (ht : t ∈ (db.space s .tableOrView).values) (hfree : db.findDependent t t = none) :
    TableGone c s t db (db.tableRemoved s t)
  | kept (ht : t ∈ (db.session c).tempTables.values) :
    TableGone c s t db (c.dropTempTable (db.nameOf t) db).2

theorem TableGone.change {db' : Database} (h : TableGone c s t db db')
    (hname : db.findSchema schemaName = some s) : Change c schemaName db db' := by
  cases h with
  | registered ht hfree => exact .tableRemoved hname ht hfree
  | kept => exact .tempTableDropped _

/-- A visible table is removed unless another table reads it. -/
private theorem removeVisible_settles (h : db.WellFormed) (hs : s ∈ db.allSchemas)
    (ht : db.Visible c s t) :
    Settles (removeObject (some c) t) db fun _ db' => TableGone c s t db db' := by
  have hkind : (db.object t).kind = .tableOrView := by
    rcases ht with ht | ht
    · exact h.kind_of_mem hs ht
    · exact (h.tempTables c t ht).1
  rw [Settles, removeObject_of_table hkind]
  cases hfree : db.findDependent t t with
  | some dependent =>
    rw [removeTable_of_read hfree]
    exact ⟨trivial, rfl⟩
  | none =>
    cases hlocal : (db.tableOf t).isLocalTemporary with
    | false =>
      have hmem := h.mem_space_of_not_local ht hlocal
      rw [(h.inOrder hs).removeTable_eq hs (h.active s hs) hmem hlocal hfree]
      exact .registered hmem hfree
    | true =>
      have hmem := h.mem_tempTables_of_local hs ht hlocal
      rw [removeTable, get_bind_run]
      simp only [hfree, hlocal, if_true]
      rw [removeTempTable_run h hmem]
      exact .kept hmem

theorem dropTable_settles (h : db.WellFormed) (c : SessionRef) (schemaName name : String)
    (ifExists : Bool) :
    Settles (dropTable c schemaName name ifExists) db fun _ db' =>
      Changes c schemaName db db' := by
  refine (getSchema_settles db schemaName).bind_look fun s hname => ?_
  have hs := mem_allSchemas_of_find hname
  refine (Finds.of_ok (h.findTable_eq hs c name) rfl).settles.bind_look fun t? ht? => ?_
  cases t? with
  | none =>
    cases ifExists with
    | true => exact .pure .refl
    | false => exact refuse_settles trivial
  | some t =>
    exact (removeVisible_settles h hs (visible_of_findTable ht?)).lift.bind_change
      fun _ _ hgone => .pure (.single (hgone.change hname))

/-- The table that a successful statement finds is gone. -/
theorem tableGone_of_dropTable {ifExists : Bool} {outcome : Outcome}
    {db' : Database} (h : db.WellFormed) (hname : db.findSchema schemaName = some s)
    (hfind : s.findTable (some c) name db = .ok (some t))
    (hrun : dropTable c schemaName name ifExists db = .ok outcome db') :
    TableGone c s t db db' := by
  have hs := mem_allSchemas_of_find hname
  have hvisible : db.Visible c s t := by
    rw [h.findTable_eq hs] at hfind
    exact visible_of_findTable (Except.ok.inj hfind)
  rw [dropTable, bind_of_ok (statement_look_of_ok (getSchema_eq hname)),
    bind_of_ok (statement_look_of_ok hfind)] at hrun
  obtain ⟨_, mid, hremove, hpure⟩ := bind_eq_ok_iff.mp hrun
  cases hpure
  exact (removeVisible_settles h hs hvisible).post_of_ok (statement_eq_ok_iff.mp hremove)

end Drop

end SchemaCatalog.Execution
