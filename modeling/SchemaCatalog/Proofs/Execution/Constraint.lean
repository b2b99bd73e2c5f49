import SchemaCatalog.Proofs.Execution.Column
import SchemaCatalog.Proofs.Execution.Index
/-!
# Constraint statements

A key is added only after the table is seen to have its columns, so nothing fails once the index of
the key is there.
-/
namespace SchemaCatalog.Execution

open Database

variable {db : Database} {s : SchemaRef} {c : SessionRef} {t : ObjectRef} {schemaName : String}

theorem requireColumns_settles (t : ObjectRef) (columns : List String) (db : Database) :
    Settles (requireColumns t columns) db fun _ db' => db' = db ∧
      ∀ name ∈ columns, (db.tableOf t).hasColumn name = true := by
  rw [requireColumns]
  split
  · exact reject_settles
  · apply Settles.get_bind
    split
    next => exact refuse_settles trivial
    next hnone =>
      refine .pure ⟨rfl, fun name hname => ?_⟩
      simpa using List.find?_eq_none.mp hnone name hname

section ForbidNull

private theorem any_name_changeFirst (name other : String) (change : Column → Column)
    (hchange : ∀ column, (change column).name = column.name) (columns : List Column) :
    (Table.changeFirst name change columns).any (·.name == other) =
      columns.any (·.name == other) := by
  induction columns with
  | nil => rfl
  | cons column columns ih =>
    rw [Table.changeFirst]
    split
    · simp only [List.any_cons, hchange]
    · simp only [List.any_cons, ih]

/-- The table that is put in the place of an old one is there, unless there was none. -/
theorem tableOf_setTable (t : ObjectRef) (table : Table) (db : Database) :
    (t.setTable table db).tableOf t = table ∨ (t.setTable table db).tableOf t = db.tableOf t := by
  have hobject : (t.setTable table db).object t = (db.object t).mapTable fun _ => table := by
    rw [ObjectRef.setTable, object_modifyObject, if_pos rfl]
  rw [tableOf, hobject, Object.mapTable]
  split
  next => exact .inl rfl
  next => exact .inr rfl

theorem tableOf_setTable_of_ne {o t : ObjectRef} (h : o ≠ t) (table : Table) (db : Database) :
    (t.setTable table db).tableOf o = db.tableOf o := by
  rw [tableOf, ObjectRef.setTable, object_modifyObject, if_neg h, tableOf]

/-- A column that is there can be made to refuse null, and no column goes. -/
private theorem notNull_succeeds {name : String} (hname : (db.tableOf t).hasColumn name = true) :
    Succeeds (t.updateColumn name Column.notNull) db fun _ db' =>
      (∃ columns, db' = t.setTable { db.tableOf t with columns } db) ∧
        ∀ other, (db.tableOf t).hasColumn other = true →
          (db'.tableOf t).hasColumn other = true := by
  let table : Table := { db.tableOf t with
    columns := Table.changeFirst name Column.notNull (db.tableOf t).columns }
  have hupdate : (db.tableOf t).updateColumn? name Column.notNull = some table := by
    rw [Table.updateColumn?, if_pos hname]
  have hrun : t.updateColumn name Column.notNull db = .ok () (t.setTable table db) := by
    rw [ObjectRef.updateColumn, get_bind_run]
    simp only [hupdate]
    rfl
  refine .of_ok hrun ⟨⟨_, rfl⟩, fun other hother => ?_⟩
  rcases tableOf_setTable t table db with heq | heq
  · have hcolumns : table.hasColumn other = (db.tableOf t).hasColumn other :=
      any_name_changeFirst name other Column.notNull (fun _ => rfl) _
    rw [heq, hcolumns, hother]
  · rwa [heq]

private theorem forbidNull_succeeds {columns : List String}
    (hname : db.findSchema schemaName = some s) (ht : db.Visible c s t)
    (hcolumns : ∀ name ∈ columns, (db.tableOf t).hasColumn name = true) :
    Succeeds (forbidNull t columns) db fun _ db' =>
      Changes c schemaName db db' ∧ db'.findSchema schemaName = some s := by
  let inv : Database → Prop := fun db' => Changes c schemaName db db' ∧
    db'.findSchema schemaName = some s ∧ db'.Visible c s t ∧
    ∀ name ∈ columns, (db'.tableOf t).hasColumn name = true
  have hstep : ∀ name ∈ columns, ∀ db', inv db' →
      Succeeds (liftM (t.updateColumn name Column.notNull) : ExecM Unit) db' fun _ => inv := by
    rintro name hcolumn db' ⟨hchanges, hname, ht, hthere⟩
    apply (notNull_succeeds (hthere name hcolumn)).lift.mono
    rintro _ db'' ⟨⟨changed, rfl⟩, hnext⟩
    exact ⟨hchanges.tail (.tableAltered hname ht rfl rfl), hname, ht,
      fun other hother => hnext other (hthere other hother)⟩
  exact (Succeeds.forM hstep ⟨.refl, hname, ht, hcolumns⟩).mono
    fun _ _ hinv => ⟨hinv.1, hinv.2.1⟩

end ForbidNull

section Keys

variable {definition : ConstraintDefinition}

/-- With the columns there, a visible table gets an index for a key. -/
theorem addKeyIndex_settles (h : db.WellFormed) (hname : db.findSchema schemaName = some s)
    (ht : db.Visible c s t) (kind : IndexKind)
    (hcolumns : ∀ name ∈ definition.columns, (db.tableOf t).hasColumn name = true) :
    Settles (addKeyIndex c s t definition kind) db fun _ db' => Changes c schemaName db db' := by
  have hs := mem_allSchemas_of_find hname
  apply withIndexName_settles h hname
  intro name reservations hfree
  have hreserved := h.shrinks (shrinks_withReservations s reservations db)
  obtain ⟨db', hrun, hchange, hsame, hname', ht'⟩ := addTableIndex_run hreserved hname
    (visible_withReservations ht) (indexFree_withReservations hfree) definition.columns kind
  apply Succeeds.bind_ok hrun
  have hslot : t.slot < db.objectStore.next :=
    h.slot_of_readable hs (ht.imp_right fun ht => ⟨c, ht⟩)
  have htable : db'.tableOf t = db.tableOf t := by
    rw [tableOf, hsame t hslot]
    rfl
  have hchanges : Changes c schemaName (withReservations s reservations db) db' := .single hchange
  split
  · have hthere : ∀ name ∈ definition.columns, (db'.tableOf t).hasColumn name = true := by
      rwa [htable]
    exact (forbidNull_succeeds hname' ht' hthere).bind fun _ _ hnext =>
      .pure ⟨hchanges.trans hnext.1, hnext.2⟩
  · exact .pure ⟨hchanges, hname'⟩

private theorem addPrimaryKey_settles (h : db.WellFormed)
    (hname : db.findSchema schemaName = some s) (ht : db.Visible c s t)
    (definition : ConstraintDefinition) :
    Settles (addPrimaryKey c s t definition) db fun _ db' => Changes c schemaName db db' := by
  have hs := mem_allSchemas_of_find hname
  refine (requireColumns_settles t definition.columns db).bind_look fun _ hcolumns => ?_
  refine (indexesOf_settles h hs ht).bind_look fun indexes _ => .get_bind ?_
  dsimp only
  split
  · exact reject_settles
  · exact addKeyIndex_settles h hname ht .primaryKey hcolumns

private theorem addUnique_settles (h : db.WellFormed) (hname : db.findSchema schemaName = some s)
    (ht : db.Visible c s t) (definition : ConstraintDefinition) :
    Settles (addUnique c s t definition) db fun _ db' => Changes c schemaName db db' :=
  (requireColumns_settles t definition.columns db).bind_look fun _ hcolumns =>
    addKeyIndex_settles h hname ht .unique hcolumns

private theorem addForeignKey_settles (h : db.WellFormed)
    (hname : db.findSchema schemaName = some s) (ht : db.Visible c s t)
    (definition : ConstraintDefinition) (refTable : String) (refColumns : List String) :
    Settles (addForeignKey c s t definition refTable refColumns) db
      fun _ db' => Changes c schemaName db db' := by
  have hs := mem_allSchemas_of_find hname
  refine (requireColumns_settles t definition.columns db).bind_look fun _ hcolumns => ?_
  refine (h.getTable_finds hs c refTable).settles.bind_look fun referenced _ => .get_bind ?_
  dsimp only
  split
  · exact reject_settles
  · refine (requireColumns_settles referenced refColumns db).bind_look fun _ _ => ?_
    refine (indexesOf_settles h hs ht).bind_look fun indexes _ => .get_bind ?_
    split
    · exact .pure .refl
    · exact addKeyIndex_settles h hname ht .nonUnique hcolumns

private theorem addCheck_settles (hname : db.findSchema schemaName = some s) (ht : db.Visible c s t)
    (expression : String) :
    Settles (addCheck t expression) db fun _ db' => Changes c schemaName db db' := by
  rw [addCheck]
  split
  · exact reject_settles
  · exact .single (.tableAltered hname ht rfl rfl)

theorem addConstraint_settles (h : db.WellFormed) (c : SessionRef)
    (definition : ConstraintDefinition) :
    Settles (addConstraint c definition) db fun _ db' =>
      Changes c definition.schema db db' := by
  refine (getSchema_settles db definition.schema).bind_look fun s hname => ?_
  have hs := mem_allSchemas_of_find hname
  refine (h.getTable_finds hs c definition.table).settles.bind_look fun t ht => ?_
  refine (rejectView_settles t db).bind_look fun _ _ => ?_
  split
  · exact addCheck_settles hname ht _
  · exact addPrimaryKey_settles h hname ht definition
  · exact addUnique_settles h hname ht definition
  · exact addForeignKey_settles h hname ht definition _ _

end Keys

end SchemaCatalog.Execution
