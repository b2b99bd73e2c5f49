import SchemaCatalog.Proofs.IndexUndo
import SchemaCatalog.Proofs.Steps
/-!
# Every statement goes in steps

What a statement leaves behind, whether it ends or fails, has come about in steps that the statement
allows. The actions that statements share are gone through first, each from the state in which it
runs, and then the statements one by one.
-/
namespace SchemaCatalog

open Database Execution Relation

/-- One state comes from another in steps of a statement that a session has started. -/
def Statement.Steps (c : SessionRef) (statement : Statement) (start : Database) :
    Database → Database → Prop :=
  ReflTransGen (statement.Step c start)

variable {c : SessionRef} {statement : Statement} {start db db' : Database} {s : SchemaRef}
  {o t : ObjectRef} {name : String}

instance : IsPreorder Database (statement.Steps c start) where
  refl _ := .refl
  trans _ _ _ := .trans

namespace Statement.Steps

private theorem of_departures (h : Departures c db db') : statement.Steps c start db db' := by
  induction h with
  | refl => exact .refl
  | tail _ hlast ih => exact .tail ih (.departed hlast)

theorem placed (h : statement.Steps c start db db') (hdb : db.Placed) : db'.Placed := by
  induction h with
  | refl => exact hdb
  | tail _ hlast ih => exact hlast.placed ih

theorem active_eq (h : statement.Steps c start db db') (d : SessionRef) :
    (db'.session d).active = (db.session d).active := by
  induction h with
  | refl => rfl
  | tail _ hlast ih => exact (hlast.active_eq d).trans ih

end Statement.Steps

section Lookups

private theorem findTable_of_ok {session : Option SessionRef} {t? : Option ObjectRef}
    (h : s.findTable session name db = .ok t?) : (db.schema s).state = .active ∧
      t? = ((db.space s .tableOrView).get? name).or
        (session.bind fun c => (db.session c).tempTables.get? name) := by
  rw [SchemaRef.findTable, read_bind_run] at h
  obtain ⟨t?', hfind, h⟩ := look_bind_eq_ok_iff.mp h
  obtain ⟨hactive, rfl⟩ := findObject_eq_ok_iff.mp hfind
  refine ⟨hactive, ?_⟩
  cases hget : (db.space s .tableOrView).get? name <;> rw [hget] at h <;> cases h <;> rfl

private theorem visible_of_findTable_eq_ok (h : s.findTable (some c) name db = .ok (some t)) :
    db.Visible c s t :=
  visible_of_findTable (findTable_of_ok h).2.symm

theorem visible_of_getTable (h : s.getTable (some c) name db = .ok t) : db.Visible c s t := by
  obtain ⟨t?, hfind, h⟩ := look_bind_eq_ok_iff.mp h
  obtain rfl := (orNotFound_finds db .tableOrView name t?).post_of_ok h
  exact visible_of_findTable_eq_ok hfind

private theorem Database.Visible.withReservations (h : db.Visible c s t) (r : SchemaRef)
    (reservations : ReservationSet) : (withReservations r reservations db).Visible c s t := by
  rwa [Visible, space_withReservations]

private theorem stateAfter_schemaForCreate (schemaName : String) (kind : ObjectKind) (name : String)
    (ifNotExists : Bool) (db : Database) :
    stateAfter (schemaForCreate schemaName kind name ifNotExists) db = db :=
  (schemaForCreate_leaves (R := Eq) schemaName kind name ifNotExists db).symm

private theorem stateAfter_referenceIds (c : SessionRef) (s : SchemaRef) (names : List String)
    (db : Database) : stateAfter (referenceIds c s names) db = db :=
  (referenceIds_leaves (R := Eq) c s names db).symm

private theorem stateAfter_rejectView (t : ObjectRef) (db : Database) :
    stateAfter (rejectView t) db = db :=
  (Leaves.rejectView (R := Eq) t db).symm

private theorem stateAfter_requireColumns (t : ObjectRef) (columns : List String) (db : Database) :
    stateAfter (requireColumns t columns) db = db :=
  (Leaves.requireColumns (R := Eq) t columns db).symm

private theorem stateAfter_primaryKeyColumns (c : SessionRef) (t : ObjectRef) (db : Database) :
    stateAfter (primaryKeyColumns c t) db = db :=
  (Leaves.primaryKeyColumns (R := Eq) c t db).symm

/-- A key lists columns, and all of them are there. -/
theorem columns_of_requireColumns {columns : List String} {u : Unit}
    (h : requireColumns t columns db = .ok u db') :
    columns ≠ [] ∧ ∀ name ∈ columns, (db.tableOf t).hasColumn name = true := by
  refine ⟨?_, ((requireColumns_settles t columns db).post_of_ok h).2⟩
  rintro rfl
  cases h

end Lookups

section Entering

variable {body : ObjectBody} {table : Table} {index : Index}

private theorem stateAfter_addObject (howner : (db.object o).schema = some s) :
    stateAfter (addObject o) db = db ∨
      (db.space s (db.object o).kind).get? (db.nameOf o) = none ∧
        stateAfter (addObject o) db = entered s o db := by
  let post : Database → Prop := fun db' => db' = db ∨
    (db.space s (db.object o).kind).get? (db.nameOf o) = none ∧ db' = entered s o db
  refine stateAfter_look_bind post (.inl rfl) fun r hr => ?_
  obtain rfl := schema_of_ok howner hr
  cases hrun : r.add o db with
  | ok _ db' =>
    obtain ⟨-, -, hfree, rfl⟩ := add_eq_ok_iff.mp hrun
    exact .inr ⟨hfree, stateAfter_of_ok hrun⟩
  | error e db' =>
    rw [add_eq_guarded] at hrun
    obtain rfl := eq_of_guarded_eq_error hrun
    exact .inl (by rw [add_eq_guarded, stateAfter_of_error hrun])

/-- A new object enters its schema, or it is left lying. -/
private theorem steps_addNewObject (hbody : statement.MayEnter c start db s body) :
    statement.Steps c start db
      (stateAfter (addObject db.nextObject) (db.withObject s name body)) := by
  have howner : ((db.withObject s name body).object db.nextObject).schema = some s := by
    rw [object_nextObject]
  rcases stateAfter_addObject howner with hsame | ⟨hfree, hafter⟩
  · rw [hsame]
    exact .single (.objectMade s name body)
  · rw [nameOf, object_nextObject] at hfree
    rw [hafter]
    exact .single (.entered hbody hfree)

private theorem steps_addNewTempTable (hdefines : statement.Defines start db table)
    (hlocal : table.isLocalTemporary = true) : statement.Steps c start db
      (stateAfter (c.addTempTable db.nextObject) (db.withObject s name (.table table))) := by
  rw [SessionRef.addTempTable, stateAfter_get_bind]
  cases hfree : ((db.withObject s name (.table table)).session c).tempTables.contains
      ((db.withObject s name (.table table)).object db.nextObject).name with
  | true =>
    simp only [hfree, if_true]
    exact .single (.objectMade s name _)
  | false =>
    simp only [hfree, Bool.false_eq_true, if_false]
    rw [object_nextObject] at hfree
    exact .single (.tableKept hdefines hlocal (NameMap.contains_eq_false.mp hfree))

private theorem steps_addNewTempIndex (ht : t ∈ (db.session c).tempTables.values)
    (hid : index.tableId = (db.object t).id)
    (hindexes : statement.Indexes c start db t index.columns) : statement.Steps c start db
      (stateAfter (c.addTempIndex db.nextObject) (db.withObject s name (.index index))) := by
  rw [SessionRef.addTempIndex, stateAfter_get_bind]
  cases hfree : ((db.withObject s name (.index index)).session c).tempIndexes.contains
      ((db.withObject s name (.index index)).object db.nextObject).name with
  | true =>
    simp only [hfree, if_true]
    exact .single (.objectMade s name _)
  | false =>
    simp only [hfree, Bool.false_eq_true, if_false]
    rw [object_nextObject] at hfree
    exact .single (.indexKept ht hid hindexes (NameMap.contains_eq_false.mp hfree))

private theorem steps_createObject {schemaName message : String} {kind : ObjectKind}
    (hbody : ∀ s, statement.MayEnter c start db s body) : statement.Steps c start db
      (stateAfter (createObject schemaName kind name body message) db) := by
  refine stateAfter_bind_of_eq _ (stateAfter_schemaForCreate ..) .refl fun s? => ?_
  cases s? with
  | none => exact .refl
  | some s =>
    rw [stateAfter_bind_of_ok (newObject_run ..), stateAfter_bind_pure, stateAfter_statement]
    exact steps_addNewObject (hbody s)

private theorem steps_createTable (c : SessionRef) (definition : TableDefinition) (db : Database) :
    (Statement.createTable definition).Steps c db db
      (stateAfter (createTable c definition) db) := by
  refine stateAfter_bind_of_eq _ (stateAfter_schemaForCreate ..) .refl fun s? => ?_
  cases s? with
  | none => exact .refl
  | some s =>
    rw [stateAfter_get_bind]
    split
    · exact .refl
    · refine stateAfter_bind_of_eq _ (stateAfter_referenceIds ..) .refl fun references => ?_
      have hdefines : (Statement.createTable definition).Defines db db
          { kind := definition.kind, scope := definition.scope, columns := definition.columns,
            checks := [], references } := ⟨definition, rfl, rfl, rfl, rfl⟩
      rw [stateAfter_bind_of_ok (newObject_run ..), stateAfter_bind_pure]
      unfold registerTable
      split
      next hscope =>
        rw [stateAfter_statement]
        exact steps_addNewTempTable hdefines ((Table.isLocalTemporary_iff _).mpr hscope)
      next hscope =>
        rw [stateAfter_statement]
        refine steps_addNewObject ⟨hdefines, Bool.eq_false_iff.mpr ?_⟩
        rwa [ne_eq, Table.isLocalTemporary_iff]

/-- A new index goes where its table is. -/
private theorem steps_addTableIndex (hdb : db.Placed) (ht : db.Visible c s t) (name : String)
    {columns : List String} (kind : IndexKind) (hindexes : statement.Indexes c start db t columns) :
    statement.Steps c start db (stateAfter (addTableIndex c s t name columns kind) db) := by
  rw [addTableIndex, stateAfter_get_bind]
  dsimp only
  rw [stateAfter_bind_of_ok (newObject_run ..)]
  cases hlocal : (db.object t).asTable.isLocalTemporary with
  | true =>
    simp only [if_true]
    rw [stateAfter_statement]
    exact steps_addNewTempIndex (hdb.mem_tempTables_of_local ht hlocal) rfl hindexes
  | false =>
    simp only [Bool.false_eq_true, if_false]
    rw [stateAfter_statement]
    exact steps_addNewObject ⟨t, hdb.mem_space_of_not_local ht hlocal, rfl, hindexes⟩

/-- A name is reserved for the time in which the action runs. -/
private theorem steps_withIndexName {α : Type} {stem : String} {act : String → ExecM α}
    (hact : ∀ name reservations, statement.Steps c start (withReservations s reservations db)
      (stateAfter (act name) (withReservations s reservations db))) :
    statement.Steps c start db (stateAfter (withIndexName c s t stem act) db) := by
  rcases stateAfter_withIndexName act db with hsame | ⟨live, r, mid, hgranted, hafter⟩
  · rw [hsame]
    exact .refl
  · obtain ⟨-, -, -, rfl⟩ := hgranted
    rw [hafter, release_eq]
    exact .tail (.head (.reserved s _) (hact r.name _)) (.reserved s _)

private theorem steps_createIndex (hdb : db.Placed) (c : SessionRef)
    (definition : IndexDefinition) :
    (Statement.createIndex definition).Steps c db db
      (stateAfter (createIndex c definition) db) := by
  refine stateAfter_statementLook_bind _ .refl fun s hs => ?_
  refine stateAfter_statementLook_bind _ .refl fun t ht => ?_
  have hfinds : db.FindsTable c definition.schema definition.table t := ⟨s, hs, ht⟩
  have hvisible := visible_of_getTable ht
  have hnamed : ∀ {mid} name, mid.Placed → mid.Visible c s t → mid.nextObject = db.nextObject →
      mid.tableOf t = db.tableOf t → (Statement.createIndex definition).Steps c db mid
        (stateAfter (createNamedIndex c s t definition name) mid) := by
    intro mid name hmid hvisible hnext htable
    rw [createNamedIndex, stateAfter_bind_pure]
    exact steps_addTableIndex hmid hvisible name _ ⟨hfinds, rfl, hnext, htable⟩
  split
  next name _ =>
    refine stateAfter_bind_of_eq _ (stateAfter_validateName ..) .refl fun _ => ?_
    refine stateAfter_statementLook_bind _ .refl fun i? _ => ?_
    split
    · exact hnamed name hdb hvisible rfl rfl
    · split <;> exact .refl
  next =>
    refine steps_withIndexName fun name reservations => ?_
    exact hnamed name (hdb.samePlaces (samePlaces_withReservations s reservations db))
      (hvisible.withReservations s reservations) rfl rfl

end Entering

section Altering

variable {change : Column → Column} {column : Column}

private theorem steps_addColumn (t : ObjectRef) (column : Column) (db : Database) :
    statement.Steps c start db (stateAfter (t.addColumn column) db) := by
  rw [ObjectRef.addColumn, stateAfter_get_bind]
  split
  next h => exact .single (.tableAltered (.added h))
  next => exact .refl

private theorem steps_updateColumn (hchange : ∀ column, (change column).name = column.name) :
    statement.Steps c start db (stateAfter (t.updateColumn name change) db) := by
  rw [ObjectRef.updateColumn, stateAfter_get_bind]
  split
  next h => exact .single (.tableAltered (.updated h hchange))
  next => exact .refl

private theorem steps_alterColumnBy (hchange : ∀ column, (change column).name = column.name) :
    statement.Steps c start db (stateAfter (alterColumnBy t name change) db) := by
  rw [alterColumnBy, stateAfter_bind_pure, stateAfter_statement]
  exact steps_updateColumn hchange

/-- A column is dropped when no index on the table lists it. -/
private theorem steps_dropColumn (hdb : db.Placed) (ht : db.Visible c s t) (name : String) :
    statement.Steps c start db (stateAfter (Execution.dropColumn c t name) db) := by
  rw [Execution.dropColumn, stateAfter_get_bind]
  dsimp only
  split
  · exact .refl
  · split
    · exact .refl
    next hlength =>
      refine stateAfter_statementLook_bind _ .refl fun indexes hindexes => ?_
      split
      · exact .refl
      next hnone =>
        have hfree : ¬ db.ListedOn t name := by
          rintro ⟨i, hon, hname⟩
          have hnot := List.find?_eq_none.mp hnone i ((hdb.mem_indexesOf ht hindexes).mpr hon)
          exact hnot (List.contains_iff_mem.mpr hname)
        rw [stateAfter_bind_pure, stateAfter_statement, ObjectRef.dropColumn, stateAfter_get_bind]
        split
        next h => exact .single (.tableAltered (.dropped h hlength hfree))
        next => exact .refl

private theorem steps_alterColumn (hdb : db.Placed) (c : SessionRef) (request : ColumnChange) :
    statement.Steps c start db (stateAfter (alterColumn c request) db) := by
  refine stateAfter_statementLook_bind _ .refl fun s _ => ?_
  refine stateAfter_statementLook_bind _ .refl fun t ht => ?_
  refine stateAfter_bind_of_eq _ (stateAfter_rejectView t db) .refl fun _ => ?_
  cases request.action with
  | add column =>
    refine stateAfter_bind_of_eq _ (stateAfter_validateName ..) .refl fun _ => ?_
    rw [stateAfter_bind_pure, stateAfter_statement]
    exact steps_addColumn t column db
  | drop name => exact steps_dropColumn hdb (visible_of_getTable ht) name
  | changeType name dataType =>
    dsimp only [changeColumnType]
    split
    · exact .refl
    · exact steps_alterColumnBy fun _ => rfl
  | setNullable name nullable =>
    dsimp only [setColumnNullable]
    split
    · refine stateAfter_bind_of_eq _ (stateAfter_primaryKeyColumns c t db) .refl fun columns => ?_
      split
      · exact .refl
      · exact steps_alterColumnBy fun _ => rfl
    · exact steps_alterColumnBy fun _ => rfl
  | setDefault name defaultExpression => exact steps_alterColumnBy fun _ => rfl

end Altering

section Keys

variable {definition : ConstraintDefinition}

private theorem steps_forbidNull (t : ObjectRef) (columns : List String) :
    Leaves (statement.Steps c start) (forbidNull t columns) := by
  refine .forM (fun name => Leaves.lift fun db => ?_) columns
  exact steps_updateColumn fun _ => rfl

private theorem steps_addKeyIndex (hdb : db.Placed) (ht : db.Visible c s t) (kind : IndexKind)
    (hcolumns : definition.columns ≠ [] ∧
      ∀ name ∈ definition.columns, (db.tableOf t).hasColumn name = true) :
    (Statement.addConstraint definition).Steps c start db
      (stateAfter (addKeyIndex c s t definition kind) db) := by
  refine steps_withIndexName fun name reservations => ?_
  have hmid := hdb.samePlaces (samePlaces_withReservations s reservations db)
  have hadd : (Statement.addConstraint definition).Steps c start
      (withReservations s reservations db)
      (stateAfter (addTableIndex c s t name definition.columns kind)
        (withReservations s reservations db)) :=
    steps_addTableIndex hmid (ht.withReservations s reservations) name kind hcolumns
  refine Leaves.bind_from hadd fun _ => ?_
  split
  · exact (steps_forbidNull t _).bind fun _ => .get_bind fun _ => .refl
  · exact .get_bind fun _ => .refl

private theorem steps_addConstraint (hdb : db.Placed) (c : SessionRef)
    (definition : ConstraintDefinition) : (Statement.addConstraint definition).Steps c start db
      (stateAfter (addConstraint c definition) db) := by
  refine stateAfter_statementLook_bind _ .refl fun s _ => ?_
  refine stateAfter_statementLook_bind _ .refl fun t ht => ?_
  refine stateAfter_bind_of_eq _ (stateAfter_rejectView t db) .refl fun _ => ?_
  have hvisible := visible_of_getTable ht
  have hkey : ∀ kind, requireColumns t definition.columns db = .ok () db →
      (Statement.addConstraint definition).Steps c start db
        (stateAfter (addKeyIndex c s t definition kind) db) := fun kind hrequired =>
    steps_addKeyIndex hdb hvisible kind (columns_of_requireColumns hrequired)
  split
  · rw [addCheck]
    split
    · exact .refl
    · exact .single (.tableAltered (.checked _))
  · refine stateAfter_bind_of_found _ (stateAfter_requireColumns ..) .refl fun _ hrequired => ?_
    refine stateAfter_statementLook_bind _ .refl fun indexes _ => ?_
    rw [stateAfter_get_bind]
    dsimp only
    split
    · exact .refl
    · exact hkey _ hrequired
  · exact stateAfter_bind_of_found _ (stateAfter_requireColumns ..) .refl fun _ => hkey _
  · refine stateAfter_bind_of_found _ (stateAfter_requireColumns ..) .refl fun _ hrequired => ?_
    refine stateAfter_statementLook_bind _ .refl fun referenced _ => ?_
    rw [stateAfter_get_bind]
    dsimp only
    split
    · exact .refl
    · refine stateAfter_bind_of_eq _ (stateAfter_requireColumns ..) .refl fun _ => ?_
      refine stateAfter_statementLook_bind _ .refl fun indexes _ => ?_
      rw [stateAfter_get_bind]
      split
      · exact .refl
      · exact hkey _ hrequired

end Keys

section Dropping

theorem departures_dropTable (hdb : db.Placed) (c : SessionRef) (schemaName name : String)
    (ifExists : Bool) : Departures c db (stateAfter (dropTable c schemaName name ifExists) db) := by
  refine stateAfter_statementLook_bind _ .refl fun s _ => ?_
  refine stateAfter_statementLook_bind _ .refl fun t? ht => ?_
  cases t? with
  | none => cases ifExists <;> exact .refl
  | some t =>
    rw [stateAfter_bind_pure, stateAfter_statement]
    exact hdb.departures_removeObject
      ((visible_of_findTable_eq_ok ht).imp_left fun ht => ⟨_, ht⟩)

/-- Objects have left the schema, and if all has gone well, it is gone too. -/
theorem departures_dropSchemaStatement (hdb : db.Placed) (c : SessionRef) (name : String)
    (ifExists : Bool) :
    Departures c db (stateAfter (Execution.dropSchema c name ifExists) db) ∨
      ∃ s mid, Departures c db mid ∧ mid.findSchema name = some s ∧
        (mid.schema s).registry.isEmpty = true ∧
        stateAfter (Execution.dropSchema c name ifExists) db = schemaGone s name mid := by
  let post : Database → Prop := fun db' => Departures c db db' ∨
    ∃ s mid, Departures c db mid ∧ mid.findSchema name = some s ∧
      (mid.schema s).registry.isEmpty = true ∧ db' = schemaGone s name mid
  have hsame : post db := .inl .refl
  change post _
  rw [Execution.dropSchema, stateAfter_get_bind]
  split
  · split <;> exact hsame
  · refine stateAfter_statementLook_bind post hsame fun objects _ => ?_
    rw [stateAfter_bind_pure, stateAfter_statement, stateAfter]
    have hdrop := departures_dropSchema (c := c) hdb name
    cases hrun : Database.dropSchema (some c) name db with
    | ok _ db' =>
      rw [hrun] at hdrop
      obtain ⟨s, mid, hname, hgo, hempty, rfl⟩ := hdrop
      refine .inr ⟨s, mid, hgo, ?_, hempty, rfl⟩
      rwa [findSchema, hgo.schemas_eq]
    | error e db' =>
      rw [hrun] at hdrop
      exact .inl hdrop

private theorem steps_dropSchema (hdb : db.Placed) (c : SessionRef) (name : String)
    (ifExists : Bool) :
    statement.Steps c start db (stateAfter (Execution.dropSchema c name ifExists) db) := by
  rcases departures_dropSchemaStatement hdb c name ifExists with
    hgo | ⟨s, mid, hgo, hname, -, hafter⟩
  · exact .of_departures hgo
  · rw [hafter]
    exact .tail (Statement.Steps.of_departures hgo) (.schemaGone hname)

private theorem steps_dropIndex (hdb : db.Placed) (c : SessionRef) (schemaName name : String)
    (ifExists : Bool) :
    statement.Steps c start db (stateAfter (dropIndex c schemaName name ifExists) db) := by
  refine stateAfter_statementLook_bind _ .refl fun s _ => ?_
  refine stateAfter_statementLook_bind _ .refl fun i? hi => ?_
  cases i? with
  | some i =>
    have hfind : (db.space s .index).get? name = some i := by
      simpa using (findIndex_of_ok hi).2.symm
    rw [stateAfter_bind_pure, stateAfter_statement]
    exact .of_departures (hdb.departures_removeObject
      (.inl ⟨_, NameMap.mem_values_of_get? hfind⟩))
  | none =>
    rw [stateAfter_bind_unchanged]
    · exact .of_departures (hdb.departures_dropTempIndex c name)
    · intro dropped _
      cases dropped <;> cases ifExists <;> rfl

end Dropping

/-- Every statement goes in steps. -/
theorem Statement.steps_execute (hdb : db.Placed) (c : SessionRef) (statement : Statement) :
    statement.Steps c db db (stateAfter (statement.execute c) db) := by
  cases statement with
  | createSchema name ifNotExists =>
    rw [execute]
    rcases stateAfter_createSchemaStatement c name ifNotExists db with hafter | hafter
    · rw [hafter]
      exact .refl
    · rw [hafter]
      exact .single (.schemaCreated name _ ⟨⟨ifNotExists, rfl⟩, rfl, rfl⟩)
  | dropSchema name ifExists => exact steps_dropSchema hdb c name ifExists
  | createTable definition => exact steps_createTable c definition db
  | dropTable schema name ifExists =>
    exact .of_departures (departures_dropTable hdb c schema name ifExists)
  | createIndex definition => exact steps_createIndex hdb c definition
  | dropIndex schema name ifExists => exact steps_dropIndex hdb c schema name ifExists
  | createSequence schema name start increment =>
    rw [execute, Execution.createSequence]
    split
    · exact .refl
    · exact steps_createObject fun _ => trivial
  | createConstant schema name value => exact steps_createObject fun _ => trivial
  | createFunctionAlias schema name target deterministic =>
    refine stateAfter_bind_of_eq _ (stateAfter_validateName ..) .refl fun _ => ?_
    exact steps_createObject fun _ => trivial
  | rename schema kind oldName newName =>
    rw [execute]
    rcases stateAfter_rename schema kind oldName newName db with
      hafter | ⟨s, o, hlive, hfree, hafter⟩
    · rw [hafter]
      exact .refl
    · rw [hafter]
      exact .single (.renamed ⟨_, NameMap.mem_values_of_get? hlive⟩ hfree)
  | alterColumn request => exact steps_alterColumn hdb c request
  | addConstraint definition => exact steps_addConstraint hdb c definition
  | truncateTable schema name => exact .refl
  | dml kind => exact .refl
  | transaction kind => exact .refl

theorem Statement.placed (hdb : db.Placed) (c : SessionRef) (statement : Statement) :
    (stateAfter (statement.execute c) db).Placed :=
  (statement.steps_execute hdb c).placed hdb

end SchemaCatalog
