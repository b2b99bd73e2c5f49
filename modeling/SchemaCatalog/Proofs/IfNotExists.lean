import SchemaCatalog.Proofs.IndexUndo
/-!
# Creating what is not there yet

A `CREATE` with `IF NOT EXISTS` does nothing when the name is taken, so it can be repeated. For
schemas and for indexes with a name, and for tables that a schema keeps, it never reports that
something is there already. A local temporary table is different: `CREATE TABLE` asks the session too
whether it keeps a table under the name, and then refuses, also when it was made by the very same
statement.
-/
namespace SchemaCatalog

open Database Execution

/-- The statement creates a schema, a table or an index with a name, unless there is one. -/
def Statement.IfAbsent : Statement → Prop
  | createSchema _ ifNotExists => ifNotExists = true
  | createTable definition => definition.ifNotExists = true
  | createIndex definition => definition.ifNotExists = true ∧ definition.indexName.isSome = true
  | _ => False

/-- The error reports that something is there already. -/
def ExecutionError.ReportsPresent : ExecutionError → Prop
  | catalog (.alreadyExists _ _) => True
  | catalog (.duplicateSchema _) => True
  | _ => False

/-- The name is one that can be given, and it is looked for in this schema. -/
structure Database.LooksIn (db : Database) (schemaName name : String) (s : SchemaRef) : Prop where
  name : Text.isBlank name = false
  schema : db.findSchema schemaName = some s
  active : (db.schema s).state = .active

/-- The statement makes a table, the schema has none with its name, and the session keeps one. -/
def Statement.MeetsTempTable (c : SessionRef) (db : Database) : Statement → Prop
  | createTable definition => ∃ s, db.LooksIn definition.schema definition.tableName s ∧
    (db.space s .tableOrView).get? definition.tableName = none ∧
      (db.session c).tempTables.get? definition.tableName ≠ none
  | _ => False

/-- The statement makes a table for its session. -/
def Statement.MakesTempTable : Statement → Prop
  | createTable definition => definition.scope = .localTemporary
  | _ => False

section Errors

variable {db : Database} {s : SchemaRef} {c : SessionRef} {schemaName name : String}
  {kind : ObjectKind}

/-- The action fails, changes nothing and does not report that something is there. -/
def FailsOtherwise {α : Type} (act : ExecM α) (db : Database) : Prop :=
  ∃ e, act db = .error e db ∧ ¬ e.ReportsPresent

private theorem FailsOtherwise.bind {α β : Type} {act : ExecM α} {next : α → ExecM β}
    (h : FailsOtherwise act db) : FailsOtherwise (act >>= next) db := by
  obtain ⟨e, herror, he⟩ := h
  exact ⟨e, bind_of_error herror, he⟩

private theorem FailsOtherwise.bind_ok {α β : Type} {act : ExecM α} {next : α → ExecM β} {a : α}
    (hact : act db = .ok a db) (h : FailsOtherwise (next a) db) :
    FailsOtherwise (act >>= next) db := by
  obtain ⟨e, herror, he⟩ := h
  exact ⟨e, (bind_of_ok hact).trans herror, he⟩

private theorem failsOtherwise_look {α : Type} {look : Lookup α} {e : CatalogError}
    (h : look db = .error e) (he : ¬ (ExecutionError.catalog e).ReportsPresent) :
    FailsOtherwise (liftM look : ExecM α) db :=
  ⟨_, statement_look_of_error h, he⟩

theorem validateName_eq (what : String) (h : Text.isBlank name = false) :
    validateName what name db = .ok () db := by
  rw [validateName, h]
  rfl

private theorem validateName_of_blank (what : String) (h : Text.isBlank name = true) :
    FailsOtherwise (validateName what name) db := by
  rw [validateName, h]
  exact ⟨_, rfl, id⟩

private theorem getSchema_of_missing (h : db.findSchema schemaName = none) :
    FailsOtherwise (liftM (getSchema schemaName) : ExecM SchemaRef) db :=
  failsOtherwise_look (getSchema_of_none h) id

/-- A table that cannot be found is not there, or its schema is at the end of its life. -/
private theorem getTable_of_error {session : Option SessionRef} {e : CatalogError}
    (h : s.getTable session name db = .error e) : ¬ (ExecutionError.catalog e).ReportsPresent := by
  cases hstate : (db.schema s).state with
  | active =>
    rw [SchemaRef.getTable, look_bind_of_ok (Database.findTable_eq hstate session name)] at h
    generalize ((db.space s .tableOrView).get? name).or _ = t? at h
    cases t? with
    | none =>
      cases h
      exact id
    | some t => cases h
  | invalid =>
    rw [SchemaRef.getTable, look_bind_of_error (findTable_of_invalid hstate session name)] at h
    cases h
    exact id

/-- What is not looked for in any schema is not created either. -/
private theorem schemaForCreate_of_not_looksIn (kind : ObjectKind)
    (hnot : ∀ s, ¬ db.LooksIn schemaName name s) :
    FailsOtherwise (schemaForCreate schemaName kind name true) db := by
  cases hblank : Text.isBlank name with
  | true => exact (validateName_of_blank _ hblank).bind
  | false =>
    refine .bind_ok (validateName_eq _ hblank) ?_
    cases hname : db.findSchema schemaName with
    | none => exact (getSchema_of_missing hname).bind
    | some s =>
      refine .bind_ok (statement_look_of_ok (getSchema_eq hname)) ?_
      cases hstate : (db.schema s).state with
      | active => exact absurd ⟨hblank, hname, hstate⟩ (hnot s)
      | invalid => exact (failsOtherwise_look (findObject_of_invalid hstate kind name) id).bind

private theorem schemaForCreate_of_looksIn (kind : ObjectKind) (h : db.LooksIn schemaName name s) :
    schemaForCreate schemaName kind name true db =
      .ok (if (db.space s kind).get? name = none then some s else none) db := by
  rw [schemaForCreate, bind_of_ok (validateName_eq _ h.name),
    bind_of_ok (statement_look_of_ok (getSchema_eq h.schema)),
    bind_of_ok (statement_look_of_ok (findObject_eq h.active))]
  cases (db.space s kind).get? name <;> rfl

/-- Names that a statement refers to are looked up and nothing more. -/
private theorem referenceIds_cases (c : SessionRef) (s : SchemaRef) (names : List String)
    (db : Database) :
    (∃ ids, referenceIds c s names db = .ok ids db) ∨ FailsOtherwise (referenceIds c s names) db := by
  induction names with
  | nil => exact .inl ⟨[], rfl⟩
  | cons name names ih =>
    rw [referenceIds, List.mapM_cons]
    cases hlook : s.getTable (some c) name db with
    | error e => exact .inr (failsOtherwise_look hlook (getTable_of_error hlook)).bind.bind
    | ok t =>
      have hfirst : (do
          let t ← s.getTable (some c) name
          return ((← get).object t).id : ExecM UInt32) db = .ok (db.object t).id db :=
        bind_of_ok (statement_look_of_ok hlook)
      rcases ih with ⟨ids, hids⟩ | hfails
      · refine .inl ⟨(db.object t).id :: ids, ?_⟩
        rw [bind_of_ok hfirst]
        exact bind_of_ok hids
      · exact .inr (.bind_ok hfirst hfails.bind)

end Errors

section Tables

variable {db : Database} {s : SchemaRef} {c : SessionRef} {name : String} {table : Table}
  {definition : TableDefinition}

/-- The database with a new table, which is registered where its scope says. -/
def tableAdded (c : SessionRef) (s : SchemaRef) (name : String) (table : Table)
    (db : Database) : Database :=
  let made := db.withObject s name (.table table)
  if table.scope = .localTemporary then tableKept c db.nextObject made
  else entered s db.nextObject made

private theorem registerTable_eq (hs : s ∈ db.allSchemas) (hactive : (db.schema s).state = .active)
    (hfree : (db.space s .tableOrView).get? name = none)
    (htemp : (db.session c).tempTables.get? name = none) (table : Table) :
    registerTable c table.scope db.nextObject (db.withObject s name (.table table)) =
      .ok () (tableAdded c s name table db) := by
  have hnew : (db.withObject s name (.table table)).object db.nextObject =
    { id := UInt32.ofNat db.nextId, name, schema := some s, body := .table table } :=
    object_nextObject
  have hadd : addObject db.nextObject (db.withObject s name (.table table)) =
      .ok () (entered s db.nextObject (db.withObject s name (.table table))) := by
    refine addObject_eq hs hactive (by rw [hnew]) ?_
    rw [Database.nameOf, hnew]
    exact hfree
  have hkeep : c.addTempTable db.nextObject (db.withObject s name (.table table)) =
      .ok () (tableKept c db.nextObject (db.withObject s name (.table table))) := by
    refine addTempTable_eq ?_
    rw [Database.nameOf, hnew]
    exact htemp
  rw [tableAdded]
  cases hscope : table.scope with
  | localTemporary => exact statement_of_ok hkeep
  | persistent => exact statement_of_ok hadd
  | globalTemporary => exact statement_of_ok hadd

private theorem looksIn_tableAdded {schemaName wanted : String} (c : SessionRef) (name : String)
    (table : Table) (h : db.LooksIn schemaName wanted s) :
    (tableAdded c s name table db).LooksIn schemaName wanted s := by
  refine ⟨h.name, ?_, ?_⟩
  · rw [tableAdded]
    split <;> exact h.schema
  · rw [tableAdded]
    split
    · exact h.active
    · exact state_entered.trans h.active

/-- A new table is found under its name where its scope says. -/
private theorem find_tableAdded (c : SessionRef) (table : Table)
    (hfree : (db.space s .tableOrView).get? name = none) :
    if table.scope = .localTemporary then
      ((tableAdded c s name table db).space s .tableOrView).get? name = none ∧
        ((tableAdded c s name table db).session c).tempTables.get? name = some db.nextObject
    else ((tableAdded c s name table db).space s .tableOrView).get? name = some db.nextObject := by
  have hnew : (db.withObject s name (.table table)).object db.nextObject =
    { id := UInt32.ofNat db.nextId, name, schema := some s, body := .table table } :=
    object_nextObject
  by_cases hscope : table.scope = .localTemporary
  · rw [if_pos hscope, tableAdded, if_pos hscope]
    refine ⟨hfree, ?_⟩
    rw [tableKept, session_modifySession, if_pos rfl, Database.nameOf, hnew]
    exact (NameMap.get?_insert ..).trans (if_pos rfl)
  · rw [if_neg hscope, tableAdded, if_neg hscope, space_entered, Database.nameOf, hnew,
      if_pos ⟨rfl, rfl⟩]
    exact (NameMap.get?_insert ..).trans (if_pos rfl)

section Create

variable (h : db.LooksIn definition.schema definition.tableName s)
  (hif : definition.ifNotExists = true)

include h hif

private theorem createTable_of_taken
    (htaken : (db.space s .tableOrView).get? definition.tableName ≠ none) :
    createTable c definition db =
      .ok ⟨0, "Table '" ++ definition.tableName ++ "' already exists"⟩ db := by
  have hcreate := schemaForCreate_of_looksIn .tableOrView h
  rw [if_neg htaken, ← hif] at hcreate
  rw [createTable, bind_of_ok hcreate]
  rfl

/-- The session keeps a table under the name, and `IF NOT EXISTS` is of no help. -/
private theorem createTable_of_kept
    (hfree : (db.space s .tableOrView).get? definition.tableName = none)
    (hkept : (db.session c).tempTables.get? definition.tableName ≠ none) :
    createTable c definition db =
      .error (.catalog (.alreadyExists .tableOrView definition.tableName)) db := by
  have hcreate := schemaForCreate_of_looksIn .tableOrView h
  have hsome : (c.tempTable? definition.tableName db).isSome = true :=
    Option.isSome_iff_ne_none.mpr hkept
  rw [if_pos hfree, ← hif] at hcreate
  rw [createTable, bind_of_ok hcreate]
  simp only [get_bind_run, hsome, if_true]
  rfl

private theorem createTable_of_absent
    (hfree : (db.space s .tableOrView).get? definition.tableName = none)
    (htemp : (db.session c).tempTables.get? definition.tableName = none) :
    (∃ table, table.scope = definition.scope ∧ createTable c definition db =
      .ok ⟨1, "Table '" ++ definition.tableName ++ "' created"⟩
        (tableAdded c s definition.tableName table db)) ∨
      FailsOtherwise (createTable c definition) db := by
  have hcreate := schemaForCreate_of_looksIn .tableOrView h
  have hnone : (c.tempTable? definition.tableName db).isSome = false := by
    rw [SessionRef.tempTable?, htemp]
    rfl
  rw [if_pos hfree, ← hif] at hcreate
  rcases referenceIds_cases c s definition.references db with ⟨ids, hids⟩ | hfails
  · refine .inl ⟨{ kind := definition.kind, scope := definition.scope
                   columns := definition.columns, checks := [], references := ids }, rfl, ?_⟩
    have hregister := registerTable_eq (mem_allSchemas_of_find h.schema) h.active hfree htemp
      { kind := definition.kind, scope := definition.scope, columns := definition.columns,
        checks := [], references := ids }
    rw [createTable, bind_of_ok hcreate]
    simp only [get_bind_run, hnone, Bool.false_eq_true, if_false]
    rw [bind_of_ok hids, bind_of_ok (newObject_run ..), bind_of_ok hregister]
    rfl
  · refine .inr (.bind_ok hcreate ?_)
    simp only [FailsOtherwise, get_bind_run, hnone, Bool.false_eq_true, if_false]
    exact hfails.bind

end Create

end Tables

section Schemas

variable {db : Database} {c : SessionRef} {name : String}

private theorem createSchema_of_taken (hblank : Text.isBlank name = false)
    (htaken : db.findSchema name ≠ none) :
    Execution.createSchema c name true db =
      .ok ⟨0, "Schema '" ++ name ++ "' already exists"⟩ db := by
  have hsome : (db.findSchema name).isSome = true := Option.isSome_iff_ne_none.mpr htaken
  rw [Execution.createSchema, bind_of_ok (validateName_eq _ hblank), get_bind_run]
  simp only [hsome, Bool.true_and, if_true]
  rfl

private theorem createSchema_of_absent (hblank : Text.isBlank name = false)
    (hfree : db.findSchema name = none) :
    Execution.createSchema c name true db = .ok ⟨1, "Schema '" ++ name ++ "' created"⟩
      (withSchema name (some (db.session c).user) false db) := by
  have hcontains : db.schemas.contains name = false := NameMap.contains_eq_false.mpr hfree
  have hcreate : Database.createSchema name (db.session c).user db =
      .ok db.nextSchema (withSchema name (some (db.session c).user) false db) := by
    rw [Database.createSchema, get_bind_run]
    simp only [hcontains, Bool.false_eq_true, if_false]
    rfl
  rw [Execution.createSchema, bind_of_ok (validateName_eq _ hblank), get_bind_run]
  simp only [hfree, Option.isSome_none, Bool.and_false, Bool.false_eq_true, if_false, get_bind_run]
  exact bind_of_ok (statement_of_ok hcreate)

end Schemas

section Indexes

variable {db db' : Database} {s : SchemaRef} {c : SessionRef} {t i : ObjectRef} {name : String}
  {kept : Bool} {definition : IndexDefinition}

/-- Where an index with a name is looked for and its table is found. -/
structure Database.LooksOn (db : Database) (c : SessionRef) (definition : IndexDefinition)
    (name : String) (s : SchemaRef) (t : ObjectRef) : Prop
    extends db.LooksIn definition.schema name s where
  table : s.getTable (some c) definition.table db = .ok t

private theorem createIndex_of_not_looksOn (hgiven : definition.indexName = some name)
    (hnot : ∀ s t, ¬ db.LooksOn c definition name s t) :
    FailsOtherwise (createIndex c definition) db := by
  cases hname : db.findSchema definition.schema with
  | none => exact (getSchema_of_missing hname).bind
  | some s =>
    refine .bind_ok (statement_look_of_ok (getSchema_eq hname)) ?_
    cases hlook : s.getTable (some c) definition.table db with
    | error e => exact (failsOtherwise_look hlook (getTable_of_error hlook)).bind
    | ok t =>
      refine .bind_ok (statement_look_of_ok hlook) ?_
      simp only [hgiven]
      cases hblank : Text.isBlank name with
      | true => exact (validateName_of_blank _ hblank).bind
      | false => exact absurd ⟨⟨hblank, hname, active_of_getTable hlook⟩, hlook⟩ (hnot s t)

/-- What a name finds among the indexes of a schema or else of a session. -/
def indexNamed (db : Database) (c : SessionRef) (s : SchemaRef) (name : String) :
    Option ObjectRef :=
  ((db.space s .index).get? name).or ((db.session c).tempIndexes.get? name)

section Create

variable (h : db.LooksOn c definition name s t) (hgiven : definition.indexName = some name)

include h hgiven

private theorem createIndex_of_taken (hif : definition.ifNotExists = true)
    (htaken : indexNamed db c s name ≠ none) :
    createIndex c definition db = .ok ⟨0, "Index '" ++ name ++ "' already exists"⟩ db := by
  have hfind : s.findIndex (some c) name db = .ok (indexNamed db c s name) :=
    Database.findIndex_eq h.active (some c) name
  obtain ⟨i, hi⟩ := Option.ne_none_iff_exists'.mp htaken
  rw [createIndex, bind_of_ok (statement_look_of_ok (getSchema_eq h.schema)),
    bind_of_ok (statement_look_of_ok h.table)]
  simp only [hgiven]
  rw [bind_of_ok (validateName_eq _ h.name), bind_of_ok (statement_look_of_ok hfind), hi, hif]
  rfl

private theorem createIndex_of_absent (hfree : indexNamed db c s name = none) :
    createIndex c definition db = .ok ⟨1, "Index '" ++ name ++ "' created"⟩
      (indexAdded c s t name definition.columns definition.kind db) := by
  have hfind : s.findIndex (some c) name db = .ok (indexNamed db c s name) :=
    Database.findIndex_eq h.active (some c) name
  obtain ⟨hspace, hsession⟩ := Option.or_eq_none_iff.mp hfree
  have hindexFree : IndexFree db c s t name := by
    rw [IndexFree]
    split
    · exact hsession
    · exact hspace
  rw [createIndex, bind_of_ok (statement_look_of_ok (getSchema_eq h.schema)),
    bind_of_ok (statement_look_of_ok h.table)]
  simp only [hgiven]
  rw [bind_of_ok (validateName_eq _ h.name), bind_of_ok (statement_look_of_ok hfind), hfree]
  exact bind_of_ok (addTableIndex_eq (mem_allSchemas_of_find h.schema) h.active hindexFree)

end Create

/-- A new index is of no matter to where a table is found. -/
theorem IndexMade.getTable_eq (hmade : IndexMade c s i name kept db db')
    (hactive : (db.schema s).state = .active) (tableName : String) :
    s.getTable (some c) tableName db' = s.getTable (some c) tableName db := by
  have hspace : db'.space s .tableOrView = db.space s .tableOrView := by
    rw [space, hmade.schema]
    cases kept <;> rfl
  have htemp : (db'.session c).tempTables = (db.session c).tempTables := by
    rw [hmade.session]
  have hlook : s.findTable (some c) tableName db' = s.findTable (some c) tableName db := by
    rw [Database.findTable_eq (hmade.state_eq.trans hactive), Database.findTable_eq hactive]
    simp only [hspace, htemp, Option.bind_some]
  have hfound := Database.findTable_eq hactive (some c) tableName
  rw [SchemaRef.getTable, look_bind_of_ok (hlook.trans hfound), look_bind_of_ok hfound]
  generalize Option.or _ _ = t?
  cases t? <;> rfl

/-- A new index leaves the schema and the tables where they are. -/
private theorem IndexMade.looksOn (hmade : IndexMade c s i name kept db db')
    (h : db.LooksOn c definition name s t) : db'.LooksOn c definition name s t where
  name := h.name
  schema := (hmade.findSchema_eq _).trans h.schema
  active := hmade.state_eq.trans h.active
  table := (hmade.getTable_eq h.active _).trans h.table

private theorem IndexMade.indexNamed_ne_none (hmade : IndexMade c s i name kept db db') :
    indexNamed db' c s name ≠ none := by
  have hfound : ∀ m : NameMap ObjectRef, (m.insert name i).get? name = some i := fun m =>
    (NameMap.get?_insert ..).trans (if_pos rfl)
  rw [indexNamed, hmade.space_eq, hmade.session]
  cases kept <;> simp [hfound]

end Indexes

section Statements

variable {db db' : Database} {c : SessionRef} {statement : Statement} {outcome : Outcome}

/-- A statement that creates what is absent reports something present exactly if a table that it
makes meets one of the session. When it succeeds it can be repeated and then does nothing, unless it
made a table for the session, which it meets the next time. -/
structure Repeatable (c : SessionRef) (statement : Statement) (db : Database) : Prop where
  reports : (∃ e db', statement.execute c db = .error e db' ∧ e.ReportsPresent) ↔
    statement.MeetsTempTable c db
  unchanged : ∀ e db', statement.execute c db = .error e db' → db' = db
  again : ∀ outcome db', statement.execute c db = .ok outcome db' →
    outcome.affected = 0 ∨ ¬ statement.MakesTempTable →
      ∃ outcome', outcome'.affected = 0 ∧ statement.execute c db' = .ok outcome' db'
  refused : ∀ outcome db', statement.execute c db = .ok outcome db' → outcome.affected ≠ 0 →
    statement.MakesTempTable → statement.MeetsTempTable c db'

private theorem Repeatable.of_error {e : ExecutionError} (h : statement.execute c db = .error e db)
    (hreports : e.ReportsPresent ↔ statement.MeetsTempTable c db) :
    Repeatable c statement db := by
  have hok : ∀ outcome db', statement.execute c db ≠ .ok outcome db' := by
    intro outcome db' hrun
    cases h.symm.trans hrun
  refine ⟨⟨?_, fun hmeets => ⟨e, db, h, hreports.mpr hmeets⟩⟩, ?_,
    fun outcome db' hrun => absurd hrun (hok outcome db'),
    fun outcome db' hrun => absurd hrun (hok outcome db')⟩
  · rintro ⟨e', db', hrun, he⟩
    cases h.symm.trans hrun
    exact hreports.mp he
  · intro e' db' hrun
    cases h.symm.trans hrun
    rfl

private theorem Repeatable.of_ok (h : statement.execute c db = .ok outcome db')
    (hmeets : ¬ statement.MeetsTempTable c db)
    (hagain : outcome.affected = 0 ∨ ¬ statement.MakesTempTable →
      ∃ outcome', outcome'.affected = 0 ∧ statement.execute c db' = .ok outcome' db')
    (hrefused : outcome.affected ≠ 0 → statement.MakesTempTable →
      statement.MeetsTempTable c db') : Repeatable c statement db := by
  have herror : ∀ e db'', statement.execute c db ≠ .error e db'' := by
    intro e db'' hrun
    cases h.symm.trans hrun
  refine ⟨⟨?_, fun h => absurd h hmeets⟩, fun e db'' hrun => absurd hrun (herror e db''),
    fun outcome' db'' hrun => ?_, fun outcome' db'' hrun => ?_⟩
  · rintro ⟨e, db'', hrun, -⟩
    exact absurd hrun (herror e db'')
  · cases h.symm.trans hrun
    exact hagain
  · cases h.symm.trans hrun
    exact hrefused

private theorem Repeatable.of_fails (h : FailsOtherwise (statement.execute c) db)
    (hmeets : ¬ statement.MeetsTempTable c db) : Repeatable c statement db := by
  obtain ⟨e, herror, he⟩ := h
  exact .of_error herror (iff_of_false he hmeets)

/-- A statement that does nothing does nothing again. -/
private theorem Repeatable.of_idle (h : statement.execute c db = .ok outcome db)
    (haffected : outcome.affected = 0) (hmeets : ¬ statement.MeetsTempTable c db) :
    Repeatable c statement db :=
  .of_ok h hmeets (fun _ => ⟨outcome, haffected, h⟩) fun hne => absurd haffected hne

private theorem repeatable_createSchema (c : SessionRef) (name : String) (db : Database) :
    Repeatable c (.createSchema name true) db := by
  cases hblank : Text.isBlank name with
  | true => exact .of_fails (validateName_of_blank _ hblank).bind id
  | false =>
    by_cases htaken : db.findSchema name = none
    · refine .of_ok (createSchema_of_absent hblank htaken) id (fun _ => ?_) fun _ => False.elim
      refine ⟨_, rfl, createSchema_of_taken hblank ?_⟩
      rw [findSchema, withSchema, NameMap.get?_insert, if_pos rfl]
      simp
    · exact .of_idle (createSchema_of_taken hblank htaken) rfl id

private theorem repeatable_createTable {definition : TableDefinition}
    (hif : definition.ifNotExists = true) (c : SessionRef) (db : Database) :
    Repeatable c (.createTable definition) db := by
  by_cases hlooks : ∃ s, db.LooksIn definition.schema definition.tableName s
  · obtain ⟨s, h⟩ := hlooks
    have hmeets : Statement.MeetsTempTable c db (.createTable definition) ↔
        (db.space s .tableOrView).get? definition.tableName = none ∧
          (db.session c).tempTables.get? definition.tableName ≠ none := by
      constructor
      · rintro ⟨r, hr, hmeets⟩
        obtain rfl := Option.some.inj (hr.schema.symm.trans h.schema)
        exact hmeets
      · exact fun hmeets => ⟨s, h, hmeets⟩
    by_cases hfree : (db.space s .tableOrView).get? definition.tableName = none
    · by_cases htemp : (db.session c).tempTables.get? definition.tableName = none
      · have hnot := fun h => (hmeets.mp h).2 htemp
        rcases createTable_of_absent h hif hfree htemp with ⟨table, hscope, hrun⟩ | hfails
        · have hafter := looksIn_tableAdded c definition.tableName table h
          have hfind := find_tableAdded c table hfree
          refine .of_ok hrun hnot (fun hor => ?_) fun _ hmakes => ?_
          · have hscope' : table.scope ≠ .localTemporary := fun heq =>
              hor.resolve_left (by simp) (hscope.symm.trans heq)
            rw [if_neg hscope'] at hfind
            exact ⟨_, rfl, createTable_of_taken hafter hif (by simp [hfind])⟩
          · have hscope' : table.scope = .localTemporary := hscope.trans hmakes
            rw [if_pos hscope'] at hfind
            exact ⟨s, hafter, hfind.1, by simp [hfind.2]⟩
        · exact .of_fails hfails hnot
      · exact .of_error (createTable_of_kept h hif hfree htemp)
          (iff_of_true trivial (hmeets.mpr ⟨hfree, htemp⟩))
    · exact .of_idle (createTable_of_taken h hif hfree) rfl fun h => hfree (hmeets.mp h).1
  · have hnot : ∀ s, ¬ db.LooksIn definition.schema definition.tableName s := fun s h =>
      hlooks ⟨s, h⟩
    refine .of_fails ?_ fun ⟨s, h, _⟩ => hnot s h
    have hfails := schemaForCreate_of_not_looksIn .tableOrView hnot
    rw [← hif] at hfails
    exact hfails.bind

private theorem repeatable_createIndex {definition : IndexDefinition} {name : String}
    (hif : definition.ifNotExists = true) (hgiven : definition.indexName = some name)
    (c : SessionRef) (db : Database) : Repeatable c (.createIndex definition) db := by
  by_cases hlooks : ∃ s t, db.LooksOn c definition name s t
  · obtain ⟨s, t, h⟩ := hlooks
    by_cases hfree : indexNamed db c s name = none
    · have hrun := createIndex_of_absent h hgiven hfree
      refine .of_ok hrun id (fun _ => ?_) fun _ => False.elim
      obtain ⟨s', t', name', hname, -, -, hmade, hnamed⟩ := made_of_createIndex hrun rfl
      obtain rfl := Option.some.inj (hname.symm.trans h.schema)
      obtain ⟨rfl, -⟩ := hnamed name hgiven
      exact ⟨_, rfl, createIndex_of_taken (hmade.looksOn h) hgiven hif hmade.indexNamed_ne_none⟩
    · exact .of_idle (createIndex_of_taken h hgiven hif hfree) rfl id
  · exact .of_fails (createIndex_of_not_looksOn hgiven fun s t h => hlooks ⟨s, t, h⟩) id

/-- A statement that creates what is absent can be repeated, in every state and every session, except
for one that made a table for its session. -/
theorem Statement.IfAbsent.repeatable (h : statement.IfAbsent) (c : SessionRef) (db : Database) :
    Repeatable c statement db := by
  cases statement with
  | createSchema name ifNotExists =>
    obtain rfl : ifNotExists = true := h
    exact repeatable_createSchema c name db
  | createTable definition => exact repeatable_createTable h c db
  | createIndex definition =>
    obtain ⟨name, hgiven⟩ := Option.isSome_iff_exists.mp h.2
    exact repeatable_createIndex h.1 hgiven c db
  | _ => exact h.elim

/-- A table that is created if it is absent. -/
def absentTable (scope : TableScope) : Statement :=
  .createTable { schema := "APP", tableName := "L", columns := [.plain "A" "INT"], kind := .table,
                 scope, references := [], ifNotExists := true }

theorem repeatable_withView : Reachable withView ∧
    (∃ db', (absentTable .persistent).execute ⟨0⟩ withView = .ok ⟨1, "Table 'L' created"⟩ db' ∧
      ∃ outcome, outcome.affected = 0 ∧
        (absentTable .persistent).execute ⟨0⟩ db' = .ok outcome db') ∧
    ∃ db', (absentTable .localTemporary).execute ⟨0⟩ withView =
        .ok ⟨1, "Table 'L' created"⟩ db' ∧
      ∃ e db'', (absentTable .localTemporary).execute ⟨0⟩ db' = .error e db'' ∧
        e.ReportsPresent := by
  have habsent : ∀ scope, (absentTable scope).IfAbsent := fun _ => rfl
  have hcreates : ∀ scope ∈ [TableScope.persistent, .localTemporary],
      Succeeds ((absentTable scope).execute ⟨0⟩) withView fun outcome _ =>
        outcome = ⟨1, "Table 'L' created"⟩ := by
    decide +kernel
  obtain ⟨_, kept, hkept, rfl⟩ := hcreates .persistent (by simp)
  obtain ⟨_, own, hown, rfl⟩ := hcreates .localTemporary (by simp)
  have hagain := ((habsent .persistent).repeatable ⟨0⟩ withView).again _ _ hkept
    (.inr fun hscope => by cases hscope)
  have hmeets := ((habsent .localTemporary).repeatable ⟨0⟩ withView).refused _ _ hown
    (by decide) rfl
  exact ⟨reachable_withView, ⟨kept, hkept, hagain⟩, own, hown,
    ((habsent .localTemporary).repeatable ⟨0⟩ own).reports.mpr hmeets⟩

end Statements

end SchemaCatalog
