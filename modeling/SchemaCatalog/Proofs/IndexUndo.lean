import SchemaCatalog.Proofs.Reachable
import SchemaCatalog.Proofs.SchemaCalls
/-!
# Dropping a new index

`DROP INDEX` undoes `CREATE INDEX`. The name of a new index is free where the index is kept, and a
given name is free in the schema as well, where `DROP INDEX` looks first. A name that is handed out
for an index of a local temporary table may be that of an index of the schema, and then `DROP INDEX`
takes the index of the schema.
-/
namespace SchemaCatalog

open Database Execution

variable {db db' db'' : Database} {c : SessionRef} {s : SchemaRef} {t i : ObjectRef} {name : String}
  {kept : Bool}

theorem findObject_eq_ok_iff {kind : ObjectKind} {o? : Option ObjectRef} :
    s.findObject kind name db = .ok o? ↔
      (db.schema s).state = .active ∧ o? = (db.space s kind).get? name := by
  rw [SchemaRef.findObject, look_bind_eq_ok_iff]
  constructor
  · rintro ⟨registry, hactive, h⟩
    obtain ⟨hstate, rfl⟩ := activeRegistry_eq_ok_iff.mp hactive
    cases h
    exact ⟨hstate, rfl⟩
  · rintro ⟨hactive, rfl⟩
    exact ⟨_, activeRegistry_eq hactive, rfl⟩

theorem findIndex_of_ok {session : Option SessionRef} {i? : Option ObjectRef}
    (h : s.findIndex session name db = .ok i?) : (db.schema s).state = .active ∧
      i? = ((db.space s .index).get? name).or
        (session.bind fun c => (db.session c).tempIndexes.get? name) := by
  cases hstate : (db.schema s).state with
  | active =>
    rw [Database.findIndex_eq hstate] at h
    exact ⟨rfl, (Except.ok.inj h).symm⟩
  | invalid =>
    rw [findIndex_of_invalid hstate] at h
    cases h

theorem active_of_getTable {session : Option SessionRef} (h : s.getTable session name db = .ok t) :
    (db.schema s).state = .active := by
  obtain ⟨t?, h, -⟩ := look_bind_eq_ok_iff.mp h
  rw [SchemaRef.findTable, read_bind_run] at h
  obtain ⟨o?, hfind, -⟩ := look_bind_eq_ok_iff.mp h
  exact (findObject_eq_ok_iff.mp hfind).1

private theorem addObject_eq_ok_iff {o : ObjectRef} (howner : (db.object o).schema = some s)
    (hs : s ∈ db.allSchemas) : addObject o db = .ok () db' ↔
      (db.schema s).state = .active ∧
        (db.space s (db.object o).kind).get? (db.nameOf o) = none ∧ db' = entered s o db := by
  rw [addObject, bind_of_ok (lift_of_ok (schemaOf_eq hs howner)), add_eq_ok_iff]
  simp [howner]

private theorem addTempIndex_eq_ok_iff : c.addTempIndex i db = .ok () db' ↔
    (db.session c).tempIndexes.get? (db.nameOf i) = none ∧ db' = indexKept c i db := by
  cases hfind : (db.session c).tempIndexes.get? (db.nameOf i) with
  | none =>
    rw [addTempIndex_eq hfind]
    simp [eq_comm]
  | some j =>
    have hcontains : (db.session c).tempIndexes.contains (db.object i).name = true :=
      Option.isSome_iff_exists.mpr ⟨j, hfind⟩
    rw [SessionRef.addTempIndex, get_bind_run]
    simp only [hcontains, if_true]
    exact iff_of_false (fun h => by cases h) (by simp)

/-- An index has been made and is kept by the session, or else by the schema, where its name was
free. Nothing else has changed, except for the reserved names of the schema. -/
structure IndexMade (c : SessionRef) (s : SchemaRef) (i : ObjectRef) (name : String) (kept : Bool)
    (db db' : Database) : Prop where
  free : if kept then (db.session c).tempIndexes.get? name = none
    else (db.space s .index).get? name = none
  schema : db'.schema s = { db.schema s with
    registry := if kept then (db.schema s).registry
      else (db.schema s).registry.modifySpace .index (·.insert name i)
    reservations := (db'.schema s).reservations }
  schemas : ∀ r, r ≠ s → db'.schema r = db.schema r
  session : db'.session c = { db.session c with
    tempIndexes := if kept then (db.session c).tempIndexes.insert name i
      else (db.session c).tempIndexes }
  sessions : ∀ d, d ≠ c → db'.session d = db.session d
  owner : (db'.object i).schema = some s
  kind : (db'.object i).kind = .index
  nameOf : db'.nameOf i = name
  objects : ∀ o, o ≠ i → db'.object o = db.object o
  rest : db' = { db with
    nextId := db'.nextId, objectStore := db'.objectStore, schemaStore := db'.schemaStore
    sessionStore := db'.sessionStore }

namespace IndexMade

section Made

variable {index : Index}

private theorem of_entered (hfree : (db.space s .index).get? name = none) :
    IndexMade c s db.nextObject name false db
      (entered s db.nextObject (db.withObject s name (.index index))) where
  free := hfree
  schema := by
    rw [entered, schema_modifySchema, if_pos rfl, Database.nameOf, object_nextObject]
    rfl
  schemas := by
    intro r hr
    rw [entered, schema_modifySchema, if_neg hr]
    rfl
  session := rfl
  sessions := fun _ _ => rfl
  owner := congrArg Object.schema object_nextObject
  kind := congrArg Object.kind object_nextObject
  nameOf := congrArg Object.name object_nextObject
  objects := fun o ho => object_withObject.trans (if_neg ho)
  rest := rfl

private theorem of_indexKept (hfree : (db.session c).tempIndexes.get? name = none) :
    IndexMade c s db.nextObject name true db
      (indexKept c db.nextObject (db.withObject s name (.index index))) where
  free := hfree
  schema := rfl
  schemas := fun _ _ => rfl
  session := by
    have hnew : (db.withObject s name (.index index)).nameOf db.nextObject = name :=
      congrArg Object.name object_nextObject
    rw [indexKept, session_modifySession, if_pos rfl, hnew]
    rfl
  sessions := by
    intro d hd
    rw [indexKept, session_modifySession, if_neg hd]
    rfl
  owner := congrArg Object.schema object_nextObject
  kind := congrArg Object.kind object_nextObject
  nameOf := congrArg Object.name object_nextObject
  objects := fun o ho => object_withObject.trans (if_neg ho)
  rest := rfl

end Made

theorem of_addTableIndex {columns : List String} {kind : IndexKind} (hs : s ∈ db.allSchemas)
    (h : addTableIndex c s t name columns kind db = .ok () db') :
    IndexMade c s db.nextObject name (db.tableOf t).isLocalTemporary db db' := by
  rw [addTableIndex, get_bind_run, bind_of_ok (newObject_run ..)] at h
  cases hlocal : (db.tableOf t).isLocalTemporary with
  | false =>
    have hasTable : (db.object t).asTable.isLocalTemporary = false := hlocal
    simp only [hasTable, Bool.false_eq_true, if_false] at h
    have hadd := statement_eq_ok_iff.mp h
    rw [addObject_eq_ok_iff (congrArg Object.schema object_nextObject) hs, Database.nameOf,
      object_nextObject] at hadd
    obtain ⟨-, hfree, rfl⟩ := hadd
    exact .of_entered hfree
  | true =>
    have hasTable : (db.object t).asTable.isLocalTemporary = true := hlocal
    simp only [hasTable, if_true] at h
    have hadd := statement_eq_ok_iff.mp h
    rw [addTempIndex_eq_ok_iff, Database.nameOf, object_nextObject] at hadd
    obtain ⟨hfree, rfl⟩ := hadd
    exact .of_indexKept hfree

/-- Names may be reserved before and given back after. -/
theorem withReservations {first : ReservationSet}
    (h : IndexMade c s i name kept (withReservations s first db) db') (last : ReservationSet) :
    IndexMade c s i name kept db (withReservations s last db') where
  free := by
    have hfree := h.free
    rwa [space_withReservations] at hfree
  schema := by
    have hschema := h.schema
    rw [Database.withReservations, schema_modifySchema, if_pos rfl] at hschema ⊢
    rw [hschema]
  schemas := by
    intro r hr
    have hschema := h.schemas r hr
    rw [Database.withReservations, schema_modifySchema, if_neg hr] at hschema ⊢
    exact hschema
  session := h.session
  sessions := h.sessions
  owner := h.owner
  kind := h.kind
  nameOf := h.nameOf
  objects := h.objects
  rest := congrArg (fun mid : Database =>
    { mid with schemaStore := (Database.withReservations s last db').schemaStore }) h.rest

end IndexMade

section Create

variable {definition : IndexDefinition} {outcome : Outcome}

private theorem made_of_createNamedIndex
    (h : createNamedIndex c s t definition name db = .ok outcome db') (hs : s ∈ db.allSchemas) :
    outcome = ⟨1, s!"Index '{name}' created"⟩ ∧
      IndexMade c s db.nextObject name (db.tableOf t).isLocalTemporary db db' := by
  obtain ⟨⟨⟩, mid, hadd, h⟩ := bind_eq_ok_iff.mp h
  cases h
  exact ⟨rfl, .of_addTableIndex hs hadd⟩

private theorem made_of_withIndexName {stem : String}
    (h : withIndexName c s t stem (createNamedIndex c s t definition) db = .ok outcome db')
    (hs : s ∈ db.allSchemas) : ∃ name, outcome = ⟨1, s!"Index '{name}' created"⟩ ∧
      IndexMade c s db.nextObject name (db.tableOf t).isLocalTemporary db db' := by
  obtain ⟨r, mid, hreserve, h⟩ := bind_eq_ok_iff.mp h
  obtain ⟨-, live, -, hreserve⟩ :=
    SchemaCall.reserve_of_uniqueIndexName (statement_eq_ok_iff.mp hreserve)
  obtain ⟨-, -, -, rfl⟩ := granted_of_reserve hreserve
  rw [releasing] at h
  split at h
  next outcome' mid' hcreate =>
    cases h
    obtain ⟨houtcome, hmade⟩ := made_of_createNamedIndex hcreate hs
    rw [release_eq]
    exact ⟨r.name, houtcome, hmade.withReservations _⟩
  next => cases h

/-- `CREATE INDEX` has found a schema and a table and has made an index. A name that was given to it
was free in the schema. -/
theorem made_of_createIndex (h : createIndex c definition db = .ok outcome db')
    (haffected : outcome.affected = 1) : ∃ s t name, db.findSchema definition.schema = some s ∧
      s.getTable (some c) definition.table db = .ok t ∧
      outcome = ⟨1, s!"Index '{name}' created"⟩ ∧
      IndexMade c s db.nextObject name (db.tableOf t).isLocalTemporary db db' ∧
      ∀ given, definition.indexName = some given →
        name = given ∧ (db.space s .index).get? name = none := by
  rw [createIndex, bind_eq_ok_iff] at h
  obtain ⟨s, mid, hschema, h⟩ := h
  obtain ⟨rfl, hname⟩ := (getSchema_settles db definition.schema).post_of_ok hschema
  have hs := mem_allSchemas_of_find hname
  rw [bind_eq_ok_iff] at h
  obtain ⟨t, mid, htable, h⟩ := h
  obtain ⟨htable, rfl⟩ := statement_look_eq_ok_iff.mp htable
  cases hgiven : definition.indexName with
  | none =>
    simp only [hgiven] at h
    obtain ⟨name, houtcome, hmade⟩ := made_of_withIndexName h hs
    exact ⟨s, t, name, hname, htable, houtcome, hmade, fun given heq => by cases heq⟩
  | some name =>
    simp only [hgiven, bind_eq_ok_iff] at h
    obtain ⟨⟨⟩, mid, hvalid, i?, mid', hfind, h⟩ := h
    obtain ⟨rfl, -⟩ := (validateName_settles "index" name _).post_of_ok hvalid
    obtain ⟨hfind, rfl⟩ := statement_look_eq_ok_iff.mp hfind
    obtain ⟨-, rfl⟩ := findIndex_of_ok hfind
    split at h
    next hfree =>
      obtain ⟨houtcome, hmade⟩ := made_of_createNamedIndex h hs
      refine ⟨s, t, name, hname, htable, houtcome, hmade, fun given heq => ?_⟩
      obtain rfl := Option.some.inj heq
      exact ⟨rfl, (Option.or_eq_none_iff.mp (Option.isNone_iff_eq_none.mp hfree)).1⟩
    next =>
      split at h
      · cases h
        cases haffected
      · cases h

end Create

section Drop

variable {ifExists : Bool} {schemaName : String}

/-- The database as it was, apart from an object that nothing holds any more, the ids given out
since, and the reserved names of a schema. -/
structure Restored (s : SchemaRef) (i : ObjectRef) (db db' : Database) : Prop where
  objects : ∀ o, o ≠ i → db'.object o = db.object o
  schema : db'.schema s = { db.schema s with reservations := (db'.schema s).reservations }
  schemas : ∀ r, r ≠ s → db'.schema r = db.schema r
  sessions : ∀ c, db'.session c = db.session c
  rest : db' = { db with
    nextId := db'.nextId, objectStore := db'.objectStore, schemaStore := db'.schemaStore
    sessionStore := db'.sessionStore }

/-- `DROP INDEX` takes the index that the schema has under the name. -/
private theorem dropIndex_of_find (hname : db.findSchema schemaName = some s)
    (hactive : (db.schema s).state = .active) (howner : (db.object i).schema = some s)
    (hkind : (db.object i).kind = .index)
    (hnameOf : db.nameOf i = name) (hfind : (db.space s .index).get? name = some i) :
    dropIndex c schemaName name ifExists db =
      .ok ⟨1, s!"Index '{name}' dropped"⟩ (detached s db i) := by
  have hlook : s.findIndex none name db = .ok (some i) := by
    rw [Database.findIndex_eq hactive, hfind]
    rfl
  have hrun : removeObject (some c) i db = .ok () (detached s db i) := by
    rw [removeObject_of_other (by rw [hkind]; decide), detachObject,
      bind_of_ok (lift_of_ok (schemaOf_eq (mem_allSchemas_of_find hname) howner))]
    refine detach_eq hactive ?_
    rw [hkind, hnameOf]
    exact hfind
  rw [dropIndex, bind_of_ok (statement_look_of_ok (getSchema_eq hname)),
    bind_of_ok (statement_look_of_ok hlook)]
  exact bind_of_ok (statement_of_ok hrun)

/-- `DROP INDEX` takes the index that the session keeps under the name if the schema has none. -/
private theorem dropIndex_of_kept (hname : db.findSchema schemaName = some s)
    (hactive : (db.schema s).state = .active) (hfree : (db.space s .index).get? name = none)
    (hkept : (db.session c).tempIndexes.get? name = some i) :
    dropIndex c schemaName name ifExists db = .ok ⟨1, s!"Index '{name}' dropped"⟩
      ((indexForgotten c name db).modifyObject i Object.invalidate) := by
  have hlook : s.findIndex none name db = .ok none := by
    rw [Database.findIndex_eq hactive, hfree]
    rfl
  have hdrop : c.dropTempIndex name db =
      (some i, (indexForgotten c name db).modifyObject i Object.invalidate) := by
    have hfind : c.tempIndex? name db = some i := hkept
    rw [SessionRef.dropTempIndex, hfind]
    rfl
  rw [dropIndex, bind_of_ok (statement_look_of_ok (getSchema_eq hname)),
    bind_of_ok (statement_look_of_ok hlook)]
  exact bind_of_ok (modifyGet_run hdrop)

namespace IndexMade

theorem findSchema_eq (h : IndexMade c s i name kept db db') (schemaName : String) :
    db'.findSchema schemaName = db.findSchema schemaName := by
  rw [h.rest]
  rfl

theorem state_eq (h : IndexMade c s i name kept db db') :
    (db'.schema s).state = (db.schema s).state := by
  rw [h.schema]

theorem space_eq (h : IndexMade c s i name kept db db') : db'.space s .index =
    if kept then db.space s .index else (db.space s .index).insert name i := by
  rw [space, h.schema]
  cases kept <;> rfl

/-- Dropping the index of a schema by its name. -/
private theorem restored_detached (h : IndexMade c s i name false db db') :
    Restored s i db (detached s db' i) where
  objects := by
    intro o ho
    rw [object_detached, if_neg ho, h.objects o ho]
  schema := by
    have hregistry : (db'.schema s).registry.modifySpace .index (·.erase name) =
        (db.schema s).registry := by
      rw [h.schema]
      exact congrArg (fun indexes => { (db.schema s).registry with indexes })
        (NameMap.erase_insert h.free i)
    have hschema := h.schema
    rw [schema_detached, if_pos rfl, h.kind, h.nameOf, hregistry]
    rw [hschema]
    rfl
  schemas := by
    intro r hr
    rw [schema_detached, if_neg hr, h.schemas r hr]
  sessions := by
    intro d
    by_cases hd : d = c
    · rw [hd]
      exact h.session
    · exact h.sessions d hd
  rest := congrArg (fun mid : Database => { mid with
    objectStore := (detached s db' i).objectStore
    schemaStore := (detached s db' i).schemaStore }) h.rest

private theorem restored_forgotten (h : IndexMade c s i name true db db') :
    Restored s i db ((indexForgotten c name db').modifyObject i Object.invalidate) where
  objects := by
    intro o ho
    rw [object_modifyObject, if_neg ho]
    exact h.objects o ho
  schema := h.schema
  schemas := h.schemas
  sessions := by
    intro d
    change (indexForgotten c name db').session d = _
    rw [indexForgotten, session_modifySession]
    split
    next hd =>
      rw [hd, h.session]
      exact congrArg (fun tempIndexes => { db.session c with tempIndexes })
        (NameMap.erase_insert h.free i)
    next hd => exact h.sessions d hd
  rest := congrArg (fun mid : Database => { mid with
    objectStore := (db'.modifyObject i Object.invalidate).objectStore
    sessionStore := (indexForgotten c name db').sessionStore }) h.rest

/-- Dropping an index that was just made, where the schema has no other index with its name. -/
private theorem dropIndex_run {schemaName : String} (h : IndexMade c s i name kept db db')
    (hname : db.findSchema schemaName = some s) (hactive : (db.schema s).state = .active)
    (hfree : (db.space s .index).get? name = none) (ifExists : Bool) :
    ∃ db'', dropIndex c schemaName name ifExists db' =
        .ok ⟨1, s!"Index '{name}' dropped"⟩ db'' ∧
      db''.object i = (db'.object i).invalidate ∧ Restored s i db db'' := by
  have hname' : db'.findSchema schemaName = some s := (h.findSchema_eq schemaName).trans hname
  have hactive' : (db'.schema s).state = .active := h.state_eq.trans hactive
  cases kept with
  | false =>
    have hfind : (db'.space s .index).get? name = some i := by
      rw [h.space_eq]
      exact (NameMap.get?_insert ..).trans (if_pos rfl)
    refine ⟨_, dropIndex_of_find hname' hactive' h.owner h.kind h.nameOf hfind, ?_,
      h.restored_detached⟩
    rw [object_detached, if_pos rfl]
  | true =>
    have hfree' : (db'.space s .index).get? name = none := by
      rw [h.space_eq]
      exact hfree
    have hkept : (db'.session c).tempIndexes.get? name = some i := by
      rw [h.session]
      exact (NameMap.get?_insert ..).trans (if_pos rfl)
    refine ⟨_, dropIndex_of_kept hname' hactive' hfree' hkept, ?_, h.restored_forgotten⟩
    rw [object_modifyObject, if_pos rfl]
    rfl

end IndexMade

/-- `DROP INDEX` undoes `CREATE INDEX` in every database, unless the index got its name from a local
temporary table and the schema has an index with this name. -/
theorem dropIndex_createIndex {definition : IndexDefinition} {outcome : Outcome}
    (hcreate : (Statement.createIndex definition).execute c db = .ok outcome db')
    (haffected : outcome.affected = 1) :
    ∃ s t name, db.findSchema definition.schema = some s ∧
      s.getTable (some c) definition.table db = .ok t ∧
      outcome = ⟨1, s!"Index '{name}' created"⟩ ∧
      (∀ given, definition.indexName = some given → name = given) ∧
      IndexMade c s db.nextObject name (db.tableOf t).isLocalTemporary db db' ∧
      ((definition.indexName = none → (db.tableOf t).isLocalTemporary = true →
          (db.space s .index).get? name = none) →
        ∀ ifExists, ∃ db'',
          (Statement.dropIndex definition.schema name ifExists).execute c db' =
            .ok ⟨1, s!"Index '{name}' dropped"⟩ db'' ∧
          db''.object db.nextObject = (db'.object db.nextObject).invalidate ∧
          Restored s db.nextObject db db'') := by
  obtain ⟨s, t, name, hname, htable, houtcome, hmade, hgiven⟩ :=
    made_of_createIndex hcreate haffected
  refine ⟨s, t, name, hname, htable, houtcome, fun given heq => (hgiven given heq).1, hmade,
    fun hunnamed ifExists => ?_⟩
  refine hmade.dropIndex_run hname (active_of_getTable htable) ?_ ifExists
  cases hindexName : definition.indexName with
  | some given => exact (hgiven given hindexName).2
  | none =>
    cases hlocal : (db.tableOf t).isLocalTemporary with
    | true => exact hunnamed hindexName hlocal
    | false =>
      have hfree := hmade.free
      rwa [hlocal] at hfree

end Drop

section Example

/-- Make a table with an index, and a local temporary table. -/
def indexActions : List Action :=
  [.openSession ⟨1, "SA"⟩,
    .execute ⟨0⟩ (.createSchema "APP" false),
    .execute ⟨0⟩ (.createTable
      { schema := "APP", tableName := "P", columns := [.plain "A" "INT"], kind := .table,
        scope := .persistent, references := [], ifNotExists := false }),
    .execute ⟨0⟩ (.createIndex
      { schema := "APP", table := "P", indexName := some "INDEX_B", columns := ["A"],
        kind := .nonUnique, ifNotExists := false }),
    .execute ⟨0⟩ (.createTable
      { schema := "APP", tableName := "T", columns := [.plain "A" "INT"], kind := .table,
        scope := .localTemporary, references := [], ifNotExists := false })]

/-- The database with an index in the schema and a local temporary table in the session. -/
def withIndex : Database :=
  indexActions.foldl (fun db action => action.run db) (bootstrap .standard)

private theorem reachable_withIndex : Reachable withIndex := by
  rw [withIndex, indexActions]
  simp only [List.foldl_cons, List.foldl_nil]
  refine .act (.act (.act (.act (.act (.new .standard) _ ?_) _ ?_) _ ?_) _ ?_) _ ?_
  all_goals decide +kernel

/-- An index on the local temporary table, with a name or without. -/
def tempIndexDefinition (indexName : Option String) : IndexDefinition :=
  { schema := "APP", table := "T", indexName, columns := ["A"], kind := .nonUnique,
    ifNotExists := false }

theorem dropIndex_createIndex_withIndex : ∃ db' db'',
    (Statement.createIndex (tempIndexDefinition (some "I"))).execute ⟨0⟩ withIndex =
      .ok ⟨1, "Index 'I' created"⟩ db' ∧
    (Statement.dropIndex "APP" "I" false).execute ⟨0⟩ db' =
      .ok ⟨1, "Index 'I' dropped"⟩ db'' ∧
    Restored ⟨2⟩ ⟨3⟩ withIndex db'' := by
  have hsucceeds : Succeeds
      ((Statement.createIndex (tempIndexDefinition (some "I"))).execute ⟨0⟩) withIndex
      fun outcome _ => outcome = ⟨1, "Index 'I' created"⟩ := by
    decide +kernel
  obtain ⟨_, db', hcreate, rfl⟩ := hsucceeds
  obtain ⟨s, t, name, hname, -, -, hgiven, -, hdrop⟩ := dropIndex_createIndex hcreate rfl
  obtain rfl := hgiven "I" rfl
  obtain ⟨db'', hrun, -, hrestored⟩ := hdrop (fun hnone => by cases hnone) false
  have hs : withIndex.findSchema "APP" = some ⟨2⟩ := by decide +kernel
  obtain rfl := Option.some.inj (hname.symm.trans hs)
  exact ⟨db', db'', hcreate, hrun, hrestored⟩

/-- An index without a name on a local temporary table gets a name that the schema has an index
under, and `DROP INDEX` takes that one and leaves the new one. -/
theorem dropIndex_takes_other : Reachable withIndex ∧
    (withIndex.space ⟨2⟩ .index).values = [⟨1⟩] ∧
    (withIndex.session ⟨0⟩).tempIndexes.values = [] ∧
    Succeeds ((Statement.createIndex (tempIndexDefinition none)).execute ⟨0⟩) withIndex
      fun outcome db' => outcome = ⟨1, "Index 'INDEX_B' created"⟩ ∧
        Succeeds ((Statement.dropIndex "APP" "INDEX_B" false).execute ⟨0⟩) db'
          fun outcome' db'' => outcome' = ⟨1, "Index 'INDEX_B' dropped"⟩ ∧
            (db''.space ⟨2⟩ .index).values = [] ∧
            (db''.session ⟨0⟩).tempIndexes.values = [⟨3⟩] :=
  ⟨reachable_withIndex, by decide +kernel, by decide +kernel, by decide +kernel⟩

end Example

end SchemaCatalog
