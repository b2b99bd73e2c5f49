import SchemaCatalog.Proofs.Reservations
import SchemaCatalog.Proofs.Teardown
/-!
# Dropping a schema

A schema is dropped as a whole or not at all. It goes exactly when no table outside reads one of its
tables and they do not read each other in a cycle; then its objects go with it, and the names that
they had are no longer reserved.
-/
namespace SchemaCatalog

namespace Database

section Detached

variable {db : Database} {s : SchemaRef}

/-- Detaching frees the names of the objects in the schema. -/
theorem frees_detachedAll (s : SchemaRef) (objects : List ObjectRef) (db : Database) :
    (db.schema s).reservations.Frees
      (fun key => ∃ o ∈ objects, key = (db.schema s).reservations.key (db.nameOf o))
      ((detachedAll s objects db).schema s).reservations := by
  induction objects generalizing db with
  | nil => exact ⟨rfl, rfl, by simp, fun _ _ => rfl⟩
  | cons o objects ih =>
    have hfirst : ((detached s db o).schema s).reservations =
        (db.schema s).reservations.free (db.nameOf o) := by
      rw [schema_detached, if_pos rfl]
      rfl
    have hrest := ih (detached s db o)
    rw [hfirst] at hrest
    have hboth := ((db.schema s).reservations.frees_free (db.nameOf o)).trans hrest
    have hkeys : (fun key => ∃ o' ∈ o :: objects,
        key = (db.schema s).reservations.key (db.nameOf o')) = fun key =>
        key = (db.schema s).reservations.key (db.nameOf o) ∨ ∃ o' ∈ objects,
          key = ((db.schema s).reservations.free (db.nameOf o)).key
            ((detached s db o).nameOf o') := by
      funext key
      simp only [List.mem_cons, exists_eq_or_imp, nameOf_detached]
      rfl
    rw [hkeys]
    exact hboth

theorem rule_detachedAll (s : SchemaRef) (objects : List ObjectRef) (db : Database)
    (kind : ObjectKind) :
    ((detachedAll s objects db).space s kind).rule = (db.space s kind).rule := by
  induction objects generalizing db with
  | nil => rfl
  | cons o objects ih =>
    change ((detachedAll s objects (detached s db o)).space s kind).rule = _
    rw [ih, space_detached]
    split <;> rfl

end Detached

/-- Dropping the schema with this name: what it held is cut off, the names of what it held are no
longer reserved in it, and the rest of the database stays. -/
structure Dropped (name : String) (s : SchemaRef) (db db' : Database) : Prop where
  emptied : ∀ kind, db'.space s kind = .empty (db.space s kind).rule
  unregistered : s ∉ db'.allSchemas
  invalidated : ∀ o, db.Holds s o → db'.object o = (db.object o).invalidate
  freed : (db.schema s).reservations.Frees
    (fun key => ∃ o, db.Holds s o ∧ key = (db.schema s).reservations.key (db.nameOf o))
    (db'.schema s).reservations
  schema : db'.schema s = { db.schema s with
    state := .invalid, owner := none,
    registry := (db'.schema s).registry, reservations := (db'.schema s).reservations }
  schemas : db'.schemas = db.schemas.erase name
  otherSchemas : ∀ r, r ≠ s → db'.schema r = db.schema r
  otherObjects : ∀ o, ¬ db.Holds s o → db'.object o = db.object o
  objectCount : db'.objectStore.next = db.objectStore.next
  schemaCount : db'.schemaStore.next = db.schemaStore.next
  rest : db' = { db with
    schemas := db'.schemas, objectStore := db'.objectStore, schemaStore := db'.schemaStore }

theorem Dropped.nextId_eq {name : String} {s : SchemaRef} {db db' : Database}
    (h : Dropped name s db db') : db'.nextId = db.nextId := by
  rw [h.rest]

section Drop

variable {db db' : Database} {s : SchemaRef} {name : String} {session : Option SessionRef}

/-- The database without a schema, whose objects are detached. -/
def schemaRemoved (s : SchemaRef) (name : String) (objects : List ObjectRef) (db : Database) :
    Database :=
  { (detachedAll s objects db).modifySchema s Schema.invalidate with
    schemas := db.schemas.erase name }

private theorem Consistent.not_mem_erase (h : db.Consistent) (hname : db.findSchema name = some s) :
    s ∉ (db.schemas.erase name).values := by
  intro hmem
  have hkeyed := (h.schemas.erase name).mem_values_iff.mp hmem
  rw [NameMap.get?_erase, if_pos (h.schemas.key_of_get? hname)] at hkeyed
  cases hkeyed

private theorem Live.dropped_schemaRemoved (h : db.Live s) (hname : db.findSchema name = some s)
    {objects : List ObjectRef} (hall : ∀ o, o ∈ objects ↔ db.Holds s o)
    (hempty : ∀ kind, ((detachedAll s objects db).space s kind).values = []) :
    Dropped name s db (schemaRemoved s name objects db) := by
  have hframe := frame_detachedAll s objects db
  have hschema : ∀ r, (schemaRemoved s name objects db).schema r =
      if r = s then ((detachedAll s objects db).schema s).invalidate
      else (detachedAll s objects db).schema r := fun r =>
    schema_modifySchema (detachedAll s objects db) s r Schema.invalidate
  have hs := hschema s
  rw [if_pos rfl] at hs
  have hobject : ∀ o, (schemaRemoved s name objects db).object o =
      if o ∈ objects then (db.object o).invalidate else db.object o := fun o =>
    object_detachedAll s objects db o
  have hspace : ∀ kind, (schemaRemoved s name objects db).space s kind =
      (detachedAll s objects db).space s kind := by
    intro kind
    rw [space, hs]
    rfl
  exact {
    emptied := by
      intro kind
      have hrule := rule_detachedAll s objects db kind
      have hentries := SortedMap.eq_empty_of_values (hempty kind)
      rw [hspace, NameMap.empty, ← hrule, ← hentries]
    unregistered := h.consistent.not_mem_erase hname
    invalidated := by
      intro o ho
      rw [hobject, if_pos ((hall o).mpr ho)]
    freed := by
      have hfrees := frees_detachedAll s objects db
      simp only [hall] at hfrees
      rw [hs]
      exact hfrees
    schema := by
      rw [hs, hframe.schema]
      rfl
    schemas := rfl
    otherSchemas := by
      intro r hr
      rw [hschema, if_neg hr, schema_detachedAll_of_ne objects db hr]
    otherObjects := by
      intro o ho
      rw [hobject, if_neg fun hin => ho ((hall o).mp hin)]
    objectCount := hframe.objectCount
    schemaCount := hframe.schemaCount
    rest := by
      rw [schemaRemoved, hframe.rest]
      rfl }

theorem getSchema_eq (hname : db.findSchema name = some s) : getSchema name db = .ok s := by
  rw [getSchema, read_bind_run]
  simp only [hname]
  rfl

theorem getSchema_of_none (hname : db.findSchema name = none) :
    getSchema name db = .error (.schemaNotFound name) := by
  rw [getSchema, read_bind_run]
  simp only [hname]
  rfl

/-- A system schema is refused before anything is done. -/
theorem dropSchema_of_system (hname : db.findSchema name = some s)
    (hsystem : (db.schema s).system = true) :
    dropSchema session name db = .error (.systemSchema name) db := by
  rw [dropSchema, bind_of_ok (lift_of_ok (getSchema_eq hname)), get_bind_run]
  simp only [hsystem, if_true]
  rfl

/-- Dropping a schema that may be dropped comes down to emptying it. -/
theorem dropSchema_run (hname : db.findSchema name = some s)
    (hsystem : (db.schema s).system = false) :
    dropSchema session name db =
      match removeChildren host session s (db, ()) with
      | .ok _ (db', _) => .ok () { db' with schemas := db'.schemas.erase name }
      | .error e (db', _) => .error e db' := by
  rw [dropSchema, bind_of_ok (lift_of_ok (getSchema_eq hname)), get_bind_run]
  simp only [hsystem, Bool.false_eq_true, if_false]
  rw [bind_run, HostM.onDatabase]
  cases removeChildren host session s (db, ()) <;> rfl

theorem Live.dropSchema_of_droppable (h : db.Live s) (session : Option SessionRef)
    (hname : db.findSchema name = some s) (hsystem : (db.schema s).system = false)
    (hpermanent : db.Permanent) (hdroppable : db.Droppable s) :
    ∃ db', dropSchema session name db = .ok () db' ∧ Dropped name s db db' := by
  obtain ⟨objects, hall, hempty, hrun⟩ := h.removeChildren session hpermanent hdroppable
  refine ⟨schemaRemoved s name objects db, ?_, h.dropped_schemaRemoved hname hall hempty⟩
  rw [dropSchema_run hname hsystem, hrun, schemaRemoved, ← schemas_detachedAll s objects db]
  rfl

theorem Live.dropSchema_of_not_droppable (h : db.Live s) (session : Option SessionRef)
    (hname : db.findSchema name = some s) (hsystem : (db.schema s).system = false)
    (hdroppable : ¬ db.Droppable s) :
    ∃ e, dropSchema session name db = .error e db ∧ e.RefusesRemoval := by
  obtain ⟨e, hrun, he⟩ :=
    tableRemovalOrder_of_not_droppable h.consistent h.registered h.active hdroppable
  refine ⟨e, ?_, he⟩
  rw [dropSchema_run hname hsystem, SchemaCatalog.removeChildren, bind_of_error hrun]

/-- A registered schema that is not a system schema is dropped exactly when nothing outside reads
its tables and they do not read each other in a cycle. It is dropped as a whole, and a refusal
leaves everything as it was. -/
theorem dropSchema_all_or_nothing (h : db.Consistent) (hpermanent : db.Permanent)
    (session : Option SessionRef) (hname : db.findSchema name = some s)
    (hactive : (db.schema s).state = .active) (hsystem : (db.schema s).system = false) :
    ((∃ db', dropSchema session name db = .ok () db') ↔ db.Droppable s) ∧
      (∀ db', dropSchema session name db = .ok () db' → Dropped name s db db') ∧
      ∀ e db', dropSchema session name db = .error e db' → db' = db ∧ e.RefusesRemoval := by
  have hlive : db.Live s := ⟨h, mem_allSchemas_of_find hname, hactive⟩
  by_cases hdroppable : db.Droppable s
  · obtain ⟨db', hrun, hdropped⟩ :=
      hlive.dropSchema_of_droppable session hname hsystem hpermanent hdroppable
    refine ⟨⟨fun _ => hdroppable, fun _ => ⟨db', hrun⟩⟩, ?_, ?_⟩
    · intro db'' hrun'
      rw [hrun] at hrun'
      cases hrun'
      exact hdropped
    · intro e db'' hrun'
      rw [hrun] at hrun'
      cases hrun'
  · obtain ⟨e, hrun, he⟩ := hlive.dropSchema_of_not_droppable session hname hsystem hdroppable
    refine ⟨⟨?_, fun hd => absurd hd hdroppable⟩, ?_, ?_⟩
    · rintro ⟨db', hrun'⟩
      rw [hrun] at hrun'
      cases hrun'
    · intro db' hrun'
      rw [hrun] at hrun'
      cases hrun'
    · intro e' db' hrun'
      rw [hrun] at hrun'
      cases hrun'
      exact ⟨rfl, he⟩

end Drop

section Reserved

/-- Make an object and register it in its schema. -/
def registerNew (s : SchemaRef) (name : String) (body : ObjectBody) : CatalogM UInt32 := do
  let id ← modifyGet allocateId
  let o ← modifyGet fun db => db.newObject { id, name, schema := some s, body }
  s.add o
  return id

/-- Make a table, a view that reads it, an index on it, and a sequence under the name that the next
index of the table would get, and reserve this name for the index. -/
def reserveNameOfSequence : CatalogM Reservation := do
  let s ← createSchema "APP" ⟨1, "SA"⟩
  let t ← registerNew s "T" (.table
    { kind := .table, scope := .persistent, columns := [], checks := [], references := [] })
  let _ ← registerNew s "A_VIEW" (.table
    { kind := .view, scope := .persistent, columns := [], checks := [], references := [t] })
  let _ ← registerNew s "ON_T" (.index
    { tableId := t, tableName := "T", columns := [], kind := .nonUnique })
  let _ ← registerNew s "IDX_B" (.sequence .counting)
  s.uniqueName "T" .index "IDX_"

/-- A database with a sequence whose name is reserved for an index. -/
def withReservedName : Database :=
  match reserveNameOfSequence (bootstrap .standard) with
  | .ok _ db => db
  | .error _ db => db

theorem dropSchema_all_or_nothing_withReservedName :
    withReservedName.Consistent ∧ withReservedName.Permanent ∧
    withReservedName.findSchema "APP" = some ⟨2⟩ ∧
    withReservedName.Droppable ⟨2⟩ ∧ ∃ db', dropSchema none "APP" withReservedName = .ok () db' ∧
      Dropped "APP" ⟨2⟩ withReservedName db' := by
  have hconsistent : withReservedName.Consistent := by decide +kernel
  have hpermanent : withReservedName.Permanent := by decide +kernel
  have hname : withReservedName.findSchema "APP" = some ⟨2⟩ := by decide +kernel
  obtain ⟨hdroppable, hdropped, -⟩ := dropSchema_all_or_nothing hconsistent hpermanent none hname
    (by decide +kernel) (by decide +kernel)
  have hsucceeds : Succeeds (dropSchema none "APP") withReservedName fun _ _ => True := by
    decide +kernel
  obtain ⟨_, db', hrun, -⟩ := hsucceeds
  exact ⟨hconsistent, hpermanent, hname, hdroppable.mp ⟨db', hrun⟩, db', hrun, hdropped db' hrun⟩

/-- The name of the sequence is no longer reserved for the index once the schema is dropped. -/
theorem dropSchema_frees_name : withReservedName.Consistent ∧ withReservedName.Permanent ∧
    withReservedName.findSchema "APP" = some ⟨2⟩ ∧
    (withReservedName.schema ⟨2⟩).state = .active ∧ (withReservedName.schema ⟨2⟩).system = false ∧
    SchemaRef.isReserved ⟨2⟩ "IDX_B" withReservedName = true ∧
    Succeeds (dropSchema none "APP") withReservedName fun _ db' =>
      SchemaRef.isReserved ⟨2⟩ "IDX_B" db' = false := by
  decide +kernel

end Reserved

end Database

end SchemaCatalog
