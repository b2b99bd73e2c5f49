import SchemaCatalog.Product
import SchemaCatalog.Schema.Basic
import SchemaCatalog.Session.Basic
import SchemaCatalog.Store
/-!
# Databases

The whole state: settings, the counter for object ids, the registered schemas and users, the open
sessions, and everything that was ever made, in the slot that identifies it. Look-ups read the
state and may fail; updates may also change it, and keep what they changed before they failed.
-/
namespace SchemaCatalog

structure Database where
  settings : Settings
  /-- The number of the next id for users, schemas and objects; ids repeat after `2 ^ 32`. -/
  nextId : Nat
  /-- The registered schemas by name. -/
  schemas : NameMap SchemaRef
  users : NameMap User
  /-- The administrator, who owns the system schemas. -/
  admin : Principal
  /-- The registered sessions in the order in which they were opened. -/
  openSessions : List SessionRef
  objectStore : Store Object
  schemaStore : Store Schema
  sessionStore : Store Session
deriving DecidableEq, Inhabited

/-- Reads a database. -/
abbrev Lookup := ReaderT Database (Except CatalogError)

/-- Reads and changes a database. -/
abbrev CatalogM := EStateM CatalogError Database

instance : MonadLift Lookup CatalogM where
  monadLift look := fun db =>
    match look db with
    | .ok a => .ok a db
    | .error e => .error e db

namespace Database

def rule (db : Database) : CaseRule :=
  db.settings.rule

def object (db : Database) (o : ObjectRef) : Object :=
  db.objectStore.get o.slot

def schema (db : Database) (s : SchemaRef) : Schema :=
  db.schemaStore.get s.slot

def session (db : Database) (c : SessionRef) : Session :=
  db.sessionStore.get c.slot

def modifyObject (db : Database) (o : ObjectRef) (change : Object → Object) : Database :=
  { db with objectStore := db.objectStore.modify o.slot change }

def modifySchema (db : Database) (s : SchemaRef) (change : Schema → Schema) : Database :=
  { db with schemaStore := db.schemaStore.modify s.slot change }

def modifySession (db : Database) (c : SessionRef) (change : Session → Session) : Database :=
  { db with sessionStore := db.sessionStore.modify c.slot change }

/-- Give out an object id. -/
def allocateId (db : Database) : UInt32 × Database :=
  (UInt32.ofNat db.nextId, { db with nextId := db.nextId + 1 })

/-- Make an object without registering it. -/
def newObject (db : Database) (object : Object) : ObjectRef × Database :=
  let (slot, objectStore) := db.objectStore.push object
  (⟨slot⟩, { db with objectStore })

/-- Make a schema without registering it. -/
def newSchema (db : Database) (schema : Schema) : SchemaRef × Database :=
  let (slot, schemaStore) := db.schemaStore.push schema
  (⟨slot⟩, { db with schemaStore })

/-- The name of an object. -/
def nameOf (db : Database) (o : ObjectRef) : String :=
  (db.object o).name

/-- The table of an object. -/
def tableOf (db : Database) (o : ObjectRef) : Table :=
  (db.object o).asTable

/-- The index of an object. -/
def indexOf (db : Database) (o : ObjectRef) : Index :=
  (db.object o).asIndex

/-- Set up a schema of the administrator under its name. -/
def addSystemSchema (db : Database) (name : String) : Database :=
  let (id, db) := db.allocateId
  let (s, db) := db.newSchema (.create id name (some db.admin) true db.rule)
  { db with schemas := db.schemas.insert name s }

/-- A new database with its administrator and the two system schemas. -/
def bootstrap (settings : Settings) : Database :=
  let admin : User := ⟨1, settings.adminUser, true⟩
  let start : Database :=
    { settings, nextId := 2, admin := admin.principal, schemas := .empty settings.rule,
      users := (NameMap.empty settings.rule).insert admin.name admin, openSessions := [],
      objectStore := .empty, schemaStore := .empty, sessionStore := .empty }
  (start.addSystemSchema settings.mainSchema).addSystemSchema settings.infoSchema

theorem object_modifyObject (db : Database) (o other : ObjectRef) (change : Object → Object) :
    (db.modifyObject o change).object other =
      if other = o then change (db.object o) else db.object other := by
  obtain ⟨slot⟩ := o
  obtain ⟨slot'⟩ := other
  simp [object, modifyObject, Store.get_modify]

theorem schema_modifySchema (db : Database) (s other : SchemaRef) (change : Schema → Schema) :
    (db.modifySchema s change).schema other =
      if other = s then change (db.schema s) else db.schema other := by
  obtain ⟨slot⟩ := s
  obtain ⟨slot'⟩ := other
  simp [schema, modifySchema, Store.get_modify]

theorem session_modifySession (db : Database) (c other : SessionRef)
    (change : Session → Session) :
    (db.modifySession c change).session other =
      if other = c then change (db.session c) else db.session other := by
  obtain ⟨slot⟩ := c
  obtain ⟨slot'⟩ := other
  simp [session, modifySession, Store.get_modify]

end Database

end SchemaCatalog
