import SchemaCatalog.Database.Basic
import SchemaCatalog.Session.Open
/-!
# Finding objects in a schema

Every look-up fails in an invalid schema. Tables and indexes that a schema does not have are also
looked for among the temporary ones of a session.
-/
namespace SchemaCatalog.SchemaRef

/-- The registry of an active schema. -/
def activeRegistry (s : SchemaRef) : Lookup Registry :=
  fun db => (db.schema s).activeRegistry

/-- This very object is registered here. -/
def contains (s : SchemaRef) (o : ObjectRef) : Lookup Bool := do
  let registry ← s.activeRegistry
  return registry.contains o ((← read).object o)

def findObject (s : SchemaRef) (kind : ObjectKind) (name : String) :
    Lookup (Option ObjectRef) := do
  return (← s.activeRegistry).find? kind name

/-- What a look-up found; nothing is an error. -/
def orNotFound (kind : ObjectKind) (name : String) : Option ObjectRef → Lookup ObjectRef
  | some o => return o
  | none => throw (.notFound kind name)

def getObject (s : SchemaRef) (kind : ObjectKind) (name : String) : Lookup ObjectRef := do
  orNotFound kind name (← s.findObject kind name)

/-- The table or view with a name, in the schema or else among the session's temporary tables. -/
def findTable (s : SchemaRef) (session : Option SessionRef) (name : String) :
    Lookup (Option ObjectRef) := do
  let db ← read
  match ← s.findObject .tableOrView name with
  | some t => return some t
  | none => return session.bind fun c => c.tempTable? name db

/-- The index with a name, in the schema or else among the session's temporary indexes. -/
def findIndex (s : SchemaRef) (session : Option SessionRef) (name : String) :
    Lookup (Option ObjectRef) := do
  let db ← read
  match ← s.findObject .index name with
  | some i => return some i
  | none => return session.bind fun c => c.tempIndex? name db

def getTable (s : SchemaRef) (session : Option SessionRef) (name : String) :
    Lookup ObjectRef := do
  orNotFound .tableOrView name (← s.findTable session name)

def getIndex (s : SchemaRef) (name : String) : Lookup ObjectRef := do
  orNotFound .index name (← s.findIndex none name)

/-- Every object of the schema. -/
def objects (s : SchemaRef) : Lookup (List ObjectRef) := do
  return (← s.activeRegistry).all

/-- The objects of one kind in the order of their keys. -/
def objectsOf (s : SchemaRef) (kind : ObjectKind) : Lookup (List ObjectRef) := do
  return ((← s.activeRegistry).space kind).values

/-- The tables and views in the order of their keys. -/
def tables (s : SchemaRef) : Lookup (List ObjectRef) :=
  s.objectsOf .tableOrView

/-- The object of a kind with the least key. -/
def firstOf (s : SchemaRef) (kind : ObjectKind) : Lookup (Option ObjectRef) := do
  return ((← s.activeRegistry).space kind).first?

/-- The name is handed out and not committed; this can be asked of an invalid schema too. -/
def isReserved (s : SchemaRef) (name : String) (db : Database) : Bool :=
  (db.schema s).reservations.isReserved name

end SchemaCatalog.SchemaRef
