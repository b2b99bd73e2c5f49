import SchemaCatalog.Schema.Lookup
/-!
# Changing a schema

Adding, renaming and removing objects, and handing out names. A name that is used or given up is
no longer reserved. A refused call leaves the database as it was.
-/
namespace SchemaCatalog.SchemaRef

/-- Register an object of this schema under its name. -/
def add (s : SchemaRef) (o : ObjectRef) : CatalogM Unit := do
  let registry ← s.activeRegistry
  let db ← get
  let object := db.object o
  match registry.add s o object with
  | .error e => throw e
  | .ok registry =>
    set (db.modifySchema s fun schema => { schema.freeName object.name with registry })

/-- Move a registered object to a new name. -/
def rename (s : SchemaRef) (o : ObjectRef) (newName : String) : CatalogM Unit := do
  let registry ← s.activeRegistry
  let db ← get
  let object := db.object o
  match registry.rename o object newName with
  | .error e => throw e
  | .ok registry =>
    set ((db.modifyObject o (Object.rename newName)).modifySchema s fun schema =>
      { (schema.freeName object.name).freeName newName with registry })

/-- Strike a registered object out. -/
def remove (s : SchemaRef) (o : ObjectRef) : CatalogM Unit := do
  let registry ← s.activeRegistry
  let db ← get
  let object := db.object o
  match registry.remove o object with
  | .error e => throw e
  | .ok registry =>
    set (db.modifySchema s fun schema => { schema.freeName object.name with registry })

/-- Strike a registered object out and cut it off from the schema. -/
def detach (s : SchemaRef) (o : ObjectRef) : CatalogM Unit := do
  s.remove o
  modify (·.modifyObject o Object.invalidate)

/-- Strike a name off the reserved ones, whoever holds it. -/
def freeName (s : SchemaRef) (name : String) (db : Database) : Database :=
  db.modifySchema s (·.freeName name)

/-- Give a reservation back. -/
def release (s : SchemaRef) (r : Reservation) (db : Database) : Database :=
  db.modifySchema s fun schema => { schema with reservations := schema.reservations.release r }

/-- Hand out a name that is neither live nor reserved. -/
def reserve (s : SchemaRef) (base stem : String) (live : NameMap ObjectRef) (db : Database) :
    Reservation × Database :=
  let (r, reservations) := (db.schema s).reservations.reserve base stem live.contains live.size
  (r, db.modifySchema s fun schema => { schema with reservations })

/-- Hand out a name that no object of a kind has. -/
def uniqueName (s : SchemaRef) (base : String) (kind : ObjectKind) (stem : String) :
    CatalogM Reservation := do
  let registry ← s.activeRegistry
  modifyGet (s.reserve base stem (registry.space kind))

/-- A session is needed to find the indexes of a local temporary table. -/
def sessionFor (session : Option SessionRef) (t : ObjectRef) : Lookup SessionRef := do
  match session with
  | some c => return c
  | none =>
    let name := (← read).nameOf t
    throw (.internalInvariant s!"local temporary table {name} needs a session")

/-- Hand out a name for an index of a table, which no other index kept in the same place has: in
the session for a local temporary table, in the schema for any other. -/
def uniqueIndexName (s : SchemaRef) (session : Option SessionRef) (t : ObjectRef)
    (stem : String) : CatalogM Reservation := do
  let base := (← get).nameOf t
  if ((← get).tableOf t).isLocalTemporary then
    let c ← sessionFor session t
    let _ ← s.activeRegistry
    let live := ((← get).session c).tempIndexes
    modifyGet (s.reserve base stem live)
  else
    s.uniqueName base .index stem

/-- Tables are made by statements; a schema makes none on its own. -/
def createTable (s : SchemaRef) (tableName : String) : CatalogM ObjectRef := do
  let name := ((← get).schema s).name
  throw (.unsupported s!"create table {name}.{tableName} at the catalog layer")

end SchemaCatalog.SchemaRef
