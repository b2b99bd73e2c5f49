import SchemaCatalog.Database.Schemas
import SchemaCatalog.Schema.Update
/-!
# Objects of a database

Adding, renaming and removing objects wherever they live. A table that another one still reads is
not removed, and a removed table takes its indexes with it.
-/
namespace SchemaCatalog.Database

/-- The registered schema an object belongs to. -/
def schemaOf (o : ObjectRef) : Lookup SchemaRef := do
  let db ← read
  let object := db.object o
  match object.schema with
  | none => throw (.internalInvariant (object.title ++ " has no schema"))
  | some s =>
    if db.allSchemas.contains s then return s
    else throw (.internalInvariant (object.title ++ " refers to an unregistered schema"))

/-- The tables and views of a schema; an invalid one has none. -/
def tablesIn (db : Database) (s : SchemaRef) : List ObjectRef :=
  match s.tables db with
  | .ok tables => tables
  | .error _ => []

/-- The tables and views of all registered schemas, schema by schema. -/
def allTables (db : Database) : List ObjectRef :=
  db.allSchemas.flatMap db.tablesIn

/-- The first table reads the second and has another id. -/
def dependsOn (db : Database) (dependent t : ObjectRef) : Bool :=
  (db.object dependent).id ≠ (db.object t).id &&
    (db.tableOf dependent).dependsOn (db.object t).id

/-- The registered tables that read a table, itself apart. -/
def dependentsOf (db : Database) (t : ObjectRef) : List ObjectRef :=
  db.allTables.filter fun dependent => db.dependsOn dependent t

def hasDependents (db : Database) (t : ObjectRef) : Bool :=
  db.allTables.any fun dependent => db.dependsOn dependent t

/-- The first table that reads `t` and has another id than `skip`. -/
def findDependent (db : Database) (t skip : ObjectRef) : Option ObjectRef :=
  (db.dependentsOf t).find? fun dependent => (db.object dependent).id ≠ (db.object skip).id

/-- The indexes of a table: those of a local temporary table are in its session. -/
def indexesOf (session : Option SessionRef) (t : ObjectRef) : Lookup (List ObjectRef) := do
  let db ← read
  let id := (db.object t).id
  if (db.tableOf t).isLocalTemporary then
    let c ← SchemaRef.sessionFor session t
    return c.tempIndexesOf id db
  else
    let s ← schemaOf t
    return (← s.objectsOf .index).filter fun i => (db.indexOf i).tableId = id

def addObject (o : ObjectRef) : CatalogM Unit := do
  let s ← schemaOf o
  s.add o

/-- Rename an object; a taken name is the user's fault. -/
def renameObject (o : ObjectRef) (newName : String) : CatalogM Unit := do
  let s ← schemaOf o
  let kind := ((← get).object o).kind
  if (← s.findObject kind newName).isSome then
    throw (.alreadyExists kind newName)
  s.rename o newName

/-- Drop the local temporary table that the session keeps under the name of `t`. -/
def removeTempTable (session : Option SessionRef) (t : ObjectRef) : CatalogM Unit := do
  let c ← SchemaRef.sessionFor session t
  let name := (← get).nameOf t
  match ← modifyGet (c.dropTempTable name) with
  | some _ => return
  | none => throw (.notFound .tableOrView name)

/-- Strike an object out of its schema and cut it off. -/
def detachObject (o : ObjectRef) : CatalogM Unit := do
  let s ← schemaOf o
  s.detach o

/-- Drop a table or view that no other table reads, with its indexes. -/
def removeTable (session : Option SessionRef) (t : ObjectRef) : CatalogM Unit := do
  let db ← get
  match db.findDependent t t with
  | some dependent => throw (.cannotDrop (db.nameOf t) (db.nameOf dependent))
  | none =>
    if (db.tableOf t).isLocalTemporary then
      removeTempTable session t
    else
      let s ← schemaOf t
      let indexes ← indexesOf session t
      indexes.forM s.detach
      detachObject t

/-- Drop an object. -/
def removeObject (session : Option SessionRef) (o : ObjectRef) : CatalogM Unit := do
  match ((← get).object o).kind with
  | .tableOrView => removeTable session o
  | _ => detachObject o

end SchemaCatalog.Database
