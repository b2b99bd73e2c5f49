import SchemaCatalog.Teardown.Order
/-!
# Emptying a schema

Tables and views go first, in the order of removal; then every object of the other kinds. The order
is settled before anything is removed. A schema left empty becomes invalid.
-/
namespace SchemaCatalog

variable {η : Type}

/-- The kinds that do not depend on each other, in the order in which they go after the tables. -/
def trailingKinds : List ObjectKind :=
  [.index, .sequence, .constant, .functionAlias]

/-- Let the host drop an object, and insist that it is gone. -/
def removeThroughHost (host : CatalogHost η) (session : Option SessionRef) (s : SchemaRef)
    (o : ObjectRef) : HostM η Unit := do
  host.removeObject session o
  if ← s.contains o then
    let db := (← get).1
    let schema := (db.schema s).name
    throw (.internalInvariant
      ((db.object o).title ++ s!" still present in schema {schema} after removal"))

/-- Remove those of the tables that are still there. -/
def removeTables (host : CatalogHost η) (session : Option SessionRef) (s : SchemaRef)
    (tables : List ObjectRef) : HostM η Unit :=
  tables.forM fun t => do
    if ← s.contains t then
      removeThroughHost host session s t

/-- Remove the first object of a kind, as long as there is one and the limit allows. -/
def drain (host : CatalogHost η) (session : Option SessionRef) (s : SchemaRef)
    (kind : ObjectKind) : Nat → HostM η Unit
  | 0 => return
  | limit + 1 => do
    match ← s.firstOf kind with
    | none => return
    | some o =>
      removeThroughHost host session s o
      drain host session s kind limit

/-- More removals than there are sets of objects: a host that has not come to an end by then takes
away and puts back the same objects over and over. -/
def drainLimit (s : SchemaRef) (db : Database) : Nat :=
  Nat.pow 2 (db.objectStore.next + (db.schema s).registry.size)

/-- Remove every object of a kind. -/
def removeKind (host : CatalogHost η) (session : Option SessionRef) (s : SchemaRef)
    (kind : ObjectKind) : HostM η Unit := do
  drain host session s kind (drainLimit s (← get).1)

/-- Drop every object of a schema in the order of removal, then invalidate the schema. -/
def removeChildren (host : CatalogHost η) (session : Option SessionRef) (s : SchemaRef) :
    HostM η Unit := do
  let order ← tableRemovalOrder host s
  removeTables host session s order
  trailingKinds.forM (removeKind host session s)
  let (db, own) ← get
  let schema := db.schema s
  if schema.registry.isEmpty then
    set (db.modifySchema s Schema.invalidate, own)
  else
    let name := schema.name
    throw (.internalInvariant s!"schema {name} still holds objects after teardown")

/-- Drop a registered schema and everything in it. -/
def Database.dropSchema (session : Option SessionRef) (name : String) : CatalogM Unit := do
  let s ← Database.getSchema name
  if ((← get).schema s).system then
    throw (.systemSchema name)
  (removeChildren Database.host session s).onDatabase
  modify fun db => { db with schemas := db.schemas.erase name }

end SchemaCatalog
