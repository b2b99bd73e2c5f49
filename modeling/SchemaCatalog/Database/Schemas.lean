import SchemaCatalog.Database.Basic
/-!
# Registered schemas and users
-/
namespace SchemaCatalog.Database

def findSchema (db : Database) (name : String) : Option SchemaRef :=
  db.schemas.get? name

/-- The registered schemas in the order of their keys. -/
def allSchemas (db : Database) : List SchemaRef :=
  db.schemas.values

def getSchema (name : String) : Lookup SchemaRef := do
  match (← read).findSchema name with
  | some s => return s
  | none => throw (.schemaNotFound name)

def mainSchema : Lookup SchemaRef := do
  getSchema (← read).settings.mainSchema

/-- Register a new schema. -/
def createSchema (name : String) (owner : Principal) : CatalogM SchemaRef := do
  if (← get).schemas.contains name then
    throw (.duplicateSchema name)
  let id ← modifyGet allocateId
  let s ← modifyGet fun db => db.newSchema (.create id name (some owner) false db.rule)
  modify fun db => { db with schemas := db.schemas.insert name s }
  return s

/-- The registered schemas that a principal owns. -/
def schemasOwnedBy (db : Database) (principal : Principal) : List SchemaRef :=
  db.allSchemas.filter fun s => (db.schema s).isOwnedBy principal

/-- Fails with the first schema that a principal owns. -/
def checkOwnsNoSchemas (principal : Principal) : Lookup Unit := do
  let db ← read
  match db.schemasOwnedBy principal with
  | [] => return
  | s :: _ => throw (.cannotDrop principal.name (db.schema s).name)

def findUser (db : Database) (name : String) : Option User :=
  db.users.get? name

def createUser (name : String) (admin : Bool) : CatalogM Principal := do
  if (← get).users.contains name then
    throw (.duplicateUser name)
  let id ← modifyGet allocateId
  let user : User := ⟨id, name, admin⟩
  modify fun db => { db with users := db.users.insert name user }
  return user.principal

/-- Drop a user who owns no schema. -/
def dropUser (name : String) : CatalogM Unit := do
  match (← get).findUser name with
  | none => throw (.userNotFound name)
  | some user =>
    checkOwnsNoSchemas user.principal
    modify fun db => { db with users := db.users.erase name }

end SchemaCatalog.Database
