import SchemaCatalog.Database.Basic
/-!
# Open sessions

The temporary tables and indexes of a session. Dropping a table drops the indexes made on it, and
closing a session drops all its tables. Sessions are registered while they are open. Removing one
closes it; closing one leaves it registered. A session is known by its reference alone, so nothing
else can name it.
-/
namespace SchemaCatalog

namespace SessionRef

/-- The local temporary table with a name. -/
def tempTable? (c : SessionRef) (name : String) (db : Database) : Option ObjectRef :=
  (db.session c).tempTables.get? name

/-- The local temporary tables in the order of their keys. -/
def tempTables (c : SessionRef) (db : Database) : List ObjectRef :=
  (db.session c).tempTables.values

/-- The local temporary index with a name. -/
def tempIndex? (c : SessionRef) (name : String) (db : Database) : Option ObjectRef :=
  (db.session c).tempIndexes.get? name

/-- The names of the local temporary indexes in the order of their keys. -/
def tempIndexNames (c : SessionRef) (db : Database) : List String :=
  (db.session c).tempIndexes.values.map db.nameOf

/-- The indexes made on the local temporary table with an id. -/
def tempIndexesOf (c : SessionRef) (tableId : UInt32) (db : Database) : List ObjectRef :=
  (db.session c).tempIndexes.values.filter fun i => (db.indexOf i).tableId = tableId

/-- Register a local temporary table under its name. -/
def addTempTable (c : SessionRef) (t : ObjectRef) : CatalogM Unit := do
  let db ← get
  let table := db.object t
  if (db.session c).tempTables.contains table.name then
    throw (.alreadyExists table.kind table.name)
  set (db.modifySession c fun session =>
    { session with tempTables := session.tempTables.insert table.name t })

/-- Register an index of a local temporary table under its name. -/
def addTempIndex (c : SessionRef) (i : ObjectRef) : CatalogM Unit := do
  let db ← get
  let index := db.object i
  if (db.session c).tempIndexes.contains index.name then
    throw (.alreadyExists index.kind index.name)
  set (db.modifySession c fun session =>
    { session with tempIndexes := session.tempIndexes.insert index.name i })

/-- Remove the local temporary index with a name, if there is one, and invalidate it. -/
def dropTempIndex (c : SessionRef) (name : String) (db : Database) :
    Option ObjectRef × Database :=
  match c.tempIndex? name db with
  | none => (none, db)
  | some i =>
    let db := db.modifySession c fun session =>
      { session with tempIndexes := session.tempIndexes.erase name }
    (some i, db.modifyObject i Object.invalidate)

/-- Remove the local temporary table with a name, if there is one, together with its indexes. -/
def dropTempTable (c : SessionRef) (name : String) (db : Database) :
    Option ObjectRef × Database :=
  match c.tempTable? name db with
  | none => (none, db)
  | some t =>
    let db := db.modifySession c fun session =>
      { session with tempTables := session.tempTables.erase name }
    let owned := (c.tempIndexesOf (db.object t).id db).map db.nameOf
    let db := owned.foldl (fun db name => (c.dropTempIndex name db).2) db
    (some t, db.modifyObject t Object.invalidate)

/-- Close an open session and drop its local temporary tables. -/
def close (c : SessionRef) (db : Database) : Database :=
  if (db.session c).active then
    let db := db.modifySession c fun session => { session with active := false }
    let names := (c.tempTables db).map db.nameOf
    names.foldl (fun db name => (c.dropTempTable name db).2) db
  else db

end SessionRef

namespace Database

/-- Open a session for a user. -/
def openSession (db : Database) (user : Principal) : SessionRef × Database :=
  let (slot, sessionStore) := db.sessionStore.push (.create user db.rule)
  (⟨slot⟩, { db with sessionStore, openSessions := db.openSessions ++ [⟨slot⟩] })

/-- Whether a session is registered. -/
def isRegistered (db : Database) (c : SessionRef) : Bool :=
  db.openSessions.contains c

/-- Close and unregister a session; false when it is not registered. -/
def removeSession (db : Database) (c : SessionRef) : Bool × Database :=
  if db.isRegistered c then
    (true, c.close { db with openSessions := db.openSessions.erase c })
  else (false, db)

def sessionCount (db : Database) : Nat :=
  db.openSessions.length

end Database

end SchemaCatalog
