import SchemaCatalog.Database.Objects
import SchemaCatalog.Execution.Basic
import SchemaCatalog.Teardown.Removal
/-!
# Statements on schemas and other objects

Schemas, sequences, constants and function aliases, and the renaming of objects of any kind.
-/
namespace SchemaCatalog.Execution

/-- `CREATE SCHEMA`: the session's user owns the new schema. -/
def createSchema (c : SessionRef) (name : String) (ifNotExists : Bool) : ExecM Outcome := do
  validateName "schema" name
  if ifNotExists && ((← get).findSchema name).isSome then
    return ⟨0, s!"Schema '{name}' already exists"⟩
  let owner := ((← get).session c).user
  let _ ← Database.createSchema name owner
  return ⟨1, s!"Schema '{name}' created"⟩

/-- `DROP SCHEMA`: everything in the schema goes with it. -/
def dropSchema (c : SessionRef) (name : String) (ifExists : Bool) : ExecM Outcome := do
  match (← get).findSchema name with
  | none =>
    if ifExists then return ⟨0, s!"Schema '{name}' does not exist"⟩
    else refuse (.schemaNotFound name)
  | some s =>
    let count := (← s.objects).length
    Database.dropSchema (some c) name
    return ⟨count + 1, s!"Schema '{name}' dropped with {count} objects"⟩

/-- Make and register an object whose name has to be free. -/
def createObject (schemaName : String) (kind : ObjectKind) (name : String) (body : ObjectBody)
    (message : String) : ExecM Outcome := do
  match ← schemaForCreate schemaName kind name false with
  | none => return ⟨0, ""⟩
  | some s =>
    let o ← newObject s name body
    Database.addObject o
    return ⟨1, message⟩

/-- `CREATE SEQUENCE`: a sequence has to move. -/
def createSequence (schemaName name : String) (start increment : Int64) : ExecM Outcome := do
  if increment = 0 then
    reject "sequence increment cannot be 0"
  createObject schemaName .sequence name (.sequence { increment, next := start })
    s!"Sequence '{name}' created"

/-- `CREATE CONSTANT`. -/
def createConstant (schemaName name value : String) : ExecM Outcome :=
  createObject schemaName .constant name (.constant value) s!"Constant '{name}' created"

/-- `CREATE ALIAS`: an alias has to have a target. -/
def createFunctionAlias (schemaName name target : String) (deterministic : Bool) :
    ExecM Outcome := do
  validateName "function target" target
  createObject schemaName .functionAlias name (.functionAlias { target, deterministic })
    s!"Function alias '{name}' created"

/-- `ALTER ... RENAME TO`. -/
def rename (schemaName : String) (kind : ObjectKind) (oldName newName : String) :
    ExecM Outcome := do
  validateName kind.text newName
  let s ← Database.getSchema schemaName
  let o ← s.getObject kind oldName
  Database.renameObject o newName
  return ⟨1, s!"Renamed '{oldName}' to '{newName}'"⟩

end SchemaCatalog.Execution
