import SchemaCatalog.Database.Objects
import SchemaCatalog.Execution.Basic
import SchemaCatalog.Statement.Basic
/-!
# Table and index statements

A local temporary table and its indexes are kept by the session, every other table, view or index by
its schema. An index without a name gets one derived from its table, reserved until the index is
registered.
-/
namespace SchemaCatalog.Execution

/-- The ids of the tables with these names. -/
def referenceIds (c : SessionRef) (s : SchemaRef) (names : List String) : ExecM (List UInt32) :=
  names.mapM fun name => do
    let t ← s.getTable (some c) name
    return ((← get).object t).id

/-- Register a new table where its scope says. -/
def registerTable (c : SessionRef) (scope : TableScope) (t : ObjectRef) : ExecM Unit :=
  match scope with
  | .localTemporary => c.addTempTable t
  | _ => Database.addObject t

/-- `CREATE TABLE` and `CREATE VIEW`. -/
def createTable (c : SessionRef) (definition : TableDefinition) : ExecM Outcome := do
  let name := definition.tableName
  match ← schemaForCreate definition.schema .tableOrView name definition.ifNotExists with
  | none => return ⟨0, s!"Table '{name}' already exists"⟩
  | some s =>
    if (c.tempTable? name (← get)).isSome then
      refuse (.alreadyExists .tableOrView name)
    let references ← referenceIds c s definition.references
    let t ← newObject s name (.table
      { kind := definition.kind, scope := definition.scope, columns := definition.columns,
        checks := [], references })
    registerTable c definition.scope t
    return ⟨1, s!"Table '{name}' created"⟩

/-- `DROP TABLE`, for views and local temporary tables too. -/
def dropTable (c : SessionRef) (schemaName name : String) (ifExists : Bool) : ExecM Outcome := do
  let s ← Database.getSchema schemaName
  match ← s.findTable (some c) name with
  | none =>
    if ifExists then return ⟨0, s!"Table '{name}' does not exist"⟩
    else refuse (.notFound .tableOrView name)
  | some t =>
    Database.removeObject (some c) t
    return ⟨1, s!"Table '{name}' dropped"⟩

/-- Make an index on a table and register it where the table lives. -/
def addTableIndex (c : SessionRef) (s : SchemaRef) (t : ObjectRef) (name : String)
    (columns : List String) (kind : IndexKind) : ExecM Unit := do
  let table := (← get).object t
  let i ← newObject s name (.index
    { tableId := table.id, tableName := table.name, columns, kind })
  if table.asTable.isLocalTemporary then c.addTempIndex i
  else Database.addObject i

/-- Make the index that was asked for under a name. -/
def createNamedIndex (c : SessionRef) (s : SchemaRef) (t : ObjectRef)
    (definition : IndexDefinition) (name : String) : ExecM Outcome := do
  addTableIndex c s t name definition.columns definition.kind
  return ⟨1, s!"Index '{name}' created"⟩

/-- `CREATE INDEX`. -/
def createIndex (c : SessionRef) (definition : IndexDefinition) : ExecM Outcome := do
  let s ← Database.getSchema definition.schema
  let t ← s.getTable (some c) definition.table
  match definition.indexName with
  | some name =>
    validateName "index" name
    if (← s.findIndex (some c) name).isNone then createNamedIndex c s t definition name
    else if definition.ifNotExists then return ⟨0, s!"Index '{name}' already exists"⟩
    else refuse (.alreadyExists .index name)
  | none =>
    withIndexName c s t definition.kind.nameStem (createNamedIndex c s t definition)

/-- `DROP INDEX`, for an index of the schema or else of the session. -/
def dropIndex (c : SessionRef) (schemaName name : String) (ifExists : Bool) : ExecM Outcome := do
  let s ← Database.getSchema schemaName
  match ← s.findIndex none name with
  | some i =>
    Database.removeObject (some c) i
    return ⟨1, s!"Index '{name}' dropped"⟩
  | none =>
    match ← modifyGet (c.dropTempIndex name) with
    | some _ => return ⟨1, s!"Index '{name}' dropped"⟩
    | none =>
      if ifExists then return ⟨0, s!"Index '{name}' does not exist"⟩
      else refuse (.notFound .index name)

end SchemaCatalog.Execution
