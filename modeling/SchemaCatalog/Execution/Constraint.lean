import SchemaCatalog.Execution.Column
import SchemaCatalog.Execution.Table
/-!
# Constraint statements

Keys are enforced through an index on their columns, whose name is generated. A foreign key makes
do with an index that lists exactly its columns, and a primary key makes its columns refuse null.
-/
namespace SchemaCatalog.Execution

/-- A key lists columns, and the table has them all. -/
def requireColumns (t : ObjectRef) (columns : List String) : ExecM Unit := do
  if columns.isEmpty then
    reject "Constraint needs at least one column"
  let db ← get
  match columns.find? fun name => !(db.tableOf t).hasColumn name with
  | some name => refuse (t.columnNotFound name db)
  | none => return

/-- The stem of the name of the index that backs a key. -/
def keyNameStem (definition : ConstraintDefinition) : String :=
  match definition.kind with
  | .primaryKey => IndexKind.primaryKey.nameStem
  | _ => definition.constraintName.getD "CONSTRAINT" ++ "_INDEX_"

/-- The columns of a primary key refuse null. -/
def forbidNull (t : ObjectRef) (columns : List String) : ExecM Unit :=
  columns.forM fun name => t.updateColumn name Column.notNull

/-- Add the index that backs a key. -/
def addKeyIndex (c : SessionRef) (s : SchemaRef) (t : ObjectRef)
    (definition : ConstraintDefinition) (kind : IndexKind) : ExecM Outcome :=
  withIndexName c s t (keyNameStem definition) fun name => do
    addTableIndex c s t name definition.columns kind
    if kind = .primaryKey then
      forbidNull t definition.columns
    let tableName := (← get).nameOf t
    return ⟨1, s!"Constraint added to '{tableName}' with index '{name}'"⟩

def addCheck (t : ObjectRef) (expression : String) : ExecM Outcome := do
  if Text.isBlank expression then
    reject "Check constraint needs an expression"
  modify (t.addCheck expression)
  let name := (← get).nameOf t
  return ⟨1, s!"Check constraint added to '{name}'"⟩

def addPrimaryKey (c : SessionRef) (s : SchemaRef) (t : ObjectRef)
    (definition : ConstraintDefinition) : ExecM Outcome := do
  requireColumns t definition.columns
  let indexes ← Database.indexesOf (some c) t
  let db ← get
  if indexes.any fun i => (db.indexOf i).kind = .primaryKey then
    let name := db.nameOf t
    reject s!"Table '{name}' already has a primary key"
  addKeyIndex c s t definition .primaryKey

def addUnique (c : SessionRef) (s : SchemaRef) (t : ObjectRef)
    (definition : ConstraintDefinition) : ExecM Outcome := do
  requireColumns t definition.columns
  addKeyIndex c s t definition .unique

def addForeignKey (c : SessionRef) (s : SchemaRef) (t : ObjectRef)
    (definition : ConstraintDefinition) (refTable : String) (refColumns : List String) :
    ExecM Outcome := do
  requireColumns t definition.columns
  let referenced ← s.getTable (some c) refTable
  let name := (← get).nameOf t
  if refColumns.length ≠ definition.columns.length then
    let own := definition.columns.length
    let other := refColumns.length
    reject s!"Foreign key on '{name}' lists {own} columns but references {other}"
  requireColumns referenced refColumns
  let indexes ← Database.indexesOf (some c) t
  let db ← get
  match indexes.find? fun i => (db.indexOf i).columns = definition.columns with
  | some i =>
    let indexName := db.nameOf i
    return ⟨1, s!"Foreign key added to '{name}' using index '{indexName}'"⟩
  | none => addKeyIndex c s t definition .nonUnique

/-- `ALTER TABLE ADD CONSTRAINT`. -/
def addConstraint (c : SessionRef) (definition : ConstraintDefinition) : ExecM Outcome := do
  let s ← Database.getSchema definition.schema
  let t ← s.getTable (some c) definition.table
  rejectView t
  match definition.kind with
  | .check expression => addCheck t expression
  | .primaryKey => addPrimaryKey c s t definition
  | .unique => addUnique c s t definition
  | .referential refTable refColumns => addForeignKey c s t definition refTable refColumns

end SchemaCatalog.Execution
