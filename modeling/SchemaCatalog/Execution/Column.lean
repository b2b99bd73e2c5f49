import SchemaCatalog.Database.Columns
import SchemaCatalog.Database.Objects
import SchemaCatalog.Execution.Basic
import SchemaCatalog.Statement.Basic
/-!
# Column statements

Columns of views do not change. A column that an index lists is not dropped, nor is the last column
of a table, and a column of the primary key does not admit null.
-/
namespace SchemaCatalog.Execution

/-- Views do not change. -/
def rejectView (t : ObjectRef) : ExecM Unit := do
  let table := (← get).object t
  if table.asTable.isView then
    let name := table.name
    reject s!"'{name}' is a view"

/-- The columns of the primary keys of a table. -/
def primaryKeyColumns (c : SessionRef) (t : ObjectRef) : ExecM (List String) := do
  let indexes ← Database.indexesOf (some c) t
  let db ← get
  return ((indexes.map db.indexOf).filter (·.kind = .primaryKey)).flatMap (·.columns)

def addColumn (t : ObjectRef) (column : Column) : ExecM Outcome := do
  let name := column.name
  validateName "column" name
  t.addColumn column
  return ⟨1, s!"Column '{name}' added"⟩

def dropColumn (c : SessionRef) (t : ObjectRef) (name : String) : ExecM Outcome := do
  let db ← get
  let table := db.tableOf t
  if !table.hasColumn name then
    refuse (t.columnNotFound name db)
  if table.columns.length = 1 then
    let tableName := db.nameOf t
    reject s!"Cannot drop the last column of table '{tableName}'"
  let indexes ← Database.indexesOf (some c) t
  match indexes.find? fun i => (db.indexOf i).columns.contains name with
  | some i => refuse (.cannotDrop name (db.nameOf i))
  | none =>
    let _ ← t.dropColumn name
    return ⟨1, s!"Column '{name}' dropped"⟩

/-- Change a column and say so. -/
def alterColumnBy (t : ObjectRef) (name : String) (change : Column → Column) :
    ExecM Outcome := do
  t.updateColumn name change
  return ⟨1, s!"Column '{name}' altered"⟩

def changeColumnType (t : ObjectRef) (name dataType : String) : ExecM Outcome := do
  if Text.isBlank dataType then
    reject s!"Missing data type for column '{name}'"
  alterColumnBy t name fun column => { column with dataType }

def setColumnNullable (c : SessionRef) (t : ObjectRef) (name : String) (nullable : Bool) :
    ExecM Outcome := do
  if nullable then
    if (← primaryKeyColumns c t).contains name then
      reject s!"Column '{name}' is part of the primary key"
  alterColumnBy t name fun column => { column with nullable }

/-- `ALTER TABLE` for one column. -/
def alterColumn (c : SessionRef) (change : ColumnChange) : ExecM Outcome := do
  let s ← Database.getSchema change.schema
  let t ← s.getTable (some c) change.table
  rejectView t
  match change.action with
  | .add column => addColumn t column
  | .drop name => dropColumn c t name
  | .changeType name dataType => changeColumnType t name dataType
  | .setNullable name nullable => setColumnNullable c t name nullable
  | .setDefault name defaultExpression =>
    alterColumnBy t name fun column => { column with defaultExpression }

end SchemaCatalog.Execution
