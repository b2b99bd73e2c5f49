import SchemaCatalog.Database.Basic
/-!
# Changing tables

Column operations on a table of the database, with the errors that name the table.
-/
namespace SchemaCatalog.ObjectRef

/-- Put a changed table in the place of the old one. -/
def setTable (t : ObjectRef) (table : Table) (db : Database) : Database :=
  db.modifyObject t (Object.mapTable fun _ => table)

/-- The error for a column that a table lacks. -/
def columnNotFound (t : ObjectRef) (column : String) (db : Database) : CatalogError :=
  .columnNotFound (db.nameOf t) column

/-- Add a column at the end. -/
def addColumn (t : ObjectRef) (column : Column) : CatalogM Unit := do
  let db ← get
  match (db.tableOf t).addColumn? column with
  | some table => set (t.setTable table db)
  | none => throw (.duplicateColumn (db.nameOf t) column.name)

/-- Remove a column and return it. -/
def dropColumn (t : ObjectRef) (name : String) : CatalogM Column := do
  let db ← get
  match (db.tableOf t).dropColumn? name with
  | some (column, table) =>
    set (t.setTable table db)
    return column
  | none => throw (t.columnNotFound name db)

/-- Change a column in place. -/
def updateColumn (t : ObjectRef) (name : String) (change : Column → Column) : CatalogM Unit := do
  let db ← get
  match (db.tableOf t).updateColumn? name change with
  | some table => set (t.setTable table db)
  | none => throw (t.columnNotFound name db)

/-- Add the expression of a check constraint. -/
def addCheck (t : ObjectRef) (expression : String) (db : Database) : Database :=
  t.setTable ((db.tableOf t).addCheck expression) db

/-- Take the next `n` values of a sequence. -/
def takeValues (o : ObjectRef) (n : Nat) (db : Database) : List Int64 × Database :=
  match (db.object o).body with
  | .sequence sequence =>
    let (values, sequence) := sequence.take n
    (values, db.modifyObject o fun object => { object with body := .sequence sequence })
  | _ => ([], db)

end SchemaCatalog.ObjectRef
