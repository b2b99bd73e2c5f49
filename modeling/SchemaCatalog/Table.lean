import SchemaCatalog.Json.Decode
/-!
# Columns, tables and views

A table keeps its columns in definition order and the ids of the tables it reads. Column
operations act on the first column of a name; `dropColumn?` and `updateColumn?` fail exactly when
there is none, and `addColumn?` exactly when there is one.
-/
namespace SchemaCatalog

structure Column where
  name : String
  dataType : String
  /-- The expression of a computed column. -/
  computed : Option String
  nullable : Bool
  defaultExpression : Option String
deriving DecidableEq, Inhabited

namespace Column

/-- A plain column that admits null. -/
def plain (name dataType : String) : Column :=
  ⟨name, dataType, none, true, none⟩

/-- A column whose value is computed by an expression. -/
def ofExpression (name dataType expression : String) : Column :=
  { plain name dataType with computed := some expression }

def notNull (column : Column) : Column :=
  { column with nullable := false }

def toJson (column : Column) : Json :=
  .object [
    ("name", .string column.name),
    ("data_type", .string column.dataType),
    ("computed", .ofOption .string column.computed),
    ("nullable", .bool column.nullable),
    ("default_expression", .ofOption .string column.defaultExpression)]

def ofJson? : Json → Option Column :=
  Json.record? do
    let name ← Json.required "name" Json.text?
    let dataType ← Json.required "data_type" Json.text?
    let computed ← Json.optional "computed" Json.text?
    let nullable ← Json.defaulted "nullable" Json.flag? true
    let defaultExpression ← Json.defaulted "default_expression" (Json.option? Json.text?) none
    return { name, dataType, computed, nullable, defaultExpression }

end Column

/-- Whether an entry is a base table or a view. -/
inductive TableKind where
  | table
  | view
deriving DecidableEq, Inhabited

/-- Who sees a table: everyone for good, everyone for a while, or one session. -/
inductive TableScope where
  | persistent
  | globalTemporary
  | localTemporary
deriving DecidableEq, Inhabited

def TableKind.toJson : TableKind → Json
  | table => .string "Table"
  | view => .string "View"

def TableKind.ofJson? : Json → Option TableKind :=
  Json.plainChoice? [("Table", table), ("View", view)]

def TableScope.toJson : TableScope → Json
  | persistent => .string "Persistent"
  | globalTemporary => .string "GlobalTemporary"
  | localTemporary => .string "LocalTemporary"

def TableScope.ofJson? : Json → Option TableScope :=
  Json.plainChoice? [("Persistent", persistent), ("GlobalTemporary", globalTemporary),
    ("LocalTemporary", localTemporary)]

/-- What a table or view is made of, apart from its name and place. -/
structure Table where
  kind : TableKind
  scope : TableScope
  columns : List Column
  /-- The expressions of the check constraints. -/
  checks : List String
  /-- The ids of the tables that this one reads. -/
  references : List UInt32
deriving DecidableEq, Inhabited

namespace Table

def isView (table : Table) : Bool :=
  table.kind = .view

def isTemporary (table : Table) : Bool :=
  table.scope ≠ .persistent

def isGlobalTemporary (table : Table) : Bool :=
  table.scope = .globalTemporary

/-- The table belongs to one session. -/
def isLocalTemporary (table : Table) : Bool :=
  table.isTemporary && !table.isGlobalTemporary

/-- The table reads the table with this id. -/
def dependsOn (table : Table) (id : UInt32) : Bool :=
  table.references.contains id

def column? (table : Table) (name : String) : Option Column :=
  table.columns.find? (·.name == name)

def hasColumn (table : Table) (name : String) : Bool :=
  table.columns.any (·.name == name)

/-- Add a column at the end unless its name is taken. -/
def addColumn? (table : Table) (column : Column) : Option Table :=
  if table.hasColumn column.name then none
  else some { table with columns := table.columns ++ [column] }

/-- Remove the first column of a name and return it. -/
def dropColumn? (table : Table) (name : String) : Option (Column × Table) :=
  (table.column? name).map fun column =>
    (column, { table with columns := table.columns.eraseP (·.name == name) })

/-- Apply `change` to the first column of a name. -/
def changeFirst (name : String) (change : Column → Column) : List Column → List Column
  | [] => []
  | column :: rest =>
    if column.name == name then change column :: rest else column :: changeFirst name change rest

/-- Change a column in place. -/
def updateColumn? (table : Table) (name : String) (change : Column → Column) : Option Table :=
  if table.hasColumn name then
    some { table with columns := changeFirst name change table.columns }
  else none

def addCheck (table : Table) (expression : String) : Table :=
  { table with checks := table.checks ++ [expression] }

theorem isLocalTemporary_iff (table : Table) :
    table.isLocalTemporary = true ↔ table.scope = .localTemporary := by
  cases h : table.scope <;> simp [isLocalTemporary, isTemporary, isGlobalTemporary, h]

theorem hasColumn_eq (table : Table) (name : String) :
    table.hasColumn name = (table.column? name).isSome := by
  rw [Bool.eq_iff_iff]
  simp [hasColumn, column?]

theorem addColumn?_eq_none_iff (table : Table) (column : Column) :
    table.addColumn? column = none ↔ table.hasColumn column.name = true := by
  simp [addColumn?]

theorem dropColumn?_eq_none_iff (table : Table) (name : String) :
    table.dropColumn? name = none ↔ table.hasColumn name = false := by
  simp [dropColumn?, hasColumn_eq]

theorem updateColumn?_eq_none_iff (table : Table) (name : String) (change : Column → Column) :
    table.updateColumn? name change = none ↔ table.hasColumn name = false := by
  simp [updateColumn?]

end Table

end SchemaCatalog
