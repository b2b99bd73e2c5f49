import SchemaCatalog.Statement.Basic
/-!
# Statements as data

The JSON form of statements and of what they carry.
-/
namespace SchemaCatalog

open Json (required optional text? flag? list?)

namespace TableDefinition

def toJson (definition : TableDefinition) : Json :=
  .object [
    ("schema", .string definition.schema),
    ("table_name", .string definition.tableName),
    ("columns", .array (definition.columns.map Column.toJson)),
    ("kind", definition.kind.toJson),
    ("scope", definition.scope.toJson),
    ("references", .ofStrings definition.references),
    ("if_not_exists", .bool definition.ifNotExists)]

def ofJson? : Json → Option TableDefinition :=
  Json.record? do
    let schema ← required "schema" text?
    let tableName ← required "table_name" text?
    let columns ← required "columns" (list? Column.ofJson?)
    let kind ← required "kind" TableKind.ofJson?
    let scope ← required "scope" TableScope.ofJson?
    let references ← required "references" (list? text?)
    let ifNotExists ← required "if_not_exists" flag?
    return { schema, tableName, columns, kind, scope, references, ifNotExists }

end TableDefinition

namespace IndexDefinition

def toJson (definition : IndexDefinition) : Json :=
  .object [
    ("schema", .string definition.schema),
    ("table", .string definition.table),
    ("index_name", .ofOption .string definition.indexName),
    ("columns", .ofStrings definition.columns),
    ("kind", definition.kind.toJson),
    ("if_not_exists", .bool definition.ifNotExists)]

def ofJson? : Json → Option IndexDefinition :=
  Json.record? do
    let schema ← required "schema" text?
    let table ← required "table" text?
    let indexName ← optional "index_name" text?
    let columns ← required "columns" (list? text?)
    let kind ← required "kind" IndexKind.ofJson?
    let ifNotExists ← required "if_not_exists" flag?
    return { schema, table, indexName, columns, kind, ifNotExists }

end IndexDefinition

namespace ColumnAction

def toJson : ColumnAction → Json
  | add column => .object [("Add", column.toJson)]
  | drop name => .object [("Drop", .string name)]
  | changeType column dataType =>
    .object [("ChangeType", .object [("column", .string column), ("data_type", .string dataType)])]
  | setNullable column nullable =>
    .object [("SetNullable", .object [("column", .string column), ("nullable", .bool nullable)])]
  | setDefault column expression =>
    .object [("SetDefault", .object [
      ("column", .string column), ("expression", .ofOption .string expression)])]

def changeTypeOfJson? : Json → Option ColumnAction :=
  Json.members? do
    let column ← required "column" text?
    let dataType ← required "data_type" text?
    return changeType column dataType

def setNullableOfJson? : Json → Option ColumnAction :=
  Json.members? do
    let column ← required "column" text?
    let nullable ← required "nullable" flag?
    return setNullable column nullable

def setDefaultOfJson? : Json → Option ColumnAction :=
  Json.members? do
    let column ← required "column" text?
    let expression ← optional "expression" text?
    return setDefault column expression

def ofJson? (value : Json) : Option ColumnAction :=
  match Json.choice? value with
  | some ("Add", data) => Json.carrying (fun value => (Column.ofJson? value).map add) data
  | some ("Drop", data) => Json.carrying (fun value => (text? value).map drop) data
  | some ("ChangeType", data) => Json.carrying changeTypeOfJson? data
  | some ("SetNullable", data) => Json.carrying setNullableOfJson? data
  | some ("SetDefault", data) => Json.carrying setDefaultOfJson? data
  | _ => none

end ColumnAction

namespace ColumnChange

def toJson (change : ColumnChange) : Json :=
  .object [
    ("schema", .string change.schema),
    ("table", .string change.table),
    ("action", change.action.toJson)]

def ofJson? : Json → Option ColumnChange :=
  Json.record? do
    let schema ← required "schema" text?
    let table ← required "table" text?
    let action ← required "action" ColumnAction.ofJson?
    return { schema, table, action }

end ColumnChange

namespace ConstraintKind

def toJson : ConstraintKind → Json
  | primaryKey => .string "PrimaryKey"
  | unique => .string "Unique"
  | referential refTable refColumns =>
    .object [("Referential", .object [
      ("ref_table", .string refTable), ("ref_columns", .ofStrings refColumns)])]
  | check expression => .object [("Check", .string expression)]

def referentialOfJson? : Json → Option ConstraintKind :=
  Json.members? do
    let refTable ← required "ref_table" text?
    let refColumns ← required "ref_columns" (list? text?)
    return referential refTable refColumns

def ofJson? (value : Json) : Option ConstraintKind :=
  match Json.choice? value with
  | some ("PrimaryKey", data) => Json.plain primaryKey data
  | some ("Unique", data) => Json.plain unique data
  | some ("Referential", data) => Json.carrying referentialOfJson? data
  | some ("Check", data) => Json.carrying (fun value => (text? value).map check) data
  | _ => none

end ConstraintKind

namespace ConstraintDefinition

def toJson (definition : ConstraintDefinition) : Json :=
  .object [
    ("schema", .string definition.schema),
    ("table", .string definition.table),
    ("constraint_name", .ofOption .string definition.constraintName),
    ("kind", definition.kind.toJson),
    ("columns", .ofStrings definition.columns)]

def ofJson? : Json → Option ConstraintDefinition :=
  Json.record? do
    let schema ← required "schema" text?
    let table ← required "table" text?
    let constraintName ← optional "constraint_name" text?
    let kind ← required "kind" ConstraintKind.ofJson?
    let columns ← required "columns" (list? text?)
    return { schema, table, constraintName, kind, columns }

end ConstraintDefinition

namespace DmlKind

def toJson : DmlKind → Json
  | insert => .string "Insert"
  | update => .string "Update"
  | delete => .string "Delete"
  | merge => .string "Merge"
  | select => .string "Select"

def ofJson? : Json → Option DmlKind :=
  Json.plainChoice? [("Insert", insert), ("Update", update), ("Delete", delete),
    ("Merge", merge), ("Select", select)]

end DmlKind

namespace TransactionKind

def toJson : TransactionKind → Json
  | start => .string "Begin"
  | commit => .string "Commit"
  | rollback => .string "Rollback"
  | setAutoCommit => .string "SetAutoCommit"

def ofJson? : Json → Option TransactionKind :=
  Json.plainChoice? [("Begin", start), ("Commit", commit), ("Rollback", rollback),
    ("SetAutoCommit", setAutoCommit)]

end TransactionKind

namespace Statement

def toJson : Statement → Json
  | createSchema name ifNotExists =>
    .object [("CreateSchema", .object [
      ("name", .string name), ("if_not_exists", .bool ifNotExists)])]
  | dropSchema name ifExists =>
    .object [("DropSchema", .object [("name", .string name), ("if_exists", .bool ifExists)])]
  | createTable definition => .object [("CreateTable", definition.toJson)]
  | dropTable schema name ifExists =>
    .object [("DropTable", .object [
      ("schema", .string schema), ("name", .string name), ("if_exists", .bool ifExists)])]
  | createIndex definition => .object [("CreateIndex", definition.toJson)]
  | dropIndex schema name ifExists =>
    .object [("DropIndex", .object [
      ("schema", .string schema), ("name", .string name), ("if_exists", .bool ifExists)])]
  | createSequence schema name start increment =>
    .object [("CreateSequence", .object [
      ("schema", .string schema), ("name", .string name),
      ("start", .integer start.toInt), ("increment", .integer increment.toInt)])]
  | createConstant schema name value =>
    .object [("CreateConstant", .object [
      ("schema", .string schema), ("name", .string name), ("value", .string value)])]
  | createFunctionAlias schema name target deterministic =>
    .object [("CreateFunctionAlias", .object [
      ("schema", .string schema), ("name", .string name), ("target", .string target),
      ("deterministic", .bool deterministic)])]
  | rename schema kind oldName newName =>
    .object [("AlterRename", .object [
      ("schema", .string schema), ("object_type", kind.toJson), ("old_name", .string oldName),
      ("new_name", .string newName)])]
  | alterColumn change => .object [("AlterTableAlterColumn", change.toJson)]
  | addConstraint definition => .object [("AlterTableAddConstraint", definition.toJson)]
  | truncateTable schema name =>
    .object [("TruncateTable", .object [("schema", .string schema), ("name", .string name)])]
  | dml kind => .object [("Dml", kind.toJson)]
  | transaction kind => .object [("Transaction", kind.toJson)]

def createSchemaOfJson? : Json → Option Statement :=
  Json.members? do
    let name ← required "name" text?
    let ifNotExists ← required "if_not_exists" flag?
    return createSchema name ifNotExists

def dropSchemaOfJson? : Json → Option Statement :=
  Json.members? do
    let name ← required "name" text?
    let ifExists ← required "if_exists" flag?
    return dropSchema name ifExists

/-- The fields of a statement that drops something in a schema. -/
def dropOfJson? (drop : String → String → Bool → Statement) : Json → Option Statement :=
  Json.members? do
    let schema ← required "schema" text?
    let name ← required "name" text?
    let ifExists ← required "if_exists" flag?
    return drop schema name ifExists

def createSequenceOfJson? : Json → Option Statement :=
  Json.members? do
    let schema ← required "schema" text?
    let name ← required "name" text?
    let start ← required "start" Json.int64?
    let increment ← required "increment" Json.int64?
    return createSequence schema name start increment

def createConstantOfJson? : Json → Option Statement :=
  Json.members? do
    let schema ← required "schema" text?
    let name ← required "name" text?
    let value ← required "value" text?
    return createConstant schema name value

def createFunctionAliasOfJson? : Json → Option Statement :=
  Json.members? do
    let schema ← required "schema" text?
    let name ← required "name" text?
    let target ← required "target" text?
    let deterministic ← required "deterministic" flag?
    return createFunctionAlias schema name target deterministic

def renameOfJson? : Json → Option Statement :=
  Json.members? do
    let schema ← required "schema" text?
    let kind ← required "object_type" ObjectKind.ofJson?
    let oldName ← required "old_name" text?
    let newName ← required "new_name" text?
    return rename schema kind oldName newName

def truncateTableOfJson? : Json → Option Statement :=
  Json.members? do
    let schema ← required "schema" text?
    let name ← required "name" text?
    return truncateTable schema name

/-- How the data of the statement with a name is read. -/
def reader? : String → Option (Json → Option Statement)
  | "CreateSchema" => some createSchemaOfJson?
  | "DropSchema" => some dropSchemaOfJson?
  | "CreateTable" => some fun data => (TableDefinition.ofJson? data).map createTable
  | "DropTable" => some (dropOfJson? dropTable)
  | "CreateIndex" => some fun data => (IndexDefinition.ofJson? data).map createIndex
  | "DropIndex" => some (dropOfJson? dropIndex)
  | "CreateSequence" => some createSequenceOfJson?
  | "CreateConstant" => some createConstantOfJson?
  | "CreateFunctionAlias" => some createFunctionAliasOfJson?
  | "AlterRename" => some renameOfJson?
  | "AlterTableAlterColumn" => some fun data => (ColumnChange.ofJson? data).map alterColumn
  | "AlterTableAddConstraint" => some fun data =>
    (ConstraintDefinition.ofJson? data).map addConstraint
  | "TruncateTable" => some truncateTableOfJson?
  | "Dml" => some fun data => (DmlKind.ofJson? data).map dml
  | "Transaction" => some fun data => (TransactionKind.ofJson? data).map transaction
  | _ => none

/-- Every statement carries data under its name. -/
def ofJson? (value : Json) : Option Statement :=
  match Json.choice? value with
  | some (name, data) => (reader? name).bind fun reader => Json.carrying reader data
  | none => none

end Statement

end SchemaCatalog
