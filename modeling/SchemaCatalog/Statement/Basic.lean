import SchemaCatalog.Object
import SchemaCatalog.ObjectKind
import SchemaCatalog.Table
/-!
# Statements

Classified statements, ready to run. Those that define data carry what they need; the others are
told apart so that they can be refused by name. A description is the short text under which a
statement is logged; statements that cannot run have none.
-/
namespace SchemaCatalog

/-- What `CREATE TABLE` and `CREATE VIEW` ask for. -/
structure TableDefinition where
  schema : String
  tableName : String
  columns : List Column
  kind : TableKind
  scope : TableScope
  /-- The tables of the same schema that the new one reads. -/
  references : List String
  ifNotExists : Bool
deriving DecidableEq, Inhabited

/-- What `CREATE INDEX` asks for. An index without a name gets one. -/
structure IndexDefinition where
  schema : String
  table : String
  indexName : Option String
  columns : List String
  kind : IndexKind
  ifNotExists : Bool
deriving DecidableEq, Inhabited

inductive ColumnAction where
  | add (column : Column)
  | drop (name : String)
  | changeType (column dataType : String)
  | setNullable (column : String) (nullable : Bool)
  | setDefault (column : String) (expression : Option String)
deriving DecidableEq, Inhabited

/-- What `ALTER TABLE` asks of a column. -/
structure ColumnChange where
  schema : String
  table : String
  action : ColumnAction
deriving DecidableEq, Inhabited

inductive ConstraintKind where
  | primaryKey
  | unique
  | referential (refTable : String) (refColumns : List String)
  | check (expression : String)
deriving DecidableEq, Inhabited

/-- What `ALTER TABLE ADD CONSTRAINT` asks for. Keys are backed by an index. -/
structure ConstraintDefinition where
  schema : String
  table : String
  constraintName : Option String
  kind : ConstraintKind
  columns : List String
deriving DecidableEq, Inhabited

inductive DmlKind where
  | insert
  | update
  | delete
  | merge
  | select
deriving DecidableEq, Inhabited

inductive TransactionKind where
  | start
  | commit
  | rollback
  | setAutoCommit
deriving DecidableEq, Inhabited

inductive Statement where
  | createSchema (name : String) (ifNotExists : Bool)
  | dropSchema (name : String) (ifExists : Bool)
  | createTable (definition : TableDefinition)
  | dropTable (schema name : String) (ifExists : Bool)
  | createIndex (definition : IndexDefinition)
  | dropIndex (schema name : String) (ifExists : Bool)
  | createSequence (schema name : String) (start increment : Int64)
  | createConstant (schema name value : String)
  | createFunctionAlias (schema name target : String) (deterministic : Bool)
  | rename (schema : String) (kind : ObjectKind) (oldName newName : String)
  | alterColumn (change : ColumnChange)
  | addConstraint (definition : ConstraintDefinition)
  | truncateTable (schema name : String)
  | dml (kind : DmlKind)
  | transaction (kind : TransactionKind)
deriving DecidableEq, Inhabited

def ColumnAction.typeName : ColumnAction → String
  | add _ => "ALTER TABLE ADD COLUMN"
  | drop _ => "ALTER TABLE DROP COLUMN"
  | changeType _ _ => "ALTER TABLE ALTER COLUMN TYPE"
  | setNullable _ true => "ALTER TABLE ALTER COLUMN NULL"
  | setNullable _ false => "ALTER TABLE ALTER COLUMN NOT NULL"
  | setDefault _ _ => "ALTER TABLE ALTER COLUMN DEFAULT"

/-- The constraint as statements call it. -/
def ConstraintKind.text : ConstraintKind → String
  | primaryKey => "PRIMARY KEY"
  | unique => "UNIQUE"
  | referential _ _ => "FOREIGN KEY"
  | check _ => "CHECK"

def DmlKind.text : DmlKind → String
  | insert => "INSERT"
  | update => "UPDATE"
  | delete => "DELETE"
  | merge => "MERGE"
  | select => "SELECT"

def TransactionKind.text : TransactionKind → String
  | start => "BEGIN"
  | commit => "COMMIT"
  | rollback => "ROLLBACK"
  | setAutoCommit => "SET AUTOCOMMIT"

namespace Statement

/-- The type of a statement in capitals. -/
def typeName : Statement → String
  | createSchema _ _ => "CREATE SCHEMA"
  | dropSchema _ _ => "DROP SCHEMA"
  | createTable _ => "CREATE TABLE"
  | dropTable _ _ _ => "DROP TABLE"
  | createIndex _ => "CREATE INDEX"
  | dropIndex _ _ _ => "DROP INDEX"
  | createSequence _ _ _ _ => "CREATE SEQUENCE"
  | createConstant _ _ _ => "CREATE CONSTANT"
  | createFunctionAlias _ _ _ _ => "CREATE ALIAS"
  | rename _ _ _ _ => "ALTER RENAME"
  | alterColumn change => change.action.typeName
  | addConstraint definition => "ALTER TABLE ADD " ++ definition.kind.text
  | truncateTable _ _ => "TRUNCATE TABLE"
  | dml kind => kind.text
  | transaction kind => kind.text

/-- The statement defines data. -/
def isDdl : Statement → Bool
  | dml _ => false
  | transaction _ => false
  | _ => true

end Statement

def ColumnAction.description : ColumnAction → String
  | add column => "ADD COLUMN " ++ column.name
  | drop name => s!"DROP COLUMN {name}"
  | changeType column dataType => s!"ALTER COLUMN {column} {dataType}"
  | setNullable column true => s!"ALTER COLUMN {column} SET NULL"
  | setNullable column false => s!"ALTER COLUMN {column} SET NOT NULL"
  | setDefault column _ => s!"ALTER COLUMN {column} SET DEFAULT"

def TableKind.keyword : TableKind → String
  | table => "TABLE"
  | view => "VIEW"

/-- The description of a statement that can run. -/
def Statement.description? : Statement → Option String
  | createSchema name true => s!"CREATE SCHEMA IF NOT EXISTS {name}"
  | createSchema name false => s!"CREATE SCHEMA {name}"
  | dropSchema name true => s!"DROP SCHEMA IF EXISTS {name}"
  | dropSchema name false => s!"DROP SCHEMA {name}"
  | createTable definition =>
    "CREATE " ++ definition.kind.keyword ++ " " ++ definition.schema ++ "." ++ definition.tableName
  | dropTable schema name _ => s!"DROP TABLE {schema}.{name}"
  | createIndex definition =>
    "CREATE INDEX " ++ definition.indexName.getD "<implicit>" ++ " ON " ++ definition.schema ++
      "." ++ definition.table
  | dropIndex schema name _ => s!"DROP INDEX {schema}.{name}"
  | createSequence schema name _ _ => s!"CREATE SEQUENCE {schema}.{name}"
  | createConstant schema name _ => s!"CREATE CONSTANT {schema}.{name}"
  | createFunctionAlias schema name target _ => s!"CREATE ALIAS {schema}.{name} FOR {target}"
  | rename schema kind oldName newName =>
    "ALTER " ++ kind.text ++ s!" {schema}.{oldName} RENAME TO {newName}"
  | alterColumn change =>
    "ALTER TABLE " ++ change.schema ++ "." ++ change.table ++ " " ++ change.action.description
  | addConstraint definition =>
    "ALTER TABLE " ++ definition.schema ++ "." ++ definition.table ++ " ADD " ++
      definition.kind.text
  | truncateTable _ _ => none
  | dml _ => none
  | transaction _ => none

end SchemaCatalog
