import SchemaCatalog.Execution.Constraint
import SchemaCatalog.Execution.Object
import SchemaCatalog.Execution.Table
import SchemaCatalog.Statement.Basic
/-!
# Running a statement
-/
namespace SchemaCatalog.Statement

/-- The error for a statement that cannot run. -/
def notRunnable (statement : Statement) : ExecutionError :=
  .unsupported ("statement type=" ++ statement.typeName)

/-- The description of a statement, or the error that it cannot run. -/
def description (statement : Statement) : Except ExecutionError String :=
  match statement.description? with
  | some text => .ok text
  | none => .error statement.notRunnable

/-- Run a statement in a session. -/
def execute (c : SessionRef) (statement : Statement) : ExecM Outcome :=
  match statement with
  | createSchema name ifNotExists => Execution.createSchema c name ifNotExists
  | dropSchema name ifExists => Execution.dropSchema c name ifExists
  | createTable definition => Execution.createTable c definition
  | dropTable schema name ifExists => Execution.dropTable c schema name ifExists
  | createIndex definition => Execution.createIndex c definition
  | dropIndex schema name ifExists => Execution.dropIndex c schema name ifExists
  | createSequence schema name start increment =>
    Execution.createSequence schema name start increment
  | createConstant schema name value => Execution.createConstant schema name value
  | createFunctionAlias schema name target deterministic =>
    Execution.createFunctionAlias schema name target deterministic
  | rename schema kind oldName newName => Execution.rename schema kind oldName newName
  | alterColumn change => Execution.alterColumn c change
  | addConstraint definition => Execution.addConstraint c definition
  | truncateTable _ _ => throw statement.notRunnable
  | dml _ => throw statement.notRunnable
  | transaction _ => throw statement.notRunnable

end SchemaCatalog.Statement
