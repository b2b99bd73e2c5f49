import SchemaCatalog.Database.Schemas
import SchemaCatalog.Schema.Update
import SchemaCatalog.Text.Graphic
/-!
# Running statements

What a statement results in, why it fails, and the steps that several statements share. A failed
statement keeps what it changed up to then.
-/
namespace SchemaCatalog

inductive ExecutionError where
  | catalog (error : CatalogError)
  | unsupported (detail : String)
  | invalidStatement (detail : String)
deriving DecidableEq, Inhabited

def ExecutionError.message : ExecutionError → String
  | catalog error => "Catalog error: " ++ error.message
  | unsupported detail => s!"Unsupported statement: {detail}"
  | invalidStatement detail => s!"Invalid statement: {detail}"

/-- What a statement did. -/
structure Outcome where
  /-- How many entities were created, dropped or changed. -/
  affected : Nat
  message : String
deriving DecidableEq, Inhabited

def Outcome.toJson (outcome : Outcome) : Json :=
  .object [("affected", .ofNat outcome.affected), ("message", .string outcome.message)]

def Outcome.ofJson? : Json → Option Outcome :=
  Json.record? do
    let affected ← Json.required "affected" Json.count?
    let message ← Json.required "message" Json.text?
    return { affected, message }

/-- Runs part of a statement. -/
abbrev ExecM := EStateM ExecutionError Database

instance : MonadLift CatalogM ExecM where
  monadLift act := fun db =>
    match act db with
    | .ok a db => .ok a db
    | .error e db => .error (.catalog e) db

namespace Execution

/-- Refuse a statement for a catalog error. -/
def refuse {α : Type} (error : CatalogError) : ExecM α :=
  throw (.catalog error)

/-- Refuse a statement that asks for nonsense. -/
def reject {α : Type} (detail : String) : ExecM α :=
  throw (.invalidStatement detail)

/-- A name must not be blank. -/
def validateName (what name : String) : ExecM Unit := do
  if Text.isBlank name then
    reject s!"Invalid {what} name: name cannot be empty"

/-- The schema for a new object whose name is free there; none when the name is taken and that is
no error. -/
def schemaForCreate (schemaName : String) (kind : ObjectKind) (name : String)
    (ifNotExists : Bool) : ExecM (Option SchemaRef) := do
  validateName kind.text name
  let s ← Database.getSchema schemaName
  if (← s.findObject kind name).isNone then return some s
  else if ifNotExists then return none
  else refuse (.alreadyExists kind name)

/-- Make an object of a schema with an id of its own, without registering it. -/
def newObject (s : SchemaRef) (name : String) (body : ObjectBody) : ExecM ObjectRef := do
  let id ← modifyGet Database.allocateId
  modifyGet fun db => db.newObject { id, name, schema := some s, body }

/-- Give a reservation back after an action, whether it fails or not. -/
def releasing {α : Type} (s : SchemaRef) (r : Reservation) (act : ExecM α) : ExecM α := fun db =>
  match act db with
  | .ok a db => .ok a (s.release r db)
  | .error e db => .error e (s.release r db)

/-- Run an action with a new name for an index of a table, which is reserved until it ends. -/
def withIndexName {α : Type} (c : SessionRef) (s : SchemaRef) (t : ObjectRef) (stem : String)
    (act : String → ExecM α) : ExecM α := do
  let r ← s.uniqueIndexName (some c) t stem
  releasing s r (act r.name)

end Execution

end SchemaCatalog
