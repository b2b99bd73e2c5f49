import SchemaCatalog.Json.Decode
import SchemaCatalog.Registry
import SchemaCatalog.Reservation
import SchemaCatalog.Session.Basic
/-!
# Schemas

A schema holds the registry of its objects and the names reserved in it. It is active until it is
emptied; an invalid schema has no owner and never becomes active again.
-/
namespace SchemaCatalog

inductive SchemaState where
  | active
  | invalid
deriving DecidableEq, Inhabited

def SchemaState.text : SchemaState → String
  | active => "Active"
  | invalid => "Invalid"

/-- Where the metadata of a schema lives. The catalog keeps it and does not interpret it. -/
structure MetadataNode where
  shardName : String
  objectName : String
deriving DecidableEq, Inhabited

def MetadataNode.toJson (node : MetadataNode) : Json :=
  .object [("shard_name", .string node.shardName), ("object_name", .string node.objectName)]

def MetadataNode.ofJson? : Json → Option MetadataNode :=
  Json.record? do
    let shardName ← Json.required "shard_name" Json.text?
    let objectName ← Json.required "object_name" Json.text?
    return { shardName, objectName }

structure Schema where
  id : UInt32
  name : String
  /-- A system schema can never be dropped. -/
  system : Bool
  state : SchemaState
  registry : Registry
  reservations : ReservationSet
  owner : Option Principal
  node : Option MetadataNode
deriving DecidableEq, Inhabited

namespace Schema

/-- A schema without objects. -/
def create (id : UInt32) (name : String) (owner : Option Principal) (system : Bool)
    (rule : CaseRule) : Schema :=
  { id, name, system, owner, state := .active, registry := .empty rule,
    reservations := .empty rule, node := none }

def canDrop (schema : Schema) : Bool :=
  !schema.system

def isValid (schema : Schema) : Bool :=
  schema.state = .active

def isOwnedBy (schema : Schema) (principal : Principal) : Bool :=
  schema.owner = some principal

/-- The registry, which only an active schema lets anyone see. -/
def activeRegistry (schema : Schema) : Except CatalogError Registry :=
  match schema.state with
  | .active => .ok schema.registry
  | .invalid => .error (.schemaInvalid schema.name)

/-- The schema at the end of its life. -/
def invalidate (schema : Schema) : Schema :=
  { schema with state := .invalid, owner := none }

def freeName (name : String) (schema : Schema) : Schema :=
  { schema with reservations := schema.reservations.free name }

/-- The schema as diagnostics show it. -/
def debugText (schema : Schema) : String :=
  let id := schema.id.toNat
  let name := Text.quoted schema.name
  let system := schema.system
  let state := schema.state.text
  s!"Schema \x7b id: {id}, name: {name}, system: {system}, state: {state} \x7d"

end Schema

end SchemaCatalog
