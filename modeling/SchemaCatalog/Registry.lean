import SchemaCatalog.NameMap
import SchemaCatalog.Object
/-!
# Registries

The five name spaces of a schema. Adding, renaming and removing check that the caller plays by the
rules, and a refused call has no effect; a change touches the name space of one kind only.
-/
namespace SchemaCatalog

structure Registry where
  tables : NameMap ObjectRef
  indexes : NameMap ObjectRef
  sequences : NameMap ObjectRef
  constants : NameMap ObjectRef
  functions : NameMap ObjectRef
deriving DecidableEq, Inhabited

namespace Registry

def empty (rule : CaseRule) : Registry :=
  ⟨.empty rule, .empty rule, .empty rule, .empty rule, .empty rule⟩

/-- The name space of a kind. -/
def space (registry : Registry) : ObjectKind → NameMap ObjectRef
  | .tableOrView => registry.tables
  | .index => registry.indexes
  | .sequence => registry.sequences
  | .constant => registry.constants
  | .functionAlias => registry.functions

/-- Change the name space of a kind. -/
def modifySpace (registry : Registry) (kind : ObjectKind)
    (change : NameMap ObjectRef → NameMap ObjectRef) : Registry :=
  match kind with
  | .tableOrView => { registry with tables := change registry.tables }
  | .index => { registry with indexes := change registry.indexes }
  | .sequence => { registry with sequences := change registry.sequences }
  | .constant => { registry with constants := change registry.constants }
  | .functionAlias => { registry with functions := change registry.functions }

theorem space_modifySpace (registry : Registry) (kind other : ObjectKind)
    (change : NameMap ObjectRef → NameMap ObjectRef) :
    (registry.modifySpace kind change).space other =
      if other = kind then change (registry.space kind) else registry.space other := by
  cases kind <;> cases other <;> rfl

/-- The object registered under a name. -/
def find? (registry : Registry) (kind : ObjectKind) (name : String) : Option ObjectRef :=
  (registry.space kind).get? name

/-- This very object, and not just its name, is registered. -/
def contains (registry : Registry) (ref : ObjectRef) (object : Object) : Bool :=
  registry.find? object.kind object.name = some ref

/-- Enter an object of `owner` under its name. -/
def add (registry : Registry) (owner : SchemaRef) (ref : ObjectRef) (object : Object) :
    Except CatalogError Registry :=
  let name := object.name
  if object.schema ≠ some owner then
    .error (.internalInvariant ("wrong schema for " ++ object.title))
  else if (registry.space object.kind).contains name then
    .error (.internalInvariant s!"object already exists: {name}")
  else
    .ok (registry.modifySpace object.kind (·.insert name ref))

/-- Move an object from its name to `newName`. -/
def rename (registry : Registry) (ref : ObjectRef) (object : Object) (newName : String) :
    Except CatalogError Registry := do
  let name := object.name
  if !registry.contains ref object then
    throw (.internalInvariant s!"not found: {name}")
  if name = newName || (registry.space object.kind).contains newName then
    throw (.internalInvariant s!"object already exists: {newName}")
  object.checkRename
  return registry.modifySpace object.kind fun space => (space.erase name).insert newName ref

/-- Strike out an object. -/
def remove (registry : Registry) (ref : ObjectRef) (object : Object) :
    Except CatalogError Registry :=
  let name := object.name
  match registry.find? object.kind name with
  | some entry =>
    if entry = ref then .ok (registry.modifySpace object.kind (·.erase name))
    else .error (.internalInvariant (object.title ++ " is a different object"))
  | none => .error (.internalInvariant s!"not found: {name}")

/-- Every registered object: tables and views, sequences, indexes, constants, functions. -/
def all (registry : Registry) : List ObjectRef :=
  registry.tables.values ++ registry.sequences.values ++ registry.indexes.values ++
    registry.constants.values ++ registry.functions.values

/-- The number of registered objects. -/
def size (registry : Registry) : Nat :=
  registry.tables.size + registry.indexes.size + registry.sequences.size +
    registry.constants.size + registry.functions.size

def isEmpty (registry : Registry) : Bool :=
  ObjectKind.all.all fun kind => (registry.space kind).isEmpty

end Registry

end SchemaCatalog
