import SchemaCatalog.Json.Decode
/-!
# Kinds of schema objects

A schema keeps five kinds of objects, each kind in a name space of its own.
-/
namespace SchemaCatalog

inductive ObjectKind where
  | tableOrView
  | index
  | sequence
  | constant
  | functionAlias
deriving DecidableEq, Inhabited

namespace ObjectKind

/-- Every kind, in the order in which a schema is emptied. -/
def all : List ObjectKind :=
  [tableOrView, index, sequence, constant, functionAlias]

/-- The place of a kind in `all`. -/
def position : ObjectKind → Nat
  | tableOrView => 0
  | index => 1
  | sequence => 2
  | constant => 3
  | functionAlias => 4

/-- The kind as messages call it. -/
def text : ObjectKind → String
  | tableOrView => "table or view"
  | index => "index"
  | sequence => "sequence"
  | constant => "constant"
  | functionAlias => "function alias"

/-- The name of a kind in data. -/
def jsonName : ObjectKind → String
  | tableOrView => "TableOrView"
  | index => "Index"
  | sequence => "Sequence"
  | constant => "Constant"
  | functionAlias => "FunctionAlias"

def toJson (kind : ObjectKind) : Json :=
  .string kind.jsonName

def ofJson? : Json → Option ObjectKind :=
  Json.plainChoice? (all.map fun kind => (kind.jsonName, kind))

theorem all_getElem?_position (kind : ObjectKind) : all[kind.position]? = some kind := by
  cases kind <;> rfl

end ObjectKind

end SchemaCatalog
