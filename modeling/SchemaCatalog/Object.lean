import SchemaCatalog.CatalogError
import SchemaCatalog.Store
import SchemaCatalog.Table
/-!
# Schema objects

An object has an id, a name that can change, the schema it belongs to until it is invalidated, and
a body that settles its kind for good. A sequence generates numbers over the 64-bit integers and
wraps around; `valueAt_eq` gives the value of every call in closed form.
-/
namespace SchemaCatalog

inductive IndexKind where
  | primaryKey
  | unique
  | nonUnique
deriving DecidableEq, Inhabited

namespace IndexKind

/-- The stem of the names generated for unnamed indexes of a kind. -/
def nameStem : IndexKind → String
  | primaryKey => "PRIMARY_KEY_"
  | unique => "INDEX_"
  | nonUnique => "INDEX_"

def toJson : IndexKind → Json
  | primaryKey => .string "PrimaryKey"
  | unique => .string "Unique"
  | nonUnique => .string "NonUnique"

def ofJson? : Json → Option IndexKind :=
  Json.plainChoice? [("PrimaryKey", primaryKey), ("Unique", unique), ("NonUnique", nonUnique)]

end IndexKind

/-- What an index is made of. The table is kept by its id and its name when the index was made. -/
structure Index where
  tableId : UInt32
  tableName : String
  columns : List String
  kind : IndexKind
deriving DecidableEq, Inhabited

structure Sequence where
  increment : Int64
  next : Int64
deriving DecidableEq, Inhabited

namespace Sequence

/-- The sequence 1, 2, 3, and so on. -/
def counting : Sequence := ⟨1, 1⟩

/-- The sequence after one value was taken from it. -/
def advance (s : Sequence) : Sequence :=
  { s with next := s.next + s.increment }

/-- The next `n` values and the sequence after them. -/
def take : Nat → Sequence → List Int64 × Sequence
  | 0, s => ([], s)
  | n + 1, s =>
    let (values, s') := take n s.advance
    (s.next :: values, s')

/-- The value of the call with number `n`, counted from 0. -/
def valueAt (s : Sequence) (n : Nat) : Int64 :=
  (Nat.repeat advance n s).next

private theorem repeat_advance (s : Sequence) (n : Nat) :
    Nat.repeat advance n s = { s with next := s.next + Int64.ofNat n * s.increment } := by
  induction n with
  | zero => simp [Nat.repeat]
  | succ n ih =>
    rw [Nat.repeat, ih, advance, Int64.ofNat_add, Int64.add_mul]
    simp [Int64.add_assoc]

theorem valueAt_eq (s : Sequence) (n : Nat) :
    s.valueAt n = s.next + Int64.ofNat n * s.increment := by
  rw [valueAt, repeat_advance]

end Sequence

/-- A callable name bound to its implementation. -/
structure FunctionAlias where
  target : String
  deterministic : Bool
deriving DecidableEq, Inhabited

inductive ObjectBody where
  | table (table : Table)
  | index (index : Index)
  | sequence (sequence : Sequence)
  | constant (value : String)
  | functionAlias (function : FunctionAlias)
deriving DecidableEq, Inhabited

def ObjectBody.kind : ObjectBody → ObjectKind
  | table _ => .tableOrView
  | index _ => .index
  | sequence _ => .sequence
  | constant _ => .constant
  | functionAlias _ => .functionAlias

structure Object where
  id : UInt32
  name : String
  /-- The schema the object belongs to, until it is invalidated. -/
  schema : Option SchemaRef
  body : ObjectBody
deriving DecidableEq, Inhabited

namespace Object

def kind (object : Object) : ObjectKind :=
  object.body.kind

def isValid (object : Object) : Bool :=
  object.schema.isSome

/-- The table of an object; objects of other kinds read as an empty one. -/
def asTable (object : Object) : Table :=
  match object.body with
  | .table table => table
  | _ => default

/-- The index of an object; objects of other kinds read as an empty one. -/
def asIndex (object : Object) : Index :=
  match object.body with
  | .index index => index
  | _ => default

/-- The object with its table changed; objects of other kinds stay as they are. -/
def mapTable (change : Table → Table) (object : Object) : Object :=
  match object.body with
  | .table table => { object with body := .table (change table) }
  | _ => object

/-- The kind and name of an object as messages give them. -/
def title (object : Object) : String :=
  let name := object.name
  object.kind.text ++ s!" \"{name}\""

/-- The object lets its schema rename it: the name of a primary key index belongs to the key. -/
def checkRename (object : Object) : Except CatalogError Unit :=
  match object.body with
  | .index index =>
    if index.kind = .primaryKey then
      let name := object.name
      .error (.unsupported s!"rename of primary key index \"{name}\"")
    else .ok ()
  | _ => .ok ()

def rename (name : String) (object : Object) : Object :=
  { object with name }

/-- The object cut off from its schema. -/
def invalidate (object : Object) : Object :=
  { object with schema := none }

@[simp] theorem kind_rename (name : String) (object : Object) :
    (object.rename name).kind = object.kind := rfl

@[simp] theorem kind_invalidate (object : Object) : object.invalidate.kind = object.kind := rfl

@[simp] theorem kind_mapTable (change : Table → Table) (object : Object) :
    (object.mapTable change).kind = object.kind := by
  unfold mapTable
  split
  next h => simp [kind, h, ObjectBody.kind]
  next => rfl

end Object

end SchemaCatalog
