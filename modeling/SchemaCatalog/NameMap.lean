import SchemaCatalog.SortedMap
import SchemaCatalog.Text.Uppercase
/-!
# Name spaces

How a database compares names: they agree when they fold to the same key, and `fold_append` says
that folding works piece by piece. A name space is a finite map from names to values in which names
that agree are one name. The values are listed in the order of the folded names.
-/
namespace SchemaCatalog

/-- Whether names that differ only in case are told apart. -/
inductive CaseRule where
  | exact
  | ignoreCase
deriving DecidableEq, Inhabited

namespace CaseRule

def ofIgnoreCase (ignore : Bool) : CaseRule :=
  if ignore then ignoreCase else exact

def ignoresCase : CaseRule → Bool
  | exact => false
  | ignoreCase => true

/-- The key under which a name is kept. -/
def fold : CaseRule → String → String
  | exact, name => name
  | ignoreCase, name => Text.upper name

@[simp] theorem fold_exact (name : String) : exact.fold name = name := rfl

theorem fold_append (rule : CaseRule) (s t : String) :
    rule.fold (s ++ t) = rule.fold s ++ rule.fold t := by
  cases rule with
  | exact => rfl
  | ignoreCase => exact Text.upper_append s t

@[simp] theorem ignoresCase_ofIgnoreCase (ignore : Bool) :
    (ofIgnoreCase ignore).ignoresCase = ignore := by
  cases ignore <;> rfl

end CaseRule

/-- Values by folded name. -/
structure NameMap (ν : Type) where
  rule : CaseRule
  entries : SortedMap String ν
deriving DecidableEq

namespace NameMap

variable {ν : Type}

def empty (rule : CaseRule) : NameMap ν := ⟨rule, .empty⟩

instance : Inhabited (NameMap ν) := ⟨empty default⟩

/-- The key under which `name` is stored. -/
def key (m : NameMap ν) (name : String) : String :=
  m.rule.fold name

def get? (m : NameMap ν) (name : String) : Option ν :=
  m.entries.get? (m.key name)

def contains (m : NameMap ν) (name : String) : Bool :=
  (m.get? name).isSome

def insert (m : NameMap ν) (name : String) (v : ν) : NameMap ν :=
  { m with entries := m.entries.insert (m.key name) v }

def erase (m : NameMap ν) (name : String) : NameMap ν :=
  { m with entries := m.entries.erase (m.key name) }

/-- Store a value and return the one it replaces. -/
def put (m : NameMap ν) (name : String) (v : ν) : Option ν × NameMap ν :=
  (m.get? name, m.insert name v)

/-- Remove a value and return it. -/
def take (m : NameMap ν) (name : String) : Option ν × NameMap ν :=
  (m.get? name, m.erase name)

def size (m : NameMap ν) : Nat :=
  m.entries.size

def isEmpty (m : NameMap ν) : Bool :=
  m.entries.isEmpty

/-- The values in the order of their keys. -/
def values (m : NameMap ν) : List ν :=
  m.entries.values

/-- The value with the least key. -/
def first? (m : NameMap ν) : Option ν :=
  m.entries.first?

@[simp] theorem key_insert (m : NameMap ν) (name other : String) (v : ν) :
    (m.insert name v).key other = m.key other := rfl

@[simp] theorem key_erase (m : NameMap ν) (name other : String) :
    (m.erase name).key other = m.key other := rfl

theorem get?_insert (m : NameMap ν) (name other : String) (v : ν) :
    (m.insert name v).get? other = if m.key other = m.key name then some v else m.get? other :=
  SortedMap.get?_insert ..

theorem get?_erase (m : NameMap ν) (name other : String) :
    (m.erase name).get? other = if m.key name = m.key other then none else m.get? other :=
  SortedMap.get?_erase ..

end NameMap

end SchemaCatalog
