import SchemaCatalog.SortedMap
/-!
# Stores

Values in numbered slots that are filled one after the other. A slot never filled reads as the
default value, so `get_set` holds of every slot. Objects, schemas and sessions are known by the slot
that holds them, so each keeps its identity while its contents change. Two things never share a
slot, even when they share an id or a name.
-/
namespace SchemaCatalog

structure ObjectRef where
  slot : Nat
deriving DecidableEq, Inhabited

structure SchemaRef where
  slot : Nat
deriving DecidableEq, Inhabited

structure SessionRef where
  slot : Nat
deriving DecidableEq, Inhabited

structure Store (α : Type) where
  cells : SortedMap Nat α
  /-- The first slot not given out yet. -/
  next : Nat
deriving DecidableEq

namespace Store

variable {α : Type}

def empty : Store α := ⟨.empty, 0⟩

instance : Inhabited (Store α) := ⟨empty⟩

def get [Inhabited α] (store : Store α) (slot : Nat) : α :=
  (store.cells.get? slot).getD default

def set (store : Store α) (slot : Nat) (a : α) : Store α :=
  { store with cells := store.cells.insert slot a }

def modify [Inhabited α] (store : Store α) (slot : Nat) (f : α → α) : Store α :=
  store.set slot (f (store.get slot))

/-- Fill the next slot and return it. -/
def push (store : Store α) (a : α) : Nat × Store α :=
  (store.next, ⟨store.cells.insert store.next a, store.next + 1⟩)

theorem get_set [Inhabited α] (store : Store α) (slot other : Nat) (a : α) :
    (store.set slot a).get other = if other = slot then a else store.get other := by
  simp only [get, set, SortedMap.get?_insert]
  split <;> rfl

theorem get_modify [Inhabited α] (store : Store α) (slot other : Nat) (f : α → α) :
    (store.modify slot f).get other =
      if other = slot then f (store.get slot) else store.get other :=
  get_set ..

theorem get_push [Inhabited α] (store : Store α) (other : Nat) (a : α) :
    (store.push a).2.get other = if other = store.next then a else store.get other := by
  simp only [get, push, SortedMap.get?_insert]
  split <;> rfl

end Store

end SchemaCatalog
