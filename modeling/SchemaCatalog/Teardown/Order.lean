import SchemaCatalog.Database.Objects
import SchemaCatalog.Teardown.Graph
/-!
# Teardown hosts and the order of removal

A schema that is emptied removes nothing itself: a host says which tables still read a table and
takes objects away. A host may keep a state of its own beside the database; the database is a host
without one.

The order of removal lists the tables and views of a schema, each before the tables it reads. There
is no such order when a table is read from outside the schema or when tables read each other in a
cycle.
-/
namespace SchemaCatalog

/-- Reads and changes a database together with the state of a host. -/
abbrev HostM (η : Type) := EStateM CatalogError (Database × η)

instance {η : Type} : MonadLift CatalogM (HostM η) where
  monadLift act := fun (db, own) =>
    match act db with
    | .ok a db => .ok a (db, own)
    | .error e db => .error e (db, own)

/-- Run on a database alone. -/
def HostM.onDatabase {α : Type} (act : HostM Unit α) : CatalogM α := fun db =>
  match act (db, ()) with
  | .ok a (db, _) => .ok a db
  | .error e (db, _) => .error e db

structure CatalogHost (η : Type) where
  /-- The tables that still read a table. -/
  dependentsOf : ObjectRef → Database × η → List ObjectRef × η
  hasDependents : ObjectRef → Database × η → Bool × η
  /-- Drop an object, which takes it out of its schema. -/
  removeObject : Option SessionRef → ObjectRef → HostM η Unit

namespace CatalogHost

variable {η : Type}

/-- Whether the list of dependents has a member. -/
def someDependent (dependentsOf : ObjectRef → Database × η → List ObjectRef × η)
    (t : ObjectRef) (state : Database × η) : Bool × η :=
  let (dependents, own) := dependentsOf t state
  (!dependents.isEmpty, own)

/-- Put a question to the host; the database stays as it is. -/
def ask {α : Type} (question : Database × η → α × η) : HostM η α := fun state =>
  let (answer, own) := question state
  .ok answer (state.1, own)

end CatalogHost

/-- The database as the host of its own schemas. -/
def Database.host : CatalogHost Unit where
  dependentsOf t state := (state.1.dependentsOf t, ())
  hasDependents t state := (state.1.hasDependents t, ())
  removeObject session o := Database.removeObject session o

/-- The edges from the dependents of table `t`, which has number `i`, to it. The table itself is no
dependent, and one that is not among the tables refuses the removal. -/
def edgesInto (db : Database) (tables : List ObjectRef) (t : ObjectRef) (i : Nat) :
    List ObjectRef → Except CatalogError (List (Nat × Nat))
  | [] => .ok []
  | dependent :: rest =>
    if dependent = t then edgesInto db tables t i rest
    else
      match tables.idxOf? dependent with
      | none => .error (.cannotDrop (db.nameOf t) (db.nameOf dependent))
      | some j => (edgesInto db tables t i rest).map ((j, i) :: ·)

/-- The edges between tables, table by table. Only tables with dependents are asked for them. -/
def edgesBetween {η : Type} (host : CatalogHost η) (tables : List ObjectRef) :
    List (ObjectRef × Nat) → HostM η (List (Nat × Nat))
  | [] => return []
  | (t, i) :: rest => do
    if ← CatalogHost.ask (host.hasDependents t) then
      let dependents ← CatalogHost.ask (host.dependentsOf t)
      match edgesInto (← get).1 tables t i dependents with
      | .error e => throw e
      | .ok edges => return edges ++ (← edgesBetween host tables rest)
    else edgesBetween host tables rest

/-- Place a name before the first one that is not less. -/
def insertName (name : String) : List String → List String
  | [] => [name]
  | other :: rest => if name ≤ other then name :: other :: rest else other :: insertName name rest

/-- Names in the order of their code points. -/
def sortNames (names : List String) : List String :=
  names.foldr insertName []

theorem insertName_perm (name : String) (names : List String) :
    (insertName name names).Perm (name :: names) := by
  induction names with
  | nil => exact .refl _
  | cons other rest ih =>
    rw [insertName]
    split
    · exact .refl _
    · exact (ih.cons other).trans (.swap name other rest)

theorem sortNames_perm (names : List String) : (sortNames names).Perm names := by
  induction names with
  | nil => exact .refl _
  | cons name rest ih => exact (insertName_perm name _).trans (ih.cons name)

/-- The tables of a schema in the order of their removal. -/
def tableRemovalOrder {η : Type} (host : CatalogHost η) (s : SchemaRef) :
    HostM η (List ObjectRef) := do
  let tables ← s.tables
  let edges ← edgesBetween host tables tables.zipIdx
  let graph : Graph := ⟨tables.length, edges⟩
  let select := List.filterMap fun node => tables[node]?
  match graph.cycle? with
  | none => return select graph.order
  | some component => throw (.dependencyCycle (sortNames ((select component).map (← get).1.nameOf)))

end SchemaCatalog
