import SchemaCatalog.Proofs.Growth
import SchemaCatalog.Proofs.Shrinking
/-!
# Changes

The changes that statements make, each with the conditions under which it is made and the exact
database after it. Every change keeps a database well-formed while ids do not repeat.
-/
namespace SchemaCatalog.Database

open Relation

/-- A statement that names the schema can read the table with this id. -/
def Readable (db : Database) (s : SchemaRef) (id : UInt32) : Prop :=
  ∃ t : ObjectRef, (t ∈ (db.space s .tableOrView).values ∨
    ∃ c, t ∈ (db.session c).tempTables.values) ∧ (db.object t).id = id

/-- What a new registered object refers to is there. -/
def Fits (db : Database) (s : SchemaRef) : ObjectBody → Prop
  | .table table =>
    table.isLocalTemporary = false ∧ ∀ id ∈ table.references, db.Readable s id
  | .index index => ∃ t ∈ (db.space s .tableOrView).values, (db.object t).id = index.tableId
  | _ => True

/-- A statement of a session that names the schema finds this table. -/
def Visible (db : Database) (c : SessionRef) (s : SchemaRef) (t : ObjectRef) : Prop :=
  t ∈ (db.space s .tableOrView).values ∨ t ∈ (db.session c).tempTables.values

/-- One change of the database, made by a session in the schema that it names. -/
inductive Change (c : SessionRef) (schemaName : String) (db : Database) : Database → Prop
  | schemaCreated {owner : Principal} (hfree : db.schemas.get? schemaName = none) :
    Change c schemaName db (withSchema schemaName (some owner) false db)
  | schemaDropped {s : SchemaRef} {db' : Database} (hname : db.findSchema schemaName = some s)
    (hsystem : (db.schema s).system = false) (hdropped : Dropped schemaName s db db') :
    Change c schemaName db db'
  | objectCreated {s : SchemaRef} {name : String} {body : ObjectBody}
    (hname : db.findSchema schemaName = some s)
    (hfree : (db.space s body.kind).get? name = none) (hfits : db.Fits s body) :
    Change c schemaName db (entered s db.nextObject (db.withObject s name body))
  | tempTableCreated {s : SchemaRef} {name : String} {table : Table}
    (hfree : (db.session c).tempTables.get? name = none)
    (hlocal : table.isLocalTemporary = true) :
    Change c schemaName db (tableKept c db.nextObject (db.withObject s name (.table table)))
  | tempIndexCreated {s : SchemaRef} {name : String} {index : Index}
    {t : ObjectRef} (hfree : (db.session c).tempIndexes.get? name = none)
    (ht : t ∈ (db.session c).tempTables.values) (hindex : index.tableId = (db.object t).id) :
    Change c schemaName db (indexKept c db.nextObject (db.withObject s name (.index index)))
  | renamed {s : SchemaRef} {o : ObjectRef} {newName : String}
    (hname : db.findSchema schemaName = some s) (ho : db.Holds s o)
    (hfree : (db.space s (db.object o).kind).get? newName = none) :
    Change c schemaName db (renamed s o newName db)
  | tableRemoved {s : SchemaRef} {t : ObjectRef} (hname : db.findSchema schemaName = some s)
    (ht : t ∈ (db.space s .tableOrView).values) (hfree : db.findDependent t t = none) :
    Change c schemaName db (db.tableRemoved s t)
  | objectRemoved {s : SchemaRef} {o : ObjectRef} (hname : db.findSchema schemaName = some s)
    (ho : db.Holds s o) (hkind : (db.object o).kind ≠ .tableOrView) :
    Change c schemaName db (detached s db o)
  | tempTableDropped (name : String) : Change c schemaName db (c.dropTempTable name db).2
  | tempIndexDropped (name : String) : Change c schemaName db (c.dropTempIndex name db).2
  | tableAltered {s : SchemaRef} {t : ObjectRef} {table : Table}
    (hname : db.findSchema schemaName = some s) (ht : db.Visible c s t)
    (hscope : table.scope = (db.tableOf t).scope)
    (hreferences : table.references = (db.tableOf t).references) :
    Change c schemaName db (t.setTable table db)
  | reservationsChanged {s : SchemaRef} (hname : db.findSchema schemaName = some s)
    (reservations : ReservationSet) : Change c schemaName db (withReservations s reservations db)

variable {c : SessionRef} {schemaName : String} {db db' : Database} {s : SchemaRef} {name : String}
  {body : ObjectBody}

theorem WellFormed.slot_of_readable (h : db.WellFormed) (hs : s ∈ db.allSchemas) {t : ObjectRef}
    (ht : t ∈ (db.space s .tableOrView).values ∨ ∃ c, t ∈ (db.session c).tempTables.values) :
    t.slot < db.objectStore.next := by
  rcases ht with ht | ⟨c, ht⟩
  · exact h.slots t (registered_of_mem hs ht)
  · exact h.keptSlots c t (.inl ht)

/-- What a new table reads is older than it. -/
private theorem WellFormed.references_withObject (h : db.WellFormed) (hid : db.nextId < UInt32.size)
    (hs : s ∈ db.allSchemas) {id : UInt32} (hread : db.Readable s id) :
    id < ((db.withObject s name body).object db.nextObject).id ∧
      (db.withObject s name body).Resolves s id := by
  obtain ⟨t, ht, rfl⟩ := hread
  have hslot := h.slot_of_readable hs ht
  have hsame := same_withObject_of_lt s name body hslot
  refine ⟨?_, t, Nat.lt_succ_of_lt hslot, hsame.id, ?_⟩
  · rw [UInt32.lt_iff_toNat_lt, id_nextObject hid]
    exact h.ids t hslot
  · rw [hsame.isLocalTemporary]
    exact ht.imp (fun ht => ht) fun ⟨c, ht⟩ => (h.tempTables c t ht).2

private theorem WellFormed.not_registered_nextObject (h : db.WellFormed) :
    ¬ db.Registered db.nextObject :=
  fun hreg => Nat.lt_irrefl _ (h.slots _ hreg)

private theorem WellFormed.enterable (h : db.WellFormed) (hid : db.nextId < UInt32.size)
    (hs : s ∈ db.allSchemas) (hfree : (db.space s body.kind).get? name = none)
    (hfits : db.Fits s body) : (db.withObject s name body).Enterable s db.nextObject := by
  have hnew : (db.withObject s name body).object db.nextObject =
    { id := UInt32.ofNat db.nextId, name, schema := some s, body } := object_nextObject
  refine ⟨hs, Nat.lt_succ_self _, by rw [hnew], ?_,
    fun c hkeeps => Nat.lt_irrefl _ (h.keptSlots c _ hkeeps), ?_, fun id hmem => ?_⟩
  · rw [nameOf, hnew]
    exact hfree
  · rw [tableOf, hnew]
    cases body with
    | table table => exact hfits.1
    | _ => rfl
  · rw [tableOf, hnew] at hmem
    cases body with
    | table table => exact h.references_withObject hid hs (hfits.2 id hmem)
    | _ => cases hmem

theorem Change.nextId_le (h : Change c schemaName db db') : db.nextId ≤ db'.nextId := by
  cases h with
  | schemaCreated => exact Nat.le_succ _
  | schemaDropped _ _ hdropped => exact Nat.le_of_eq hdropped.nextId_eq.symm
  | objectCreated => exact Nat.le_succ _
  | tempTableCreated => exact Nat.le_succ _
  | tempIndexCreated => exact Nat.le_succ _
  | renamed => exact Nat.le_refl _
  | tableRemoved => exact Nat.le_of_eq (nextId_detachedAll _ _ db).symm
  | objectRemoved => exact Nat.le_refl _
  | tempTableDropped name => exact Nat.le_of_eq (nextId_dropTempTable c name db).symm
  | tempIndexDropped name => exact Nat.le_of_eq (nextId_dropTempIndex c name db).symm
  | tableAltered => exact Nat.le_refl _
  | reservationsChanged => exact Nat.le_refl _

/-- Every change keeps the database well-formed, unless ids repeat. -/
theorem Change.wellFormed (h : Change c schemaName db db') (hdb : db.WellFormed)
    (hid : db'.nextId ≤ UInt32.size) : db'.WellFormed := by
  have hnew : ∀ s name body, ¬ (db.withObject s name body).Registered db.nextObject :=
    fun _ _ _ => hdb.not_registered_nextObject
  cases h with
  | schemaCreated => exact hdb.withSchema
  | schemaDropped hname _ hdropped =>
    exact hdb.shrinks (hdropped.shrinks hdb.toConsistent (mem_allSchemas_of_find hname))
  | objectCreated hname hfree hfits =>
    have hs := mem_allSchemas_of_find hname
    exact (hdb.withObject hid).entered (hdb.enterable hid hs hfree hfits)
  | tempTableCreated _ hlocal =>
    refine (hdb.withObject hid).tableKept _ (Nat.lt_succ_self _) (hnew _ _ _) ?_ ?_
    · rw [object_nextObject]
      rfl
    · rw [tableOf, object_nextObject]
      exact hlocal
  | tempIndexCreated =>
    exact (hdb.withObject hid).indexKept _ (Nat.lt_succ_self _) (hnew _ _ _)
  | renamed hname ho hfree => exact hdb.renamed (mem_allSchemas_of_find hname) ho hfree
  | tableRemoved hname ht hfree =>
    have hlive := hdb.live (mem_allSchemas_of_find hname)
    exact hdb.shrinks (hlive.shrinks_tableRemoved ht hfree)
  | objectRemoved hname ho hkind =>
    have hlive := hdb.live (mem_allSchemas_of_find hname)
    exact hdb.shrinks (hlive.shrinks_detached ho hkind)
  | tempTableDropped name => exact hdb.of_reflTransGen (hdb.dropTempTable c name)
  | tempIndexDropped name => exact hdb.of_reflTransGen (hdb.dropTempIndex c name)
  | tableAltered _ _ hscope hreferences =>
    exact hdb.shrinks (shrinks_setTable _ db hscope hreferences)
  | reservationsChanged _ reservations =>
    exact hdb.shrinks (shrinks_withReservations _ reservations db)

/-- The changes that a session makes in the schema that it names, one after the other. -/
def Changes (c : SessionRef) (schemaName : String) : Database → Database → Prop :=
  ReflTransGen (Change c schemaName)

theorem Changes.wellFormed (h : Changes c schemaName db db') (hdb : db.WellFormed)
    (hid : db'.nextId ≤ UInt32.size) : db'.WellFormed := by
  induction h with
  | refl => exact hdb
  | tail _ hlast ih => exact hlast.wellFormed (ih (Nat.le_trans hlast.nextId_le hid)) hid

end SchemaCatalog.Database
