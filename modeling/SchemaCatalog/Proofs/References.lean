import SchemaCatalog.Proofs.Reachable
/-!
# References

What a registered table reads is there: every reference names an older table, which is registered in
the same schema or was made as a local temporary one. So tables read each other neither in a circle
nor across schemas, and a table goes only when no table that stays reads it.
-/
namespace SchemaCatalog

open Database Relation

namespace Database

section Lasts

variable {db db' db'' : Database}

/-- The objects made so far keep their ids and scopes. -/
structure Lasts (db db' : Database) : Prop where
  count : db.objectStore.next ≤ db'.objectStore.next
  id : ∀ o : ObjectRef, o.slot < db.objectStore.next → (db'.object o).id = (db.object o).id
  scope : ∀ o : ObjectRef, o.slot < db.objectStore.next →
    (db'.tableOf o).scope = (db.tableOf o).scope

namespace Lasts

theorem of_objectStore_eq (h : db'.objectStore = db.objectStore) : Lasts db db' := by
  have hobject : ∀ o, db'.object o = db.object o := by
    intro o
    rw [object, h, object]
  refine ⟨Nat.le_of_eq (by rw [h]), fun o _ => by rw [hobject], fun o _ => ?_⟩
  rw [tableOf, hobject, tableOf]

theorem trans (h : Lasts db db') (h' : Lasts db' db'') : Lasts db db'' where
  count := Nat.le_trans h.count h'.count
  id := fun o ho => (h'.id o (Nat.lt_of_lt_of_le ho h.count)).trans (h.id o ho)
  scope := fun o ho => (h'.scope o (Nat.lt_of_lt_of_le ho h.count)).trans (h.scope o ho)

private theorem withObject (s : SchemaRef) (name : String) (body : ObjectBody) (db : Database) :
    Lasts db (db.withObject s name body) where
  count := Nat.le_succ _
  id := fun _ ho => (same_withObject_of_lt s name body ho).id
  scope := fun _ ho => (same_withObject_of_lt s name body ho).scope

end Lasts

theorem Shrinks.lasts (h : Shrinks db db') : Lasts db db' where
  count := Nat.le_of_eq h.objectCount.symm
  id := fun o _ => (h.objects o).id
  scope := fun o _ => (h.objects o).scope

private theorem lasts_of_reflTransGen (h : ReflTransGen Shrinks db db') : Lasts db db' := by
  induction h with
  | refl => exact .of_objectStore_eq rfl
  | tail _ hlast ih => exact ih.trans hlast.lasts

theorem Change.lasts {c : SessionRef} {schemaName : String} (h : Change c schemaName db db')
    (hdb : db.WellFormed) : Lasts db db' := by
  cases h with
  | schemaCreated => exact .of_objectStore_eq rfl
  | schemaDropped hname _ hdropped =>
    exact (hdropped.shrinks hdb.toConsistent (mem_allSchemas_of_find hname)).lasts
  | objectCreated => exact (Lasts.withObject _ _ _ db).trans (.of_objectStore_eq rfl)
  | tempTableCreated => exact (Lasts.withObject _ _ _ db).trans (.of_objectStore_eq rfl)
  | tempIndexCreated => exact (Lasts.withObject _ _ _ db).trans (.of_objectStore_eq rfl)
  | renamed =>
    exact ⟨Nat.le_refl _, fun _ _ => id_renamed, fun _ _ => congrArg Table.scope tableOf_renamed⟩
  | tableRemoved hname ht hfree =>
    exact ((hdb.live (mem_allSchemas_of_find hname)).shrinks_tableRemoved ht hfree).lasts
  | objectRemoved hname ho hkind =>
    exact ((hdb.live (mem_allSchemas_of_find hname)).shrinks_detached ho hkind).lasts
  | tempTableDropped name => exact lasts_of_reflTransGen (hdb.dropTempTable c name)
  | tempIndexDropped name => exact lasts_of_reflTransGen (hdb.dropTempIndex c name)
  | tableAltered _ _ hscope hreferences => exact (shrinks_setTable _ db hscope hreferences).lasts
  | reservationsChanged _ reservations => exact (shrinks_withReservations _ reservations db).lasts

theorem Changes.lasts {c : SessionRef} {schemaName : String} (h : Changes c schemaName db db')
    (hdb : db.WellFormed) (hid : db'.nextId ≤ UInt32.size) : Lasts db db' := by
  induction h with
  | refl => exact .of_objectStore_eq rfl
  | tail hbefore hlast ih =>
    have hmid := Nat.le_trans hlast.nextId_le hid
    exact (ih hmid).trans (hlast.lasts (Changes.wellFormed hbefore hdb hmid))

end Lasts

end Database

theorem Action.lasts {db : Database} (h : db.WellFormed) (action : Action)
    (hid : (action.run db).nextId ≤ UInt32.size) : Lasts db (action.run db) := by
  rcases action.changes_or_shrinks h with ⟨c, schemaName, hchanges⟩ | hshrinks
  · exact hchanges.lasts h hid
  · exact lasts_of_reflTransGen hshrinks

section References

variable {db db' : Database} {s : SchemaRef} {t u : ObjectRef}

/-- A table that was registered and that a registered table reads is still registered. -/
private theorem Database.WellFormed.mem_allTables_of_read (h : db.WellFormed) (h' : db'.WellFormed)
    (hlasts : Lasts db db') (ht : t ∈ db.allTables) (hu : u ∈ db'.allTables)
    (href : (db.object t).id ∈ (db'.tableOf u).references) : t ∈ db'.allTables := by
  obtain ⟨s, hs, hu⟩ := Database.mem_allTables.mp hu
  obtain ⟨-, u', hslot, hid, hor⟩ := h'.references s hs u (mem_tablesIn.mp hu).2 _ href
  have hold := h.slots t (registered_of_mem_allTables ht)
  rw [← hlasts.id t hold] at hid
  obtain rfl := h'.distinct u' t hslot (Nat.lt_of_lt_of_le hold hlasts.count) hid
  rcases hor with hmem | hlocal
  · exact h'.mem_allTables hs hmem
  · have hpermanent := h.permanent u' ht
    simp only [Table.isLocalTemporary, Table.isTemporary, Table.isGlobalTemporary,
      hlasts.scope u' hold] at hlocal hpermanent
    rw [hlocal] at hpermanent
    cases hpermanent

theorem Database.kind_of_isLocalTemporary (h : (db.tableOf t).isLocalTemporary = true) :
    (db.object t).kind = .tableOrView := by
  rw [tableOf, Object.asTable] at h
  split at h
  next hbody => rw [Object.kind, hbody, ObjectBody.kind]
  next => cases h

/-- What registered tables read is there. -/
structure Database.ReferencesHold (db : Database) : Prop where
  /-- A reference names an older table, which is registered in the same schema or was made as a local
  temporary table. -/
  resolved : ∀ s ∈ db.allSchemas, ∀ t ∈ (db.space s .tableOrView).values,
    ∀ id ∈ (db.tableOf t).references, id < (db.object t).id ∧
      ((∃ u ∈ (db.space s .tableOrView).values, (db.object u).id = id) ∨
        ∃ u : ObjectRef, u.slot < db.objectStore.next ∧ (db.object u).id = id ∧
          (db.object u).kind = .tableOrView ∧ (db.tableOf u).isLocalTemporary = true)
  /-- All tables in the registries of schemas are listed. -/
  listed : ∀ s ∈ db.allSchemas, ∀ t ∈ (db.space s .tableOrView).values, t ∈ db.allTables
  /-- Tables do not read each other in a circle. -/
  acyclic : ∀ t, ¬ TransGen db.Reads t t
  /-- A table reads no table of another schema. -/
  inside : ∀ s ∈ db.allSchemas, ∀ r ∈ db.allSchemas, ∀ u ∈ (db.space s .tableOrView).values,
    ∀ t ∈ (db.space r .tableOrView).values, db.Reads u t → s = r
  /-- Whatever happens, a table that a registered table still reads stays registered. -/
  kept : ∀ action : Action, (action.run db).nextId ≤ UInt32.size → ∀ t ∈ db.allTables,
    ∀ u ∈ (action.run db).allTables, (db.object t).id ∈ ((action.run db).tableOf u).references →
      t ∈ (action.run db).allTables

theorem Reachable.referencesHold (h : Reachable db) : db.ReferencesHold where
  resolved := by
    intro s hs t ht id hid
    obtain ⟨hlt, u, hslot, huid, hor⟩ := h.wellFormed.references s hs t ht id hid
    refine ⟨hlt, hor.imp (fun hu => ⟨u, hu, huid⟩) fun hlocal => ?_⟩
    exact ⟨u, hslot, huid, kind_of_isLocalTemporary hlocal, hlocal⟩
  listed := fun _ hs _ ht => h.wellFormed.mem_allTables hs ht
  acyclic := fun _ => h.wellFormed.not_reads_self
  inside := fun _ hs _ hr _ hu _ ht hreads => h.wellFormed.schema_eq_of_reads hs hr hu ht hreads
  kept := fun action hid _ ht _ hu href =>
    h.wellFormed.mem_allTables_of_read (action.wellFormed h.wellFormed hid)
      (action.lasts h.wellFormed hid) ht hu href

theorem referencesHold_withView : Reachable withView ∧ withView.Reads ⟨1⟩ ⟨0⟩ ∧
    withView.ReferencesHold :=
  ⟨reachable_withView, ⟨by decide +kernel, by decide +kernel, by decide +kernel⟩,
    reachable_withView.referencesHold⟩

end References

end SchemaCatalog
