import SchemaCatalog.Proofs.SchemaDrop
/-!
# Well-formed databases

What holds of a database at all times: its registries are consistent, everything registered or kept
by a session has a slot and an id of its own, sessions keep local temporary tables and registries
keep none, and a registered table reads only older tables of its schema and local temporary ones.
Hence every schema can be dropped.
-/
namespace SchemaCatalog

namespace NameMap

variable {ν : Type} {m m' : NameMap ν} {nameOf : ν → String} {v : ν}

/-- Every entry of the first map is an entry of the second. -/
def Within (m m' : NameMap ν) : Prop :=
  ∀ key v, m.entries.get? key = some v → m.rule = m'.rule ∧ m'.entries.get? key = some v

theorem Within.refl (m : NameMap ν) : m.Within m :=
  fun _ _ h => ⟨rfl, h⟩

theorem Within.of_eq (h : m = m') : m.Within m' :=
  h ▸ .refl m

theorem Within.trans {m'' : NameMap ν} (h : m.Within m') (h' : m'.Within m'') : m.Within m'' := by
  intro key v hv
  obtain ⟨hrule, hv⟩ := h key v hv
  obtain ⟨hrule', hv⟩ := h' key v hv
  exact ⟨hrule.trans hrule', hv⟩

theorem Within.mem_values (h : m.Within m') (hv : v ∈ m.values) : v ∈ m'.values := by
  obtain ⟨key, hkey⟩ := NameMap.mem_values.mp hv
  exact NameMap.mem_values.mpr ⟨key, (h key v hkey).2⟩

/-- A map without an entry of the other has fewer entries. -/
theorem Within.size_lt (h : m.Within m') {key : String} (hv : m'.entries.get? key = some v)
    (hgone : m.entries.get? key ≠ some v) : m.size < m'.size := by
  have hnodup : ((key, v) :: m.entries.entries).Nodup := by
    refine List.nodup_cons.mpr ⟨fun hin => hgone ((SortedMap.mem_entries_iff _ _ _).mp hin), ?_⟩
    refine m.entries.sorted.imp fun {a b} hlt heq => ?_
    simp [heq] at hlt
  have hsubset : (key, v) :: m.entries.entries ⊆ m'.entries.entries := by
    rintro ⟨key', v'⟩ hin
    apply (SortedMap.mem_entries_iff _ _ _).mpr
    rcases List.mem_cons.mp hin with heq | hin
    · cases heq
      exact hv
    · exact (h key' v' ((SortedMap.mem_entries_iff _ _ _).mp hin)).2
  exact (List.subperm_of_subset hnodup hsubset).length_le

theorem Keyed.within (h : m'.Keyed nameOf) (hwithin : m.Within m') : m.Keyed nameOf := by
  intro key v hv
  obtain ⟨hrule, hv⟩ := hwithin key v hv
  rw [NameMap.key, hrule]
  exact h key v hv

theorem within_erase (m : NameMap ν) (name : String) : (m.erase name).Within m := by
  intro key v hv
  rw [entries_erase, SortedMap.get?_erase] at hv
  split at hv
  · cases hv
  · exact ⟨rfl, hv⟩

theorem within_empty (rule : CaseRule) (m : NameMap ν) : (empty rule).Within m := by
  intro key v hv
  simp [NameMap.empty] at hv

end NameMap

namespace Database

/-- A schema files what it is left with as before. -/
theorem Filed.within {db db' : Database} {s : SchemaRef} (h : db.Filed s)
    (hspaces : ∀ kind, (db'.space s kind).Within (db.space s kind))
    (hobjects : ∀ o, db'.Holds s o →
      db'.nameOf o = db.nameOf o ∧ (db'.object o).kind = (db.object o).kind) : db'.Filed s where
  keyed := fun kind => ((h.keyed kind).within (hspaces kind)).congr fun o ho =>
    (hobjects o ⟨kind, ho⟩).1
  kinds := fun kind o ho =>
    (hobjects o ⟨kind, ho⟩).2.trans (h.kinds kind o ((hspaces kind).mem_values ho))

/-- The object is registered in some schema. -/
def Registered (db : Database) (o : ObjectRef) : Prop :=
  ∃ s ∈ db.allSchemas, db.Holds s o

/-- The session keeps the object among its local temporary ones. -/
def Keeps (db : Database) (c : SessionRef) (o : ObjectRef) : Prop :=
  o ∈ (db.session c).tempTables.values ∨ o ∈ (db.session c).tempIndexes.values

/-- The id belongs to a table of the schema or to a local temporary table. -/
def Resolves (db : Database) (s : SchemaRef) (id : UInt32) : Prop :=
  ∃ u : ObjectRef, u.slot < db.objectStore.next ∧ (db.object u).id = id ∧
    (u ∈ (db.space s .tableOrView).values ∨ (db.tableOf u).isLocalTemporary = true)

structure WellFormed (db : Database) : Prop extends Consistent db where
  active : ∀ s ∈ db.allSchemas, (db.schema s).state = .active
  schemaSlots : ∀ s ∈ db.allSchemas, s.slot < db.schemaStore.next
  slots : ∀ o, db.Registered o → o.slot < db.objectStore.next
  permanent : db.Permanent
  keptSlots : ∀ c o, db.Keeps c o → o.slot < db.objectStore.next
  /-- No registered object is kept by a session. -/
  apart : ∀ c o, db.Keeps c o → ¬ db.Registered o
  tempKeyed : ∀ c, (db.session c).tempTables.Keyed db.nameOf
  tempTables : ∀ c, ∀ t ∈ (db.session c).tempTables.values,
    (db.object t).kind = .tableOrView ∧ (db.tableOf t).isLocalTemporary = true
  /-- Ids are given out in increasing order, each of them once. -/
  ids : ∀ o : ObjectRef, o.slot < db.objectStore.next → (db.object o).id.toNat < db.nextId
  distinct : ∀ o o' : ObjectRef, o.slot < db.objectStore.next → o'.slot < db.objectStore.next →
    (db.object o).id = (db.object o').id → o = o'
  references : ∀ s ∈ db.allSchemas, ∀ t ∈ (db.space s .tableOrView).values,
    ∀ id ∈ (db.tableOf t).references, id < (db.object t).id ∧ db.Resolves s id

section Droppable

open Relation

variable {db : Database} {s r : SchemaRef} {t u o : ObjectRef}

theorem registered_of_mem {kind : ObjectKind} (hs : s ∈ db.allSchemas)
    (ho : o ∈ (db.space s kind).values) : db.Registered o :=
  ⟨s, hs, kind, ho⟩

theorem registered_of_mem_allTables (ht : t ∈ db.allTables) : db.Registered t := by
  obtain ⟨s, hs, ht⟩ := Database.mem_allTables.mp ht
  exact registered_of_mem hs (mem_tablesIn.mp ht).2

theorem WellFormed.live (h : db.WellFormed) (hs : s ∈ db.allSchemas) : db.Live s :=
  ⟨h.toConsistent, hs, h.active s hs⟩

theorem WellFormed.mem_allTables (h : db.WellFormed) (hs : s ∈ db.allSchemas)
    (ht : t ∈ (db.space s .tableOrView).values) : t ∈ db.allTables :=
  Database.mem_allTables.mpr ⟨s, hs, mem_tablesIn.mpr ⟨h.active s hs, ht⟩⟩

/-- A table that a registered table reads is registered in the same schema, if at all. -/
private theorem WellFormed.mem_of_read (h : db.WellFormed) (hs : s ∈ db.allSchemas)
    (hu : u ∈ (db.space s .tableOrView).values) (ht : t ∈ db.allTables)
    (href : (db.object t).id ∈ (db.tableOf u).references) :
    t ∈ (db.space s .tableOrView).values := by
  obtain ⟨-, u', hslot, hid, hu'⟩ := h.references s hs u hu _ href
  obtain rfl := h.distinct u' t hslot (h.slots t (registered_of_mem_allTables ht)) hid
  rcases hu' with hu' | hu'
  · exact hu'
  · have hpermanent := h.permanent u' ht
    rw [hu'] at hpermanent
    cases hpermanent

/-- A registered table reads a registered one. -/
def Reads (db : Database) (u t : ObjectRef) : Prop :=
  u ∈ db.allTables ∧ t ∈ db.allTables ∧ (db.object t).id ∈ (db.tableOf u).references

/-- Tables read only what is older. -/
private theorem WellFormed.id_lt_of_reads (h : db.WellFormed) (hreads : TransGen db.Reads u t) :
    (db.object t).id < (db.object u).id := by
  have hlt : ∀ {u t}, db.Reads u t → (db.object t).id < (db.object u).id := by
    rintro u t ⟨hu, -, href⟩
    obtain ⟨s, hs, hu⟩ := Database.mem_allTables.mp hu
    exact (h.references s hs u (mem_tablesIn.mp hu).2 _ href).1
  induction hreads with
  | single hread => exact hlt hread
  | tail _ hread ih => exact UInt32.lt_trans (hlt hread) ih

theorem WellFormed.not_reads_self (h : db.WellFormed) : ¬ TransGen db.Reads t t :=
  fun hcycle => UInt32.lt_irrefl _ (h.id_lt_of_reads hcycle)

/-- Tables read only what is in their own schema. -/
theorem WellFormed.schema_eq_of_reads (h : db.WellFormed) (hs : s ∈ db.allSchemas)
    (hr : r ∈ db.allSchemas) (hu : u ∈ (db.space s .tableOrView).values)
    (ht : t ∈ (db.space r .tableOrView).values) (hreads : db.Reads u t) : s = r := by
  have hmem := h.mem_of_read hs hu hreads.2.1 hreads.2.2
  exact h.schema_eq hs hr ⟨_, hmem⟩ ⟨_, ht⟩

theorem WellFormed.droppable (h : db.WellFormed) (hs : s ∈ db.allSchemas) : db.Droppable s where
  inside := by
    rintro ⟨t, ht, u, hu, hout, href⟩
    obtain ⟨r, hr, hur⟩ := Database.mem_allTables.mp hu
    obtain rfl := h.schema_eq_of_reads hr hs (mem_tablesIn.mp hur).2 (mem_tablesIn.mp ht).2
      ⟨hu, mem_allTables_of_mem_tablesIn hs ht, href⟩
    exact hout hur
  acyclic := by
    intro t hcycle
    have hle : db.ReadsWithin s ≤ db.Reads := by
      rintro u t ⟨hu, ht, -, href⟩
      exact ⟨mem_allTables_of_mem_tablesIn hs hu, mem_allTables_of_mem_tablesIn hs ht, href⟩
    exact h.not_reads_self (TransGen.mono hle t t hcycle)

end Droppable

section Shrinks

variable {db db' : Database} {s : SchemaRef} {o : ObjectRef}

/-- The object keeps its id, its name and kind, and what makes a table or an index what it is. -/
structure Same (db db' : Database) (o : ObjectRef) : Prop where
  id : (db'.object o).id = (db.object o).id
  name : db'.nameOf o = db.nameOf o
  kind : (db'.object o).kind = (db.object o).kind
  scope : (db'.tableOf o).scope = (db.tableOf o).scope
  references : (db'.tableOf o).references = (db.tableOf o).references
  index : db'.indexOf o = db.indexOf o

theorem Same.of_eq (h : db'.object o = db.object o) : Same db db' o := by
  refine ⟨?_, ?_, ?_, ?_, ?_, ?_⟩ <;> simp only [nameOf, tableOf, indexOf, h]

theorem Same.invalidate (h : db'.object o = (db.object o).invalidate) : Same db db' o := by
  refine ⟨?_, ?_, ?_, ?_, ?_, ?_⟩ <;> simp only [nameOf, tableOf, indexOf, h] <;> rfl

theorem Same.trans {db'' : Database} (h : Same db db' o) (h' : Same db' db'' o) :
    Same db db'' o where
  id := h'.id.trans h.id
  name := h'.name.trans h.name
  kind := h'.kind.trans h.kind
  scope := h'.scope.trans h.scope
  references := h'.references.trans h.references
  index := h'.index.trans h.index

theorem Same.isLocalTemporary (h : Same db db' o) :
    (db'.tableOf o).isLocalTemporary = (db.tableOf o).isLocalTemporary := by
  simp only [Table.isLocalTemporary, Table.isTemporary, Table.isGlobalTemporary, h.scope]

/-- Nothing is added, and what is still registered or kept is what it was. A table that is still
registered has lost none of the tables it reads. -/
structure Shrinks (db db' : Database) : Prop where
  objects : ∀ o, Same db db' o
  schemas : db'.schemas.Within db.schemas
  names : ∀ s ∈ db'.allSchemas, (db'.schema s).name = (db.schema s).name
  states : ∀ s ∈ db'.allSchemas, (db'.schema s).state = (db.schema s).state
  spaces : ∀ s ∈ db'.allSchemas, ∀ kind, (db'.space s kind).Within (db.space s kind)
  owners : ∀ s ∈ db'.allSchemas, ∀ o, db'.Holds s o → (db'.object o).schema = (db.object o).schema
  tempTables : ∀ c, (db'.session c).tempTables.Within (db.session c).tempTables
  tempIndexes : ∀ c, (db'.session c).tempIndexes.Within (db.session c).tempIndexes
  read : ∀ s ∈ db'.allSchemas, ∀ t ∈ (db'.space s .tableOrView).values,
    ∀ u ∈ (db.space s .tableOrView).values, (db.object u).id ∈ (db.tableOf t).references →
      u ∈ (db'.space s .tableOrView).values
  nextId : db.nextId ≤ db'.nextId
  objectCount : db'.objectStore.next = db.objectStore.next
  schemaCount : db'.schemaStore.next = db.schemaStore.next

namespace Shrinks

theorem mem_allSchemas (h : Shrinks db db') (hs : s ∈ db'.allSchemas) : s ∈ db.allSchemas :=
  h.schemas.mem_values hs

theorem holds (h : Shrinks db db') (hs : s ∈ db'.allSchemas) (ho : db'.Holds s o) :
    db.Holds s o := by
  obtain ⟨kind, ho⟩ := ho
  exact ⟨kind, (h.spaces s hs kind).mem_values ho⟩

theorem registered (h : Shrinks db db') (ho : db'.Registered o) : db.Registered o := by
  obtain ⟨s, hs, ho⟩ := ho
  exact ⟨s, h.mem_allSchemas hs, h.holds hs ho⟩

theorem keeps (h : Shrinks db db') {c : SessionRef} (ho : db'.Keeps c o) : db.Keeps c o :=
  ho.imp (h.tempTables c).mem_values (h.tempIndexes c).mem_values

private theorem mem_allTables (h : Shrinks db db') (ho : o ∈ db'.allTables) : o ∈ db.allTables := by
  obtain ⟨s, hs, ho⟩ := Database.mem_allTables.mp ho
  obtain ⟨hactive, ho⟩ := mem_tablesIn.mp ho
  rw [h.states s hs] at hactive
  exact Database.mem_allTables.mpr ⟨s, h.mem_allSchemas hs,
    mem_tablesIn.mpr ⟨hactive, (h.spaces s hs _).mem_values ho⟩⟩

private theorem consistent (h : Shrinks db db') (hdb : db.Consistent) : db'.Consistent where
  schemas := by
    apply (hdb.schemas.within h.schemas).congr
    intro s hs
    exact h.names s hs
  keyed := by
    intro s hs kind
    have hkeyed := (hdb.keyed s (h.mem_allSchemas hs) kind).within (h.spaces s hs kind)
    exact hkeyed.congr fun o _ => (h.objects o).name
  enters := by
    intro s hs kind o ho
    have henters := hdb.enters s (h.mem_allSchemas hs) kind o ((h.spaces s hs kind).mem_values ho)
    refine ⟨(h.objects o).kind.trans henters.kind, ?_⟩
    rw [h.owners s hs o ⟨kind, ho⟩]
    exact henters.schema
  tableIds := by
    intro t ht u hu hid
    rw [(h.objects t).id, (h.objects u).id] at hid
    exact hdb.tableIds t (h.mem_allTables ht) u (h.mem_allTables hu) hid

end Shrinks

theorem WellFormed.shrinks (hdb : db.WellFormed) (h : Shrinks db db') : db'.WellFormed where
  toConsistent := h.consistent hdb.toConsistent
  active := by
    intro s hs
    rw [h.states s hs]
    exact hdb.active s (h.mem_allSchemas hs)
  schemaSlots := by
    intro s hs
    rw [h.schemaCount]
    exact hdb.schemaSlots s (h.mem_allSchemas hs)
  slots := by
    intro o ho
    rw [h.objectCount]
    exact hdb.slots o (h.registered ho)
  permanent := by
    intro t ht
    rw [(h.objects t).isLocalTemporary]
    exact hdb.permanent t (h.mem_allTables ht)
  keptSlots := by
    intro c o ho
    rw [h.objectCount]
    exact hdb.keptSlots c o (h.keeps ho)
  apart := fun c o ho hreg => hdb.apart c o (h.keeps ho) (h.registered hreg)
  tempKeyed := by
    intro c
    exact ((hdb.tempKeyed c).within (h.tempTables c)).congr fun o _ => (h.objects o).name
  tempTables := by
    intro c t ht
    rw [(h.objects t).kind, (h.objects t).isLocalTemporary]
    exact hdb.tempTables c t ((h.tempTables c).mem_values ht)
  ids := by
    intro o ho
    rw [h.objectCount] at ho
    rw [(h.objects o).id]
    exact Nat.lt_of_lt_of_le (hdb.ids o ho) h.nextId
  distinct := by
    intro o o' ho ho' hid
    rw [h.objectCount] at ho ho'
    rw [(h.objects o).id, (h.objects o').id] at hid
    exact hdb.distinct o o' ho ho' hid
  references := by
    intro s hs t ht id hid
    have ht' := (h.spaces s hs _).mem_values ht
    rw [(h.objects t).references] at hid
    obtain ⟨hlt, u, hslot, rfl, hu⟩ := hdb.references s (h.mem_allSchemas hs) t ht' id hid
    refine ⟨by rwa [(h.objects t).id], u, by rwa [h.objectCount], (h.objects u).id, ?_⟩
    rw [(h.objects u).isLocalTemporary]
    exact hu.imp (fun hu => h.read s hs t ht u hu hid) id

end Shrinks

end Database

end SchemaCatalog
