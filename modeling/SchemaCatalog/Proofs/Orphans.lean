import SchemaCatalog.Proofs.Attachment
import SchemaCatalog.Proofs.References
/-!
# No orphaned indexes

No index outlives its table. In every reachable database an index is kept where its table is, so a
table that is dropped leaves no index on it anywhere, and a session that is closed leaves nothing.
-/
namespace SchemaCatalog

open Database Relation

section Reachable

variable {db : Database}

/-- A database before its first schema and session has no index. -/
private theorem attached_of_empty (hschemas : db.schemas.values = [])
    (hsessions : db.sessionStore = .empty) : db.Attached := by
  have hsession : ∀ c, db.session c = default := by
    intro c
    rw [Database.session, hsessions]
    rfl
  have hkeeps : ∀ c o, ¬ db.Keeps c o := by
    intro c o ho
    rw [Keeps, hsession] at ho
    rcases ho with ho | ho <;> cases ho
  refine ⟨fun s hs => ?_, fun c i hi => absurd (.inr hi) (hkeeps c i), fun c key i hi => ?_,
    fun c i hi => absurd (.inr hi) (hkeeps c i), fun c d o ho => absurd ho (hkeeps c o)⟩
  · rw [allSchemas, hschemas] at hs
    cases hs
  · exact absurd (.inr (NameMap.mem_values.mpr ⟨key, hi⟩)) (hkeeps c i)

theorem attached_bootstrap (settings : Settings) : (bootstrap settings).Attached :=
  ((attached_of_empty rfl rfl).withSchema (wellFormed_of_empty rfl rfl rfl)).withSchema
    (wellFormed_of_empty rfl rfl rfl).withSchema

theorem Reachable.attached (h : Reachable db) : db.Attached := by
  induction h with
  | new settings => exact attached_bootstrap settings
  | act hbefore action hid ih => exact action.attached hbefore.wellFormed ih hid

end Reachable

section Gone

variable {c : SessionRef} {db db' : Database} {s : SchemaRef} {t : ObjectRef}

open Execution

/-- A table that is gone is neither registered nor kept by a session any more. -/
private theorem Execution.TableGone.nowhere (h : TableGone c s t db db') (hdb : db.WellFormed)
    (hatt : db.Attached) (hs : s ∈ db.allSchemas) :
    ¬ db'.Registered t ∧ ∀ d, ¬ db'.Keeps d t := by
  cases h with
  | registered ht hfree =>
    have hshrinks := (hdb.live hs).shrinks_tableRemoved ht hfree
    obtain ⟨hnodup, hheld⟩ := (hdb.inOrder hs).indexesOn_append ht
    refine ⟨?_, fun d hd => hdb.apart d t (hshrinks.keeps hd) (registered_of_mem hs ht)⟩
    rintro ⟨r, hr, hin⟩
    obtain rfl := hdb.schema_eq hs (hshrinks.mem_allSchemas hr) ⟨_, ht⟩ (hshrinks.holds hr hin)
    obtain ⟨kind, hin⟩ := hin
    exact (((hdb.live hs).mem_space_detachedAll hnodup hheld).mp hin).2 (by simp)
  | kept ht =>
    have hshrinks := hdb.dropTempTable c (db.nameOf t)
    have hfind := (hdb.tempKeyed c).mem_values_iff.mp ht
    have hdropped := (hatt.sessions.tidy hdb c).tempDropped_table hfind
    refine ⟨fun ht' => hdb.apart c t (.inl ht) (registered_of_reflTransGen hshrinks ht'), ?_⟩
    intro d hd
    obtain rfl := hatt.sessions.keeper d c t (hdropped.keeps hd) (.inl ht)
    exact (hdropped.keeps_iff.mp hd).2 (by simp)

private theorem Execution.TableGone.wellFormed (h : TableGone c s t db db') (hdb : db.WellFormed)
    (hs : s ∈ db.allSchemas) : db'.WellFormed := by
  cases h with
  | registered ht hfree => exact hdb.shrinks ((hdb.live hs).shrinks_tableRemoved ht hfree)
  | kept => exact hdb.of_reflTransGen (hdb.dropTempTable c _)

end Gone

namespace Database

variable {c : SessionRef} {db db' : Database} {s : SchemaRef} {t i : ObjectRef}

/-- The index is on this table, and no other object has the id that it is kept by. -/
structure IsOn (db : Database) (i t : ObjectRef) : Prop where
  index : (db.object i).kind = .index
  table : (db.object t).kind = .tableOrView
  id : (db.object t).id = (db.indexOf i).tableId
  only : ∀ o : ObjectRef, o.slot < db.objectStore.next →
    (db.object o).id = (db.indexOf i).tableId → o = t

/-- No index that is registered or kept by a session is on the table with this id. -/
structure NoIndexOn (db : Database) (id : UInt32) : Prop where
  registered : ∀ s ∈ db.allSchemas, ∀ i ∈ (db.space s .index).values, (db.indexOf i).tableId ≠ id
  kept : ∀ c, ∀ i ∈ (db.session c).tempIndexes.values, (db.indexOf i).tableId ≠ id

/-- An index is where its table is, and goes with it. -/
structure NoOrphans (db : Database) : Prop where
  /-- A registered index is on a registered table of the same schema, not a local temporary one. -/
  registered : ∀ s ∈ db.allSchemas, ∀ i ∈ (db.space s .index).values,
    ∃ t ∈ (db.space s .tableOrView).values, (db.tableOf t).isLocalTemporary = false ∧ db.IsOn i t
  /-- An index of a session is on a local temporary table of this session. -/
  kept : ∀ c, ∀ i ∈ (db.session c).tempIndexes.values,
    ∃ t ∈ (db.session c).tempTables.values, (db.tableOf t).isLocalTemporary = true ∧ db.IsOn i t
  /-- Dropping a table that is found leaves no index on it. -/
  dropTable : ∀ c schemaName name ifExists s t outcome db', db.findSchema schemaName = some s →
    s.findTable (some c) name db = .ok (some t) →
    (Statement.dropTable schemaName name ifExists).execute c db = .ok outcome db' →
      db'.NoIndexOn (db.object t).id
  /-- Closing an open session leaves it with nothing, and all that it kept is invalid. -/
  close : ∀ c, (db.session c).active = true →
    ((c.close db).session c).tempTables.values = [] ∧
      ((c.close db).session c).tempIndexes.values = [] ∧
      ∀ o, db.Keeps c o → ((c.close db).object o).isValid = false

/-- Indexes on an object that is neither registered nor kept are nowhere. -/
private theorem Attached.noIndexOn (h : db.Attached) (hdb : db.WellFormed)
    (ht : t.slot < db.objectStore.next) (hnot : ¬ db.Registered t ∧ ∀ d, ¬ db.Keeps d t) :
    db.NoIndexOn (db.object t).id where
  registered := by
    intro s hs i hi hid
    obtain ⟨u, hu, huid⟩ := h.covered s hs i hi
    have hreg := registered_of_mem hs hu
    obtain rfl := hdb.distinct u t (hdb.slots u hreg) ht (huid.trans hid)
    exact hnot.1 hreg
  kept := by
    intro c i hi hid
    obtain ⟨u, hu, huid⟩ := h.sessions.covered c i hi
    obtain rfl := hdb.distinct u t (hdb.keptSlots c u (.inl hu)) ht (huid.trans hid)
    exact hnot.2 c (.inl hu)

end Database

theorem Reachable.noOrphans {db : Database} (h : Reachable db) : db.NoOrphans where
  registered := by
    intro s hs i hi
    have hdb := h.wellFormed
    obtain ⟨t, ht, hid⟩ := h.attached.covered s hs i hi
    refine ⟨t, ht, hdb.not_local_of_mem hs ht, hdb.kind_of_mem hs hi, hdb.kind_of_mem hs ht, hid,
      fun o ho heq => ?_⟩
    exact hdb.distinct o t ho (hdb.slots t (registered_of_mem hs ht)) (heq.trans hid.symm)
  kept := by
    intro c i hi
    have hdb := h.wellFormed
    obtain ⟨t, ht, hid⟩ := h.attached.sessions.covered c i hi
    obtain ⟨hkind, hlocal⟩ := hdb.tempTables c t ht
    refine ⟨t, ht, hlocal, h.attached.sessions.indexKinds c i hi, hkind, hid, fun o ho heq => ?_⟩
    exact hdb.distinct o t ho (hdb.keptSlots c t (.inl ht)) (heq.trans hid.symm)
  dropTable := by
    intro c schemaName name ifExists s t outcome db' hname hfind hrun
    have hdb := h.wellFormed
    have hs := mem_allSchemas_of_find hname
    have hgone := Execution.tableGone_of_dropTable hdb hname hfind hrun
    have hchange := hgone.change hname
    have hlasts := hchange.lasts hdb
    have hslot : t.slot < db.objectStore.next := by
      cases hgone with
      | registered ht => exact hdb.slots t (registered_of_mem hs ht)
      | kept ht => exact hdb.keptSlots c t (.inl ht)
    rw [← hlasts.id t hslot]
    exact (hchange.attached hdb h.attached).noIndexOn (hgone.wellFormed hdb hs)
      (Nat.lt_of_lt_of_le hslot hlasts.count) (hgone.nowhere hdb h.attached hs)
  close := by
    intro c hactive
    obtain ⟨gone, hdropped, hall⟩ := h.attached.tempDropped_close h.wellFormed hactive
    have hkeeps : ∀ o, (deactivated c db).Keeps c o → db.Keeps c o := by
      intro o ho
      rw [Keeps, session_deactivated, if_pos rfl] at ho
      exact ho
    refine ⟨?_, ?_, fun o ho => ?_⟩
    · refine List.eq_nil_iff_forall_not_mem.mpr fun t ht => ?_
      obtain ⟨ht, hstays⟩ := (hdropped.mem_tables t).mp ht
      exact hstays (hall t (hkeeps t (.inl ht)))
    · refine List.eq_nil_iff_forall_not_mem.mpr fun i hi => ?_
      obtain ⟨hi, hstays⟩ := (hdropped.mem_indexes i).mp hi
      exact hstays (hall i (hkeeps i (.inr hi)))
    · rw [hdropped.object, if_pos (hall o ho)]
      rfl

section Example

/-- Make a schema with a table, a local temporary table, and an index on each. -/
def tempIndexActions : List Action :=
  [.openSession ⟨1, "SA"⟩,
    .execute ⟨0⟩ (.createSchema "APP" false),
    .execute ⟨0⟩ (.createTable
      { schema := "APP", tableName := "T", columns := [.plain "A" "INT"], kind := .table,
        scope := .persistent, references := [], ifNotExists := false }),
    .execute ⟨0⟩ (.createIndex
      { schema := "APP", table := "T", indexName := some "I", columns := ["A"], kind := .nonUnique,
        ifNotExists := false }),
    .execute ⟨0⟩ (.createTable
      { schema := "APP", tableName := "L", columns := [.plain "A" "INT"], kind := .table,
        scope := .localTemporary, references := [], ifNotExists := false }),
    .execute ⟨0⟩ (.createIndex
      { schema := "APP", table := "L", indexName := some "J", columns := ["A"], kind := .nonUnique,
        ifNotExists := false })]

/-- The database with a registered index and one of a session. -/
def withTempIndex : Database :=
  tempIndexActions.foldl (fun db action => action.run db) (bootstrap .standard)

theorem reachable_withTempIndex : Reachable withTempIndex := by
  rw [withTempIndex, tempIndexActions]
  simp only [List.foldl_cons, List.foldl_nil]
  refine .act (.act (.act (.act (.act (.act (.new .standard) _ ?_) _ ?_) _ ?_) _ ?_) _ ?_) _ ?_
  all_goals decide +kernel

theorem noOrphans_withTempIndex : Reachable withTempIndex ∧
    (withTempIndex.space ⟨2⟩ .index).values = [⟨1⟩] ∧
    (withTempIndex.session ⟨0⟩).tempIndexes.values = [⟨3⟩] ∧
    (withTempIndex.session ⟨0⟩).active = true ∧ withTempIndex.NoOrphans :=
  ⟨reachable_withTempIndex, by decide +kernel, by decide +kernel, by decide +kernel,
    reachable_withTempIndex.noOrphans⟩

end Example

end SchemaCatalog
