import SchemaCatalog.Execution.Run
import SchemaCatalog.Proofs.Changes
/-!
# Resolving names

What statements find before they change anything. In a well-formed database a look-up either finds
what its name stands for or fails through a fault of the user.
-/
namespace SchemaCatalog

open Database

section Lookups

variable {db : Database} {s : SchemaRef} {c : SessionRef} {name : String} {kind : ObjectKind}

theorem getSchema_finds (db : Database) (name : String) :
    Finds (getSchema name) db fun s => db.findSchema name = some s := by
  cases hname : db.findSchema name with
  | some s => exact .of_ok (getSchema_eq hname) rfl
  | none => exact .of_error (getSchema_of_none hname) trivial

theorem orNotFound_finds (db : Database) (kind : ObjectKind) (name : String)
    (o? : Option ObjectRef) :
    Finds (SchemaRef.orNotFound kind name o?) db fun o => o? = some o := by
  cases o? with
  | some o => exact .of_ok (a := o) rfl rfl
  | none => exact .of_error (e := .notFound kind name) rfl trivial

/-- What the look-up of a table finds is visible. -/
theorem Database.visible_of_findTable {t : ObjectRef}
    (ht : ((db.space s .tableOrView).get? name).or ((db.session c).tempTables.get? name) = some t) :
    db.Visible c s t := by
  rcases Option.or_eq_some_iff.mp ht with ht | ⟨-, ht⟩
  · exact .inl (NameMap.mem_values_of_get? ht)
  · exact .inr (NameMap.mem_values_of_get? ht)

namespace Database.WellFormed

variable (h : db.WellFormed) (hs : s ∈ db.allSchemas)

include h hs

theorem findObject_eq (kind : ObjectKind) (name : String) :
    s.findObject kind name db = .ok ((db.space s kind).get? name) :=
  Database.findObject_eq (h.active s hs)

theorem getObject_finds (kind : ObjectKind) (name : String) :
    Finds (s.getObject kind name) db fun o => (db.space s kind).get? name = some o :=
  (Finds.of_ok (h.findObject_eq hs kind name) rfl).bind fun _ heq =>
    heq ▸ orNotFound_finds db kind name _

theorem findTable_eq (c : SessionRef) (name : String) : s.findTable (some c) name db =
    .ok (((db.space s .tableOrView).get? name).or ((db.session c).tempTables.get? name)) :=
  Database.findTable_eq (h.active s hs) (some c) name

theorem findIndex_eq (session : Option SessionRef) (name : String) : s.findIndex session name db =
    .ok (((db.space s .index).get? name).or
      (session.bind fun c => (db.session c).tempIndexes.get? name)) :=
  Database.findIndex_eq (h.active s hs) session name

theorem getTable_finds (c : SessionRef) (name : String) :
    Finds (s.getTable (some c) name) db (db.Visible c s) :=
  (Finds.of_ok (h.findTable_eq hs c name) rfl).bind fun _ heq =>
    heq ▸ (orNotFound_finds db .tableOrView name _).mono fun _ ht => visible_of_findTable ht

end Database.WellFormed

end Lookups

section Visible

variable {db : Database} {s : SchemaRef} {c : SessionRef} {t : ObjectRef}

namespace Database.WellFormed

variable (h : db.WellFormed)

include h

theorem not_local_of_mem (hs : s ∈ db.allSchemas) (ht : t ∈ (db.space s .tableOrView).values) :
    (db.tableOf t).isLocalTemporary = false :=
  h.permanent t (h.mem_allTables hs ht)

/-- Where a visible table is kept can be told from its scope. -/
theorem mem_tempTables_of_local (hs : s ∈ db.allSchemas) (ht : db.Visible c s t)
    (hlocal : (db.tableOf t).isLocalTemporary = true) : t ∈ (db.session c).tempTables.values := by
  apply ht.resolve_left
  intro ht
  rw [h.not_local_of_mem hs ht] at hlocal
  cases hlocal

theorem mem_space_of_not_local (ht : db.Visible c s t)
    (hlocal : (db.tableOf t).isLocalTemporary = false) :
    t ∈ (db.space s .tableOrView).values := by
  apply ht.resolve_right
  intro ht
  rw [(h.tempTables c t ht).2] at hlocal
  cases hlocal

/-- The indexes of a visible table can be listed. -/
theorem indexesOf_finds (hs : s ∈ db.allSchemas) (ht : db.Visible c s t) :
    Finds (indexesOf (some c) t) db fun _ => True := by
  cases hlocal : (db.tableOf t).isLocalTemporary with
  | false =>
    have hmem := h.mem_space_of_not_local ht hlocal
    exact .of_ok ((h.inOrder hs).indexesOf_eq hs (h.active s hs) hmem hlocal) trivial
  | true =>
    have hrun : indexesOf (some c) t db = .ok (c.tempIndexesOf (db.object t).id db) := by
      rw [indexesOf, read_bind_run]
      simp only [hlocal, if_true]
      rfl
    exact .of_ok hrun trivial

end Database.WellFormed

end Visible

end SchemaCatalog
