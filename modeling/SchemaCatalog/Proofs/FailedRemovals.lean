import SchemaCatalog.Proofs.Operations
import SchemaCatalog.Proofs.TableRemoval
/-!
# Failed removals

A removal that fails has changed nothing, with one exception. The indexes of a table are looked for by
the id of the table and go first; only then does it show whether the schema keeps the table. A table
that was never added, or was struck out alone, is not removed, but the indexes made on it are gone.
-/
namespace SchemaCatalog

open Database

namespace Database

section Places

variable {db db' : Database} {t : ObjectRef} {session : Option SessionRef} {e : CatalogError}

private theorem eq_of_removeTempTable_eq_error (h : removeTempTable session t db = .error e db') :
    db' = db := by
  rcases bind_eq_error_iff.mp h with hlook | ⟨c, mid, hsession, hrest⟩
  · exact (lift_eq_error_iff.mp hlook).2
  · obtain ⟨-, rfl⟩ := lift_eq_ok_iff.mp hsession
    rw [get_bind_run] at hrest
    rcases bind_eq_error_iff.mp hrest with hdrop | ⟨dropped, after, hdrop, hend⟩
    · cases hdrop
    · cases dropped with
      | some _ => cases hend
      | none =>
        cases hend
        rw [modifyGet_eq_ok_iff, SessionRef.dropTempTable] at hdrop
        split at hdrop <;> cases hdrop
        rfl

/-- The indexes of a table that is no local temporary one are looked for in its schema. -/
private theorem schema_of_indexesOf_eq_ok {indexes : List ObjectRef}
    (hlocal : (db.tableOf t).isLocalTemporary = false)
    (h : indexesOf session t db = .ok indexes) : ∃ s, (db.object t).schema = some s ∧
      s ∈ db.allSchemas ∧ (db.schema s).state = .active := by
  rw [indexesOf, read_bind_run] at h
  simp only [hlocal, Bool.false_eq_true, if_false] at h
  obtain ⟨s, hschema, h⟩ := look_bind_eq_ok_iff.mp h
  obtain ⟨all, hall, -⟩ := look_bind_eq_ok_iff.mp h
  obtain ⟨registry, hactive, -⟩ := look_bind_eq_ok_iff.mp hall
  obtain ⟨howner, hs⟩ := schemaOf_eq_ok_iff.mp hschema
  exact ⟨s, howner, hs, (activeRegistry_eq_ok_iff.mp hactive).1⟩

end Places

section Stranded

variable {db db' : Database} {s : SchemaRef} {o t : ObjectRef} {session : Option SessionRef}
  {e : CatalogError}

/-- The schema of a table that nothing reads does not keep the table, but it keeps indexes of it. -/
structure Stranded (db : Database) (s : SchemaRef) (t : ObjectRef) : Prop where
  kind : (db.object t).kind = .tableOrView
  permanent : (db.tableOf t).isLocalTemporary = false
  owner : (db.object t).schema = some s
  registered : s ∈ db.allSchemas
  active : (db.schema s).state = .active
  unread : ∀ u, ¬ db.ReadByOther t u
  absent : ¬ db.Holds s t
  indexed : db.indexesOn s t ≠ []

private theorem Stranded.removeObject_eq (h : db.Stranded s t) (hfiled : db.Filed s) :
    removeObject session t db = .error (db.absence s t) (detachedAll s (db.indexesOn s t) db) := by
  have hfree : db.findDependent t t = none := by
    cases hfind : db.findDependent t t with
    | none => rfl
    | some u => exact absurd (readByOther_of_findDependent hfind) (h.unread u)
  rw [removeObject_of_table h.kind]
  exact hfiled.removeTable_of_absent h.registered h.owner h.active h.kind h.permanent hfree h.absent

/-- The schema keeps none of the indexes any more, and none of them refers to it. -/
private theorem Filed.indexes_gone (h : db.Filed s) {i : ObjectRef} (hi : i ∈ db.indexesOn s t) :
    db.Holds s i ∧ ¬ (Database.detachedAll s (db.indexesOn s t) db).Holds s i ∧
      ((Database.detachedAll s (db.indexesOn s t) db).object i).schema = none := by
  obtain ⟨hnodup, hheld⟩ := h.holds_indexesOn t
  refine ⟨hheld i hi, fun ⟨kind, hstays⟩ => ?_, ?_⟩
  · exact (((h.detachedAll hheld hnodup).2 kind i).mp hstays).2 hi
  · rw [object_detachedAll, if_pos hi]
    rfl

/-- Nothing is removed before it is clear where the indexes of a table are. -/
private theorem eq_or_stranded_of_removeTable_eq_error (h : ∀ s, db.Filed s)
    (hkind : (db.object t).kind = .tableOrView) (hrun : removeTable session t db = .error e db') :
    db' = db ∨ ∃ s, db.Stranded s t := by
  cases hfind : db.findDependent t t with
  | some u =>
    rw [removeTable_of_read hfind] at hrun
    cases hrun
    exact .inl rfl
  | none =>
    cases hlocal : (db.tableOf t).isLocalTemporary with
    | true =>
      rw [removeTable, get_bind_run] at hrun
      simp only [hfind, hlocal, if_true] at hrun
      exact .inl (eq_of_removeTempTable_eq_error hrun)
    | false =>
      cases hlook : indexesOf session t db with
      | error e' =>
        rw [removeTable, get_bind_run] at hrun
        simp only [hfind, hlocal, Bool.false_eq_true, if_false] at hrun
        rcases bind_eq_error_iff.mp hrun with hschema | ⟨s, mid, hschema, hrest⟩
        · exact .inl (lift_eq_error_iff.mp hschema).2
        · obtain ⟨-, rfl⟩ := lift_eq_ok_iff.mp hschema
          rw [bind_of_error (lift_of_error hlook)] at hrest
          cases hrest
          exact .inl rfl
      | ok indexes =>
        obtain ⟨s, howner, hs, hactive⟩ := schema_of_indexesOf_eq_ok hlocal hlook
        by_cases hheld : db.Holds s t
        · rw [(h s).removeTable_of_holds hs howner hactive hkind hlocal hfind hheld] at hrun
          cases hrun
        · by_cases hindexes : db.indexesOn s t = []
          · rw [(h s).removeTable_of_absent hs howner hactive hkind hlocal hfind hheld,
              hindexes] at hrun
            cases hrun
            exact .inl rfl
          · exact .inr ⟨s, hkind, hlocal, howner, hs, hactive,
              not_readByOther_of_findDependent hfind, hheld, hindexes⟩

private theorem eq_or_stranded_of_removeObject_eq_error (h : ∀ s, db.Filed s)
    (hrun : removeObject session o db = .error e db') : db' = db ∨ ∃ s, db.Stranded s o := by
  by_cases hkind : (db.object o).kind = .tableOrView
  · rw [removeObject_of_table hkind] at hrun
    exact eq_or_stranded_of_removeTable_eq_error h hkind hrun
  · rw [removeObject_of_other hkind] at hrun
    exact .inl (eq_of_detachObject_eq_error hrun)

end Stranded

end Database

section Failed

variable {settings : Settings} {db : Database}

/-- After any operations, a removal that fails has left everything as it was, unless the table is one
that its schema does not keep but keeps indexes of. Such a table is never removed, and just these
indexes are taken out and cut off. -/
theorem Operates.removeObject_fails (h : Operates (bootstrap settings) db)
    (session : Option SessionRef) (o : ObjectRef) :
    (∀ e db', removeObject session o db = .error e db' → (db' = db ↔ ∀ s, ¬ db.Stranded s o)) ∧
    ∀ s, db.Stranded s o →
      removeObject session o db = .error (db.absence s o) (detachedAll s (db.indexesOn s o) db) ∧
      ∀ i ∈ db.indexesOn s o, db.Holds s i ∧
        ¬ (detachedAll s (db.indexesOn s o) db).Holds s i ∧
        ((detachedAll s (db.indexesOn s o) db).object i).schema = none := by
  have hfiled := (h.keepsHoused (housed_bootstrap settings)).filed
  refine ⟨fun e db' hrun => ⟨fun hsame s hstranded => ?_, fun hnone => ?_⟩, fun s hstranded =>
    ⟨hstranded.removeObject_eq (hfiled s), fun i hi => (hfiled s).indexes_gone hi⟩⟩
  · obtain ⟨i, hi⟩ := List.exists_mem_of_ne_nil _ hstranded.indexed
    obtain ⟨hheld, hgone, -⟩ := (hfiled s).indexes_gone hi
    rw [hstranded.removeObject_eq (hfiled s), hsame] at hrun
    injection hrun with _ hdb
    rw [hdb] at hgone
    exact hgone hheld
  · exact (eq_or_stranded_of_removeObject_eq_error hfiled hrun).resolve_right
      fun ⟨s, hstranded⟩ => hnone s hstranded

/-- A table and an index on it are added, and then the table is struck out alone. -/
def strandingOperations : List Operation :=
  [.createSchema "APP" ⟨1, "SA"⟩,
    .makeObject { id := 5, name := "T", schema := some ⟨2⟩, body := .table default },
    .makeObject { id := 6, name := "I", schema := some ⟨2⟩,
                  body := .index ⟨5, "T", ["A"], .nonUnique⟩ },
    .onSchema ⟨2⟩ (.add ⟨0⟩), .onSchema ⟨2⟩ (.add ⟨1⟩), .onSchema ⟨2⟩ (.remove ⟨0⟩)]

def withStrandedTable : Database :=
  strandingOperations.foldl (fun db operation => operation.run db) (bootstrap .standard)

theorem removeObject_fails_withStrandedTable :
    Operates (bootstrap .standard) withStrandedTable ∧ withStrandedTable.Stranded ⟨2⟩ ⟨0⟩ ∧
    removeObject none ⟨0⟩ withStrandedTable =
      .error (.internalInvariant "not found: T") (detached ⟨2⟩ withStrandedTable ⟨1⟩) ∧
    detached ⟨2⟩ withStrandedTable ⟨1⟩ ≠ withStrandedTable ∧
    withStrandedTable.Holds ⟨2⟩ ⟨1⟩ ∧ ¬ (detached ⟨2⟩ withStrandedTable ⟨1⟩).Holds ⟨2⟩ ⟨1⟩ := by
  have hoperates : Operates (bootstrap .standard) withStrandedTable :=
    .all strandingOperations (bootstrap .standard)
  have hindexes : withStrandedTable.indexesOn ⟨2⟩ ⟨0⟩ = [⟨1⟩] := by decide +kernel
  have habsence : withStrandedTable.absence ⟨2⟩ ⟨0⟩ = .internalInvariant "not found: T" := by
    decide +kernel
  have hunread : withStrandedTable.findDependent ⟨0⟩ ⟨0⟩ = none := by decide +kernel
  have hstranded : withStrandedTable.Stranded ⟨2⟩ ⟨0⟩ := {
    kind := by decide +kernel
    permanent := by decide +kernel
    owner := by decide +kernel
    registered := by decide +kernel
    active := by decide +kernel
    unread := not_readByOther_of_findDependent hunread
    absent := by
      rintro ⟨kind, ht⟩
      cases kind <;> revert ht <;> decide +kernel
    indexed := by simp [hindexes] }
  obtain ⟨herror, hfails⟩ := hoperates.removeObject_fails none ⟨0⟩
  obtain ⟨hrun, hgone⟩ := hfails ⟨2⟩ hstranded
  rw [hindexes] at hrun hgone
  obtain ⟨hheld, hlost, -⟩ := hgone ⟨1⟩ (List.mem_singleton_self _)
  rw [habsence] at hrun
  exact ⟨hoperates, hstranded, hrun, fun hsame => (herror _ _ hrun).mp hsame ⟨2⟩ hstranded, hheld,
    hlost⟩

end Failed

end SchemaCatalog
