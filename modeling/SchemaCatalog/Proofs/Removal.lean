import SchemaCatalog.Proofs.Detachment
/-!
# Removing an object

A table that no other registered table reads is removed with the indexes made on it; a table that is
read stays, and so does everything else. Objects of other kinds are just detached.
-/
namespace SchemaCatalog.Database

section Readers

variable {db : Database} {s r : SchemaRef} {t u o : ObjectRef}

theorem dependsOn_iff : db.dependsOn u t = true ↔
    (db.object u).id ≠ (db.object t).id ∧ (db.object t).id ∈ (db.tableOf u).references := by
  simp [dependsOn, Table.dependsOn]

theorem mem_dependentsOf :
    u ∈ db.dependentsOf t ↔ u ∈ db.allTables ∧ db.dependsOn u t = true := by
  simp [dependentsOf]

theorem findDependent_eq_none_iff :
    db.findDependent t t = none ↔ ∀ u ∈ db.allTables, db.dependsOn u t = false := by
  simp only [findDependent, List.find?_eq_none, mem_dependentsOf, decide_eq_true_eq]
  constructor
  · intro h u hu
    by_contra hdep
    rw [Bool.not_eq_false] at hdep
    exact h u ⟨hu, hdep⟩ (dependsOn_iff.mp hdep).1
  · rintro h u ⟨hu, hdep⟩
    simp [h u hu] at hdep

@[simp] theorem dependsOn_detachedAll (objects : List ObjectRef) :
    (detachedAll s objects db).dependsOn u t = db.dependsOn u t := by
  have hid : ∀ o, ((detachedAll s objects db).object o).id = (db.object o).id := by
    intro o
    rw [object_detachedAll]
    split <;> rfl
  have hbody : ∀ o, ((detachedAll s objects db).object o).body = (db.object o).body := by
    intro o
    rw [object_detachedAll]
    split <;> rfl
  simp only [dependsOn, tableOf, Object.asTable, hid, hbody]

end Readers

/-- The indexes that a schema keeps for a table. -/
def indexesOn (db : Database) (s : SchemaRef) (t : ObjectRef) : List ObjectRef :=
  (db.space s .index).values.filter fun i => (db.indexOf i).tableId = (db.object t).id

/-- The database with a table and its indexes detached. -/
def tableRemoved (s : SchemaRef) (t : ObjectRef) (db : Database) : Database :=
  detachedAll s (db.indexesOn s t ++ [t]) db

section Removal

variable {db : Database} {s : SchemaRef} {t u o : ObjectRef} {session : Option SessionRef}

theorem mem_indexesOn {i : ObjectRef} : i ∈ db.indexesOn s t ↔
    i ∈ (db.space s .index).values ∧ (db.indexOf i).tableId = (db.object t).id := by
  simp [indexesOn]

/-- Nothing asks whether the schema keeps the table itself. -/
private theorem indexesOf_eq (hschema : schemaOf t db = .ok s)
    (hactive : (db.schema s).state = .active) (hlocal : (db.tableOf t).isLocalTemporary = false) :
    indexesOf session t db = .ok (db.indexesOn s t) := by
  rw [indexesOf, read_bind_run]
  simp only [hlocal, Bool.false_eq_true, if_false]
  rw [look_bind_of_ok hschema, look_bind_of_ok (objectsOf_eq hactive)]
  rfl

theorem InOrder.indexesOf_eq (h : db.InOrder s) (hs : s ∈ db.allSchemas)
    (hactive : (db.schema s).state = .active) (ht : t ∈ (db.space s .tableOrView).values)
    (hlocal : (db.tableOf t).isLocalTemporary = false) :
    indexesOf session t db = .ok (db.indexesOn s t) :=
  Database.indexesOf_eq (schemaOf_eq hs (h.enters _ t ht).schema) hactive hlocal

/-- The table and its indexes are registered. -/
theorem holds_of_mem_indexesOn_append (ht : t ∈ (db.space s .tableOrView).values) :
    ∀ o ∈ db.indexesOn s t ++ [t], db.Holds s o := by
  intro o ho
  rcases List.mem_append.mp ho with ho | ho
  · exact ⟨.index, (mem_indexesOn.mp ho).1⟩
  · obtain rfl := List.mem_singleton.mp ho
    exact ⟨.tableOrView, ht⟩

theorem Filed.holds_indexesOn (h : db.Filed s) (t : ObjectRef) :
    (db.indexesOn s t).Nodup ∧ ∀ i ∈ db.indexesOn s t, db.Holds s i :=
  ⟨(h.keyed .index).nodup_values.filter _, fun _ hi => ⟨.index, (mem_indexesOn.mp hi).1⟩⟩

private theorem Filed.not_mem_indexesOn (h : db.Filed s)
    (hkind : (db.object t).kind = .tableOrView) :
    t ∉ db.indexesOn s t := by
  intro hin
  have hindex := h.kinds _ t (mem_indexesOn.mp hin).1
  rw [hkind] at hindex
  cases hindex

/-- The table and its indexes are registered, each once. -/
theorem InOrder.indexesOn_append (h : db.InOrder s) (ht : t ∈ (db.space s .tableOrView).values) :
    (db.indexesOn s t ++ [t]).Nodup ∧ ∀ o ∈ db.indexesOn s t ++ [t], db.Holds s o := by
  refine ⟨List.nodup_append.mpr ⟨(h.filed.holds_indexesOn t).1, by simp, ?_⟩,
    holds_of_mem_indexesOn_append ht⟩
  intro i hi t' ht' heq
  obtain rfl := List.mem_singleton.mp ht'
  exact h.filed.not_mem_indexesOn (h.kind_of_mem ht) (heq ▸ hi)

private theorem state_detachedAll (objects : List ObjectRef) :
    ((detachedAll s objects db).schema s).state = (db.schema s).state := by
  rw [(frame_detachedAll s objects db).schema]

section Filed

variable (h : db.Filed s) (hs : s ∈ db.allSchemas) (howner : (db.object t).schema = some s)
  (hactive : (db.schema s).state = .active) (hkind : (db.object t).kind = .tableOrView)
  (hlocal : (db.tableOf t).isLocalTemporary = false) (hfree : db.findDependent t t = none)

include h hs howner hactive hkind hlocal hfree

/-- The indexes of a table that nothing reads go first, and then the table has to be there. -/
theorem Filed.removeTable_run :
    removeTable session t db = s.detach t (Database.detachedAll s (db.indexesOn s t) db) := by
  obtain ⟨hnodup, hindexes⟩ := h.holds_indexesOn t
  have hschema := schemaOf_eq hs howner
  have hschema' : schemaOf t (Database.detachedAll s (db.indexesOn s t) db) = .ok s := by
    refine schemaOf_eq ?_ ?_
    · rw [allSchemas, schemas_detachedAll]
      exact hs
    · rw [object_detachedAll, if_neg (h.not_mem_indexesOn hkind)]
      exact howner
  have hlook : indexesOf session t db = .ok (db.indexesOn s t) :=
    indexesOf_eq hschema hactive hlocal
  rw [removeTable, get_bind_run]
  simp only [hfree, hlocal, Bool.false_eq_true, if_false]
  rw [bind_of_ok (lift_of_ok hschema), bind_of_ok (lift_of_ok hlook),
    bind_of_ok (h.forM_detach hactive hindexes hnodup), detachObject,
    bind_of_ok (lift_of_ok hschema')]

theorem Filed.removeTable_of_holds (ht : db.Holds s t) :
    removeTable session t db = .ok () (db.tableRemoved s t) := by
  obtain ⟨hnodup, hindexes⟩ := h.holds_indexesOn t
  obtain ⟨hfiled, hmem⟩ := h.detachedAll hindexes hnodup
  have hheld : (Database.detachedAll s (db.indexesOn s t) db).Holds s t :=
    ht.imp fun kind hkept => (hmem kind t).mpr ⟨hkept, h.not_mem_indexesOn hkind⟩
  rw [h.removeTable_run hs howner hactive hkind hlocal hfree,
    hfiled.detach_eq ((state_detachedAll _).trans hactive) hheld, tableRemoved, detachedAll_append]
  rfl

/-- A table that the schema does not keep is refused, but by then the indexes are gone. -/
theorem Filed.removeTable_of_absent (habsent : ¬ db.Holds s t) : removeTable session t db =
    .error (db.absence s t) (Database.detachedAll s (db.indexesOn s t) db) := by
  have hspace : (Database.detachedAll s (db.indexesOn s t) db).space s .tableOrView =
      db.space s .tableOrView := by
    refine space_detachedAll_of_kind fun i hi => ?_
    rw [h.kinds _ i (mem_indexesOn.mp hi).1]
    decide
  have hobject : (Database.detachedAll s (db.indexesOn s t) db).object t = db.object t := by
    rw [object_detachedAll, if_neg (h.not_mem_indexesOn hkind)]
  have habsence : (Database.detachedAll s (db.indexesOn s t) db).absence s t = db.absence s t := by
    rw [absence, absence, nameOf, hobject, hkind, hspace]
    rfl
  have habsent' : ¬ (Database.detachedAll s (db.indexesOn s t) db).Holds s t := fun ht =>
    habsent (ht.imp fun _ => mem_space_of_detachedAll)
  rw [h.removeTable_run hs howner hactive hkind hlocal hfree, SchemaRef.detach,
    bind_of_error (remove_of_absent ((state_detachedAll _).trans hactive) habsent'), habsence]

end Filed

/-- A table that nothing reads is removed with its indexes. -/
theorem InOrder.removeTable_eq (h : db.InOrder s) (hs : s ∈ db.allSchemas)
    (hactive : (db.schema s).state = .active) (ht : t ∈ (db.space s .tableOrView).values)
    (hlocal : (db.tableOf t).isLocalTemporary = false) (hfree : db.findDependent t t = none) :
    removeTable session t db = .ok () (db.tableRemoved s t) :=
  h.filed.removeTable_of_holds hs (h.enters _ t ht).schema hactive (h.kind_of_mem ht) hlocal hfree
    ⟨_, ht⟩

theorem removeTable_of_read (hread : db.findDependent t t = some u) :
    removeTable session t db = .error (.cannotDrop (db.nameOf t) (db.nameOf u)) db := by
  rw [removeTable, get_bind_run]
  simp only [hread]
  rfl

theorem removeObject_of_table (hkind : (db.object o).kind = .tableOrView) :
    removeObject session o db = removeTable session o db := by
  rw [removeObject, get_bind_run]
  simp only [hkind]

theorem removeObject_of_other (hkind : (db.object o).kind ≠ .tableOrView) :
    removeObject session o db = detachObject o db := by
  rw [removeObject, get_bind_run]
  cases hcase : (db.object o).kind with
  | tableOrView => exact absurd hcase hkind
  | _ => rfl

end Removal

end SchemaCatalog.Database
