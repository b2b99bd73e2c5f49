import SchemaCatalog.Proofs.Reachable
/-!
# Removing a table

A table is removed exactly when no other table that is registered in an active schema reads it. It
takes the indexes with it that its schema keeps for it, and the names of these objects are no longer
reserved there. Everything else stays, also when the table is refused, and then the error names a
table that reads it. For this the schema of the table has to be in order; no matter what the other
schemas are like, and whether ids repeat.
-/
namespace SchemaCatalog.Database

section Gone

variable {db : Database} {s : SchemaRef} {objects : List ObjectRef} {o t : ObjectRef}

private theorem nameOf_detachedAll (s : SchemaRef) (objects : List ObjectRef) (db : Database)
    (o : ObjectRef) : (detachedAll s objects db).nameOf o = db.nameOf o := by
  rw [nameOf, object_detachedAll]
  split <;> rfl

/-- The entries of the objects that are detached are taken out, and no others. -/
private theorem InOrder.entry_detachedAll (h : db.InOrder s)
    (hobjects : ∀ o ∈ objects, db.Holds s o) (hnodup : objects.Nodup) (kind : ObjectKind)
    (key : String) :
    ((Database.detachedAll s objects db).space s kind).entries.get? key = some o ↔
      (db.space s kind).entries.get? key = some o ∧ o ∉ objects := by
  obtain ⟨horder, hmem⟩ := h.detachedAll hobjects hnodup
  have hkey : ((Database.detachedAll s objects db).space s kind).key
      ((Database.detachedAll s objects db).nameOf o) = (db.space s kind).key (db.nameOf o) := by
    rw [NameMap.key, rule_detachedAll, nameOf_detachedAll, NameMap.key]
  rw [(horder.keyed kind).entry_iff, (h.keyed kind).entry_iff, hmem, hkey, and_right_comm]

/-- The table, or an index that the schema keeps for it. -/
def GoesWith (db : Database) (s : SchemaRef) (t o : ObjectRef) : Prop :=
  o = t ∨ o ∈ (db.space s .index).values ∧ (db.indexOf o).tableId = (db.object t).id

private theorem mem_indexesOn_append : o ∈ db.indexesOn s t ++ [t] ↔ db.GoesWith s t o := by
  rw [List.mem_append, List.mem_singleton, mem_indexesOn, or_comm, GoesWith]

end Gone

/-- A table and the indexes that its schema keeps for it are taken out and cut off, their names are
no longer reserved, and the rest of the database stays. -/
structure TableTaken (s : SchemaRef) (t : ObjectRef) (db db' : Database) : Prop
    extends Frame s db db' where
  entries : ∀ kind key o, (db'.space s kind).entries.get? key = some o ↔
    (db.space s kind).entries.get? key = some o ∧ ¬ db.GoesWith s t o
  rules : ∀ kind, (db'.space s kind).rule = (db.space s kind).rule
  invalidated : ∀ o, db.GoesWith s t o → db'.object o = (db.object o).invalidate
  freed : (db.schema s).reservations.Frees
    (fun key => ∃ o, db.GoesWith s t o ∧ key = (db.schema s).reservations.key (db.nameOf o))
    (db'.schema s).reservations
  otherObjects : ∀ o, ¬ db.GoesWith s t o → db'.object o = db.object o
  otherSchemas : ∀ r, r ≠ s → db'.schema r = db.schema r

/-- Another table that is registered in an active schema reads the table. -/
def ReadByOther (db : Database) (t u : ObjectRef) : Prop :=
  u ∈ db.allTables ∧ (db.object u).id ≠ (db.object t).id ∧
    (db.object t).id ∈ (db.tableOf u).references

section Removal

variable {db db' : Database} {s : SchemaRef} {t u : ObjectRef} {session : Option SessionRef}

theorem readByOther_of_findDependent (h : db.findDependent t t = some u) : db.ReadByOther t u := by
  obtain ⟨hu, hdep⟩ := mem_dependentsOf.mp (List.mem_of_find?_eq_some h)
  exact ⟨hu, dependsOn_iff.mp hdep⟩

theorem not_readByOther_of_findDependent (h : db.findDependent t t = none) (u : ObjectRef) :
    ¬ db.ReadByOther t u := by
  rintro ⟨hu, hread⟩
  have hdep := findDependent_eq_none_iff.mp h u hu
  rw [dependsOn_iff.mpr hread] at hdep
  cases hdep

private theorem InOrder.taken_tableRemoved (h : db.InOrder s)
    (ht : t ∈ (db.space s .tableOrView).values) :
    TableTaken s t db (db.tableRemoved s t) := by
  obtain ⟨hnodup, hheld⟩ := h.indexesOn_append ht
  have hgone : ∀ o, o ∈ db.indexesOn s t ++ [t] ↔ db.GoesWith s t o := fun o => mem_indexesOn_append
  have hobject : ∀ o, (db.tableRemoved s t).object o =
      if o ∈ db.indexesOn s t ++ [t] then (db.object o).invalidate else db.object o := fun o =>
    object_detachedAll s (db.indexesOn s t ++ [t]) db o
  have hfrees := frees_detachedAll s (db.indexesOn s t ++ [t]) db
  simp only [hgone] at hfrees
  exact {
    toFrame := frame_detachedAll s _ db
    entries := by
      intro kind key o
      rw [← hgone]
      exact h.entry_detachedAll hheld hnodup kind key
    rules := rule_detachedAll s _ db
    invalidated := by
      intro o ho
      rw [hobject, if_pos ((hgone o).mpr ho)]
    freed := hfrees
    otherObjects := by
      intro o ho
      rw [hobject, if_neg fun hin => ho ((hgone o).mp hin)]
    otherSchemas := fun r hr => schema_detachedAll_of_ne _ db hr }

/-- A table of a schema that is in order is removed, with its indexes and nothing else, exactly when
no other registered table reads it; otherwise one that does is named, and nothing happens. -/
theorem InOrder.removeObject_table (h : db.InOrder s) (hs : s ∈ db.allSchemas)
    (hactive : (db.schema s).state = .active) (ht : t ∈ (db.space s .tableOrView).values)
    (hlocal : (db.tableOf t).isLocalTemporary = false) (session : Option SessionRef) :
    ((∃ db', removeObject session t db = .ok () db') ↔ ∀ u, ¬ db.ReadByOther t u) ∧
      (∀ db', removeObject session t db = .ok () db' → TableTaken s t db db') ∧
      ∀ e db', removeObject session t db = .error e db' → db' = db ∧
        ∃ u, db.ReadByOther t u ∧ e = .cannotDrop (db.nameOf t) (db.nameOf u) := by
  rw [removeObject_of_table (h.kind_of_mem ht)]
  cases hfind : db.findDependent t t with
  | some u =>
    have hread := readByOther_of_findDependent hfind
    rw [removeTable_of_read hfind]
    refine ⟨⟨?_, fun hnone => absurd hread (hnone u)⟩, ?_, ?_⟩
    · rintro ⟨db', hrun⟩
      cases hrun
    · intro db' hrun
      cases hrun
    · intro e db' hrun
      cases hrun
      exact ⟨rfl, u, hread, rfl⟩
  | none =>
    have hnone := not_readByOther_of_findDependent hfind
    rw [h.removeTable_eq hs hactive ht hlocal hfind]
    refine ⟨⟨fun _ => hnone, fun _ => ⟨_, rfl⟩⟩, ?_, ?_⟩
    · intro db' hrun
      cases hrun
      exact h.taken_tableRemoved ht
    · intro e db' hrun
      cases hrun

/-- The database with a table and an index on it, from which the view of the table was removed. -/
def withoutView : Database :=
  stateAfter (removeObject none ⟨1⟩) withView

theorem removeObject_table_withoutView :
    withView.InOrder ⟨2⟩ ∧ (∃ u, withView.ReadByOther ⟨0⟩ u) ∧
    removeObject none ⟨0⟩ withView = .error (.cannotDrop "T" "V") withView ∧
    withoutView.InOrder ⟨2⟩ ∧ withoutView.GoesWith ⟨2⟩ ⟨0⟩ ⟨2⟩ ∧ ∃ db',
      removeObject none ⟨0⟩ withoutView = .ok () db' ∧ TableTaken ⟨2⟩ ⟨0⟩ withoutView db' := by
  have hread : withView.InOrder ⟨2⟩ :=
    have hconsistent : withView.Consistent := by decide +kernel
    hconsistent.inOrder (by decide +kernel)
  have hunread : withoutView.InOrder ⟨2⟩ :=
    have hconsistent : withoutView.Consistent := by decide +kernel
    hconsistent.inOrder (by decide +kernel)
  have hrefused : removeObject none ⟨0⟩ withView = .error (.cannotDrop "T" "V") withView := by
    decide +kernel
  have hsucceeds : Succeeds (removeObject none ⟨0⟩) withoutView fun _ _ => True := by
    decide +kernel
  have ht : ⟨0⟩ ∈ (withView.space ⟨2⟩ .tableOrView).values := by decide +kernel
  have ht' : ⟨0⟩ ∈ (withoutView.space ⟨2⟩ .tableOrView).values := by decide +kernel
  obtain ⟨-, -, herror⟩ := hread.removeObject_table (by decide +kernel) (by decide +kernel) ht
    (by decide +kernel) none
  obtain ⟨-, u, hu, -⟩ := herror _ _ hrefused
  obtain ⟨-, htaken, -⟩ := hunread.removeObject_table (by decide +kernel) (by decide +kernel) ht'
    (by decide +kernel) none
  obtain ⟨_, db', hrun, -⟩ := hsucceeds
  exact ⟨hread, ⟨u, hu⟩, hrefused, hunread, .inr (by decide +kernel), db', hrun, htaken db' hrun⟩

end Removal

end SchemaCatalog.Database
