import SchemaCatalog.Proofs.ColumnChanges
/-!
# Stable columns

Over whole runs, a column that an index relies on stays with the table as long as the index is
there, and no table loses its last column.
-/
namespace SchemaCatalog

open Database

variable {allowed : Action → Prop} {db db' db'' : Database} {t i : ObjectRef}

/-- An index whose table has a column that it lists finds it there as long as it is listed itself,
and a table with columns keeps at least one. -/
structure Database.ColumnsStay (db db' : Database) : Prop where
  column : ∀ t i : ObjectRef, t.slot < db.objectStore.next → db.HasIndex t i → db'.Listed i →
    db'.HasIndex t i ∧ (db'.indexOf i).columns = (db.indexOf i).columns ∧
      ∀ name ∈ (db.indexOf i).columns,
        (db.tableOf t).hasColumn name = true → (db'.tableOf t).hasColumn name = true
  nonempty : ∀ t : ObjectRef, t.slot < db.objectStore.next →
    (db.tableOf t).columns ≠ [] → (db'.tableOf t).columns ≠ []

private theorem Database.ColumnsStay.refl (db : Database) : db.ColumnsStay db :=
  ⟨fun _ _ _ hon _ => ⟨hon, rfl, fun _ _ => id⟩, fun _ _ => id⟩

/-- An index stays on its table. -/
private theorem Advances.hasIndex (h : Advances allowed db db') (hdb : db.InForm)
    (ht : t.slot < db.objectStore.next) (hon : db.HasIndex t i) (hi : db'.Listed i) :
    db'.HasIndex t i := by
  have hslot := hdb.wellFormed.slot_of_listed hon.listed
  have hkeeps : KeepsColumns db.Lists db.KeyLists (fun _ => True) db db' :=
    h.keepsColumns hdb fun _ _ _ _ => trivial
  refine ⟨hi, (hkeeps.kind i hslot).trans hon.kind, ?_⟩
  rw [hkeeps.index i hslot, (h.lasts hdb).id t ht, hon.tableId]

/-- What one step keeps, on top of what was kept up to then. -/
theorem Database.ColumnsStay.step (h : db.ColumnsStay db') (hlasts : Lasts db db')
    (hdb : db.InForm) (hdb' : db'.InForm) (hstep : Advances allowed db' db'') :
    db.ColumnsStay db'' := by
  have hkeeps : KeepsColumns db'.Lists db'.KeyLists (fun _ => True) db' db'' :=
    hstep.keepsColumns hdb' fun _ _ _ _ => trivial
  have hmade : ∀ o : ObjectRef, o.slot < db.objectStore.next → o.slot < db'.objectStore.next :=
    fun o ho => Nat.lt_of_lt_of_le ho hlasts.count
  refine ⟨fun t i ht hon hi => ?_, fun t ht hcolumns =>
    (hkeeps.table t (hmade t ht)).nonempty (h.nonempty t ht hcolumns)⟩
  have hslot := hmade i (hdb.wellFormed.slot_of_listed hon.listed)
  -- the index has been in the lists all the time
  obtain ⟨hon', hcolumns, hkept⟩ := h.column t i ht hon (hstep.listed hdb' hslot hi)
  refine ⟨hstep.hasIndex hdb' (hmade t ht) hon' hi, by rw [hkeeps.index i hslot, hcolumns], ?_⟩
  intro name hname hcolumn
  refine ((hkeeps.table t (hmade t ht)).column name (hkept name hname hcolumn)).resolve_right ?_
  exact not_not_intro ⟨i, hon', hcolumns ▸ hname⟩

private theorem Evolves.columnsStay_of_inForm (h : Evolves allowed db db') (hdb : db.InForm) :
    db.ColumnsStay db' := by
  induction h with
  | refl => exact .refl db
  | tail hbefore hlast ih =>
    have hbefore : Evolves allowed db _ := hbefore
    exact ih.step (hbefore.lasts hdb) hdb (hbefore.inForm hdb) hlast

/-- In a run from a new database, from each state to each later one. -/
theorem Evolves.columnsStay {settings : Settings} (hstart : Evolves allowed (bootstrap settings) db)
    (h : Evolves allowed db db') : db.ColumnsStay db' :=
  h.columnsStay_of_inForm (hstart.inForm (inForm_bootstrap settings))

section Example

/-- Add a column to the local temporary table, and try to drop the one that its index lists. -/
def columnActions : List Action :=
  [.execute ⟨0⟩ (.alterColumn
      { schema := "APP", table := "L", action := .add (.plain "B" "INT") }),
    .execute ⟨0⟩ (.alterColumn { schema := "APP", table := "L", action := .drop "A" })]

def withColumnAdded : Database :=
  columnActions.foldl (fun db action => action.run db) withTempIndex

private theorem evolves_withTempIndex :
    Evolves (fun _ => True) (bootstrap .standard) withTempIndex := by
  rw [withTempIndex, tempIndexActions]
  simp only [List.foldl_cons, List.foldl_nil]
  refine .act (.act (.act (.act (.act (.act .refl _ trivial ?_) _ trivial ?_) _ trivial ?_)
    _ trivial ?_) _ trivial ?_) _ trivial ?_
  all_goals decide +kernel

private theorem evolves_withColumnAdded :
    Evolves (fun _ => True) withTempIndex withColumnAdded := by
  rw [withColumnAdded, columnActions]
  simp only [List.foldl_cons, List.foldl_nil]
  refine .act (.act .refl _ trivial ?_) _ trivial ?_
  all_goals decide +kernel

theorem columnsStay_withColumnAdded :
    Evolves (fun _ => True) (bootstrap .standard) withTempIndex ∧
    Evolves (fun _ => True) withTempIndex withColumnAdded ∧
    withTempIndex.HasIndex ⟨2⟩ ⟨3⟩ ∧ withColumnAdded.Listed ⟨3⟩ ∧
    (withTempIndex.indexOf ⟨3⟩).columns = ["A"] ∧
    (withColumnAdded.tableOf ⟨2⟩).columns.map (·.name) = ["A", "B"] ∧
    withTempIndex.ColumnsStay withColumnAdded :=
  ⟨evolves_withTempIndex, evolves_withColumnAdded,
    ⟨.inr ⟨⟨0⟩, .inr (by decide +kernel)⟩, by decide +kernel, by decide +kernel⟩,
    .inr ⟨⟨0⟩, .inr (by decide +kernel)⟩, by decide +kernel, by decide +kernel,
    evolves_withTempIndex.columnsStay evolves_withColumnAdded⟩

end Example

end SchemaCatalog
