import SchemaCatalog.Proofs.Turns
/-!
# Readers of dropped tables

No registered table is left that reads a table which is gone: what a registered table reads is not
dropped, neither alone nor with its schema. The local temporary tables of sessions are not asked, so
that one which reads a table still does when the table is gone.
-/
namespace SchemaCatalog

open Database

namespace Database

variable {c : SessionRef} {db db' : Database} {s : SchemaRef} {t u : ObjectRef} {name : String}

/-- A table leaves only when no registered table reads it. -/
private theorem Departs.unread (h : Departs c db db') (hdb : db.Placed)
    (hkind : (db.object t).kind = .tableOrView) (ht : db.Present t) (hgone : ¬ db'.Present t) :
    db.findDependent t t = none := by
  cases h with
  | @detached s o ho hfree =>
    have heq : t = o := by
      by_contra hne
      refine hgone (ht.imp_left fun ⟨r, kind, ht⟩ => ⟨r, kind, ?_⟩)
      exact (hdb.mem_space_detached ho).mpr ⟨ht, hne⟩
    subst heq
    exact (hfree hkind).1
  | @tempDropped gone _ hdropped _ hfree =>
    rcases ht with ⟨s, kind, ht⟩ | ⟨d, ht⟩
    · refine absurd (.inl ⟨s, kind, ?_⟩) hgone
      rwa [space, hdropped.schema_eq]
    · by_cases hd : d = c
      · subst hd
        have hmem : t ∈ gone := by
          by_contra hstays
          exact hgone (.inr ⟨d, hdropped.keeps_iff.mpr ⟨ht, hstays⟩⟩)
        refine hfree t hmem (ht.resolve_right fun hindex => ?_)
        have hindexKind := (hdb.tidy d).indexKinds t hindex
        rw [hkind] at hindexKind
        cases hindexKind
      · exact absurd (.inr ⟨d, (hdropped.keeps_of_ne hd).mpr ht⟩) hgone

/-- Who does not read a table when it leaves does not read it later. -/
private theorem Departures.unread (h : Departures c db db') (hdb : db.Placed)
    (hkind : (db.object t).kind = .tableOrView) (ht : db.Present t) (hgone : ¬ db'.Present t) :
    db'.findDependent t t = none := by
  induction h with
  | refl => exact absurd ht hgone
  | @tail mid last hbefore hlast ih =>
    have hmid := Departures.placed hbefore hdb
    refine hlast.findDependent_eq_none hmid ?_
    by_cases hleft : mid.Present t
    · have hsame := (Departures.lessens hbefore hdb).objects t
      exact hlast.unread hmid (hsame.kind.trans hkind) hleft hgone
    · exact ih hleft

/-- What is still there is still listed. -/
private theorem Departures.not_present (h : Departures c db db') (hdb : db.Placed)
    (ht : db.Listed t) (hgone : ¬ db'.Listed t) : ¬ db'.Present t := by
  have hless := h.lessens hdb
  rintro (⟨r, hr⟩ | ⟨d, hd⟩)
  · rcases ht with ⟨s, hs, ht⟩ | ⟨d, hd⟩
    · obtain rfl := hdb.schema_eq ht (hless.holds hr)
      exact hgone (.inl ⟨s, by rwa [allSchemas, h.schemas_eq], hr⟩)
    · exact hdb.apart d r t hd (hless.holds hr)
  · exact hgone (.inr ⟨d, hd⟩)

private theorem mem_allTables_of_schemaGone (hu : u ∈ (schemaGone s name db).allTables) :
    u ∈ db.allTables := by
  obtain ⟨r, hr, hu⟩ := mem_allTables.mp hu
  obtain ⟨hactive, hu⟩ := mem_tablesIn.mp hu
  refine mem_allTables.mpr ⟨r, NameMap.mem_values_of_mem_erase hr, mem_tablesIn.mpr ⟨?_, ?_⟩⟩
  · change ((db.modifySchema s Schema.invalidate).schema r).state = .active at hactive
    rw [schema_modifySchema] at hactive
    split at hactive
    · cases hactive
    · exact hactive
  · rwa [(samePlaces_schemaGone s name db).spaces] at hu

/-- Nothing is listed any less when an empty schema goes. -/
private theorem listed_schemaGone (hname : db.findSchema name = some s)
    (hempty : (db.schema s).registry.isEmpty = true) (ht : db.Listed t) :
    (schemaGone s name db).Listed t := by
  refine ht.imp_left fun ⟨r, hr, kind, ht⟩ => ⟨r, ?_, kind, ?_⟩
  · refine NameMap.mem_values_erase_of_ne hname hr ?_
    rintro rfl
    have hnone := Registry.isEmpty_iff.mp hempty kind
    rw [space, hnone] at ht
    cases ht
  · rwa [(samePlaces_schemaGone s name db).spaces]

end Database

section Left

variable {c : SessionRef} {db db' : Database} {s : SchemaRef} {t : ObjectRef} {name : String}

/-- Who may read a table that is gone: no registered table, and no local temporary one that was not
there before or did not read the table then. -/
structure Database.ReadersLeft (db db' : Database) (t : ObjectRef) : Prop where
  registered : ∀ u ∈ db'.allTables, db'.dependsOn u t = false
  kept : ∀ c, ∀ u ∈ (db'.session c).tempTables.values,
    u ∈ (db.session c).tempTables.values ∧ db'.dependsOn u t = db.dependsOn u t

private theorem Database.Departures.readersLeft (h : Departures c db db') (hdb : db.Placed)
    (hkind : (db.object t).kind = .tableOrView) (ht : db.Listed t) (hgone : ¬ db'.Listed t) :
    db.ReadersLeft db' t := by
  have hless := h.lessens hdb
  have hpresent : db.Present t := ht.imp_left fun ⟨s, _, ht⟩ => ⟨s, ht⟩
  have hfree := h.unread hdb hkind hpresent (h.not_present hdb ht hgone)
  exact ⟨findDependent_eq_none_iff.mp hfree,
    fun c u hu => ⟨(hless.tempTables c).mem_values hu, hless.dependsOn_eq u t⟩⟩

private theorem Database.ReadersLeft.schemaGone (h : db.ReadersLeft db' t) :
    db.ReadersLeft (schemaGone s name db') t := by
  have hsame := samePlaces_schemaGone s name db'
  refine ⟨fun u hu => ?_, fun c u hu => ?_⟩
  · rw [hsame.lessens.dependsOn_eq]
    exact h.registered u (mem_allTables_of_schemaGone hu)
  · rw [hsame.tempTables] at hu
    rw [hsame.lessens.dependsOn_eq]
    exact h.kept c u hu

end Left

section Drops

variable {c : SessionRef} {statement : Statement} {db : Database} {t : ObjectRef}

/-- `DROP TABLE` and `DROP SCHEMA`. -/
def Statement.DropsTables : Statement → Prop
  | dropTable _ _ _ => True
  | dropSchema _ _ => True
  | _ => False

/-- When a session has dropped a table, alone or with its schema, no registered table is left that
reads it. A local temporary table that is left was there before, and reads what it read then. -/
theorem Becomes.readersLeft_of_dropped {allowed : Database → Action → Prop} {settings : Settings}
    (h : Becomes allowed (bootstrap settings) db) (hdrops : statement.DropsTables)
    (hkind : (db.object t).kind = .tableOrView) (ht : db.Listed t)
    (hgone : ¬ (stateAfter (statement.execute c) db).Listed t) :
    db.ReadersLeft (stateAfter (statement.execute c) db) t := by
  have hdb := h.placed (placed_bootstrap settings)
  cases statement with
  | dropTable schemaName name ifExists =>
    exact (departures_dropTable hdb c schemaName name ifExists).readersLeft hdb hkind ht hgone
  | dropSchema name ifExists =>
    rw [Statement.execute] at hgone ⊢
    rcases departures_dropSchemaStatement hdb c name ifExists with
      hgo | ⟨s, mid, hgo, hname, hempty, hafter⟩
    · exact hgo.readersLeft hdb hkind ht hgone
    · rw [hafter] at hgone ⊢
      have hmid : ¬ mid.Listed t := fun hleft => hgone (listed_schemaGone hname hempty hleft)
      exact (hgo.readersLeft hdb hkind ht hmid).schemaGone
  | _ => exact hdrops.elim

theorem becomes_withTempIndex :
    Becomes (fun _ _ => True) (bootstrap .standard) withTempIndex := by
  have hallowed : InTurn (fun _ _ => True) (bootstrap .standard) tempIndexActions :=
    ⟨trivial, trivial, trivial, trivial, trivial, trivial, trivial⟩
  exact hallowed.becomes

theorem readersLeft_withTempIndex :
    let dropT : Statement := .dropTable "APP" "T" false
    Becomes (fun _ _ => True) (bootstrap .standard) withTempIndex ∧
    dropT.DropsTables ∧ (withTempIndex.object ⟨0⟩).kind = .tableOrView ∧
    withTempIndex.Listed ⟨0⟩ ∧ ¬ (stateAfter (dropT.execute ⟨0⟩) withTempIndex).Listed ⟨0⟩ ∧
    ((stateAfter (dropT.execute ⟨0⟩) withTempIndex).session ⟨0⟩).tempTables.values = [⟨2⟩] ∧
    withTempIndex.ReadersLeft (stateAfter (dropT.execute ⟨0⟩) withTempIndex) ⟨0⟩ := by
  intro dropT
  have hkind : (withTempIndex.object ⟨0⟩).kind = .tableOrView := by decide +kernel
  have hlisted : withTempIndex.Listed ⟨0⟩ :=
    .inl ⟨⟨2⟩, by decide +kernel, .tableOrView, by decide +kernel⟩
  have hplaced : (stateAfter (dropT.execute ⟨0⟩) withTempIndex).Placed :=
    dropT.placed (becomes_withTempIndex.placed (placed_bootstrap _)) ⟨0⟩
  have hgone : ¬ (stateAfter (dropT.execute ⟨0⟩) withTempIndex).Listed ⟨0⟩ := by
    have hschema : ((stateAfter (dropT.execute ⟨0⟩) withTempIndex).object ⟨0⟩).schema = none := by
      decide +kernel
    have htable : ((stateAfter (dropT.execute ⟨0⟩) withTempIndex).tableOf ⟨0⟩).isLocalTemporary =
      false := by decide +kernel
    have hother : ((stateAfter (dropT.execute ⟨0⟩) withTempIndex).object ⟨0⟩).kind ≠ .index := by
      decide +kernel
    rintro (⟨s, -, kind, ho⟩ | ⟨d, ht | hi⟩)
    · have howner := ((hplaced.inOrder s).enters kind _ ho).schema
      rw [hschema] at howner
      cases howner
    · have hlocal := (hplaced.tempTables d _ ht).2
      rw [htable] at hlocal
      cases hlocal
    · exact hother (hplaced.sessions.indexKinds d _ hi)
  exact ⟨becomes_withTempIndex, trivial, hkind, hlisted, hgone, by decide +kernel,
    becomes_withTempIndex.readersLeft_of_dropped trivial hkind hlisted hgone⟩

/-- Make a table and a local temporary one that reads it, and drop the first. -/
def readerActions : List Action :=
  [.openSession ⟨1, "SA"⟩,
    .execute ⟨0⟩ (.createSchema "APP" false),
    .execute ⟨0⟩ (.createTable
      { schema := "APP", tableName := "T", columns := [.plain "A" "INT"], kind := .table,
        scope := .persistent, references := [], ifNotExists := false }),
    .execute ⟨0⟩ (.createTable
      { schema := "APP", tableName := "L", columns := [.plain "A" "INT"], kind := .table,
        scope := .localTemporary, references := ["T"], ifNotExists := false }),
    .execute ⟨0⟩ (.dropTable "APP" "T" false)]

-- the tables of sessions are not asked whether they read a table
example : let db := readerActions.foldl (fun db action => action.run db) (bootstrap .standard)
    (db.space ⟨2⟩ .tableOrView).values = [] ∧ (db.session ⟨0⟩).tempTables.values = [⟨1⟩] ∧
      db.dependsOn ⟨1⟩ ⟨0⟩ = true := by
  decide +kernel

end Drops

end SchemaCatalog
