import SchemaCatalog.Proofs.Placement
/-!
# Tables and the indexes that they carry

An index is in the same place as the table that it is made on, and the look-up of the indexes of a
table finds just those. What takes the table away takes the index along.
-/
namespace SchemaCatalog.Database

variable {db db' : Database} {s : SchemaRef} {c d : SessionRef} {o t i : ObjectRef}
  {gone indexes : List ObjectRef}

/-- The object is in a schema or with a session. -/
def Present (db : Database) (o : ObjectRef) : Prop :=
  (∃ s, db.Holds s o) ∨ ∃ c, db.Keeps c o

/-- The index is made on the table and kept where the table is. -/
structure Carries (db : Database) (t i : ObjectRef) : Prop where
  tableId : (db.indexOf i).tableId = (db.object t).id
  beside : (∃ s, t ∈ (db.space s .tableOrView).values ∧ i ∈ (db.space s .index).values) ∨
    ∃ c, t ∈ (db.session c).tempTables.values ∧ i ∈ (db.session c).tempIndexes.values

theorem Placed.not_present_nextObject (h : db.Placed) : ¬ db.Present db.nextObject := by
  rintro (⟨s, ho⟩ | ⟨c, ho⟩)
  · exact h.not_holds_nextObject s ho
  · exact h.not_keeps_nextObject c ho

theorem Lessens.present (h : Lessens db db') (ho : db'.Present o) : db.Present o := by
  rcases ho with ⟨s, ho⟩ | ⟨c, ho⟩
  · exact .inl ⟨s, h.holds ho⟩
  · exact .inr ⟨c, h.keeps ho⟩

theorem Placed.slot_of_present (h : db.Placed) (ho : db.Present o) :
    o.slot < db.objectStore.next := by
  rcases ho with ⟨s, ho⟩ | ⟨c, ho⟩
  · exact h.slots s o ho
  · exact h.keptSlots c o ho

theorem Carries.table_present (h : db.Carries t i) : db.Present t :=
  h.beside.imp (fun ⟨s, ht, _⟩ => ⟨s, _, ht⟩) fun ⟨c, ht, _⟩ => ⟨c, .inl ht⟩

theorem Carries.index_present (h : db.Carries t i) : db.Present i :=
  h.beside.imp (fun ⟨s, _, hi⟩ => ⟨s, _, hi⟩) fun ⟨c, _, hi⟩ => ⟨c, .inr hi⟩

/-- Places may fill. -/
private theorem Carries.mono (h : db.Carries t i) (hid : (db'.object t).id = (db.object t).id)
    (hindex : db'.indexOf i = db.indexOf i)
    (hspaces : ∀ s kind, ∀ o ∈ (db.space s kind).values, o ∈ (db'.space s kind).values)
    (htables : ∀ c, ∀ u ∈ (db.session c).tempTables.values, u ∈ (db'.session c).tempTables.values)
    (hindexes : ∀ c, ∀ j ∈ (db.session c).tempIndexes.values,
      j ∈ (db'.session c).tempIndexes.values) : db'.Carries t i where
  tableId := by rw [hindex, hid, h.tableId]
  beside := by
    rcases h.beside with ⟨s, hmem, hmem'⟩ | ⟨c, hmem, hmem'⟩
    · exact .inl ⟨s, hspaces s _ t hmem, hspaces s _ i hmem'⟩
    · exact .inr ⟨c, htables c t hmem, hindexes c i hmem'⟩

theorem Carries.of_lessens (hless : Lessens db db') (h : db'.Carries t i) : db.Carries t i where
  tableId := by rw [← (hless.objects i).index, ← (hless.objects t).id, h.tableId]
  beside := by
    rcases h.beside with ⟨s, hmem, hmem'⟩ | ⟨c, hmem, hmem'⟩
    · exact .inl ⟨s, (hless.spaces s _).mem_values hmem, (hless.spaces s _).mem_values hmem'⟩
    · exact .inr ⟨c, (hless.tempTables c).mem_values hmem, (hless.tempIndexes c).mem_values hmem'⟩

theorem Carries.samePlaces (h : db.Carries t i) (hsame : SamePlaces db db') : db'.Carries t i := by
  refine h.mono (hsame.objects t).id (hsame.objects i).index (fun s kind o ho => ?_)
    (fun c u hu => ?_) fun c j hj => ?_
  · rwa [hsame.spaces]
  · rwa [hsame.tempTables]
  · rwa [hsame.tempIndexes]

/-- A table and its index that are both left are left where they were. -/
theorem Placed.carries_of_lessens (h : db.Placed) (hless : Lessens db db')
    (hon : db.Carries t i) (ht : db'.Present t) (hi : db'.Present i) : db'.Carries t i where
  tableId := by rw [(hless.objects i).index, (hless.objects t).id, hon.tableId]
  beside := by
    rcases hon.beside with ⟨s, hmem, hmem'⟩ | ⟨c, hmem, hmem'⟩
    · have hstays : ∀ {o kind}, o ∈ (db.space s kind).values → db'.Present o →
          o ∈ (db'.space s kind).values := by
        rintro o kind ho (⟨r, hr⟩ | ⟨d, hd⟩)
        · obtain rfl := h.schema_eq ⟨kind, ho⟩ (hless.holds hr)
          have hheld := (hless.inOrder (h.inOrder s)).mem_of_holds hr
          rwa [(hless.objects o).kind, (h.inOrder s).kind_of_mem ho] at hheld
        · exact absurd ⟨kind, ho⟩ (h.apart d s o (hless.keeps hd))
      exact .inl ⟨s, hstays hmem ht, hstays hmem' hi⟩
    · have hkept : ∀ {o}, db.Keeps c o → db'.Present o → db'.Keeps c o := by
        rintro o ho (⟨r, hr⟩ | ⟨d, hd⟩)
        · exact absurd (hless.holds hr) (h.apart c r o ho)
        · obtain rfl := h.sessions.keeper c d o ho (hless.keeps hd)
          exact hd
      refine .inr ⟨c, (hkept (.inl hmem) ht).resolve_right fun hindex => ?_,
        (hkept (.inr hmem') hi).resolve_left fun htable => ?_⟩
      · exact (h.tidy c).ne hmem ((hless.tempIndexes c).mem_values hindex) rfl
      · exact (h.tidy c).ne ((hless.tempTables c).mem_values htable) hmem' rfl

/-- The table that carries an index is all that has to stay. -/
theorem Placed.carries_detached (h : db.Placed) (ho : db.Holds s o) (hon : db.Carries t i)
    (hne : t ≠ o) (hi : (Database.detached s db o).Present i) :
    (Database.detached s db o).Carries t i := by
  refine h.carries_of_lessens (h.lessens_detached ho) hon ?_ hi
  refine hon.table_present.imp (fun ⟨r, kind, ht⟩ => ?_) id
  exact ⟨r, kind, (h.mem_space_detached ho).mpr ⟨ht, hne⟩⟩

/-- A table of a session takes its indexes along. -/
theorem Placed.carries_tempDropped (h : db.Placed) (hdropped : TempDropped c gone db db')
    (htakes : db.TakesAlong c gone) (hon : db.Carries t i) (hi : db'.Present i) :
    db'.Carries t i := by
  refine h.carries_of_lessens (h.lessens_tempDropped hdropped) hon ?_ hi
  rcases hon.beside with ⟨s, ht, -⟩ | ⟨d, ht, hmem⟩
  · refine .inl ⟨s, .tableOrView, ?_⟩
    rwa [space, hdropped.schema_eq]
  · by_cases hd : d = c
    · subst hd
      have hstays : i ∉ gone := by
        rcases hi with ⟨s, hi⟩ | ⟨e, hi⟩
        · exact absurd ((h.lessens_tempDropped hdropped).holds hi) (h.apart d s i (.inr hmem))
        · obtain rfl := h.sessions.keeper d e i (.inr hmem) (hdropped.keeps hi)
          exact (hdropped.keeps_iff.mp hi).2
      refine .inr ⟨d, .inl ((hdropped.mem_tables t).mpr ⟨ht, fun hgone => hstays ?_⟩)⟩
      exact htakes t hgone ht i hmem hon.tableId
    · exact .inr ⟨d, (hdropped.keeps_of_ne hd).mpr (.inl ht)⟩

/-- A place that is emptied loses the table and the index. -/
theorem Placed.carries_withSchema (h : db.Placed) {name : String} {owner : Option Principal}
    {system : Bool} (hon : db.Carries t i)
    (hi : (Database.withSchema name owner system db).Present i) :
    (Database.withSchema name owner system db).Carries t i := by
  have hless := lessens_withSchema name owner system db
  refine h.carries_of_lessens hless hon ?_ hi
  rcases hon.beside with ⟨s, ht, hmem⟩ | ⟨d, ht, -⟩
  · have hs : s ≠ db.nextSchema := by
      rintro rfl
      rcases hi with ⟨r, hi⟩ | ⟨e, hi⟩
      · obtain rfl := h.schema_eq ⟨_, hmem⟩ (hless.holds hi)
        obtain ⟨kind, hi⟩ := hi
        rw [space_nextSchema] at hi
        cases hi
      · exact h.apart e _ i hi ⟨_, hmem⟩
    refine .inl ⟨s, .tableOrView, ?_⟩
    rwa [space_withSchema hs]
  · exact .inr ⟨d, .inl ht⟩

section Growth

variable {name newName : String} {body : ObjectBody} {index : Index}

theorem Placed.carries_withObject (h : db.Placed) (hon : db.Carries t i) :
    (db.withObject s name body).Carries t i := by
  have ht := object_withObject_of_lt s name body (h.slot_of_present hon.table_present)
  have hi := object_withObject_of_lt s name body (h.slot_of_present hon.index_present)
  exact hon.mono (by rw [ht]) (by rw [indexOf, hi, indexOf]) (fun _ _ _ => id) (fun _ _ => id)
    fun _ _ => id

theorem Carries.entered (h : db.Carries t i)
    (hfree : (db.space s (db.object o).kind).get? (db.nameOf o) = none) :
    (entered s o db).Carries t i := by
  refine h.mono rfl rfl (fun r kind other hother => ?_) (fun _ _ => id) fun _ _ => id
  rw [space_entered]
  split
  next heq =>
    obtain ⟨rfl, rfl⟩ := heq
    exact (NameMap.mem_values_insert hfree _ _).mpr (.inr hother)
  next => exact hother

theorem Carries.tableKept (h : db.Carries t i)
    (hfree : (db.session c).tempTables.get? (db.nameOf o) = none) :
    (tableKept c o db).Carries t i := by
  refine h.mono rfl rfl (fun _ _ _ => id) (fun d u hu => ?_) fun d j hj => ?_
  all_goals rw [Database.tableKept, session_modifySession]; split
  next hd => exact (NameMap.mem_values_insert hfree _ _).mpr (.inr (hd ▸ hu))
  next => exact hu
  next hd => exact hd ▸ hj
  next => exact hj

theorem Carries.indexKept (h : db.Carries t i)
    (hfree : (db.session c).tempIndexes.get? (db.nameOf o) = none) :
    (indexKept c o db).Carries t i := by
  refine h.mono rfl rfl (fun _ _ _ => id) (fun d u hu => ?_) fun d j hj => ?_
  all_goals rw [Database.indexKept, session_modifySession]; split
  next hd => exact hd ▸ hu
  next => exact hu
  next hd => exact (NameMap.mem_values_insert hfree _ _).mpr (.inr (hd ▸ hj))
  next => exact hj

theorem Placed.carries_renamed (h : db.Placed) (ho : db.Holds s o)
    (hfree : (db.space s (db.object o).kind).get? newName = none) (hon : db.Carries t i) :
    (Database.renamed s o newName db).Carries t i :=
  hon.mono id_renamed (field_modifyObject Object.asIndex i rfl)
    (fun _ _ _ => ((h.inOrder s).filed.mem_space_renamed ho hfree).mpr) (fun _ _ => id) fun _ _ => id

/-- A new index in the schema of its table. -/
theorem Placed.carries_indexEntered (h : db.Placed) (ht : t ∈ (db.space s .tableOrView).values)
    (hid : index.tableId = (db.object t).id)
    (hfree : (db.space s .index).get? name = none) :
    (Database.entered s db.nextObject (db.withObject s name (.index index))).Carries t
      db.nextObject where
  tableId := by
    have hslot := h.slots s t ⟨_, ht⟩
    change ((db.withObject s name (.index index)).object db.nextObject).asIndex.tableId =
      ((db.withObject s name (.index index)).object t).id
    rw [object_nextObject, object_withObject_of_lt s name _ hslot]
    exact hid
  beside := by
    refine .inl ⟨s, ?_, ?_⟩ <;> rw [space_entered, nameOf, object_nextObject]
    · rw [if_neg fun heq => by cases heq.2]
      exact ht
    · rw [if_pos ⟨rfl, rfl⟩]
      exact (NameMap.mem_values_insert hfree _ _).mpr (.inl rfl)

/-- A new index in the session of its table. -/
theorem Placed.carries_indexKept (h : db.Placed) (ht : t ∈ (db.session c).tempTables.values)
    (hid : index.tableId = (db.object t).id)
    (hfree : (db.session c).tempIndexes.get? name = none) :
    (Database.indexKept c db.nextObject (db.withObject s name (.index index))).Carries t
      db.nextObject where
  tableId := by
    have hslot := h.keptSlots c t (.inl ht)
    change ((db.withObject s name (.index index)).object db.nextObject).asIndex.tableId =
      ((db.withObject s name (.index index)).object t).id
    rw [object_nextObject, object_withObject_of_lt s name _ hslot]
    exact hid
  beside := by
    refine .inr ⟨c, ?_, ?_⟩ <;>
      rw [Database.indexKept, session_modifySession, if_pos rfl, nameOf, object_nextObject]
    · exact ht
    · exact (NameMap.mem_values_insert hfree _ _).mpr (.inl rfl)

end Growth

theorem schema_of_ok {r : SchemaRef} (howner : (db.object o).schema = some s)
    (hrun : schemaOf o db = .ok r) : r = s :=
  Option.some.inj ((schemaOf_eq_ok_iff.mp hrun).1.symm.trans howner)

/-- The look-up of the schema of an object finds the one that it is in. -/
theorem Placed.schema_of_ok (h : db.Placed) {r : SchemaRef} (ho : db.Holds s o)
    (hrun : schemaOf o db = .ok r) : r = s := by
  obtain ⟨kind, ho⟩ := ho
  exact Database.schema_of_ok ((h.inOrder s).enters kind o ho).schema hrun

/-- An index of a table in a schema is in the same schema. -/
theorem Placed.mem_space_of_carries (h : db.Placed) (ht : t ∈ (db.space s .tableOrView).values)
    (hon : db.Carries t i) : i ∈ (db.space s .index).values := by
  rcases hon.beside with ⟨r, hr, hi⟩ | ⟨d, hd, -⟩
  · obtain rfl := h.schema_eq ⟨_, ht⟩ ⟨_, hr⟩
    exact hi
  · exact absurd ⟨_, ht⟩ (h.apart d s t (.inl hd))

/-- An index of a table of a session is with the same session. -/
private theorem Placed.mem_tempIndexes_of_carries (h : db.Placed)
    (ht : t ∈ (db.session c).tempTables.values) (hon : db.Carries t i) :
    i ∈ (db.session c).tempIndexes.values := by
  rcases hon.beside with ⟨r, hr, -⟩ | ⟨d, hd, hi⟩
  · exact absurd ⟨_, hr⟩ (h.apart c r t (.inl ht))
  · obtain rfl := h.sessions.keeper c d t (.inl ht) (.inl hd)
    exact hi

/-- A visible table is with the session if it is a local temporary one. -/
theorem Placed.mem_tempTables_of_local (h : db.Placed) (ht : db.Visible c s t)
    (hlocal : (db.tableOf t).isLocalTemporary = true) :
    t ∈ (db.session c).tempTables.values := by
  refine ht.resolve_left fun hspace => ?_
  rw [h.permanent s t hspace] at hlocal
  cases hlocal

/-- A visible table is in the schema if it is not a local temporary one. -/
theorem Placed.mem_space_of_not_local (h : db.Placed) (ht : db.Visible c s t)
    (hlocal : (db.tableOf t).isLocalTemporary = false) :
    t ∈ (db.space s .tableOrView).values := by
  refine ht.resolve_right fun hkept => ?_
  rw [(h.tempTables c t hkept).2] at hlocal
  cases hlocal

/-- The indexes that a look-up finds for a visible table are those that the table carries. -/
theorem Placed.mem_indexesOf (h : db.Placed) (ht : db.Visible c s t)
    (hrun : indexesOf (some c) t db = .ok indexes) : i ∈ indexes ↔ db.Carries t i := by
  rw [indexesOf, read_bind_run] at hrun
  cases hlocal : (db.tableOf t).isLocalTemporary with
  | true =>
    have hmem := h.mem_tempTables_of_local ht hlocal
    simp only [hlocal, if_true] at hrun
    have hindexes : indexes = c.tempIndexesOf (db.object t).id db := by
      cases hrun
      rfl
    rw [hindexes, SessionRef.tempIndexesOf, List.mem_filter, decide_eq_true_eq]
    constructor
    · rintro ⟨hi, hid⟩
      exact ⟨hid, .inr ⟨c, hmem, hi⟩⟩
    · exact fun hon => ⟨h.mem_tempIndexes_of_carries hmem hon, hon.tableId⟩
  | false =>
    have hmem := h.mem_space_of_not_local ht hlocal
    simp only [hlocal, Bool.false_eq_true, if_false] at hrun
    obtain ⟨r, hschema, hrun⟩ := look_bind_eq_ok_iff.mp hrun
    obtain ⟨all, hall, hrun⟩ := look_bind_eq_ok_iff.mp hrun
    obtain ⟨registry, hactive, hall⟩ := look_bind_eq_ok_iff.mp hall
    obtain ⟨-, rfl⟩ := activeRegistry_eq_ok_iff.mp hactive
    obtain rfl := h.schema_of_ok ⟨_, hmem⟩ hschema
    have hindexes : indexes = db.indexesOn r t := by
      cases hall
      cases hrun
      rfl
    rw [hindexes, mem_indexesOn]
    constructor
    · rintro ⟨hi, hid⟩
      exact ⟨hid, .inl ⟨r, hmem, hi⟩⟩
    · exact fun hon => ⟨h.mem_space_of_carries hmem hon, hon.tableId⟩

end SchemaCatalog.Database
