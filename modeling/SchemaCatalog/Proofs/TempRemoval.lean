import SchemaCatalog.Proofs.Shrinking
/-!
# Dropping local temporary objects

What is left when a session drops local temporary tables and indexes. The objects that go are struck
off the session and cut off from their schema, and everything else stays as it was. A table takes the
indexes made on it along and no others.
-/
namespace SchemaCatalog.Database

section Dropped

variable {c d : SessionRef} {gone gone' : List ObjectRef} {db db' db'' : Database} {o : ObjectRef}

/-- The session keeps its tables and indexes under their own names, each among its kind. -/
structure Tidy (db : Database) (c : SessionRef) : Prop where
  tableNames : (db.session c).tempTables.Keyed db.nameOf
  indexNames : (db.session c).tempIndexes.Keyed db.nameOf
  tableKinds : ∀ t ∈ (db.session c).tempTables.values, (db.object t).kind = .tableOrView
  indexKinds : ∀ i ∈ (db.session c).tempIndexes.values, (db.object i).kind = .index

theorem Tidy.ne (h : db.Tidy c) {t i : ObjectRef} (ht : t ∈ (db.session c).tempTables.values)
    (hi : i ∈ (db.session c).tempIndexes.values) : t ≠ i := by
  rintro rfl
  have hkind := (h.tableKinds t ht).symm.trans (h.indexKinds t hi)
  cases hkind

/-- These objects of a session are struck off and cut off, and nothing else is done. -/
structure TempDropped (c : SessionRef) (gone : List ObjectRef) (db db' : Database) : Prop where
  kept : ∀ o ∈ gone, db.Keeps c o
  tables : (db'.session c).tempTables.Within (db.session c).tempTables
  indexes : (db'.session c).tempIndexes.Within (db.session c).tempIndexes
  mem_tables : ∀ t, t ∈ (db'.session c).tempTables.values ↔
    t ∈ (db.session c).tempTables.values ∧ t ∉ gone
  mem_indexes : ∀ i, i ∈ (db'.session c).tempIndexes.values ↔
    i ∈ (db.session c).tempIndexes.values ∧ i ∉ gone
  object : ∀ o, db'.object o = if o ∈ gone then (db.object o).invalidate else db.object o
  session : db'.session c = { db.session c with
    tempTables := (db'.session c).tempTables, tempIndexes := (db'.session c).tempIndexes }
  others : ∀ d, d ≠ c → db'.session d = db.session d
  objectCount : db'.objectStore.next = db.objectStore.next
  sessionCount : db'.sessionStore.next = db.sessionStore.next
  rest : db' = { db with objectStore := db'.objectStore, sessionStore := db'.sessionStore }

namespace TempDropped

private theorem none (c : SessionRef) (db : Database) : TempDropped c [] db db where
  kept := by simp
  tables := .refl _
  indexes := .refl _
  mem_tables := by simp
  mem_indexes := by simp
  object := by simp
  session := rfl
  others := fun _ _ => rfl
  objectCount := rfl
  sessionCount := rfl
  rest := rfl

theorem keeps_iff (h : TempDropped c gone db db') : db'.Keeps c o ↔ db.Keeps c o ∧ o ∉ gone := by
  rw [Keeps, h.mem_tables, h.mem_indexes, ← or_and_right, Keeps]

theorem keeps_of_ne (h : TempDropped c gone db db') (hd : d ≠ c) :
    db'.Keeps d o ↔ db.Keeps d o := by
  rw [Keeps, h.others d hd, Keeps]

theorem keeps (h : TempDropped c gone db db') (ho : db'.Keeps d o) : db.Keeps d o := by
  by_cases hd : d = c
  · subst hd
    exact (h.keeps_iff.mp ho).1
  · exact (h.keeps_of_ne hd).mp ho

theorem same (h : TempDropped c gone db db') (o : ObjectRef) : Same db db' o := by
  have hobject := h.object o
  split at hobject
  · exact .invalidate hobject
  · exact .of_eq hobject

theorem schema_eq (h : TempDropped c gone db db') (s : SchemaRef) :
    db'.schema s = db.schema s := by
  rw [h.rest]
  rfl

theorem allSchemas_eq (h : TempDropped c gone db db') : db'.allSchemas = db.allSchemas := by
  rw [h.rest]
  rfl

private theorem tidy (h : TempDropped c gone db db') (htidy : db.Tidy d) : db'.Tidy d := by
  have hnames : db'.nameOf = db.nameOf := funext fun o => (h.same o).name
  have hwithin : (db'.session d).tempTables.Within (db.session d).tempTables ∧
      (db'.session d).tempIndexes.Within (db.session d).tempIndexes := by
    by_cases hd : d = c
    · subst hd
      exact ⟨h.tables, h.indexes⟩
    · rw [h.others d hd]
      exact ⟨.refl _, .refl _⟩
  refine ⟨?_, ?_, fun t ht => ?_, fun i hi => ?_⟩
  · rw [hnames]
    exact htidy.tableNames.within hwithin.1
  · rw [hnames]
    exact htidy.indexNames.within hwithin.2
  · rw [(h.same t).kind]
    exact htidy.tableKinds t (hwithin.1.mem_values ht)
  · rw [(h.same i).kind]
    exact htidy.indexKinds i (hwithin.2.mem_values hi)

/-- First some objects go, then some of those left. -/
private theorem trans (h : TempDropped c gone db db') (h' : TempDropped c gone' db' db'') :
    TempDropped c (gone ++ gone') db db'' where
  kept := by
    intro o ho
    rcases List.mem_append.mp ho with ho | ho
    · exact h.kept o ho
    · exact h.keeps (h'.kept o ho)
  tables := h'.tables.trans h.tables
  indexes := h'.indexes.trans h.indexes
  mem_tables := by
    intro t
    rw [h'.mem_tables, h.mem_tables, List.mem_append, not_or, and_assoc]
  mem_indexes := by
    intro i
    rw [h'.mem_indexes, h.mem_indexes, List.mem_append, not_or, and_assoc]
  object := by
    intro o
    rw [h'.object, h.object]
    by_cases ho : o ∈ gone <;> by_cases ho' : o ∈ gone' <;> simp [ho, ho', Object.invalidate]
  session := by
    rw [h'.session, h.session]
  others := fun d hd => (h'.others d hd).trans (h.others d hd)
  objectCount := h'.objectCount.trans h.objectCount
  sessionCount := h'.sessionCount.trans h.sessionCount
  rest := by
    rw [h'.rest, h.rest]

end TempDropped

end Dropped

section Drop

variable {c : SessionRef} {db db' : Database} {name : String} {t i : ObjectRef}

/-- The index that a name finds goes, and only this index. -/
theorem Tidy.tempDropped_index (h : db.Tidy c)
    (hfind : (db.session c).tempIndexes.get? name = some i) :
    TempDropped c [i] db (c.dropTempIndex name db).2 := by
  have hmem : i ∈ (db.session c).tempIndexes.values := NameMap.mem_values_of_get? hfind
  have hdrop : (c.dropTempIndex name db).2 =
      (indexForgotten c name db).modifyObject i Object.invalidate := by
    rw [SessionRef.dropTempIndex, SessionRef.tempIndex?, hfind]
    rfl
  have hsession : ∀ d, ((indexForgotten c name db).modifyObject i Object.invalidate).session d =
      if d = c then
        { db.session c with tempIndexes := (db.session c).tempIndexes.erase name }
      else db.session d := fun d => session_modifySession ..
  have hown := hsession c
  rw [if_pos rfl] at hown
  rw [hdrop]
  exact {
    kept := fun o ho => .inr (List.mem_singleton.mp ho ▸ hmem)
    tables := hown ▸ .refl _
    indexes := hown ▸ NameMap.within_erase _ _
    mem_tables := by
      intro t
      rw [hown, List.mem_singleton]
      exact ⟨fun ht => ⟨ht, h.ne ht hmem⟩, fun ht => ht.1⟩
    mem_indexes := by
      intro other
      rw [hown, List.mem_singleton]
      exact h.indexNames.mem_values_erase_of_get? hfind
    object := by
      intro o
      simp only [object_modifyObject, List.mem_singleton]
      split
      next heq => rw [heq]; rfl
      next => rfl
    session := by rw [hown]
    others := fun d hd => (hsession d).trans (if_neg hd)
    objectCount := rfl
    sessionCount := rfl
    rest := rfl }

/-- Indexes of the session go one after the other, each by its name. -/
private theorem Tidy.tempDropped_indexes (h : db.Tidy c) {gone : List ObjectRef}
    (hnodup : gone.Nodup) (hgone : ∀ i ∈ gone, i ∈ (db.session c).tempIndexes.values) :
    TempDropped c gone db
      ((gone.map db.nameOf).foldl (fun db name => (c.dropTempIndex name db).2) db) := by
  induction gone generalizing db with
  | nil => exact .none c db
  | cons i gone ih =>
    obtain ⟨hi, hgone⟩ := List.forall_mem_cons.mp hgone
    obtain ⟨hnot, hnodup⟩ := List.nodup_cons.mp hnodup
    have hfirst := h.tempDropped_index (h.indexNames.mem_values_iff.mp hi)
    -- the names of those left are still the same
    have hnames : gone.map db.nameOf = gone.map (c.dropTempIndex (db.nameOf i) db).2.nameOf :=
      List.map_congr_left fun o _ => (hfirst.same o).name.symm
    rw [List.map_cons, List.foldl_cons, hnames]
    refine hfirst.trans (ih (hfirst.tidy h) hnodup fun o ho => ?_)
    refine (hfirst.mem_indexes o).mpr ⟨hgone o ho, fun heq => hnot ?_⟩
    exact List.mem_singleton.mp heq ▸ ho

theorem session_tableForgotten (c : SessionRef) (name : String) (db : Database) (d : SessionRef) :
    (tableForgotten c name db).session d = if d = c then
      { db.session c with tempTables := (db.session c).tempTables.erase name }
      else db.session d :=
  session_modifySession ..

private theorem Tidy.tableForgotten (h : db.Tidy c) (name : String) :
    (tableForgotten c name db).Tidy c := by
  have hown := session_tableForgotten c name db c
  rw [if_pos rfl] at hown
  refine ⟨?_, ?_, ?_, ?_⟩ <;> rw [hown]
  · exact h.tableNames.erase name
  · exact h.indexNames
  · exact fun t ht => h.tableKinds t (NameMap.mem_values_of_mem_erase ht)
  · exact h.indexKinds

/-- A table is struck off before its indexes go, and cut off after them. -/
private theorem TempDropped.table {owned : List ObjectRef} (htidy : db.Tidy c)
    (hfind : (db.session c).tempTables.get? name = some t)
    (h : TempDropped c owned (Database.tableForgotten c name db) db') :
    TempDropped c (owned ++ [t]) db (db'.modifyObject t Object.invalidate) := by
  have hmem : t ∈ (db.session c).tempTables.values := NameMap.mem_values_of_get? hfind
  have hown := session_tableForgotten c name db c
  rw [if_pos rfl] at hown
  have hobject : ∀ o, (Database.tableForgotten c name db).object o = db.object o := fun _ => rfl
  exact {
    kept := by
      intro o ho
      rcases List.mem_append.mp ho with ho | ho
      · have hkept := h.kept o ho
        rw [Keeps, hown] at hkept
        exact hkept.imp_left NameMap.mem_values_of_mem_erase
      · exact .inl (List.mem_singleton.mp ho ▸ hmem)
    tables := by
      have hwithin := h.tables
      rw [hown] at hwithin
      exact hwithin.trans (NameMap.within_erase _ _)
    indexes := by
      have hwithin := h.indexes
      rw [hown] at hwithin
      exact hwithin
    mem_tables := by
      intro other
      refine (h.mem_tables other).trans ?_
      rw [hown, htidy.tableNames.mem_values_erase_of_get? hfind, List.mem_append,
        List.mem_singleton]
      tauto
    mem_indexes := by
      intro other
      refine (h.mem_indexes other).trans ?_
      rw [hown, List.mem_append, List.mem_singleton, not_or]
      refine and_congr_right fun hother => (and_iff_left ?_).symm
      exact fun heq => htidy.ne hmem hother heq.symm
    object := by
      intro o
      rw [object_modifyObject, h.object, h.object, hobject, hobject]
      by_cases ho : o = t
      · by_cases howned : t ∈ owned <;> simp [ho, howned, Object.invalidate]
      · simp [ho]
    session := by
      have hrest := h.session
      rw [hown] at hrest
      exact hrest
    others := by
      intro d hd
      have hrest := h.others d hd
      rw [session_tableForgotten, if_neg hd] at hrest
      exact hrest
    objectCount := h.objectCount
    sessionCount := h.sessionCount
    rest := by
      have hrest := h.rest
      simp only [Database.tableForgotten, modifySession] at hrest
      rw [hrest]
      rfl }

/-- The table that a name finds goes with the indexes made on it. -/
theorem Tidy.tempDropped_table (h : db.Tidy c)
    (hfind : (db.session c).tempTables.get? name = some t) :
    TempDropped c (c.tempIndexesOf (db.object t).id db ++ [t]) db (c.dropTempTable name db).2 := by
  have hown := session_tableForgotten c name db c
  rw [if_pos rfl] at hown
  have hlist : c.tempIndexesOf (db.object t).id (Database.tableForgotten c name db) =
      c.tempIndexesOf (db.object t).id db := by
    rw [SessionRef.tempIndexesOf, hown]
    rfl
  have hindexes := (h.tableForgotten name).tempDropped_indexes (h.indexNames.nodup_values.filter
    fun i => (db.indexOf i).tableId = (db.object t).id) ?_
  · have hdrop : (c.dropTempTable name db).2 =
        (((c.tempIndexesOf (db.object t).id db).map db.nameOf).foldl
          (fun db name => (c.dropTempIndex name db).2)
          (Database.tableForgotten c name db)).modifyObject t Object.invalidate := by
      rw [← hlist, SessionRef.dropTempTable, SessionRef.tempTable?, hfind]
      rfl
    rw [hdrop]
    exact .table h hfind hindexes
  · intro i hi
    rw [hown]
    exact (List.mem_filter.mp hi).1

/-- With each table of the session that goes, the indexes made on it go. -/
def TakesAlong (db : Database) (c : SessionRef) (gone : List ObjectRef) : Prop :=
  ∀ t ∈ gone, t ∈ (db.session c).tempTables.values → ∀ i ∈ (db.session c).tempIndexes.values,
    (db.indexOf i).tableId = (db.object t).id → i ∈ gone

theorem Tidy.dropTempIndex (h : db.Tidy c) (name : String) :
    ∃ gone, TempDropped c gone db (c.dropTempIndex name db).2 ∧ db.TakesAlong c gone := by
  cases hfind : (db.session c).tempIndexes.get? name with
  | none =>
    rw [SessionRef.dropTempIndex, SessionRef.tempIndex?, hfind]
    exact ⟨[], .none c db, by simp [TakesAlong]⟩
  | some i =>
    refine ⟨[i], h.tempDropped_index hfind, fun t ht htable => ?_⟩
    rw [List.mem_singleton.mp ht] at htable
    exact absurd rfl (h.ne htable (NameMap.mem_values_of_get? hfind))

theorem Tidy.dropTempTable (h : db.Tidy c) (name : String) :
    ∃ gone, TempDropped c gone db (c.dropTempTable name db).2 ∧ db.TakesAlong c gone := by
  cases hfind : (db.session c).tempTables.get? name with
  | none =>
    rw [SessionRef.dropTempTable, SessionRef.tempTable?, hfind]
    exact ⟨[], .none c db, by simp [TakesAlong]⟩
  | some t =>
    refine ⟨_, h.tempDropped_table hfind, fun u hu htable i hi hid => ?_⟩
    rcases List.mem_append.mp hu with hu | hu
    · exact absurd rfl (h.ne htable (List.mem_filter.mp hu).1)
    · rw [List.mem_singleton.mp hu] at hid
      exact List.mem_append_left _ (List.mem_filter.mpr ⟨hi, by simpa⟩)

/-- Tables of the session go one after the other, each by its name and with its indexes. -/
private theorem Tidy.tempDropped_tables (h : db.Tidy c) {tables : List ObjectRef}
    (hnodup : tables.Nodup) (hmem : ∀ t ∈ tables, t ∈ (db.session c).tempTables.values) :
    ∃ gone, TempDropped c gone db
        ((tables.map db.nameOf).foldl (fun db name => (c.dropTempTable name db).2) db) ∧
      (∀ t ∈ tables, t ∈ gone) ∧ ∀ t ∈ tables, ∀ i ∈ (db.session c).tempIndexes.values,
        (db.indexOf i).tableId = (db.object t).id → i ∈ gone := by
  induction tables generalizing db with
  | nil => exact ⟨[], .none c db, by simp, by simp⟩
  | cons t tables ih =>
    obtain ⟨ht, hmem⟩ := List.forall_mem_cons.mp hmem
    obtain ⟨hnot, hnodup⟩ := List.nodup_cons.mp hnodup
    have hfirst := h.tempDropped_table (h.tableNames.mem_values_iff.mp ht)
    have hnames : tables.map db.nameOf = tables.map (c.dropTempTable (db.nameOf t) db).2.nameOf :=
      List.map_congr_left fun o _ => (hfirst.same o).name.symm
    have hleft : ∀ u ∈ tables,
        u ∈ ((c.dropTempTable (db.nameOf t) db).2.session c).tempTables.values := by
      intro u hu
      refine (hfirst.mem_tables u).mpr ⟨hmem u hu, fun hgone => ?_⟩
      rcases List.mem_append.mp hgone with hgone | hgone
      · exact h.ne (hmem u hu) (List.mem_filter.mp hgone).1 rfl
      · exact hnot (List.mem_singleton.mp hgone ▸ hu)
    obtain ⟨gone, hrest, htables, hindexes⟩ := ih (hfirst.tidy h) hnodup hleft
    rw [List.map_cons, List.foldl_cons, hnames]
    refine ⟨_, hfirst.trans hrest, List.forall_mem_cons.mpr ⟨by simp, fun u hu => ?_⟩,
      List.forall_mem_cons.mpr ⟨fun i hi hid => ?_, fun u hu i hi hid => ?_⟩⟩
    · exact List.mem_append_right _ (htables u hu)
    · exact List.mem_append_left _ (List.mem_append_left _ (List.mem_filter.mpr ⟨hi, by simpa⟩))
    · rw [List.mem_append]
      by_cases hgone : i ∈ c.tempIndexesOf (db.object t).id db ++ [t]
      · exact .inl hgone
      · refine .inr (hindexes u hu i ((hfirst.mem_indexes i).mpr ⟨hi, hgone⟩) ?_)
        rw [(hfirst.same i).index, (hfirst.same u).id, hid]

end Drop

section Close

variable {c : SessionRef} {db : Database}

/-- The database with a session that is not open any more. -/
def deactivated (c : SessionRef) (db : Database) : Database :=
  db.modifySession c fun session => { session with active := false }

theorem session_deactivated (c d : SessionRef) (db : Database) :
    (deactivated c db).session d =
      if d = c then { db.session c with active := false } else db.session d :=
  session_modifySession ..

/-- An open session that is closed drops all its tables, with the indexes made on them. -/
theorem Tidy.tempDropped_close (h : db.Tidy c) (hactive : (db.session c).active = true) :
    ∃ gone, TempDropped c gone (deactivated c db) (c.close db) ∧
      (∀ t ∈ (db.session c).tempTables.values, t ∈ gone) ∧
      ∀ t ∈ (db.session c).tempTables.values, ∀ i ∈ (db.session c).tempIndexes.values,
        (db.indexOf i).tableId = (db.object t).id → i ∈ gone := by
  have hown := session_deactivated c c db
  rw [if_pos rfl] at hown
  have htidy : (deactivated c db).Tidy c := by
    refine ⟨?_, ?_, ?_, ?_⟩ <;> rw [hown]
    · exact h.tableNames
    · exact h.indexNames
    · exact h.tableKinds
    · exact h.indexKinds
  have hclose : c.close db =
      (((db.session c).tempTables.values).map (deactivated c db).nameOf).foldl
        (fun db name => (c.dropTempTable name db).2) (deactivated c db) := by
    have htables : c.tempTables (deactivated c db) = (db.session c).tempTables.values := by
      rw [SessionRef.tempTables, hown]
    rw [SessionRef.close, if_pos hactive, ← htables]
    rfl
  obtain ⟨gone, hdropped, htables, hindexes⟩ := htidy.tempDropped_tables
    h.tableNames.nodup_values (by rw [hown]; exact fun t ht => ht)
  rw [hown] at hindexes
  exact ⟨gone, hclose ▸ hdropped, htables, hindexes⟩

end Close

end SchemaCatalog.Database
