import SchemaCatalog.Proofs.Effects
import SchemaCatalog.Proofs.Evolution
/-!
# Changes of columns

What statements do to the columns of tables that are there already. Only an alteration of the table
itself can take a column away or let it admit null, and it does neither to a column that an index
relies on.
-/
namespace SchemaCatalog

open Database

private theorem Object.asIndex_mapTable (change : Table → Table) (object : Object) :
    (object.mapTable change).asIndex = object.asIndex := by
  rw [mapTable]
  split
  next h => simp [asIndex, h]
  next => rfl

namespace Table

variable {listed inKey : String → Prop} {table table' table'' : Table} {name : String}

/-- The table has a column of this name, which does not admit null. -/
def RefusesNull (table : Table) (name : String) : Prop :=
  ∃ column, table.column? name = some column ∧ column.nullable = false

/-- Other columns stay as they are when one is dropped. -/
private theorem column?_dropColumn? {column : Column}
    (h : table.dropColumn? name = some (column, table')) {other : String} (hother : other ≠ name) :
    table'.column? other = table.column? other := by
  obtain ⟨_, -, heq⟩ := Option.map_eq_some_iff.mp h
  cases heq
  simp only [column?]
  induction table.columns with
  | nil => rfl
  | cons head columns ih =>
    by_cases hname : head.name = name
    · have hne : (head.name == other) = false := by
        rw [beq_eq_false_iff_ne, hname]
        exact hother.symm
      rw [List.eraseP_cons_of_pos (by simpa using hname), List.find?_cons, hne]
    · rw [List.eraseP_cons_of_neg (by simpa using hname), List.find?_cons, List.find?_cons, ih]

/-- A column that changes keeps its place. -/
theorem column?_updateColumn? {change : Column → Column}
    (h : table.updateColumn? name change = some table')
    (hchange : ∀ column, (change column).name = column.name) (other : String) :
    table'.column? other =
      (table.column? other).map fun column => if other = name then change column else column := by
  rw [Table.updateColumn?] at h
  split at h
  · cases h
    simp only [column?]
    induction table.columns with
    | nil => rfl
    | cons head columns ih =>
      rw [changeFirst]
      split
      next hname =>
        rw [List.find?_cons, List.find?_cons, hchange]
        split
        next hfound => simp [← eq_of_beq hname, eq_of_beq hfound]
        next hne =>
          have hother : other ≠ name := by
            rintro rfl
            rw [hname] at hne
            cases hne
          simp [hother]
      next hname =>
        rw [List.find?_cons, List.find?_cons]
        split
        next hfound =>
          have hother : other ≠ name := by
            rintro rfl
            exact hname hfound
          simp [hother]
        next => exact ih
  · cases h

/-- A column that goes is not listed, one that comes to admit null is in no key, and the last column
stays. -/
structure Retains (listed inKey : String → Prop) (table table' : Table) : Prop where
  column : ∀ name, table.hasColumn name = true → table'.hasColumn name = true ∨ ¬ listed name
  refusal : ∀ name, table.RefusesNull name → table'.RefusesNull name ∨ ¬ inKey name
  nonempty : table.columns ≠ [] → table'.columns ≠ []

namespace Retains

theorem of_columns (h : table'.columns = table.columns) : Retains listed inKey table table' where
  column := fun name hname => .inl (by rwa [hasColumn, h])
  refusal := by
    rintro name ⟨column, hcolumn, hnull⟩
    exact .inl ⟨column, by rwa [column?, h], hnull⟩
  nonempty := fun hcolumns => by rwa [h]

private theorem trans (h : Retains listed inKey table table')
    (h' : Retains listed inKey table' table'') :
    Retains listed inKey table table'' where
  column := fun name hname => (h.column name hname).elim (h'.column name) .inr
  refusal := fun name hname => (h.refusal name hname).elim (h'.refusal name) .inr
  nonempty := fun hcolumns => h'.nonempty (h.nonempty hcolumns)

private theorem mono {listed' inKey' : String → Prop} (h : Retains listed inKey table table')
    (hlisted : ∀ name, listed' name → listed name) (hkey : ∀ name, inKey' name → inKey name) :
    Retains listed' inKey' table table' where
  column := fun name hname =>
    (h.column name hname).imp_right fun hfree hlist => hfree (hlisted _ hlist)
  refusal := fun name hname =>
    (h.refusal name hname).imp_right fun hfree hlist => hfree (hkey _ hlist)
  nonempty := h.nonempty

/-- A column at the end leaves the others as they are. -/
theorem addColumn? {column : Column} (h : table.addColumn? column = some table') :
    Retains listed inKey table table' := by
  rw [Table.addColumn?] at h
  split at h
  · cases h
  · cases h
    refine ⟨fun name hname => .inl ?_, ?_, fun _ => by simp⟩
    · simp only [hasColumn, List.any_append, Bool.or_eq_true] at hname ⊢
      exact .inl hname
    · rintro name ⟨found, hfound, hnull⟩
      refine .inl ⟨found, ?_, hnull⟩
      rw [column?] at hfound
      rw [column?, List.find?_append, hfound]
      rfl

/-- A column that is dropped is free, and not the last one. -/
theorem dropColumn? {column : Column} (h : table.dropColumn? name = some (column, table'))
    (hlength : table.columns.length ≠ 1) (hlisted : ¬ listed name) (hkey : ¬ inKey name) :
    Retains listed inKey table table' where
  column := by
    intro other hcolumn
    by_cases hother : other = name
    · exact .inr (hother ▸ hlisted)
    · rw [hasColumn_eq, column?_dropColumn? h hother, ← hasColumn_eq]
      exact .inl hcolumn
  refusal := by
    rintro other ⟨found, hfound, hnull⟩
    by_cases hother : other = name
    · exact .inr (hother ▸ hkey)
    · exact .inl ⟨found, by rwa [column?_dropColumn? h hother], hnull⟩
  nonempty := by
    intro hcolumns hempty
    obtain ⟨found, hfound, heq⟩ := Option.map_eq_some_iff.mp h
    cases heq
    have hmem := List.mem_of_find?_eq_some hfound
    have hlen := List.length_eraseP_of_mem (p := (·.name == name)) hmem
      (by simpa using List.find?_some hfound)
    have hpos := List.length_pos_iff.mpr hcolumns
    rw [List.length_eq_zero_iff.mpr hempty] at hlen
    omega

/-- A column that changes stays, and if it comes to admit null, it is in no key. -/
theorem updateColumn? {change : Column → Column}
    (h : table.updateColumn? name change = some table')
    (hchange : ∀ column, (change column).name = column.name)
    (hnull : (∀ column, column.nullable = false → (change column).nullable = false) ∨
      ¬ inKey name) : Retains listed inKey table table' := by
  have hcolumn := column?_updateColumn? h hchange
  refine ⟨fun other hother => .inl ?_, ?_, fun hcolumns hempty => ?_⟩
  · rw [hasColumn_eq, hcolumn, Option.isSome_map, ← hasColumn_eq]
    exact hother
  · rintro other ⟨found, hfound, hrefuses⟩
    rw [RefusesNull, hcolumn, hfound]
    by_cases hother : other = name
    · subst hother
      refine hnull.imp_left fun hnull => ⟨change found, ?_, hnull found hrefuses⟩
      rw [Option.map_some, if_pos rfl]
    · refine .inl ⟨found, ?_, hrefuses⟩
      rw [Option.map_some, if_neg hother]
  · obtain ⟨head, columns, hlist⟩ := List.exists_cons_of_ne_nil hcolumns
    have hhead := hcolumn head.name
    rw [column?, hempty, column?, hlist, List.find?_cons_of_pos (by simp)] at hhead
    cases hhead

end Retains

end Table

namespace Database

section Indexes

variable {db : Database} {c : SessionRef} {s : SchemaRef} {i t : ObjectRef}

/-- An index that is listed is on this table. -/
structure HasIndex (db : Database) (t i : ObjectRef) : Prop where
  listed : db.Listed i
  kind : (db.object i).kind = .index
  tableId : (db.indexOf i).tableId = (db.object t).id

/-- Some index of the table lists a column. -/
def Lists (db : Database) (t : ObjectRef) (name : String) : Prop :=
  ∃ i, db.HasIndex t i ∧ name ∈ (db.indexOf i).columns

/-- Some primary key of the table lists a column. -/
def KeyLists (db : Database) (t : ObjectRef) (name : String) : Prop :=
  ∃ i, db.HasIndex t i ∧ (db.indexOf i).kind = .primaryKey ∧ name ∈ (db.indexOf i).columns

/-- A listed index is on an object that was made. -/
theorem InForm.exists_table (h : db.InForm) (hi : db.Listed i)
    (hkind : (db.object i).kind = .index) :
    ∃ u : ObjectRef, u.slot < db.objectStore.next ∧ (db.object u).id = (db.indexOf i).tableId := by
  have hdb := h.wellFormed
  rcases hi with ⟨s, hs, kind, hi⟩ | ⟨c, hi | hi⟩
  · obtain rfl : kind = .index := (hdb.kind_of_mem hs hi).symm.trans hkind
    obtain ⟨u, hu, hid⟩ := h.attached.covered s hs i hi
    exact ⟨u, hdb.slots u (registered_of_mem hs hu), hid⟩
  · have htable := (hdb.tempTables c i hi).1
    rw [hkind] at htable
    cases htable
  · obtain ⟨u, hu, hid⟩ := h.attached.sessions.covered c i hi
    exact ⟨u, hdb.keptSlots c u (.inl hu), hid⟩

/-- The indexes of a visible table are all that are on it, wherever they are kept. -/
private theorem InForm.indexesOf_eq (h : db.InForm) (hs : s ∈ db.allSchemas)
    (ht : db.Visible c s t) :
    ∃ indexes, indexesOf (some c) t db = .ok indexes ∧ ∀ i, i ∈ indexes ↔ db.HasIndex t i := by
  have hdb := h.wellFormed
  have hslot := hdb.slot_of_readable hs (ht.imp_right fun ht => ⟨c, ht⟩)
  have hregistered : ∀ r i, r ∈ db.allSchemas → db.Holds r i → db.HasIndex t i →
      i ∈ (db.space r .index).values ∧ t ∈ (db.space r .tableOrView).values := by
    rintro r i hr ⟨kind, hi⟩ hon
    obtain rfl : kind = .index := (hdb.kind_of_mem hr hi).symm.trans hon.kind
    obtain ⟨u, hu, hid⟩ := h.attached.covered r hr i hi
    obtain rfl := hdb.distinct u t (hdb.slots u (registered_of_mem hr hu)) hslot
      (hid.trans hon.tableId)
    exact ⟨hi, hu⟩
  have hkept : ∀ d i, db.Keeps d i → db.HasIndex t i →
      i ∈ (db.session d).tempIndexes.values ∧ t ∈ (db.session d).tempTables.values := by
    rintro d i hi hon
    have hindex : i ∈ (db.session d).tempIndexes.values := hi.resolve_left fun htable => by
      have hkind := (hdb.tempTables d i htable).1
      rw [hon.kind] at hkind
      cases hkind
    obtain ⟨u, hu, hid⟩ := h.attached.sessions.covered d i hindex
    obtain rfl := hdb.distinct u t (hdb.keptSlots d u (.inl hu)) hslot (hid.trans hon.tableId)
    exact ⟨hindex, hu⟩
  cases hlocal : (db.tableOf t).isLocalTemporary with
  | false =>
    have hmem := hdb.mem_space_of_not_local ht hlocal
    refine ⟨_, (hdb.inOrder hs).indexesOf_eq hs (hdb.active s hs) hmem hlocal, fun i => ?_⟩
    rw [mem_indexesOn]
    refine ⟨fun hi => ⟨.inl (registered_of_mem hs hi.1), hdb.kind_of_mem hs hi.1, hi.2⟩,
      fun hon => ⟨?_, hon.tableId⟩⟩
    rcases hon.listed with ⟨r, hr, hi⟩ | ⟨d, hi⟩
    · obtain ⟨hi, htable⟩ := hregistered r i hr hi hon
      obtain rfl := hdb.schema_eq hr hs ⟨_, htable⟩ ⟨_, hmem⟩
      exact hi
    · exact absurd (registered_of_mem hs hmem) (hdb.apart d t (.inl (hkept d i hi hon).2))
  | true =>
    have hmem := hdb.mem_tempTables_of_local hs ht hlocal
    have hrun : indexesOf (some c) t db = .ok (c.tempIndexesOf (db.object t).id db) := by
      rw [indexesOf, read_bind_run]
      simp only [hlocal, if_true]
      rfl
    refine ⟨_, hrun, fun i => ?_⟩
    rw [SessionRef.tempIndexesOf, List.mem_filter, decide_eq_true_eq]
    refine ⟨fun hi => ⟨.inr ⟨c, .inr hi.1⟩, h.attached.sessions.indexKinds c i hi.1, hi.2⟩,
      fun hon => ⟨?_, hon.tableId⟩⟩
    rcases hon.listed with ⟨r, hr, hi⟩ | ⟨d, hi⟩
    · exact absurd (registered_of_mem hr (hregistered r i hr hi hon).2) (hdb.apart c t (.inl hmem))
    · obtain ⟨hi, htable⟩ := hkept d i hi hon
      obtain rfl := h.attached.sessions.keeper d c t (.inl htable) (.inl hmem)
      exact hi

end Indexes

section Keeping

variable {listed inKey : ObjectRef → String → Prop} {made : Index → Prop} {db db' db'' : Database}

/-- Objects keep their kinds and indexes keep everything; the columns of tables that are listed or
in a key are retained. Every new index is one of those that may be made. -/
structure KeepsColumns (listed inKey : ObjectRef → String → Prop) (made : Index → Prop)
    (db db' : Database) : Prop where
  count : db.objectStore.next ≤ db'.objectStore.next
  kind : ∀ o : ObjectRef, o.slot < db.objectStore.next → (db'.object o).kind = (db.object o).kind
  index : ∀ o : ObjectRef, o.slot < db.objectStore.next → db'.indexOf o = db.indexOf o
  table : ∀ o : ObjectRef, o.slot < db.objectStore.next →
    Table.Retains (listed o) (inKey o) (db.tableOf o) (db'.tableOf o)
  new : ∀ o : ObjectRef, db.objectStore.next ≤ o.slot → o.slot < db'.objectStore.next →
    (db'.object o).kind = .index → made (db'.indexOf o)

namespace KeepsColumns

/-- All bodies stay. -/
private theorem of_bodies (hcount : db'.objectStore.next = db.objectStore.next)
    (hbody : ∀ o, (db'.object o).body = (db.object o).body) :
    KeepsColumns listed inKey made db db' where
  count := Nat.le_of_eq hcount.symm
  kind := fun o _ => by rw [Object.kind, hbody, Object.kind]
  index := fun o _ => by rw [indexOf, Object.asIndex, hbody, indexOf, Object.asIndex]
  table := fun o _ => .of_columns (by rw [tableOf, Object.asTable, hbody, tableOf, Object.asTable])
  new := fun o hold hnew _ => absurd hnew (by omega)

theorem of_objectStore (h : db'.objectStore = db.objectStore) :
    KeepsColumns listed inKey made db db' :=
  .of_bodies (by rw [h]) fun o => by rw [object, h, object]

theorem trans (h : KeepsColumns listed inKey made db db')
    (h' : KeepsColumns listed inKey made db' db'') : KeepsColumns listed inKey made db db'' where
  count := Nat.le_trans h.count h'.count
  kind := fun o ho => (h'.kind o (Nat.lt_of_lt_of_le ho h.count)).trans (h.kind o ho)
  index := fun o ho => (h'.index o (Nat.lt_of_lt_of_le ho h.count)).trans (h.index o ho)
  table := fun o ho => (h.table o ho).trans (h'.table o (Nat.lt_of_lt_of_le ho h.count))
  new := by
    intro o hold hnew hkind
    by_cases hmid : o.slot < db'.objectStore.next
    · rw [h'.index o hmid]
      exact h.new o hold hmid ((h'.kind o hmid).symm.trans hkind)
    · exact h'.new o (Nat.le_of_not_lt hmid) hnew hkind

instance : IsPreorder Database (KeepsColumns listed inKey made) where
  refl _ := .of_objectStore rfl
  trans _ _ _ := trans

theorem mono {listed' inKey' : ObjectRef → String → Prop} {made' : Index → Prop}
    (h : KeepsColumns listed inKey made db db') (hlisted : ∀ o name, listed' o name → listed o name)
    (hkey : ∀ o name, inKey' o name → inKey o name) (hmade : ∀ index, made index → made' index) :
    KeepsColumns listed' inKey' made' db db' where
  count := h.count
  kind := h.kind
  index := h.index
  table := fun o ho => (h.table o ho).mono (hlisted o) (hkey o)
  new := fun o hold hnew hkind => hmade _ (h.new o hold hnew hkind)

theorem withObject {s : SchemaRef} {name : String} {body : ObjectBody}
    (hbody : ∀ index, body = .index index → made index) :
    KeepsColumns listed inKey made db (db.withObject s name body) where
  count := Nat.le_succ _
  kind := fun o ho => by rw [object_withObject_of_lt s name body ho]
  index := fun o ho => by rw [indexOf, object_withObject_of_lt s name body ho, indexOf]
  table := fun o ho =>
    .of_columns (by rw [tableOf, object_withObject_of_lt s name body ho, tableOf])
  new := by
    intro o hold hnew hkind
    obtain rfl : o = db.nextObject := by
      by_contra hne
      exact absurd (lt_of_lt_withObject hnew hne) (Nat.not_lt.mpr hold)
    rw [object_nextObject] at hkind
    rw [indexOf, object_nextObject]
    cases body with
    | index index => exact hbody index rfl
    | _ => cases hkind

/-- One table changes. -/
private theorem setTable {t : ObjectRef} {table : Table}
    (htable : Table.Retains (listed t) (inKey t) (db.tableOf t) table) :
    KeepsColumns listed inKey made db (t.setTable table db) := by
  have hobject : ∀ o, (t.setTable table db).object o =
      if o = t then (db.object t).mapTable fun _ => table else db.object o := fun o =>
    object_modifyObject ..
  refine ⟨Nat.le_refl _, fun o _ => ?_, fun o _ => ?_, fun o _ => ?_,
    fun o hold hnew _ => absurd hnew (Nat.not_lt.mpr hold)⟩
  · rw [hobject]
    split
    next heq => rw [heq, Object.kind_mapTable]
    next => rfl
  · rw [indexOf, hobject, indexOf]
    split
    next heq => rw [heq, Object.asIndex_mapTable]
    next => rfl
  · by_cases heq : o = t
    · subst heq
      rcases Execution.tableOf_setTable o table db with hnew | hnew
      · rw [hnew]
        exact htable
      · rw [hnew]
        exact .of_columns rfl
    · rw [Execution.tableOf_setTable_of_ne heq]
      exact .of_columns rfl

private theorem allowsCreation :
    AllowsCreation (fun body => ∀ index, body = .index index → made index)
    (KeepsColumns listed inKey made) where
  withObject _ _ _ _ hbody := .withObject hbody
  entered _ _ _ _ := .of_objectStore rfl
  modifySession _ _ _ := .of_objectStore rfl

private theorem allowsRemoval : AllowsRemoval (KeepsColumns listed inKey made) where
  struckOut _ _ _ _ := .of_objectStore rfl
  invalidate o db := by
    refine .of_bodies rfl fun other => ?_
    rw [object_modifyObject]
    split
    next heq => rw [heq, Object.invalidate]
    next => rfl
  modifySession _ _ _ := .of_objectStore rfl
  schemaInvalidated _ _ := .of_objectStore rfl
  schemaErased _ _ := .of_objectStore rfl

end KeepsColumns

end Keeping

end Database

namespace Execution

variable {listed inKey : ObjectRef → String → Prop} {made : Index → Prop} {c : SessionRef}
  {s : SchemaRef} {t : ObjectRef}

/-- Handing out a name and giving it back has no part in what happens to columns. -/
private theorem withIndexName_keepsColumns {α : Type} {stem : String} {act : String → ExecM α}
    (hact : ∀ name, Leaves (KeepsColumns listed inKey made) (act name)) :
    Leaves (KeepsColumns listed inKey made) (withIndexName c s t stem act) := by
  intro db
  rcases stateAfter_withIndexName act db with hsame | ⟨live, r, mid, hgranted, hafter⟩
  · rw [hsame]
    exact .of_objectStore rfl
  · rw [hafter]
    have hmid : KeepsColumns listed inKey made db mid := by
      rw [hgranted.result]
      exact .of_objectStore rfl
    exact (hmid.trans (hact r.name mid)).trans (.of_objectStore rfl)

section Alter

variable {db : Database} {name : String} {change : Column → Column}

theorem updateColumn_keepsColumns (hchange : ∀ column, (change column).name = column.name)
    (hnull : (∀ column, column.nullable = false → (change column).nullable = false) ∨
      ¬ inKey t name) :
    Settles (t.updateColumn name change) db fun _ db' => KeepsColumns listed inKey made db db' := by
  apply Settles.get_bind
  cases htable : (db.tableOf t).updateColumn? name change with
  | none => exact .of_error rfl trivial
  | some table => exact KeepsColumns.setTable (.updateColumn? htable hchange hnull)

private theorem alterColumnBy_keepsColumns (hchange : ∀ column, (change column).name = column.name)
    (hnull : (∀ column, column.nullable = false → (change column).nullable = false) ∨
      ¬ inKey t name) :
    Settles (alterColumnBy t name change) db fun _ db' => KeepsColumns listed inKey made db db' :=
  (updateColumn_keepsColumns hchange hnull).lift.bind_change fun _ _ hkeeps => .pure hkeeps

private theorem addColumn_keepsColumns (column : Column) :
    Settles (addColumn t column) db fun _ db' => KeepsColumns listed inKey made db db' := by
  refine (validateName_settles _ column.name db).bind_look fun _ _ => ?_
  have hadd : Settles (t.addColumn column) db fun _ db' =>
      KeepsColumns listed inKey made db db' := by
    apply Settles.get_bind
    cases htable : (db.tableOf t).addColumn? column with
    | none => exact .of_error rfl trivial
    | some table => exact KeepsColumns.setTable (.addColumn? htable)
  exact hadd.lift.bind_change fun _ _ hkeeps => .pure hkeeps

private theorem changeColumnType_keepsColumns (name dataType : String) :
    Settles (changeColumnType t name dataType) db fun _ db' =>
      KeepsColumns listed inKey made db db' := by
  rw [changeColumnType]
  split
  · exact reject_settles
  · exact alterColumnBy_keepsColumns (fun _ => rfl) (.inl fun _ hnull => hnull)

/-- The indexes of a visible table are all found. -/
theorem indexesOf_settles_all (h : db.InForm) (hs : s ∈ db.allSchemas) (ht : db.Visible c s t) :
    Settles (liftM (indexesOf (some c) t) : ExecM (List ObjectRef)) db fun indexes db' =>
      db' = db ∧ ∀ i, i ∈ indexes ↔ db.HasIndex t i := by
  obtain ⟨indexes, hrun, hall⟩ := h.indexesOf_eq hs ht
  exact (Finds.of_ok hrun hall).settles

private theorem primaryKeyColumns_settles_all (h : db.InForm) (hs : s ∈ db.allSchemas)
    (ht : db.Visible c s t) : Settles (primaryKeyColumns c t) db fun columns db' =>
      db' = db ∧ ∀ name, name ∈ columns ↔ db.KeyLists t name := by
  refine (indexesOf_settles_all h hs ht).bind_look fun indexes hall => .get_bind (.pure ⟨rfl, ?_⟩)
  intro name
  simp only [List.mem_flatMap, List.mem_filter, List.mem_map, hall, decide_eq_true_eq]
  constructor
  · rintro ⟨_, ⟨⟨i, hi, rfl⟩, hkind⟩, hname⟩
    exact ⟨i, hi, hkind, hname⟩
  · rintro ⟨i, hi, hkind, hname⟩
    exact ⟨_, ⟨⟨i, hi, rfl⟩, hkind⟩, hname⟩

/-- A column that an index lists is not dropped, nor is the last one. -/
private theorem dropColumn_keepsColumns (h : db.InForm) (hs : s ∈ db.allSchemas)
    (ht : db.Visible c s t) (name : String) : Settles (dropColumn c t name) db fun _ db' =>
      KeepsColumns db.Lists db.KeyLists made db db' := by
  apply Settles.get_bind
  dsimp only
  split
  · exact refuse_settles trivial
  · split
    · exact reject_settles
    next hlength =>
      refine (indexesOf_settles_all h hs ht).bind_look fun indexes hall => ?_
      split
      · exact refuse_settles trivial
      next hfree =>
        have hunlisted : ¬ db.Lists t name := by
          rintro ⟨i, hi, hname⟩
          have hnone := List.find?_eq_none.mp hfree i ((hall i).mpr hi)
          exact hnone (List.contains_iff_mem.mpr hname)
        have hkeyless : ¬ db.KeyLists t name := by
          rintro ⟨i, hi, -, hname⟩
          exact hunlisted ⟨i, hi, hname⟩
        have hdrop : Settles (t.dropColumn name) db fun _ db' =>
            KeepsColumns db.Lists db.KeyLists made db db' := by
          apply Settles.get_bind
          cases htable : (db.tableOf t).dropColumn? name with
          | none => exact .of_error rfl trivial
          | some dropped =>
            exact KeepsColumns.setTable (.dropColumn? htable hlength hunlisted hkeyless)
        exact hdrop.lift.bind_change fun _ _ hkeeps => .pure hkeeps

/-- A column of the primary key does not come to admit null. -/
private theorem setColumnNullable_keepsColumns (h : db.InForm) (hs : s ∈ db.allSchemas)
    (ht : db.Visible c s t) (name : String) (nullable : Bool) :
    Settles (setColumnNullable c t name nullable) db fun _ db' =>
      KeepsColumns db.Lists db.KeyLists made db db' := by
  cases nullable with
  | true =>
    refine (primaryKeyColumns_settles_all h hs ht).bind_look fun columns hall => ?_
    split
    · exact reject_settles
    next hfree =>
      refine alterColumnBy_keepsColumns (fun _ => rfl) (.inr fun hkey => hfree ?_)
      exact List.contains_iff_mem.mpr ((hall name).mpr hkey)
  | false => exact alterColumnBy_keepsColumns (fun _ => rfl) (.inl fun _ _ => rfl)

private theorem alterColumn_keepsColumns (h : db.InForm) (c : SessionRef) (change : ColumnChange) :
    Settles (alterColumn c change) db fun _ db' =>
      KeepsColumns db.Lists db.KeyLists made db db' := by
  refine (getSchema_settles db change.schema).bind_look fun s hname => ?_
  have hs := mem_allSchemas_of_find hname
  refine (h.wellFormed.getTable_finds hs c change.table).settles.bind_look fun t ht => ?_
  refine (rejectView_settles t db).bind_look fun _ _ => ?_
  cases change.action with
  | add column => exact addColumn_keepsColumns column
  | drop name => exact dropColumn_keepsColumns h hs ht name
  | changeType name dataType => exact changeColumnType_keepsColumns name dataType
  | setNullable name nullable => exact setColumnNullable_keepsColumns h hs ht name nullable
  | setDefault name defaultExpression =>
    exact alterColumnBy_keepsColumns (fun _ => rfl) (.inl fun _ hnull => hnull)

end Alter

section Keys

variable {db : Database} {definition : ConstraintDefinition}

/-- An index that lists these columns, of this kind. -/
def Makes (columns : List String) (kind : IndexKind) (index : Index) : Prop :=
  index.columns = columns ∧ index.kind = kind

private theorem addTableIndex_keepsColumns (c : SessionRef) (s : SchemaRef) (t : ObjectRef)
    (name : String) (columns : List String) (kind : IndexKind) :
    Leaves (KeepsColumns listed inKey (Makes columns kind))
      (addTableIndex c s t name columns kind) := by
  refine KeepsColumns.allowsCreation.addTableIndex c s t name ?_
  intro tableId tableName index hbody
  cases hbody
  exact ⟨rfl, rfl⟩

/-- Columns that come to refuse null do not go. -/
theorem forbidNull_keepsColumns (t : ObjectRef) (columns : List String) :
    Leaves (KeepsColumns listed inKey made) (forbidNull t columns) := by
  refine .forM (fun name => Leaves.lift (.get_bind fun db => ?_)) columns
  cases htable : (db.tableOf t).updateColumn? name Column.notNull with
  | none => exact .of_objectStore rfl
  | some table =>
    exact KeepsColumns.setTable (.updateColumn? htable (fun _ => rfl) (.inl fun _ _ => rfl))

private theorem addKeyIndex_keepsColumns (c : SessionRef) (s : SchemaRef) (t : ObjectRef)
    (definition : ConstraintDefinition) (kind : IndexKind) :
    Leaves (KeepsColumns listed inKey (Makes definition.columns kind))
      (addKeyIndex c s t definition kind) := by
  refine withIndexName_keepsColumns fun name => ?_
  refine (addTableIndex_keepsColumns c s t name definition.columns kind).bind fun _ => ?_
  split
  · exact (forbidNull_keepsColumns t _).bind fun _ => .get_bind (refl_of _)
  · exact .get_bind (refl_of _)

private theorem createIndex_keepsColumns (c : SessionRef) (definition : IndexDefinition) :
    Leaves (KeepsColumns listed inKey (Makes definition.columns definition.kind))
      (createIndex c definition) := by
  have hnamed : ∀ s t, ∀ name, Leaves
      (KeepsColumns listed inKey (Makes definition.columns definition.kind))
      (createNamedIndex c s t definition name) := fun s t name =>
    (addTableIndex_keepsColumns c s t name _ _).bind fun _ => .pure _
  refine KeepsColumns.allowsCreation.createIndex c definition (fun _ _ index hbody => ?_)
    fun s t => withIndexName_keepsColumns (hnamed s t)
  cases hbody
  exact ⟨rfl, rfl⟩

private theorem addCheck_keepsColumns (t : ObjectRef) (expression : String) :
    Leaves (KeepsColumns listed inKey made) (addCheck t expression) := by
  rw [addCheck]
  split
  · exact .throw _
  · refine (Leaves.modify fun db => ?_).bind fun _ => .get_bind (refl_of _)
    exact KeepsColumns.setTable (.of_columns rfl)

end Keys

end Execution

namespace Statement

/-- The indexes that a statement may make. -/
def MayMake : Statement → Index → Prop
  | createIndex definition => fun index =>
    index.columns = definition.columns ∧ index.kind = definition.kind
  | addConstraint definition => fun index =>
    index.columns = definition.columns ∧ definition.kind.indexKind? = some index.kind
  | _ => fun _ => False

/-- Statements keep the columns that indexes rely on, and make no indexes but those asked for. -/
theorem keepsColumns {db : Database} (h : db.InForm) (c : SessionRef) (statement : Statement) :
    KeepsColumns db.Lists db.KeyLists statement.MayMake db
      (stateAfter (statement.execute c) db) := by
  have hcreates : ∀ {made}, AllowsCreation _ (KeepsColumns db.Lists db.KeyLists made) :=
    KeepsColumns.allowsCreation
  have hremoves : ∀ {made}, AllowsRemoval (KeepsColumns db.Lists db.KeyLists made) :=
    KeepsColumns.allowsRemoval
  cases statement with
  | createSchema name ifNotExists =>
    rw [execute]
    rcases stateAfter_createSchemaStatement c name ifNotExists db with hafter | hafter
    · rw [hafter]
      exact .of_objectStore rfl
    · rw [hafter]
      exact .of_objectStore rfl
  | dropSchema name ifExists => exact hremoves.dropSchemaStatement c name ifExists db
  | createTable definition =>
    exact hcreates.createTable c definition (fun _ _ hbody => by cases hbody) db
  | dropTable schema name ifExists => exact hremoves.dropTable c schema name ifExists db
  | createIndex definition => exact Execution.createIndex_keepsColumns c definition db
  | dropIndex schema name ifExists => exact hremoves.dropIndex c schema name ifExists db
  | createSequence schema name start increment =>
    exact hcreates.createSequence schema name start increment (fun _ hbody => by cases hbody) db
  | createConstant schema name value =>
    exact hcreates.createObject schema .constant name (fun _ hbody => by cases hbody) _ db
  | createFunctionAlias schema name target deterministic =>
    exact hcreates.createFunctionAlias schema name target deterministic
      (fun _ hbody => by cases hbody) db
  | rename schema kind oldName newName =>
    rw [execute]
    rcases stateAfter_rename schema kind oldName newName db with hafter | ⟨s, o, -, -, hafter⟩
    · rw [hafter]
      exact .of_objectStore rfl
    · rw [hafter]
      refine .of_bodies rfl fun other => ?_
      rw [object_renamed]
      split
      next heq => rw [heq, Object.rename]
      next => rfl
  | alterColumn change =>
    exact (Execution.alterColumn_keepsColumns h c change).stateAfter (.of_objectStore rfl)
  | addConstraint definition =>
    refine Leaves.addConstraint c definition (fun t expression _ =>
      Execution.addCheck_keepsColumns t expression) (fun s t kind hkind db' => ?_) db
    refine (Execution.addKeyIndex_keepsColumns c s t definition kind db').mono
      (fun _ _ => id) (fun _ _ => id) ?_
    rintro index ⟨hcolumns, rfl⟩
    exact ⟨hcolumns, hkind⟩
  | truncateTable schema name => exact .of_objectStore rfl
  | dml kind => exact .of_objectStore rfl
  | transaction kind => exact .of_objectStore rfl

end Statement

section Runs

variable {allowed : Action → Prop} {made : Index → Prop} {db db' : Database}

/-- Only statements make indexes. -/
def Action.MayMake : Action → Index → Prop
  | execute _ statement => statement.MayMake
  | _ => fun _ => False

theorem Action.keepsColumns (h : db.InForm) (action : Action) :
    KeepsColumns db.Lists db.KeyLists action.MayMake db (action.run db) := by
  cases action with
  | execute c statement => exact statement.keepsColumns h c
  | openSession user => exact .of_objectStore rfl
  | closeSession c => exact KeepsColumns.allowsRemoval.close c db
  | removeSession c =>
    rw [run, Database.removeSession]
    split
    · have hforgotten : KeepsColumns db.Lists db.KeyLists (fun _ => False) db
          { db with openSessions := db.openSessions.erase c } := .of_objectStore rfl
      exact hforgotten.trans (KeepsColumns.allowsRemoval.close c _)
    · exact .of_objectStore rfl
  | createUser name admin =>
    obtain ⟨users, nextId, -, hafter⟩ := stateAfter_createUser db name admin
    rw [run, hafter]
    exact .of_objectStore rfl
  | dropUser name =>
    obtain ⟨users, hafter⟩ := stateAfter_dropUser db name
    rw [run, hafter]
    exact .of_objectStore rfl

/-- Whatever comes next keeps the columns that indexes rely on. -/
theorem Advances.keepsColumns (h : Advances allowed db db') (hdb : db.InForm)
    (hmade : ∀ action index, allowed action → action.MayMake index → made index) :
    KeepsColumns db.Lists db.KeyLists made db db' := by
  cases h with
  | act action hallowed _ =>
    exact (action.keepsColumns hdb).mono (fun _ _ => id) (fun _ _ => id) fun index =>
      hmade action index hallowed
  | session user rule => exact .of_objectStore rfl

end Runs

end SchemaCatalog
