import SchemaCatalog.Proofs.ColumnChanges
import SchemaCatalog.Proofs.Departures
/-!
# Steps of a statement

What a statement does, it does in steps of a few kinds, and what comes of a failed one is what its
steps came to. A step says whatever later proofs ask about it: a new table has the columns that the
statement lists, a new index is in the place of its table and on columns that are asked for there,
and a column goes only when no index on the table lists it.
-/
namespace SchemaCatalog

open Database Relation

namespace Table

variable {listed : String → Prop} {table table' : Table}

/-- One change to the columns or the checks of a table, where a column that is listed stays. -/
inductive Alters (listed : String → Prop) (table : Table) : Table → Prop
  | added {column : Column} {table' : Table} (h : table.addColumn? column = some table') :
    Alters listed table table'
  | dropped {name : String} {column : Column} {table' : Table}
    (h : table.dropColumn? name = some (column, table')) (hlength : table.columns.length ≠ 1)
    (hfree : ¬ listed name) : Alters listed table table'
  | updated {name : String} {change : Column → Column} {table' : Table}
    (h : table.updateColumn? name change = some table')
    (hchange : ∀ column, (change column).name = column.name) : Alters listed table table'
  | checked (expression : String) : Alters listed table (table.addCheck expression)

namespace Alters

theorem retains (h : Alters listed table table') :
    Retains listed (fun _ => False) table table' := by
  cases h with
  | added h => exact .addColumn? h
  | dropped h hlength hfree => exact .dropColumn? h hlength hfree id
  | updated h hchange => exact .updateColumn? h hchange (.inr id)
  | checked => exact .of_columns rfl

/-- Who sees the table and what it reads is settled when it is made. -/
private theorem rest (h : Alters listed table table') :
    table'.scope = table.scope ∧ table'.references = table.references := by
  cases h with
  | added h =>
    rw [addColumn?] at h
    split at h
    · cases h
    · cases h
      exact ⟨rfl, rfl⟩
  | dropped h =>
    obtain ⟨_, -, heq⟩ := Option.map_eq_some_iff.mp h
    cases heq
    exact ⟨rfl, rfl⟩
  | updated h =>
    rw [updateColumn?] at h
    split at h
    · cases h
      exact ⟨rfl, rfl⟩
    · cases h
  | checked => exact ⟨rfl, rfl⟩

end Alters

end Table

section Requests

variable (c : SessionRef) (start db : Database)

/-- The table that a session finds under a name of a schema. -/
def Database.FindsTable (schemaName tableName : String) (t : ObjectRef) : Prop :=
  ∃ s, getSchema schemaName db = .ok s ∧ s.getTable (some c) tableName db = .ok t

/-- The statement asks for the next table to be made. -/
def Statement.Defines (statement : Statement) (table : Table) : Prop :=
  ∃ definition, statement = .createTable definition ∧ table.columns = definition.columns ∧
    table.scope = definition.scope ∧ db.nextObject = start.nextObject

/-- The statement asks for the next index to be made on these columns of a table. A key is only
asked for on columns that are there. -/
def Statement.Indexes (t : ObjectRef) (columns : List String) : Statement → Prop
  | createIndex definition => start.FindsTable c definition.schema definition.table t ∧
    columns = definition.columns ∧ db.nextObject = start.nextObject ∧ db.tableOf t = start.tableOf t
  | addConstraint _ => columns ≠ [] ∧ ∀ name ∈ columns, (db.tableOf t).hasColumn name = true
  | _ => False

/-- The statement asks for a schema, which the user of the session is to own. -/
def Statement.Founds (statement : Statement) (name : String) (owner : Principal) : Prop :=
  (∃ ifNotExists, statement = .createSchema name ifNotExists) ∧
    owner = (start.session c).user ∧ db.users = start.users

/-- What may enter a schema: an index goes where its table is. -/
def Statement.MayEnter (statement : Statement) (s : SchemaRef) : ObjectBody → Prop
  | .table table => statement.Defines start db table ∧ table.isLocalTemporary = false
  | .index index => ∃ t ∈ (db.space s .tableOrView).values, index.tableId = (db.object t).id ∧
    statement.Indexes c start db t index.columns
  | _ => True

end Requests

section Step

variable {c : SessionRef} {statement : Statement} {start db db' : Database} {s : SchemaRef}
  {o t i : ObjectRef}

/-- Some index on the table lists the column. -/
def Database.ListedOn (db : Database) (t : ObjectRef) (name : String) : Prop :=
  ∃ i, db.Carries t i ∧ name ∈ (db.indexOf i).columns

/-- What the object is stays, save the columns and the checks of a table. -/
structure Database.Remains (db db' : Database) (o : ObjectRef) : Prop where
  kind : (db'.object o).kind = (db.object o).kind
  index : db'.indexOf o = db.indexOf o
  table : db'.tableOf o = db.tableOf o ∨ (db.tableOf o).Alters (db.ListedOn o) (db'.tableOf o)

/-- Only the next object has come to a place, and it has come to the session only as a local
temporary table that is asked for, or on a table of the session. -/
structure Statement.Admits (c : SessionRef) (statement : Statement) (start db db' : Database) :
    Prop where
  holds : ∀ s o, db'.Holds s o → db.Holds s o ∨ o = db.nextObject
  keeps : ∀ d o, db'.Keeps d o → db.Keeps d o ∨ o = db.nextObject ∧ d = c ∧
    ((∃ t, t ∈ (db.session c).tempTables.values) ∨
      ∃ table, statement.Defines start db table ∧ table.isLocalTemporary = true)

/-- The next object has been asked for, and if it is an index, it is with its table. -/
structure Statement.Makes (c : SessionRef) (statement : Statement) (start db db' : Database) :
    Prop where
  table : (db'.object db.nextObject).kind = .tableOrView →
    statement.Defines start db (db'.tableOf db.nextObject)
  index : (db'.object db.nextObject).kind = .index → ∃ t, db'.Carries t db.nextObject ∧
    db'.tableOf t = db.tableOf t ∧
    statement.Indexes c start db t (db'.indexOf db.nextObject).columns

namespace Statement.Makes

private theorem of_table {table : Table} (hbody : (db'.object db.nextObject).body = .table table)
    (hdefines : statement.Defines start db table) : statement.Makes c start db db' where
  table := by
    intro _
    rw [tableOf, Object.asTable, hbody]
    exact hdefines
  index := by
    intro hkind
    rw [Object.kind, hbody] at hkind
    cases hkind

private theorem of_index {index : Index} (hbody : (db'.object db.nextObject).body = .index index)
    (hon : db'.Carries t db.nextObject) (htable : db'.tableOf t = db.tableOf t)
    (hindexes : statement.Indexes c start db t index.columns) :
    statement.Makes c start db db' where
  table := by
    intro hkind
    rw [Object.kind, hbody] at hkind
    cases hkind
  index := by
    intro _
    refine ⟨t, hon, htable, ?_⟩
    rw [indexOf, Object.asIndex, hbody]
    exact hindexes

private theorem of_other {body : ObjectBody} (hbody : (db'.object db.nextObject).body = body)
    (htable : body.kind ≠ .tableOrView) (hindex : body.kind ≠ .index) :
    statement.Makes c start db db' := by
  rw [← hbody] at htable hindex
  exact ⟨fun hkind => absurd hkind htable, fun hkind => absurd hkind hindex⟩

end Statement.Makes

private theorem Database.Lessens.admits (h : Lessens db db') : statement.Admits c start db db' :=
  ⟨fun _ _ ho => .inl (h.holds ho), fun _ _ ho => .inl (h.keeps ho)⟩

/-- One step of a statement that a session has started in this state. -/
inductive Statement.Step (c : SessionRef) (statement : Statement) (start db : Database) :
    Database → Prop
  | reserved (s : SchemaRef) (reservations : ReservationSet) :
    statement.Step c start db (withReservations s reservations db)
  | schemaCreated (name : String) (owner : Principal)
    (hfounds : statement.Founds c start db name owner) :
    statement.Step c start db (withSchema name (some owner) false db)
  | schemaGone {s : SchemaRef} {name : String} (hname : db.findSchema name = some s) :
    statement.Step c start db (schemaGone s name db)
  | departed {db' : Database} (h : Departs c db db') : statement.Step c start db db'
  | objectMade (s : SchemaRef) (name : String) (body : ObjectBody) :
    statement.Step c start db (db.withObject s name body)
  | entered {s : SchemaRef} {name : String} {body : ObjectBody}
    (hbody : statement.MayEnter c start db s body)
    (hfree : (db.space s body.kind).get? name = none) :
    statement.Step c start db (entered s db.nextObject (db.withObject s name body))
  | tableKept {s : SchemaRef} {name : String} {table : Table}
    (hdefines : statement.Defines start db table) (hlocal : table.isLocalTemporary = true)
    (hfree : (db.session c).tempTables.get? name = none) :
    statement.Step c start db (tableKept c db.nextObject (db.withObject s name (.table table)))
  | indexKept {s : SchemaRef} {name : String} {t : ObjectRef} {index : Index}
    (ht : t ∈ (db.session c).tempTables.values) (hid : index.tableId = (db.object t).id)
    (hindexes : statement.Indexes c start db t index.columns)
    (hfree : (db.session c).tempIndexes.get? name = none) :
    statement.Step c start db (indexKept c db.nextObject (db.withObject s name (.index index)))
  | renamed {s : SchemaRef} {o : ObjectRef} {newName : String} (ho : db.Holds s o)
    (hfree : (db.space s (db.object o).kind).get? newName = none) :
    statement.Step c start db (renamed s o newName db)
  | tableAltered {t : ObjectRef} {table : Table}
    (h : (db.tableOf t).Alters (db.ListedOn t) table) :
    statement.Step c start db (t.setTable table db)

namespace Statement.Step

theorem placed (h : statement.Step c start db db') (hdb : db.Placed) : db'.Placed := by
  cases h with
  | reserved s reservations => exact hdb.samePlaces (samePlaces_withReservations s reservations db)
  | schemaCreated name owner => exact hdb.withSchema name (some owner) false
  | @schemaGone s name _ => exact hdb.samePlaces (samePlaces_schemaGone s name db)
  | departed h => exact h.placed hdb
  | objectMade s name body => exact hdb.withObject s name body
  | @entered s name body hbody hfree =>
    apply (hdb.withObject s name body).entered (hdb.unplaced_nextObject s name body)
    · rw [object_nextObject]
    · rw [tableOf, object_nextObject]
      cases body with
      | table table => exact hbody.2
      | _ => rfl
  | @tableKept s name table _ hlocal hfree =>
    apply (hdb.withObject s name _).tableKept c (hdb.unplaced_nextObject s name _)
    · rw [object_nextObject]
      rfl
    · rw [tableOf, object_nextObject]
      exact hlocal
    · rw [nameOf, object_nextObject]
      exact hfree
  | @indexKept s name t index ht hid _ hfree =>
    apply (hdb.withObject s name _).indexKept c (hdb.unplaced_nextObject s name _) _ ht
    · have hslot := hdb.keptSlots c t (.inl ht)
      rw [indexOf, object_nextObject, object_withObject_of_lt s name _ hslot]
      exact hid.symm
    · rw [object_nextObject]
      rfl
  | renamed ho hfree => exact hdb.renamed ho hfree
  | tableAltered h => exact hdb.samePlaces (samePlaces_setTable _ db h.rest.1 h.rest.2)

/-- An index that stays is left with its table. -/
theorem carries (h : statement.Step c start db db') (hdb : db.Placed) (hon : db.Carries t i)
    (hi : db'.Present i) : db'.Carries t i := by
  cases h with
  | reserved s reservations => exact hon.samePlaces (samePlaces_withReservations s reservations db)
  | schemaCreated => exact hdb.carries_withSchema hon hi
  | @schemaGone s name _ => exact hon.samePlaces (samePlaces_schemaGone s name db)
  | departed h => exact h.carries hdb hon hi
  | objectMade => exact hdb.carries_withObject hon
  | entered hbody hfree =>
    apply (hdb.carries_withObject hon).entered
    rw [nameOf, object_nextObject]
    exact hfree
  | tableKept hdefines hlocal hfree =>
    apply (hdb.carries_withObject hon).tableKept
    rw [nameOf, object_nextObject]
    exact hfree
  | indexKept ht hid hindexes hfree =>
    apply (hdb.carries_withObject hon).indexKept
    rw [nameOf, object_nextObject]
    exact hfree
  | renamed ho hfree => exact hdb.carries_renamed ho hfree hon
  | tableAltered h => exact hon.samePlaces (samePlaces_setTable _ db h.rest.1 h.rest.2)

/-- What an object is stays for good, save the columns and the checks of a table. -/
theorem remains (h : statement.Step c start db db') (hdb : db.Placed)
    (hslot : o.slot < db.objectStore.next) : db.Remains db' o := by
  have hmade : ∀ {s name body} {db' : Database},
      db'.object o = (db.withObject s name body).object o → db.Remains db' o := by
    intro s name body db' hobject
    rw [object_withObject_of_lt s name body hslot] at hobject
    exact ⟨congrArg Object.kind hobject, congrArg Object.asIndex hobject,
      .inl (congrArg Object.asTable hobject)⟩
  cases h with
  | reserved => exact ⟨rfl, rfl, .inl rfl⟩
  | schemaCreated => exact ⟨rfl, rfl, .inl rfl⟩
  | schemaGone => exact ⟨rfl, rfl, .inl rfl⟩
  | departed h =>
    have hsame := (h.lessens hdb).objects o
    exact ⟨hsame.kind, hsame.index, .inl (h.tables_eq o)⟩
  | objectMade => exact hmade rfl
  | entered => exact hmade rfl
  | tableKept => exact hmade rfl
  | indexKept => exact hmade rfl
  | renamed =>
    exact ⟨kind_renamed, field_modifyObject Object.asIndex o rfl, .inl tableOf_renamed⟩
  | @tableAltered t table h =>
    have hsame := (samePlaces_setTable t db h.rest.1 h.rest.2).objects o
    refine ⟨hsame.kind, hsame.index, ?_⟩
    by_cases heq : o = t
    · rw [heq]
      rcases Execution.tableOf_setTable t table db with hnew | hold
      · rw [hnew]
        exact .inr h
      · exact .inl hold
    · exact .inl (Execution.tableOf_setTable_of_ne heq table db)

/-- A session stays open or closed. -/
theorem active_eq (h : statement.Step c start db db') (d : SessionRef) :
    (db'.session d).active = (db.session d).active := by
  cases h with
  | departed h => exact (h.session d).2
  | tableKept => exact field_modifySession Session.active d rfl
  | indexKept => exact field_modifySession Session.active d rfl
  | _ => rfl

theorem admits (h : statement.Step c start db db') (hdb : db.Placed) :
    statement.Admits c start db db' := by
  cases h with
  | reserved s reservations => exact (samePlaces_withReservations s reservations db).lessens.admits
  | schemaCreated name owner => exact (lessens_withSchema name (some owner) false db).admits
  | @schemaGone s name _ => exact (samePlaces_schemaGone s name db).lessens.admits
  | departed h => exact (h.lessens hdb).admits
  | objectMade => exact ⟨fun _ _ => .inl, fun _ _ => .inl⟩
  | entered =>
    refine ⟨fun r o ho => ?_, fun _ _ => .inl⟩
    obtain ⟨kind, ho⟩ := ho
    rw [space_entered] at ho
    split at ho
    next heq =>
      rw [heq.1]
      exact (NameMap.mem_values_of_mem_insert ho).symm.imp_left fun ho => ⟨kind, ho⟩
    next => exact .inl ⟨kind, ho⟩
  | @tableKept s name table hdefines hlocal _ =>
    refine ⟨fun _ _ => .inl, fun d o ho => ?_⟩
    rw [Keeps, Database.tableKept, session_modifySession] at ho
    split at ho
    next hd =>
      subst hd
      rcases ho with ho | ho
      · rcases NameMap.mem_values_of_mem_insert ho with rfl | ho
        · exact .inr ⟨rfl, rfl, .inr ⟨table, hdefines, hlocal⟩⟩
        · exact .inl (.inl ho)
      · exact .inl (.inr ho)
    next => exact .inl ho
  | @indexKept s name t index ht _ _ _ =>
    refine ⟨fun _ _ => .inl, fun d o ho => ?_⟩
    rw [Keeps, Database.indexKept, session_modifySession] at ho
    split at ho
    next hd =>
      subst hd
      rcases ho with ho | ho
      · exact .inl (.inl ho)
      · rcases NameMap.mem_values_of_mem_insert ho with rfl | ho
        · exact .inr ⟨rfl, rfl, .inl ⟨t, ht⟩⟩
        · exact .inl (.inr ho)
    next => exact .inl ho
  | renamed ho hfree =>
    refine ⟨fun r other hother => .inl ?_, fun _ _ => .inl⟩
    exact hother.imp fun _ => ((hdb.inOrder _).filed.mem_space_renamed ho hfree).mp
  | tableAltered h => exact (samePlaces_setTable _ db h.rest.1 h.rest.2).lessens.admits

theorem present (h : statement.Step c start db db') (hdb : db.Placed) (ho : db'.Present o) :
    db.Present o ∨ o = db.nextObject := by
  obtain ⟨hholds, hkeeps⟩ := h.admits hdb
  rcases ho with ⟨s, ho⟩ | ⟨d, ho⟩
  · exact (hholds s o ho).imp_left fun ho => .inl ⟨s, ho⟩
  · exact (hkeeps d o ho).imp (fun ho => .inr ⟨d, ho⟩) And.left

theorem makes (h : statement.Step c start db db') (hdb : db.Placed)
    (hnew : db'.Present db.nextObject) : statement.Makes c start db db' := by
  have hnone := hdb.not_present_nextObject
  cases h with
  | reserved s reservations =>
    exact absurd ((samePlaces_withReservations s reservations db).lessens.present hnew) hnone
  | schemaCreated name owner =>
    exact absurd ((lessens_withSchema name (some owner) false db).present hnew) hnone
  | @schemaGone s name _ =>
    exact absurd ((samePlaces_schemaGone s name db).lessens.present hnew) hnone
  | departed h => exact absurd ((h.lessens hdb).present hnew) hnone
  | objectMade => exact absurd hnew hnone
  | renamed ho hfree =>
    refine absurd (hnew.imp_left fun ⟨r, hother⟩ => ⟨r, ?_⟩) hnone
    exact hother.imp fun _ => ((hdb.inOrder _).filed.mem_space_renamed ho hfree).mp
  | tableAltered h =>
    exact absurd ((samePlaces_setTable _ db h.rest.1 h.rest.2).lessens.present hnew) hnone
  | @entered s name body hbody hfree =>
    have hmade : ((db.withObject s name body).object db.nextObject).body = body :=
      congrArg Object.body object_nextObject
    cases body with
    | table table => exact .of_table hmade hbody.1
    | index index =>
      obtain ⟨t, ht, hid, hindexes⟩ := hbody
      have hold := object_withObject_of_lt s name (.index index) (hdb.slots s t ⟨_, ht⟩)
      exact .of_index hmade (hdb.carries_indexEntered ht hid hfree)
        (congrArg Object.asTable hold) hindexes
    | _ => exact .of_other hmade nofun nofun
  | tableKept hdefines hlocal hfree =>
    exact .of_table (congrArg Object.body object_nextObject) hdefines
  | @indexKept s name t index ht hid hindexes hfree =>
    have hold := object_withObject_of_lt s name (.index index) (hdb.keptSlots c t (.inl ht))
    exact .of_index (congrArg Object.body object_nextObject) (hdb.carries_indexKept ht hid hfree)
      (congrArg Object.asTable hold) hindexes

end Statement.Step

end Step

end SchemaCatalog
