import SchemaCatalog.Database.Columns
import SchemaCatalog.Proofs.WellFormed
import SchemaCatalog.Session.Open
/-!
# Shrinking databases

What takes something away or changes nothing that matters to well-formedness: reservations, columns
and checks of a table, detached objects, dropped schemas and dropped local temporary objects.
-/
namespace SchemaCatalog.Database

open Relation

section Registries

variable {db db' : Database} {s : SchemaRef} {o t : ObjectRef}

/-- The schemas keep their names, states and registries. -/
structure SameSchemas (db db' : Database) : Prop where
  schemas : db'.schemas = db.schemas
  names : ∀ s, (db'.schema s).name = (db.schema s).name
  states : ∀ s, (db'.schema s).state = (db.schema s).state
  registries : ∀ s, (db'.schema s).registry = (db.schema s).registry
  count : db'.schemaStore.next = db.schemaStore.next

theorem SameSchemas.of_eq (hschemas : db'.schemas = db.schemas)
    (hstore : db'.schemaStore = db.schemaStore) : SameSchemas db db' := by
  have hschema : ∀ s, db'.schema s = db.schema s := by
    intro s
    rw [Database.schema, hstore]
    rfl
  refine ⟨hschemas, ?_, ?_, ?_, ?_⟩
  · intro s
    rw [hschema]
  · intro s
    rw [hschema]
  · intro s
    rw [hschema]
  · rw [hstore]

/-- With the registries as they are, all is well if registered objects keep their schema. -/
theorem Shrinks.of_sameSchemas (h : SameSchemas db db') (hobjects : ∀ o, Same db db' o)
    (howners : ∀ o, db.Registered o → (db'.object o).schema = (db.object o).schema)
    (htables : ∀ c, (db'.session c).tempTables.Within (db.session c).tempTables)
    (hindexes : ∀ c, (db'.session c).tempIndexes.Within (db.session c).tempIndexes)
    (hid : db.nextId ≤ db'.nextId) (hcount : db'.objectStore.next = db.objectStore.next) :
    Shrinks db db' := by
  have hspace : ∀ s kind, db'.space s kind = db.space s kind := by
    intro s kind
    rw [space, h.registries, space]
  have hall : db'.allSchemas = db.allSchemas := congrArg NameMap.values h.schemas
  refine ⟨hobjects, .of_eq h.schemas, fun s _ => h.names s, fun s _ => h.states s,
    fun s _ kind => .of_eq (hspace s kind), ?_, htables, hindexes, ?_, hid, hcount, h.count⟩
  · rintro s hs o ⟨kind, ho⟩
    rw [hall] at hs
    rw [hspace] at ho
    exact howners o ⟨s, hs, kind, ho⟩
  · intro s _ t _ u hu _
    rwa [hspace]

theorem shrinks_withReservations (s : SchemaRef) (reservations : ReservationSet) (db : Database) :
    Shrinks db (withReservations s reservations db) := by
  refine .of_sameSchemas ⟨rfl, ?_, ?_, ?_, rfl⟩ (fun o => .of_eq rfl) (fun _ _ => rfl)
    (fun c => .refl _) (fun c => .refl _) (Nat.le_refl _) rfl
  · exact fun r => field_modifySchema Schema.name r rfl
  · exact fun r => state_withReservations s r reservations db
  · exact fun r => field_modifySchema Schema.registry r rfl

/-- The columns and checks of a table may change. -/
theorem shrinks_setTable (t : ObjectRef) {table : Table} (db : Database)
    (hscope : table.scope = (db.tableOf t).scope)
    (hreferences : table.references = (db.tableOf t).references) :
    Shrinks db (t.setTable table db) := by
  have hobject : ∀ o, (t.setTable table db).object o =
      if o = t then (db.object t).mapTable fun _ => table else db.object o := fun o =>
    object_modifyObject ..
  have hsame : ∀ o, Same db (t.setTable table db) o ∧
      ((t.setTable table db).object o).schema = (db.object o).schema := by
    intro o
    by_cases ho : o = t
    · subst ho
      have hnew := hobject o
      rw [if_pos rfl, Object.mapTable] at hnew
      split at hnew
      next old hbody =>
        have hold : (db.object o).asTable = old := by rw [Object.asTable, hbody]
        have htable : ((o.setTable table db).object o).asTable = table := by
          rw [hnew, Object.asTable]
        rw [tableOf] at hscope hreferences
        refine ⟨⟨by rw [hnew], by rw [nameOf, hnew, nameOf], ?_, ?_, ?_, ?_⟩, by rw [hnew]⟩
        · rw [hnew, Object.kind, Object.kind, hbody]
          rfl
        · rw [tableOf, htable, tableOf, hscope]
        · rw [tableOf, htable, tableOf, hreferences]
        · rw [indexOf, indexOf, hnew, Object.asIndex, Object.asIndex, hbody]
      next => exact ⟨.of_eq hnew, by rw [hnew]⟩
    · have hold := hobject o
      rw [if_neg ho] at hold
      exact ⟨.of_eq hold, by rw [hold]⟩
  exact .of_sameSchemas (.of_eq rfl rfl) (fun o => (hsame o).1) (fun o _ => (hsame o).2)
    (fun c => .refl _) (fun c => .refl _) (Nat.le_refl _) rfl

/-- Cutting an object off that is not registered changes nothing that matters. -/
private theorem shrinks_invalidate (ho : ¬ db.Registered o) :
    Shrinks db (db.modifyObject o Object.invalidate) := by
  have hobject : ∀ other, (db.modifyObject o Object.invalidate).object other =
      if other = o then (db.object o).invalidate else db.object other := fun other =>
    object_modifyObject ..
  refine .of_sameSchemas (.of_eq rfl rfl) (fun other => ?_) (fun other hother => ?_)
    (fun c => .refl _) (fun c => .refl _) (Nat.le_refl _) rfl
  · by_cases heq : other = o
    · subst heq
      have hnew := hobject other
      rw [if_pos rfl] at hnew
      exact .invalidate hnew
    · have hold := hobject other
      rw [if_neg heq] at hold
      exact .of_eq hold
  · rw [hobject, if_neg]
    rintro rfl
    exact ho hother

end Registries

section Detached

variable {db db' : Database} {s r : SchemaRef} {gone : List ObjectRef} {t : ObjectRef}
  {name : String}

private theorem within_detachedAll (s : SchemaRef) (gone : List ObjectRef) (db : Database)
    (r : SchemaRef) (kind : ObjectKind) :
    ((detachedAll s gone db).space r kind).Within (db.space r kind) := by
  induction gone generalizing db with
  | nil => exact .refl _
  | cons o gone ih =>
    have hfirst : ((detached s db o).space r kind).Within (db.space r kind) := by
      rw [space_detached]
      split
      next h =>
        rw [h.1]
        exact NameMap.within_erase _ _
      next => exact .refl _
    exact (ih (detached s db o)).trans hfirst

/-- Objects of a schema may go if no table stays that reads one of them. -/
private theorem Live.shrinks_detachedAll (h : db.Live s) (hnodup : gone.Nodup)
    (hheld : ∀ o ∈ gone, db.Holds s o)
    (hread : ∀ t ∈ (db.space s .tableOrView).values, t ∉ gone → ∀ u ∈ gone,
      u ∈ (db.space s .tableOrView).values → (db.object u).id ∉ (db.tableOf t).references) :
    Shrinks db (detachedAll s gone db) where
  objects := by
    intro o
    have hobject := object_detachedAll s gone db o
    split at hobject
    · exact .invalidate hobject
    · exact .of_eq hobject
  schemas := .of_eq (schemas_detachedAll s gone db)
  names := by
    intro r _
    by_cases hr : r = s
    · rw [hr, (frame_detachedAll s gone db).schema]
    · rw [schema_detachedAll_of_ne gone db hr]
  states := by
    intro r _
    by_cases hr : r = s
    · rw [hr, (frame_detachedAll s gone db).schema]
    · rw [schema_detachedAll_of_ne gone db hr]
  spaces := fun r _ kind => within_detachedAll s gone db r kind
  owners := by
    rintro r hr o ⟨kind, ho⟩
    rw [allSchemas_detachedAll] at hr
    have hold := (within_detachedAll s gone db r kind).mem_values ho
    rw [object_detachedAll, if_neg]
    intro hgone
    obtain rfl := h.consistent.schema_eq h.registered hr (hheld o hgone) ⟨kind, hold⟩
    exact ((h.mem_space_detachedAll hnodup hheld).mp ho).2 hgone
  tempTables := by
    intro c
    rw [(frame_detachedAll s gone db).rest]
    exact .refl _
  tempIndexes := by
    intro c
    rw [(frame_detachedAll s gone db).rest]
    exact .refl _
  read := by
    intro r hr t ht u hu href
    by_cases hrs : r = s
    · subst hrs
      obtain ⟨ht, hstays⟩ := (h.mem_space_detachedAll hnodup hheld).mp ht
      refine (h.mem_space_detachedAll hnodup hheld).mpr ⟨hu, fun hgone => ?_⟩
      exact hread t ht hstays u hgone hu href
    · rwa [space, schema_detachedAll_of_ne gone db hrs]
  nextId := Nat.le_of_eq (nextId_detachedAll s gone db).symm
  objectCount := (frame_detachedAll s gone db).objectCount
  schemaCount := (frame_detachedAll s gone db).schemaCount

theorem Live.shrinks_detached (h : db.Live s) {o : ObjectRef} (ho : db.Holds s o)
    (hkind : (db.object o).kind ≠ .tableOrView) : Shrinks db (detached s db o) := by
  refine h.shrinks_detachedAll (List.nodup_singleton o) ?_ ?_
  · intro o' ho'
    rwa [List.mem_singleton.mp ho']
  · intro t _ _ u hu htable
    obtain rfl := List.mem_singleton.mp hu
    exact absurd (h.consistent.kind_of_mem h.registered htable) hkind

theorem Live.shrinks_tableRemoved (h : db.Live s) (ht : t ∈ (db.space s .tableOrView).values)
    (hfree : db.findDependent t t = none) : Shrinks db (db.tableRemoved s t) := by
  obtain ⟨hnodup, hheld⟩ := (h.consistent.inOrder h.registered).indexesOn_append ht
  have hmem : ∀ u ∈ (db.space s .tableOrView).values, u ∈ db.allTables := fun u hu =>
    mem_allTables.mpr ⟨s, h.registered, mem_tablesIn.mpr ⟨h.active, hu⟩⟩
  apply h.shrinks_detachedAll hnodup hheld
  intro t' ht' hstays u hu htable href
  rcases List.mem_append.mp hu with hu | hu
  · have hindex := h.consistent.kind_of_mem h.registered (mem_indexesOn.mp hu).1
    rw [h.consistent.kind_of_mem h.registered htable] at hindex
    cases hindex
  · obtain rfl := List.mem_singleton.mp hu
    have hne : t' ≠ u := by
      rintro rfl
      exact hstays (List.mem_append_right _ hu)
    have hfalse := findDependent_eq_none_iff.mp hfree t' (hmem t' ht')
    rw [(h.consistent.dependsOn_iff_ne (hmem u ht) (hmem t' ht')).mpr ⟨hne, href⟩] at hfalse
    cases hfalse

/-- A schema that is dropped leaves the others with everything they had. -/
theorem Dropped.shrinks (h : Dropped name s db db') (hdb : db.Consistent) (hs : s ∈ db.allSchemas) :
    Shrinks db db' := by
  have hwithin : db'.schemas.Within db.schemas := by
    rw [h.schemas]
    exact NameMap.within_erase _ _
  have hother : ∀ r ∈ db'.allSchemas, r ≠ s := by
    rintro r hr rfl
    exact h.unregistered hr
  have hspace : ∀ r ∈ db'.allSchemas, ∀ kind, db'.space r kind = db.space r kind := by
    intro r hr kind
    rw [space, h.otherSchemas r (hother r hr), space]
  refine ⟨fun o => ?_, hwithin, fun r hr => ?_, fun r hr => ?_, fun r hr kind => ?_, ?_,
    fun c => ?_, fun c => ?_, ?_, Nat.le_of_eq h.nextId_eq.symm, h.objectCount, h.schemaCount⟩
  · by_cases ho : db.Holds s o
    · exact .invalidate (h.invalidated o ho)
    · exact .of_eq (h.otherObjects o ho)
  · rw [h.otherSchemas r (hother r hr)]
  · rw [h.otherSchemas r (hother r hr)]
  · exact .of_eq (hspace r hr kind)
  · rintro r hr o ⟨kind, ho⟩
    rw [hspace r hr] at ho
    rw [h.otherObjects o fun hin => hother r hr
      (hdb.schema_eq (hwithin.mem_values hr) hs ⟨kind, ho⟩ hin)]
  · rw [h.rest]
    exact .refl _
  · rw [h.rest]
    exact .refl _
  · intro r hr t _ u hu _
    rwa [hspace r hr]

end Detached

section Temporary

variable {db db' : Database} {c : SessionRef} {name : String} {o : ObjectRef}

/-- The database without an entry among the local temporary tables of a session. -/
def tableForgotten (c : SessionRef) (name : String) (db : Database) : Database :=
  db.modifySession c fun session => { session with tempTables := session.tempTables.erase name }

/-- The database without an entry among the local temporary indexes of a session. -/
def indexForgotten (c : SessionRef) (name : String) (db : Database) : Database :=
  db.modifySession c fun session => { session with tempIndexes := session.tempIndexes.erase name }

theorem shrinks_sessions {sessions : Store Session} (db : Database)
    (htables : ∀ c : SessionRef, (sessions.get c.slot).tempTables.Within (db.session c).tempTables)
    (hindexes : ∀ c : SessionRef,
      (sessions.get c.slot).tempIndexes.Within (db.session c).tempIndexes) :
    Shrinks db { db with sessionStore := sessions } :=
  .of_sameSchemas (.of_eq rfl rfl) (fun _ => .of_eq rfl) (fun _ _ => rfl) htables hindexes
    (Nat.le_refl _) rfl

private theorem shrinks_modifySession (c : SessionRef) {change : Session → Session} (db : Database)
    (htables : (change (db.session c)).tempTables.Within (db.session c).tempTables)
    (hindexes : (change (db.session c)).tempIndexes.Within (db.session c).tempIndexes) :
    Shrinks db (db.modifySession c change) := by
  refine shrinks_sessions db (fun other => ?_) fun other => ?_
  · change ((db.modifySession c change).session other).tempTables.Within _
    rw [session_modifySession]
    split
    next h => exact h ▸ htables
    next => exact .refl _
  · change ((db.modifySession c change).session other).tempIndexes.Within _
    rw [session_modifySession]
    split
    next h => exact h ▸ hindexes
    next => exact .refl _

private theorem shrinks_tableForgotten (c : SessionRef) (name : String) (db : Database) :
    Shrinks db (tableForgotten c name db) :=
  shrinks_modifySession c db (NameMap.within_erase _ _) (.refl _)

private theorem shrinks_indexForgotten (c : SessionRef) (name : String) (db : Database) :
    Shrinks db (indexForgotten c name db) :=
  shrinks_modifySession c db (.refl _) (NameMap.within_erase _ _)

theorem WellFormed.of_reflTransGen (h : db.WellFormed) (hshrinks : ReflTransGen Shrinks db db') :
    db'.WellFormed := by
  induction hshrinks with
  | refl => exact h
  | tail _ hlast ih => exact ih.shrinks hlast

theorem registered_of_reflTransGen (h : ReflTransGen Shrinks db db') (ho : db'.Registered o) :
    db.Registered o := by
  induction h with
  | refl => exact ho
  | tail _ hlast ih => exact ih (hlast.registered ho)

theorem WellFormed.dropTempIndex (h : db.WellFormed) (c : SessionRef) (name : String) :
    ReflTransGen Shrinks db (c.dropTempIndex name db).2 := by
  rw [SessionRef.dropTempIndex]
  cases hfind : c.tempIndex? name db with
  | none => exact .refl
  | some i =>
    have hforgotten := shrinks_indexForgotten c name db
    have hkeeps : db.Keeps c i := .inr (NameMap.mem_values_of_get? hfind)
    have hunregistered : ¬ (indexForgotten c name db).Registered i := fun hi =>
      h.apart c i hkeeps (hforgotten.registered hi)
    exact .tail (.single hforgotten) (shrinks_invalidate hunregistered)

private theorem WellFormed.foldl {drop : Database → String → Database}
    (hdrop : ∀ db : Database, db.WellFormed → ∀ name, ReflTransGen Shrinks db (drop db name))
    (h : db.WellFormed) (names : List String) :
    ReflTransGen Shrinks db (names.foldl drop db) := by
  induction names generalizing db with
  | nil => exact .refl
  | cons name names ih =>
    have hfirst := hdrop db h name
    exact hfirst.trans (ih (h.of_reflTransGen hfirst))

theorem WellFormed.dropTempTable (h : db.WellFormed) (c : SessionRef) (name : String) :
    ReflTransGen Shrinks db (c.dropTempTable name db).2 := by
  rw [SessionRef.dropTempTable]
  cases hfind : c.tempTable? name db with
  | none => exact .refl
  | some t =>
    have hforgotten := shrinks_tableForgotten c name db
    have hkeeps : db.Keeps c t := .inl (NameMap.mem_values_of_get? hfind)
    have hindexes := WellFormed.foldl (fun db h name => h.dropTempIndex c name)
      (h.shrinks hforgotten)
      ((c.tempIndexesOf ((tableForgotten c name db).object t).id (tableForgotten c name db)).map
        (tableForgotten c name db).nameOf)
    have hboth := ReflTransGen.head hforgotten hindexes
    exact hboth.tail (shrinks_invalidate fun ht =>
      h.apart c t hkeeps (registered_of_reflTransGen hboth ht))

theorem nextId_dropTempIndex (c : SessionRef) (name : String) (db : Database) :
    (c.dropTempIndex name db).2.nextId = db.nextId := by
  rw [SessionRef.dropTempIndex]
  split <;> rfl

theorem nextId_dropTempTable (c : SessionRef) (name : String) (db : Database) :
    (c.dropTempTable name db).2.nextId = db.nextId := by
  have hfoldl : ∀ (names : List String) (db : Database),
      (names.foldl (fun db name => (c.dropTempIndex name db).2) db).nextId = db.nextId := by
    intro names
    induction names with
    | nil => exact fun _ => rfl
    | cons name names ih =>
      intro db
      exact (ih _).trans (nextId_dropTempIndex c name db)
  rw [SessionRef.dropTempTable]
  split
  · rfl
  · exact hfoldl _ _

theorem WellFormed.close (h : db.WellFormed) (c : SessionRef) :
    ReflTransGen Shrinks db (c.close db) := by
  rw [SessionRef.close]
  split
  · have hclosed : Shrinks db
        (db.modifySession c fun session => { session with active := false }) :=
      shrinks_modifySession c db (.refl _) (.refl _)
    exact .head hclosed (WellFormed.foldl (fun db h name => h.dropTempTable c name)
      (h.shrinks hclosed) _)
  · exact .refl

end Temporary

end SchemaCatalog.Database
