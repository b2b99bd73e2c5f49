import SchemaCatalog.Proofs.Attachment
/-!
# Confinement

What a statement leaves alone. A statement of a session that names a schema reaches what is in this
schema and what the session keeps; all other schemas, sessions and objects stay as they were.
-/
namespace SchemaCatalog

open Database Relation

namespace Database

variable {c : SessionRef} {schemaName : String} {db db' db'' : Database} {s : SchemaRef}
  {t : ObjectRef} {gone : List ObjectRef}

/-- The object is in the schema that the name stands for, or the session keeps it. -/
def InReach (db : Database) (c : SessionRef) (schemaName : String) (o : ObjectRef) : Prop :=
  (∃ s, db.findSchema schemaName = some s ∧ db.Holds s o) ∨ db.Keeps c o

/-- Nothing changes but the counters, the schema that the name stands for, the temporary objects of
the session, and objects in reach; and no object that is out of reach comes into it. -/
structure Confined (c : SessionRef) (schemaName : String) (db db' : Database) : Prop where
  nextId : db.nextId ≤ db'.nextId
  objectCount : db.objectStore.next ≤ db'.objectStore.next
  schemaCount : db.schemaStore.next ≤ db'.schemaStore.next
  rule : db'.schemas.rule = db.schemas.rule
  registrations : ∀ name, db.schemas.key name ≠ db.schemas.key schemaName →
    db'.findSchema name = db.findSchema name
  target : ∀ s, db'.findSchema schemaName = some s →
    db.findSchema schemaName = some s ∨ db.schemaStore.next ≤ s.slot
  schemas : ∀ s : SchemaRef, s.slot < db.schemaStore.next → db.findSchema schemaName ≠ some s →
    db'.schema s = db.schema s
  sessions : ∀ d, d ≠ c → db'.session d = db.session d
  session : db'.session c = { db.session c with
    tempTables := (db'.session c).tempTables, tempIndexes := (db'.session c).tempIndexes }
  objects : ∀ o : ObjectRef, o.slot < db.objectStore.next → ¬ db.InReach c schemaName o →
    db'.object o = db.object o
  reach : ∀ o : ObjectRef, o.slot < db.objectStore.next → db'.InReach c schemaName o →
    db.InReach c schemaName o
  rest : db' = { db with
    nextId := db'.nextId, schemas := db'.schemas, objectStore := db'.objectStore,
    schemaStore := db'.schemaStore, sessionStore := db'.sessionStore }

namespace Confined

private theorem refl (c : SessionRef) (schemaName : String) (db : Database) :
    Confined c schemaName db db where
  nextId := Nat.le_refl _
  objectCount := Nat.le_refl _
  schemaCount := Nat.le_refl _
  rule := rfl
  registrations := fun _ _ => rfl
  target := fun _ hs => .inl hs
  schemas := fun _ _ _ => rfl
  sessions := fun _ _ => rfl
  session := rfl
  objects := fun _ _ _ => rfl
  reach := fun _ _ ho => ho
  rest := rfl

private theorem trans (h : Confined c schemaName db db') (h' : Confined c schemaName db' db'') :
    Confined c schemaName db db'' where
  nextId := Nat.le_trans h.nextId h'.nextId
  objectCount := Nat.le_trans h.objectCount h'.objectCount
  schemaCount := Nat.le_trans h.schemaCount h'.schemaCount
  rule := h'.rule.trans h.rule
  registrations := by
    intro name hname
    have hkey : ∀ name, db'.schemas.key name = db.schemas.key name := by
      intro name
      rw [NameMap.key, h.rule, NameMap.key]
    rw [h'.registrations name (by rwa [hkey, hkey]), h.registrations name hname]
  target := by
    intro s hs
    rcases h'.target s hs with hs | hs
    · exact h.target s hs
    · exact .inr (Nat.le_trans h.schemaCount hs)
  schemas := by
    intro s hslot hs
    have hs' : db'.findSchema schemaName ≠ some s := fun heq =>
      (h.target s heq).elim hs (Nat.not_le_of_lt hslot)
    rw [h'.schemas s (Nat.lt_of_lt_of_le hslot h.schemaCount) hs', h.schemas s hslot hs]
  sessions := fun d hd => (h'.sessions d hd).trans (h.sessions d hd)
  session := by
    rw [h'.session, h.session]
  objects := by
    intro o hslot ho
    rw [h'.objects o (Nat.lt_of_lt_of_le hslot h.objectCount) fun ho' => ho (h.reach o hslot ho'),
      h.objects o hslot ho]
  reach := fun o hslot ho =>
    h.reach o hslot (h'.reach o (Nat.lt_of_lt_of_le hslot h.objectCount) ho)
  rest := by
    rw [h'.rest, h.rest]

/-- A change that registers no schema and strikes none out. -/
private theorem of_schemas_eq (hnames : db'.schemas = db.schemas) (hid : db.nextId ≤ db'.nextId)
    (hobjectCount : db.objectStore.next ≤ db'.objectStore.next)
    (hschemaCount : db'.schemaStore.next = db.schemaStore.next)
    (hschemas : ∀ s, db.findSchema schemaName ≠ some s → db'.schema s = db.schema s)
    (hsessions : ∀ d, d ≠ c → db'.session d = db.session d)
    (hsession : db'.session c = { db.session c with
      tempTables := (db'.session c).tempTables, tempIndexes := (db'.session c).tempIndexes })
    (hobjects : ∀ o : ObjectRef, o.slot < db.objectStore.next → ¬ db.InReach c schemaName o →
      db'.object o = db.object o)
    (hholds : ∀ o : ObjectRef, o.slot < db.objectStore.next → ∀ s,
      db.findSchema schemaName = some s → db'.Holds s o → db.Holds s o)
    (hkeeps : ∀ o : ObjectRef, o.slot < db.objectStore.next → db'.Keeps c o → db.Keeps c o)
    (hrest : db' = { db with
      nextId := db'.nextId, schemas := db'.schemas, objectStore := db'.objectStore,
      schemaStore := db'.schemaStore, sessionStore := db'.sessionStore }) :
    Confined c schemaName db db' where
  nextId := hid
  objectCount := hobjectCount
  schemaCount := Nat.le_of_eq hschemaCount.symm
  rule := by rw [hnames]
  registrations := by
    intro name _
    rw [findSchema, hnames, findSchema]
  target := by
    intro s hs
    rw [findSchema, hnames] at hs
    exact .inl hs
  schemas := fun s _ hs => hschemas s hs
  sessions := hsessions
  session := hsession
  objects := hobjects
  reach := by
    rintro o hslot (⟨s, hs, ho⟩ | ho)
    · rw [findSchema, hnames] at hs
      exact .inl ⟨s, hs, hholds o hslot s hs ho⟩
    · exact .inr (hkeeps o hslot ho)
  rest := hrest

private theorem withSchema {owner : Option Principal} {system : Bool} :
    Confined c schemaName db (withSchema schemaName owner system db) := by
  have hfind : ∀ name, (Database.withSchema schemaName owner system db).findSchema name =
      if db.schemas.key name = db.schemas.key schemaName then some db.nextSchema
      else db.findSchema name := fun name => NameMap.get?_insert ..
  refine ⟨Nat.le_succ _, Nat.le_refl _, Nat.le_succ _, rfl, fun name hname => ?_, fun s hs => ?_,
    fun s hslot _ => ?_, fun _ _ => rfl, rfl, fun _ _ _ => rfl, ?_, rfl⟩
  · rw [hfind, if_neg hname]
  · rw [hfind, if_pos rfl] at hs
    obtain rfl := Option.some.inj hs
    exact .inr (Nat.le_refl _)
  · rw [schema_withSchema, if_neg]
    rintro rfl
    exact Nat.lt_irrefl _ hslot
  · rintro o _ (⟨s, hs, kind, ho⟩ | ho)
    · rw [hfind, if_pos rfl] at hs
      obtain rfl := Option.some.inj hs
      rw [space_nextSchema] at ho
      cases ho
    · exact .inr ho

private theorem dropped (hname : db.findSchema schemaName = some s)
    (h : Dropped schemaName s db db') :
    Confined c schemaName db db' := by
  have hfind : ∀ name, db'.findSchema name =
      if db.schemas.key schemaName = db.schemas.key name then none else db.findSchema name := by
    intro name
    rw [findSchema, h.schemas, NameMap.get?_erase, findSchema]
  have hsession : ∀ d, db'.session d = db.session d := by
    intro d
    rw [h.rest]
    rfl
  refine ⟨Nat.le_of_eq h.nextId_eq.symm, Nat.le_of_eq h.objectCount.symm,
    Nat.le_of_eq h.schemaCount.symm, by rw [h.schemas]; rfl, fun name hne => ?_, fun r hr => ?_,
    fun r _ hr => ?_, fun d _ => hsession d, by rw [hsession], fun o _ ho => ?_, ?_, ?_⟩
  · rw [hfind, if_neg (Ne.symm hne)]
  · rw [hfind, if_pos rfl] at hr
    cases hr
  · apply h.otherSchemas
    rintro rfl
    exact hr hname
  · exact h.otherObjects o fun hin => ho (.inl ⟨s, hname, hin⟩)
  · rintro o _ (⟨r, hr, -⟩ | ho)
    · rw [hfind, if_pos rfl] at hr
      cases hr
    · rw [Keeps, hsession] at ho
      exact .inr ho
  · rw [h.rest]

/-- A change of the contents of a schema and of objects in it. -/
private theorem of_modifySchema (hname : db.findSchema schemaName = some s)
    (hschemas : ∀ r, r ≠ s → db'.schema r = db.schema r)
    (hobjects : ∀ o : ObjectRef, o.slot < db.objectStore.next → ¬ db.Holds s o →
      db'.object o = db.object o)
    (hholds : ∀ o : ObjectRef, o.slot < db.objectStore.next → db'.Holds s o → db.Holds s o)
    (hid : db.nextId ≤ db'.nextId) (hobjectCount : db.objectStore.next ≤ db'.objectStore.next)
    (hschemaCount : db'.schemaStore.next = db.schemaStore.next)
    (hrest : db' = { db with
      nextId := db'.nextId, objectStore := db'.objectStore, schemaStore := db'.schemaStore }) :
    Confined c schemaName db db' := by
  have hsession : ∀ d, db'.session d = db.session d := by
    intro d
    rw [hrest]
    rfl
  refine .of_schemas_eq (by rw [hrest]) hid hobjectCount hschemaCount (fun r hr => ?_)
    (fun d _ => hsession d) (by rw [hsession]) (fun o hslot ho => ?_) (fun o hslot r hr ho => ?_)
    (fun o _ ho => ?_) (by rw [hrest])
  · apply hschemas
    rintro rfl
    exact hr hname
  · exact hobjects o hslot fun hin => ho (.inl ⟨s, hname, hin⟩)
  · obtain rfl := Option.some.inj (hname.symm.trans hr)
    exact hholds o hslot ho
  · rwa [Keeps, hsession] at ho

private theorem detachedAll (hname : db.findSchema schemaName = some s)
    (hheld : ∀ o ∈ gone, db.Holds s o) : Confined c schemaName db (detachedAll s gone db) := by
  have hframe := frame_detachedAll s gone db
  refine .of_modifySchema hname (fun r hr => schema_detachedAll_of_ne gone db hr)
    (fun o _ ho => ?_) (fun o _ ⟨kind, ho⟩ => ⟨kind, mem_space_of_detachedAll ho⟩)
    (Nat.le_of_eq (nextId_detachedAll s gone db).symm) (Nat.le_of_eq hframe.objectCount.symm)
    hframe.schemaCount (by rw [hframe.rest])
  rw [object_detachedAll, if_neg fun hgone => ho (hheld o hgone)]

/-- A new object is registered in the schema. -/
private theorem objectCreated {name : String} {body : ObjectBody}
    (hname : db.findSchema schemaName = some s) :
    Confined c schemaName db (entered s db.nextObject (db.withObject s name body)) := by
  refine .of_modifySchema hname (fun r hr => ?_) (fun o hslot _ => ?_) (fun o hslot ho => ?_)
    (Nat.le_succ _) (Nat.le_succ _) rfl rfl
  · exact (schema_modifySchema ..).trans (if_neg hr)
  · exact object_withObject_of_lt s name body hslot
  · obtain ⟨kind, ho⟩ := ho
    rw [space_entered] at ho
    split at ho
    next =>
      rcases NameMap.mem_values_of_mem_insert ho with rfl | ho
      · exact absurd hslot (Nat.lt_irrefl _)
      · exact ⟨kind, ho⟩
    next => exact ⟨kind, ho⟩

private theorem renamed {newName : String} {o : ObjectRef}
    (hname : db.findSchema schemaName = some s) (ho : db.Holds s o) :
    Confined c schemaName db (renamed s o newName db) := by
  refine .of_modifySchema hname (fun r hr => ?_) (fun other _ hother => ?_)
    (fun other _ ⟨kind, hother⟩ => ?_) (Nat.le_refl _) (Nat.le_refl _) rfl rfl
  · exact (schema_modifySchema ..).trans (if_neg hr)
  · rw [object_renamed, if_neg]
    rintro rfl
    exact hother ho
  · rw [space_renamed] at hother
    split at hother
    next =>
      rcases NameMap.mem_values_of_mem_insert hother with rfl | hother
      · exact ho
      · exact ⟨kind, NameMap.mem_values_of_mem_erase hother⟩
    next => exact ⟨kind, hother⟩

private theorem withReservations {reservations : ReservationSet}
    (hname : db.findSchema schemaName = some s) :
    Confined c schemaName db (withReservations s reservations db) := by
  refine .of_modifySchema hname (fun r hr => ?_) (fun _ _ _ => rfl) (fun o _ ⟨kind, ho⟩ => ?_)
    (Nat.le_refl _) (Nat.le_refl _) rfl rfl
  · exact (schema_modifySchema ..).trans (if_neg hr)
  · rw [space_withReservations] at ho
    exact ⟨kind, ho⟩

/-- A new object is made and not registered yet. -/
private theorem withObject (s : SchemaRef) (name : String) (body : ObjectBody) :
    Confined c schemaName db (db.withObject s name body) :=
  .of_schemas_eq rfl (Nat.le_succ _) (Nat.le_succ _) rfl (fun _ _ => rfl) (fun _ _ => rfl) rfl
    (fun _ hslot _ => object_withObject_of_lt s name body hslot) (fun _ _ _ _ ho => ho)
    (fun _ _ ho => ho) rfl

/-- Then an object changes that was in reach at first. -/
private theorem modifyObject (h : Confined c schemaName db db') {o : ObjectRef}
    (ho : db.InReach c schemaName o) (change : Object → Object) :
    Confined c schemaName db (db'.modifyObject o change) := by
  refine { h with
    objectCount := h.objectCount, objects := fun other hslot hother => ?_, rest := ?_ }
  · rw [object_modifyObject, if_neg, h.objects other hslot hother]
    rintro rfl
    exact hother ho
  · rw [h.rest]
    rfl

/-- Then the session changes what it keeps. -/
private theorem modifySession (h : Confined c schemaName db db') {change : Session → Session}
    (hmaps : change (db'.session c) = { db'.session c with
      tempTables := (change (db'.session c)).tempTables,
      tempIndexes := (change (db'.session c)).tempIndexes })
    (hkeeps : ∀ o : ObjectRef, o.slot < db.objectStore.next →
      (o ∈ (change (db'.session c)).tempTables.values ∨
        o ∈ (change (db'.session c)).tempIndexes.values) → db'.Keeps c o) :
    Confined c schemaName db (db'.modifySession c change) := by
  have hsession : ∀ d, (db'.modifySession c change).session d =
      if d = c then change (db'.session c) else db'.session d := fun d => session_modifySession ..
  refine { h with
    sessions := fun d hd => ?_, session := ?_, reach := fun o hslot ho => ?_, rest := ?_ }
  · rw [hsession, if_neg hd, h.sessions d hd]
  · rw [hsession, if_pos rfl, hmaps, h.session]
  · refine h.reach o hslot (ho.imp_right fun ho => ?_)
    rw [Keeps, hsession, if_pos rfl] at ho
    exact hkeeps o hslot ho
  · rw [h.rest]
    rfl

/-- The session keeps a new object. -/
private theorem kept {change : Session → Session} {name : String} {body : ObjectBody}
    (hmaps : change (db.session c) = { db.session c with
      tempTables := (change (db.session c)).tempTables,
      tempIndexes := (change (db.session c)).tempIndexes })
    (hkeeps : ∀ o, (o ∈ (change (db.session c)).tempTables.values ∨
      o ∈ (change (db.session c)).tempIndexes.values) → o = db.nextObject ∨ db.Keeps c o) :
    Confined c schemaName db ((db.withObject s name body).modifySession c change) := by
  refine (withObject s name body).modifySession hmaps fun o hslot ho => ?_
  refine (hkeeps o ho).resolve_left ?_
  rintro rfl
  exact Nat.lt_irrefl _ hslot

private theorem dropTempIndex (name : String) :
    Confined c schemaName db (c.dropTempIndex name db).2 := by
  rw [SessionRef.dropTempIndex]
  cases hfind : c.tempIndex? name db with
  | none => exact .refl c schemaName db
  | some i =>
    have herased : Confined c schemaName db (db.modifySession c fun session =>
        { session with tempIndexes := session.tempIndexes.erase name }) :=
      (refl c schemaName db).modifySession rfl fun o _ ho =>
        ho.imp_right NameMap.mem_values_of_mem_erase
    exact herased.modifyObject (.inr (.inr (NameMap.mem_values_of_get? hfind))) Object.invalidate

private theorem dropTempIndexes (names : List String) :
    Confined c schemaName db (names.foldl (fun db name => (c.dropTempIndex name db).2) db) := by
  induction names generalizing db with
  | nil => exact .refl c schemaName db
  | cons name names ih => exact (dropTempIndex name).trans ih

private theorem dropTempTable (name : String) :
    Confined c schemaName db (c.dropTempTable name db).2 := by
  rw [SessionRef.dropTempTable]
  cases hfind : c.tempTable? name db with
  | none => exact .refl c schemaName db
  | some t =>
    have herased : Confined c schemaName db (db.modifySession c fun session =>
        { session with tempTables := session.tempTables.erase name }) :=
      (refl c schemaName db).modifySession rfl fun o _ ho =>
        ho.imp_left NameMap.mem_values_of_mem_erase
    -- the session no longer keeps the table here, but it did at first
    exact (herased.trans (dropTempIndexes _)).modifyObject
      (.inr (.inl (NameMap.mem_values_of_get? hfind))) Object.invalidate

private theorem setTable {table : Table} (hname : db.findSchema schemaName = some s)
    (ht : db.Visible c s t) : Confined c schemaName db (t.setTable table db) :=
  (refl c schemaName db).modifyObject (ht.imp (fun hin => ⟨s, hname, .tableOrView, hin⟩) .inl) _

end Confined

theorem Change.confined (h : Change c schemaName db db') : Confined c schemaName db db' := by
  cases h with
  | schemaCreated => exact .withSchema
  | schemaDropped hname _ hdropped => exact .dropped hname hdropped
  | objectCreated hname => exact .objectCreated hname
  | tempTableCreated =>
    refine .kept rfl fun o ho => ?_
    rcases ho with ho | ho
    · exact (NameMap.mem_values_of_mem_insert ho).imp_right .inl
    · exact .inr (.inr ho)
  | tempIndexCreated =>
    refine .kept rfl fun o ho => ?_
    rcases ho with ho | ho
    · exact .inr (.inl ho)
    · exact (NameMap.mem_values_of_mem_insert ho).imp_right .inr
  | renamed hname ho => exact .renamed hname ho
  | tableRemoved hname ht => exact .detachedAll hname (holds_of_mem_indexesOn_append ht)
  | @objectRemoved s o hname ho =>
    have hheld : ∀ o' ∈ [o], db.Holds s o' := by
      intro o' ho'
      rwa [List.mem_singleton.mp ho']
    exact .detachedAll hname hheld
  | tempTableDropped name => exact .dropTempTable name
  | tempIndexDropped name => exact .dropTempIndex name
  | tableAltered hname ht => exact .setTable hname ht
  | reservationsChanged hname => exact .withReservations hname

theorem Changes.confined (h : Changes c schemaName db db') : Confined c schemaName db db' := by
  induction h with
  | refl => exact .refl c schemaName db
  | tail _ hlast ih => exact ih.trans hlast.confined

end Database

/-- A statement is confined to the schema that it names and to its session. -/
theorem Statement.confined {db : Database} (h : db.WellFormed) (c : SessionRef)
    (statement : Statement) {schemaName : String}
    (hname : statement.schemaName? = some schemaName) :
    Confined c schemaName db (stateAfter (statement.execute c) db) := by
  rcases changes_execute h c statement with ⟨name, hnamed, hchanges⟩ | hsame
  · obtain rfl := Option.some.inj (hname.symm.trans hnamed)
    exact hchanges.confined
  · rw [hsame]
    exact .refl c schemaName db

section Others

namespace Database

variable {c d : SessionRef} {schemaName : String} {db db' : Database} {s r : SchemaRef}
  {o : ObjectRef}

/-- What is registered in another schema is out of reach. -/
theorem not_inReach_of_holds (h : db.WellFormed) (hr : r ∈ db.allSchemas) (ho : db.Holds r o)
    (hother : db.findSchema schemaName ≠ some r) : ¬ db.InReach c schemaName o := by
  rintro (⟨s, hs, hin⟩ | hkept)
  · obtain rfl := h.schema_eq hr (mem_allSchemas_of_find hs) ho hin
    exact hother hs
  · exact h.apart c o hkept ⟨r, hr, ho⟩

/-- What another session keeps is out of reach. -/
theorem not_inReach_of_keeps (h : db.WellFormed) (hatt : db.Attached) (ho : db.Keeps d o)
    (hd : d ≠ c) : ¬ db.InReach c schemaName o := by
  rintro (⟨s, hs, hin⟩ | hkept)
  · exact h.apart d o ho ⟨s, mem_allSchemas_of_find hs, hin⟩
  · exact hd (hatt.sessions.keeper d c o ho hkept)

end Database

end Others

end SchemaCatalog
