import SchemaCatalog.Proofs.Resolution
/-!
# Steps of statements

The steps that several statements share: checks of names, new objects and their registration, and
names handed out for indexes.
-/
namespace SchemaCatalog.Execution

open Database

section Steps

variable {db : Database} {s : SchemaRef} {c : SessionRef} {name : String} {kind : ObjectKind}
  {body : ObjectBody}

theorem refuse_settles {α : Type} {e : CatalogError} {post : α → Database → Prop}
    (he : e.OfUser) : Settles (refuse e) db post :=
  .of_error rfl he

theorem reject_settles {α : Type} {detail : String} {post : α → Database → Prop} :
    Settles (reject detail) db post :=
  .of_error rfl trivial

theorem validateName_settles (what name : String) (db : Database) :
    Settles (validateName what name) db fun _ db' => db' = db ∧ True := by
  rw [validateName]
  split
  · exact reject_settles
  · exact .pure ⟨rfl, trivial⟩

theorem getSchema_settles (db : Database) (name : String) :
    Settles (liftM (getSchema name) : ExecM SchemaRef) db fun s db' =>
      db' = db ∧ db.findSchema name = some s :=
  (getSchema_finds db name).settles

theorem schemaForCreate_settles (h : db.WellFormed) (schemaName : String) (kind : ObjectKind)
    (name : String) (ifNotExists : Bool) :
    Settles (schemaForCreate schemaName kind name ifNotExists) db fun s? db' => db' = db ∧
      ∀ s, s? = some s → db.findSchema schemaName = some s ∧ s ∈ db.allSchemas ∧
        (db.space s kind).get? name = none := by
  rw [schemaForCreate]
  refine (validateName_settles _ name db).bind_look fun _ _ => ?_
  refine (getSchema_settles db schemaName).bind_look fun s hname => ?_
  have hs := mem_allSchemas_of_find hname
  have hfind := (Finds.of_ok (h.findObject_eq hs kind name) rfl).settles
  refine hfind.bind_look fun o? ho => ?_
  subst ho
  cases hfree : (db.space s kind).get? name with
  | none =>
    refine .pure ⟨rfl, ?_⟩
    rintro s' hs'
    obtain rfl := Option.some.inj hs'
    exact ⟨hname, hs, hfree⟩
  | some o =>
    cases ifNotExists with
    | true => exact .pure ⟨rfl, by simp⟩
    | false => exact refuse_settles trivial

theorem newObject_run (s : SchemaRef) (name : String) (body : ObjectBody) (db : Database) :
    newObject s name body db = .ok db.nextObject (db.withObject s name body) := rfl

theorem addObject_eq {o : ObjectRef} (hs : s ∈ db.allSchemas)
    (hactive : (db.schema s).state = .active) (howner : (db.object o).schema = some s)
    (hfree : (db.space s (db.object o).kind).get? (db.nameOf o) = none) :
    addObject o db = .ok () (entered s o db) := by
  rw [addObject, bind_of_ok (lift_of_ok (schemaOf_eq hs howner))]
  exact add_eq_ok_iff.mpr ⟨hactive, howner, hfree, rfl⟩

theorem addTempTable_eq {t : ObjectRef}
    (hfree : (db.session c).tempTables.get? (db.nameOf t) = none) :
    c.addTempTable t db = .ok () (tableKept c t db) := by
  have hcontains : (db.session c).tempTables.contains (db.object t).name = false :=
    NameMap.contains_eq_false.mpr hfree
  rw [SessionRef.addTempTable, get_bind_run]
  simp only [hcontains, Bool.false_eq_true, if_false]
  rfl

theorem addTempIndex_eq {i : ObjectRef}
    (hfree : (db.session c).tempIndexes.get? (db.nameOf i) = none) :
    c.addTempIndex i db = .ok () (indexKept c i db) := by
  have hcontains : (db.session c).tempIndexes.contains (db.object i).name = false :=
    NameMap.contains_eq_false.mpr hfree
  rw [SessionRef.addTempIndex, get_bind_run]
  simp only [hcontains, Bool.false_eq_true, if_false]
  rfl

theorem addNewObject_eq (h : db.WellFormed) (hs : s ∈ db.allSchemas) (name : String)
    (body : ObjectBody) (hfree : (db.space s body.kind).get? name = none) :
    addObject db.nextObject (db.withObject s name body) =
      .ok () (entered s db.nextObject (db.withObject s name body)) := by
  have hnew : (db.withObject s name body).object db.nextObject =
    { id := UInt32.ofNat db.nextId, name, schema := some s, body } := object_nextObject
  refine addObject_eq hs (h.active s hs) (by rw [hnew]) ?_
  rw [nameOf, hnew]
  exact hfree

end Steps

section IndexNames

variable {α : Type} {db : Database} {s : SchemaRef} {c : SessionRef} {t : ObjectRef}
  {schemaName stem : String} {act : String → ExecM α}

/-- No index that is kept where the indexes of the table are has the name. -/
def IndexFree (db : Database) (c : SessionRef) (s : SchemaRef) (t : ObjectRef) (name : String) :
    Prop :=
  if (db.tableOf t).isLocalTemporary then (db.session c).tempIndexes.get? name = none
  else (db.space s .index).get? name = none

/-- The indexes that are kept where the indexes of the table are. -/
def indexesBeside (db : Database) (c : SessionRef) (s : SchemaRef) (t : ObjectRef) :
    NameMap ObjectRef :=
  if (db.tableOf t).isLocalTemporary then (db.session c).tempIndexes else db.space s .index

theorem indexFree_iff {name : String} :
    IndexFree db c s t name ↔ (indexesBeside db c s t).get? name = none := by
  rw [IndexFree, indexesBeside]
  split <;> rfl

private theorem uniqueIndexName_eq (hactive : (db.schema s).state = .active) (c : SessionRef)
    (t : ObjectRef) (stem : String) : s.uniqueIndexName (some c) t stem db =
      (modifyGet (s.reserve (db.nameOf t) stem (indexesBeside db c s t)) : CatalogM _) db := by
  rw [SchemaRef.uniqueIndexName, get_bind_run, get_bind_run, indexesBeside]
  cases hlocal : (db.tableOf t).isLocalTemporary with
  | false =>
    simp only [Bool.false_eq_true, if_false]
    rw [SchemaRef.uniqueName, bind_of_ok (lift_of_ok (activeRegistry_eq hactive))]
    rfl
  | true =>
    have hsession : SchemaRef.sessionFor (some c) t db = .ok c := rfl
    simp only [if_true]
    rw [bind_of_ok (lift_of_ok hsession), bind_of_ok (lift_of_ok (activeRegistry_eq hactive)),
      get_bind_run]

/-- A name is handed out that no index in the same place has. -/
theorem uniqueIndexName_run (hactive : (db.schema s).state = .active) (c : SessionRef)
    (t : ObjectRef) (stem : String) : ∃ r db',
      s.uniqueIndexName (some c) t stem db = .ok r db' ∧
        s.reserve (db.nameOf t) stem (indexesBeside db c s t) db = (r, db') ∧
        Granted s (indexesBeside db c s t) r db db' := by
  obtain ⟨r, db', hreserve⟩ : ∃ r db',
      s.reserve (db.nameOf t) stem (indexesBeside db c s t) db = (r, db') := ⟨_, _, rfl⟩
  refine ⟨r, db', ?_, hreserve, granted_of_reserve hreserve⟩
  rw [uniqueIndexName_eq hactive]
  exact modifyGet_run hreserve

/-- What succeeds under every name that is free succeeds under the name that is handed out, and the
name is given back in the end. -/
theorem withIndexName_settles (h : db.WellFormed) (hname : db.findSchema schemaName = some s)
    (hact : ∀ name reservations, IndexFree db c s t name →
      Succeeds (act name) (withReservations s reservations db) fun _ db' =>
        Changes c schemaName (withReservations s reservations db) db' ∧
          db'.findSchema schemaName = some s) :
    Settles (withIndexName c s t stem act) db fun _ db' => Changes c schemaName db db' := by
  have hactive := h.active s (mem_allSchemas_of_find hname)
  obtain ⟨r, mid, hreserve, -, hfree, -, -, rfl⟩ := uniqueIndexName_run hactive c t stem
  let reservations := (db.schema s).reservations.enter r
  obtain ⟨a, db', hrun, hchanges, hname'⟩ :=
    hact r.name reservations (indexFree_iff.mpr hfree)
  have hreleased : releasing s r (act r.name) (withReservations s reservations db) =
      .ok a (s.release r db') := by
    rw [releasing, hrun]
  refine Succeeds.settles ⟨a, s.release r db', ?_, ?_⟩
  · rw [withIndexName, bind_of_ok (statement_of_ok hreserve), hreleased]
  · rw [release_eq]
    have hreserved : Changes c schemaName db (withReservations s reservations db) :=
      .single (.reservationsChanged hname reservations)
    exact (hreserved.trans hchanges).tail (.reservationsChanged hname' _)

end IndexNames

end SchemaCatalog.Execution
