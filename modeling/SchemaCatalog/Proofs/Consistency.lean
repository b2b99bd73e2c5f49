import SchemaCatalog.Database.Objects
import SchemaCatalog.Proofs.Actions
import SchemaCatalog.Proofs.Maps
/-!
# Consistent registries

A database is consistent when every registered object is kept under its own name and kind in the
schema that it refers to, and tables have ids of their own. In a consistent database the look-ups
that start from an object find this very object.
-/
namespace SchemaCatalog.Database

/-- The name space of a kind in a schema. -/
def space (db : Database) (s : SchemaRef) (kind : ObjectKind) : NameMap ObjectRef :=
  (db.schema s).registry.space kind

section Frames

variable {db : Database} {s : SchemaRef} {o : ObjectRef} {change : Schema → Schema} {β : Type}

@[simp] theorem schema_modifyObject (o : ObjectRef) (change : Object → Object) :
    (db.modifyObject o change).schema s = db.schema s := rfl

@[simp] theorem space_modifyObject (o : ObjectRef) (change : Object → Object) (kind : ObjectKind) :
    (db.modifyObject o change).space s kind = db.space s kind := rfl

/-- A change of a schema is settled by what it does to this one schema. -/
theorem modifySchema_congr {change' : Schema → Schema}
    (h : change (db.schema s) = change' (db.schema s)) :
    db.modifySchema s change = db.modifySchema s change' := by
  simp only [schema] at h
  simp only [modifySchema, Store.modify, h]

/-- Objects of other kinds read as an empty table. -/
theorem tableOf_of_kind_ne (h : (db.object o).kind ≠ .tableOrView) : db.tableOf o = default := by
  rw [tableOf, Object.asTable]
  cases hbody : (db.object o).body with
  | table table =>
    rw [Object.kind, hbody] at h
    exact absurd rfl h
  | _ => rfl

/-- What the change of a schema keeps stays the same for every schema. -/
theorem field_modifySchema (field : Schema → β) (r : SchemaRef)
    (h : field (change (db.schema s)) = field (db.schema s)) :
    field ((db.modifySchema s change).schema r) = field (db.schema r) := by
  rw [schema_modifySchema]
  split
  next hr => rw [hr, h]
  next => rfl

/-- What the change of an object keeps stays the same for every object. -/
theorem field_modifyObject (field : Object → β) {change : Object → Object} (other : ObjectRef)
    (h : field (change (db.object o)) = field (db.object o)) :
    field ((db.modifyObject o change).object other) = field (db.object other) := by
  rw [object_modifyObject]
  split
  next hother => rw [hother, h]
  next => rfl

/-- What the change of a session keeps stays the same for every session. -/
theorem field_modifySession (field : Session → β) {c : SessionRef} {change : Session → Session}
    (d : SessionRef) (h : field (change (db.session c)) = field (db.session c)) :
    field ((db.modifySession c change).session d) = field (db.session d) := by
  rw [session_modifySession]
  split
  next hd => rw [hd, h]
  next => rfl

/-- A change of one name space of a schema leaves all others as they are. -/
theorem space_modifySchema (changed : ObjectKind) (update : NameMap ObjectRef → NameMap ObjectRef)
    (r : SchemaRef) (kind : ObjectKind) (h : (change (db.schema s)).registry =
      (db.schema s).registry.modifySpace changed update) :
    (db.modifySchema s change).space r kind =
      if r = s ∧ kind = changed then update (db.space s kind) else db.space r kind := by
  rw [space, schema_modifySchema]
  by_cases hr : r = s
  · subst hr
    rw [if_pos rfl, h, Registry.space_modifySpace]
    by_cases hkind : kind = changed
    · simp [hkind, space]
    · simp [hkind, space]
  · rw [if_neg hr, if_neg fun h => hr h.1]
    rfl

end Frames

/-- The object is registered in the schema. -/
def Holds (db : Database) (s : SchemaRef) (o : ObjectRef) : Prop :=
  ∃ kind, o ∈ (db.space s kind).values

/-- The object is registered in the schema under its own name and kind, and refers to it. -/
structure Enters (db : Database) (s : SchemaRef) (kind : ObjectKind) (o : ObjectRef) : Prop where
  kind : (db.object o).kind = kind
  schema : (db.object o).schema = some s

/-- Every registry keeps its objects as they are now, and registered tables differ in their ids. -/
structure Consistent (db : Database) : Prop where
  /-- A schema is registered under its own name. -/
  schemas : db.schemas.Keyed fun s => (db.schema s).name
  /-- An object is registered under its own name. -/
  keyed : ∀ s ∈ db.allSchemas, ∀ kind, (db.space s kind).Keyed db.nameOf
  /-- An object is registered among its kind, in the schema that it refers to. -/
  enters : ∀ s ∈ db.allSchemas, ∀ kind, ∀ o ∈ (db.space s kind).values, db.Enters s kind o
  tableIds : ∀ t ∈ db.allTables, ∀ u ∈ db.allTables,
    (db.object t).id = (db.object u).id → t = u

private theorem enters_iff {db : Database} {s : SchemaRef} {kind : ObjectKind} {o : ObjectRef} :
    db.Enters s kind o ↔ (db.object o).kind = kind ∧ (db.object o).schema = some s :=
  ⟨fun h => ⟨h.kind, h.schema⟩, fun h => ⟨h.1, h.2⟩⟩

instance (db : Database) (s : SchemaRef) (kind : ObjectKind) (o : ObjectRef) :
    Decidable (db.Enters s kind o) :=
  decidable_of_iff' _ enters_iff

private theorem consistent_iff {db : Database} : db.Consistent ↔
    (db.schemas.Keyed fun s => (db.schema s).name) ∧
      (∀ s ∈ db.allSchemas, ∀ kind ∈ ObjectKind.all, (db.space s kind).Keyed db.nameOf) ∧
      (∀ s ∈ db.allSchemas, ∀ kind ∈ ObjectKind.all, ∀ o ∈ (db.space s kind).values,
        db.Enters s kind o) ∧
      ∀ t ∈ db.allTables, ∀ u ∈ db.allTables, (db.object t).id = (db.object u).id → t = u := by
  have hall : ∀ kind : ObjectKind, kind ∈ ObjectKind.all := by
    intro kind
    cases kind <;> decide
  constructor
  · intro h
    exact ⟨h.schemas, fun s hs kind _ => h.keyed s hs kind, fun s hs kind _ => h.enters s hs kind,
      h.tableIds⟩
  · rintro ⟨hschemas, hkeyed, henters, hids⟩
    exact ⟨hschemas, fun s hs kind => hkeyed s hs kind (hall kind),
      fun s hs kind => henters s hs kind (hall kind), hids⟩

instance (db : Database) : Decidable db.Consistent :=
  decidable_of_iff' _ consistent_iff

/-- The schema keeps every object under the name that the object has now, among its kind. -/
structure Filed (db : Database) (s : SchemaRef) : Prop where
  keyed : ∀ kind, (db.space s kind).Keyed db.nameOf
  kinds : ∀ kind, ∀ o ∈ (db.space s kind).values, (db.object o).kind = kind

theorem Filed.mem_of_holds {db : Database} {s : SchemaRef} {o : ObjectRef} (h : db.Filed s)
    (ho : db.Holds s o) : o ∈ (db.space s (db.object o).kind).values := by
  obtain ⟨kind, ho⟩ := ho
  rwa [h.kinds kind o ho]

/-- The schema keeps every object under its own name, among its kind, and each refers to it. -/
structure InOrder (db : Database) (s : SchemaRef) : Prop where
  keyed : ∀ kind, (db.space s kind).Keyed db.nameOf
  enters : ∀ kind, ∀ o ∈ (db.space s kind).values, db.Enters s kind o

namespace InOrder

variable {db db' : Database} {s : SchemaRef} {o other : ObjectRef} {kind : ObjectKind}

theorem kind_of_mem (h : db.InOrder s) (ho : o ∈ (db.space s kind).values) :
    (db.object o).kind = kind :=
  (h.enters kind o ho).kind

theorem filed (h : db.InOrder s) : db.Filed s :=
  ⟨h.keyed, fun _ _ ho => h.kind_of_mem ho⟩

theorem mem_of_holds (h : db.InOrder s) (ho : db.Holds s o) :
    o ∈ (db.space s (db.object o).kind).values :=
  h.filed.mem_of_holds ho

/-- Only the registry of the schema and the objects in it matter. -/
theorem congr (h : db.InOrder s) (hspace : ∀ kind, db'.space s kind = db.space s kind)
    (hname : ∀ o, db.Holds s o → db'.nameOf o = db.nameOf o)
    (henters : ∀ o, db.Holds s o → ∀ kind, db.Enters s kind o → db'.Enters s kind o) :
    db'.InOrder s where
  keyed := by
    intro kind
    rw [hspace]
    exact (h.keyed kind).congr fun o ho => hname o ⟨kind, ho⟩
  enters := by
    intro kind o ho
    rw [hspace] at ho
    exact henters o ⟨kind, ho⟩ kind (h.enters kind o ho)

/-- No object is listed twice, neither in one name space nor in two. -/
theorem nodup_all (h : db.InOrder s) : (db.schema s).registry.all.Nodup := by
  have hnodup : ∀ kind, (db.space s kind).values.Nodup := fun kind => (h.keyed kind).nodup_values
  have hapart : ∀ kind kind', kind ≠ kind' → ∀ o ∈ (db.space s kind).values,
      ∀ o' ∈ (db.space s kind').values, o ≠ o' := by
    rintro kind kind' hne o ho o' ho' rfl
    exact hne ((h.kind_of_mem ho).symm.trans (h.kind_of_mem ho'))
  change ((db.space s .tableOrView).values ++ (db.space s .sequence).values ++
    (db.space s .index).values ++ (db.space s .constant).values ++
    (db.space s .functionAlias).values).Nodup
  simp only [List.nodup_append, List.mem_append, hnodup, true_and]
  grind

end InOrder

section Registered

variable {db : Database} {s r : SchemaRef} {o : ObjectRef} {kind : ObjectKind}

theorem Consistent.inOrder (h : db.Consistent) (hs : s ∈ db.allSchemas) : db.InOrder s :=
  ⟨h.keyed s hs, h.enters s hs⟩

theorem mem_allSchemas_of_find {name : String} (h : db.findSchema name = some s) :
    s ∈ db.allSchemas :=
  NameMap.mem_values_of_get? h

theorem Consistent.kind_of_mem (h : db.Consistent) (hs : s ∈ db.allSchemas)
    (ho : o ∈ (db.space s kind).values) : (db.object o).kind = kind :=
  (h.enters s hs kind o ho).kind

theorem Consistent.schema_of_mem (h : db.Consistent) (hs : s ∈ db.allSchemas)
    (ho : o ∈ (db.space s kind).values) : (db.object o).schema = some s :=
  (h.enters s hs kind o ho).schema

theorem Consistent.get?_of_mem (h : db.Consistent) (hs : s ∈ db.allSchemas)
    (ho : o ∈ (db.space s kind).values) : (db.space s kind).get? (db.nameOf o) = some o :=
  (h.keyed s hs kind).mem_values_iff.mp ho

theorem Consistent.holds_iff (h : db.Consistent) (hs : s ∈ db.allSchemas) :
    db.Holds s o ↔ o ∈ (db.space s (db.object o).kind).values :=
  ⟨(h.inOrder hs).mem_of_holds, fun ho => ⟨_, ho⟩⟩

/-- An object is registered in one schema at most. -/
theorem Consistent.schema_eq (h : db.Consistent) (hs : s ∈ db.allSchemas) (hr : r ∈ db.allSchemas)
    (ho : db.Holds s o) (ho' : db.Holds r o) : s = r := by
  obtain ⟨kind, ho⟩ := ho
  obtain ⟨kind', ho'⟩ := ho'
  have hsome := (h.schema_of_mem hs ho).symm.trans (h.schema_of_mem hr ho')
  exact Option.some.inj hsome

end Registered

section Lookups

variable {db : Database} {s : SchemaRef} {o t : ObjectRef} {name : String} {kind : ObjectKind}

theorem activeRegistry_eq (h : (db.schema s).state = .active) :
    s.activeRegistry db = .ok (db.schema s).registry := by
  simp [SchemaRef.activeRegistry, Schema.activeRegistry, h]

theorem activeRegistry_of_invalid (h : (db.schema s).state = .invalid) :
    s.activeRegistry db = .error (.schemaInvalid (db.schema s).name) := by
  rw [SchemaRef.activeRegistry, Schema.activeRegistry, h]

theorem activeRegistry_eq_ok_iff {registry : Registry} : s.activeRegistry db = .ok registry ↔
    (db.schema s).state = .active ∧ registry = (db.schema s).registry := by
  rw [SchemaRef.activeRegistry, Schema.activeRegistry, @eq_comm _ registry]
  cases (db.schema s).state <;> simp

theorem findObject_eq (h : (db.schema s).state = .active) :
    s.findObject kind name db = .ok ((db.space s kind).get? name) :=
  look_bind_of_ok (activeRegistry_eq h)

/-- A table is looked for in the schema first and then in the session. -/
theorem findTable_eq (h : (db.schema s).state = .active) (session : Option SessionRef)
    (name : String) : s.findTable session name db = .ok (((db.space s .tableOrView).get? name).or
      (session.bind fun c => (db.session c).tempTables.get? name)) := by
  rw [SchemaRef.findTable, read_bind_run, look_bind_of_ok (findObject_eq h)]
  cases (db.space s .tableOrView).get? name <;> rfl

theorem findIndex_eq (h : (db.schema s).state = .active) (session : Option SessionRef)
    (name : String) : s.findIndex session name db = .ok (((db.space s .index).get? name).or
      (session.bind fun c => (db.session c).tempIndexes.get? name)) := by
  rw [SchemaRef.findIndex, read_bind_run, look_bind_of_ok (findObject_eq h)]
  cases (db.space s .index).get? name <;> rfl

theorem findObject_of_invalid (h : (db.schema s).state = .invalid) (kind : ObjectKind)
    (name : String) : s.findObject kind name db = .error (.schemaInvalid (db.schema s).name) :=
  look_bind_of_error (activeRegistry_of_invalid h)

/-- The temporary tables of a session are not looked through for an invalid schema. -/
theorem findTable_of_invalid (h : (db.schema s).state = .invalid) (session : Option SessionRef)
    (name : String) : s.findTable session name db = .error (.schemaInvalid (db.schema s).name) := by
  rw [SchemaRef.findTable, read_bind_run]
  exact look_bind_of_error (findObject_of_invalid h _ name)

theorem findIndex_of_invalid (h : (db.schema s).state = .invalid) (session : Option SessionRef)
    (name : String) : s.findIndex session name db = .error (.schemaInvalid (db.schema s).name) := by
  rw [SchemaRef.findIndex, read_bind_run]
  exact look_bind_of_error (findObject_of_invalid h _ name)

theorem objectsOf_eq (h : (db.schema s).state = .active) :
    s.objectsOf kind db = .ok (db.space s kind).values :=
  look_bind_of_ok (activeRegistry_eq h)

theorem tablesIn_of_active (h : (db.schema s).state = .active) :
    db.tablesIn s = (db.space s .tableOrView).values := by
  rw [tablesIn, SchemaRef.tables, objectsOf_eq h]

theorem active_of_mem_tablesIn (h : t ∈ db.tablesIn s) : (db.schema s).state = .active := by
  cases hstate : (db.schema s).state with
  | active => rfl
  | invalid =>
    have herror : s.tables db = .error (.schemaInvalid (db.schema s).name) :=
      look_bind_of_error (activeRegistry_of_invalid hstate)
    simp [tablesIn, herror] at h

/-- Only an active schema shows tables. -/
theorem mem_tablesIn :
    t ∈ db.tablesIn s ↔ (db.schema s).state = .active ∧ t ∈ (db.space s .tableOrView).values := by
  constructor
  · intro h
    have hactive := active_of_mem_tablesIn h
    exact ⟨hactive, tablesIn_of_active hactive ▸ h⟩
  · rintro ⟨hactive, h⟩
    rwa [tablesIn_of_active hactive]

theorem mem_allTables : t ∈ db.allTables ↔ ∃ s ∈ db.allSchemas, t ∈ db.tablesIn s := by
  simp [allTables]

theorem schemaOf_eq (hs : s ∈ db.allSchemas) (ho : (db.object o).schema = some s) :
    schemaOf o db = .ok s := by
  rw [schemaOf, read_bind_run]
  simp only [ho]
  rw [if_pos (by simpa using hs)]
  rfl

theorem schemaOf_eq_ok_iff :
    schemaOf o db = .ok s ↔ (db.object o).schema = some s ∧ s ∈ db.allSchemas := by
  refine ⟨fun h => ?_, fun ⟨ho, hs⟩ => schemaOf_eq hs ho⟩
  rw [schemaOf, read_bind_run] at h
  cases hschema : (db.object o).schema with
  | none => simp only [hschema] at h; cases h
  | some r =>
    simp only [hschema] at h
    split at h
    next hr =>
      cases h
      exact ⟨rfl, by simpa using hr⟩
    next => cases h

end Lookups

section Updates

variable {db db' : Database} {s : SchemaRef} {o : ObjectRef} {e : CatalogError}
  {check : Database → Registry → Except CatalogError Registry}
  {change : Database → Registry → Database}

/-- Check the registry of an active schema and then make a change. -/
def guarded (s : SchemaRef) (check : Database → Registry → Except CatalogError Registry)
    (change : Database → Registry → Database) : CatalogM Unit := do
  let registry ← s.activeRegistry
  let db ← get
  match check db registry with
  | .error e => throw e
  | .ok registry => set (change db registry)

theorem guarded_of_active (h : (db.schema s).state = .active) :
    guarded s check change db = match check db (db.schema s).registry with
      | .error e => .error e db
      | .ok registry => .ok () (change db registry) := by
  rw [guarded, bind_of_ok (lift_of_ok (activeRegistry_eq h)), get_bind_run]
  cases check db (db.schema s).registry <;> rfl

theorem guarded_of_invalid (h : (db.schema s).state = .invalid) :
    guarded s check change db = .error (.schemaInvalid (db.schema s).name) db :=
  bind_of_error (lift_of_error (activeRegistry_of_invalid h))

theorem guarded_eq_ok_iff : guarded s check change db = .ok () db' ↔
    (db.schema s).state = .active ∧
      ∃ registry, check db (db.schema s).registry = .ok registry ∧ db' = change db registry := by
  cases hstate : (db.schema s).state with
  | active =>
    rw [guarded_of_active hstate]
    cases check db (db.schema s).registry <;> simp [eq_comm]
  | invalid => simp [guarded_of_invalid hstate]

/-- A change that is refused is not begun. -/
theorem eq_of_guarded_eq_error (h : guarded s check change db = .error e db') : db' = db := by
  cases hstate : (db.schema s).state with
  | active =>
    rw [guarded_of_active hstate] at h
    split at h <;> cases h
    rfl
  | invalid =>
    rw [guarded_of_invalid hstate] at h
    cases h
    rfl

theorem add_eq_guarded (s : SchemaRef) (o : ObjectRef) : s.add o =
    guarded s (fun db registry => registry.add s o (db.object o)) fun db registry =>
      db.modifySchema s fun schema => { schema.freeName (db.nameOf o) with registry } := rfl

theorem rename_eq_guarded (s : SchemaRef) (o : ObjectRef) (newName : String) : s.rename o newName =
    guarded s (fun db registry => registry.rename o (db.object o) newName) fun db registry =>
      (db.modifyObject o (Object.rename newName)).modifySchema s fun schema =>
        { (schema.freeName (db.nameOf o)).freeName newName with registry } := rfl

theorem remove_eq_guarded (s : SchemaRef) (o : ObjectRef) : s.remove o =
    guarded s (fun db registry => registry.remove o (db.object o)) fun db registry =>
      db.modifySchema s fun schema => { schema.freeName (db.nameOf o) with registry } := rfl

end Updates

end SchemaCatalog.Database
