import SchemaCatalog.Proofs.Consistency
/-!
# Detaching objects

What is left of a database when objects are struck out of a schema and cut off from it. A detached
object keeps its place and its contents, so the tables that it reads and that read it stay the same.
-/
namespace SchemaCatalog.Database

/-- The database with one object struck out of a schema and cut off from it. -/
def detached (s : SchemaRef) (db : Database) (o : ObjectRef) : Database :=
  (db.modifySchema s fun schema =>
    { schema.freeName (db.nameOf o) with
      registry := schema.registry.modifySpace (db.object o).kind (·.erase (db.nameOf o)) }
    ).modifyObject o Object.invalidate

/-- The database with one object struck out of a schema, to which it still refers. -/
def struckOut (s : SchemaRef) (o : ObjectRef) (db : Database) : Database :=
  db.modifySchema s fun schema => { schema.freeName (db.nameOf o) with
    registry := schema.registry.modifySpace (db.object o).kind (·.erase (db.nameOf o)) }

theorem remove_eq_ok_iff {db db' : Database} {s : SchemaRef} {o : ObjectRef} :
    s.remove o db = .ok () db' ↔ (db.schema s).state = .active ∧
      (db.space s (db.object o).kind).get? (db.nameOf o) = some o ∧ db' = struckOut s o db := by
  have hchange : db.modifySchema s (fun schema => { schema.freeName (db.nameOf o) with
      registry := (db.schema s).registry.modifySpace (db.object o).kind
        (·.erase (db.nameOf o)) }) = struckOut s o db := modifySchema_congr rfl
  simp only [remove_eq_guarded, guarded_eq_ok_iff, Registry.remove_eq_ok_iff, ← hchange]
  constructor
  · rintro ⟨hactive, registry, ⟨hlive, rfl⟩, rfl⟩
    exact ⟨hactive, hlive, rfl⟩
  · rintro ⟨hactive, hlive, rfl⟩
    exact ⟨hactive, _, ⟨hlive, rfl⟩, rfl⟩

/-- The error for an object that a schema does not keep: nothing has its name there, or another
object has. -/
def absence (db : Database) (s : SchemaRef) (o : ObjectRef) : CatalogError :=
  let name := db.nameOf o
  .internalInvariant <|
    if (db.space s (db.object o).kind).get? name = none then s!"not found: {name}"
    else (db.object o).title ++ " is a different object"

theorem remove_of_absent {db : Database} {s : SchemaRef} {o : ObjectRef}
    (hactive : (db.schema s).state = .active) (habsent : ¬ db.Holds s o) :
    s.remove o db = .error (db.absence s o) db := by
  have hremove : (db.schema s).registry.remove o (db.object o) = .error (db.absence s o) := by
    have hfind : (db.schema s).registry.find? (db.object o).kind (db.object o).name =
        (db.space s (db.object o).kind).get? (db.nameOf o) := rfl
    simp only [Registry.remove, hfind, absence]
    cases hget : (db.space s (db.object o).kind).get? (db.nameOf o) with
    | none => rfl
    | some entry =>
      have hne : entry ≠ o := by
        rintro rfl
        exact habsent ⟨_, NameMap.mem_values_of_get? hget⟩
      simp [hne]
  rw [remove_eq_guarded, guarded_of_active hactive, hremove]

theorem space_struckOut (s r : SchemaRef) (o : ObjectRef) (db : Database) (kind : ObjectKind) :
    (struckOut s o db).space r kind =
      if r = s ∧ kind = (db.object o).kind then (db.space s kind).erase (db.nameOf o)
      else db.space r kind :=
  space_modifySchema (db.object o).kind (·.erase (db.nameOf o)) r kind rfl

theorem Filed.mem_space_struckOut {db : Database} {s : SchemaRef} {o other : ObjectRef}
    {kind : ObjectKind} (h : db.Filed s) (ho : db.Holds s o) :
    other ∈ ((struckOut s o db).space s kind).values ↔
      other ∈ (db.space s kind).values ∧ other ≠ o := by
  have hmem := h.mem_of_holds ho
  rw [space_struckOut]
  by_cases hkind : kind = (db.object o).kind
  · subst hkind
    rw [if_pos ⟨rfl, rfl⟩, (h.keyed _).mem_values_erase hmem]
  · rw [if_neg fun heq => hkind heq.2]
    refine ⟨fun hother => ⟨hother, ?_⟩, fun hother => hother.1⟩
    rintro rfl
    exact hkind (h.kinds kind other hother).symm

private theorem Filed.struckOut {db : Database} {s : SchemaRef} {o : ObjectRef} (h : db.Filed s)
    (ho : db.Holds s o) : (struckOut s o db).Filed s where
  keyed := by
    intro kind
    rw [space_struckOut]
    split
    · exact (h.keyed kind).erase _
    · exact h.keyed kind
  kinds := fun kind other hother => h.kinds kind other ((h.mem_space_struckOut ho).mp hother).1

theorem InOrder.struckOut {db : Database} {s : SchemaRef} {o : ObjectRef} (h : db.InOrder s)
    (ho : db.Holds s o) : (struckOut s o db).InOrder s where
  keyed := (h.filed.struckOut ho).keyed
  enters := by
    intro kind other hother
    have henters := h.enters kind other ((h.filed.mem_space_struckOut ho).mp hother).1
    exact ⟨henters.kind, henters.schema⟩

/-- The database with several objects detached, one after the other. -/
def detachedAll (s : SchemaRef) (objects : List ObjectRef) (db : Database) : Database :=
  objects.foldl (detached s) db

section One

variable (s r : SchemaRef) (db : Database) (o other : ObjectRef) (c : SessionRef)

theorem object_detached : (detached s db o).object other =
    if other = o then (db.object o).invalidate else db.object other := by
  rw [detached, object_modifyObject]
  rfl

theorem schema_detached : (detached s db o).schema r =
    if r = s then { (db.schema s).freeName (db.nameOf o) with
      registry := (db.schema s).registry.modifySpace (db.object o).kind (·.erase (db.nameOf o)) }
    else db.schema r := by
  rw [detached, schema_modifyObject, schema_modifySchema]

@[simp] theorem kind_detached : ((detached s db o).object other).kind = (db.object other).kind :=
  field_modifyObject Object.kind other (Object.kind_invalidate _)

@[simp] theorem nameOf_detached : (detached s db o).nameOf other = db.nameOf other :=
  field_modifyObject Object.name other rfl

@[simp] theorem id_detached : ((detached s db o).object other).id = (db.object other).id :=
  field_modifyObject Object.id other rfl

@[simp] theorem state_detached : ((detached s db o).schema r).state = (db.schema r).state :=
  field_modifySchema Schema.state r rfl

theorem space_detached (kind : ObjectKind) : (detached s db o).space r kind =
    if r = s ∧ kind = (db.object o).kind then (db.space s kind).erase (db.nameOf o)
    else db.space r kind :=
  space_struckOut s r o db kind

private theorem mem_space_of_detached {kind : ObjectKind}
    (h : other ∈ ((detached s db o).space r kind).values) : other ∈ (db.space r kind).values := by
  rw [space_detached] at h
  split at h
  next heq =>
    obtain ⟨rfl, -⟩ := heq
    exact NameMap.mem_values_of_mem_erase h
  next => exact h

end One

section Consistent

variable {db : Database} {s r : SchemaRef} {o : ObjectRef}

private theorem Filed.detached (h : db.Filed s) (ho : db.Holds s o) :
    (detached s db o).Filed s where
  keyed := fun kind => ((h.struckOut ho).keyed kind).congr fun other _ =>
    nameOf_detached s db o other
  kinds := fun kind other hother =>
    (kind_detached s db o other).trans ((h.struckOut ho).kinds kind other hother)

private theorem Filed.mem_space_detached (h : db.Filed s) (ho : db.Holds s o) {kind : ObjectKind}
    {other : ObjectRef} : other ∈ ((Database.detached s db o).space s kind).values ↔
      other ∈ (db.space s kind).values ∧ other ≠ o :=
  h.mem_space_struckOut ho

private theorem Filed.holds_detached (h : db.Filed s) (ho : db.Holds s o) {other : ObjectRef}
    (hother : db.Holds s other) (hne : other ≠ o) : (Database.detached s db o).Holds s other := by
  obtain ⟨kind, hkind⟩ := hother
  exact ⟨kind, (h.mem_space_detached ho).mpr ⟨hkind, hne⟩⟩

private theorem mem_tablesIn_of_detached {t : ObjectRef} (ht : t ∈ (detached s db o).tablesIn r) :
    t ∈ db.tablesIn r := by
  obtain ⟨hactive, ht⟩ := mem_tablesIn.mp ht
  exact mem_tablesIn.mpr ⟨by simpa using hactive, mem_space_of_detached s r db o t ht⟩

private theorem mem_allTables_of_detached {t : ObjectRef} (ht : t ∈ (detached s db o).allTables) :
    t ∈ db.allTables := by
  obtain ⟨r, hr, ht⟩ := mem_allTables.mp ht
  exact mem_allTables.mpr ⟨r, hr, mem_tablesIn_of_detached ht⟩

/-- Consistency does not depend on the objects that are gone. -/
private theorem consistent_detached (h : db.Consistent) (hs : s ∈ db.allSchemas)
    (ho : db.Holds s o) :
    (detached s db o).Consistent where
  schemas := h.schemas.congr fun r _ => field_modifySchema Schema.name r rfl
  keyed := by
    intro r hr kind
    have hnames : (detached s db o).nameOf = db.nameOf := by
      funext other
      simp
    rw [hnames, space_detached]
    split
    next heq => exact (h.keyed s hs kind).erase _
    next => exact h.keyed r hr kind
  enters := by
    intro r hr kind other hother
    have hmem := mem_space_of_detached s r db o other hother
    refine ⟨by simpa using h.kind_of_mem hr hmem, ?_⟩
    rw [object_detached, if_neg, h.schema_of_mem hr hmem]
    rintro rfl
    obtain rfl := h.schema_eq hs hr ho ⟨kind, hmem⟩
    exact (((h.inOrder hs).filed.mem_space_detached ho).mp hother).2 rfl
  tableIds := by
    intro t ht u hu hid
    rw [id_detached, id_detached] at hid
    exact h.tableIds t (mem_allTables_of_detached ht) u (mem_allTables_of_detached hu) hid

theorem detach_eq (hactive : (db.schema s).state = .active)
    (ho : (db.space s (db.object o).kind).get? (db.nameOf o) = some o) :
    s.detach o db = .ok () (detached s db o) := by
  have hrun : s.remove o db = .ok () (struckOut s o db) :=
    remove_eq_ok_iff.mpr ⟨hactive, ho, rfl⟩
  rw [SchemaRef.detach, bind_of_ok hrun]
  rfl

theorem Filed.detach_eq (h : db.Filed s) (hactive : (db.schema s).state = .active)
    (ho : db.Holds s o) : s.detach o db = .ok () (Database.detached s db o) :=
  Database.detach_eq hactive ((h.keyed _).mem_values_iff.mp (h.mem_of_holds ho))

theorem InOrder.detachObject_eq (h : db.InOrder s) (hs : s ∈ db.allSchemas)
    (hactive : (db.schema s).state = .active) (ho : db.Holds s o) :
    detachObject o db = .ok () (Database.detached s db o) := by
  have howner := (h.enters _ o (h.mem_of_holds ho)).schema
  rw [detachObject, bind_of_ok (lift_of_ok (schemaOf_eq hs howner))]
  exact h.filed.detach_eq hactive ho

end Consistent

section Several

variable {db : Database} {s r : SchemaRef} {objects : List ObjectRef}

theorem detachedAll_append (s : SchemaRef) (first second : List ObjectRef) (db : Database) :
    detachedAll s (first ++ second) db = detachedAll s second (detachedAll s first db) :=
  List.foldl_append

theorem object_detachedAll (s : SchemaRef) (objects : List ObjectRef) (db : Database)
    (other : ObjectRef) : (detachedAll s objects db).object other =
      if other ∈ objects then (db.object other).invalidate else db.object other := by
  induction objects generalizing db with
  | nil => simp [detachedAll]
  | cons o objects ih =>
    change (detachedAll s objects (detached s db o)).object other = _
    rw [ih, object_detached]
    by_cases hother : other = o
    · subst hother
      by_cases hmem : other ∈ objects <;> simp [hmem, Object.invalidate]
    · simp [hother]

theorem schema_detachedAll_of_ne (objects : List ObjectRef) (db : Database) (h : r ≠ s) :
    (detachedAll s objects db).schema r = db.schema r := by
  induction objects generalizing db with
  | nil => rfl
  | cons o objects ih =>
    change (detachedAll s objects (detached s db o)).schema r = _
    rw [ih, schema_detached, if_neg h]

/-- What detaching leaves of the database as it was, besides the registry and the reserved names of
the schema and the objects themselves. -/
structure Frame (s : SchemaRef) (db db' : Database) : Prop where
  objectCount : db'.objectStore.next = db.objectStore.next
  schemaCount : db'.schemaStore.next = db.schemaStore.next
  schema : db'.schema s =
    { db.schema s with
      registry := (db'.schema s).registry, reservations := (db'.schema s).reservations }
  rest : db' = { db with objectStore := db'.objectStore, schemaStore := db'.schemaStore }

theorem frame_detachedAll (s : SchemaRef) (objects : List ObjectRef) (db : Database) :
    Frame s db (detachedAll s objects db) := by
  induction objects generalizing db with
  | nil => exact ⟨rfl, rfl, rfl, rfl⟩
  | cons o objects ih =>
    have h := ih (detached s db o)
    refine ⟨h.objectCount, h.schemaCount, ?_, h.rest⟩
    have hschema := h.schema
    rw [schema_detached, if_pos rfl] at hschema
    exact hschema

theorem schemas_detachedAll (s : SchemaRef) (objects : List ObjectRef) (db : Database) :
    (detachedAll s objects db).schemas = db.schemas := by
  rw [(frame_detachedAll s objects db).rest]

theorem nextId_detachedAll (s : SchemaRef) (objects : List ObjectRef) (db : Database) :
    (detachedAll s objects db).nextId = db.nextId := by
  rw [(frame_detachedAll s objects db).rest]

/-- Objects of other kinds are all left where they are. -/
theorem space_detachedAll_of_kind {kind : ObjectKind}
    (hkinds : ∀ o ∈ objects, (db.object o).kind ≠ kind) :
    (detachedAll s objects db).space r kind = db.space r kind := by
  induction objects generalizing db with
  | nil => rfl
  | cons o objects ih =>
    obtain ⟨hkind, hkinds⟩ := List.forall_mem_cons.mp hkinds
    change (detachedAll s objects (detached s db o)).space r kind = _
    rw [ih fun o' ho' => (kind_detached s db o o').trans_ne (hkinds o' ho'), space_detached,
      if_neg fun heq => hkind heq.2.symm]

theorem mem_space_of_detachedAll {kind : ObjectKind} {other : ObjectRef}
    (h : other ∈ ((detachedAll s objects db).space r kind).values) :
    other ∈ (db.space r kind).values := by
  induction objects generalizing db with
  | nil => exact h
  | cons o objects ih => exact mem_space_of_detached s r db o other (ih h)

/-- Detaching objects of a schema strikes out just them and leaves the others in their places. -/
theorem Filed.detachedAll (h : db.Filed s) (hobjects : ∀ o ∈ objects, db.Holds s o)
    (hnodup : objects.Nodup) : (detachedAll s objects db).Filed s ∧ ∀ kind other,
      other ∈ ((Database.detachedAll s objects db).space s kind).values ↔
        other ∈ (db.space s kind).values ∧ other ∉ objects := by
  induction objects generalizing db with
  | nil => exact ⟨h, fun kind other => by simp [Database.detachedAll]⟩
  | cons o objects ih =>
    obtain ⟨ho, hobjects⟩ := List.forall_mem_cons.mp hobjects
    obtain ⟨hnot, hnodup⟩ := List.nodup_cons.mp hnodup
    have hholds : ∀ o' ∈ objects, (Database.detached s db o).Holds s o' := fun o' ho' =>
      h.holds_detached ho (hobjects o' ho') fun heq => hnot (heq ▸ ho')
    obtain ⟨hfiled, hmem⟩ := ih (h.detached ho) hholds hnodup
    refine ⟨hfiled, fun kind other => ?_⟩
    change other ∈ ((Database.detachedAll s objects (Database.detached s db o)).space s kind).values
      ↔ _
    rw [hmem, h.mem_space_detached ho, List.mem_cons, not_or, and_assoc]

theorem InOrder.detachedAll (h : db.InOrder s) (hobjects : ∀ o ∈ objects, db.Holds s o)
    (hnodup : objects.Nodup) : (detachedAll s objects db).InOrder s ∧ ∀ kind other,
      other ∈ ((Database.detachedAll s objects db).space s kind).values ↔
        other ∈ (db.space s kind).values ∧ other ∉ objects := by
  obtain ⟨hfiled, hmem⟩ := h.filed.detachedAll hobjects hnodup
  refine ⟨⟨hfiled.keyed, fun kind other hother => ?_⟩, hmem⟩
  obtain ⟨hold, hstays⟩ := (hmem kind other).mp hother
  refine ⟨hfiled.kinds kind other hother, ?_⟩
  rw [object_detachedAll, if_neg hstays]
  exact (h.enters kind other hold).schema

/-- Detaching registered objects keeps a database consistent. -/
theorem consistent_detachedAll (h : db.Consistent) (hs : s ∈ db.allSchemas)
    (hobjects : ∀ o ∈ objects, db.Holds s o) (hnodup : objects.Nodup) :
    (detachedAll s objects db).Consistent := by
  induction objects generalizing db with
  | nil => exact h
  | cons o objects ih =>
    obtain ⟨ho, hobjects⟩ := List.forall_mem_cons.mp hobjects
    obtain ⟨hnot, hnodup⟩ := List.nodup_cons.mp hnodup
    have hholds : ∀ o' ∈ objects, (detached s db o).Holds s o' := fun o' ho' =>
      (h.inOrder hs).filed.holds_detached ho (hobjects o' ho') fun heq => hnot (heq ▸ ho')
    exact ih (consistent_detached h hs ho) hs hholds hnodup

theorem Filed.forM_detach (h : db.Filed s) (hactive : (db.schema s).state = .active)
    (hobjects : ∀ o ∈ objects, db.Holds s o) (hnodup : objects.Nodup) :
    objects.forM s.detach db = .ok () (Database.detachedAll s objects db) := by
  induction objects generalizing db with
  | nil => rfl
  | cons o objects ih =>
    obtain ⟨ho, hobjects⟩ := List.forall_mem_cons.mp hobjects
    obtain ⟨hnot, hnodup⟩ := List.nodup_cons.mp hnodup
    have hholds : ∀ o' ∈ objects, (Database.detached s db o).Holds s o' := fun o' ho' =>
      h.holds_detached ho (hobjects o' ho') fun heq => hnot (heq ▸ ho')
    change (s.detach o >>= fun _ => objects.forM s.detach) db = _
    rw [bind_of_ok (h.detach_eq hactive ho)]
    exact ih (h.detached ho) (by simpa using hactive) hholds hnodup

end Several

end SchemaCatalog.Database
