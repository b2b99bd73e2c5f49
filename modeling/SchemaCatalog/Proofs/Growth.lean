import SchemaCatalog.Proofs.WellFormed
/-!
# Growing databases

New objects and schemas, their registration in a schema or a session, and new names for registered
objects. Each keeps a database well-formed, as long as ids do not repeat.
-/
namespace SchemaCatalog.Database

section Object

variable {db : Database} {s r : SchemaRef} {o other : ObjectRef} {name : String} {body : ObjectBody}

/-- The place of the next object. -/
def nextObject (db : Database) : ObjectRef :=
  ⟨db.objectStore.next⟩

/-- The database with a new object of a schema, which is not registered. -/
def withObject (s : SchemaRef) (name : String) (body : ObjectBody) (db : Database) : Database :=
  (db.allocateId.2.newObject { id := db.allocateId.1, name, schema := some s, body }).2

theorem object_withObject : (db.withObject s name body).object other =
    if other = db.nextObject then
      { id := UInt32.ofNat db.nextId, name, schema := some s, body }
    else db.object other := by
  obtain ⟨slot⟩ := other
  simp only [object, withObject, newObject, allocateId, Store.get_push, nextObject,
    ObjectRef.mk.injEq]

theorem object_nextObject : (db.withObject s name body).object db.nextObject =
    { id := UInt32.ofNat db.nextId, name, schema := some s, body } := by
  rw [object_withObject, if_pos rfl]

theorem object_withObject_of_lt (s : SchemaRef) (name : String) (body : ObjectBody)
    (h : other.slot < db.objectStore.next) :
    (db.withObject s name body).object other = db.object other := by
  rw [object_withObject, if_neg]
  rintro rfl
  exact Nat.lt_irrefl _ h

theorem lt_of_lt_withObject (h : other.slot < (db.withObject s name body).objectStore.next)
    (hne : other ≠ db.nextObject) : other.slot < db.objectStore.next := by
  have hle : other.slot < db.objectStore.next + 1 := h
  have hslot : other.slot ≠ db.objectStore.next := fun heq => hne (by
    obtain ⟨slot⟩ := other
    exact congrArg ObjectRef.mk heq)
  omega

theorem id_nextObject (hid : db.nextId < UInt32.size) :
    ((db.withObject s name body).object db.nextObject).id.toNat = db.nextId := by
  rw [object_nextObject]
  exact UInt32.toNat_ofNat_of_lt' hid

theorem same_withObject_of_lt (s : SchemaRef) (name : String) (body : ObjectBody)
    (h : other.slot < db.objectStore.next) :
    Same db (db.withObject s name body) other :=
  .of_eq (object_withObject_of_lt s name body h)

private theorem WellFormed.consistent_withObject (h : db.WellFormed) :
    (db.withObject s name body).Consistent where
  schemas := h.schemas
  keyed := by
    intro r hr kind
    apply (h.keyed r hr kind).congr
    intro o ho
    exact (same_withObject_of_lt _ _ _ (h.slots o (registered_of_mem hr ho))).name
  enters := by
    intro r hr kind o ho
    have hold := object_withObject_of_lt s name body
      (h.slots o (registered_of_mem hr ho))
    have henters := h.enters r hr kind o ho
    exact ⟨by rw [hold, henters.kind], by rw [hold, henters.schema]⟩
  tableIds := by
    intro t ht u hu hid
    rw [(same_withObject_of_lt _ _ _ (h.slots t (registered_of_mem_allTables ht))).id,
      (same_withObject_of_lt _ _ _ (h.slots u (registered_of_mem_allTables hu))).id] at hid
    exact h.tableIds t ht u hu hid

theorem WellFormed.withObject (h : db.WellFormed) (hid : db.nextId < UInt32.size) :
    (db.withObject s name body).WellFormed where
  toConsistent := h.consistent_withObject
  active := h.active
  schemaSlots := h.schemaSlots
  slots := fun o ho => Nat.lt_succ_of_lt (h.slots o ho)
  permanent := by
    intro t ht
    rw [(same_withObject_of_lt _ _ _ (h.slots t (registered_of_mem_allTables ht))).isLocalTemporary]
    exact h.permanent t ht
  keptSlots := fun c o ho => Nat.lt_succ_of_lt (h.keptSlots c o ho)
  apart := h.apart
  tempKeyed := by
    intro c
    apply (h.tempKeyed c).congr
    intro t ht
    exact (same_withObject_of_lt _ _ _ (h.keptSlots c t (.inl ht))).name
  tempTables := by
    intro c t ht
    have hsame := same_withObject_of_lt s name body
      (h.keptSlots c t (.inl ht))
    rw [hsame.kind, hsame.isLocalTemporary]
    exact h.tempTables c t ht
  ids := by
    intro o ho
    change _ < db.nextId + 1
    by_cases hnew : o = db.nextObject
    · rw [hnew, id_nextObject hid]
      exact Nat.lt_succ_self _
    · have hlt := lt_of_lt_withObject ho hnew
      rw [(same_withObject_of_lt _ _ _ hlt).id]
      exact Nat.lt_succ_of_lt (h.ids o hlt)
  distinct := by
    -- the new id is larger than every id given out before
    have hfresh : ∀ o : ObjectRef, o.slot < db.objectStore.next →
        ((db.withObject s name body).object o).id ≠
          ((db.withObject s name body).object db.nextObject).id := by
      intro o ho heq
      have htoNat := congrArg UInt32.toNat heq
      rw [(same_withObject_of_lt _ _ _ ho).id, id_nextObject hid] at htoNat
      exact Nat.ne_of_lt (h.ids o ho) htoNat
    intro o o' ho ho' heq
    by_cases hnew : o = db.nextObject
    · by_cases hnew' : o' = db.nextObject
      · rw [hnew, hnew']
      · rw [hnew] at heq
        exact absurd heq.symm (hfresh o' (lt_of_lt_withObject ho' hnew'))
    · by_cases hnew' : o' = db.nextObject
      · rw [hnew'] at heq
        exact absurd heq (hfresh o (lt_of_lt_withObject ho hnew))
      · have hlt := lt_of_lt_withObject ho hnew
        have hlt' := lt_of_lt_withObject ho' hnew'
        rw [(same_withObject_of_lt _ _ _ hlt).id, (same_withObject_of_lt _ _ _ hlt').id] at heq
        exact h.distinct o o' hlt hlt' heq
  references := by
    intro r hr t ht id hmem
    have hsame := same_withObject_of_lt s name body
      (h.slots t (registered_of_mem hr ht))
    rw [hsame.references] at hmem
    obtain ⟨hlt, u, hslot, hu, hor⟩ := h.references r hr t ht id hmem
    have hsame' := same_withObject_of_lt s name body hslot
    refine ⟨by rwa [hsame.id], u, Nat.lt_succ_of_lt hslot, hsame'.id.trans hu, ?_⟩
    rwa [hsame'.isLocalTemporary]

end Object

section Entered

variable {db : Database} {s r : SchemaRef} {o other : ObjectRef} {kind : ObjectKind}

/-- The database with an object registered in a schema under its name. -/
def entered (s : SchemaRef) (o : ObjectRef) (db : Database) : Database :=
  db.modifySchema s fun schema => { schema.freeName (db.nameOf o) with
    registry := schema.registry.modifySpace (db.object o).kind (·.insert (db.nameOf o) o) }

theorem add_eq_ok_iff {db' : Database} : s.add o db = .ok () db' ↔
    (db.schema s).state = .active ∧ (db.object o).schema = some s ∧
      (db.space s (db.object o).kind).get? (db.nameOf o) = none ∧ db' = entered s o db := by
  have hchange : db.modifySchema s (fun schema => { schema.freeName (db.nameOf o) with
      registry := (db.schema s).registry.modifySpace (db.object o).kind
        (·.insert (db.nameOf o) o) }) = entered s o db := modifySchema_congr rfl
  simp only [add_eq_guarded, guarded_eq_ok_iff, Registry.add_eq_ok_iff, ← hchange]
  constructor
  · rintro ⟨hactive, registry, ⟨howner, hfree, rfl⟩, rfl⟩
    exact ⟨hactive, howner, hfree, rfl⟩
  · rintro ⟨hactive, howner, hfree, rfl⟩
    exact ⟨hactive, _, ⟨howner, hfree, rfl⟩, rfl⟩

/-- An object that can be registered: it belongs to a registered schema, where its name is free. -/
structure Enterable (db : Database) (s : SchemaRef) (o : ObjectRef) : Prop where
  schema : s ∈ db.allSchemas
  slot : o.slot < db.objectStore.next
  owner : (db.object o).schema = some s
  free : (db.space s (db.object o).kind).get? (db.nameOf o) = none
  unkept : ∀ c, ¬ db.Keeps c o
  permanent : (db.tableOf o).isLocalTemporary = false
  references : ∀ id ∈ (db.tableOf o).references, id < (db.object o).id ∧ db.Resolves s id

theorem state_entered : ((entered s o db).schema r).state = (db.schema r).state :=
  field_modifySchema Schema.state r rfl

theorem space_entered : (entered s o db).space r kind =
    if r = s ∧ kind = (db.object o).kind then (db.space s kind).insert (db.nameOf o) o
    else db.space r kind :=
  space_modifySchema (db.object o).kind (·.insert (db.nameOf o) o) r kind rfl

namespace Enterable

private theorem mem_space_entered (h : db.Enterable s o) :
    other ∈ ((entered s o db).space r kind).values ↔
      (other = o ∧ r = s ∧ kind = (db.object o).kind) ∨ other ∈ (db.space r kind).values := by
  rw [space_entered]
  split
  next heq =>
    obtain ⟨rfl, rfl⟩ := heq
    rw [NameMap.mem_values_insert h.free]
    simp
  next hne => exact ⟨.inr, fun hor => hor.resolve_left fun heq => hne heq.2⟩

private theorem holds_entered (h : db.Enterable s o) :
    (entered s o db).Holds r other ↔ (other = o ∧ r = s) ∨ db.Holds r other := by
  simp only [Holds, h.mem_space_entered, exists_or]
  refine or_congr_left ⟨?_, ?_⟩
  · rintro ⟨_, hother, hr, -⟩
    exact ⟨hother, hr⟩
  · rintro ⟨hother, hr⟩
    exact ⟨(db.object o).kind, hother, hr, rfl⟩

private theorem registered_entered (h : db.Enterable s o) :
    (entered s o db).Registered other ↔ other = o ∨ db.Registered other := by
  constructor
  · rintro ⟨r, hr, hother⟩
    rcases h.holds_entered.mp hother with ⟨rfl, -⟩ | hother
    · exact .inl rfl
    · exact .inr ⟨r, hr, hother⟩
  · rintro (rfl | ⟨r, hr, hother⟩)
    · exact ⟨s, h.schema, h.holds_entered.mpr (.inl ⟨rfl, rfl⟩)⟩
    · exact ⟨r, hr, h.holds_entered.mpr (.inr hother)⟩

private theorem mem_allTables_entered (h : db.Enterable s o)
    (hother : other ∈ (entered s o db).allTables) :
    other = o ∨ other ∈ db.allTables := by
  obtain ⟨r, hr, hother⟩ := mem_allTables.mp hother
  obtain ⟨hactive, hother⟩ := mem_tablesIn.mp hother
  rw [state_entered] at hactive
  rcases h.mem_space_entered.mp hother with ⟨rfl, -⟩ | hother
  · exact .inl rfl
  · exact .inr (mem_allTables.mpr ⟨r, hr, mem_tablesIn.mpr ⟨hactive, hother⟩⟩)

end Enterable

theorem Filed.entered (h : db.Filed s) (o : ObjectRef) : (entered s o db).Filed s where
  keyed := by
    intro kind
    rw [space_entered]
    split
    · exact (h.keyed kind).insert rfl
    · exact h.keyed kind
  kinds := by
    intro kind other hother
    rw [space_entered] at hother
    split at hother
    next heq =>
      rcases NameMap.mem_values_of_mem_insert hother with rfl | hother
      · exact heq.2.symm
      · exact h.kinds kind other hother
    next => exact h.kinds kind other hother

theorem InOrder.entered (h : db.InOrder s) (howner : (db.object o).schema = some s) :
    (entered s o db).InOrder s where
  keyed := (h.filed.entered o).keyed
  enters := by
    intro kind other hother
    refine ⟨(h.filed.entered o).kinds kind other hother, ?_⟩
    rw [space_entered] at hother
    split at hother
    next heq =>
      rcases NameMap.mem_values_of_mem_insert hother with rfl | hother
      · exact howner
      · exact (h.enters kind other hother).schema
    next => exact (h.enters kind other hother).schema

theorem space_entered_of_ne (h : r ≠ s) : (entered s o db).space r kind = db.space r kind := by
  rw [space_entered, if_neg fun heq => h heq.1]

private theorem WellFormed.consistent_entered (h : db.WellFormed) (ho : db.Enterable s o) :
    (entered s o db).Consistent where
  schemas := h.schemas.congr fun r _ => field_modifySchema Schema.name r rfl
  keyed := by
    intro r hr kind
    by_cases hrs : r = s
    · subst hrs
      exact ((h.inOrder hr).entered ho.owner).keyed kind
    · rw [space_entered_of_ne hrs]
      exact h.keyed r hr kind
  enters := by
    intro r hr kind other hother
    rcases ho.mem_space_entered.mp hother with ⟨rfl, rfl, rfl⟩ | hother
    · exact ⟨rfl, ho.owner⟩
    · have henters := h.enters r hr kind other hother
      exact ⟨henters.kind, henters.schema⟩
  tableIds := by
    have hslot : ∀ t ∈ (entered s o db).allTables, t.slot < db.objectStore.next := by
      intro t ht
      rcases ho.mem_allTables_entered ht with rfl | ht
      · exact ho.slot
      · exact h.slots t (registered_of_mem_allTables ht)
    intro t ht u hu hid
    exact h.distinct t u (hslot t ht) (hslot u hu) hid

theorem WellFormed.entered (h : db.WellFormed) (ho : db.Enterable s o) :
    (entered s o db).WellFormed where
  toConsistent := h.consistent_entered ho
  active := by
    intro r hr
    rw [state_entered]
    exact h.active r hr
  schemaSlots := h.schemaSlots
  slots := by
    intro other hother
    rcases ho.registered_entered.mp hother with rfl | hother
    · exact ho.slot
    · exact h.slots other hother
  permanent := by
    intro t ht
    rcases ho.mem_allTables_entered ht with rfl | ht
    · exact ho.permanent
    · exact h.permanent t ht
  keptSlots := h.keptSlots
  apart := by
    intro c other hkeeps hother
    rcases ho.registered_entered.mp hother with rfl | hother
    · exact ho.unkept c hkeeps
    · exact h.apart c other hkeeps hother
  tempKeyed := h.tempKeyed
  tempTables := h.tempTables
  ids := h.ids
  distinct := h.distinct
  references := by
    have hresolves : ∀ r id, db.Resolves r id → (Database.entered s o db).Resolves r id := by
      rintro r id ⟨u, hslot, hid, hu⟩
      exact ⟨u, hslot, hid, hu.imp (fun hu => ho.mem_space_entered.mpr (.inr hu)) fun hu => hu⟩
    intro r hr t ht id hmem
    rcases ho.mem_space_entered.mp ht with ⟨rfl, rfl, -⟩ | ht
    · obtain ⟨hlt, hres⟩ := ho.references id hmem
      exact ⟨hlt, hresolves r id hres⟩
    · obtain ⟨hlt, hres⟩ := h.references r hr t ht id hmem
      exact ⟨hlt, hresolves r id hres⟩

end Entered

section Kept

variable {db : Database} {c : SessionRef} {t i o : ObjectRef}

/-- The database with a table among the local temporary ones of a session. -/
def tableKept (c : SessionRef) (t : ObjectRef) (db : Database) : Database :=
  db.modifySession c fun session =>
    { session with tempTables := session.tempTables.insert (db.nameOf t) t }

/-- The database with an index among the local temporary ones of a session. -/
def indexKept (c : SessionRef) (i : ObjectRef) (db : Database) : Database :=
  db.modifySession c fun session =>
    { session with tempIndexes := session.tempIndexes.insert (db.nameOf i) i }

/-- A session may change as it likes, as long as the tables that it keeps are local temporary ones
under their own names and nothing that it keeps is registered. -/
private theorem WellFormed.modifySession (h : db.WellFormed) (c : SessionRef)
    {change : Session → Session} (hkept : ∀ o, (o ∈ (change (db.session c)).tempTables.values ∨
      o ∈ (change (db.session c)).tempIndexes.values) →
        o.slot < db.objectStore.next ∧ ¬ db.Registered o)
    (hkeyed : (change (db.session c)).tempTables.Keyed db.nameOf)
    (htables : ∀ t ∈ (change (db.session c)).tempTables.values,
      (db.object t).kind = .tableOrView ∧ (db.tableOf t).isLocalTemporary = true) :
    (db.modifySession c change).WellFormed := by
  have hsession : ∀ other, (db.modifySession c change).session other =
      if other = c then change (db.session c) else db.session other := fun other =>
    session_modifySession ..
  have hkeeps : ∀ other o, (db.modifySession c change).Keeps other o →
      o.slot < db.objectStore.next ∧ ¬ db.Registered o := by
    intro other o ho
    rw [Keeps, hsession] at ho
    split at ho
    next => exact hkept o ho
    next => exact ⟨h.keptSlots other o ho, h.apart other o ho⟩
  have hown : ∀ other, ((db.modifySession c change).session other).tempTables.Keyed db.nameOf ∧
      ∀ t ∈ ((db.modifySession c change).session other).tempTables.values,
        (db.object t).kind = .tableOrView ∧ (db.tableOf t).isLocalTemporary = true := by
    intro other
    rw [hsession]
    split
    next => exact ⟨hkeyed, htables⟩
    next => exact ⟨h.tempKeyed other, h.tempTables other⟩
  exact {
    schemas := h.schemas
    keyed := h.keyed
    enters := fun r hr kind o ho =>
      ⟨(h.enters r hr kind o ho).kind, (h.enters r hr kind o ho).schema⟩
    tableIds := h.tableIds
    active := h.active
    schemaSlots := h.schemaSlots
    slots := h.slots
    permanent := h.permanent
    keptSlots := fun other o ho => (hkeeps other o ho).1
    apart := fun other o ho => (hkeeps other o ho).2
    tempKeyed := fun other => (hown other).1
    tempTables := fun other => (hown other).2
    ids := h.ids
    distinct := h.distinct
    references := h.references }

theorem WellFormed.tableKept (h : db.WellFormed) (c : SessionRef)
    (hslot : t.slot < db.objectStore.next) (hunregistered : ¬ db.Registered t)
    (hkind : (db.object t).kind = .tableOrView)
    (hlocal : (db.tableOf t).isLocalTemporary = true) : (tableKept c t db).WellFormed := by
  refine h.modifySession c (fun o ho => ?_) ((h.tempKeyed c).insert rfl) fun u hu => ?_
  · have hor : o = t ∨ db.Keeps c o := by
      rcases ho with ho | ho
      · exact (NameMap.mem_values_of_mem_insert ho).imp_right .inl
      · exact .inr (.inr ho)
    rcases hor with rfl | ho
    · exact ⟨hslot, hunregistered⟩
    · exact ⟨h.keptSlots c o ho, h.apart c o ho⟩
  · rcases NameMap.mem_values_of_mem_insert hu with rfl | hu
    · exact ⟨hkind, hlocal⟩
    · exact h.tempTables c u hu

theorem WellFormed.indexKept (h : db.WellFormed) (c : SessionRef)
    (hslot : i.slot < db.objectStore.next) (hunregistered : ¬ db.Registered i) :
    (indexKept c i db).WellFormed := by
  refine h.modifySession c (fun o ho => ?_) (h.tempKeyed c) (h.tempTables c)
  have hor : o = i ∨ db.Keeps c o := by
    rcases ho with ho | ho
    · exact .inr (.inl ho)
    · exact (NameMap.mem_values_of_mem_insert ho).imp_right .inr
  rcases hor with rfl | ho
  · exact ⟨hslot, hunregistered⟩
  · exact ⟨h.keptSlots c o ho, h.apart c o ho⟩

end Kept

section Renamed

variable {db : Database} {s r : SchemaRef} {o other : ObjectRef} {kind : ObjectKind}
  {newName : String}

/-- The database with a registered object under a new name. -/
def renamed (s : SchemaRef) (o : ObjectRef) (newName : String) (db : Database) : Database :=
  (db.modifyObject o (Object.rename newName)).modifySchema s fun schema =>
    { (schema.freeName (db.nameOf o)).freeName newName with
      registry := schema.registry.modifySpace (db.object o).kind fun space =>
        (space.erase (db.nameOf o)).insert newName o }

theorem rename_eq_ok_iff {db' : Database} : s.rename o newName db = .ok () db' ↔
    (db.schema s).state = .active ∧ (db.space s (db.object o).kind).get? (db.nameOf o) = some o ∧
      (db.space s (db.object o).kind).get? newName = none ∧
      (db.object o).checkRename = .ok () ∧ db' = renamed s o newName db := by
  have hchange : (db.modifyObject o (Object.rename newName)).modifySchema s (fun schema =>
      { (schema.freeName (db.nameOf o)).freeName newName with
        registry := (db.schema s).registry.modifySpace (db.object o).kind fun space =>
          (space.erase (db.nameOf o)).insert newName o }) = renamed s o newName db :=
    modifySchema_congr rfl
  simp only [rename_eq_guarded, guarded_eq_ok_iff, Registry.rename_eq_ok_iff, ← hchange]
  constructor
  · rintro ⟨hactive, registry, ⟨hlive, hfree, hcheck, rfl⟩, rfl⟩
    exact ⟨hactive, hlive, hfree, hcheck, rfl⟩
  · rintro ⟨hactive, hlive, hfree, hcheck, rfl⟩
    exact ⟨hactive, _, ⟨hlive, hfree, hcheck, rfl⟩, rfl⟩

theorem rename_of_refused {e : CatalogError} (hactive : (db.schema s).state = .active)
    (hlive : (db.space s (db.object o).kind).get? (db.nameOf o) = some o)
    (hfree : (db.space s (db.object o).kind).get? newName = none)
    (hcheck : (db.object o).checkRename = .error e) : s.rename o newName db = .error e db := by
  rw [rename_eq_guarded, guarded_of_active hactive, Registry.rename_eq hlive hfree, hcheck]
  rfl

theorem object_renamed : (renamed s o newName db).object other =
    if other = o then (db.object o).rename newName else db.object other :=
  object_modifyObject ..

private theorem name_schema_renamed :
    ((renamed s o newName db).schema r).name = (db.schema r).name :=
  field_modifySchema Schema.name r rfl

theorem state_renamed : ((renamed s o newName db).schema r).state = (db.schema r).state :=
  field_modifySchema Schema.state r rfl

theorem space_renamed : (renamed s o newName db).space r kind =
    if r = s ∧ kind = (db.object o).kind then
      ((db.space s kind).erase (db.nameOf o)).insert newName o
    else db.space r kind :=
  space_modifySchema (db.object o).kind (fun space => (space.erase (db.nameOf o)).insert newName o)
    r kind rfl

theorem nameOf_renamed_of_ne (h : other ≠ o) :
    (renamed s o newName db).nameOf other = db.nameOf other := by
  rw [nameOf, object_renamed, if_neg h]
  rfl

theorem kind_renamed : ((renamed s o newName db).object other).kind = (db.object other).kind :=
  field_modifyObject Object.kind other (Object.kind_rename _ _)

theorem id_renamed : ((renamed s o newName db).object other).id = (db.object other).id :=
  field_modifyObject Object.id other rfl

theorem owner_renamed :
    ((renamed s o newName db).object other).schema = (db.object other).schema :=
  field_modifyObject Object.schema other rfl

theorem tableOf_renamed : (renamed s o newName db).tableOf other = db.tableOf other :=
  field_modifyObject Object.asTable other rfl

section Filed

variable (h : db.Filed s) (ho : db.Holds s o)
  (hfree : (db.space s (db.object o).kind).get? newName = none)

include h ho hfree

/-- A renamed object stays where it is registered, like every other one. -/
theorem Filed.mem_space_renamed :
    other ∈ ((renamed s o newName db).space r kind).values ↔ other ∈ (db.space r kind).values := by
  rw [space_renamed]
  split
  next heq =>
    obtain ⟨rfl, rfl⟩ := heq
    have hmem := h.mem_of_holds ho
    have hnone : ((db.space r (db.object o).kind).erase (db.nameOf o)).get? newName = none := by
      rw [NameMap.get?_erase, hfree, ite_self]
    rw [NameMap.mem_values_insert hnone, (h.keyed _).mem_values_erase hmem]
    constructor
    · rintro (rfl | hother)
      · exact hmem
      · exact hother.1
    · intro hother
      by_cases heq : other = o
      · exact .inl heq
      · exact .inr ⟨hother, heq⟩
  next => exact .rfl

theorem Filed.renamed : (renamed s o newName db).Filed s where
  keyed := by
    intro kind
    rw [space_renamed]
    split
    next heq =>
      obtain ⟨-, rfl⟩ := heq
      have hmem := h.mem_of_holds ho
      refine NameMap.Keyed.insert (((h.keyed _).erase _).congr fun other hother => ?_) ?_
      · exact nameOf_renamed_of_ne ((h.keyed _).mem_values_erase hmem |>.mp hother).2
      · rw [nameOf, object_renamed, if_pos rfl]
        rfl
    next hne =>
      refine (h.keyed kind).congr fun other hother => nameOf_renamed_of_ne ?_
      rintro rfl
      exact hne ⟨rfl, (h.kinds kind other hother).symm⟩
  kinds := fun kind other hother =>
    kind_renamed.trans (h.kinds kind other ((h.mem_space_renamed ho hfree).mp hother))

end Filed

theorem InOrder.renamed (h : db.InOrder s) (ho : db.Holds s o)
    (hfree : (db.space s (db.object o).kind).get? newName = none) :
    (renamed s o newName db).InOrder s where
  keyed := (h.filed.renamed ho hfree).keyed
  enters := by
    intro kind other hother
    have henters := h.enters kind other ((h.filed.mem_space_renamed ho hfree).mp hother)
    exact ⟨kind_renamed.trans henters.kind, owner_renamed.trans henters.schema⟩

section Consistent

variable (h : db.Consistent) (hs : s ∈ db.allSchemas) (ho : db.Holds s o)
  (hfree : (db.space s (db.object o).kind).get? newName = none)

include h hs ho hfree

theorem Consistent.mem_space_renamed :
    other ∈ ((renamed s o newName db).space r kind).values ↔ other ∈ (db.space r kind).values :=
  (h.inOrder hs).filed.mem_space_renamed ho hfree

private theorem Consistent.registered_renamed :
    (renamed s o newName db).Registered other ↔ db.Registered other := by
  have hholds : ∀ r, (renamed s o newName db).Holds r other ↔ db.Holds r other := fun r =>
    exists_congr fun kind => h.mem_space_renamed hs ho hfree
  exact exists_congr fun r => and_congr_right fun _ => hholds r

private theorem Consistent.mem_allTables_renamed :
    other ∈ (renamed s o newName db).allTables ↔ other ∈ db.allTables := by
  rw [mem_allTables, mem_allTables]
  refine exists_congr fun r => and_congr_right fun _ => ?_
  rw [mem_tablesIn, mem_tablesIn, state_renamed, h.mem_space_renamed hs ho hfree]

private theorem Consistent.keyed_renamed (hr : r ∈ db.allSchemas) (kind : ObjectKind) :
    ((renamed s o newName db).space r kind).Keyed (renamed s o newName db).nameOf := by
  by_cases hrs : r = s
  · subst hrs
    exact ((h.inOrder hr).renamed ho hfree).keyed kind
  · rw [space_renamed, if_neg fun heq => hrs heq.1]
    refine (h.keyed r hr kind).congr fun other hother => nameOf_renamed_of_ne ?_
    rintro rfl
    exact hrs (h.schema_eq hr hs ⟨kind, hother⟩ ho)

private theorem Consistent.renamed : (renamed s o newName db).Consistent where
  schemas := h.schemas.congr fun r _ => name_schema_renamed
  keyed := fun r hr kind => h.keyed_renamed hs ho hfree hr kind
  enters := by
    intro r hr kind other hother
    have henters := h.enters r hr kind other ((h.mem_space_renamed hs ho hfree).mp hother)
    exact ⟨kind_renamed.trans henters.kind, owner_renamed.trans henters.schema⟩
  tableIds := by
    intro t ht u hu hid
    rw [id_renamed, id_renamed] at hid
    exact h.tableIds t ((h.mem_allTables_renamed hs ho hfree).mp ht) u
      ((h.mem_allTables_renamed hs ho hfree).mp hu) hid

end Consistent

theorem WellFormed.renamed (h : db.WellFormed) (hs : s ∈ db.allSchemas) (ho : db.Holds s o)
    (hfree : (db.space s (db.object o).kind).get? newName = none) :
    (renamed s o newName db).WellFormed where
  toConsistent := h.toConsistent.renamed hs ho hfree
  active := by
    intro r hr
    rw [state_renamed]
    exact h.active r hr
  schemaSlots := h.schemaSlots
  slots := fun other hother => h.slots other ((h.registered_renamed hs ho hfree).mp hother)
  permanent := by
    intro t ht
    rw [tableOf_renamed]
    exact h.permanent t ((h.mem_allTables_renamed hs ho hfree).mp ht)
  keptSlots := h.keptSlots
  apart := fun c other hkeeps hother =>
    h.apart c other hkeeps ((h.registered_renamed hs ho hfree).mp hother)
  tempKeyed := by
    intro c
    refine (h.tempKeyed c).congr fun t ht => nameOf_renamed_of_ne ?_
    rintro rfl
    exact h.apart c t (.inl ht) ⟨s, hs, ho⟩
  tempTables := by
    intro c t ht
    rw [kind_renamed, tableOf_renamed]
    exact h.tempTables c t ht
  ids := by
    intro other hslot
    rw [id_renamed]
    exact h.ids other hslot
  distinct := by
    intro o₁ o₂ hslot₁ hslot₂ hid
    rw [id_renamed, id_renamed] at hid
    exact h.distinct o₁ o₂ hslot₁ hslot₂ hid
  references := by
    intro r hr t ht id hmem
    rw [tableOf_renamed] at hmem
    obtain ⟨hlt, u, hslot, hid, hu⟩ :=
      h.references r hr t ((h.mem_space_renamed hs ho hfree).mp ht) id hmem
    refine ⟨by rwa [id_renamed], u, hslot, id_renamed.trans hid, ?_⟩
    rw [tableOf_renamed, h.mem_space_renamed hs ho hfree]
    exact hu

end Renamed

section Schema

variable {db : Database} {s r : SchemaRef} {name : String} {owner : Option Principal}
  {system : Bool}

def nextSchema (db : Database) : SchemaRef :=
  ⟨db.schemaStore.next⟩

/-- The database with a new schema, registered under its name. -/
def withSchema (name : String) (owner : Option Principal) (system : Bool) (db : Database) :
    Database :=
  { (db.allocateId.2.newSchema (.create db.allocateId.1 name owner system db.rule)).2 with
    schemas := db.schemas.insert name db.nextSchema }

theorem schema_withSchema : (withSchema name owner system db).schema r =
    if r = db.nextSchema then .create (UInt32.ofNat db.nextId) name owner system db.rule
    else db.schema r := by
  obtain ⟨slot⟩ := r
  simp only [schema, withSchema, newSchema, allocateId, Store.get_push, nextSchema,
    SchemaRef.mk.injEq]

theorem space_withSchema {kind : ObjectKind} (h : r ≠ db.nextSchema) :
    (withSchema name owner system db).space r kind = db.space r kind := by
  rw [space, schema_withSchema, if_neg h]
  rfl

theorem space_nextSchema {kind : ObjectKind} :
    (withSchema name owner system db).space db.nextSchema kind = .empty db.rule := by
  rw [space, schema_withSchema, if_pos rfl]
  cases kind <;> rfl

theorem WellFormed.ne_nextSchema (h : db.WellFormed) (hr : r ∈ db.allSchemas) :
    r ≠ db.nextSchema := by
  rintro rfl
  exact Nat.lt_irrefl _ (h.schemaSlots _ hr)

private theorem WellFormed.schema_withSchema_of_mem (h : db.WellFormed) (hr : r ∈ db.allSchemas) :
    (withSchema name owner system db).schema r = db.schema r := by
  rw [schema_withSchema, if_neg (h.ne_nextSchema hr)]

private theorem WellFormed.mem_space_withSchema (h : db.WellFormed) {kind : ObjectKind}
    {o : ObjectRef} (hr : r ∈ (withSchema name owner system db).allSchemas)
    (ho : o ∈ ((withSchema name owner system db).space r kind).values) :
    r ∈ db.allSchemas ∧ o ∈ (db.space r kind).values := by
  rcases NameMap.mem_values_of_mem_insert hr with rfl | hr
  · rw [space_nextSchema] at ho
    cases ho
  · rw [space_withSchema (h.ne_nextSchema hr)] at ho
    exact ⟨hr, ho⟩

private theorem WellFormed.registered_withSchema (h : db.WellFormed) {o : ObjectRef}
    (ho : (withSchema name owner system db).Registered o) : db.Registered o := by
  obtain ⟨r, hr, kind, ho⟩ := ho
  obtain ⟨hr, ho⟩ := h.mem_space_withSchema hr ho
  exact registered_of_mem hr ho

private theorem WellFormed.mem_allTables_withSchema (h : db.WellFormed) {t : ObjectRef}
    (ht : t ∈ (withSchema name owner system db).allTables) : t ∈ db.allTables := by
  obtain ⟨r, hr, ht⟩ := Database.mem_allTables.mp ht
  obtain ⟨hr, ht⟩ := h.mem_space_withSchema hr (mem_tablesIn.mp ht).2
  exact h.mem_allTables hr ht

private theorem WellFormed.consistent_withSchema (h : db.WellFormed) :
    (withSchema name owner system db).Consistent where
  schemas := by
    refine (h.schemas.congr fun r hr => ?_).insert ?_
    · rw [h.schema_withSchema_of_mem hr]
    · rw [schema_withSchema, if_pos rfl]
      rfl
  keyed := by
    intro r hr kind
    rcases NameMap.mem_values_of_mem_insert hr with rfl | hr
    · rw [space_nextSchema]
      exact .empty db.rule _
    · rw [space_withSchema (h.ne_nextSchema hr)]
      exact h.keyed r hr kind
  enters := by
    intro r hr kind o ho
    obtain ⟨hr, ho⟩ := h.mem_space_withSchema hr ho
    have henters := h.enters r hr kind o ho
    exact ⟨henters.kind, henters.schema⟩
  tableIds := fun t ht u hu hid =>
    h.tableIds t (h.mem_allTables_withSchema ht) u (h.mem_allTables_withSchema hu) hid

theorem WellFormed.withSchema (h : db.WellFormed) :
    (withSchema name owner system db).WellFormed where
  toConsistent := h.consistent_withSchema
  active := by
    intro r hr
    rcases NameMap.mem_values_of_mem_insert hr with rfl | hr
    · rw [schema_withSchema, if_pos rfl]
      rfl
    · rw [h.schema_withSchema_of_mem hr]
      exact h.active r hr
  schemaSlots := by
    intro r hr
    rcases NameMap.mem_values_of_mem_insert hr with rfl | hr
    · exact Nat.lt_succ_self _
    · exact Nat.lt_succ_of_lt (h.schemaSlots r hr)
  slots := fun o ho => h.slots o (h.registered_withSchema ho)
  permanent := fun t ht => h.permanent t (h.mem_allTables_withSchema ht)
  keptSlots := h.keptSlots
  apart := fun c o hkeeps ho => h.apart c o hkeeps (h.registered_withSchema ho)
  tempKeyed := h.tempKeyed
  tempTables := h.tempTables
  ids := fun o ho => Nat.lt_succ_of_lt (h.ids o ho)
  distinct := h.distinct
  references := by
    intro r hr t ht id hmem
    obtain ⟨hr', ht⟩ := h.mem_space_withSchema hr ht
    obtain ⟨hlt, u, hslot, hid, hu⟩ := h.references r hr' t ht id hmem
    refine ⟨hlt, u, hslot, hid, ?_⟩
    rwa [space_withSchema (h.ne_nextSchema hr')]

end Schema

end SchemaCatalog.Database
