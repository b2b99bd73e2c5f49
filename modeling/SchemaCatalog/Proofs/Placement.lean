import SchemaCatalog.Proofs.Evolution
/-!
# Where objects are

Every object is in one place: in the schema that it refers to, or with one session. This holds of
runs of any length, also when ids repeat, so it says nothing about ids and about what tables read.
-/
namespace SchemaCatalog.Database

section Placed

variable {db db' : Database} {s r : SchemaRef} {c : SessionRef} {o t i : ObjectRef}

/-- Every schema and every session keeps its objects in order, and no two keep the same object. -/
structure Placed (db : Database) : Prop where
  inOrder : ∀ s, db.InOrder s
  slots : ∀ s o, db.Holds s o → o.slot < db.objectStore.next
  permanent : ∀ s, ∀ t ∈ (db.space s .tableOrView).values,
    (db.tableOf t).isLocalTemporary = false
  keptSlots : ∀ c o, db.Keeps c o → o.slot < db.objectStore.next
  /-- No object that a session keeps is in a schema. -/
  apart : ∀ c s o, db.Keeps c o → ¬ db.Holds s o
  tempKeyed : ∀ c, (db.session c).tempTables.Keyed db.nameOf
  tempTables : ∀ c, ∀ t ∈ (db.session c).tempTables.values,
    (db.object t).kind = .tableOrView ∧ (db.tableOf t).isLocalTemporary = true
  sessions : db.SessionsInOrder

namespace Placed

/-- An object is in one schema at most. -/
theorem schema_eq (h : db.Placed) (hs : db.Holds s o) (hr : db.Holds r o) : s = r := by
  obtain ⟨kind, hs⟩ := hs
  obtain ⟨kind', hr⟩ := hr
  have howner := ((h.inOrder s).enters kind o hs).schema
  rw [((h.inOrder r).enters kind' o hr).schema] at howner
  exact (Option.some.inj howner).symm

theorem tidy (h : db.Placed) (c : SessionRef) : db.Tidy c where
  tableNames := h.tempKeyed c
  indexNames := h.sessions.indexNames c
  tableKinds := fun t ht => (h.tempTables c t ht).1
  indexKinds := h.sessions.indexKinds c

/-- A new place holds nothing. -/
theorem not_holds_nextObject (h : db.Placed) (s : SchemaRef) : ¬ db.Holds s db.nextObject :=
  fun ho => Nat.lt_irrefl _ (h.slots s _ ho)

theorem not_keeps_nextObject (h : db.Placed) (c : SessionRef) : ¬ db.Keeps c db.nextObject :=
  fun ho => Nat.lt_irrefl _ (h.keptSlots c _ ho)

end Placed

end Placed

section Lessens

variable {db db' : Database} {s : SchemaRef} {c : SessionRef} {o t i : ObjectRef}

/-- Objects leave their places and otherwise stay what they are; none is made and none comes in. -/
structure Lessens (db db' : Database) : Prop where
  objectCount : db'.objectStore.next = db.objectStore.next
  objects : ∀ o, Same db db' o
  spaces : ∀ s kind, (db'.space s kind).Within (db.space s kind)
  owners : ∀ s o, db'.Holds s o → (db'.object o).schema = (db.object o).schema
  tempTables : ∀ c, (db'.session c).tempTables.Within (db.session c).tempTables
  tempIndexes : ∀ c, (db'.session c).tempIndexes.Within (db.session c).tempIndexes

namespace Lessens

theorem refl (db : Database) : Lessens db db where
  objectCount := rfl
  objects := fun _ => .of_eq rfl
  spaces := fun _ _ => .refl _
  owners := fun _ _ _ => rfl
  tempTables := fun _ => .refl _
  tempIndexes := fun _ => .refl _

theorem holds (h : Lessens db db') (ho : db'.Holds s o) : db.Holds s o :=
  ho.imp fun kind => (h.spaces s kind).mem_values

theorem keeps (h : Lessens db db') (ho : db'.Keeps c o) : db.Keeps c o :=
  ho.imp (h.tempTables c).mem_values (h.tempIndexes c).mem_values

theorem trans {db'' : Database} (h : Lessens db db') (h' : Lessens db' db'') :
    Lessens db db'' where
  objectCount := h'.objectCount.trans h.objectCount
  objects := fun o => (h.objects o).trans (h'.objects o)
  spaces := fun s kind => (h'.spaces s kind).trans (h.spaces s kind)
  owners := fun s o ho => (h'.owners s o ho).trans (h.owners s o (h'.holds ho))
  tempTables := fun c => (h'.tempTables c).trans (h.tempTables c)
  tempIndexes := fun c => (h'.tempIndexes c).trans (h.tempIndexes c)

theorem dependsOn_eq (h : Lessens db db') (o t : ObjectRef) :
    db'.dependsOn o t = db.dependsOn o t := by
  simp only [dependsOn, Table.dependsOn, (h.objects o).id, (h.objects t).id,
    (h.objects o).references]

theorem inOrder (h : Lessens db db') (hs : db.InOrder s) : db'.InOrder s where
  keyed := by
    intro kind
    apply ((hs.keyed kind).within (h.spaces s kind)).congr
    intro o _
    exact (h.objects o).name
  enters := by
    intro kind o ho
    have henters := hs.enters kind o ((h.spaces s kind).mem_values ho)
    refine ⟨(h.objects o).kind.trans henters.kind, ?_⟩
    rw [h.owners s o ⟨kind, ho⟩]
    exact henters.schema

end Lessens

private theorem Placed.lessens (hdb : db.Placed) (h : Lessens db db')
    (hsessions : db'.SessionsInOrder) :
    db'.Placed where
  inOrder := fun s => h.inOrder (hdb.inOrder s)
  slots := by
    intro s o ho
    rw [h.objectCount]
    exact hdb.slots s o (h.holds ho)
  permanent := by
    intro s t ht
    rw [(h.objects t).isLocalTemporary]
    exact hdb.permanent s t ((h.spaces s _).mem_values ht)
  keptSlots := by
    intro c o ho
    rw [h.objectCount]
    exact hdb.keptSlots c o (h.keeps ho)
  apart := fun c s o hkept hheld => hdb.apart c s o (h.keeps hkept) (h.holds hheld)
  tempKeyed := by
    intro c
    apply ((hdb.tempKeyed c).within (h.tempTables c)).congr
    intro t _
    exact (h.objects t).name
  tempTables := by
    intro c t ht
    rw [(h.objects t).kind, (h.objects t).isLocalTemporary]
    exact hdb.tempTables c t ((h.tempTables c).mem_values ht)
  sessions := hsessions

/-- All objects stay in their places. -/
structure SamePlaces (db db' : Database) : Prop where
  objectCount : db'.objectStore.next = db.objectStore.next
  objects : ∀ o, Same db db' o
  owners : ∀ o, (db'.object o).schema = (db.object o).schema
  spaces : ∀ s kind, db'.space s kind = db.space s kind
  tempTables : ∀ c, (db'.session c).tempTables = (db.session c).tempTables
  tempIndexes : ∀ c, (db'.session c).tempIndexes = (db.session c).tempIndexes

theorem SamePlaces.lessens (h : SamePlaces db db') : Lessens db db' where
  objectCount := h.objectCount
  objects := h.objects
  spaces := fun s kind => .of_eq (h.spaces s kind)
  owners := fun _ o _ => h.owners o
  tempTables := fun c => .of_eq (h.tempTables c)
  tempIndexes := fun c => .of_eq (h.tempIndexes c)

theorem Placed.samePlaces (hdb : db.Placed) (h : SamePlaces db db') : db'.Placed :=
  hdb.lessens h.lessens
    (hdb.sessions.congr h.tempTables h.tempIndexes fun _ o _ => h.objects o)

theorem samePlaces_withReservations (s : SchemaRef) (reservations : ReservationSet)
    (db : Database) : SamePlaces db (withReservations s reservations db) where
  objectCount := rfl
  objects := fun _ => .of_eq rfl
  owners := fun _ => rfl
  spaces := fun r kind => space_withReservations s r reservations db kind
  tempTables := fun _ => rfl
  tempIndexes := fun _ => rfl

theorem samePlaces_setTable (t : ObjectRef) {table : Table} (db : Database)
    (hscope : table.scope = (db.tableOf t).scope)
    (hreferences : table.references = (db.tableOf t).references) :
    SamePlaces db (t.setTable table db) where
  objectCount := rfl
  objects := (shrinks_setTable t db hscope hreferences).objects
  owners := by
    intro o
    apply field_modifyObject Object.schema o
    rw [Object.mapTable]
    split <;> rfl
  spaces := fun _ _ => rfl
  tempTables := fun _ => rfl
  tempIndexes := fun _ => rfl

theorem samePlaces_deactivated (c : SessionRef) (db : Database) :
    SamePlaces db (deactivated c db) where
  objectCount := rfl
  objects := fun _ => .of_eq rfl
  owners := fun _ => rfl
  spaces := fun _ _ => rfl
  tempTables := fun d => (temps_deactivated c d db).1
  tempIndexes := fun d => (temps_deactivated c d db).2

/-- The database with a schema at the end of its life, and nothing registered under the name. -/
def schemaGone (s : SchemaRef) (name : String) (db : Database) : Database :=
  { db.modifySchema s Schema.invalidate with schemas := db.schemas.erase name }

theorem samePlaces_schemaGone (s : SchemaRef) (name : String) (db : Database) :
    SamePlaces db (schemaGone s name db) where
  objectCount := rfl
  objects := fun _ => .of_eq rfl
  owners := fun _ => rfl
  spaces := fun r kind => field_modifySchema (fun schema => schema.registry.space kind) r rfl
  tempTables := fun _ => rfl
  tempIndexes := fun _ => rfl

theorem samePlaces_of_stores {users : NameMap User} {nextId : Nat}
    {openSessions : List SessionRef} (db : Database) :
    SamePlaces db { db with users, nextId, openSessions } where
  objectCount := rfl
  objects := fun _ => .of_eq rfl
  owners := fun _ => rfl
  spaces := fun _ _ => rfl
  tempTables := fun _ => rfl
  tempIndexes := fun _ => rfl

end Lessens

section Less

variable {db db' : Database} {s r : SchemaRef} {c : SessionRef} {o other : ObjectRef}
  {kind : ObjectKind} {gone : List ObjectRef}

theorem Placed.mem_space_detached (h : db.Placed) (ho : db.Holds s o) :
    other ∈ ((detached s db o).space r kind).values ↔
      other ∈ (db.space r kind).values ∧ other ≠ o := by
  by_cases hr : r = s
  · subst hr
    exact (h.inOrder r).filed.mem_space_struckOut ho
  · rw [space_detached, if_neg fun heq => hr heq.1]
    refine ⟨fun hother => ⟨hother, ?_⟩, fun hother => hother.1⟩
    rintro rfl
    exact hr (h.schema_eq ⟨kind, hother⟩ ho)

theorem Placed.lessens_detached (h : db.Placed) (ho : db.Holds s o) :
    Lessens db (detached s db o) where
  objectCount := rfl
  objects := by
    intro other
    have hobject := object_detached s db o other
    split at hobject
    next heq => exact .invalidate (heq ▸ hobject)
    next => exact .of_eq hobject
  spaces := by
    intro r kind
    rw [space_detached]
    split
    next heq =>
      obtain ⟨rfl, -⟩ := heq
      exact NameMap.within_erase _ _
    next => exact .refl _
  owners := by
    rintro r other ⟨kind, hother⟩
    rw [object_detached, if_neg ((h.mem_space_detached ho).mp hother).2]
  tempTables := fun _ => .refl _
  tempIndexes := fun _ => .refl _

theorem Placed.detached (h : db.Placed) (ho : db.Holds s o) : (detached s db o).Placed :=
  h.lessens (h.lessens_detached ho) <|
    h.sessions.congr (fun _ => rfl) (fun _ => rfl) fun _ _ _ => (h.lessens_detached ho).objects _

theorem Placed.lessens_tempDropped (h : db.Placed) (hdropped : TempDropped c gone db db') :
    Lessens db db' where
  objectCount := hdropped.objectCount
  objects := hdropped.same
  spaces := by
    intro s kind
    rw [space, hdropped.schema_eq]
    exact .refl _
  owners := by
    rintro s o ⟨kind, ho⟩
    rw [space, hdropped.schema_eq] at ho
    rw [hdropped.object, if_neg fun hgone => h.apart c s o (hdropped.kept o hgone) ⟨kind, ho⟩]
  tempTables := by
    intro d
    by_cases hd : d = c
    · exact hd ▸ hdropped.tables
    · rw [hdropped.others d hd]
      exact .refl _
  tempIndexes := by
    intro d
    by_cases hd : d = c
    · exact hd ▸ hdropped.indexes
    · rw [hdropped.others d hd]
      exact .refl _

theorem Placed.tempDropped (h : db.Placed) (hdropped : TempDropped c gone db db')
    (htakes : db.TakesAlong c gone) : db'.Placed :=
  h.lessens (h.lessens_tempDropped hdropped) (h.sessions.tempDropped hdropped htakes)

/-- A new schema is empty, whatever there was in its place. -/
theorem lessens_withSchema (name : String) (owner : Option Principal) (system : Bool)
    (db : Database) : Lessens db (withSchema name owner system db) where
  objectCount := rfl
  objects := fun _ => .of_eq rfl
  spaces := by
    intro r kind
    by_cases hr : r = db.nextSchema
    · rw [hr, space_nextSchema]
      exact NameMap.within_empty _ _
    · rw [space_withSchema hr]
      exact .refl _
  owners := fun _ _ _ => rfl
  tempTables := fun _ => .refl _
  tempIndexes := fun _ => .refl _

theorem lessens_withSession (user : Principal) (rule : CaseRule) (db : Database) :
    Lessens db (withSession user rule db) where
  objectCount := rfl
  objects := fun _ => .of_eq rfl
  spaces := fun _ _ => .refl _
  owners := fun _ _ _ => rfl
  tempTables := (shrinks_withSession user rule db).tempTables
  tempIndexes := (shrinks_withSession user rule db).tempIndexes

theorem Placed.withSchema (h : db.Placed) (name : String) (owner : Option Principal)
    (system : Bool) : (withSchema name owner system db).Placed :=
  h.lessens (lessens_withSchema name owner system db)
    (h.sessions.congr (fun _ => rfl) (fun _ => rfl) fun _ _ _ => .of_eq rfl)

theorem Placed.withSession (h : db.Placed) (user : Principal) (rule : CaseRule) :
    (withSession user rule db).Placed :=
  h.lessens (lessens_withSession user rule db) (h.sessions.withSession user rule)

end Less

section More

variable {db : Database} {s r : SchemaRef} {c : SessionRef} {o t i other : ObjectRef}
  {kind : ObjectKind} {newName : String}

/-- An object that is not in any place yet. -/
structure Unplaced (db : Database) (o : ObjectRef) : Prop where
  slot : o.slot < db.objectStore.next
  unheld : ∀ s, ¬ db.Holds s o
  unkept : ∀ c, ¬ db.Keeps c o

theorem Placed.unplaced_nextObject (h : db.Placed) (s : SchemaRef) (name : String)
    (body : ObjectBody) : (db.withObject s name body).Unplaced db.nextObject :=
  ⟨Nat.lt_succ_self _, h.not_holds_nextObject, h.not_keeps_nextObject⟩

theorem Placed.withObject (h : db.Placed) (s : SchemaRef) (name : String) (body : ObjectBody) :
    (db.withObject s name body).Placed := by
  have hheld : ∀ {r o}, db.Holds r o → (db.withObject s name body).object o = db.object o :=
    fun ho => object_withObject_of_lt s name body (h.slots _ _ ho)
  have hkept : ∀ {d o}, db.Keeps d o → (db.withObject s name body).object o = db.object o :=
    fun ho => object_withObject_of_lt s name body (h.keptSlots _ _ ho)
  exact {
    inOrder := fun r => (h.inOrder r).congr (fun _ => rfl)
      (fun o ho => (Same.of_eq (hheld ho)).name)
      fun o ho _ henters => ⟨by rw [hheld ho, henters.kind], by rw [hheld ho, henters.schema]⟩
    slots := fun r o ho => Nat.lt_succ_of_lt (h.slots r o ho)
    permanent := by
      intro r t ht
      rw [(Same.of_eq (hheld ⟨_, ht⟩)).isLocalTemporary]
      exact h.permanent r t ht
    keptSlots := fun d o ho => Nat.lt_succ_of_lt (h.keptSlots d o ho)
    apart := h.apart
    tempKeyed := fun d => (h.tempKeyed d).congr fun t ht => (Same.of_eq (hkept (.inl ht))).name
    tempTables := by
      intro d t ht
      rw [hkept (.inl ht), (Same.of_eq (hkept (.inl ht))).isLocalTemporary]
      exact h.tempTables d t ht
    sessions := h.sessions.congr (fun _ => rfl) (fun _ => rfl) fun d o ho => .of_eq (hkept ho) }

theorem Placed.entered (h : db.Placed) (ho : db.Unplaced o) (howner : (db.object o).schema = some s)
    (hpermanent : (db.tableOf o).isLocalTemporary = false) : (entered s o db).Placed := by
  -- what is in a schema now is the new object or was there before
  have hmem : ∀ {r kind other}, other ∈ ((Database.entered s o db).space r kind).values →
      (other = o ∧ r = s) ∨ other ∈ (db.space r kind).values := by
    intro r kind other hother
    rw [space_entered] at hother
    split at hother
    next heq =>
      obtain ⟨rfl, rfl⟩ := heq
      exact (NameMap.mem_values_of_mem_insert hother).imp_left fun heq => ⟨heq, rfl⟩
    next => exact .inr hother
  have hheld : ∀ {r other}, (Database.entered s o db).Holds r other →
      other = o ∨ db.Holds r other := by
    rintro r other ⟨kind, hother⟩
    exact (hmem hother).imp And.left fun hother => ⟨kind, hother⟩
  exact {
    inOrder := by
      intro r
      by_cases hr : r = s
      · rw [hr]
        exact (h.inOrder s).entered howner
      · exact (h.inOrder r).congr (fun _ => space_entered_of_ne hr) (fun _ _ => rfl)
          fun _ _ _ henters => ⟨henters.kind, henters.schema⟩
    slots := by
      intro r other hother
      rcases hheld hother with rfl | hother
      · exact ho.slot
      · exact h.slots r other hother
    permanent := by
      intro r t ht
      rcases hmem ht with ⟨rfl, -⟩ | ht
      · exact hpermanent
      · exact h.permanent r t ht
    keptSlots := h.keptSlots
    apart := by
      intro d r other hkept hother
      rcases hheld hother with rfl | hother
      · exact ho.unkept d hkept
      · exact h.apart d r other hkept hother
    tempKeyed := h.tempKeyed
    tempTables := h.tempTables
    sessions := h.sessions.congr (fun _ => rfl) (fun _ => rfl) fun _ _ _ => .of_eq rfl }

/-- What a session keeps may grow by what is not in any place. -/
private theorem Placed.modifySession (h : db.Placed) (c : SessionRef) {change : Session → Session}
    (hkept : ∀ o, (o ∈ (change (db.session c)).tempTables.values ∨
      o ∈ (change (db.session c)).tempIndexes.values) → db.Unplaced o ∨ db.Keeps c o)
    (hkeyed : (change (db.session c)).tempTables.Keyed db.nameOf)
    (htables : ∀ t ∈ (change (db.session c)).tempTables.values,
      (db.object t).kind = .tableOrView ∧ (db.tableOf t).isLocalTemporary = true)
    (hsessions : (db.modifySession c change).SessionsInOrder) :
    (db.modifySession c change).Placed := by
  have hsession : ∀ d, (db.modifySession c change).session d =
      if d = c then change (db.session c) else db.session d := fun d => session_modifySession ..
  have hkeeps : ∀ {d o}, (db.modifySession c change).Keeps d o → db.Unplaced o ∨ db.Keeps d o := by
    intro d o ho
    rw [Keeps, hsession] at ho
    split at ho
    next hd => exact hd ▸ hkept o ho
    next => exact .inr ho
  exact {
    inOrder := fun r => (h.inOrder r).congr (fun _ => rfl) (fun _ _ => rfl)
      fun _ _ _ henters => ⟨henters.kind, henters.schema⟩
    slots := h.slots
    permanent := h.permanent
    keptSlots := by
      intro d o ho
      rcases hkeeps ho with ho | ho
      · exact ho.slot
      · exact h.keptSlots d o ho
    apart := by
      intro d r o hkept hheld
      rcases hkeeps hkept with ho | ho
      · exact ho.unheld r hheld
      · exact h.apart d r o ho hheld
    tempKeyed := by
      intro d
      rw [hsession]
      split
      · exact hkeyed
      · exact h.tempKeyed d
    tempTables := by
      intro d t ht
      rw [hsession] at ht
      split at ht
      · exact htables t ht
      · exact h.tempTables d t ht
    sessions := hsessions }

theorem Placed.tableKept (h : db.Placed) (c : SessionRef) (ht : db.Unplaced t)
    (hkind : (db.object t).kind = .tableOrView) (hlocal : (db.tableOf t).isLocalTemporary = true)
    (hfree : (db.session c).tempTables.get? (db.nameOf t) = none) : (tableKept c t db).Placed := by
  refine h.modifySession c (fun o ho => ?_) ((h.tempKeyed c).insert rfl) (fun u hu => ?_)
    (h.sessions.tableKept c ht.unkept hfree)
  · rcases ho with ho | ho
    · rcases NameMap.mem_values_of_mem_insert ho with rfl | ho
      · exact .inl ht
      · exact .inr (.inl ho)
    · exact .inr (.inr ho)
  · rcases NameMap.mem_values_of_mem_insert hu with rfl | hu
    · exact ⟨hkind, hlocal⟩
    · exact h.tempTables c u hu

theorem Placed.indexKept (h : db.Placed) (c : SessionRef) (hi : db.Unplaced i)
    (hkind : (db.object i).kind = .index) (ht : t ∈ (db.session c).tempTables.values)
    (hid : (db.object t).id = (db.indexOf i).tableId) : (indexKept c i db).Placed := by
  refine h.modifySession c (fun o ho => ?_) (h.tempKeyed c) (h.tempTables c)
    (h.sessions.indexKept c hi.unkept hkind ht hid)
  rcases ho with ho | ho
  · exact .inr (.inl ho)
  · rcases NameMap.mem_values_of_mem_insert ho with rfl | ho
    · exact .inl hi
    · exact .inr (.inr ho)

theorem Placed.renamed (h : db.Placed) (ho : db.Holds s o)
    (hfree : (db.space s (db.object o).kind).get? newName = none) :
    (renamed s o newName db).Placed := by
  have hmem : ∀ {r kind other}, other ∈ ((Database.renamed s o newName db).space r kind).values ↔
      other ∈ (db.space r kind).values := (h.inOrder s).filed.mem_space_renamed ho hfree
  have hheld : ∀ {r other}, (Database.renamed s o newName db).Holds r other → db.Holds r other :=
    fun hother => hother.imp fun _ => hmem.mp
  have hkept : ∀ {d other}, db.Keeps d other →
      (Database.renamed s o newName db).object other = db.object other := by
    intro d other hother
    refine object_renamed.trans (if_neg ?_)
    rintro rfl
    exact h.apart d s other hother ho
  exact {
    inOrder := by
      intro r
      by_cases hr : r = s
      · rw [hr]
        exact (h.inOrder s).renamed ho hfree
      · have hother : ∀ other, db.Holds r other → other ≠ o := by
          rintro other hother rfl
          exact hr (h.schema_eq hother ho)
        apply (h.inOrder r).congr
        · intro kind
          rw [space_renamed, if_neg fun heq => hr heq.1]
        · exact fun other hheld => nameOf_renamed_of_ne (hother other hheld)
        · intro other _ kind henters
          exact ⟨kind_renamed.trans henters.kind, owner_renamed.trans henters.schema⟩
    slots := fun r other hother => h.slots r other (hheld hother)
    permanent := by
      intro r t ht
      rw [tableOf_renamed]
      exact h.permanent r t (hmem.mp ht)
    keptSlots := h.keptSlots
    apart := fun d r other hkeeps hother => h.apart d r other hkeeps (hheld hother)
    tempKeyed := fun d => (h.tempKeyed d).congr fun t ht => (Same.of_eq (hkept (.inl ht))).name
    tempTables := by
      intro d t ht
      rw [kind_renamed, tableOf_renamed]
      exact h.tempTables d t ht
    sessions := h.sessions.congr (fun _ => rfl) (fun _ => rfl) fun d o ho => .of_eq (hkept ho) }

end More

section Start

/-- A database before its first object and session. -/
private theorem placed_of_empty {db : Database} (hschemas : db.schemaStore = .empty)
    (hsessions : db.sessionStore = .empty) : db.Placed := by
  have hheld : ∀ s o, ¬ db.Holds s o := by
    rintro s o ⟨kind, ho⟩
    rw [space, schema, hschemas] at ho
    cases kind <;> cases ho
  have hsession : ∀ c, db.session c = default := by
    intro c
    rw [session, hsessions]
    rfl
  have hkept : ∀ c o, ¬ db.Keeps c o := by
    intro c o ho
    rw [Keeps, hsession] at ho
    rcases ho with ho | ho <;> cases ho
  exact {
    inOrder := fun s => {
      keyed := fun kind key o ho => absurd ⟨kind, NameMap.mem_values.mpr ⟨key, ho⟩⟩ (hheld s o)
      enters := fun kind o ho => absurd ⟨kind, ho⟩ (hheld s o) }
    slots := fun s o ho => absurd ho (hheld s o)
    permanent := fun s t ht => absurd ⟨_, ht⟩ (hheld s t)
    keptSlots := fun c o ho => absurd ho (hkept c o)
    apart := fun c _ o ho => absurd ho (hkept c o)
    tempKeyed := fun c key t ht =>
      absurd (.inl (NameMap.mem_values.mpr ⟨key, ht⟩)) (hkept c t)
    tempTables := fun c t ht => absurd (.inl ht) (hkept c t)
    sessions := {
      covered := fun c i hi => absurd (.inr hi) (hkept c i)
      indexNames := fun c key i hi =>
        absurd (.inr (NameMap.mem_values.mpr ⟨key, hi⟩)) (hkept c i)
      indexKinds := fun c i hi => absurd (.inr hi) (hkept c i)
      keeper := fun c _ o ho => absurd ho (hkept c o) } }

theorem placed_bootstrap (settings : Settings) : (bootstrap settings).Placed :=
  ((placed_of_empty rfl rfl).withSchema _ _ _).withSchema _ _ _

end Start

end SchemaCatalog.Database
