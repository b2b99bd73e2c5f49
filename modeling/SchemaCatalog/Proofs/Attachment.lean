import SchemaCatalog.Proofs.Reachable
import SchemaCatalog.Proofs.TempRemoval
/-!
# Indexes and their tables

An index is kept where its table is: the registered ones in the schema of the table, the local
temporary ones by the session of the table. So an index never outlives its table, however the table
goes.
-/
namespace SchemaCatalog

open Database Relation

namespace Database

section Covers

variable {db db' : Database} {tables tables' indexes indexes' : NameMap ObjectRef}

/-- Every index of the second map is on a table of the first. -/
def Covers (db : Database) (tables indexes : NameMap ObjectRef) : Prop :=
  ∀ i ∈ indexes.values, ∃ t ∈ tables.values, (db.object t).id = (db.indexOf i).tableId

/-- Indexes stay covered as long as the tables that they are on stay. -/
private theorem Covers.mono (h : db.Covers tables indexes)
    (htables : ∀ t ∈ tables.values, Same db db' t) (hindexes : ∀ i ∈ indexes.values, Same db db' i)
    (hless : ∀ i ∈ indexes'.values, i ∈ indexes.values)
    (hstay : ∀ t ∈ tables.values, ∀ i ∈ indexes'.values,
      (db.object t).id = (db.indexOf i).tableId → t ∈ tables'.values) :
    db'.Covers tables' indexes' := by
  intro i hi
  have hold := hless i hi
  obtain ⟨t, ht, hid⟩ := h i hold
  refine ⟨t, hstay t ht i hi hid, ?_⟩
  rw [(htables t ht).id, (hindexes i hold).index, hid]

private theorem Covers.congr (h : db.Covers tables indexes)
    (hsame : ∀ o, o ∈ tables.values ∨ o ∈ indexes.values → Same db db' o) :
    db'.Covers tables indexes :=
  h.mono (fun t ht => hsame t (.inl ht)) (fun i hi => hsame i (.inr hi)) (fun _ hi => hi)
    fun _ ht _ _ _ => ht

end Covers

section Registries

variable {c : SessionRef} {db db' : Database} {s : SchemaRef} {o t : ObjectRef}
  {gone : List ObjectRef}

/-- Every registered index is on a table of its schema. -/
def Covered (db : Database) : Prop :=
  ∀ s ∈ db.allSchemas, db.Covers (db.space s .tableOrView) (db.space s .index)

theorem Covered.congr (h : db.Covered) (hall : db'.allSchemas = db.allSchemas)
    (hspace : ∀ s kind, db'.space s kind = db.space s kind)
    (hsame : ∀ o, db.Registered o → Same db db' o) : db'.Covered := by
  intro s hs
  rw [hspace, hspace]
  rw [hall] at hs
  exact (h s hs).congr fun o ho => hsame o (ho.elim (registered_of_mem hs) (registered_of_mem hs))

/-- Indexes may go, and tables that no index is on any more. -/
private theorem Covered.detachedAll (h : db.Covered) (hdb : db.WellFormed) (hs : s ∈ db.allSchemas)
    (hnodup : gone.Nodup) (hheld : ∀ o ∈ gone, db.Holds s o)
    (hon : ∀ t ∈ gone, t ∈ (db.space s .tableOrView).values →
      ∀ i ∈ (db.space s .index).values, (db.object t).id = (db.indexOf i).tableId → i ∈ gone) :
    (detachedAll s gone db).Covered := by
  have hsame : ∀ o, Same db (Database.detachedAll s gone db) o := by
    intro o
    have hobject := object_detachedAll s gone db o
    split at hobject
    · exact .invalidate hobject
    · exact .of_eq hobject
  intro r hr
  rw [allSchemas_detachedAll] at hr
  by_cases hrs : r = s
  · subst hrs
    have hmem : ∀ kind o, o ∈ ((Database.detachedAll r gone db).space r kind).values ↔
        o ∈ (db.space r kind).values ∧ o ∉ gone := fun _ _ =>
      (hdb.live hr).mem_space_detachedAll hnodup hheld
    refine (h r hr).mono (fun t _ => hsame t) (fun i _ => hsame i)
      (fun i hi => ((hmem _ i).mp hi).1) fun t ht i hi hid => (hmem _ t).mpr ⟨ht, fun hgone => ?_⟩
    obtain ⟨hi, hstays⟩ := (hmem _ i).mp hi
    exact hstays (hon t hgone ht i hi hid)
  · have hspace : ∀ kind, (Database.detachedAll s gone db).space r kind = db.space r kind := by
      intro kind
      rw [space, schema_detachedAll_of_ne gone db hrs, space]
    rw [hspace, hspace]
    exact (h r hr).congr fun o _ => hsame o

private theorem Covered.tableRemoved (h : db.Covered) (hdb : db.WellFormed) (hs : s ∈ db.allSchemas)
    (ht : t ∈ (db.space s .tableOrView).values) : (db.tableRemoved s t).Covered := by
  obtain ⟨hnodup, hheld⟩ := (hdb.inOrder hs).indexesOn_append ht
  refine h.detachedAll hdb hs hnodup hheld fun u hu htable i hi hid => ?_
  rcases List.mem_append.mp hu with hu | hu
  · have hkind := hdb.kind_of_mem hs (mem_indexesOn.mp hu).1
    rw [hdb.kind_of_mem hs htable] at hkind
    cases hkind
  · rw [List.mem_singleton.mp hu] at hid
    exact List.mem_append_left _ (mem_indexesOn.mpr ⟨hi, hid.symm⟩)

private theorem session_tableRemoved (s : SchemaRef) (t : ObjectRef) (db : Database)
    (c : SessionRef) :
    (db.tableRemoved s t).session c = db.session c := by
  rw [Database.tableRemoved, (frame_detachedAll s _ db).rest]
  rfl

private theorem Covered.detached (h : db.Covered) (hdb : db.WellFormed) (hs : s ∈ db.allSchemas)
    (ho : db.Holds s o) (hkind : (db.object o).kind ≠ .tableOrView) :
    (detached s db o).Covered := by
  refine h.detachedAll hdb hs (List.nodup_singleton o) ?_ fun t ht htable => ?_
  · intro o' ho'
    rwa [List.mem_singleton.mp ho']
  · rw [List.mem_singleton.mp ht] at htable
    exact absurd (hdb.kind_of_mem hs htable) hkind

private theorem Covered.dropped {name : String} (h : db.Covered) (hdb : db.WellFormed)
    (hs : s ∈ db.allSchemas) (hdropped : Dropped name s db db') : db'.Covered := by
  have hshrinks := hdropped.shrinks hdb.toConsistent hs
  intro r hr
  have hrs : r ≠ s := by
    rintro rfl
    exact hdropped.unregistered hr
  have hspace : ∀ kind, db'.space r kind = db.space r kind := by
    intro kind
    rw [space, hdropped.otherSchemas r hrs, space]
  rw [hspace, hspace]
  exact (h r (hshrinks.mem_allSchemas hr)).congr fun o _ => hshrinks.objects o

private theorem Covered.withSchema {name : String} {owner : Option Principal} {system : Bool}
    (h : db.Covered) (hdb : db.WellFormed) : (withSchema name owner system db).Covered := by
  intro r hr
  rcases NameMap.mem_values_of_mem_insert hr with rfl | hr
  · rw [space_nextSchema, space_nextSchema]
    intro i hi
    cases hi
  · have hne := hdb.ne_nextSchema hr
    rw [space_withSchema hne, space_withSchema hne]
    exact (h r hr).congr fun o _ => .of_eq rfl

/-- A new registered index is on a table of its schema. -/
private theorem Covered.objectCreated {name : String} {body : ObjectBody} (h : db.Covered)
    (hdb : db.WellFormed) (hfree : (db.space s body.kind).get? name = none)
    (hfits : db.Fits s body) :
    (entered s db.nextObject (db.withObject s name body)).Covered := by
  have hnew : (db.withObject s name body).object db.nextObject =
    { id := UInt32.ofNat db.nextId, name, schema := some s, body } := object_nextObject
  have hspace : ∀ r kind, (entered s db.nextObject (db.withObject s name body)).space r kind =
      if r = s ∧ kind = body.kind then (db.space s kind).insert name db.nextObject
      else db.space r kind := by
    intro r kind
    rw [space_entered, nameOf, hnew]
    rfl
  have hsame : ∀ o, db.Registered o →
      Same db (entered s db.nextObject (db.withObject s name body)) o := fun o ho =>
    .of_eq (object_withObject_of_lt s name body (hdb.slots o ho))
  -- a table of the schema is still there
  have htables : ∀ r, ∀ t ∈ (db.space r .tableOrView).values,
      t ∈ ((entered s db.nextObject (db.withObject s name body)).space r .tableOrView).values := by
    intro r t ht
    rw [hspace]
    split
    next heq =>
      obtain ⟨rfl, hkind⟩ := heq
      rw [← hkind] at hfree
      exact (NameMap.mem_values_insert hfree _ _).mpr (.inr ht)
    next => exact ht
  intro r hr i hi
  have hold : ∀ i ∈ (db.space r .index).values,
      ∃ t ∈ ((entered s db.nextObject (db.withObject s name body)).space r .tableOrView).values,
        ((entered s db.nextObject (db.withObject s name body)).object t).id =
          ((entered s db.nextObject (db.withObject s name body)).indexOf i).tableId := by
    intro i hi
    obtain ⟨t, ht, hid⟩ := h r hr i hi
    refine ⟨t, htables r t ht, ?_⟩
    rw [(hsame t (registered_of_mem hr ht)).id, (hsame i (registered_of_mem hr hi)).index, hid]
  rw [hspace] at hi
  split at hi
  next heq =>
    obtain ⟨rfl, hkind⟩ := heq
    rcases NameMap.mem_values_of_mem_insert hi with rfl | hi
    · cases body with
      | index index =>
        obtain ⟨t, ht, hid⟩ := hfits
        refine ⟨t, htables r t ht, ?_⟩
        rw [(hsame t (registered_of_mem hr ht)).id, hid]
        exact congrArg (fun object => (Object.asIndex object).tableId) hnew.symm
      | _ => cases hkind
    · exact hold i hi
  next => exact hold i hi

private theorem Covered.renamed {newName : String} (h : db.Covered) (hdb : db.WellFormed)
    (hs : s ∈ db.allSchemas) (ho : db.Holds s o)
    (hfree : (db.space s (db.object o).kind).get? newName = none) :
    (renamed s o newName db).Covered := by
  have hindex : ∀ i, (Database.renamed s o newName db).indexOf i = db.indexOf i := fun i =>
    field_modifyObject Object.asIndex i rfl
  intro r hr i hi
  obtain ⟨t, ht, hid⟩ := h r hr i ((hdb.mem_space_renamed hs ho hfree).mp hi)
  refine ⟨t, (hdb.mem_space_renamed hs ho hfree).mpr ht, ?_⟩
  rw [id_renamed, hindex, hid]

end Registries

section Sessions

variable {c : SessionRef} {db db' : Database} {s : SchemaRef} {o t i : ObjectRef}
  {gone : List ObjectRef}

/-- Sessions keep their indexes under their names with the tables that they are on, and share
nothing. -/
structure SessionsInOrder (db : Database) : Prop where
  covered : ∀ c, db.Covers (db.session c).tempTables (db.session c).tempIndexes
  indexNames : ∀ c, (db.session c).tempIndexes.Keyed db.nameOf
  indexKinds : ∀ c, ∀ i ∈ (db.session c).tempIndexes.values, (db.object i).kind = .index
  keeper : ∀ c d o, db.Keeps c o → db.Keeps d o → c = d

namespace SessionsInOrder

theorem tidy (h : db.SessionsInOrder) (hdb : db.WellFormed) (c : SessionRef) : db.Tidy c where
  tableNames := hdb.tempKeyed c
  indexNames := h.indexNames c
  tableKinds := fun t ht => (hdb.tempTables c t ht).1
  indexKinds := h.indexKinds c

theorem congr (h : db.SessionsInOrder)
    (htables : ∀ c, (db'.session c).tempTables = (db.session c).tempTables)
    (hindexes : ∀ c, (db'.session c).tempIndexes = (db.session c).tempIndexes)
    (hsame : ∀ c o, db.Keeps c o → Same db db' o) : db'.SessionsInOrder where
  covered := by
    intro c
    rw [htables, hindexes]
    exact (h.covered c).congr fun o ho => hsame c o ho
  indexNames := by
    intro c
    rw [hindexes]
    exact (h.indexNames c).congr fun i hi => (hsame c i (.inr hi)).name
  indexKinds := by
    intro c i hi
    rw [hindexes] at hi
    rw [(hsame c i (.inr hi)).kind]
    exact h.indexKinds c i hi
  keeper := by
    intro c d o hc hd
    rw [Keeps, htables, hindexes] at hc hd
    exact h.keeper c d o hc hd

/-- One session may change as it likes, as long as it is in order itself and takes nothing that
another one keeps. -/
theorem modifySession (h : db.SessionsInOrder) (c : SessionRef) {change : Session → Session}
    (hcovered : db.Covers (change (db.session c)).tempTables (change (db.session c)).tempIndexes)
    (hnames : (change (db.session c)).tempIndexes.Keyed db.nameOf)
    (hkinds : ∀ i ∈ (change (db.session c)).tempIndexes.values, (db.object i).kind = .index)
    (hkeeper : ∀ o, (o ∈ (change (db.session c)).tempTables.values ∨
      o ∈ (change (db.session c)).tempIndexes.values) → ∀ d, db.Keeps d o → d = c) :
    (db.modifySession c change).SessionsInOrder := by
  have hsession : ∀ d, (db.modifySession c change).session d =
      if d = c then change (db.session c) else db.session d := fun d => session_modifySession ..
  have hkeeps : ∀ d o, (db.modifySession c change).Keeps d o →
      (d = c ∧ (o ∈ (change (db.session c)).tempTables.values ∨
        o ∈ (change (db.session c)).tempIndexes.values)) ∨ (d ≠ c ∧ db.Keeps d o) := by
    intro d o ho
    rw [Keeps, hsession] at ho
    split at ho
    next hd => exact .inl ⟨hd, ho⟩
    next hd => exact .inr ⟨hd, ho⟩
  refine ⟨fun d => ?_, fun d => ?_, fun d i hi => ?_, fun d d' o hd hd' => ?_⟩
  · rw [hsession]
    split
    · exact hcovered
    · exact h.covered d
  · rw [hsession]
    split
    · exact hnames
    · exact h.indexNames d
  · rw [hsession] at hi
    split at hi
    · exact hkinds i hi
    · exact h.indexKinds d i hi
  · rcases hkeeps d o hd with ⟨rfl, ho⟩ | ⟨hne, ho⟩ <;>
      rcases hkeeps d' o hd' with ⟨rfl, ho'⟩ | ⟨hne', ho'⟩
    · rfl
    · exact absurd (hkeeper o ho d' ho') hne'
    · exact absurd (hkeeper o ho' d ho) hne
    · exact h.keeper d d' o ho ho'

theorem tableKept (h : db.SessionsInOrder) (c : SessionRef) (hnew : ∀ d, ¬ db.Keeps d t)
    (hfree : (db.session c).tempTables.get? (db.nameOf t) = none) :
    (tableKept c t db).SessionsInOrder := by
  refine h.modifySession c ?_ (h.indexNames c) (h.indexKinds c) fun o ho d hd => ?_
  · exact (h.covered c).mono (fun _ _ => .of_eq rfl) (fun _ _ => .of_eq rfl) (fun _ hi => hi)
      fun u hu _ _ _ => (NameMap.mem_values_insert hfree _ _).mpr (.inr hu)
  · have hor : o = t ∨ db.Keeps c o := by
      rcases ho with ho | ho
      · exact (NameMap.mem_values_of_mem_insert ho).imp_right .inl
      · exact .inr (.inr ho)
    rcases hor with rfl | ho
    · exact absurd hd (hnew d)
    · exact h.keeper d c o hd ho

theorem indexKept (h : db.SessionsInOrder) (c : SessionRef) (hnew : ∀ d, ¬ db.Keeps d i)
    (hkind : (db.object i).kind = .index) (ht : t ∈ (db.session c).tempTables.values)
    (hid : (db.object t).id = (db.indexOf i).tableId) : (indexKept c i db).SessionsInOrder := by
  refine h.modifySession c (fun j hj => ?_) ((h.indexNames c).insert rfl) (fun j hj => ?_)
    fun o ho d hd => ?_
  · rcases NameMap.mem_values_of_mem_insert hj with rfl | hj
    · exact ⟨t, ht, hid⟩
    · exact h.covered c j hj
  · rcases NameMap.mem_values_of_mem_insert hj with rfl | hj
    · exact hkind
    · exact h.indexKinds c j hj
  · have hor : o = i ∨ db.Keeps c o := by
      rcases ho with ho | ho
      · exact .inr (.inl ho)
      · exact (NameMap.mem_values_of_mem_insert ho).imp_right .inr
    rcases hor with rfl | ho
    · exact absurd hd (hnew d)
    · exact h.keeper d c o hd ho

/-- Indexes of a session may go, and tables with the indexes made on them. -/
theorem tempDropped (h : db.SessionsInOrder) (hdropped : TempDropped c gone db db')
    (htakes : db.TakesAlong c gone) : db'.SessionsInOrder where
  covered := by
    intro d
    by_cases hd : d = c
    · subst hd
      refine (h.covered d).mono (fun t _ => hdropped.same t) (fun i _ => hdropped.same i)
        (fun i hi => ((hdropped.mem_indexes i).mp hi).1) fun t ht i hi hid => ?_
      obtain ⟨hi, hstays⟩ := (hdropped.mem_indexes i).mp hi
      exact (hdropped.mem_tables t).mpr ⟨ht, fun hgone => hstays (htakes t hgone ht i hi hid.symm)⟩
    · rw [hdropped.others d hd]
      exact (h.covered d).congr fun o _ => hdropped.same o
  indexNames := by
    intro d
    have hwithin : (db'.session d).tempIndexes.Within (db.session d).tempIndexes := by
      by_cases hd : d = c
      · exact hd ▸ hdropped.indexes
      · rw [hdropped.others d hd]
        exact .refl _
    exact ((h.indexNames d).within hwithin).congr fun i _ => (hdropped.same i).name
  indexKinds := by
    intro d i hi
    rw [(hdropped.same i).kind]
    by_cases hd : d = c
    · subst hd
      exact h.indexKinds d i ((hdropped.mem_indexes i).mp hi).1
    · rw [hdropped.others d hd] at hi
      exact h.indexKinds d i hi
  keeper := fun d d' o hd hd' => h.keeper d d' o (hdropped.keeps hd) (hdropped.keeps hd')

end SessionsInOrder

end Sessions

section Steps

variable {c : SessionRef} {db db' : Database} {schemaName : String}

/-- Every index is kept where its table is. -/
structure Attached (db : Database) : Prop where
  covered : db.Covered
  sessions : db.SessionsInOrder

private theorem Attached.tempDropped {gone : List ObjectRef} (h : db.Attached)
    (hdropped : TempDropped c gone db db') (htakes : db.TakesAlong c gone) : db'.Attached where
  covered := by
    refine h.covered.congr hdropped.allSchemas_eq (fun s kind => ?_) fun o _ => hdropped.same o
    rw [space, hdropped.schema_eq, space]
  sessions := h.sessions.tempDropped hdropped htakes

theorem Attached.withSchema {name : String} {owner : Option Principal} {system : Bool}
    (h : db.Attached) (hdb : db.WellFormed) : (withSchema name owner system db).Attached :=
  ⟨h.covered.withSchema hdb,
    h.sessions.congr (fun _ => rfl) (fun _ => rfl) fun _ _ _ => .of_eq rfl⟩

/-- Every change keeps the indexes with their tables. -/
theorem Change.attached (h : Change c schemaName db db') (hdb : db.WellFormed)
    (hatt : db.Attached) : db'.Attached := by
  have hunkept : ∀ d, ¬ db.Keeps d db.nextObject := fun d hd =>
    Nat.lt_irrefl _ (hdb.keptSlots d _ hd)
  have hmade : ∀ s name body, (db.withObject s name body).Attached := fun s name body => {
    covered := hatt.covered.congr rfl (fun _ _ => rfl) fun o ho =>
      same_withObject_of_lt s name body (hdb.slots o ho)
    sessions := hatt.sessions.congr (fun _ => rfl) (fun _ => rfl) fun d o ho =>
      same_withObject_of_lt s name body (hdb.keptSlots d o ho) }
  cases h with
  | schemaCreated => exact hatt.withSchema hdb
  | schemaDropped hname _ hdropped =>
    have hs := mem_allSchemas_of_find hname
    have hsession : ∀ d, db'.session d = db.session d := by
      intro d
      rw [hdropped.rest]
      rfl
    exact ⟨hatt.covered.dropped hdb hs hdropped, hatt.sessions.congr (fun d => by rw [hsession])
      (fun d => by rw [hsession]) fun _ o _ => (hdropped.shrinks hdb.toConsistent hs).objects o⟩
  | objectCreated _ hfree hfits =>
    exact ⟨hatt.covered.objectCreated hdb hfree hfits,
      (hmade _ _ _).sessions.congr (fun _ => rfl) (fun _ => rfl) fun _ _ _ => .of_eq rfl⟩
  | @tempTableCreated s name table hfree hlocal =>
    have hnew : (db.withObject s name (.table table)).object db.nextObject =
      { id := UInt32.ofNat db.nextId, name, schema := some s, body := .table table } :=
        object_nextObject
    refine ⟨(hmade s name (.table table)).covered.congr rfl (fun _ _ => rfl) fun _ _ => .of_eq rfl,
      (hmade s name (.table table)).sessions.tableKept c hunkept ?_⟩
    rw [nameOf, hnew]
    exact hfree
  | @tempIndexCreated s name index t hfree ht hindex =>
    have hnew : (db.withObject s name (.index index)).object db.nextObject =
      { id := UInt32.ofNat db.nextId, name, schema := some s, body := .index index } :=
        object_nextObject
    have hsame := same_withObject_of_lt s name (.index index) (hdb.keptSlots c t (.inl ht))
    refine ⟨(hmade s name (.index index)).covered.congr rfl (fun _ _ => rfl) fun _ _ => .of_eq rfl,
      (hmade s name (.index index)).sessions.indexKept c hunkept ?_ ht ?_⟩
    · rw [hnew]
      rfl
    · rw [hsame.id, indexOf, hnew]
      exact hindex.symm
  | renamed hname ho hfree =>
    have hs := mem_allSchemas_of_find hname
    refine ⟨hatt.covered.renamed hdb hs ho hfree,
      hatt.sessions.congr (fun _ => rfl) (fun _ => rfl) ?_⟩
    intro d other hother
    refine .of_eq ((object_renamed).trans (if_neg ?_))
    rintro rfl
    exact hdb.apart d other hother ⟨_, hs, ho⟩
  | tableRemoved hname ht hfree =>
    have hs := mem_allSchemas_of_find hname
    exact ⟨hatt.covered.tableRemoved hdb hs ht, hatt.sessions.congr
      (fun d => by rw [session_tableRemoved]) (fun d => by rw [session_tableRemoved])
      fun _ o _ => ((hdb.live hs).shrinks_tableRemoved ht hfree).objects o⟩
  | objectRemoved hname ho hkind =>
    have hs := mem_allSchemas_of_find hname
    exact ⟨hatt.covered.detached hdb hs ho hkind,
      hatt.sessions.congr (fun _ => rfl) (fun _ => rfl) fun _ o _ =>
        ((hdb.live hs).shrinks_detached ho hkind).objects o⟩
  | tempTableDropped name =>
    obtain ⟨gone, hdropped, htakes⟩ := (hatt.sessions.tidy hdb c).dropTempTable name
    exact hatt.tempDropped hdropped htakes
  | tempIndexDropped name =>
    obtain ⟨gone, hdropped, htakes⟩ := (hatt.sessions.tidy hdb c).dropTempIndex name
    exact hatt.tempDropped hdropped htakes
  | tableAltered _ _ hscope hreferences =>
    have hshrinks := shrinks_setTable _ db hscope hreferences
    exact ⟨hatt.covered.congr rfl (fun _ _ => rfl) fun o _ => hshrinks.objects o,
      hatt.sessions.congr (fun _ => rfl) (fun _ => rfl) fun _ o _ => hshrinks.objects o⟩
  | reservationsChanged =>
    exact ⟨hatt.covered.congr rfl (fun r kind => space_withReservations ..) fun _ _ => .of_eq rfl,
      hatt.sessions.congr (fun _ => rfl) (fun _ => rfl) fun _ _ _ => .of_eq rfl⟩

theorem Changes.attached (h : Changes c schemaName db db') (hdb : db.WellFormed)
    (hatt : db.Attached) (hid : db'.nextId ≤ UInt32.size) : db'.Attached := by
  induction h with
  | refl => exact hatt
  | tail hbefore hlast ih =>
    have hmid := Nat.le_trans hlast.nextId_le hid
    exact hlast.attached (Changes.wellFormed hbefore hdb hmid) (ih hmid)

end Steps

section Closing

variable {c : SessionRef} {db : Database}

private theorem SessionsInOrder.openSession (h : db.SessionsInOrder) (user : Principal) :
    (db.openSession user).2.SessionsInOrder := by
  have hsession := session_openSession db user
  have hkeeps : ∀ d o, (db.openSession user).2.Keeps d o → db.Keeps d o := by
    intro d o ho
    exact (shrinks_openSession db user).keeps ho
  refine ⟨fun d => ?_, fun d => ?_, fun d i hi => ?_, fun d d' o hd hd' =>
    h.keeper d d' o (hkeeps d o hd) (hkeeps d' o hd')⟩
  · rw [hsession]
    split
    · intro i hi
      cases hi
    · exact (h.covered d).congr fun _ _ => .of_eq rfl
  · rw [hsession]
    split
    · exact .empty db.rule _
    · exact h.indexNames d
  · rw [hsession] at hi
    split at hi
    · cases hi
    · exact h.indexKinds d i hi

private theorem Attached.openSession (h : db.Attached) (user : Principal) :
    (db.openSession user).2.Attached :=
  ⟨h.covered.congr rfl (fun _ _ => rfl) fun _ _ => .of_eq rfl, h.sessions.openSession user⟩

/-- A session that is closed while it is open takes everything along that it keeps. -/
theorem Attached.tempDropped_close (h : db.Attached) (hdb : db.WellFormed)
    (hactive : (db.session c).active = true) :
    ∃ gone, TempDropped c gone (deactivated c db) (c.close db) ∧ ∀ o, db.Keeps c o → o ∈ gone := by
  obtain ⟨gone, hdropped, htables, hindexes⟩ :=
    (h.sessions.tidy hdb c).tempDropped_close hactive
  refine ⟨gone, hdropped, fun o ho => ho.elim (htables o) fun hi => ?_⟩
  obtain ⟨t, ht, hid⟩ := h.sessions.covered c o hi
  exact hindexes t ht o hi hid.symm

/-- Closing a session does not by itself take anything from it. -/
theorem temps_deactivated (c d : SessionRef) (db : Database) :
    ((deactivated c db).session d).tempTables = (db.session d).tempTables ∧
      ((deactivated c db).session d).tempIndexes = (db.session d).tempIndexes := by
  rw [session_deactivated]
  split
  next hd => exact hd ▸ ⟨rfl, rfl⟩
  next => exact ⟨rfl, rfl⟩

private theorem SessionsInOrder.deactivated (h : db.SessionsInOrder) (c : SessionRef) :
    (deactivated c db).SessionsInOrder :=
  h.congr (fun d => (temps_deactivated c d db).1) (fun d => (temps_deactivated c d db).2)
    fun _ _ _ => .of_eq rfl

private theorem Attached.close (h : db.Attached) (hdb : db.WellFormed) (c : SessionRef) :
    (c.close db).Attached := by
  cases hactive : (db.session c).active with
  | false =>
    rw [SessionRef.close, hactive]
    exact h
  | true =>
    have hclosed : (deactivated c db).Attached :=
      ⟨h.covered.congr rfl (fun _ _ => rfl) fun _ _ => .of_eq rfl, h.sessions.deactivated c⟩
    obtain ⟨gone, hdropped, hall⟩ := h.tempDropped_close hdb hactive
    refine hclosed.tempDropped hdropped fun t ht htable i hi hid => hall i (.inr ?_)
    rwa [(temps_deactivated c c db).2] at hi

end Closing

end Database

section Actions

variable {db : Database}

theorem Action.attached (h : db.WellFormed) (hatt : db.Attached) (action : Action)
    (hid : (action.run db).nextId ≤ UInt32.size) : (action.run db).Attached := by
  have hframe : ∀ users nextId openSessions,
      Attached { db with users, nextId, openSessions } := fun _ _ _ =>
    ⟨hatt.covered.congr rfl (fun _ _ => rfl) fun _ _ => .of_eq rfl,
      hatt.sessions.congr (fun _ => rfl) (fun _ => rfl) fun _ _ _ => .of_eq rfl⟩
  cases action with
  | execute c statement =>
    rcases changes_execute h c statement with ⟨schemaName, -, hchanges⟩ | hsame
    · exact hchanges.attached h hatt hid
    · rw [Action.run, hsame]
      exact hatt
  | openSession user => exact hatt.openSession user
  | closeSession c => exact hatt.close h c
  | removeSession c =>
    rw [Action.run, Database.removeSession]
    split
    · exact (hframe db.users db.nextId _).close (h.shrinks (shrinks_withOpenSessions db _)) c
    · exact hatt
  | createUser name admin =>
    obtain ⟨users, nextId, -, hafter⟩ := stateAfter_createUser db name admin
    rw [Action.run, hafter]
    exact hframe users nextId db.openSessions
  | dropUser name =>
    obtain ⟨users, hafter⟩ := stateAfter_dropUser db name
    rw [Action.run, hafter]
    exact hframe users db.nextId db.openSessions

end Actions

end SchemaCatalog
