import SchemaCatalog.Database.Columns
import SchemaCatalog.Database.Objects
import SchemaCatalog.Proofs.TwoRuns.Basic
/-!
# Two runs of the catalog

In databases that match, look-ups agree, and the operations on schemas, sessions and objects are
tied.
-/
namespace SchemaCatalog

open Database

section Lists

variable {α β γ : Type} {R : α → β → Prop} {l : List α} {l' : List β}

theorem find?_of_forall₂ {p : α → Bool} {q : β → Bool} (h : List.Forall₂ R l l')
    (hpq : ∀ a b, R a b → q b = p a) : Option.Rel R (l.find? p) (l'.find? q) := by
  induction h with
  | nil => exact .none
  | @cons a b l l' hab _ ih =>
    rw [List.find?_cons, List.find?_cons, hpq a b hab]
    cases p a with
    | true => exact .some hab
    | false => exact ih

theorem map_eq_of_forall₂ {f : α → γ} {g : β → γ} (h : List.Forall₂ R l l')
    (hfg : ∀ a b, R a b → g b = f a) : l'.map g = l.map f := by
  have hmaps : List.Forall₂ Eq (l'.map g) (l.map f) :=
    List.rel_map (fun b a hab => hfg a b hab) h.flip
  rwa [List.forall₂_eq_eq_eq] at hmaps

theorem any_eq_of_forall₂ {p : α → Bool} {q : β → Bool} (h : List.Forall₂ R l l')
    (hpq : ∀ a b, R a b → q b = p a) : l'.any q = l.any p := by
  induction h with
  | nil => rfl
  | @cons a b l l' hab _ ih => rw [List.any_cons, List.any_cons, hpq a b hab, ih]

private theorem filter_forall₂ {p : α → Bool} {q : β → Bool} (h : List.Forall₂ R l l')
    (hpq : ∀ a b, R a b → q b = p a) : List.Forall₂ R (l.filter p) (l'.filter q) := by
  refine List.rel_filter (fun a b hab => ?_) h
  simp only [hpq a b hab]

end Lists

section Registries

variable {R : ObjectRef → ObjectRef → Prop} {registry registry' : Registry} {o o' : ObjectRef}

namespace Registry.Matches

variable (h : registry.Matches R registry')

include h

private theorem find? (kind : ObjectKind) (name : String) :
    Option.Rel R (registry.find? kind name) (registry'.find? kind name) :=
  (h kind).get? name

private theorem add (ho : R o o') (owner : SchemaRef) (object : Object) :
    Agree (Registry.Matches R) (registry.add owner o object) (registry'.add owner o' object) := by
  rw [Registry.add, Registry.add, (h object.kind).contains]
  split
  · exact .error _
  · split
    · exact .error _
    · exact .ok (h.modifySpace object.kind ((h object.kind).insert object.name ho))

variable (hinj : ∀ p p', R p p' → (p = o ↔ p' = o'))

include hinj

private theorem contains (object : Object) :
    registry'.contains o' object = registry.contains o object := by
  rw [Registry.contains, Registry.contains]
  obtain ⟨hp, hp'⟩ | ⟨p, p', hp, hp', hrel⟩ := cases_of_rel (h.find? object.kind object.name)
  · rw [hp, hp']
    rfl
  · rw [hp, hp']
    simp only [Option.some.injEq, hinj p p' hrel]

private theorem rename (ho : R o o') (object : Object) (newName : String) :
    Agree (Registry.Matches R) (registry.rename o object newName)
      (registry'.rename o' object newName) := by
  rw [Registry.rename, Registry.rename, h.contains hinj, (h object.kind).contains]
  dsimp only
  cases registry.contains o object with
  | false => exact .error _
  | true =>
    simp only [Bool.not_true, Bool.false_eq_true, if_false]
    split
    · exact .error _
    · cases object.checkRename with
      | error e => exact .error e
      | ok =>
        refine .ok (h.modifySpace object.kind ?_)
        exact ((h object.kind).erase object.name).insert newName ho

private theorem remove (object : Object) :
    Agree (Registry.Matches R) (registry.remove o object) (registry'.remove o' object) := by
  rw [Registry.remove, Registry.remove]
  obtain ⟨hp, hp'⟩ | ⟨p, p', hp, hp', hrel⟩ := cases_of_rel (h.find? object.kind object.name)
  · rw [hp, hp']
    exact .error _
  · rw [hp, hp']
    simp only [← hinj p p' hrel]
    split
    · exact .ok (h.modifySpace object.kind ((h object.kind).erase object.name))
    · exact .error _

end Registry.Matches

end Registries

namespace Alike

variable {c : SessionRef} {M : Matching} {db db' : Database} {s : SchemaRef} {t t' o o' : ObjectRef}

section Lookups

private theorem orNotFound_agree {o? o'? : Option ObjectRef} (kind : ObjectKind) (name : String)
    (ho : Option.Rel M.objects o? o'?) :
    Agree M.objects (SchemaRef.orNotFound kind name o? db)
      (SchemaRef.orNotFound kind name o'? db') := by
  cases ho with
  | none => exact .error _
  | some ho => exact .ok ho

private theorem sessionFor_agree (c : SessionRef) (t t' : ObjectRef) :
    Agree (fun d d' => d = c ∧ d' = c) (SchemaRef.sessionFor (some c) t db)
      (SchemaRef.sessionFor (some c) t' db') :=
  .ok ⟨rfl, rfl⟩

variable (h : Alike c M db db') (hs : M.schemas s)

include h

theorem map_nameOf_eq {l l' : List ObjectRef} (hl : List.Forall₂ M.objects l l') :
    l'.map db'.nameOf = l.map db.nameOf :=
  map_eq_of_forall₂ hl fun _ _ ho => h.nameOf_eq ho

theorem getSchema_agree (name : String) :
    Agree (fun s s' => s' = s ∧ M.schemas s) (getSchema name db) (getSchema name db') := by
  rw [getSchema, read_bind_run, read_bind_run, h.findSchema_eq]
  cases hname : db.findSchema name with
  | none => exact .error _
  | some s => exact .ok ⟨rfl, h.schemas_of_find hname⟩

private theorem schemaOf_agree (ho : M.objects o o') :
    Agree (fun s s' => s' = s ∧ M.schemas s) (schemaOf o db) (schemaOf o' db') := by
  rw [schemaOf, schemaOf, read_bind_run, read_bind_run, h.object o o' ho, h.allSchemas_eq]
  cases (db.object o).schema with
  | none => exact .error _
  | some s =>
    simp only
    split
    next hregistered => exact .ok ⟨rfl, h.listed s (List.contains_iff_mem.mp hregistered)⟩
    next => exact .error _

private theorem tempIndexesOf_forall₂ (id : UInt32) :
    List.Forall₂ M.objects (c.tempIndexesOf id db) (c.tempIndexesOf id db') := by
  refine filter_forall₂ h.indexes.values fun i i' hi => ?_
  rw [h.indexOf_eq hi]

include hs

theorem activeRegistry_agree :
    Agree (Registry.Matches M.objects) (s.activeRegistry db) (s.activeRegistry db') := by
  have hschema := h.schema s hs
  simp only [SchemaRef.activeRegistry, Schema.activeRegistry, hschema.state_eq, hschema.name_eq]
  cases (db.schema s).state with
  | active => exact .ok hschema.registry
  | invalid => exact .error _

theorem findObject_agree (kind : ObjectKind) (name : String) :
    Agree (Option.Rel M.objects) (s.findObject kind name db) (s.findObject kind name db') :=
  (h.activeRegistry_agree hs).bind fun _ _ hregistry => .ok (hregistry.find? kind name)

private theorem objectsOf_agree (kind : ObjectKind) :
    Agree (List.Forall₂ M.objects) (s.objectsOf kind db) (s.objectsOf kind db') :=
  (h.activeRegistry_agree hs).bind fun _ _ hregistry => .ok (hregistry kind).values

theorem getObject_agree (kind : ObjectKind) (name : String) :
    Agree M.objects (s.getObject kind name db) (s.getObject kind name db') :=
  (h.findObject_agree hs kind name).bind fun _ _ ho => orNotFound_agree kind name ho

theorem findTable_agree (name : String) :
    Agree (Option.Rel M.objects) (s.findTable (some c) name db)
      (s.findTable (some c) name db') := by
  refine (h.findObject_agree hs .tableOrView name).bind fun t? t'? ht => ?_
  cases ht with
  | none => exact .ok (h.tables.get? name)
  | some ht => exact .ok (.some ht)

theorem findIndex_agree (session : Option SessionRef) (hsession : ∀ d ∈ session, d = c)
    (name : String) :
    Agree (Option.Rel M.objects) (s.findIndex session name db) (s.findIndex session name db') := by
  refine (h.findObject_agree hs .index name).bind fun i? i'? hi => ?_
  cases hi with
  | some hi => exact .ok (.some hi)
  | none =>
    cases session with
    | none => exact .ok .none
    | some d =>
      obtain rfl := hsession d rfl
      exact .ok (h.indexes.get? name)

theorem getTable_agree (name : String) :
    Agree M.objects (s.getTable (some c) name db) (s.getTable (some c) name db') :=
  (h.findTable_agree hs name).bind fun _ _ ht => orNotFound_agree .tableOrView name ht

private theorem tablesIn_forall₂ : List.Forall₂ M.objects (db.tablesIn s) (db'.tablesIn s) := by
  obtain ⟨tables, tables', hlook, hlook', htables⟩ | ⟨e, hlook, hlook'⟩ :=
    (h.objectsOf_agree hs .tableOrView).cases
  · rw [tablesIn, tablesIn, SchemaRef.tables, hlook, hlook']
    exact htables
  · rw [tablesIn, tablesIn, SchemaRef.tables, hlook, hlook']
    exact .nil

end Lookups

section Dependents

variable (h : Alike c M db db') (ht : M.objects t t')

include h

private theorem allTables_forall₂ : List.Forall₂ M.objects db.allTables db'.allTables := by
  rw [allTables, allTables, h.allSchemas_eq]
  have hsame : List.Forall₂ (fun s s' => s' = s ∧ M.schemas s) db.allSchemas db.allSchemas :=
    List.forall₂_same.mpr fun s hs => ⟨rfl, h.listed s hs⟩
  refine List.rel_flatMap hsame fun _ s hs => ?_
  obtain ⟨rfl, hs⟩ := hs
  exact h.tablesIn_forall₂ hs

include ht

private theorem findDependent_rel :
    Option.Rel M.objects (db.findDependent t t) (db'.findDependent t' t') := by
  refine find?_of_forall₂ (filter_forall₂ h.allTables_forall₂ fun o o' ho => ?_) fun o o' ho => ?_
  · rw [dependsOn, dependsOn, h.object o o' ho, h.object t t' ht, h.tableOf_eq ho]
  · rw [h.object o o' ho, h.object t t' ht]

theorem indexesOf_agree :
    Agree (List.Forall₂ M.objects) (indexesOf (some c) t db) (indexesOf (some c) t' db') := by
  rw [indexesOf, indexesOf, read_bind_run, read_bind_run, h.object t t' ht, h.tableOf_eq ht]
  split
  · exact .ok (h.tempIndexesOf_forall₂ _)
  · refine (h.schemaOf_agree ht).bind fun _ s hs => ?_
    obtain ⟨rfl, hs⟩ := hs
    refine (h.objectsOf_agree hs .index).bind fun indexes indexes' hindexes => .ok ?_
    refine filter_forall₂ hindexes fun i i' hi => ?_
    rw [h.indexOf_eq hi]

end Dependents

section Schemas

variable (h : Alike c M db db') (hs : M.schemas s) (ho : M.objects o o')

include h hs

theorem release (r : Reservation) : Alike c M (s.release r db) (s.release r db') := by
  have hreservations := (h.schema s hs).reservations_eq
  refine h.modifySchema ?_
  rw [hreservations]
  exact (h.schema s hs).withReservations _

private theorem reserve (base stem : String) {live live' : NameMap ObjectRef}
    (hlive : live.Matches M.objects live') :
    (s.reserve base stem live' db').1 = (s.reserve base stem live db).1 ∧
      Alike c M (s.reserve base stem live db).2 (s.reserve base stem live' db').2 := by
  have hcontains : live'.contains = live.contains := funext hlive.contains
  rw [SchemaRef.reserve, SchemaRef.reserve, (h.schema s hs).reservations_eq, hcontains, hlive.size]
  exact ⟨rfl, h.modifySchema ((h.schema s hs).withReservations _)⟩

private theorem uniqueName_tied (base : String) (kind : ObjectKind) (stem : String) :
    Tied c M Equal (s.uniqueName base kind stem db) (s.uniqueName base kind stem db') := by
  refine .bind_look (h.activeRegistry_agree hs) h fun registry registry' hregistry => ?_
  obtain ⟨heq, halike⟩ := h.reserve hs base stem (hregistry kind)
  exact .ok M.le_refl halike heq

theorem uniqueIndexName_tied (ht : M.objects t t') (stem : String) :
    Tied c M Equal (s.uniqueIndexName (some c) t stem db)
      (s.uniqueIndexName (some c) t' stem db') := by
  refine .get_bind (.get_bind ?_)
  rw [h.nameOf_eq ht, h.tableOf_eq ht]
  split
  · refine .bind_look (sessionFor_agree c t t') h fun d d' ⟨hd, hd'⟩ => ?_
    rw [hd, hd']
    refine .bind_look (h.activeRegistry_agree hs) h fun _ _ _ => .get_bind ?_
    obtain ⟨heq, halike⟩ := h.reserve hs (db.nameOf t) stem h.indexes
    exact .ok M.le_refl halike heq
  · exact h.uniqueName_tied hs (db.nameOf t) .index stem

include ho

private theorem add_tied : Tied c M Equal (s.add o db) (s.add o' db') := by
  refine .bind_look (h.activeRegistry_agree hs) h fun registry registry' hregistry => .get_bind ?_
  dsimp only
  rw [h.object o o' ho]
  obtain ⟨changed, changed', hadd, hadd', hchanged⟩ | ⟨e, hadd, hadd'⟩ :=
    (hregistry.add ho s (db.object o)).cases
  · rw [hadd, hadd']
    exact .ok M.le_refl (h.modifySchema (((h.schema s hs).freeName _).withRegistry hchanged)) rfl
  · rw [hadd, hadd']
    exact .throw h

private theorem rename_tied (newName : String) :
    Tied c M Equal (s.rename o newName db) (s.rename o' newName db') := by
  have hinj := fun p p' hp => h.injective p p' o o' hp ho
  refine .bind_look (h.activeRegistry_agree hs) h fun registry registry' hregistry => .get_bind ?_
  dsimp only
  rw [h.object o o' ho]
  obtain ⟨changed, changed', hrename, hrename', hchanged⟩ | ⟨e, hrename, hrename'⟩ :=
    (hregistry.rename hinj ho (db.object o) newName).cases
  · rw [hrename, hrename']
    have hrenamed := h.modifyObject ho (Object.rename newName)
    have hfreed := ((h.schema s hs).freeName (db.object o).name).freeName newName
    exact .ok M.le_refl (hrenamed.modifySchema (hfreed.withRegistry hchanged)) rfl
  · rw [hrename, hrename']
    exact .throw h

private theorem remove_tied : Tied c M Equal (s.remove o db) (s.remove o' db') := by
  have hinj := fun p p' hp => h.injective p p' o o' hp ho
  refine .bind_look (h.activeRegistry_agree hs) h fun registry registry' hregistry => .get_bind ?_
  dsimp only
  rw [h.object o o' ho]
  obtain ⟨changed, changed', hremove, hremove', hchanged⟩ | ⟨e, hremove, hremove'⟩ :=
    (hregistry.remove hinj (db.object o)).cases
  · rw [hremove, hremove']
    exact .ok M.le_refl (h.modifySchema (((h.schema s hs).freeName _).withRegistry hchanged)) rfl
  · rw [hremove, hremove']
    exact .throw h

private theorem detach_tied : Tied c M Equal (s.detach o db) (s.detach o' db') := by
  refine (h.remove_tied hs ho).bind fun M' _ _ db db' hle h _ => ?_
  exact .ok M'.le_refl (h.modifyObject (hle.objects o o' ho) Object.invalidate) rfl

end Schemas

section Sessions

variable (h : Alike c M db db') (ho : M.objects o o')

include h

theorem addTempTable_tied (ht : M.objects t t') :
    Tied c M Equal (c.addTempTable t db) (c.addTempTable t' db') := by
  refine .get_bind ?_
  dsimp only
  rw [h.object t t' ht, h.tables.contains]
  split
  · exact .throw h
  · have hkept := h.tables.insert (db.object t).name ht
    exact .ok M.le_refl (h.modifySession hkept h.indexes (h.user c) (h.active c)) rfl

theorem addTempIndex_tied (hi : M.objects o o') :
    Tied c M Equal (c.addTempIndex o db) (c.addTempIndex o' db') := by
  refine .get_bind ?_
  dsimp only
  rw [h.object o o' hi, h.indexes.contains]
  split
  · exact .throw h
  · have hkept := h.indexes.insert (db.object o).name hi
    exact .ok M.le_refl (h.modifySession h.tables hkept (h.user c) (h.active c)) rfl

theorem dropTempIndex (name : String) :
    Option.Rel M.objects (c.dropTempIndex name db).1 (c.dropTempIndex name db').1 ∧
      Alike c M (c.dropTempIndex name db).2 (c.dropTempIndex name db').2 := by
  have hfind : Option.Rel M.objects (c.tempIndex? name db) (c.tempIndex? name db') :=
    h.indexes.get? name
  rw [SessionRef.dropTempIndex, SessionRef.dropTempIndex]
  obtain ⟨hi, hi'⟩ | ⟨i, i', hi, hi', hrel⟩ := cases_of_rel hfind
  · rw [hi, hi']
    exact ⟨.none, h⟩
  · rw [hi, hi']
    have herased : Alike c M
        (db.modifySession c fun session =>
          { session with tempIndexes := session.tempIndexes.erase name })
        (db'.modifySession c fun session =>
          { session with tempIndexes := session.tempIndexes.erase name }) :=
      h.modifySession h.tables (h.indexes.erase name) (h.user c) (h.active c)
    exact ⟨.some hrel, herased.modifyObject hrel Object.invalidate⟩

private theorem dropTempIndexes (names : List String) :
    Alike c M (names.foldl (fun db name => (c.dropTempIndex name db).2) db)
      (names.foldl (fun db name => (c.dropTempIndex name db).2) db') := by
  induction names generalizing db db' with
  | nil => exact h
  | cons name names ih => exact ih (h.dropTempIndex name).2

private theorem dropTempTable (name : String) :
    Option.Rel M.objects (c.dropTempTable name db).1 (c.dropTempTable name db').1 ∧
      Alike c M (c.dropTempTable name db).2 (c.dropTempTable name db').2 := by
  have hfind : Option.Rel M.objects (c.tempTable? name db) (c.tempTable? name db') :=
    h.tables.get? name
  rw [SessionRef.dropTempTable, SessionRef.dropTempTable]
  obtain ⟨ht, ht'⟩ | ⟨t, t', ht, ht', hrel⟩ := cases_of_rel hfind
  · rw [ht, ht']
    exact ⟨.none, h⟩
  · rw [ht, ht']
    have herased : Alike c M
        (db.modifySession c fun session =>
          { session with tempTables := session.tempTables.erase name })
        (db'.modifySession c fun session =>
          { session with tempTables := session.tempTables.erase name }) :=
      h.modifySession (h.tables.erase name) h.indexes (h.user c) (h.active c)
    dsimp only
    rw [herased.object t t' hrel, herased.map_nameOf_eq (herased.tempIndexesOf_forall₂ _)]
    exact ⟨.some hrel, (herased.dropTempIndexes _).modifyObject hrel Object.invalidate⟩

end Sessions

section Objects

variable (h : Alike c M db db') (ho : M.objects o o') (ht : M.objects t t')

include h

theorem createSchema_tied (name : String) (owner : Principal) :
    Tied c M Equal (createSchema name owner db) (createSchema name owner db') := by
  refine .get_bind ?_
  rw [h.schemas_eq]
  split
  · exact .throw h
  · have hnext : db'.nextSchema = db.nextSchema := congrArg SchemaRef.mk h.schemaCount
    exact .ok (M.le_withSchema db.nextSchema) (h.withSchema name (some owner) false) hnext

section Single

include ho

theorem addObject_tied : Tied c M Equal (addObject o db) (addObject o' db') := by
  refine .bind_look (h.schemaOf_agree ho) h fun _ s ⟨rfl, hs⟩ => ?_
  exact h.add_tied hs ho

theorem renameObject_tied (newName : String) :
    Tied c M Equal (renameObject o newName db) (renameObject o' newName db') := by
  refine .bind_look (h.schemaOf_agree ho) h fun s s' ⟨heq, hs⟩ => .get_bind ?_
  dsimp only
  rw [heq, h.object o o' ho]
  refine .bind_look (h.findObject_agree hs _ newName) h fun p? p'? hp => ?_
  rw [isSome_of_rel hp]
  split
  · exact .throw h
  · exact h.rename_tied hs ho newName

private theorem detachObject_tied : Tied c M Equal (detachObject o db) (detachObject o' db') := by
  refine .bind_look (h.schemaOf_agree ho) h fun _ s ⟨rfl, hs⟩ => ?_
  exact h.detach_tied hs ho

end Single

include ht

private theorem removeTempTable_tied :
    Tied c M Equal (removeTempTable (some c) t db) (removeTempTable (some c) t' db') := by
  refine .bind_look (sessionFor_agree c t t') h fun d d' ⟨hd, hd'⟩ => .get_bind ?_
  rw [hd, hd', h.nameOf_eq ht]
  obtain ⟨hfound, hdropped⟩ := h.dropTempTable (db.nameOf t)
  have hdrop : Tied c M (fun M => Option.Rel M.objects)
      ((modifyGet (c.dropTempTable (db.nameOf t)) : CatalogM _) db)
      ((modifyGet (c.dropTempTable (db.nameOf t)) : CatalogM _) db') :=
    .ok M.le_refl hdropped hfound
  refine hdrop.bind fun M' t? t'? db db' _ h ht => ?_
  cases ht with
  | none => exact .throw h
  | some => exact .pure h rfl

private theorem removeTable_tied :
    Tied c M Equal (removeTable (some c) t db) (removeTable (some c) t' db') := by
  refine .get_bind ?_
  rw [h.tableOf_eq ht, h.nameOf_eq ht]
  obtain ⟨hfree, hfree'⟩ | ⟨u, u', hu, hu', hrel⟩ := cases_of_rel (h.findDependent_rel ht)
  · rw [hfree, hfree']
    dsimp only
    split
    · exact h.removeTempTable_tied ht
    · refine .bind_look (h.schemaOf_agree ht) h fun _ s ⟨rfl, hs⟩ => ?_
      refine .bind_look (h.indexesOf_agree ht) h fun indexes indexes' hindexes => ?_
      have hdetached : Tied c M Equal (indexes.forM s.detach db) (indexes'.forM s.detach db') :=
        .forM hindexes h fun M' i i' db db' hle h hi =>
          h.detach_tied (hle.schemas s hs) (hle.objects i i' hi)
      refine hdetached.bind fun M' _ _ db db' hle h _ => ?_
      exact h.detachObject_tied (hle.objects t t' ht)
  · rw [hu, hu']
    dsimp only
    rw [h.nameOf_eq hrel]
    exact .throw h

end Objects

theorem removeObject_tied (h : Alike c M db db') (ho : M.objects o o') :
    Tied c M Equal (removeObject (some c) o db) (removeObject (some c) o' db') := by
  refine .get_bind ?_
  rw [h.object o o' ho]
  cases (db.object o).kind with
  | tableOrView => exact h.removeTable_tied ho
  | index | sequence | constant | functionAlias => exact h.detachObject_tied ho

section Tables

variable (h : Alike c M db db') (ht : M.objects t t')

include h ht

private theorem setTable (table : Table) :
    Alike c M (t.setTable table db) (t'.setTable table db') :=
  h.modifyObject ht _

theorem columnNotFound_eq (name : String) :
    t'.columnNotFound name db' = t.columnNotFound name db := by
  rw [ObjectRef.columnNotFound, ObjectRef.columnNotFound, h.nameOf_eq ht]

theorem addColumn_tied (column : Column) :
    Tied c M Equal (t.addColumn column db) (t'.addColumn column db') := by
  refine .get_bind ?_
  rw [h.tableOf_eq ht, h.nameOf_eq ht]
  cases (db.tableOf t).addColumn? column with
  | none => exact .throw h
  | some table => exact .ok M.le_refl (h.setTable ht table) rfl

theorem dropColumn_tied (name : String) :
    Tied c M Equal (t.dropColumn name db) (t'.dropColumn name db') := by
  refine .get_bind ?_
  rw [h.tableOf_eq ht, h.columnNotFound_eq ht]
  cases (db.tableOf t).dropColumn? name with
  | none => exact .throw h
  | some dropped => exact .ok M.le_refl (h.setTable ht dropped.2) rfl

theorem updateColumn_tied (name : String) (change : Column → Column) :
    Tied c M Equal (t.updateColumn name change db) (t'.updateColumn name change db') := by
  refine .get_bind ?_
  rw [h.tableOf_eq ht, h.columnNotFound_eq ht]
  cases (db.tableOf t).updateColumn? name change with
  | none => exact .throw h
  | some table => exact .ok M.le_refl (h.setTable ht table) rfl

theorem addCheck (expression : String) :
    Alike c M (t.addCheck expression db) (t'.addCheck expression db') := by
  rw [ObjectRef.addCheck, ObjectRef.addCheck, h.tableOf_eq ht]
  exact h.setTable ht _

end Tables

end Alike

end SchemaCatalog
