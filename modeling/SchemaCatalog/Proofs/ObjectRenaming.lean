import SchemaCatalog.Proofs.Reachable
import SchemaCatalog.Proofs.Reservations
/-!
# Renaming objects

A registered object can be given every name that no object of its kind has in the schema, unless it
is the index of a primary key. Its entry moves to the key of the new name, and all else stays. The
object can be given its old name back, and then every name space and every name is as before. For
this the schema has to be in order, and no matter what the other schemas are like.
-/
namespace SchemaCatalog

section Maps

variable {ν : Type} {m : NameMap ν} {name : String} {v : ν}

/-- An entry that is taken out and put back. -/
private theorem NameMap.insert_erase (h : m.get? name = some v) :
    (m.erase name).insert name v = m := by
  obtain ⟨rule, entries⟩ := m
  refine congrArg (NameMap.mk rule) (SortedMap.eq_of_get?_eq fun key => ?_)
  rw [entries_erase, SortedMap.get?_insert, SortedMap.get?_erase]
  by_cases hkey : key = rule.fold name
  · subst hkey
    exact (if_pos rfl).trans h.symm
  · exact (if_neg hkey).trans (if_neg (Ne.symm hkey))

/-- The five name spaces are all there is to a registry. -/
private theorem Registry.eq_of_space_eq {registry registry' : Registry}
    (h : ∀ kind, registry.space kind = registry'.space kind) : registry = registry' := by
  obtain ⟨tables, indexes, sequences, constants, functions⟩ := registry
  obtain ⟨tables', indexes', sequences', constants', functions'⟩ := registry'
  obtain rfl : tables = tables' := h .tableOrView
  obtain rfl : indexes = indexes' := h .index
  obtain rfl : sequences = sequences' := h .sequence
  obtain rfl : constants = constants' := h .constant
  obtain rfl : functions = functions' := h .functionAlias
  rfl

end Maps

namespace Object

/-- The index of a primary key, whose name belongs to the key. -/
def IsKeyIndex (object : Object) : Prop :=
  ∃ index, object.body = .index index ∧ index.kind = .primaryKey

variable {object : Object}

private theorem checkRename_of_keyIndex (h : object.IsKeyIndex) :
    object.checkRename =
      .error (.unsupported ("rename of primary key index \"" ++ object.name ++ "\"")) := by
  obtain ⟨index, hbody, hkind⟩ := h
  rw [checkRename, hbody]
  simp only [hkind, if_true]
  rfl

private theorem checkRename_of_not_keyIndex (h : ¬ object.IsKeyIndex) :
    object.checkRename = .ok () := by
  rw [checkRename]
  split
  next index hbody => exact if_neg fun hkind => h ⟨index, hbody, hkind⟩
  next => rfl

end Object

namespace Database

/-- Why a registered object is not given a name. -/
inductive RenameRefusal (db : Database) (s : SchemaRef) (o : ObjectRef) (newName : String) :
    CatalogError → Prop
  | taken (h : (db.space s (db.object o).kind).get? newName ≠ none) :
    RenameRefusal db s o newName (.alreadyExists (db.object o).kind newName)
  | keyIndex (h : (db.object o).IsKeyIndex) :
    RenameRefusal db s o newName
      (.unsupported ("rename of primary key index \"" ++ db.nameOf o ++ "\""))

/-- A registered object has a new name in the schema and in itself, neither name is reserved, and
the rest of the database stays. -/
structure ObjectRenamed (s : SchemaRef) (o : ObjectRef) (newName : String)
    (db db' : Database) : Prop where
  nameOf : db'.nameOf o = newName
  object : db'.object o = { db.object o with name := newName }
  /-- Every spelling of the new name finds the object. -/
  found : ∀ name, (db.space s (db.object o).kind).key name =
      (db.space s (db.object o).kind).key newName →
    s.findObject (db.object o).kind name db' = .ok (some o)
  /-- No spelling of the old name finds anything. -/
  gone : ∀ name, (db.space s (db.object o).kind).key name =
      (db.space s (db.object o).kind).key (db.nameOf o) →
    s.findObject (db.object o).kind name db' = .ok none
  otherEntries : ∀ key, key ≠ (db.space s (db.object o).kind).key newName →
    key ≠ (db.space s (db.object o).kind).key (db.nameOf o) →
      (db'.space s (db.object o).kind).entries.get? key =
        (db.space s (db.object o).kind).entries.get? key
  otherSpaces : ∀ kind, kind ≠ (db.object o).kind → db'.space s kind = db.space s kind
  freed : (db.schema s).reservations.Frees
    (fun key => key = (db.schema s).reservations.key (db.nameOf o) ∨
      key = (db.schema s).reservations.key newName) (db'.schema s).reservations
  otherObjects : ∀ other, other ≠ o → db'.object other = db.object other
  otherSchemas : ∀ r, r ≠ s → db'.schema r = db.schema r
  frame : Frame s db db'

section Renaming

variable {db db' : Database} {s : SchemaRef} {o : ObjectRef} {newName : String} {e : CatalogError}

private theorem schema_renamed_of_ne {r : SchemaRef} (h : r ≠ s) :
    (renamed s o newName db).schema r = db.schema r := by
  rw [renamed, schema_modifySchema, if_neg h]
  rfl

private theorem reservations_renamed : ((renamed s o newName db).schema s).reservations =
    ((db.schema s).reservations.free (db.nameOf o)).free newName := by
  rw [renamed, schema_modifySchema, if_pos rfl]
  rfl

private theorem frame_renamed (s : SchemaRef) (o : ObjectRef) (newName : String) (db : Database) :
    Frame s db (renamed s o newName db) := by
  refine ⟨rfl, rfl, ?_, rfl⟩
  rw [renamed, schema_modifySchema, if_pos rfl]
  rfl

/-- A free name is given to an object that is kept under its own name. -/
private theorem objectRenamed_renamed (hactive : (db.schema s).state = .active)
    (hlive : (db.space s (db.object o).kind).get? (db.nameOf o) = some o)
    (hfree : (db.space s (db.object o).kind).get? newName = none) :
    ObjectRenamed s o newName db (renamed s o newName db) := by
  have hobject : (renamed s o newName db).object o = { db.object o with name := newName } :=
    object_renamed.trans (if_pos rfl)
  have hactive' : ((renamed s o newName db).schema s).state = .active :=
    state_renamed.trans hactive
  have hspace : (renamed s o newName db).space s (db.object o).kind =
      ((db.space s (db.object o).kind).erase (db.nameOf o)).insert newName o :=
    space_renamed.trans (if_pos ⟨rfl, rfl⟩)
  -- The two names have keys of their own, since one of them is free and the other one is not.
  have hapart : (db.space s (db.object o).kind).key (db.nameOf o) ≠
      (db.space s (db.object o).kind).key newName := by
    intro hkey
    rw [NameMap.get?, hkey] at hlive
    exact absurd (hfree.symm.trans hlive) (by simp)
  exact {
    nameOf := congrArg Object.name hobject
    object := hobject
    found := by
      intro name hname
      rw [findObject_eq hactive', hspace, NameMap.get?_insert, NameMap.key_erase,
        NameMap.key_erase, if_pos hname]
    gone := by
      intro name hname
      rw [findObject_eq hactive', hspace, NameMap.get?_insert, NameMap.key_erase,
        NameMap.key_erase, hname, if_neg hapart, NameMap.get?_erase, if_pos hname.symm]
    otherEntries := by
      intro key hnew hold
      rw [hspace, NameMap.entries_insert, SortedMap.get?_insert, NameMap.key_erase, if_neg hnew,
        NameMap.entries_erase, SortedMap.get?_erase, if_neg (Ne.symm hold)]
    otherSpaces := fun kind hkind => space_renamed.trans (if_neg fun h => hkind h.2)
    freed := by
      rw [reservations_renamed]
      have hold := (db.schema s).reservations.frees_free (db.nameOf o)
      have hnew := ((db.schema s).reservations.free (db.nameOf o)).frees_free newName
      exact hold.trans hnew
    otherObjects := fun other hother => object_renamed.trans (if_neg hother)
    otherSchemas := fun r hr => schema_renamed_of_ne hr
    frame := frame_renamed s o newName db }

private theorem isKeyIndex_renamed :
    ((renamed s o newName db).object o).IsKeyIndex ↔ (db.object o).IsKeyIndex := by
  rw [object_renamed, if_pos rfl]
  rfl

/-- What renaming a registered object comes to, case by case. -/
private theorem InOrder.renameObject_eq (h : db.InOrder s) (hs : s ∈ db.allSchemas)
    (hactive : (db.schema s).state = .active) (ho : db.Holds s o) (newName : String) :
    renameObject o newName db =
      if (db.space s (db.object o).kind).get? newName = none then
        match (db.object o).checkRename with
        | .ok () => .ok () (Database.renamed s o newName db)
        | .error e => .error e db
      else .error (.alreadyExists (db.object o).kind newName) db := by
  have hmem := h.mem_of_holds ho
  have hlive := (h.keyed _).mem_values_iff.mp hmem
  rw [renameObject, bind_of_ok (lift_of_ok (schemaOf_eq hs (h.enters _ o hmem).schema)),
    get_bind_run, bind_of_ok (lift_of_ok (findObject_eq hactive))]
  cases hfree : (db.space s (db.object o).kind).get? newName with
  | some other => rfl
  | none =>
    rw [if_pos rfl]
    simp only [Option.isSome_none, Bool.false_eq_true, if_false]
    cases hcheck : (db.object o).checkRename with
    | error e => exact rename_of_refused hactive hlive hfree hcheck
    | ok => exact rename_eq_ok_iff.mpr ⟨hactive, hlive, hfree, hcheck, rfl⟩

theorem InOrder.renameObject_eq_ok_iff (h : db.InOrder s) (hs : s ∈ db.allSchemas)
    (hactive : (db.schema s).state = .active) (ho : db.Holds s o) :
    renameObject o newName db = .ok () db' ↔
      ((db.space s (db.object o).kind).get? newName = none ∧ ¬ (db.object o).IsKeyIndex) ∧
        db' = Database.renamed s o newName db := by
  rw [h.renameObject_eq hs hactive ho]
  by_cases hfree : (db.space s (db.object o).kind).get? newName = none
  · by_cases hkey : (db.object o).IsKeyIndex
    · simp [hfree, hkey, Object.checkRename_of_keyIndex hkey]
    · simp [hfree, hkey, Object.checkRename_of_not_keyIndex hkey, eq_comm]
  · simp [hfree]

private theorem InOrder.refusal_of_error (h : db.InOrder s) (hs : s ∈ db.allSchemas)
    (hactive : (db.schema s).state = .active) (ho : db.Holds s o)
    (herror : renameObject o newName db = .error e db') :
    RenameRefusal db s o newName e ∧ db' = db := by
  rw [h.renameObject_eq hs hactive ho] at herror
  by_cases hfree : (db.space s (db.object o).kind).get? newName = none
  · by_cases hkey : (db.object o).IsKeyIndex
    · rw [if_pos hfree, Object.checkRename_of_keyIndex hkey] at herror
      cases herror
      exact ⟨.keyIndex hkey, rfl⟩
    · rw [if_pos hfree, Object.checkRename_of_not_keyIndex hkey] at herror
      cases herror
  · rw [if_neg hfree] at herror
    cases herror
    exact ⟨.taken hfree, rfl⟩

/-- An object that has been renamed can be given its old name back, and then all name spaces and all
objects are as they were. -/
theorem InOrder.renameObject_back (h : db.InOrder s) (hs : s ∈ db.allSchemas)
    (hactive : (db.schema s).state = .active) (ho : db.Holds s o)
    (hfree : (db.space s (db.object o).kind).get? newName = none)
    (hkey : ¬ (db.object o).IsKeyIndex) : ∃ db',
      renameObject o (db.nameOf o) (Database.renamed s o newName db) = .ok () db' ∧
        (∀ r, (db'.schema r).registry = (db.schema r).registry) ∧
        ∀ other, db'.object other = db.object other := by
  have hmem := h.mem_of_holds ho
  have hlive := (h.keyed _).mem_values_iff.mp hmem
  have hrenamed := objectRenamed_renamed hactive hlive hfree
  have horder := h.renamed ho hfree
  have hactive' : ((Database.renamed s o newName db).schema s).state = .active :=
    state_renamed.trans hactive
  have ho' : (Database.renamed s o newName db).Holds s o :=
    ⟨_, (h.filed.mem_space_renamed ho hfree).mpr hmem⟩
  have hkind : ((Database.renamed s o newName db).object o).kind = (db.object o).kind :=
    kind_renamed
  have hspace : (Database.renamed s o newName db).space s (db.object o).kind =
      ((db.space s (db.object o).kind).erase (db.nameOf o)).insert newName o :=
    space_renamed.trans (if_pos ⟨rfl, rfl⟩)
  have hgone : ((Database.renamed s o newName db).space s (db.object o).kind).get? (db.nameOf o) =
      none := by
    have hfind := hrenamed.gone (db.nameOf o) rfl
    rw [findObject_eq hactive'] at hfind
    exact Except.ok.inj hfind
  have hunused : ((db.space s (db.object o).kind).erase (db.nameOf o)).get? newName = none := by
    rw [NameMap.get?_erase, hfree, ite_self]
  refine ⟨Database.renamed s o (db.nameOf o) (Database.renamed s o newName db),
    (horder.renameObject_eq_ok_iff hs hactive' ho').mpr ⟨⟨?_, ?_⟩, rfl⟩, fun r => ?_,
    fun other => ?_⟩
  · rw [hkind]
    exact hgone
  · rwa [isKeyIndex_renamed]
  · refine Registry.eq_of_space_eq fun kind => ?_
    change (Database.renamed s o (db.nameOf o) (Database.renamed s o newName db)).space r kind =
      db.space r kind
    rw [space_renamed, hkind]
    split
    next heq =>
      obtain ⟨rfl, rfl⟩ := heq
      rw [hspace, hrenamed.nameOf, NameMap.erase_insert hunused, NameMap.insert_erase hlive]
    next hne => exact space_renamed.trans (if_neg hne)
  · rw [object_renamed]
    split
    next heq =>
      rw [hrenamed.object, heq]
      rfl
    next hne => exact hrenamed.otherObjects other hne

/-- A registered object of a schema in order is given a name exactly when no object of its kind has
that name there, itself included, and it is not the index of a primary key. A refused name changes
nothing and is not laid to the catalog; a new name can be taken back. -/
theorem InOrder.renameObject_outcome (h : db.InOrder s) (hs : s ∈ db.allSchemas)
    (hactive : (db.schema s).state = .active) (ho : db.Holds s o) (newName : String) :
    ((∃ db', renameObject o newName db = .ok () db') ↔
      (db.space s (db.object o).kind).get? newName = none ∧ ¬ (db.object o).IsKeyIndex) ∧
    (∀ e db', renameObject o newName db = .error e db' →
      RenameRefusal db s o newName e ∧ db' = db) ∧
    ∀ db', renameObject o newName db = .ok () db' → ObjectRenamed s o newName db db' ∧
      ∃ db'', renameObject o (db.nameOf o) db' = .ok () db'' ∧
        (∀ r, (db''.schema r).registry = (db.schema r).registry) ∧
        ∀ other, db''.object other = db.object other := by
  have hok : ∀ {db'}, renameObject o newName db = .ok () db' ↔ _ :=
    h.renameObject_eq_ok_iff hs hactive ho
  refine ⟨⟨?_, fun hmay => ⟨_, hok.mpr ⟨hmay, rfl⟩⟩⟩,
    fun e db' herror => h.refusal_of_error hs hactive ho herror, fun db' hrun => ?_⟩
  · rintro ⟨db', hrun⟩
    exact (hok.mp hrun).1
  · obtain ⟨⟨hfree, hkey⟩, rfl⟩ := hok.mp hrun
    have hlive := (h.keyed _).mem_values_iff.mp (h.mem_of_holds ho)
    exact ⟨objectRenamed_renamed hactive hlive hfree,
      h.renameObject_back hs hactive ho hfree hkey⟩

theorem renameObject_outcome_withView : withView.InOrder ⟨2⟩ ∧
    renameObject ⟨0⟩ "V" withView = .error (.alreadyExists .tableOrView "V") withView ∧
    RenameRefusal withView ⟨2⟩ ⟨0⟩ "V" (.alreadyExists .tableOrView "V") ∧
    ∃ db', renameObject ⟨0⟩ "U" withView = .ok () db' ∧
      ObjectRenamed ⟨2⟩ ⟨0⟩ "U" withView db' ∧
      ∃ db'', renameObject ⟨0⟩ "T" db' = .ok () db'' ∧
        (∀ r, (db''.schema r).registry = (withView.schema r).registry) ∧
        ∀ other, db''.object other = withView.object other := by
  have hs : ⟨2⟩ ∈ withView.allSchemas := by decide +kernel
  have horder : withView.InOrder ⟨2⟩ := reachable_withView.wellFormed.toConsistent.inOrder hs
  have ht : withView.Holds ⟨2⟩ ⟨0⟩ := ⟨.tableOrView, by decide +kernel⟩
  have hactive : (withView.schema ⟨2⟩).state = .active := by decide +kernel
  have htaken : renameObject ⟨0⟩ "V" withView =
      .error (.alreadyExists .tableOrView "V") withView := by
    decide +kernel
  obtain ⟨-, hrefusal, -⟩ := horder.renameObject_outcome hs hactive ht "V"
  have hsucceeds : Succeeds (renameObject ⟨0⟩ "U") withView fun _ _ => True := by decide +kernel
  obtain ⟨_, db', hrun, -⟩ := hsucceeds
  obtain ⟨-, -, hrenamed⟩ := horder.renameObject_outcome hs hactive ht "U"
  obtain ⟨hdone, db'', hback, hregistries, hobjects⟩ := hrenamed db' hrun
  have hname : withView.nameOf ⟨0⟩ = "T" := by decide +kernel
  rw [hname] at hback
  exact ⟨horder, htaken, (hrefusal _ _ htaken).1, db', hrun, hdone, db'', hback, hregistries,
    hobjects⟩

end Renaming

end Database

end SchemaCatalog
