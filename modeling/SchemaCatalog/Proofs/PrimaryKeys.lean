import SchemaCatalog.Proofs.ColumnChanges
/-!
# Primary keys

As long as primary keys are only added as constraints, a table has at most one of them, and its
columns are there and refuse null. A constraint adds one index, and only where there is no primary
key yet; everything else leaves the columns of keys alone.
-/
namespace SchemaCatalog

open Database

section Invariant

variable {allowed : Action → Prop} {db db' : Database} {t i j : ObjectRef} {columns : List String}

namespace Database

/-- A listed index is a primary key of the table. -/
structure HasKey (db : Database) (t i : ObjectRef) : Prop extends HasIndex db t i where
  primary : (db.indexOf i).kind = .primaryKey

/-- Tables have at most one primary key, whose columns they have and keep from being null. -/
structure PrimaryKeysHold (db : Database) : Prop where
  unique : ∀ t i j : ObjectRef, t.slot < db.objectStore.next →
    db.HasKey t i → db.HasKey t j → i = j
  column : ∀ t i : ObjectRef, t.slot < db.objectStore.next → db.HasKey t i →
    ∀ name ∈ (db.indexOf i).columns, (db.tableOf t).RefusesNull name

/-- A primary key on these columns is made, for a table that has none. -/
structure KeyAdded (t : ObjectRef) (columns : List String) (db db' : Database) : Prop where
  made : t.slot < db.objectStore.next
  keyless : ∀ i, ¬ db.HasKey t i
  keeps : KeepsColumns db.Lists db.KeyLists
    (fun index => index.tableId = (db.object t).id ∧ index.columns = columns) db db'
  single : ∀ i : ObjectRef, db.objectStore.next ≤ i.slot → i.slot < db'.objectStore.next →
    (db'.object i).kind = .index → i = db.nextObject
  refuses : ∀ name ∈ columns, (db'.tableOf t).RefusesNull name

/-- All indexes that are made are of other kinds. -/
def AddsNoKey : Database → Database → Prop := fun db db' =>
  KeepsColumns db.Lists db.KeyLists (fun index => index.kind ≠ .primaryKey) db db'

private theorem primaryKeysHold_bootstrap (settings : Settings) :
    (bootstrap settings).PrimaryKeysHold :=
  ⟨fun _ _ _ ht => absurd ht (Nat.not_lt_zero _), fun _ _ ht => absurd ht (Nat.not_lt_zero _)⟩

end Database

section Step

variable {made : Index → Prop} (hstep : Advances allowed db db') (hdb : db.InForm)

include hstep hdb

/-- A primary key that was made earlier was the key of a table that was there. -/
private theorem Advances.hasKey_of_lt (hkeeps : KeepsColumns db.Lists db.KeyLists made db db')
    (hi : i.slot < db.objectStore.next) (ht : t.slot < db'.objectStore.next) (h : db'.HasKey t i) :
    t.slot < db.objectStore.next ∧ db.HasKey t i := by
  have hlasts := hstep.lasts hdb
  have hindex := hkeeps.index i hi
  have hlisted := hstep.listed hdb hi h.listed
  have hkind : (db.object i).kind = .index := (hkeeps.kind i hi).symm.trans h.kind
  obtain ⟨u, hu, hid⟩ := hdb.exists_table hlisted hkind
  have hsame : (db'.object u).id = (db'.object t).id := by
    rw [hlasts.id u hu, hid, ← h.tableId, hindex]
  obtain rfl := (hstep.inForm hdb).wellFormed.distinct u t
    (Nat.lt_of_lt_of_le hu hlasts.count) ht hsame
  exact ⟨hu, ⟨hlisted, hkind, hid.symm⟩, by rw [← hindex]; exact h.primary⟩

/-- The columns of a key that was there still refuse null. -/
private theorem Advances.refusesNull (hkeeps : KeepsColumns db.Lists db.KeyLists made db db')
    (hkeys : db.PrimaryKeysHold) (hi : i.slot < db.objectStore.next)
    (ht : t.slot < db'.objectStore.next) (h : db'.HasKey t i) :
    ∀ name ∈ (db'.indexOf i).columns, (db'.tableOf t).RefusesNull name := by
  intro name hname
  obtain ⟨ht, hold⟩ := hstep.hasKey_of_lt hdb hkeeps hi ht h
  rw [hkeeps.index i hi] at hname
  refine ((hkeeps.table t ht).refusal name (hkeys.column t i ht hold name hname)).resolve_right ?_
  exact not_not_intro ⟨i, hold.toHasIndex, hold.primary, hname⟩

private theorem Advances.primaryKeysHold_of_addsNoKey (hadds : AddsNoKey db db')
    (hkeys : db.PrimaryKeysHold) : db'.PrimaryKeysHold := by
  have hold : ∀ t i, db'.HasKey t i → i.slot < db.objectStore.next := by
    intro t i h
    by_contra hnew
    exact hadds.new i (Nat.le_of_not_lt hnew)
      ((hstep.inForm hdb).wellFormed.slot_of_listed h.listed) h.kind h.primary
  refine ⟨fun t i j ht hi hj => ?_, fun t i ht hi =>
    hstep.refusesNull hdb hadds hkeys (hold t i hi) ht hi⟩
  obtain ⟨ht', hi'⟩ := hstep.hasKey_of_lt hdb hadds (hold t i hi) ht hi
  exact hkeys.unique t i j ht' hi' (hstep.hasKey_of_lt hdb hadds (hold t j hj) ht hj).2

private theorem Advances.primaryKeysHold_of_keyAdded (hadded : KeyAdded t columns db db')
    (hkeys : db.PrimaryKeysHold) : db'.PrimaryKeysHold := by
  have hdb' := hstep.inForm hdb
  -- a key is an old one, or the new one, which is the key of `t`
  have hcases : ∀ u i, u.slot < db'.objectStore.next → db'.HasKey u i →
      (u.slot < db.objectStore.next ∧ i.slot < db.objectStore.next ∧ db.HasKey u i) ∨
        (u = t ∧ i = db.nextObject ∧ (db'.indexOf i).columns = columns) := by
    intro u i hu h
    have hslot := hdb'.wellFormed.slot_of_listed h.listed
    by_cases hi : i.slot < db.objectStore.next
    · obtain ⟨hu, hold⟩ := hstep.hasKey_of_lt hdb hadded.keeps hi hu h
      exact .inl ⟨hu, hi, hold⟩
    · have hnew := Nat.le_of_not_lt hi
      obtain ⟨hid, hcolumns⟩ := hadded.keeps.new i hnew hslot h.kind
      have hlasts := hstep.lasts hdb
      have hsame : (db'.object u).id = (db'.object t).id := by
        rw [← h.tableId, hid, hlasts.id t hadded.made]
      refine .inr ⟨?_, hadded.single i hnew hslot h.kind, hcolumns⟩
      exact hdb'.wellFormed.distinct u t hu (Nat.lt_of_lt_of_le hadded.made hlasts.count) hsame
  refine ⟨fun u i j hu hi hj => ?_, fun u i hu hi => ?_⟩
  · rcases hcases u i hu hi with ⟨hu', -, hi'⟩ | ⟨hut, hnew, -⟩
    · rcases hcases u j hu hj with ⟨-, -, hj'⟩ | ⟨rfl, -, -⟩
      · exact hkeys.unique u i j hu' hi' hj'
      · exact absurd hi' (hadded.keyless i)
    · rcases hcases u j hu hj with ⟨-, -, hj'⟩ | ⟨-, hnew', -⟩
      · exact absurd (hut ▸ hj') (hadded.keyless j)
      · rw [hnew, hnew']
  · rcases hcases u i hu hi with ⟨-, hslot, -⟩ | ⟨rfl, rfl, hcolumns⟩
    · exact hstep.refusesNull hdb hadded.keeps hkeys hslot hu hi
    · rw [hcolumns]
      exact hadded.refuses

end Step

end Invariant

section Objects

variable {db db' : Database} {c : SessionRef} {s : SchemaRef} {t : ObjectRef} {schemaName : String}

/-- No object is made or changed. -/
def Database.SameObjects (db db' : Database) : Prop :=
  db'.objectStore = db.objectStore

instance : IsPreorder Database SameObjects where
  refl _ := rfl
  trans _ _ _ h h' := Eq.trans h' h

private theorem Database.SameObjects.allowsCreation :
    AllowsCreation (fun _ => False) SameObjects where
  withObject _ _ _ _ := False.elim
  entered _ _ _ _ := rfl
  modifySession _ _ _ := rfl

namespace Execution

/-- The index is made first; where it is listed has no part in what it is. -/
private theorem tableOf_setTable_of_hasColumn {table : Table} {name : String}
    (h : (db.tableOf t).hasColumn name = true) : (t.setTable table db).tableOf t = table := by
  rw [tableOf, ObjectRef.setTable, object_modifyObject, if_pos rfl, Object.mapTable]
  cases hbody : (db.object t).body with
  | table old => rfl
  | _ =>
    rw [tableOf, Object.asTable, hbody] at h
    cases h

private theorem sameObjects_addTableIndex (c : SessionRef) (s : SchemaRef) (t : ObjectRef)
    (name : String) (columns : List String) (kind : IndexKind) (db : Database) :
    SameObjects (db.withObject s name (.index ⟨(db.object t).id, db.nameOf t, columns, kind⟩))
      (stateAfter (addTableIndex c s t name columns kind) db) := by
  have hget : (get : ExecM Database) db = .ok db db := rfl
  rw [addTableIndex, stateAfter_bind_of_ok hget, stateAfter_bind_of_ok (newObject_run ..)]
  split
  · exact (SameObjects.allowsCreation.addTempIndex c _).lift _
  · exact (SameObjects.allowsCreation.addObject _).lift _

/-- A column that was made to refuse null does so. -/
private theorem refusesNull_of_updateColumn {name : String}
    (h : t.updateColumn name Column.notNull db = .ok () db') :
    (db'.tableOf t).RefusesNull name := by
  rw [ObjectRef.updateColumn, get_bind_run] at h
  cases htable : (db.tableOf t).updateColumn? name Column.notNull with
  | none =>
    simp only [htable] at h
    cases h
  | some table =>
    simp only [htable] at h
    cases h
    have hname : (db.tableOf t).hasColumn name = true := by
      by_contra hnone
      rw [(Table.updateColumn?_eq_none_iff _ _ _).mpr (by simpa using hnone)] at htable
      cases htable
    obtain ⟨column, hcolumn⟩ := Option.isSome_iff_exists.mp (Table.hasColumn_eq .. ▸ hname)
    have hplaced : (t.setTable table db).tableOf t = table := tableOf_setTable_of_hasColumn hname
    refine ⟨column.notNull, ?_, rfl⟩
    rw [hplaced, Table.column?_updateColumn? htable (fun _ => rfl), hcolumn, Option.map_some,
      if_pos rfl]

private theorem refusesNull_of_forbidNull {columns : List String}
    (h : forbidNull t columns db = .ok () db') (ht : t.slot < db.objectStore.next) :
    ∀ name ∈ columns, (db'.tableOf t).RefusesNull name := by
  induction columns generalizing db with
  | nil => exact fun _ hname => absurd hname List.not_mem_nil
  | cons first rest ih =>
    obtain ⟨⟨⟩, mid, hfirst, hrest⟩ := bind_eq_ok_iff.mp h
    have hfirst : t.updateColumn first Column.notNull db = .ok () mid :=
      statement_eq_ok_iff.mp hfirst
    -- whatever else is listed or in a key, columns go on refusing null
    let Keeps := KeepsColumns (fun _ _ => True) (fun _ _ => True) fun _ => True
    have hkept : Keeps mid db' := by
      have hleaves : Keeps mid (stateAfter (forbidNull t rest) mid) :=
        forbidNull_keepsColumns t rest mid
      rwa [forbidNull, stateAfter_of_ok hrest] at hleaves
    have hslot : t.slot < mid.objectStore.next := by
      have hsettles : Settles (t.updateColumn first Column.notNull) db fun _ => Keeps db :=
        updateColumn_keepsColumns (fun _ => rfl) (.inl fun _ _ => rfl)
      exact Nat.lt_of_lt_of_le ht (hsettles.post_of_ok hfirst).count
    intro name hname
    rcases List.mem_cons.mp hname with rfl | hname
    · exact ((hkept.table t hslot).refusal name (refusesNull_of_updateColumn hfirst)).resolve_right
        (not_not_intro trivial)
    · exact ih hrest hslot name hname

private theorem keyAdded_of_addKeyIndex {definition : ConstraintDefinition} {outcome : Outcome}
    (h : addKeyIndex c s t definition .primaryKey db = .ok outcome db')
    (ht : t.slot < db.objectStore.next) (hkeyless : ∀ i, ¬ db.HasKey t i) :
    KeyAdded t definition.columns db db' := by
  obtain ⟨live, r, mid, last, hgranted, hact, rfl⟩ := withIndexName_eq_ok h
  obtain ⟨⟨⟩, indexed, hindex, hact⟩ := bind_eq_ok_iff.mp hact
  obtain ⟨⟨⟩, last, hforbid, hact⟩ := bind_eq_ok_iff.mp hact
  cases hact
  have hmid : SameObjects db mid := by
    rw [hgranted.result]
    rfl
  have hindexed := sameObjects_addTableIndex c s t r.name definition.columns .primaryKey mid
  rw [stateAfter_of_ok hindex] at hindexed
  have hslot : t.slot < mid.objectStore.next := by rwa [hmid]
  have hslot' : t.slot < indexed.objectStore.next := by
    rw [hindexed]
    exact Nat.lt_succ_of_lt hslot
  -- the one index is made before the columns come to refuse null, and nothing after
  have hmakes : KeepsColumns db.Lists db.KeyLists
      (fun index => index.tableId = (db.object t).id ∧ index.columns = definition.columns)
      db indexed := by
    refine (KeepsColumns.of_objectStore hmid).trans
      ((KeepsColumns.withObject fun index heq => ?_).trans (.of_objectStore hindexed))
    cases heq
    exact ⟨by rw [object, hmid, object], rfl⟩
  have hforbids : KeepsColumns db.Lists db.KeyLists (fun _ => False) indexed last := by
    have hleaves : KeepsColumns db.Lists db.KeyLists (fun _ => False) indexed
        (stateAfter (forbidNull t definition.columns) indexed) :=
      forbidNull_keepsColumns t definition.columns indexed
    rwa [stateAfter_of_ok hforbid] at hleaves
  have hkeeps := hmakes.trans (hforbids.mono (fun _ _ => id) (fun _ _ => id) fun _ => False.elim)
  have hrefuses : ∀ name ∈ definition.columns, (last.tableOf t).RefusesNull name :=
    refusesNull_of_forbidNull hforbid hslot'
  refine ⟨ht, hkeyless, hkeeps.trans (.of_objectStore rfl), ?_, hrefuses⟩
  rintro ⟨slot⟩ hold hnew hkind
  by_cases hi : slot < indexed.objectStore.next
  · rw [hindexed] at hi
    have hcount : mid.objectStore.next = db.objectStore.next := by rw [hmid]
    have hi : slot < mid.objectStore.next + 1 := hi
    have hslot : slot = db.objectStore.next := by
      change db.objectStore.next ≤ slot at hold
      omega
    rw [hslot, nextObject]
  · exact (hforbids.new _ (Nat.le_of_not_lt hi) hnew hkind).elim

/-- A primary key is added only where there is none. -/
private theorem addPrimaryKey_keyAdded (h : db.InForm) (hname : db.findSchema schemaName = some s)
    (ht : db.Visible c s t) (definition : ConstraintDefinition) :
    Settles (addPrimaryKey c s t definition) db fun _ db' =>
      KeyAdded t definition.columns db db' := by
  have hs := mem_allSchemas_of_find hname
  refine (requireColumns_settles t definition.columns db).bind_look fun _ hcolumns => ?_
  refine (indexesOf_settles_all h hs ht).bind_look fun indexes hall => .get_bind ?_
  dsimp only
  split
  · exact reject_settles
  next hnone =>
    have hslot := h.wellFormed.slot_of_readable hs (ht.imp_right fun ht => ⟨c, ht⟩)
    have hkeyless : ∀ i, ¬ db.HasKey t i := fun i hi => hnone <|
      List.any_eq_true.mpr ⟨i, (hall i).mpr hi.toHasIndex, by simpa using hi.primary⟩
    exact (addKeyIndex_settles h.wellFormed hname ht .primaryKey hcolumns).of_eq_ok
      fun _ _ hrun => keyAdded_of_addKeyIndex hrun hslot hkeyless

end Execution

end Objects

section Runs

variable {allowed : Action → Prop} {db db' : Database}

/-- Primary keys are not made as plain indexes. -/
def Action.KeysByConstraint : Action → Prop
  | execute _ (.createIndex definition) => definition.kind ≠ .primaryKey
  | _ => True

/-- A primary key is added properly, or none is. -/
def Database.KeysChange (db db' : Database) : Prop :=
  AddsNoKey db db' ∨ ∃ t columns, KeyAdded t columns db db'

private theorem Execution.addConstraint_keysChange (h : db.InForm) (c : SessionRef)
    (definition : ConstraintDefinition) (hkind : definition.kind = .primaryKey) :
    Settles (addConstraint c definition) db fun _ db' => db.KeysChange db' := by
  refine (getSchema_settles db definition.schema).bind_look fun s hname => ?_
  have hs := mem_allSchemas_of_find hname
  refine (h.wellFormed.getTable_finds hs c definition.table).settles.bind_look fun t ht => ?_
  refine (rejectView_settles t db).bind_look fun _ _ => ?_
  simp only [hkind]
  exact (addPrimaryKey_keyAdded h hname ht definition).mono fun _ _ hadded => .inr ⟨t, _, hadded⟩

private theorem Action.addsNoKey (h : db.InForm) (action : Action)
    (hmade : ∀ index, action.MayMake index → index.kind ≠ .primaryKey) :
    AddsNoKey db (action.run db) :=
  (action.keepsColumns h).mono (fun _ _ => id) (fun _ _ => id) hmade

theorem Action.keysChange (h : db.InForm) (action : Action) (hallowed : action.KeysByConstraint) :
    db.KeysChange (action.run db) := by
  cases action with
  | execute c statement =>
    cases statement with
    | createIndex definition =>
      refine .inl (addsNoKey h _ fun index hmade => ?_)
      rw [hmade.2]
      exact hallowed
    | addConstraint definition =>
      cases hkind : definition.kind with
      | primaryKey =>
        exact (Execution.addConstraint_keysChange h c definition hkind).stateAfter
          (.inl (.of_objectStore rfl))
      | _ =>
        refine .inl (addsNoKey h _ ?_)
        rintro index ⟨-, hmade⟩ heq
        rw [hkind, heq] at hmade
        cases hmade
    | _ => exact .inl (addsNoKey h _ fun _ => False.elim)
  | _ => exact .inl (addsNoKey h _ fun _ => False.elim)

theorem Database.PrimaryKeysHold.step (hkeys : db.PrimaryKeysHold) (hdb : db.InForm)
    (hstep : Advances Action.KeysByConstraint db db') : db'.PrimaryKeysHold := by
  have hchange : db.KeysChange db' := by
    cases hstep with
    | act action hallowed _ => exact action.keysChange hdb hallowed
    | session user rule => exact .inl (.of_objectStore rfl)
  rcases hchange with hadds | ⟨t, columns, hadded⟩
  · exact hstep.primaryKeysHold_of_addsNoKey hdb hadds hkeys
  · exact hstep.primaryKeysHold_of_keyAdded hdb hadded hkeys

/-- In every run from a new database in which primary keys are only added as constraints. -/
theorem Evolves.primaryKeysHold {settings : Settings}
    (h : Evolves Action.KeysByConstraint (bootstrap settings) db) : db.PrimaryKeysHold := by
  induction h with
  | refl => exact primaryKeysHold_bootstrap settings
  | tail hbefore hlast ih =>
    exact ih.step (Evolves.inForm hbefore (inForm_bootstrap settings)) hlast

end Runs

section Example

/-- Make a schema with a table and a local temporary table, add a primary key to each, and try to
add another one and to let the column of a key admit null. -/
def keyActions : List Action :=
  let table name scope := Action.execute ⟨0⟩ (.createTable
    { schema := "APP", tableName := name, columns := [.plain "A" "INT"], kind := .table, scope,
      references := [], ifNotExists := false })
  let key name := Action.execute ⟨0⟩ (.addConstraint
    { schema := "APP", table := name, constraintName := none, kind := .primaryKey,
      columns := ["A", "A"] })
  [.openSession ⟨1, "SA"⟩,
    .execute ⟨0⟩ (.createSchema "APP" false),
    table "T" .persistent, key "T",
    table "L" .localTemporary, key "L", key "L",
    .execute ⟨0⟩ (.alterColumn { schema := "APP", table := "L", action := .setNullable "A" true })]

/-- The database with a primary key in a schema and one of a session. -/
def withKeys : Database :=
  keyActions.foldl (fun db action => action.run db) (bootstrap .standard)

private theorem evolves_withKeys :
    Evolves Action.KeysByConstraint (bootstrap .standard) withKeys := by
  rw [withKeys, keyActions]
  simp only [List.foldl_cons, List.foldl_nil]
  refine .act (.act (.act (.act (.act (.act (.act (.act .refl _ trivial ?_) _ trivial ?_)
    _ trivial ?_) _ trivial ?_) _ trivial ?_) _ trivial ?_) _ trivial ?_) _ trivial ?_
  all_goals decide +kernel

theorem primaryKeysHold_withKeys :
    Evolves Action.KeysByConstraint (bootstrap .standard) withKeys ∧
    (withKeys.space ⟨2⟩ .index).values = [⟨1⟩] ∧ (withKeys.session ⟨0⟩).tempIndexes.values = [⟨3⟩] ∧
    (withKeys.indexOf ⟨1⟩).kind = .primaryKey ∧ (withKeys.indexOf ⟨3⟩).kind = .primaryKey ∧
    withKeys.PrimaryKeysHold :=
  ⟨evolves_withKeys, by decide +kernel, by decide +kernel, by decide +kernel, by decide +kernel,
    evolves_withKeys.primaryKeysHold⟩

end Example

end SchemaCatalog
