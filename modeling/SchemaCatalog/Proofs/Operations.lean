import SchemaCatalog.Proofs.AnyHost
/-!
# Operations

Any calls on a database, its schemas and its sessions, in any order and on any objects, whether they
are registered or not. An object can be left registered when it has been cut off from its schema, but
every schema keeps its objects under their own names, and none keeps an object of another one.
-/
namespace SchemaCatalog

open Database

namespace Database

section Housed

variable {db db' : Database} {s r : SchemaRef} {o other : ObjectRef} {kind : ObjectKind}
  {newName : String}

/-- Every schema keeps its objects under their own names. An object refers to no schema besides the
one that keeps it, and to none at all before it is made. -/
structure Housed (db : Database) : Prop where
  filed : ∀ s, db.Filed s
  once : ∀ {s r o}, db.Holds s o → db.Holds r o → s = r
  owner : ∀ {s r o}, db.Holds s o → (db.object o).schema = some r → s = r
  made : ∀ {s o}, db.Holds s o → o.slot < db.objectStore.next
  unmade : ∀ o, db.objectStore.next ≤ o.slot → (db.object o).schema = none

/-- Objects leave their schemas or are cut off from them, and are otherwise what they were. -/
structure Loses (db db' : Database) : Prop where
  spaces : ∀ s kind, (db'.space s kind).Within (db.space s kind)
  names : ∀ o, db'.nameOf o = db.nameOf o ∧ (db'.object o).kind = (db.object o).kind
  owners : ∀ o s, (db'.object o).schema = some s → (db.object o).schema = some s
  count : db'.objectStore.next = db.objectStore.next

namespace Loses

private theorem of_objectStore_eq (hobjects : db'.objectStore = db.objectStore)
    (hspaces : ∀ s kind, (db'.space s kind).Within (db.space s kind)) : Loses db db' := by
  have hobject : ∀ o, db'.object o = db.object o := by
    intro o
    rw [Database.object, hobjects]
    rfl
  refine ⟨hspaces, fun o => ?_, fun o s ho => ?_, by rw [hobjects]⟩
  · rw [nameOf, hobject]
    exact ⟨rfl, rfl⟩
  · rwa [hobject] at ho

instance : IsPreorder Database Loses where
  refl _ := .of_objectStore_eq rfl fun _ _ => .refl _
  trans _ _ _ h h' := {
    spaces := fun s kind => (h'.spaces s kind).trans (h.spaces s kind)
    names := fun o =>
      ⟨(h'.names o).1.trans (h.names o).1, (h'.names o).2.trans (h.names o).2⟩
    owners := fun o s ho => h.owners o s (h'.owners o s ho)
    count := h'.count.trans h.count }

private theorem holds (h : Loses db db') (ho : db'.Holds s o) : db.Holds s o :=
  ho.imp fun kind => (h.spaces s kind).mem_values

/-- What changes in a schema besides its registry does not matter. -/
private theorem modifySchema (s : SchemaRef) {change : Schema → Schema} (db : Database)
    (h : (change (db.schema s)).registry = (db.schema s).registry) :
    Loses db (db.modifySchema s change) :=
  .of_objectStore_eq rfl fun r kind =>
    .of_eq (field_modifySchema (fun schema => schema.registry.space kind) r (by rw [h]))

private theorem withReservations (s : SchemaRef) (reservations : ReservationSet) (db : Database) :
    Loses db (Database.withReservations s reservations db) :=
  modifySchema s db rfl

/-- A new schema is empty, whatever there was in its place. -/
private theorem newSchema (id : UInt32) (name : String) (owner : Option Principal) (system : Bool)
    (rule : CaseRule) (db : Database) :
    Loses db (db.newSchema (.create id name owner system rule)).2 := by
  refine .of_objectStore_eq rfl fun s kind => ?_
  rw [space, Database.schema, Database.newSchema, Store.get_push]
  split
  · cases kind <;> exact NameMap.within_empty _ _
  · exact .refl _

private theorem allowsRemoval : AllowsRemoval Loses where
  struckOut := by
    refine fun s o db _ => .of_objectStore_eq rfl fun r kind => ?_
    rw [space_struckOut]
    split
    next heq =>
      rw [heq.1]
      exact NameMap.within_erase _ _
    next => exact .refl _
  invalidate := fun o db => {
    spaces := fun _ _ => .refl _
    names := fun other => ⟨field_modifyObject Object.name other rfl,
      field_modifyObject Object.kind other (Object.kind_invalidate _)⟩
    owners := by
      intro other s hother
      rw [object_modifyObject] at hother
      split at hother
      · cases hother
      · exact hother
    count := rfl }
  modifySession := fun _ _ _ => .of_objectStore_eq rfl fun _ _ => .refl _
  schemaInvalidated := fun s db => modifySchema s db rfl
  schemaErased := fun _ _ => .of_objectStore_eq rfl fun _ _ => .refl _

end Loses

namespace Housed

private theorem loses (h : db.Housed) (hloses : Loses db db') : db'.Housed where
  filed := fun s => (h.filed s).within (hloses.spaces s) fun o _ => hloses.names o
  once := fun hs hr => h.once (hloses.holds hs) (hloses.holds hr)
  owner := fun ho hschema => h.owner (hloses.holds ho) (hloses.owners _ _ hschema)
  made := fun ho => hloses.count ▸ h.made (hloses.holds ho)
  unmade := by
    intro o ho
    rw [hloses.count] at ho
    have hnone := h.unmade o ho
    cases hschema : (db'.object o).schema with
    | none => rfl
    | some s =>
      rw [hloses.owners o s hschema] at hnone
      cases hnone

private theorem newObject (h : db.Housed) (object : Object) : (db.newObject object).2.Housed := by
  have hobject : ∀ o : ObjectRef, o.slot ≠ db.objectStore.next →
      (db.newObject object).2.object o = db.object o := by
    intro o hne
    rw [Database.object, Database.newObject, Store.get_push, if_neg hne]
    rfl
  have hheld : ∀ {s o}, db.Holds s o → (db.newObject object).2.object o = db.object o :=
    fun ho => hobject _ (Nat.ne_of_lt (h.made ho))
  refine ⟨fun s => (h.filed s).within (fun _ => .refl _) fun o ho => ?_, h.once, fun ho hschema => ?_,
    fun ho => Nat.lt_succ_of_lt (h.made ho), fun o ho => ?_⟩
  · rw [nameOf, hheld ho]
    exact ⟨rfl, rfl⟩
  · rw [hheld ho] at hschema
    exact h.owner ho hschema
  · rw [hobject o (Nat.ne_of_gt ho)]
    exact h.unmade o (Nat.le_of_succ_le ho)

private theorem holds_of_entered (ho : (Database.entered s o db).Holds r other) :
    db.Holds r other ∨ r = s ∧ other = o := by
  obtain ⟨kind, ho⟩ := ho
  rw [space_entered] at ho
  split at ho
  next heq =>
    rcases NameMap.mem_values_of_mem_insert ho with rfl | ho
    · exact .inr ⟨heq.1, rfl⟩
    · exact .inl ⟨kind, heq.1 ▸ ho⟩
  next => exact .inl ⟨kind, ho⟩

/-- An object enters the schema that it refers to, so it is in no other one. -/
private theorem entered (h : db.Housed) (howner : (db.object o).schema = some s) :
    (Database.entered s o db).Housed where
  filed := by
    intro r
    by_cases hr : r = s
    · rw [hr]
      exact (h.filed s).entered o
    · exact (h.filed r).within (fun _ => .of_eq (space_entered_of_ne hr)) fun _ _ => ⟨rfl, rfl⟩
  once := by
    intro r r' other hr hr'
    rcases holds_of_entered hr with hold | ⟨rfl, rfl⟩
    · rcases holds_of_entered hr' with hold' | ⟨rfl, rfl⟩
      · exact h.once hold hold'
      · exact h.owner hold howner
    · rcases holds_of_entered hr' with hold' | ⟨rfl, -⟩
      · exact (h.owner hold' howner).symm
      · rfl
  owner := by
    intro r r' other hr hschema
    rcases holds_of_entered hr with hr | ⟨rfl, rfl⟩
    · exact h.owner hr hschema
    · exact Option.some.inj (howner.symm.trans hschema)
  made := by
    intro r other hr
    rcases holds_of_entered hr with hr | ⟨rfl, rfl⟩
    · exact h.made hr
    · by_contra hslot
      have hnone := h.unmade other (Nat.le_of_not_lt hslot)
      rw [howner] at hnone
      cases hnone
  unmade := h.unmade

private theorem renamed (h : db.Housed) (ho : db.Holds s o)
    (hfree : (db.space s (db.object o).kind).get? newName = none) :
    (Database.renamed s o newName db).Housed := by
  have hholds : ∀ {r other}, (Database.renamed s o newName db).Holds r other → db.Holds r other :=
    fun hother => hother.imp fun _ => ((h.filed s).mem_space_renamed ho hfree).mp
  refine ⟨fun r => ?_, fun hs hr => h.once (hholds hs) (hholds hr), fun hother hschema => ?_,
    fun hother => h.made (hholds hother), fun other hother => ?_⟩
  · by_cases hr : r = s
    · rw [hr]
      exact (h.filed s).renamed ho hfree
    · have hspace : ∀ kind, (Database.renamed s o newName db).space r kind = db.space r kind := by
        intro kind
        rw [space_renamed, if_neg fun heq => hr heq.1]
      refine (h.filed r).within (fun kind => .of_eq (hspace kind)) fun other hother => ?_
      refine ⟨nameOf_renamed_of_ne ?_, kind_renamed⟩
      rintro rfl
      exact hr (h.once (hholds hother) ho)
  · rw [owner_renamed] at hschema
    exact h.owner (hholds hother) hschema
  · rw [owner_renamed]
    exact h.unmade other hother

end Housed

theorem housed_bootstrap (settings : Settings) : (bootstrap settings).Housed := by
  have hplaced := placed_bootstrap settings
  refine ⟨fun s => (hplaced.inOrder s).filed, hplaced.schema_eq, fun {s r o} ho hschema => ?_,
    hplaced.slots _ _, fun _ _ => rfl⟩
  obtain ⟨kind, ho⟩ := ho
  rw [((hplaced.inOrder s).enters kind o ho).schema] at hschema
  exact Option.some.inj hschema

/-- What leads on from where all objects are housed. -/
def KeepsHoused (db db' : Database) : Prop :=
  db.Housed → db'.Housed

instance : IsPreorder Database KeepsHoused where
  refl _ h := h
  trans _ _ _ h h' hdb := h' (h hdb)

private theorem Loses.keepsHoused (h : Loses db db') : KeepsHoused db db' :=
  fun hdb => hdb.loses h

end Housed

end Database

section Calls

variable {s : SchemaRef} {db db' : Database} {call : SchemaCall} {r? : Option Reservation}

private theorem SchemaCall.Effect.keepsHoused (h : call.Effect s db r? db') :
    KeepsHoused db db' := by
  cases h with
  | added _ howner => exact fun hdb => hdb.entered howner
  | renamed _ hlive hfree => exact fun hdb => hdb.renamed ⟨_, NameMap.mem_values_of_get? hlive⟩ hfree
  | removed _ hlive => exact (Loses.allowsRemoval.struckOut s _ db hlive).keepsHoused
  | named _ hreserve | indexNamed _ _ hreserve =>
    rw [(granted_of_reserve hreserve).result]
    exact (Loses.withReservations s _ db).keepsHoused
  | freed | released => exact (Loses.withReservations s _ db).keepsHoused

private theorem SchemaCall.leaves_keepsHoused (call : SchemaCall) :
    Leaves KeepsHoused (call.run s) := by
  intro db
  cases hrun : call.run s db with
  | ok r? db' =>
    rw [stateAfter_of_ok hrun]
    exact (call.effect_of_ok hrun).keepsHoused
  | error e db' =>
    rw [stateAfter_of_error hrun, call.unchanged_of_error hrun]
    exact refl_of KeepsHoused db

private theorem leaves_addObject (o : ObjectRef) : Leaves KeepsHoused (addObject o) := by
  refine (Leaves.look _).bind fun s db => ?_
  rw [← stateAfter_bind_pure (s.add o) (none : Option Reservation)]
  exact (SchemaCall.add o).leaves_keepsHoused db

private theorem leaves_renameObject (o : ObjectRef) (newName : String) :
    Leaves KeepsHoused (renameObject o newName) := by
  refine (Leaves.look _).bind fun s => .get_bind fun db => ?_
  refine Leaves.bind_from (Leaves.look _ db) fun o? => ?_
  split
  · exact .throw _
  · intro db
    rw [← stateAfter_bind_pure (s.rename o newName) (none : Option Reservation)]
    exact (SchemaCall.rename o newName).leaves_keepsHoused db

end Calls

/-- A call on a database, a schema or a session, or the making of an object, a schema or a session
that is not registered. -/
inductive Operation where
  | makeObject (object : Object)
  | makeSchema (id : UInt32) (name : String) (owner : Option Principal) (system : Bool)
    (rule : CaseRule)
  | makeSession (user : Principal) (rule : CaseRule)
  | onSchema (s : SchemaRef) (call : SchemaCall)
  | setNode (s : SchemaRef) (node : Option MetadataNode)
  | allocateId
  | createUser (name : String) (admin : Bool)
  | dropUser (name : String)
  | createSchema (name : String) (owner : Principal)
  | dropSchema (session : Option SessionRef) (name : String)
  | addObject (o : ObjectRef)
  | renameObject (o : ObjectRef) (newName : String)
  | removeObject (session : Option SessionRef) (o : ObjectRef)
  | openSession (user : Principal)
  | closeSession (c : SessionRef)
  | removeSession (c : SessionRef)
  | addTempTable (c : SessionRef) (t : ObjectRef)
  | dropTempTable (c : SessionRef) (name : String)
  | addTempIndex (c : SessionRef) (i : ObjectRef)
  | dropTempIndex (c : SessionRef) (name : String)
deriving DecidableEq, Inhabited

namespace Operation

/-- The state that an operation leaves behind, whether it fails or not. -/
def run : Operation → Database → Database
  | makeObject object, db => (db.newObject object).2
  | makeSchema id name owner system rule, db =>
    (db.newSchema (.create id name owner system rule)).2
  | makeSession user rule, db => withSession user rule db
  | onSchema s call, db => stateAfter (call.run s) db
  | setNode s node, db => db.modifySchema s fun schema => { schema with node }
  | allocateId, db => db.allocateId.2
  | createUser name admin, db => stateAfter (Database.createUser name admin) db
  | dropUser name, db => stateAfter (Database.dropUser name) db
  | createSchema name owner, db => stateAfter (Database.createSchema name owner) db
  | dropSchema session name, db => stateAfter (Database.dropSchema session name) db
  | addObject o, db => stateAfter (Database.addObject o) db
  | renameObject o newName, db => stateAfter (Database.renameObject o newName) db
  | removeObject session o, db => stateAfter (Database.removeObject session o) db
  | openSession user, db => (db.openSession user).2
  | closeSession c, db => c.close db
  | removeSession c, db => (db.removeSession c).2
  | addTempTable c t, db => stateAfter (c.addTempTable t) db
  | dropTempTable c name, db => (c.dropTempTable name db).2
  | addTempIndex c i, db => stateAfter (c.addTempIndex i) db
  | dropTempIndex c name, db => (c.dropTempIndex name db).2

theorem keepsHoused (operation : Operation) (db : Database) :
    KeepsHoused db (operation.run db) := by
  have hsame : ∀ {db' : Database}, db'.objectStore = db.objectStore →
      (∀ s, db'.schema s = db.schema s) → KeepsHoused db db' := by
    intro db' hobjects hschemas
    refine (Loses.of_objectStore_eq hobjects fun s kind => .of_eq ?_).keepsHoused
    rw [space, hschemas, space]
  have hremoval := Loses.allowsRemoval
  cases operation with
  | makeObject object => exact fun hdb => hdb.newObject object
  | makeSchema id name owner system rule =>
    exact (Loses.newSchema id name owner system rule db).keepsHoused
  | makeSession user rule => exact hsame rfl fun _ => rfl
  | onSchema s call => exact call.leaves_keepsHoused db
  | setNode s node => exact (Loses.modifySchema s db rfl).keepsHoused
  | allocateId => exact hsame rfl fun _ => rfl
  | createUser name admin =>
    obtain ⟨users, nextId, -, hafter⟩ := stateAfter_createUser db name admin
    rw [run, hafter]
    exact hsame rfl fun _ => rfl
  | dropUser name =>
    obtain ⟨users, hafter⟩ := stateAfter_dropUser db name
    rw [run, hafter]
    exact hsame rfl fun _ => rfl
  | createSchema name owner =>
    rw [run]
    rcases stateAfter_createSchema name owner db with hafter | hafter
    · rw [hafter]
      exact refl_of KeepsHoused db
    · rw [hafter]
      have hloses : Loses db (withSchema name (some owner) false db) :=
        .of_objectStore_eq rfl (lessens_withSchema name (some owner) false db).spaces
      exact hloses.keepsHoused
  | dropSchema session name => exact (hremoval.dropSchema session name db).keepsHoused
  | addObject o => exact leaves_addObject o db
  | renameObject o newName => exact leaves_renameObject o newName db
  | removeObject session o => exact (hremoval.removeObject session o db).keepsHoused
  | openSession user => exact hsame rfl fun _ => rfl
  | closeSession c => exact (hremoval.close c db).keepsHoused
  | removeSession c =>
    rw [run, Database.removeSession]
    split
    · have hstruck : KeepsHoused db { db with openSessions := db.openSessions.erase c } :=
        hsame rfl fun _ => rfl
      exact trans_of KeepsHoused hstruck (hremoval.close c _).keepsHoused
    · exact refl_of KeepsHoused db
  | addTempTable c t =>
    rw [run, SessionRef.addTempTable, stateAfter_get_bind]
    dsimp only
    split
    · exact refl_of KeepsHoused db
    · exact (hremoval.modifySession c _ db).keepsHoused
  | dropTempTable c name => exact (hremoval.dropTempTable c name db).keepsHoused
  | addTempIndex c i =>
    rw [run, SessionRef.addTempIndex, stateAfter_get_bind]
    dsimp only
    split
    · exact refl_of KeepsHoused db
    · exact (hremoval.modifySession c _ db).keepsHoused
  | dropTempIndex c name => exact (hremoval.dropTempIndex c name db).keepsHoused

end Operation

section Operates

variable {db db' : Database}

/-- A run of operations. A schema may also be emptied through a host, which may do whatever operations
can do when it is asked to remove an object. -/
inductive Operates : Database → Database → Prop
  | run (operation : Operation) (db : Database) : Operates db (operation.run db)
  | teardown {η : Type} (host : CatalogHost η) (session : Option SessionRef) (s : SchemaRef)
    (st : Database × η)
    (hhost : ∀ session o st, Operates st.1 (stateAfter (host.removeObject session o) st).1) :
    Operates st.1 (stateAfter (removeChildren host session s) st).1
  | refl (db : Database) : Operates db db
  | trans {db mid db' : Database} (hfirst : Operates db mid) (hrest : Operates mid db') :
    Operates db db'

theorem Operates.all (operations : List Operation) (db : Database) :
    Operates db (operations.foldl (fun db operation => operation.run db) db) := by
  induction operations generalizing db with
  | nil => exact .refl db
  | cons operation operations ih => exact .trans (.run operation db) (ih _)

theorem Operates.keepsHoused (h : Operates db db') : KeepsHoused db db' := by
  induction h with
  | run operation db => exact operation.keepsHoused db
  | teardown host session s st _ ih =>
    have hhost : ∀ session o, Leaves (OnDatabase KeepsHoused) (host.removeObject session o) := ih
    exact Leaves.removeChildren hhost session s
      (fun db _ => (Loses.modifySchema s db rfl).keepsHoused) st
  | refl db => exact refl_of KeepsHoused db
  | trans _ _ hfirst hrest => exact trans_of KeepsHoused hfirst hrest

end Operates

end SchemaCatalog
