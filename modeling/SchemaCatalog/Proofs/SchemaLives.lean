import SchemaCatalog.Proofs.AnyHost
/-!
# The life of a schema

From the day it is made a schema is called, emptied through hosts and otherwise left alone, any number
of times and in any order. As long as it is active it can be emptied, which ends whatever the host
answers. Once it is invalid it holds nothing, it stays so, and it refuses all that is asked of it.
-/
namespace SchemaCatalog

open Database

section Ages

variable {db db' : Database} {s : SchemaRef} {call : SchemaCall} {r? : Option Reservation}

/-- An invalid schema holds nothing and has no owner. -/
def BareIfInvalid (s : SchemaRef) (db : Database) : Prop :=
  (db.schema s).state = .invalid →
    (db.schema s).owner = none ∧ ∀ kind, (db.space s kind).values = []

/-- What no day in the life of a schema changes. -/
structure Ages (s : SchemaRef) (db db' : Database) : Prop where
  name : (db'.schema s).name = (db.schema s).name
  invalid : (db.schema s).state = .invalid → (db'.schema s).state = .invalid
  filed : db.Filed s → db'.Filed s
  bare : BareIfInvalid s db → BareIfInvalid s db'

instance : IsPreorder Database (Ages s) where
  refl _ := ⟨rfl, id, id, id⟩
  trans _ _ _ h h' := ⟨h'.name.trans h.name, fun hs => h'.invalid (h.invalid hs),
    fun hs => h'.filed (h.filed hs), fun hs => h'.bare (h.bare hs)⟩

private theorem sheds_withReservations (s : SchemaRef) (reservations : ReservationSet)
    (db : Database) :
    Sheds s db (withReservations s reservations db) where
  name := field_modifySchema Schema.name s rfl
  state := field_modifySchema Schema.state s rfl
  owner := field_modifySchema Schema.owner s rfl
  spaces := fun kind => .of_eq (space_withReservations s s reservations db kind)
  objects := fun _ _ => ⟨rfl, rfl⟩

private theorem Sheds.ages (h : Sheds s db db') : Ages s db db' where
  name := h.name
  invalid := h.state.trans
  filed := h.filed
  bare := by
    intro hbare hinvalid
    obtain ⟨howner, hempty⟩ := hbare (h.state.symm.trans hinvalid)
    refine ⟨h.owner.trans howner, fun kind => List.eq_nil_iff_forall_not_mem.mpr fun o ho => ?_⟩
    have hold := (h.spaces kind).mem_values ho
    rw [hempty kind] at hold
    cases hold

/-- In an active schema anything may come or go. -/
private theorem Ages.of_active (hactive : (db.schema s).state = .active)
    (hname : (db'.schema s).name = (db.schema s).name)
    (hstate : (db'.schema s).state = (db.schema s).state) (hfiled : db.Filed s → db'.Filed s) :
    Ages s db db' where
  name := hname
  invalid := hstate.trans
  filed := hfiled
  bare := by
    intro _ hinvalid
    rw [hstate, hactive] at hinvalid
    cases hinvalid

private theorem SchemaCall.Effect.ages (h : call.Effect s db r? db') : Ages s db db' := by
  have hname : ∀ {change : Schema → Schema} {db : Database},
      (change (db.schema s)).name = (db.schema s).name →
        ((db.modifySchema s change).schema s).name = (db.schema s).name :=
    field_modifySchema Schema.name s
  have hstate : ∀ {change : Schema → Schema} {db : Database},
      (change (db.schema s)).state = (db.schema s).state →
        ((db.modifySchema s change).schema s).state = (db.schema s).state :=
    field_modifySchema Schema.state s
  cases h with
  | added hactive => exact .of_active hactive (hname rfl) (hstate rfl) fun h => h.entered _
  | renamed hactive hlive hfree =>
    exact .of_active hactive (hname rfl) (hstate rfl) fun h =>
      h.renamed ⟨_, NameMap.mem_values_of_get? hlive⟩ hfree
  | removed => exact (Sheds.struckOut s _ db).ages
  | named _ hreserve | indexNamed _ _ hreserve =>
    rw [(granted_of_reserve hreserve).result]
    exact (sheds_withReservations s _ db).ages
  | freed | released => exact (sheds_withReservations s _ db).ages

private theorem SchemaCall.leaves_ages (call : SchemaCall) : Leaves (Ages s) (call.run s) := by
  intro db
  cases hrun : call.run s db with
  | ok r? db' =>
    rw [stateAfter_of_ok hrun]
    exact (call.effect_of_ok hrun).ages
  | error e db' =>
    rw [stateAfter_of_error hrun, call.unchanged_of_error hrun]
    exact refl_of (Ages s) db

/-- A schema that holds nothing can become invalid. -/
private theorem ages_invalidated (hempty : (db.schema s).registry.isEmpty = true) :
    Ages s db (db.modifySchema s Schema.invalidate) := by
  have hschema : (db.modifySchema s Schema.invalidate).schema s = (db.schema s).invalidate := by
    rw [schema_modifySchema, if_pos rfl]
  have hspace : ∀ kind, (db.modifySchema s Schema.invalidate).space s kind = db.space s kind := by
    intro kind
    rw [space, hschema]
    rfl
  have hvalues : ∀ kind, ((db.modifySchema s Schema.invalidate).space s kind).values = [] := by
    intro kind
    rw [hspace]
    exact Registry.isEmpty_iff.mp hempty kind
  refine ⟨by rw [hschema]; rfl, fun _ => by rw [hschema]; rfl, fun hfiled => ⟨fun kind => ?_, ?_⟩,
    fun _ _ => ⟨by rw [hschema]; rfl, hvalues⟩⟩
  · rw [hspace]
    exact hfiled.keyed kind
  · intro kind o ho
    rw [hvalues] at ho
    cases ho

end Ages

section Lives

variable {db db' : Database} {s : SchemaRef}

/-- What can happen to a schema: a call, whether it fails or not, teardown through a host which does
to the schema what can happen to it, or anything at all that leaves it alone or makes it lose objects;
and one after the other. Nobody but the schema renames its objects. -/
inductive Lives (s : SchemaRef) : Database → Database → Prop
  | call (call : SchemaCall) (db : Database) : Lives s db (stateAfter (call.run s) db)
  | teardown {η : Type} (host : CatalogHost η) (session : Option SessionRef) (st : Database × η)
    (hhost : ∀ session o st, Lives s st.1 (stateAfter (host.removeObject session o) st).1) :
    Lives s st.1 (stateAfter (removeChildren host session s) st).1
  | elsewhere {db db' : Database} (hsheds : Sheds s db db') : Lives s db db'
  | refl (db : Database) : Lives s db db
  | trans {db mid db' : Database} (hfirst : Lives s db mid) (hrest : Lives s mid db') :
    Lives s db db'

theorem Lives.calls (calls : List SchemaCall) (db : Database) :
    Lives s db (calls.foldl (fun db call => stateAfter (call.run s) db) db) := by
  induction calls generalizing db with
  | nil => exact .refl db
  | cons call calls ih => exact .trans (.call call db) (ih _)

theorem Lives.ages (h : Lives s db db') : Ages s db db' := by
  induction h with
  | call call db => exact call.leaves_ages db
  | teardown host session st _ ih =>
    exact Leaves.removeChildren ih session s (fun _ => ages_invalidated) st
  | elsewhere hsheds => exact hsheds.ages
  | refl db => exact refl_of (Ages s) db
  | trans _ _ hfirst hrest => exact trans_of (Ages s) hfirst hrest

end Lives

section Terminal

variable {db : Database} {s : SchemaRef}

/-- The schema answers every question and every call with the same error and changes nothing. -/
structure Refuses (s : SchemaRef) (name : String) (db : Database) : Prop where
  add : ∀ o, s.add o db = .error (.schemaInvalid name) db
  rename : ∀ o newName, s.rename o newName db = .error (.schemaInvalid name) db
  remove : ∀ o, s.remove o db = .error (.schemaInvalid name) db
  detach : ∀ o, s.detach o db = .error (.schemaInvalid name) db
  contains : ∀ o, s.contains o db = .error (.schemaInvalid name)
  findObject : ∀ kind wanted, s.findObject kind wanted db = .error (.schemaInvalid name)
  getObject : ∀ kind wanted, s.getObject kind wanted db = .error (.schemaInvalid name)
  findTable : ∀ session wanted, s.findTable session wanted db = .error (.schemaInvalid name)
  getTable : ∀ session wanted, s.getTable session wanted db = .error (.schemaInvalid name)
  findIndex : ∀ session wanted, s.findIndex session wanted db = .error (.schemaInvalid name)
  getIndex : ∀ wanted, s.getIndex wanted db = .error (.schemaInvalid name)
  objects : s.objects db = .error (.schemaInvalid name)
  objectsOf : ∀ kind, s.objectsOf kind db = .error (.schemaInvalid name)
  tables : s.tables db = .error (.schemaInvalid name)
  firstOf : ∀ kind, s.firstOf kind db = .error (.schemaInvalid name)
  uniqueName : ∀ base kind stem, s.uniqueName base kind stem db = .error (.schemaInvalid name) db
  /-- A session is asked for first where the indexes are kept by one. -/
  uniqueIndexName : ∀ session t stem,
    ((db.tableOf t).isLocalTemporary = true → session ≠ none) →
      s.uniqueIndexName session t stem db = .error (.schemaInvalid name) db
  removeChildren : ∀ (η : Type) (host : CatalogHost η) session own,
    removeChildren host session s (db, own) = .error (.schemaInvalid name) (db, own)

section Invalid

variable (h : (db.schema s).state = .invalid)

include h

private theorem tables_of_invalid : s.tables db = .error (.schemaInvalid (db.schema s).name) :=
  look_bind_of_error (activeRegistry_of_invalid h)

private theorem remove_of_invalid (o : ObjectRef) :
    s.remove o db = .error (.schemaInvalid (db.schema s).name) db := by
  rw [remove_eq_guarded]
  exact guarded_of_invalid h

private theorem uniqueName_of_invalid (base : String) (kind : ObjectKind) (stem : String) :
    s.uniqueName base kind stem db = .error (.schemaInvalid (db.schema s).name) db :=
  bind_of_error (lift_of_error (activeRegistry_of_invalid h))

private theorem uniqueIndexName_of_invalid (session : Option SessionRef) (t : ObjectRef)
    (stem : String) (hsession : (db.tableOf t).isLocalTemporary = true → session ≠ none) :
    s.uniqueIndexName session t stem db = .error (.schemaInvalid (db.schema s).name) db := by
  rw [SchemaRef.uniqueIndexName, get_bind_run, get_bind_run]
  split
  next hlocal =>
    obtain ⟨c, rfl⟩ := Option.ne_none_iff_exists'.mp (hsession hlocal)
    have hfound : (liftM (SchemaRef.sessionFor (some c) t) : CatalogM SessionRef) db = .ok c db := rfl
    rw [bind_of_ok hfound]
    exact bind_of_error (lift_of_error (activeRegistry_of_invalid h))
  next => exact uniqueName_of_invalid h _ _ _

private theorem removeChildren_of_invalid {η : Type} (host : CatalogHost η)
    (session : Option SessionRef) (own : η) : removeChildren host session s (db, own) =
      .error (.schemaInvalid (db.schema s).name) (db, own) :=
  bind_of_error (tableRemovalOrder_of_invalid host own h)

private theorem Refuses.of_invalid : Refuses s (db.schema s).name db where
  add o := by
    rw [add_eq_guarded]
    exact guarded_of_invalid h
  rename o newName := by
    rw [rename_eq_guarded]
    exact guarded_of_invalid h
  remove := remove_of_invalid h
  detach o := bind_of_error (remove_of_invalid h o)
  contains _ := look_bind_of_error (activeRegistry_of_invalid h)
  findObject := findObject_of_invalid h
  getObject kind wanted := look_bind_of_error (findObject_of_invalid h kind wanted)
  findTable := findTable_of_invalid h
  getTable session wanted := look_bind_of_error (findTable_of_invalid h session wanted)
  findIndex := findIndex_of_invalid h
  getIndex wanted := look_bind_of_error (findIndex_of_invalid h none wanted)
  objects := look_bind_of_error (activeRegistry_of_invalid h)
  objectsOf _ := look_bind_of_error (activeRegistry_of_invalid h)
  tables := tables_of_invalid h
  firstOf _ := look_bind_of_error (activeRegistry_of_invalid h)
  uniqueName := uniqueName_of_invalid h
  uniqueIndexName := uniqueIndexName_of_invalid h
  removeChildren _ := removeChildren_of_invalid h

end Invalid

/-- The schema is at the end of its life. -/
structure Spent (s : SchemaRef) (name : String) (db : Database) : Prop where
  invalid : (db.schema s).state = .invalid
  owner : (db.schema s).owner = none
  empty : ∀ kind, (db.space s kind).values = []
  refuses : Refuses s name db

/-- Whatever has happened to a schema since it was made, its teardown through a host that only removes
objects comes to an end, and once it is invalid it is so for good. -/
theorem Lives.teardown_terminal {start : Database} {id : UInt32} {name : String}
    {owner : Option Principal} {system : Bool} {rule : CaseRule}
    (hstart : start.schema s = .create id name owner system rule) (hlives : Lives s start db) :
    (∀ (η : Type) (host : CatalogHost η), host.RemovalOnly s → ∀ session own,
      TeardownOutcome host session s (db, own)) ∧
    ((db.schema s).state = .invalid → ∀ db', Lives s db db' → Spent s name db') := by
  have hspace : ∀ kind, start.space s kind = .empty rule := by
    intro kind
    rw [space, hstart]
    cases kind <;> rfl
  have hfiled : start.Filed s := by
    refine ⟨fun kind => ?_, fun kind o ho => ?_⟩
    · rw [hspace]
      exact .empty rule _
    · rw [hspace] at ho
      cases ho
  have hactive : (start.schema s).state = .active := by rw [hstart]; rfl
  have hbare : BareIfInvalid s start := fun hinvalid => by rw [hactive] at hinvalid; cases hinvalid
  refine ⟨fun η host hhost session own => hhost.outcome (hlives.ages.filed hfiled), ?_⟩
  intro hinvalid db' hlater
  have hages := (hlives.trans hlater).ages
  have hinvalid' := hlater.ages.invalid hinvalid
  obtain ⟨howner, hempty⟩ := hages.bare hbare hinvalid'
  refine ⟨hinvalid', howner, hempty, ?_⟩
  have hrefuses := Refuses.of_invalid hinvalid'
  rwa [hages.name, hstart] at hrefuses

/-- A new schema with objects that are not registered yet, the last one a local temporary table. -/
def withUnregisteredTables : Database :=
  let db := withSchema "App" (some ⟨1, "SA"⟩) false (bootstrap .standard)
  ((((db.withObject ⟨2⟩ "T" (.table default)).withObject ⟨2⟩ "A" (.sequence .counting)).withObject
    ⟨2⟩ "B" (.sequence .counting)).withObject ⟨2⟩ "C" (.constant "1")).withObject ⟨2⟩ "L"
      (.table { (default : Table) with scope := .localTemporary })

/-- A host that counts what it is asked to remove and fails on every third removal, after it has made
it. It says of every table that it depends on itself. -/
def busyHost : CatalogHost Nat where
  dependentsOf t state := ([t], state.2)
  hasDependents _ state := (true, state.2)
  removeObject _ o := do
    SchemaRef.remove ⟨2⟩ o
    let (db, removals) ← get
    set (db, removals + 1)
    if removals % 3 = 2 then
      throw (.unsupported "removal")

private theorem busyHost_removalOnly : busyHost.RemovalOnly ⟨2⟩ := by
  intro session o
  have hremove : Leaves (Sheds ⟨2⟩) (SchemaRef.remove ⟨2⟩ o) := Sheds.allowsDeparture.remove ⟨2⟩ o
  refine (Leaves.hostLift hremove).bind fun _ => .get_bind fun state => ?_
  dsimp only
  split <;> exact refl_of (Sheds ⟨2⟩) state.1

def withObjectsAdded : Database :=
  [SchemaCall.add ⟨0⟩, .add ⟨1⟩, .add ⟨2⟩, .add ⟨3⟩].foldl
    (fun db call => stateAfter (call.run ⟨2⟩) db) withUnregisteredTables

/-- Teardown fails, with the constant left, and succeeds when it is tried again. -/
def afterTeardowns : Database × Nat :=
  stateAfter (removeChildren busyHost none ⟨2⟩)
    (stateAfter (removeChildren busyHost none ⟨2⟩) (withObjectsAdded, 0))

private theorem lives_withObjectsAdded : Lives ⟨2⟩ withUnregisteredTables withObjectsAdded :=
  .calls _ _

private theorem lives_afterTeardowns : Lives ⟨2⟩ withUnregisteredTables afterTeardowns.1 := by
  have hhost : ∀ session o st,
      Lives ⟨2⟩ st.1 (stateAfter (busyHost.removeObject session o) st).1 :=
    fun session o st => .elsewhere (busyHost_removalOnly session o st)
  exact .trans lives_withObjectsAdded (.trans
    (.teardown busyHost none (withObjectsAdded, 0) hhost) (.teardown busyHost none _ hhost))

theorem teardown_terminal_afterTeardowns :
    withUnregisteredTables.schema ⟨2⟩ = .create 4 "App" (some ⟨1, "SA"⟩) false .exact ∧
    (∃ e st, removeChildren busyHost none ⟨2⟩ (withObjectsAdded, 0) = .error e st ∧
      TearsDown busyHost none ⟨2⟩ (withObjectsAdded, 0) (.error e st) ∧
      (st.1.schema ⟨2⟩).state = .active ∧ (st.1.schema ⟨2⟩).owner = some ⟨1, "SA"⟩) ∧
    (afterTeardowns.1.schema ⟨2⟩).state = .invalid ∧ Spent ⟨2⟩ "App" afterTeardowns.1 := by
  have hstart : withUnregisteredTables.schema ⟨2⟩ =
      .create 4 "App" (some ⟨1, "SA"⟩) false .exact := by
    decide +kernel
  have hfirst : TeardownOutcome busyHost none ⟨2⟩ (withObjectsAdded, 0) :=
    (lives_withObjectsAdded.teardown_terminal hstart).1 Nat busyHost busyHost_removalOnly none 0
  have hactive : (withObjectsAdded.schema ⟨2⟩).state = .active := by decide +kernel
  have howner : (withObjectsAdded.schema ⟨2⟩).owner = some ⟨1, "SA"⟩ := by decide +kernel
  have hleft : (afterTeardowns.1.schema ⟨2⟩).state = .invalid := by decide +kernel
  refine ⟨hstart, ?_, hleft, (lives_afterTeardowns.teardown_terminal hstart).2 hleft _ (.refl _)⟩
  have hfails : (match removeChildren busyHost none ⟨2⟩ (withObjectsAdded, 0) with
    | .error .. => true
    | .ok .. => false) = true := by
    decide +kernel
  cases hrun : removeChildren busyHost none ⟨2⟩ (withObjectsAdded, 0) with
  | ok _ st =>
    rw [hrun] at hfails
    cases hfails
  | error e st =>
    obtain ⟨hstate, hsame⟩ := hfirst.kept hactive e st hrun
    exact ⟨e, st, rfl, (hfirst.ends _).mpr hrun, hstate, hsame.trans howner⟩

-- without a session the call does not get as far as to look whether the schema is active
example : (SchemaRef.uniqueIndexName ⟨2⟩ none ⟨4⟩ "IDX_" afterTeardowns.1) =
    .error (.internalInvariant "local temporary table L needs a session") afterTeardowns.1 := by
  rfl

end Terminal

end SchemaCatalog
