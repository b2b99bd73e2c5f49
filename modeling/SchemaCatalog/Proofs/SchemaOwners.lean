import SchemaCatalog.Proofs.Turns
/-!
# Owners of schemas

A user who owns a schema is not dropped, and a schema belongs to the user of the session that has
created it. The session keeps its principal when the user is dropped, and nobody asks for the user
when the session creates a schema. As long as the users of the sessions that do so are there, every
registered schema is owned by a registered user.
-/
namespace SchemaCatalog

open Database

namespace Database

/-- Some registered user has this principal. -/
def HasUser (db : Database) (principal : Principal) : Prop :=
  ∃ user ∈ db.users.values, user.principal = principal

instance (db : Database) (principal : Principal) : Decidable (db.HasUser principal) :=
  inferInstanceAs (Decidable (∃ user ∈ db.users.values, user.principal = principal))

/-- Every registered schema is under its own name and has a registered user as its owner. -/
structure SchemasOwned (db : Database) : Prop where
  keyed : db.schemas.Keyed fun s => (db.schema s).name
  slots : ∀ s ∈ db.allSchemas, s.slot < db.schemaStore.next
  owners : ∀ s ∈ db.allSchemas, ∃ principal, (db.schema s).owner = some principal ∧
    db.HasUser principal

/-- The users are the same, and the schemas with their names and owners. -/
structure SameOwners (db db' : Database) : Prop where
  users : db'.users = db.users
  schemas : db'.schemas = db.schemas
  schemaCount : db'.schemaStore.next = db.schemaStore.next
  names : ∀ s, (db'.schema s).name = (db.schema s).name
  owners : ∀ s, (db'.schema s).owner = (db.schema s).owner

section Frame

variable {db db' db'' : Database}

private theorem SameOwners.refl (db : Database) : SameOwners db db :=
  ⟨rfl, rfl, rfl, fun _ => rfl, fun _ => rfl⟩

private theorem SameOwners.trans (h : SameOwners db db') (h' : SameOwners db' db'') :
    SameOwners db db'' where
  users := h'.users.trans h.users
  schemas := h'.schemas.trans h.schemas
  schemaCount := h'.schemaCount.trans h.schemaCount
  names := fun s => (h'.names s).trans (h.names s)
  owners := fun s => (h'.owners s).trans (h.owners s)

/-- Objects and sessions have no part in who owns a schema. -/
private theorem sameOwners_of_stores (db : Database) {openSessions : List SessionRef}
    {objectStore : Store Object} {sessionStore : Store Session} {nextId : Nat} :
    SameOwners db { db with nextId, openSessions, objectStore, sessionStore } :=
  ⟨rfl, rfl, rfl, fun _ => rfl, fun _ => rfl⟩

private theorem sameOwners_modifySchema (s : SchemaRef) {change : Schema → Schema} (db : Database)
    (hname : (change (db.schema s)).name = (db.schema s).name)
    (howner : (change (db.schema s)).owner = (db.schema s).owner) :
    SameOwners db (db.modifySchema s change) where
  users := rfl
  schemas := rfl
  schemaCount := rfl
  names := fun r => field_modifySchema Schema.name r hname
  owners := fun r => field_modifySchema Schema.owner r howner

private theorem sameOwners_tempDropped {c : SessionRef} {gone : List ObjectRef}
    (h : TempDropped c gone db db') : SameOwners db db' := by
  rw [h.rest]
  exact sameOwners_of_stores db

private theorem Departs.sameOwners {c : SessionRef} (h : Departs c db db') : SameOwners db db' := by
  cases h with
  | @detached s o _ _ =>
    exact (sameOwners_modifySchema s db rfl rfl).trans (sameOwners_of_stores _)
  | tempDropped hdropped _ _ => exact sameOwners_tempDropped hdropped

/-- An open session is closed, or nothing is done. -/
private theorem Placed.sameOwners_close (h : db.Placed) (c : SessionRef) :
    SameOwners db (c.close db) := by
  cases hactive : (db.session c).active with
  | false =>
    rw [SessionRef.close, hactive]
    exact .refl db
  | true =>
    obtain ⟨gone, hdropped, -, -⟩ := (h.tidy c).tempDropped_close hactive
    exact (sameOwners_of_stores db).trans (sameOwners_tempDropped hdropped)

private theorem Placed.sameOwners_removeSession (h : db.Placed) (c : SessionRef) :
    SameOwners db (db.removeSession c).2 := by
  rw [removeSession]
  split
  · have hstruck : ({ db with openSessions := db.openSessions.erase c } : Database).Placed :=
      h.samePlaces (samePlaces_of_stores db)
    exact (sameOwners_of_stores db).trans (hstruck.sameOwners_close c)
  · exact .refl db

end Frame

namespace SchemasOwned

variable {db db' : Database} {s : SchemaRef} {name : String} {principal : Principal}

private theorem sameOwners (h : db.SchemasOwned) (hsame : SameOwners db db') :
    db'.SchemasOwned where
  keyed := by
    rw [hsame.schemas]
    exact h.keyed.congr fun s _ => hsame.names s
  slots := by
    intro s hs
    rw [allSchemas, hsame.schemas] at hs
    rw [hsame.schemaCount]
    exact h.slots s hs
  owners := by
    intro s hs
    rw [allSchemas, hsame.schemas] at hs
    obtain ⟨principal, howner, huser⟩ := h.owners s hs
    refine ⟨principal, (hsame.owners s).trans howner, ?_⟩
    rwa [HasUser, hsame.users]

/-- Users may change as they like, as long as those who own a schema stay. -/
private theorem withUsers (h : db.SchemasOwned) {users : NameMap User} {nextId : Nat}
    (hstay : ∀ s ∈ db.allSchemas, ∀ user ∈ db.users.values,
      (db.schema s).owner = some user.principal → user ∈ users.values) :
    SchemasOwned { db with users, nextId } where
  keyed := h.keyed
  slots := h.slots
  owners := by
    intro s hs
    obtain ⟨_, howner, user, huser, rfl⟩ := h.owners s hs
    exact ⟨user.principal, howner, user, hstay s hs user huser howner, rfl⟩

/-- A new schema is in a slot of its own, so no other one changes. -/
private theorem withSchema (h : db.SchemasOwned) (hprincipal : db.HasUser principal) (name : String)
    (system : Bool) : (Database.withSchema name (some principal) system db).SchemasOwned := by
  have hold : ∀ s ∈ db.allSchemas,
      (Database.withSchema name (some principal) system db).schema s = db.schema s := by
    intro s hs
    rw [schema_withSchema, if_neg]
    rintro rfl
    exact Nat.lt_irrefl _ (h.slots _ hs)
  have hnew : (Database.withSchema name (some principal) system db).schema db.nextSchema =
      .create (UInt32.ofNat db.nextId) name (some principal) system db.rule := by
    rw [schema_withSchema, if_pos rfl]
  refine ⟨?_, fun s hs => ?_, fun s hs => ?_⟩
  · refine (h.keyed.congr fun s hs => ?_).insert ?_
    · rw [hold s hs]
    · rw [hnew]
      rfl
  · rcases NameMap.mem_values_of_mem_insert hs with rfl | hs
    · exact Nat.lt_succ_self _
    · exact Nat.lt_succ_of_lt (h.slots s hs)
  · rcases NameMap.mem_values_of_mem_insert hs with rfl | hs
    · rw [hnew]
      exact ⟨principal, rfl, hprincipal⟩
    · rw [hold s hs]
      exact h.owners s hs

/-- The schema that loses its owner is no longer registered. -/
private theorem schemaGone (h : db.SchemasOwned) (hname : db.findSchema name = some s) :
    (Database.schemaGone s name db).SchemasOwned where
  keyed := by
    refine (h.keyed.congr fun r _ => ?_).erase name
    exact field_modifySchema Schema.name r rfl
  slots := fun r hr => h.slots r (NameMap.mem_values_of_mem_erase hr)
  owners := by
    intro r hr
    obtain ⟨hold, hne⟩ := (h.keyed.mem_values_erase_of_get? hname).mp hr
    have hschema : (Database.schemaGone s name db).schema r = db.schema r := by
      change (db.modifySchema s Schema.invalidate).schema r = db.schema r
      rw [schema_modifySchema, if_neg hne]
    rw [hschema]
    exact h.owners r hold

private theorem createUser (h : db.SchemasOwned) (name : String) (admin : Bool) :
    (stateAfter (Database.createUser name admin) db).SchemasOwned := by
  rw [stateAfter, Database.createUser, get_bind_run]
  cases hfree : db.users.contains name with
  | true => exact h
  | false =>
    refine h.withUsers fun s _ user huser _ => ?_
    exact (NameMap.mem_values_insert (NameMap.contains_eq_false.mp hfree) _ user).mpr (.inr huser)

/-- A user who is dropped owns no registered schema. -/
private theorem dropUser (h : db.SchemasOwned) (name : String) :
    (stateAfter (Database.dropUser name) db).SchemasOwned := by
  rw [stateAfter, Database.dropUser, get_bind_run]
  cases hname : db.findUser name with
  | none => exact h
  | some dropped =>
    simp only
    cases hlook : checkOwnsNoSchemas dropped.principal db with
    | error e =>
      have hrefused : (liftM (checkOwnsNoSchemas dropped.principal) : CatalogM Unit) db =
        .error e db := lift_of_error hlook
      rw [bind_of_error hrefused]
      exact h
    | ok =>
      have hfree : db.schemasOwnedBy dropped.principal = [] := by
        rw [checkOwnsNoSchemas, read_bind_run] at hlook
        cases howned : db.schemasOwnedBy dropped.principal with
        | nil => rfl
        | cons s schemas =>
          rw [howned] at hlook
          cases hlook
      rw [bind_of_ok (lift_of_ok hlook)]
      refine h.withUsers fun s hs user huser howner => ?_
      refine NameMap.mem_values_erase_of_ne hname huser ?_
      rintro rfl
      refine List.filter_eq_nil_iff.mp hfree s hs ?_
      simp [Schema.isOwnedBy, howner]

end SchemasOwned

end Database

section Runs

variable {c : SessionRef} {statement : Statement} {start db db' : Database}

/-- Schemas are only created in sessions whose user is there. -/
def Action.CreatesForUser (db : Database) : Action → Prop
  | execute c (.createSchema _ _) => db.HasUser (db.session c).user
  | _ => True

/-- Only the two kinds of steps that make a schema and let it go have to do with owners. -/
theorem Statement.Step.schemasOwned (h : statement.Step c start db db')
    (hallowed : Action.CreatesForUser start (.execute c statement)) (hdb : db.SchemasOwned) :
    db'.SchemasOwned := by
  cases h with
  | schemaCreated name owner hfounds =>
    obtain ⟨⟨ifNotExists, rfl⟩, rfl, husers⟩ := hfounds
    refine hdb.withSchema ?_ name false
    rw [HasUser, husers]
    exact hallowed
  | schemaGone hname => exact hdb.schemaGone hname
  | departed h => exact hdb.sameOwners h.sameOwners
  | reserved s reservations => exact hdb.sameOwners (sameOwners_modifySchema s db rfl rfl)
  | objectMade | tableKept | indexKept | tableAltered =>
    exact hdb.sameOwners (sameOwners_of_stores db)
  | entered | renamed =>
    exact hdb.sameOwners ((sameOwners_of_stores db).trans (sameOwners_modifySchema _ _ rfl rfl))

theorem Turns.schemasOwned (h : Turns (fun _ action => action.Idle) db db') (hdb : db.Placed)
    (howned : db.SchemasOwned) : db'.SchemasOwned := by
  cases h with
  | session user rule => exact howned.sameOwners (sameOwners_of_stores db)
  | act action hidle =>
    cases action with
    | execute c statement => exact hidle.elim
    | openSession user => exact howned.sameOwners (sameOwners_of_stores db)
    | closeSession c => exact howned.sameOwners (hdb.sameOwners_close c)
    | removeSession c => exact howned.sameOwners (hdb.sameOwners_removeSession c)
    | createUser name admin => exact howned.createUser name admin
    | dropUser name => exact howned.dropUser name

/-- The administrator owns the system schemas. -/
private theorem schemasOwned_bootstrap (settings : Settings) :
    (bootstrap settings).SchemasOwned := by
  let admin : User := ⟨1, settings.adminUser, true⟩
  let start : Database :=
    { settings, nextId := 2, admin := admin.principal, schemas := .empty settings.rule,
      users := (NameMap.empty settings.rule).insert admin.name admin, openSessions := [],
      objectStore := .empty, schemaStore := .empty, sessionStore := .empty }
  have hstart : start.SchemasOwned :=
    ⟨.empty _ _, fun _ hs => (by cases hs), fun _ hs => (by cases hs)⟩
  have hadmin : start.HasUser admin.principal :=
    ⟨admin, NameMap.mem_values_of_get? (NameMap.get?_insert .. ▸ if_pos rfl), rfl⟩
  exact (hstart.withSchema hadmin settings.mainSchema true).withSchema hadmin settings.infoSchema true

/-- In every run in which schemas are created for users who are there, whoever else is created and
dropped meanwhile, each registered schema belongs to a registered user. -/
theorem Becomes.ownedByUser_of_createsForUser {settings : Settings}
    (h : Becomes Action.CreatesForUser (bootstrap settings) db) :
    ∀ s ∈ db.allSchemas, ∃ user ∈ db.users.values, (db.schema s).owner = some user.principal := by
  have howned : db.SchemasOwned := by
    refine h.invariant (placed_bootstrap settings) (schemasOwned_bootstrap settings) ?_ ?_
    · intro c statement start db db' hallowed _ _ hstep howned
      exact hstep.schemasOwned hallowed howned
    · exact fun db db' hdb hturn => hturn.schemasOwned hdb
  intro s hs
  obtain ⟨_, howner, user, huser, rfl⟩ := howned.owners s hs
  exact ⟨user, huser, howner⟩

/-- Two users open sessions, one creates a schema, and both are dropped if that is possible. -/
def droppingActions : List Action :=
  [.createUser "ALICE" false,
    .createUser "BOB" false,
    .openSession ⟨4, "ALICE"⟩,
    .openSession ⟨5, "BOB"⟩,
    .execute ⟨0⟩ (.createSchema "APP" false),
    .dropUser "ALICE",
    .dropUser "BOB"]

def withUsersDropped : Database :=
  droppingActions.foldl (fun db action => action.run db) (bootstrap .standard)

private theorem createsForUser_withUsersDropped :
    Becomes Action.CreatesForUser (bootstrap .standard) withUsersDropped := by
  have hturns : InTurn Action.CreatesForUser (bootstrap .standard) droppingActions := by
    refine ⟨trivial, trivial, trivial, trivial, ?_, trivial, trivial, trivial⟩
    rw [Action.CreatesForUser]
    decide +kernel
  exact hturns.becomes

theorem ownedByUser_withUsersDropped :
    Becomes Action.CreatesForUser (bootstrap .standard) withUsersDropped ∧
    withUsersDropped.findUser "BOB" = none ∧ withUsersDropped.findSchema "APP" = some ⟨2⟩ ∧
    ∀ s ∈ withUsersDropped.allSchemas, ∃ user ∈ withUsersDropped.users.values,
      (withUsersDropped.schema s).owner = some user.principal :=
  ⟨createsForUser_withUsersDropped, by decide +kernel, by decide +kernel,
    createsForUser_withUsersDropped.ownedByUser_of_createsForUser⟩

/-- A user is dropped and creates a schema in a session that was opened before. -/
def outlivingActions : List Action :=
  [.createUser "ALICE" false,
    .openSession ⟨4, "ALICE"⟩,
    .dropUser "ALICE",
    .execute ⟨0⟩ (.createSchema "APP" false)]

-- nobody asks whether the user of the session is still there
example : let db := outlivingActions.foldl (fun db action => action.run db) (bootstrap .standard)
    ∃ s ∈ db.allSchemas, ∀ user ∈ db.users.values,
      (db.schema s).owner ≠ some user.principal := by
  decide +kernel

end Runs

end SchemaCatalog
