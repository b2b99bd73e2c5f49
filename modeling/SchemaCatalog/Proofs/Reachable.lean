import SchemaCatalog.Proofs.Execution.Constraint
import SchemaCatalog.Proofs.Execution.Object
import SchemaCatalog.Proofs.Execution.Table
/-!
# Reachable databases

What a new database can become while statements run in any sessions, sessions come and go, and users
are created and dropped. All of these databases are well-formed, as long as ids do not repeat.
-/
namespace SchemaCatalog

open Database Relation

/-- The schema that a statement names. -/
def Statement.schemaName? : Statement → Option String
  | createSchema name _ | dropSchema name _ => some name
  | createTable definition => some definition.schema
  | createIndex definition => some definition.schema
  | alterColumn change => some change.schema
  | addConstraint definition => some definition.schema
  | dropTable schema _ _ | dropIndex schema _ _ | createSequence schema _ _ _
  | createConstant schema _ _ | createFunctionAlias schema _ _ _ | rename schema _ _ _
  | truncateTable schema _ => some schema
  | dml _ | transaction _ => none

/-- A session makes changes in the schema that the statement names. -/
def Statement.Changes (c : SessionRef) (statement : Statement) (db db' : Database) : Prop :=
  ∃ schemaName, statement.schemaName? = some schemaName ∧ Database.Changes c schemaName db db'

/-- In a well-formed database a statement either makes its changes or fails through a fault of the
user, and then it has changed nothing. -/
theorem Statement.execute_settles {db : Database} (h : db.WellFormed) (c : SessionRef)
    (statement : Statement) :
    Settles (statement.execute c) db fun _ db' => statement.Changes c db db' := by
  have hnamed : ∀ {act : ExecM Outcome} {schemaName : String},
      statement.schemaName? = some schemaName →
      (Settles act db fun _ db' => Database.Changes c schemaName db db') →
        Settles act db fun _ db' => statement.Changes c db db' := fun hname hsettles =>
    hsettles.mono fun _ _ hchanges => ⟨_, hname, hchanges⟩
  cases statement with
  | createSchema name ifNotExists =>
    exact hnamed rfl (Execution.createSchema_settles c name ifNotExists db)
  | dropSchema name ifExists => exact hnamed rfl (Execution.dropSchema_settles h c name ifExists)
  | createTable definition => exact hnamed rfl (Execution.createTable_settles h c definition)
  | dropTable schema name ifExists =>
    exact hnamed rfl (Execution.dropTable_settles h c schema name ifExists)
  | createIndex definition => exact hnamed rfl (Execution.createIndex_settles h c definition)
  | dropIndex schema name ifExists =>
    exact hnamed rfl (Execution.dropIndex_settles h c schema name ifExists)
  | createSequence schema name start increment =>
    exact hnamed rfl (Execution.createSequence_settles h schema name start increment)
  | createConstant schema name value =>
    exact hnamed rfl (Execution.createConstant_settles h schema name value)
  | createFunctionAlias schema name target deterministic =>
    exact hnamed rfl (Execution.createFunctionAlias_settles h schema name target deterministic)
  | rename schema kind oldName newName =>
    exact hnamed rfl (Execution.rename_settles h schema kind oldName newName)
  | alterColumn change => exact hnamed rfl (Execution.alterColumn_settles h c change)
  | addConstraint definition => exact hnamed rfl (Execution.addConstraint_settles h c definition)
  | truncateTable schema name => exact .of_error rfl trivial
  | dml kind => exact .of_error rfl trivial
  | transaction kind => exact .of_error rfl trivial

/-- What can happen to a database. -/
inductive Action where
  | execute (c : SessionRef) (statement : Statement)
  | openSession (user : Principal)
  | closeSession (c : SessionRef)
  | removeSession (c : SessionRef)
  | createUser (name : String) (admin : Bool)
  | dropUser (name : String)
deriving DecidableEq, Inhabited

/-- The state that an action leaves behind, whether it fails or not. -/
def stateAfter {ε σ α : Type} (act : EStateM ε σ α) (s : σ) : σ :=
  match act s with
  | .ok _ s => s
  | .error _ s => s

def Action.run : Action → Database → Database
  | execute c statement, db => stateAfter (statement.execute c) db
  | openSession user, db => (db.openSession user).2
  | closeSession c, db => c.close db
  | removeSession c, db => (db.removeSession c).2
  | createUser name admin, db => stateAfter (Database.createUser name admin) db
  | dropUser name, db => stateAfter (Database.dropUser name) db

/-- The databases reached from a new one, with any settings, in a run that gives out fewer than
`2 ^ 32` ids. -/
inductive Reachable : Database → Prop
  | new (settings : Settings) : Reachable (bootstrap settings)
  | act {db : Database} (h : Reachable db) (action : Action)
    (hid : (action.run db).nextId ≤ UInt32.size) : Reachable (action.run db)

section Start

/-- A database before its first schema, object and session. -/
theorem wellFormed_of_empty {db : Database} (hschemas : db.schemas.values = [])
    (hobjects : db.objectStore.next = 0) (hsessions : db.sessionStore = .empty) :
    db.WellFormed := by
  have hnone : ∀ s, s ∉ db.allSchemas := by
    intro s hs
    rw [allSchemas, hschemas] at hs
    cases hs
  have hregistered : ∀ o, ¬ db.Registered o := by
    rintro o ⟨s, hs, -⟩
    exact hnone s hs
  have htables : ∀ t, t ∉ db.allTables := fun t ht =>
    hregistered t (registered_of_mem_allTables ht)
  have hsession : ∀ c, db.session c = default := by
    intro c
    rw [Database.session, hsessions]
    rfl
  have hkeeps : ∀ c o, ¬ db.Keeps c o := by
    intro c o ho
    rw [Keeps, hsession] at ho
    rcases ho with ho | ho <;> cases ho
  have hslots : ∀ o : ObjectRef, ¬ o.slot < db.objectStore.next := by
    intro o
    rw [hobjects]
    exact Nat.not_lt_zero _
  exact {
    schemas := fun key s hs => absurd (NameMap.mem_values.mpr ⟨key, hs⟩) (hnone s)
    keyed := fun s hs => absurd hs (hnone s)
    enters := fun s hs => absurd hs (hnone s)
    tableIds := fun t ht => absurd ht (htables t)
    active := fun s hs => absurd hs (hnone s)
    schemaSlots := fun s hs => absurd hs (hnone s)
    slots := fun o ho => absurd ho (hregistered o)
    permanent := fun t ht => absurd ht (htables t)
    keptSlots := fun c o ho => absurd ho (hkeeps c o)
    apart := fun c o ho => absurd ho (hkeeps c o)
    tempKeyed := fun c key t ht =>
      absurd (.inl (NameMap.mem_values.mpr ⟨key, ht⟩)) (hkeeps c t)
    tempTables := fun c t ht => absurd (.inl ht) (hkeeps c t)
    ids := fun o ho => absurd ho (hslots o)
    distinct := fun o _ ho => absurd ho (hslots o)
    references := fun s hs => absurd hs (hnone s) }

theorem wellFormed_bootstrap (settings : Settings) : (bootstrap settings).WellFormed :=
  (wellFormed_of_empty rfl rfl rfl).withSchema.withSchema

end Start

section Actions

variable {db : Database}

/-- A statement makes its changes or leaves everything as it was. -/
theorem changes_execute (h : db.WellFormed) (c : SessionRef) (statement : Statement) :
    statement.Changes c db (stateAfter (statement.execute c) db) ∨
      stateAfter (statement.execute c) db = db := by
  have hsettles := statement.execute_settles h c
  rw [stateAfter]
  cases hrun : statement.execute c db with
  | ok outcome db' => exact .inl (hsettles.post_of_ok hrun)
  | error e db' => exact .inr (hsettles.unchanged_of_error hrun).2

theorem session_openSession (db : Database) (user : Principal) (c : SessionRef) :
    (db.openSession user).2.session c =
      if c = ⟨db.sessionStore.next⟩ then .create user db.rule else db.session c := by
  obtain ⟨slot⟩ := c
  simp only [Database.session, openSession, Store.get_push, SessionRef.mk.injEq]

theorem shrinks_openSession (db : Database) (user : Principal) :
    Shrinks db (db.openSession user).2 := by
  have hwithin : ∀ c, ((db.openSession user).2.session c).tempTables.Within
      (db.session c).tempTables ∧ ((db.openSession user).2.session c).tempIndexes.Within
        (db.session c).tempIndexes := by
    intro c
    rw [session_openSession]
    split
    · exact ⟨NameMap.within_empty _ _, NameMap.within_empty _ _⟩
    · exact ⟨.refl _, .refl _⟩
  exact .of_sameSchemas (.of_eq rfl rfl) (fun _ => .of_eq rfl) (fun _ _ => rfl)
    (fun c => (hwithin c).1) (fun c => (hwithin c).2) (Nat.le_refl _) rfl

/-- Which sessions are registered has no part in well-formedness. -/
theorem shrinks_withOpenSessions (db : Database) (openSessions : List SessionRef) :
    Shrinks db { db with openSessions } :=
  .of_sameSchemas (.of_eq rfl rfl) (fun _ => .of_eq rfl) (fun _ _ => rfl) (fun _ => .refl _)
    (fun _ => .refl _) (Nat.le_refl _) rfl

private theorem shrinks_removeSession (h : db.WellFormed) (c : SessionRef) :
    ReflTransGen Shrinks db (db.removeSession c).2 := by
  rw [removeSession]
  split
  · have hclosed := shrinks_withOpenSessions db (db.openSessions.erase c)
    exact .head hclosed ((h.shrinks hclosed).close c)
  · exact .refl

/-- Users have no part in well-formedness. -/
private theorem shrinks_withUsers (db : Database) (users : NameMap User) {nextId : Nat}
    (hid : db.nextId ≤ nextId) : Shrinks db { db with users, nextId } :=
  .of_sameSchemas (.of_eq rfl rfl) (fun _ => .of_eq rfl) (fun _ _ => rfl) (fun _ => .refl _)
    (fun _ => .refl _) hid rfl

theorem stateAfter_createUser (db : Database) (name : String) (admin : Bool) :
    ∃ users nextId, db.nextId ≤ nextId ∧
      stateAfter (Database.createUser name admin) db = { db with users, nextId } := by
  rw [stateAfter, Database.createUser, get_bind_run]
  cases db.users.contains name with
  | true => exact ⟨db.users, db.nextId, Nat.le_refl _, rfl⟩
  | false => exact ⟨_, db.nextId + 1, Nat.le_succ _, rfl⟩

theorem stateAfter_dropUser (db : Database) (name : String) :
    ∃ users, stateAfter (Database.dropUser name) db = { db with users } := by
  rw [stateAfter, Database.dropUser, get_bind_run]
  cases db.findUser name with
  | none => exact ⟨db.users, rfl⟩
  | some user =>
    simp only
    cases hlook : checkOwnsNoSchemas user.principal db with
    | error e =>
      have hrefused : (liftM (checkOwnsNoSchemas user.principal) : CatalogM Unit) db =
        .error e db := lift_of_error hlook
      rw [bind_of_error hrefused]
      exact ⟨db.users, rfl⟩
    | ok =>
      rw [bind_of_ok (lift_of_ok hlook)]
      exact ⟨db.users.erase name, rfl⟩

/-- Statements make their changes; all that is not a statement adds no object and no schema. -/
theorem Action.changes_or_shrinks (h : db.WellFormed) (action : Action) :
    (∃ c schemaName, Changes c schemaName db (action.run db)) ∨
      ReflTransGen Shrinks db (action.run db) := by
  cases action with
  | execute c statement =>
    rcases changes_execute h c statement with ⟨schemaName, -, hchanges⟩ | hsame
    · exact .inl ⟨c, schemaName, hchanges⟩
    · rw [Action.run, hsame]
      exact .inr .refl
  | openSession user => exact .inr (.single (shrinks_openSession db user))
  | closeSession c => exact .inr (h.close c)
  | removeSession c => exact .inr (shrinks_removeSession h c)
  | createUser name admin =>
    obtain ⟨users, nextId, hid, hafter⟩ := stateAfter_createUser db name admin
    rw [Action.run, hafter]
    exact .inr (.single (shrinks_withUsers db users hid))
  | dropUser name =>
    obtain ⟨users, hafter⟩ := stateAfter_dropUser db name
    rw [Action.run, hafter]
    exact .inr (.single (shrinks_withUsers db users (Nat.le_refl _)))

/-- Every action keeps the database well-formed while ids do not repeat. -/
theorem Action.wellFormed (h : db.WellFormed) (action : Action)
    (hid : (action.run db).nextId ≤ UInt32.size) : (action.run db).WellFormed := by
  rcases action.changes_or_shrinks h with ⟨c, schemaName, hchanges⟩ | hshrinks
  · exact hchanges.wellFormed h hid
  · exact h.of_reflTransGen hshrinks

theorem Reachable.wellFormed (h : Reachable db) : db.WellFormed := by
  induction h with
  | new settings => exact wellFormed_bootstrap settings
  | act _ action hid ih => exact action.wellFormed ih hid

end Actions

section Example

/-- Make a schema with a table, a view that reads it, and an index on it. -/
def viewActions : List Action :=
  [.openSession ⟨1, "SA"⟩,
    .execute ⟨0⟩ (.createSchema "APP" false),
    .execute ⟨0⟩ (.createTable
      { schema := "APP", tableName := "T", columns := [.plain "A" "INT"], kind := .table,
        scope := .persistent, references := [], ifNotExists := false }),
    .execute ⟨0⟩ (.createTable
      { schema := "APP", tableName := "V", columns := [.plain "A" "INT"], kind := .view,
        scope := .persistent, references := ["T"], ifNotExists := false }),
    .execute ⟨0⟩ (.createIndex
      { schema := "APP", table := "T", indexName := none, columns := ["A"], kind := .nonUnique,
        ifNotExists := false })]

/-- The database with a table, a view of it and an index on it. -/
def withView : Database :=
  viewActions.foldl (fun db action => action.run db) (bootstrap .standard)

theorem reachable_withView : Reachable withView := by
  rw [withView, viewActions]
  simp only [List.foldl_cons, List.foldl_nil]
  refine .act (.act (.act (.act (.act (.new .standard) _ ?_) _ ?_) _ ?_) _ ?_) _ ?_
  all_goals decide +kernel

end Example

section Statements

variable {db db' : Database} {s : SchemaRef} {name : String}

/-- A statement that fails, fails through a fault of the user: never because the catalog lost track
of its own objects, and never on an invalid schema or a cycle of tables. -/
theorem Reachable.ofUser_of_error (h : Reachable db) (c : SessionRef) (statement : Statement)
    {e : ExecutionError} (herror : statement.execute c db = .error e db') : e.OfUser := by
  have hsettles := statement.execute_settles h.wellFormed c
  exact (hsettles.unchanged_of_error herror).1

theorem ofUser_of_error_withView : Reachable withView ∧
    (Statement.dropTable "APP" "T" false).execute ⟨0⟩ withView =
      .error (.catalog (.cannotDrop "T" "V")) withView ∧
    (ExecutionError.catalog (.cannotDrop "T" "V")).OfUser :=
  ⟨reachable_withView, rfl, reachable_withView.ofUser_of_error ⟨0⟩ (.dropTable "APP" "T" false) rfl⟩

/-- A statement that fails leaves everything as it was. -/
theorem Reachable.eq_of_error (h : Reachable db) (c : SessionRef) (statement : Statement)
    {e : ExecutionError} (herror : statement.execute c db = .error e db') : db' = db := by
  have hsettles := statement.execute_settles h.wellFormed c
  exact (hsettles.unchanged_of_error herror).2

theorem eq_of_error_withView : Reachable withView ∧ ∃ db',
    (Statement.dropTable "APP" "T" false).execute ⟨0⟩ withView =
      .error (.catalog (.cannotDrop "T" "V")) db' ∧ db' = withView :=
  ⟨reachable_withView, _, rfl, reachable_withView.eq_of_error ⟨0⟩ (.dropTable "APP" "T" false) rfl⟩

/-- A schema that is not a system schema can always be dropped: everything in it goes and is counted,
and the rest stays. -/
theorem Reachable.dropSchema_affected (h : Reachable db) (c : SessionRef) (ifExists : Bool)
    (hname : db.findSchema name = some s) (hsystem : (db.schema s).system = false) :
    ∃ outcome db', (Statement.dropSchema name ifExists).execute c db = .ok outcome db' ∧
      outcome.affected = (db.schema s).registry.size + 1 ∧ db'.findSchema name = none ∧
      Dropped name s db db' := by
  obtain ⟨outcome, db', hrun, haffected, hdropped⟩ :=
    Execution.dropSchema_run h.wellFormed c ifExists hname hsystem
  refine ⟨outcome, db', hrun, haffected, ?_, hdropped⟩
  rw [findSchema, hdropped.schemas, NameMap.get?_erase, if_pos rfl]

theorem dropSchema_affected_withView : Reachable withView ∧
    withView.findSchema "APP" = some ⟨2⟩ ∧ (withView.schema ⟨2⟩).registry.size = 3 ∧
    ∃ outcome db', (Statement.dropSchema "APP" false).execute ⟨0⟩ withView = .ok outcome db' ∧
      outcome.affected = (withView.schema ⟨2⟩).registry.size + 1 ∧ db'.findSchema "APP" = none ∧
      Dropped "APP" ⟨2⟩ withView db' :=
  ⟨reachable_withView, by decide +kernel, by decide +kernel,
    reachable_withView.dropSchema_affected ⟨0⟩ false (by decide +kernel) (by decide +kernel)⟩

end Statements

end SchemaCatalog
