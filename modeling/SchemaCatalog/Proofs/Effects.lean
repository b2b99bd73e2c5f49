import Mathlib.Order.Defs.Unbundled
import SchemaCatalog.Proofs.Reachable
import SchemaCatalog.Proofs.SchemaCalls
/-!
# What is left behind

What an action does to the state, whether it ends or fails. A relation that the steps of an action
keep to is kept to by the whole action, as long as it is reflexive and transitive. The statements
that make something take the same few steps as each other, and so do those that drop something, so
each of the two groups is gone through once, for every relation that allows its steps.
-/
namespace SchemaCatalog

open Database

section StateAfter

variable {ε σ α β : Type}

theorem stateAfter_of_ok {act : EStateM ε σ α} {s s' : σ} {a : α} (h : act s = .ok a s') :
    stateAfter act s = s' := by
  rw [stateAfter, h]

theorem stateAfter_of_error {act : EStateM ε σ α} {s s' : σ} {e : ε} (h : act s = .error e s') :
    stateAfter act s = s' := by
  rw [stateAfter, h]

/-- What an action promises holds of the state it leaves, if it holds where nothing is done. -/
theorem Settles.stateAfter [Fault ε] {act : EStateM ε σ α} {s : σ} {post : σ → Prop}
    (h : Settles act s fun _ s' => post s') (hs : post s) : post (stateAfter act s) := by
  rw [SchemaCatalog.stateAfter]
  cases hact : act s with
  | ok a s' => exact h.post_of_ok hact
  | error e s' =>
    obtain ⟨-, rfl⟩ := h.unchanged_of_error hact
    exact hs

/-- An action that settles promises whatever its success shows. -/
theorem Settles.of_eq_ok [Fault ε] {act : EStateM ε σ α} {s : σ} {post mid : α → σ → Prop}
    (h : Settles act s mid) (hok : ∀ a s', act s = .ok a s' → post a s') : Settles act s post := by
  cases hact : act s with
  | ok a s' =>
    rw [Settles, hact]
    exact hok a s' hact
  | error e s' =>
    rw [Settles, hact]
    exact h.unchanged_of_error hact

theorem stateAfter_bind (act : EStateM ε σ α) (next : α → EStateM ε σ β) (s : σ) :
    stateAfter (act >>= next) s = match act s with
      | .ok a s' => stateAfter (next a) s'
      | .error _ s' => s' := by
  rw [stateAfter, bind_run]
  cases act s <;> rfl

theorem stateAfter_bind_of_ok {act : EStateM ε σ α} {next : α → EStateM ε σ β} {s s' : σ} {a : α}
    (h : act s = .ok a s') : stateAfter (act >>= next) s = stateAfter (next a) s' := by
  rw [stateAfter_bind, h]

theorem stateAfter_get_bind (next : σ → EStateM ε σ α) (s : σ) :
    stateAfter ((get : EStateM ε σ σ) >>= next) s = stateAfter (next s) s := rfl

/-- What follows a step that leaves everything as it was runs from the same state, if at all, and
knows what the step has found there. -/
theorem stateAfter_bind_of_found {act : EStateM ε σ α} {next : α → EStateM ε σ β} {s : σ}
    (post : σ → Prop) (hact : stateAfter act s = s) (hs : post s)
    (hnext : ∀ a, act s = .ok a s → post (stateAfter (next a) s)) :
    post (stateAfter (act >>= next) s) := by
  rw [stateAfter] at hact
  rw [stateAfter_bind]
  cases hrun : act s with
  | ok a s' =>
    rw [hrun] at hact
    obtain rfl : s' = s := hact
    exact hnext a hrun
  | error e s' =>
    rw [hrun] at hact
    obtain rfl : s' = s := hact
    exact hs

theorem stateAfter_bind_of_eq {act : EStateM ε σ α} {next : α → EStateM ε σ β} {s : σ}
    (post : σ → Prop) (hact : stateAfter act s = s) (hs : post s)
    (hnext : ∀ a, post (stateAfter (next a) s)) : post (stateAfter (act >>= next) s) :=
  stateAfter_bind_of_found post hact hs fun a _ => hnext a

/-- What only looks at the end leaves what was there. -/
theorem stateAfter_bind_unchanged {act : EStateM ε σ α} {next : α → EStateM ε σ β} {s : σ}
    (h : ∀ a s', stateAfter (next a) s' = s') : stateAfter (act >>= next) s = stateAfter act s := by
  rw [stateAfter_bind, stateAfter]
  cases act s with
  | ok a s' => exact h a s'
  | error e s' => rfl

theorem stateAfter_bind_pure (act : EStateM ε σ α) (b : β) (s : σ) :
    stateAfter (act >>= fun _ => pure b) s = stateAfter act s :=
  stateAfter_bind_unchanged fun _ _ => rfl

private theorem stateAfter_lift (look : Lookup α) (db : Database) :
    stateAfter (liftM look : CatalogM α) db = db := by
  rw [stateAfter, lift_run]
  cases look db <;> rfl

theorem stateAfter_statement (act : CatalogM α) (db : Database) :
    stateAfter (liftM act : ExecM α) db = stateAfter act db := by
  rw [stateAfter, statement_run, stateAfter]
  cases act db <;> rfl

private theorem stateAfter_statementLook (look : Lookup α) (db : Database) :
    stateAfter (liftM look : ExecM α) db = db :=
  (stateAfter_statement _ db).trans (stateAfter_lift look db)

/-- First a look, then what is done with what it finds. -/
theorem stateAfter_look_bind {look : Lookup α} {next : α → CatalogM β} {db : Database}
    (post : Database → Prop) (hdb : post db)
    (hnext : ∀ a, look db = .ok a → post (stateAfter (next a) db)) :
    post (stateAfter ((liftM look : CatalogM α) >>= next) db) :=
  stateAfter_bind_of_found post (stateAfter_lift look db) hdb fun a h =>
    hnext a (lift_eq_ok_iff.mp h).1

theorem stateAfter_statementLook_bind {look : Lookup α} {next : α → ExecM β} {db : Database}
    (post : Database → Prop) (hdb : post db)
    (hnext : ∀ a, look db = .ok a → post (stateAfter (next a) db)) :
    post (stateAfter ((liftM look : ExecM α) >>= next) db) :=
  stateAfter_bind_of_found post (stateAfter_statementLook look db) hdb fun a h =>
    hnext a (statement_look_eq_ok_iff.mp h).1

end StateAfter

section Leaves

variable {ε σ α β : Type} {R : σ → σ → Prop}

/-- From every state the action leaves one behind that is related to it, whether it fails or not. -/
def Leaves (R : σ → σ → Prop) (act : EStateM ε σ α) : Prop :=
  ∀ s, R s (stateAfter act s)

namespace Leaves

variable {act : EStateM ε σ α} {next : α → EStateM ε σ β}

/-- From this one state the first part leaves a related one behind, and what follows does so always. -/
theorem bind_from [IsTrans σ R] {s : σ} (hfirst : R s (stateAfter act s))
    (hnext : ∀ a, Leaves R (next a)) : R s (stateAfter (act >>= next) s) := by
  rw [stateAfter_bind]
  rw [stateAfter] at hfirst
  cases hact : act s with
  | ok a s' =>
    rw [hact] at hfirst
    exact trans_of R hfirst (hnext a s')
  | error e s' =>
    rw [hact] at hfirst
    exact hfirst

theorem bind [IsTrans σ R] (h : Leaves R act) (hnext : ∀ a, Leaves R (next a)) :
    Leaves R (act >>= next) :=
  fun s => bind_from (h s) hnext

theorem get_bind {next : σ → EStateM ε σ β} (h : ∀ s, R s (stateAfter (next s) s)) :
    Leaves R (get >>= next) := h

theorem modifyGet {f : σ → α × σ} (h : ∀ s, R s (f s).2) :
    Leaves R (modifyGet f : EStateM ε σ α) := by
  intro s
  rw [stateAfter_of_ok (modifyGet_run (f := f) rfl)]
  exact h s

theorem modify {f : σ → σ} (h : ∀ s, R s (f s)) : Leaves R (modify f : EStateM ε σ PUnit) :=
  h

section Unchanged

variable [Std.Refl R]

theorem of_eq (h : ∀ s, stateAfter act s = s) : Leaves R act := by
  intro s
  rw [h]
  exact refl_of R s

theorem pure (a : α) : Leaves R (Pure.pure a : EStateM ε σ α) := refl_of R

theorem throw (e : ε) : Leaves R (MonadExcept.throw e : EStateM ε σ α) := refl_of R

end Unchanged

/-- An action on every member of a list. -/
theorem forM [IsPreorder σ R] {act : α → EStateM ε σ PUnit} (h : ∀ a, Leaves R (act a))
    (l : List α) : Leaves R (l.forM act) := by
  induction l with
  | nil => exact .pure _
  | cons a l ih => exact (h a).bind fun _ => ih

theorem mapM [IsPreorder σ R] {act : α → EStateM ε σ β} (h : ∀ a, Leaves R (act a))
    (l : List α) : Leaves R (l.mapM act) := by
  induction l with
  | nil => exact .pure _
  | cons a l ih =>
    rw [List.mapM_cons]
    exact (h a).bind fun b => ih.bind fun bs => .pure _

end Leaves

end Leaves

section Database

variable {α β : Type} {R : Database → Database → Prop}

namespace Leaves

/-- Looking leaves everything as it was. -/
theorem look [Std.Refl R] (look : Lookup α) : Leaves R (liftM look : CatalogM α) :=
  .of_eq (stateAfter_lift look)

theorem lift {act : CatalogM α} (h : Leaves R act) : Leaves R (liftM act : ExecM α) := by
  intro db
  rw [stateAfter_statement]
  exact h db

theorem statementLook [Std.Refl R] (look : Lookup α) : Leaves R (liftM look : ExecM α) :=
  (Leaves.look look).lift

end Leaves

end Database

section Looking

variable {R : Database → Database → Prop} [IsPreorder Database R]

namespace Execution

omit [IsPreorder Database R] in
theorem stateAfter_validateName (what name : String) (db : Database) :
    stateAfter (validateName what name) db = db := by
  rw [validateName]
  split <;> rfl

private theorem validateName_leaves (what name : String) : Leaves R (validateName what name) :=
  .of_eq (stateAfter_validateName what name)

theorem schemaForCreate_leaves (schemaName : String) (kind : ObjectKind) (name : String)
    (ifNotExists : Bool) : Leaves R (schemaForCreate schemaName kind name ifNotExists) := by
  refine (validateName_leaves _ name).bind fun _ => ?_
  refine (Leaves.statementLook _).bind fun s => (Leaves.statementLook _).bind fun o? => ?_
  split
  · exact .pure _
  · split
    · exact .pure _
    · exact .throw _

theorem referenceIds_leaves (c : SessionRef) (s : SchemaRef) (names : List String) :
    Leaves R (referenceIds c s names) :=
  .mapM (fun _ => (Leaves.statementLook _).bind fun _ => .get_bind (refl_of R)) names

end Execution

end Looking

section Host

variable {α η : Type} {R : Database → Database → Prop}

/-- Two states of a host with related databases. -/
def OnDatabase (R : Database → Database → Prop) (state state' : Database × η) : Prop :=
  R state.1 state'.1

instance [IsPreorder Database R] : IsPreorder (Database × η) (OnDatabase R) where
  refl state := refl_of R state.1
  trans _ _ _ := trans_of R

namespace Leaves

theorem hostLift {act : CatalogM α} (h : Leaves R act) :
    Leaves (OnDatabase R) (liftM act : HostM η α) := by
  rintro ⟨db, own⟩
  have hact := h db
  rw [stateAfter] at hact
  rw [stateAfter, host_run]
  cases hrun : act db <;> rw [hrun] at hact <;> exact hact

theorem onDatabase {act : HostM Unit α} (h : Leaves (OnDatabase R) act) :
    Leaves R act.onDatabase := by
  intro db
  have hact := h (db, ())
  rw [stateAfter] at hact
  rw [stateAfter, HostM.onDatabase]
  cases hrun : act (db, ()) <;> rw [hrun] at hact <;> exact hact

variable [IsPreorder Database R]

private theorem hostLook (look : Lookup α) : Leaves (OnDatabase R) (liftM look : HostM η α) :=
  hostLift (Leaves.look look)

private theorem hostAsk (question : Database × η → α × η) :
    Leaves (OnDatabase R) (CatalogHost.ask question) :=
  fun state => refl_of R state.1

private theorem edgesBetween (host : CatalogHost η) (tables : List ObjectRef)
    (numbered : List (ObjectRef × Nat)) :
    Leaves (OnDatabase R) (edgesBetween host tables numbered) := by
  induction numbered with
  | nil => exact .pure _
  | cons entry numbered ih =>
    obtain ⟨t, i⟩ := entry
    refine (hostAsk _).bind fun depends => ?_
    split
    · refine (hostAsk _).bind fun dependents => .get_bind fun state => ?_
      split
      · exact refl_of (OnDatabase R) state
      · exact (ih.bind fun edges => .pure _) state
    · exact ih

theorem tableRemovalOrder (host : CatalogHost η) (s : SchemaRef) :
    Leaves (OnDatabase R) (tableRemovalOrder host s) := by
  refine (hostLook _).bind fun tables => (edgesBetween host tables _).bind fun edges => ?_
  dsimp only
  split
  · exact .pure _
  · exact .get_bind (refl_of (OnDatabase R))

end Leaves

end Host

section One

open Execution

theorem stateAfter_createSchema (name : String) (owner : Principal) (db : Database) :
    stateAfter (Database.createSchema name owner) db = db ∨
      stateAfter (Database.createSchema name owner) db = withSchema name (some owner) false db := by
  rw [stateAfter, Database.createSchema, get_bind_run]
  cases db.schemas.contains name with
  | true => exact .inl rfl
  | false => exact .inr rfl

/-- `CREATE SCHEMA` makes the schema for the user of the session or does nothing. -/
theorem stateAfter_createSchemaStatement (c : SessionRef) (name : String) (ifNotExists : Bool)
    (db : Database) : stateAfter (Execution.createSchema c name ifNotExists) db = db ∨
      stateAfter (Execution.createSchema c name ifNotExists) db =
        withSchema name (some (db.session c).user) false db := by
  let post : Database → Prop := fun db' =>
    db' = db ∨ db' = withSchema name (some (db.session c).user) false db
  refine stateAfter_bind_of_eq post (stateAfter_validateName _ name db) (.inl rfl) fun _ => ?_
  rw [stateAfter_get_bind]
  dsimp only
  split
  · exact .inl rfl
  · rw [stateAfter_get_bind, stateAfter_bind_pure, stateAfter_statement]
    exact stateAfter_createSchema name _ db

/-- `ALTER ... RENAME TO` renames a registered object to a free name or does nothing. -/
theorem stateAfter_rename (schemaName : String) (kind : ObjectKind) (oldName newName : String)
    (db : Database) : stateAfter (Execution.rename schemaName kind oldName newName) db = db ∨
      ∃ s o, (db.space s (db.object o).kind).get? (db.nameOf o) = some o ∧
        (db.space s (db.object o).kind).get? newName = none ∧
        stateAfter (Execution.rename schemaName kind oldName newName) db =
          renamed s o newName db := by
  let post : Database → Prop := fun db' => db' = db ∨
    ∃ s o, (db.space s (db.object o).kind).get? (db.nameOf o) = some o ∧
      (db.space s (db.object o).kind).get? newName = none ∧ db' = renamed s o newName db
  have hrename : ∀ s o, post (stateAfter (SchemaRef.rename s o newName) db) := by
    intro s o
    cases hrun : s.rename o newName db with
    | ok _ db' =>
      obtain ⟨-, hlive, hfree, -, rfl⟩ := rename_eq_ok_iff.mp hrun
      rw [stateAfter_of_ok hrun]
      exact .inr ⟨s, o, hlive, hfree, rfl⟩
    | error e db' =>
      rw [rename_eq_guarded] at hrun
      obtain rfl := eq_of_guarded_eq_error hrun
      rw [rename_eq_guarded, stateAfter_of_error hrun]
      exact .inl rfl
  refine stateAfter_bind_of_eq post (stateAfter_validateName _ newName db) (.inl rfl) fun _ => ?_
  refine stateAfter_bind_of_eq post (stateAfter_statementLook _ db) (.inl rfl) fun s => ?_
  refine stateAfter_bind_of_eq post (stateAfter_statementLook _ db) (.inl rfl) fun o => ?_
  rw [stateAfter_bind_pure, stateAfter_statement]
  refine stateAfter_bind_of_eq post (stateAfter_lift _ db) (.inl rfl) fun s => ?_
  rw [stateAfter_get_bind]
  refine stateAfter_bind_of_eq post (stateAfter_lift _ db) (.inl rfl) fun o? => ?_
  split
  · exact .inl rfl
  · exact hrename s o

end One

section Names

open Execution

variable {α : Type} {c : SessionRef} {s : SchemaRef} {t : ObjectRef} {stem : String}

/-- A name is handed out for an index, the action runs with it, and the name is given back. -/
theorem stateAfter_withIndexName (act : String → ExecM α) (db : Database) :
    stateAfter (withIndexName c s t stem act) db = db ∨ ∃ live r mid, Granted s live r db mid ∧
      stateAfter (withIndexName c s t stem act) db = s.release r (stateAfter (act r.name) mid) := by
  rw [withIndexName]
  cases hname : s.uniqueIndexName (some c) t stem db with
  | ok r mid =>
    obtain ⟨-, live, -, hreserve⟩ := SchemaCall.reserve_of_uniqueIndexName hname
    refine .inr ⟨live, r, mid, granted_of_reserve hreserve, ?_⟩
    rw [stateAfter_bind_of_ok (statement_of_ok hname)]
    simp only [stateAfter, releasing]
    cases act r.name mid <;> rfl
  | error e db' =>
    obtain rfl := SchemaCall.eq_of_uniqueIndexName_eq_error hname
    exact .inl (stateAfter_of_error (bind_of_error (statement_of_error hname)))

/-- Only a name that was handed out makes a success. -/
theorem withIndexName_eq_ok {act : String → ExecM α} {db db' : Database} {a : α}
    (h : withIndexName c s t stem act db = .ok a db') : ∃ live r mid last,
      Granted s live r db mid ∧ act r.name mid = .ok a last ∧ db' = s.release r last := by
  obtain ⟨r, mid, hname, h⟩ := bind_eq_ok_iff.mp h
  obtain ⟨-, live, -, hreserve⟩ :=
    SchemaCall.reserve_of_uniqueIndexName (statement_eq_ok_iff.mp hname)
  rw [releasing] at h
  split at h
  next a last hact =>
    cases h
    exact ⟨live, r, mid, last, granted_of_reserve hreserve, hact, rfl⟩
  next => cases h

end Names

section Creation

/-- A relation that allows the steps by which objects with such bodies are made and registered. -/
structure AllowsCreation (P : ObjectBody → Prop) (R : Database → Database → Prop) : Prop where
  withObject : ∀ s name body db, P body → R db (Database.withObject s name body db)
  entered : ∀ s o db, (db.space s (db.object o).kind).get? (db.nameOf o) = none →
    R db (Database.entered s o db)
  modifySession : ∀ c change db, R db (db.modifySession c change)

variable {P : ObjectBody → Prop} {R : Database → Database → Prop} [IsPreorder Database R]
  {c : SessionRef} {s : SchemaRef} {t o : ObjectRef} {name : String} {body : ObjectBody}

namespace AllowsCreation

open Execution

variable (hR : AllowsCreation P R)

include hR

omit [IsPreorder Database R] in
private theorem newObject (hbody : P body) : Leaves R (newObject s name body) :=
  fun db => hR.withObject s name body db hbody

private theorem add (s : SchemaRef) (o : ObjectRef) : Leaves R (s.add o) := by
  intro db
  cases hrun : s.add o db with
  | ok _ db' =>
    obtain ⟨-, -, hfree, rfl⟩ := add_eq_ok_iff.mp hrun
    rw [stateAfter_of_ok hrun]
    exact hR.entered s o db hfree
  | error e db' =>
    rw [add_eq_guarded] at hrun
    obtain rfl := eq_of_guarded_eq_error hrun
    rw [add_eq_guarded, stateAfter_of_error hrun]
    exact refl_of R db'

theorem addObject (o : ObjectRef) : Leaves R (addObject o) :=
  (Leaves.look _).bind fun s => hR.add s o

private theorem addTempTable (c : SessionRef) (t : ObjectRef) : Leaves R (c.addTempTable t) := by
  refine .get_bind fun db => ?_
  dsimp only
  split
  · exact refl_of R db
  · exact hR.modifySession c _ db

theorem addTempIndex (c : SessionRef) (i : ObjectRef) : Leaves R (c.addTempIndex i) := by
  refine .get_bind fun db => ?_
  dsimp only
  split
  · exact refl_of R db
  · exact hR.modifySession c _ db

private theorem registerTable (c : SessionRef) (scope : TableScope) (t : ObjectRef) :
    Leaves R (registerTable c scope t) := by
  cases scope with
  | localTemporary => exact (hR.addTempTable c t).lift
  | persistent => exact (hR.addObject t).lift
  | globalTemporary => exact (hR.addObject t).lift

theorem createObject (schemaName : String) (kind : ObjectKind) (name : String) (hbody : P body)
    (message : String) : Leaves R (createObject schemaName kind name body message) := by
  refine (schemaForCreate_leaves schemaName kind name false).bind fun s? => ?_
  cases s? with
  | none => exact .pure _
  | some s => exact (hR.newObject hbody).bind fun o => (hR.addObject o).lift.bind fun _ => .pure _

theorem createSequence (schemaName name : String) (start increment : Int64)
    (hbody : P (.sequence { increment, next := start })) :
    Leaves R (createSequence schemaName name start increment) := by
  rw [Execution.createSequence]
  split
  · exact .throw _
  · exact hR.createObject schemaName .sequence name hbody _

theorem createFunctionAlias (schemaName name target : String) (deterministic : Bool)
    (hbody : P (.functionAlias { target, deterministic })) :
    Leaves R (createFunctionAlias schemaName name target deterministic) :=
  (validateName_leaves _ target).bind fun _ =>
    hR.createObject schemaName .functionAlias name hbody _

theorem createTable (c : SessionRef) (definition : TableDefinition)
    (hbody : ∀ table : Table, P (.table table)) : Leaves R (createTable c definition) := by
  refine (schemaForCreate_leaves _ _ _ _).bind fun s? => ?_
  cases s? with
  | none => exact .pure _
  | some s =>
    refine .get_bind fun db => ?_
    split
    · exact refl_of R db
    · refine ((referenceIds_leaves c s _).bind fun references => ?_) db
      exact (hR.newObject (hbody _)).bind fun t => (hR.registerTable c _ t).bind fun _ => .pure _

/-- An index that lists columns is made on some table. -/
theorem addTableIndex (c : SessionRef) (s : SchemaRef) (t : ObjectRef) (name : String)
    {columns : List String} {kind : IndexKind}
    (hbody : ∀ tableId tableName, P (.index ⟨tableId, tableName, columns, kind⟩)) :
    Leaves R (addTableIndex c s t name columns kind) := by
  refine .get_bind fun db => ?_
  refine (hR.newObject (hbody _ _)).bind (fun i => ?_) db
  split
  · exact (hR.addTempIndex c i).lift
  · exact (hR.addObject i).lift

theorem createNamedIndex (c : SessionRef) (s : SchemaRef) (t : ObjectRef)
    (definition : IndexDefinition)
    (hbody : ∀ tableId tableName,
      P (.index ⟨tableId, tableName, definition.columns, definition.kind⟩)) (name : String) :
    Leaves R (createNamedIndex c s t definition name) :=
  (hR.addTableIndex c s t name hbody).bind fun _ => .pure _

/-- How names are handed out for indexes is up to the relation. -/
theorem createIndex (c : SessionRef) (definition : IndexDefinition)
    (hbody : ∀ tableId tableName,
      P (.index ⟨tableId, tableName, definition.columns, definition.kind⟩))
    (hnamed : ∀ s t, Leaves R (withIndexName c s t definition.kind.nameStem
      (Execution.createNamedIndex c s t definition))) : Leaves R (createIndex c definition) := by
  refine (Leaves.statementLook _).bind fun s => (Leaves.statementLook _).bind fun t => ?_
  split
  · refine (validateName_leaves _ _).bind fun _ => (Leaves.statementLook _).bind fun i? => ?_
    split
    · exact hR.createNamedIndex c s t definition hbody _
    · split
      · exact .pure _
      · exact .throw _
  · exact hnamed s t

end AllowsCreation

end Creation

/-- The kind of the index that backs a key. -/
def ConstraintKind.indexKind? : ConstraintKind → Option IndexKind
  | primaryKey => some .primaryKey
  | unique => some .unique
  | referential _ _ => some .nonUnique
  | check _ => none

section Keys

open Execution

variable {R : Database → Database → Prop} [IsPreorder Database R] {c : SessionRef} {s : SchemaRef}
  {t : ObjectRef} {definition : ConstraintDefinition}

namespace Leaves

theorem rejectView (t : ObjectRef) : Leaves R (rejectView t) := by
  refine .get_bind fun db => ?_
  dsimp only
  split <;> exact refl_of R db

theorem requireColumns (t : ObjectRef) (columns : List String) :
    Leaves R (requireColumns t columns) := by
  rw [Execution.requireColumns]
  split
  · exact .throw _
  · refine .get_bind fun db => ?_
    split <;> exact refl_of R db

private theorem addPrimaryKey (hkey : Leaves R (addKeyIndex c s t definition .primaryKey)) :
    Leaves R (addPrimaryKey c s t definition) := by
  refine (requireColumns t _).bind fun _ => (statementLook _).bind fun indexes => ?_
  refine .get_bind fun db => ?_
  dsimp only
  split
  · exact refl_of R db
  · exact hkey db

private theorem addForeignKey {refTable : String} {refColumns : List String}
    (hkey : Leaves R (addKeyIndex c s t definition .nonUnique)) :
    Leaves R (addForeignKey c s t definition refTable refColumns) := by
  refine (requireColumns t _).bind fun _ => (statementLook _).bind fun referenced => ?_
  refine .get_bind fun db => ?_
  dsimp only
  split
  · exact refl_of R db
  · refine ((requireColumns referenced _).bind fun _ => (statementLook _).bind fun indexes => ?_) db
    refine .get_bind fun db => ?_
    split
    · exact refl_of R db
    · exact hkey db

/-- Checks are added and keys get their indexes, as far as the relation allows that. -/
theorem addConstraint (c : SessionRef) (definition : ConstraintDefinition)
    (hcheck : ∀ t expression, definition.kind = .check expression →
      Leaves R (addCheck t expression))
    (hkey : ∀ s t kind, definition.kind.indexKind? = some kind →
      Leaves R (addKeyIndex c s t definition kind)) :
    Leaves R (addConstraint c definition) := by
  refine (statementLook _).bind fun s => (statementLook _).bind fun t => (rejectView t).bind
    fun _ => ?_
  split
  next hkind => exact hcheck t _ hkind
  next hkind => exact addPrimaryKey (hkey s t _ (by rw [hkind]; rfl))
  next hkind =>
    exact (requireColumns t _).bind fun _ => hkey s t _ (by rw [hkind]; rfl)
  next hkind => exact addForeignKey (hkey s t _ (by rw [hkind]; rfl))

end Leaves

end Keys

section Alteration

open Execution

variable {R : Database → Database → Prop} [IsPreorder Database R]
  (hset : ∀ t table db, R db (ObjectRef.setTable t table db))

namespace Leaves

omit hset in
theorem primaryKeyColumns (c : SessionRef) (t : ObjectRef) :
    Leaves R (primaryKeyColumns c t) :=
  (statementLook _).bind fun _ => .get_bind (refl_of R)

include hset

private theorem addColumnTo (t : ObjectRef) (column : Column) : Leaves R (t.addColumn column) := by
  refine .get_bind fun db => ?_
  split
  · exact hset t _ db
  · exact refl_of R db

private theorem dropColumnFrom (t : ObjectRef) (name : String) : Leaves R (t.dropColumn name) := by
  refine .get_bind fun db => ?_
  split
  · exact hset t _ db
  · exact refl_of R db

private theorem updateColumn (t : ObjectRef) (name : String) (change : Column → Column) :
    Leaves R (t.updateColumn name change) := by
  refine .get_bind fun db => ?_
  split
  · exact hset t _ db
  · exact refl_of R db

private theorem alterColumnBy (t : ObjectRef) (name : String) (change : Column → Column) :
    Leaves R (alterColumnBy t name change) :=
  (updateColumn hset t name change).lift.bind fun _ => .pure _

private theorem dropColumn (c : SessionRef) (t : ObjectRef) (name : String) :
    Leaves R (dropColumn c t name) := by
  refine .get_bind fun db => ?_
  dsimp only
  split
  · exact refl_of R db
  · split
    · exact refl_of R db
    · refine ((statementLook _).bind fun indexes => ?_) db
      split
      · exact .throw _
      · exact (dropColumnFrom hset t name).lift.bind fun _ => .pure _

private theorem setColumnNullable (c : SessionRef) (t : ObjectRef) (name : String)
    (nullable : Bool) :
    Leaves R (setColumnNullable c t name nullable) := by
  rw [Execution.setColumnNullable]
  split
  · refine (primaryKeyColumns c t).bind fun columns => ?_
    split
    · exact .throw _
    · exact alterColumnBy hset t name _
  · exact alterColumnBy hset t name _

theorem alterColumn (c : SessionRef) (change : ColumnChange) : Leaves R (alterColumn c change) := by
  refine (statementLook _).bind fun s => (statementLook _).bind fun t => (rejectView t).bind
    fun _ => ?_
  split
  · exact (validateName_leaves _ _).bind fun _ => (addColumnTo hset t _).lift.bind fun _ => .pure _
  · exact dropColumn hset c t _
  · rw [changeColumnType]
    split
    · exact .throw _
    · exact alterColumnBy hset t _ _
  · exact setColumnNullable hset c t _ _
  · exact alterColumnBy hset t _ _

theorem forbidNull (t : ObjectRef) (columns : List String) : Leaves R (forbidNull t columns) :=
  .forM (fun name => (updateColumn hset t name _).lift) columns

theorem addCheck (t : ObjectRef) (expression : String) : Leaves R (addCheck t expression) := by
  rw [Execution.addCheck]
  split
  · exact .throw _
  · exact (Leaves.modify fun db => hset t _ db).bind fun _ => .get_bind (refl_of R)

end Leaves

end Alteration

section Removal

/-- A relation that allows the steps by which objects are dropped. -/
structure AllowsDeparture (R : Database → Database → Prop) : Prop where
  struckOut : ∀ s o db, (db.space s (db.object o).kind).get? (db.nameOf o) = some o →
    R db (Database.struckOut s o db)
  invalidate : ∀ o db, R db (db.modifyObject o Object.invalidate)
  modifySession : ∀ c change db, R db (db.modifySession c change)

/-- A relation that allows the steps by which objects and schemas are dropped. -/
structure AllowsRemoval (R : Database → Database → Prop) : Prop extends AllowsDeparture R where
  schemaInvalidated : ∀ s db, R db (db.modifySchema s Schema.invalidate)
  schemaErased : ∀ name db, R db { db with schemas := db.schemas.erase name }

variable {R : Database → Database → Prop} [IsPreorder Database R]

namespace AllowsDeparture

variable (hR : AllowsDeparture R)

include hR

theorem remove (s : SchemaRef) (o : ObjectRef) : Leaves R (s.remove o) := by
  intro db
  cases hrun : s.remove o db with
  | ok _ db' =>
    obtain ⟨-, hlive, rfl⟩ := remove_eq_ok_iff.mp hrun
    rw [stateAfter_of_ok hrun]
    exact hR.struckOut s o db hlive
  | error e db' =>
    rw [remove_eq_guarded] at hrun
    obtain rfl := eq_of_guarded_eq_error hrun
    rw [remove_eq_guarded, stateAfter_of_error hrun]
    exact refl_of R db'

private theorem detach (s : SchemaRef) (o : ObjectRef) : Leaves R (s.detach o) :=
  (hR.remove s o).bind fun _ => .modify (hR.invalidate o)

theorem dropTempIndex (c : SessionRef) (name : String) (db : Database) :
    R db (c.dropTempIndex name db).2 := by
  rw [SessionRef.dropTempIndex]
  split
  · exact refl_of R db
  · exact trans_of R (hR.modifySession c _ db) (hR.invalidate _ _)

private theorem dropTempIndexes (c : SessionRef) (names : List String) (db : Database) :
    R db (names.foldl (fun db name => (c.dropTempIndex name db).2) db) := by
  induction names generalizing db with
  | nil => exact refl_of R db
  | cons name names ih => exact trans_of R (hR.dropTempIndex c name db) (ih _)

theorem dropTempTable (c : SessionRef) (name : String) (db : Database) :
    R db (c.dropTempTable name db).2 := by
  rw [SessionRef.dropTempTable]
  split
  · exact refl_of R db
  · exact trans_of R (hR.modifySession c _ db)
      (trans_of R (hR.dropTempIndexes c _ _) (hR.invalidate _ _))

theorem close (c : SessionRef) (db : Database) : R db (c.close db) := by
  have htables : ∀ (names : List String) (db : Database),
      R db (names.foldl (fun db name => (c.dropTempTable name db).2) db) := by
    intro names
    induction names with
    | nil => exact refl_of R
    | cons name names ih => exact fun db => trans_of R (hR.dropTempTable c name db) (ih _)
  rw [SessionRef.close]
  split
  · exact trans_of R (hR.modifySession c _ db) (htables _ _)
  · exact refl_of R db

private theorem removeTempTable (session : Option SessionRef) (t : ObjectRef) :
    Leaves R (removeTempTable session t) := by
  refine (Leaves.look _).bind fun c => .get_bind fun db => ?_
  refine (Leaves.modifyGet (hR.dropTempTable c _)).bind (fun t? => ?_) db
  cases t? with
  | none => exact .throw _
  | some _ => exact .pure _

private theorem detachObject (o : ObjectRef) : Leaves R (detachObject o) :=
  (Leaves.look _).bind fun s => hR.detach s o

private theorem removeTable (session : Option SessionRef) (t : ObjectRef) :
    Leaves R (removeTable session t) := by
  refine .get_bind fun db => ?_
  split
  · exact refl_of R db
  · split
    · exact hR.removeTempTable session t db
    · refine ((Leaves.look _).bind fun s => (Leaves.look _).bind fun indexes => ?_) db
      exact (Leaves.forM (hR.detach s) indexes).bind fun _ => hR.detachObject t

theorem removeObject (session : Option SessionRef) (o : ObjectRef) :
    Leaves R (removeObject session o) := by
  refine .get_bind fun db => ?_
  split
  · exact hR.removeTable session o db
  · exact hR.detachObject o db

end AllowsDeparture

section Teardown

namespace Leaves

variable {η : Type} {host : CatalogHost η}
  (hhost : ∀ session o, Leaves (OnDatabase R) (host.removeObject session o))

include hhost

theorem removeThroughHost (session : Option SessionRef) (s : SchemaRef) (o : ObjectRef) :
    Leaves (OnDatabase R) (removeThroughHost host session s o) := by
  refine (hhost session o).bind fun _ => (hostLook _).bind fun present => ?_
  split
  · exact .get_bind (refl_of (OnDatabase R))
  · exact .pure _

theorem removeTables (session : Option SessionRef) (s : SchemaRef) (tables : List ObjectRef) :
    Leaves (OnDatabase R) (removeTables host session s tables) := by
  refine .forM (fun t => (hostLook _).bind fun present => ?_) tables
  split
  · exact removeThroughHost hhost session s t
  · exact .pure _

private theorem drain (session : Option SessionRef) (s : SchemaRef) (kind : ObjectKind)
    (limit : Nat) :
    Leaves (OnDatabase R) (drain host session s kind limit) := by
  induction limit with
  | zero => exact .pure _
  | succ limit ih =>
    refine (hostLook _).bind fun o? => ?_
    cases o? with
    | none => exact .pure _
    | some o => exact (removeThroughHost hhost session s o).bind fun _ => ih

theorem removeKind (session : Option SessionRef) (s : SchemaRef) (kind : ObjectKind) :
    Leaves (OnDatabase R) (removeKind host session s kind) :=
  .get_bind fun state => drain hhost session s kind _ state

theorem removeChildren (session : Option SessionRef) (s : SchemaRef)
    (hinvalidated : ∀ db, (db.schema s).registry.isEmpty = true →
      R db (db.modifySchema s Schema.invalidate)) :
    Leaves (OnDatabase R) (removeChildren host session s) := by
  refine (tableRemovalOrder _ s).bind fun order => ?_
  refine (removeTables hhost session s order).bind fun _ => ?_
  refine (Leaves.forM (removeKind hhost session s) trailingKinds).bind fun _ => ?_
  refine .get_bind fun state => ?_
  dsimp only
  split
  next hempty => exact hinvalidated state.1 hempty
  next => exact refl_of (OnDatabase R) state

end Leaves

end Teardown

namespace AllowsRemoval

variable (hR : AllowsRemoval R)

include hR

theorem removeChildren (session : Option SessionRef) (s : SchemaRef) :
    Leaves (OnDatabase R) (removeChildren Database.host session s) :=
  .removeChildren (fun session o => .hostLift (hR.removeObject session o)) session s
    fun db _ => hR.schemaInvalidated s db

theorem dropSchema (session : Option SessionRef) (name : String) :
    Leaves R (dropSchema session name) := by
  refine (Leaves.look _).bind fun s => .get_bind fun db => ?_
  split
  · exact refl_of R db
  · refine ((Leaves.onDatabase (hR.removeChildren session s)).bind fun _ => ?_) db
    exact .modify (hR.schemaErased name)

section Statements

open Execution

theorem dropSchemaStatement (c : SessionRef) (name : String) (ifExists : Bool) :
    Leaves R (Execution.dropSchema c name ifExists) := by
  refine .get_bind fun db => ?_
  split
  · split
    · exact refl_of R db
    · exact refl_of R db
  · exact ((Leaves.statementLook _).bind fun _ =>
      (hR.dropSchema (some c) name).lift.bind fun _ => .pure _) db

theorem dropTable (c : SessionRef) (schemaName name : String) (ifExists : Bool) :
    Leaves R (dropTable c schemaName name ifExists) := by
  refine (Leaves.statementLook _).bind fun s => (Leaves.statementLook _).bind fun t? => ?_
  cases t? with
  | none => cases ifExists with
    | false => exact .throw _
    | true => exact .pure _
  | some t => exact (hR.removeObject (some c) t).lift.bind fun _ => .pure _

theorem dropIndex (c : SessionRef) (schemaName name : String) (ifExists : Bool) :
    Leaves R (dropIndex c schemaName name ifExists) := by
  refine (Leaves.statementLook _).bind fun s => (Leaves.statementLook _).bind fun i? => ?_
  cases i? with
  | some i => exact (hR.removeObject (some c) i).lift.bind fun _ => .pure _
  | none =>
    refine (Leaves.modifyGet (hR.dropTempIndex c name)).bind fun dropped => ?_
    cases dropped with
    | some _ => exact .pure _
    | none => cases ifExists with
      | false => exact .throw _
      | true => exact .pure _

end Statements

end AllowsRemoval

end Removal

section Statements

open Execution

/-- A relation that allows every step of every statement. -/
structure AllowsStatements (R : Database → Database → Prop) : Prop
    extends AllowsCreation (fun _ => True) R, AllowsRemoval R where
  setTable : ∀ t table db, R db (ObjectRef.setTable t table db)
  reservations : ∀ s reservations db, R db (withReservations s reservations db)
  renamed : ∀ s o newName db, R db (Database.renamed s o newName db)
  withSchema : ∀ name owner db, R db (Database.withSchema name (some owner) false db)

variable {R : Database → Database → Prop} [IsPreorder Database R]

namespace AllowsStatements

variable (hR : AllowsStatements R)

include hR

private theorem withIndexName {α : Type} {c : SessionRef} {s : SchemaRef} {t : ObjectRef}
    {stem : String} {act : String → ExecM α} (hact : ∀ name, Leaves R (act name)) :
    Leaves R (withIndexName c s t stem act) := by
  intro db
  rcases stateAfter_withIndexName act db with hsame | ⟨live, r, mid, hgranted, hafter⟩
  · rw [hsame]
    exact refl_of R db
  · have hmid : R db mid := by
      rw [hgranted.result]
      exact hR.reservations s _ db
    rw [hafter, release_eq]
    exact trans_of R (trans_of R hmid (hact r.name mid)) (hR.reservations s _ _)

private theorem addKeyIndex (c : SessionRef) (s : SchemaRef) (t : ObjectRef)
    (definition : ConstraintDefinition) (kind : IndexKind) :
    Leaves R (addKeyIndex c s t definition kind) := by
  refine hR.withIndexName fun name => ?_
  refine (hR.addTableIndex c s t name fun _ _ => trivial).bind fun _ => ?_
  split
  · exact (Leaves.forbidNull hR.setTable t _).bind fun _ => .get_bind (refl_of R)
  · exact .get_bind (refl_of R)

theorem execute (c : SessionRef) (statement : Statement) : Leaves R (statement.execute c) := by
  cases statement with
  | createSchema name ifNotExists =>
    intro db
    rw [Statement.execute]
    rcases stateAfter_createSchemaStatement c name ifNotExists db with hafter | hafter
    · rw [hafter]
      exact refl_of R db
    · rw [hafter]
      exact hR.withSchema name _ db
  | dropSchema name ifExists => exact hR.dropSchemaStatement c name ifExists
  | createTable definition => exact hR.createTable c definition fun _ => trivial
  | dropTable schema name ifExists => exact hR.dropTable c schema name ifExists
  | createIndex definition =>
    exact hR.createIndex c definition (fun _ _ => trivial) fun s t =>
      hR.withIndexName (hR.createNamedIndex c s t definition fun _ _ => trivial)
  | dropIndex schema name ifExists => exact hR.dropIndex c schema name ifExists
  | createSequence schema name start increment =>
    exact hR.createSequence schema name start increment trivial
  | createConstant schema name value => exact hR.createObject schema .constant name trivial _
  | createFunctionAlias schema name target deterministic =>
    exact hR.createFunctionAlias schema name target deterministic trivial
  | rename schema kind oldName newName =>
    intro db
    rw [Statement.execute]
    rcases stateAfter_rename schema kind oldName newName db with hafter | ⟨s, o, -, -, hafter⟩
    · rw [hafter]
      exact refl_of R db
    · rw [hafter]
      exact hR.renamed s o newName db
  | alterColumn change => exact Leaves.alterColumn hR.setTable c change
  | addConstraint definition =>
    exact Leaves.addConstraint c definition
      (fun t expression _ => Leaves.addCheck hR.setTable t expression)
      fun s t kind _ => hR.addKeyIndex c s t definition kind
  | truncateTable schema name => exact .throw _
  | dml kind => exact .throw _
  | transaction kind => exact .throw _

end AllowsStatements

end Statements

end SchemaCatalog
