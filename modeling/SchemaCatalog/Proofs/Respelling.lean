import SchemaCatalog.Proofs.CaseRules
/-!
# Respelled statements

Statements that spell the names they look up differently, but only as far as the case rule does not
care, do the same: what they find is the same, and from there on they go by what was found and not
by how it was called. Only the texts of messages may differ.
-/
namespace SchemaCatalog

open Database Execution

section Resembles

/-- The errors are of one kind, whatever they say. -/
def ExecutionError.SameKind : ExecutionError → ExecutionError → Prop
  | catalog error, catalog error' => error.ctorIdx = error'.ctorIdx
  | error, error' => error.ctorIdx = error'.ctorIdx

private theorem ExecutionError.SameKind.refl (e : ExecutionError) : e.SameKind e := by
  cases e <;> rfl

variable {α β : Type}

/-- Both look-ups have the same answer, or errors of one kind. -/
inductive SameAnswer : Except CatalogError α → Except CatalogError α → Prop
  | ok (a : α) : SameAnswer (.ok a) (.ok a)
  | error {e e' : CatalogError} (h : e.ctorIdx = e'.ctorIdx) : SameAnswer (.error e) (.error e')

private theorem SameAnswer.of_eq {r r' : Except CatalogError α} (h : r = r') : SameAnswer r r' := by
  subst h
  cases r with
  | ok a => exact .ok a
  | error e => exact .error rfl

private theorem SameAnswer.cases {r r' : Except CatalogError α} (h : SameAnswer r r') :
    (∃ a, r = .ok a ∧ r' = .ok a) ∨
      ∃ e e', r = .error e ∧ r' = .error e' ∧ e.ctorIdx = e'.ctorIdx := by
  cases h with
  | ok a => exact .inl ⟨a, rfl, rfl⟩
  | error h => exact .inr ⟨_, _, rfl, rfl, h⟩

/-- Both runs end in the same state, with results that correspond or with errors of one kind. -/
inductive Resembles (post : α → α → Prop) :
    EStateM.Result ExecutionError Database α → EStateM.Result ExecutionError Database α → Prop
  | ok {a b : α} {db : Database} (h : post a b) : Resembles post (.ok a db) (.ok b db)
  | error {e e' : ExecutionError} {db : Database} (h : e.SameKind e') :
    Resembles post (.error e db) (.error e' db)

namespace Resembles

private theorem cases {post : α → α → Prop} {r r' : EStateM.Result ExecutionError Database α}
    (h : Resembles post r r') :
    (∃ a b db, r = .ok a db ∧ r' = .ok b db ∧ post a b) ∨
      ∃ e e' db, r = .error e db ∧ r' = .error e' db ∧ e.SameKind e' := by
  cases h with
  | ok h => exact .inl ⟨_, _, _, rfl, rfl, h⟩
  | error h => exact .inr ⟨_, _, _, rfl, rfl, h⟩

private theorem refl {post : α → α → Prop} [Std.Refl post]
    (r : EStateM.Result ExecutionError Database α) :
    Resembles post r r := by
  cases r with
  | ok a db => exact .ok (refl_of post a)
  | error e db => exact .error (.refl e)

variable {mid : α → α → Prop} {post : β → β → Prop} {db : Database} {look look' : Lookup α}
  {act act' : ExecM α} {next next' : α → ExecM β}

private theorem bind (h : Resembles mid (act db) (act' db))
    (hnext : ∀ a a' db', act db = .ok a db' → mid a a' →
      Resembles post (next a db') (next' a' db')) :
    Resembles post ((act >>= next) db) ((act' >>= next') db) := by
  obtain ⟨a, a', db', hact, hact', hmid⟩ | ⟨e, e', db', hact, hact', hkind⟩ := h.cases
  · rw [bind_of_ok hact, bind_of_ok hact']
    exact hnext a a' db' hact hmid
  · rw [bind_of_error hact, bind_of_error hact']
    exact .error hkind

/-- The same action, and then what may depend on its result. -/
private theorem bind_same
    (hnext : ∀ a db', act db = .ok a db' → Resembles post (next a db') (next' a db')) :
    Resembles post ((act >>= next) db) ((act >>= next') db) := by
  have hact : Resembles Eq (act db) (act db) := .refl _
  exact hact.bind fun a _ db' hact heq => heq ▸ hnext a db' hact

/-- The same look, and then what may depend on what is seen. -/
private theorem bind_seen {known : α → Prop} (h : Settles act db fun a db' => db' = db ∧ known a)
    (hnext : ∀ a, known a → Resembles post (next a db) (next' a db)) :
    Resembles post ((act >>= next) db) ((act >>= next') db) := by
  refine .bind_same fun a db' hact => ?_
  obtain ⟨rfl, ha⟩ := h.post_of_ok hact
  exact hnext a ha

private theorem get_bind {next next' : Database → ExecM β}
    (h : Resembles post (next db db) (next' db db)) :
    Resembles post ((get >>= next) db) ((get >>= next') db) := h

/-- Look-ups with the same answer, and then what may depend on it. -/
private theorem bind_look (h : SameAnswer (look db) (look' db))
    (hnext : ∀ a, look db = .ok a → Resembles post (next a db) (next' a db)) :
    Resembles post ((liftM look >>= next : ExecM β) db) ((liftM look' >>= next' : ExecM β) db) := by
  obtain ⟨a, hlook, hlook'⟩ | ⟨e, e', hlook, hlook', hkind⟩ := h.cases
  · rw [bind_of_ok (statement_look_of_ok hlook), bind_of_ok (statement_look_of_ok hlook')]
    exact hnext a hlook
  · rw [bind_of_error (statement_look_of_error hlook),
      bind_of_error (statement_look_of_error hlook')]
    exact .error hkind

end Resembles

end Resembles

section Lookups

variable {rule : CaseRule} {db : Database} {c : SessionRef} {s : SchemaRef} {name name' : String}

/-- Whatever the session looks up in the database is looked up by this rule. -/
structure Database.LooksUpBy (rule : CaseRule) (db : Database) (c : SessionRef) : Prop where
  wellFormed : db.WellFormed
  follows : db.Follows rule
  session : db.SessionFollows rule c

private theorem orNotFound_same (kind : ObjectKind) (name name' : String) (o? : Option ObjectRef)
    (db : Database) : SameAnswer (SchemaRef.orNotFound kind name o? db)
      (SchemaRef.orNotFound kind name' o? db) := by
  cases o? with
  | some o => exact .ok o
  | none => exact .error rfl

variable (h : db.LooksUpBy rule c) (hname : rule.Same name name')

namespace Database.LooksUpBy

include h hname

private theorem findSchema_same : db.findSchema name = db.findSchema name' :=
  h.follows.findSchema_same hname

private theorem getSchema_same : SameAnswer (getSchema name db) (getSchema name' db) := by
  cases hfound : db.findSchema name with
  | some s =>
    rw [getSchema_eq hfound, getSchema_eq (h.findSchema_same hname ▸ hfound)]
    exact .ok s
  | none =>
    rw [getSchema_of_none hfound, getSchema_of_none (h.findSchema_same hname ▸ hfound)]
    exact .error rfl

variable (hs : s ∈ db.allSchemas)

include hs

private theorem getObject_same (kind : ObjectKind) :
    SameAnswer (s.getObject kind name db) (s.getObject kind name' db) := by
  have hfind := h.wellFormed.findObject_eq hs kind
  rw [SchemaRef.getObject, look_bind_of_ok (hfind name), SchemaRef.getObject,
    look_bind_of_ok (hfind name'), h.follows.space_same hname h.wellFormed hs]
  exact orNotFound_same kind name name' _ db

private theorem findTable_same : s.findTable (some c) name db = s.findTable (some c) name' db := by
  have htemp : (db.session c).tempTables.get? name = (db.session c).tempTables.get? name' :=
    h.session.tempTable?_same hname
  rw [h.wellFormed.findTable_eq hs, h.wellFormed.findTable_eq hs, htemp,
    h.follows.space_same hname h.wellFormed hs]

private theorem getTable_same :
    SameAnswer (s.getTable (some c) name db) (s.getTable (some c) name' db) := by
  have hfind := h.wellFormed.findTable_eq hs c name
  rw [SchemaRef.getTable, look_bind_of_ok hfind, SchemaRef.getTable,
    look_bind_of_ok ((h.findTable_same hname hs).symm.trans hfind)]
  exact orNotFound_same .tableOrView name name' _ db

private theorem findIndex_same : s.findIndex none name db = s.findIndex none name' db := by
  rw [h.wellFormed.findIndex_eq hs, h.wellFormed.findIndex_eq hs,
    h.follows.space_same hname h.wellFormed hs]
  rfl

end Database.LooksUpBy

end Lookups

section Respelled

variable {rule : CaseRule}

/-- The constraints differ at most in how the name of a referenced table is spelled. -/
inductive ConstraintKind.Respelled (rule : CaseRule) : ConstraintKind → ConstraintKind → Prop
  | primaryKey : Respelled rule primaryKey primaryKey
  | unique : Respelled rule unique unique
  | referential {refTable refTable' : String} (refColumns : List String)
    (htable : rule.Same refTable refTable') :
    Respelled rule (referential refTable refColumns) (referential refTable' refColumns)
  | check (expression : String) : Respelled rule (check expression) (check expression)

/-- The statements differ at most in how the names that they look up are spelled. Names of what is
to be made, of columns and of constraints are the same. -/
inductive Statement.Respelled (rule : CaseRule) : Statement → Statement → Prop
  | createSchema (name : String) (ifNotExists : Bool) :
    Respelled rule (createSchema name ifNotExists) (createSchema name ifNotExists)
  | dropSchema {name name' : String} (ifExists : Bool) (hname : rule.Same name name') :
    Respelled rule (dropSchema name ifExists) (dropSchema name' ifExists)
  | createTable (definition : TableDefinition) {schema : String} {references : List String}
    (hschema : rule.Same definition.schema schema)
    (hreferences : List.Forall₂ rule.Same definition.references references) :
    Respelled rule (createTable definition) (createTable { definition with schema, references })
  | dropTable {schema schema' name name' : String} (ifExists : Bool)
    (hschema : rule.Same schema schema') (hname : rule.Same name name') :
    Respelled rule (dropTable schema name ifExists) (dropTable schema' name' ifExists)
  | createIndex (definition : IndexDefinition) {schema table : String}
    (hschema : rule.Same definition.schema schema) (htable : rule.Same definition.table table) :
    Respelled rule (createIndex definition) (createIndex { definition with schema, table })
  | dropIndex {schema schema' name name' : String} (ifExists : Bool)
    (hschema : rule.Same schema schema') (hname : rule.Same name name') :
    Respelled rule (dropIndex schema name ifExists) (dropIndex schema' name' ifExists)
  | createSequence {schema schema' : String} (name : String) (start increment : Int64)
    (hschema : rule.Same schema schema') :
    Respelled rule (createSequence schema name start increment)
      (createSequence schema' name start increment)
  | createConstant {schema schema' : String} (name value : String)
    (hschema : rule.Same schema schema') :
    Respelled rule (createConstant schema name value) (createConstant schema' name value)
  | createFunctionAlias {schema schema' : String} (name target : String) (deterministic : Bool)
    (hschema : rule.Same schema schema') :
    Respelled rule (createFunctionAlias schema name target deterministic)
      (createFunctionAlias schema' name target deterministic)
  | rename {schema schema' oldName oldName' : String} (kind : ObjectKind) (newName : String)
    (hschema : rule.Same schema schema') (hname : rule.Same oldName oldName') :
    Respelled rule (rename schema kind oldName newName) (rename schema' kind oldName' newName)
  | alterColumn (change : ColumnChange) {schema table : String}
    (hschema : rule.Same change.schema schema) (htable : rule.Same change.table table) :
    Respelled rule (alterColumn change) (alterColumn { change with schema, table })
  | addConstraint (definition : ConstraintDefinition) {schema table : String}
    {kind : ConstraintKind} (hschema : rule.Same definition.schema schema)
    (htable : rule.Same definition.table table) (hkind : definition.kind.Respelled rule kind) :
    Respelled rule (addConstraint definition)
      (addConstraint { definition with schema, table, kind })
  | truncateTable {schema schema' name name' : String} (hschema : rule.Same schema schema')
    (hname : rule.Same name name') :
    Respelled rule (truncateTable schema name) (truncateTable schema' name')
  | dml (kind : DmlKind) : Respelled rule (dml kind) (dml kind)
  | transaction (kind : TransactionKind) : Respelled rule (transaction kind) (transaction kind)

end Respelled

/-- The statements count as many entities. -/
abbrev SameCount (outcome outcome' : Outcome) : Prop :=
  outcome.affected = outcome'.affected

instance : Std.Refl SameCount := ⟨fun _ => rfl⟩

section Statements

variable {rule : CaseRule} {db : Database} {c : SessionRef} {s : SchemaRef}
  {name name' schema schema' : String} (h : db.LooksUpBy rule c)

/-- Actions whose errors differ in what they say. -/
private theorem refuse_resembles {α : Type} {post : α → α → Prop} {e e' : CatalogError}
    (hkind : e.ctorIdx = e'.ctorIdx) : Resembles post (refuse e db) (refuse e' db) :=
  .error hkind

/-- Once everything is done, only the message is different. -/
private theorem said_resembles (affected : Nat) (message message' : String) :
    Resembles SameCount ((pure ⟨affected, message⟩ : ExecM Outcome) db)
      ((pure ⟨affected, message'⟩ : ExecM Outcome) db) :=
  .ok rfl

namespace Database.LooksUpBy

include h

private theorem schemaForCreate_respelled (hschema : rule.Same schema schema') (kind : ObjectKind)
    (name : String) (ifNotExists : Bool) :
    Resembles Eq (schemaForCreate schema kind name ifNotExists db)
      (schemaForCreate schema' kind name ifNotExists db) :=
  .bind_seen (validateName_settles kind.text name db) fun _ _ =>
    .bind_look (h.getSchema_same hschema) fun _ _ => .refl _

private theorem createObject_respelled (hschema : rule.Same schema schema') (kind : ObjectKind)
    (name : String) (body : ObjectBody) (message : String) :
    Resembles SameCount (createObject schema kind name body message db)
      (createObject schema' kind name body message db) := by
  refine (h.schemaForCreate_respelled hschema kind name false).bind fun s? _ db' _ heq => ?_
  rw [heq]
  exact .refl _

private theorem referenceIds_respelled (hs : s ∈ db.allSchemas) {names names' : List String}
    (hnames : List.Forall₂ rule.Same names names') :
    Resembles Eq (referenceIds c s names db) (referenceIds c s names' db) := by
  induction hnames with
  | nil => exact .refl _
  | @cons name name' names names' hname _ ih =>
    rw [referenceIds, List.mapM_cons, referenceIds, List.mapM_cons, bind_assoc, bind_assoc]
    refine .bind_look (h.getTable_same hname hs) fun t _ => ?_
    rw [bind_assoc, bind_assoc]
    refine .get_bind ?_
    rw [pure_bind, pure_bind]
    refine ih.bind fun ids _ db' _ heq => ?_
    rw [heq]
    exact .refl _

private theorem createTable_respelled (definition : TableDefinition) {references : List String}
    (hschema : rule.Same definition.schema schema)
    (hreferences : List.Forall₂ rule.Same definition.references references) :
    Resembles SameCount (createTable c definition db)
      (createTable c { definition with schema, references } db) := by
  rw [createTable, createTable]
  refine (h.schemaForCreate_respelled hschema .tableOrView definition.tableName
    definition.ifNotExists).bind fun s? _ db' hrun heq => ?_
  subst heq
  obtain ⟨rfl, hs⟩ := (schemaForCreate_settles h.wellFormed _ _ _ _).post_of_ok hrun
  cases s? with
  | none => exact said_resembles 0 _ _
  | some s =>
    obtain ⟨-, hs, -⟩ := hs s rfl
    refine .get_bind ?_
    dsimp only
    split
    · exact .refl _
    · refine (h.referenceIds_respelled hs hreferences).bind fun ids _ db' _ heq => ?_
      rw [heq]
      exact .refl _

private theorem dropTable_respelled (hschema : rule.Same schema schema')
    (hname : rule.Same name name') (ifExists : Bool) :
    Resembles SameCount (dropTable c schema name ifExists db)
    (dropTable c schema' name' ifExists db) := by
  refine .bind_look (h.getSchema_same hschema) fun s hfound => ?_
  have hs := mem_allSchemas_of_find ((getSchema_finds db schema).post_of_ok hfound)
  refine .bind_look (.of_eq (h.findTable_same hname hs)) fun t? _ => ?_
  cases t? with
  | none =>
    cases ifExists with
    | true => exact said_resembles 0 _ _
    | false => exact refuse_resembles rfl
  | some t => exact .bind_same fun _ db' _ => said_resembles 1 _ _

private theorem createIndex_respelled (definition : IndexDefinition) {table : String}
    (hschema : rule.Same definition.schema schema) (htable : rule.Same definition.table table) :
    Resembles SameCount (createIndex c definition db)
      (createIndex c { definition with schema, table } db) := by
  refine .bind_look (h.getSchema_same hschema) fun s hfound => ?_
  have hs := mem_allSchemas_of_find ((getSchema_finds db _).post_of_ok hfound)
  exact .bind_look (h.getTable_same htable hs) fun t _ => .refl _

private theorem dropIndex_respelled (hschema : rule.Same schema schema')
    (hname : rule.Same name name') (ifExists : Bool) :
    Resembles SameCount (dropIndex c schema name ifExists db)
    (dropIndex c schema' name' ifExists db) := by
  refine .bind_look (h.getSchema_same hschema) fun s hfound => ?_
  have hs := mem_allSchemas_of_find ((getSchema_finds db schema).post_of_ok hfound)
  refine .bind_look (.of_eq (h.findIndex_same hname hs)) fun i? _ => ?_
  cases i? with
  | some i => exact .bind_same fun _ db' _ => said_resembles 1 _ _
  | none =>
    have hdrop : (modifyGet (c.dropTempIndex name) : ExecM (Option ObjectRef)) db =
        (modifyGet (c.dropTempIndex name') : ExecM (Option ObjectRef)) db :=
      modifyGet_run (h.session.dropTempIndex_same hname)
    have hdropped : Resembles Eq ((modifyGet (c.dropTempIndex name) : ExecM (Option ObjectRef)) db)
        ((modifyGet (c.dropTempIndex name') : ExecM (Option ObjectRef)) db) := hdrop ▸ .refl _
    refine hdropped.bind fun i? _ db' _ heq => ?_
    rw [← heq]
    cases i? with
    | some i => exact said_resembles 1 _ _
    | none =>
      cases ifExists with
      | true => exact said_resembles 0 _ _
      | false => exact refuse_resembles rfl

/-- What goes with the schema goes in the same way, and in the end its name is the same key. -/
private theorem removal_respelled (hname : rule.Same name name')
    (hfound : db.findSchema name = some s) :
    Resembles Eq ((liftM (Database.dropSchema (some c) name) : ExecM Unit) db)
      ((liftM (Database.dropSchema (some c) name') : ExecM Unit) db) := by
  have hfound' : db.findSchema name' = some s := h.findSchema_same hname ▸ hfound
  rw [statement_run, Database.dropSchema, bind_of_ok (lift_of_ok (getSchema_eq hfound)),
    get_bind_run, statement_run, Database.dropSchema,
    bind_of_ok (lift_of_ok (getSchema_eq hfound')), get_bind_run]
  cases (db.schema s).system with
  | true =>
    have hkind : (ExecutionError.catalog (.systemSchema name)).SameKind
        (.catalog (.systemSchema name')) := rfl
    exact .error hkind
  | false =>
    simp only [Bool.false_eq_true, if_false]
    have hR : AllowsStatements (StillFollows rule) := Follows.allowsStatements
    have hleaves := Leaves.onDatabase (hR.removeChildren (some c) s) db
    cases hrun : (removeChildren Database.host (some c) s).onDatabase db with
    | ok _ db' =>
      rw [stateAfter_of_ok hrun] at hleaves
      rw [bind_of_ok hrun, bind_of_ok hrun]
      have herased : db'.schemas.erase name = db'.schemas.erase name' :=
        NameMap.erase_same (hleaves h.follows).schemas hname
      change Resembles Eq (.ok () { db' with schemas := db'.schemas.erase name })
        (.ok () { db' with schemas := db'.schemas.erase name' })
      rw [herased]
      exact .refl _
    | error e db' =>
      rw [bind_of_error hrun, bind_of_error hrun]
      exact .refl _

private theorem dropSchema_respelled (hname : rule.Same name name') (ifExists : Bool) :
    Resembles SameCount (Execution.dropSchema c name ifExists db)
      (Execution.dropSchema c name' ifExists db) := by
  refine .get_bind ?_
  rw [← h.findSchema_same hname]
  cases hfound : db.findSchema name with
  | none =>
    cases ifExists with
    | true => exact said_resembles 0 _ _
    | false => exact refuse_resembles rfl
  | some s =>
    refine .bind_look (.of_eq rfl) fun objects _ => ?_
    exact (h.removal_respelled hname hfound).bind fun _ _ db' _ _ => said_resembles _ _ _

private theorem rename_respelled (hschema : rule.Same schema schema') (hname : rule.Same name name')
    (kind : ObjectKind) (newName : String) :
    Resembles SameCount (Execution.rename schema kind name newName db)
      (Execution.rename schema' kind name' newName db) := by
  refine .bind_seen (validateName_settles kind.text newName db) fun _ _ => ?_
  refine .bind_look (h.getSchema_same hschema) fun s hfound => ?_
  have hs := mem_allSchemas_of_find ((getSchema_finds db schema).post_of_ok hfound)
  refine .bind_look (h.getObject_same hname hs kind) fun o _ => ?_
  exact .bind_same fun _ db' _ => said_resembles 1 _ _

private theorem alterColumn_respelled (change : ColumnChange) {table : String}
    (hschema : rule.Same change.schema schema) (htable : rule.Same change.table table) :
    Resembles SameCount (alterColumn c change db)
      (alterColumn c { change with schema, table } db) := by
  refine .bind_look (h.getSchema_same hschema) fun s hfound => ?_
  have hs := mem_allSchemas_of_find ((getSchema_finds db _).post_of_ok hfound)
  exact .bind_look (h.getTable_same htable hs) fun t _ => .refl _

private theorem addConstraint_respelled (definition : ConstraintDefinition) {table : String}
    {kind : ConstraintKind} (hschema : rule.Same definition.schema schema)
    (htable : rule.Same definition.table table) (hkind : definition.kind.Respelled rule kind) :
    Resembles SameCount (addConstraint c definition db)
      (addConstraint c { definition with schema, table, kind } db) := by
  refine .bind_look (h.getSchema_same hschema) fun s hfound => ?_
  have hs := mem_allSchemas_of_find ((getSchema_finds db _).post_of_ok hfound)
  refine .bind_look (h.getTable_same htable hs) fun t _ => ?_
  refine .bind_seen (rejectView_settles t db) fun _ _ => ?_
  obtain ⟨own, ownTable, constraintName, ownKind, columns⟩ := definition
  cases hkind with
  | primaryKey => exact .refl _
  | unique => exact .refl _
  | check expression => exact .refl _
  | referential refColumns hrefTable =>
    refine .bind_seen (requireColumns_settles t columns db) fun _ _ => ?_
    exact .bind_look (h.getTable_same hrefTable hs) fun _ _ => .refl _

end Database.LooksUpBy

/-- Respelled statements have the same result. -/
theorem Statement.execute_resembles (h : db.LooksUpBy rule c) {statement statement' : Statement}
    (hrespelled : statement.Respelled rule statement') :
    Resembles SameCount (statement.execute c db) (statement'.execute c db) := by
  cases hrespelled with
  | createSchema name ifNotExists => exact .refl _
  | dropSchema ifExists hname => exact h.dropSchema_respelled hname ifExists
  | createTable definition hschema hreferences =>
    exact h.createTable_respelled definition hschema hreferences
  | dropTable ifExists hschema hname => exact h.dropTable_respelled hschema hname ifExists
  | createIndex definition hschema htable =>
    exact h.createIndex_respelled definition hschema htable
  | dropIndex ifExists hschema hname => exact h.dropIndex_respelled hschema hname ifExists
  | createSequence name start increment hschema =>
    rw [execute, execute, Execution.createSequence, Execution.createSequence]
    split
    · exact .refl _
    · exact h.createObject_respelled hschema .sequence name _ _
  | createConstant name value hschema =>
    exact h.createObject_respelled hschema .constant name _ _
  | createFunctionAlias name target deterministic hschema =>
    exact .bind_seen (validateName_settles _ target db) fun _ _ =>
      h.createObject_respelled hschema .functionAlias name _ _
  | rename kind newName hschema hname => exact h.rename_respelled hschema hname kind newName
  | alterColumn change hschema htable => exact h.alterColumn_respelled change hschema htable
  | addConstraint definition hschema htable hkind =>
    exact h.addConstraint_respelled definition hschema htable hkind
  | truncateTable hschema hname => exact .error rfl
  | dml kind => exact .refl _
  | transaction kind => exact .refl _

/-- In a database that a run from a new one leads to, and in a session that compares names as the
database does, respelled statements both succeed and count as many entities or both fail with one
kind of error, and they lead to the very same state. -/
theorem Evolves.execute_respelled {allowed : Action → Prop} {settings : Settings}
    (h : Evolves allowed (bootstrap settings) db) (hsession : db.SessionFollows settings.rule c)
    {statement statement' : Statement} (hrespelled : statement.Respelled settings.rule statement') :
    Resembles SameCount (statement.execute c db) (statement'.execute c db) :=
  statement.execute_resembles
    ⟨(h.inForm (inForm_bootstrap settings)).wellFormed, h.follows, hsession⟩ hrespelled

end Statements

section Example

/-- Settings under which names that differ only in case are one name. -/
def caseless : Settings :=
  { Settings.standard with ignoreCase := true }

/-- A table, or a view of tables. -/
def spelled (schema tableName : String) (kind : TableKind) (references : List String) : Statement :=
  .createTable
    { schema, tableName, columns := [.plain "A" "INT"], kind, scope := .persistent, references,
      ifNotExists := false }

/-- Make a schema with a table in a session, while there is another session of another case rule. -/
def caselessActions : List Action :=
  [.openSession ⟨1, "SA"⟩,
    .execute ⟨0⟩ (.createSchema "App" false),
    .execute ⟨0⟩ (spelled "aPP" "Orders" .table [])]

/-- The database with one table, in which case does not matter. -/
def withOrders : Database :=
  withSession ⟨1, "SA"⟩ .exact
    (caselessActions.foldl (fun db action => action.run db) (bootstrap caseless))

private theorem evolves_withOrders : Evolves (fun _ => True) (bootstrap caseless) withOrders := by
  rw [withOrders, caselessActions]
  simp only [List.foldl_cons, List.foldl_nil]
  refine .session (.act (.act (.act .refl _ trivial ?_) _ trivial ?_) _ trivial ?_) _ _
  all_goals decide +kernel

theorem execute_respelled_withOrders :
    Evolves (fun _ => True) (bootstrap caseless) withOrders ∧
    withOrders.SessionFollows caseless.rule ⟨0⟩ ∧
    (spelled "APP" "Open" .view ["ORDERS", "orders"]).Respelled caseless.rule
      (spelled "app" "Open" .view ["Orders", "oRDERS"]) ∧
    (Succeeds ((spelled "APP" "Open" .view ["ORDERS", "orders"]).execute ⟨0⟩) withOrders
      fun outcome _ => outcome.affected = 1) ∧
    Resembles SameCount
      ((spelled "APP" "Open" .view ["ORDERS", "orders"]).execute ⟨0⟩ withOrders)
      ((spelled "app" "Open" .view ["Orders", "oRDERS"]).execute ⟨0⟩ withOrders) := by
  have hsession : withOrders.SessionFollows caseless.rule ⟨0⟩ :=
    ⟨by decide +kernel, by decide +kernel⟩
  have hrespelled : (spelled "APP" "Open" .view ["ORDERS", "orders"]).Respelled caseless.rule
      (spelled "app" "Open" .view ["Orders", "oRDERS"]) :=
    .createTable _ (by decide +kernel)
      (.cons (by decide +kernel) (.cons (by decide +kernel) .nil))
  exact ⟨evolves_withOrders, hsession, hrespelled, by decide +kernel,
    evolves_withOrders.execute_respelled hsession hrespelled⟩

end Example

end SchemaCatalog
