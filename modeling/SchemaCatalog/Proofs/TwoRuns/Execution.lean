import SchemaCatalog.Execution.Run
import SchemaCatalog.Proofs.TwoRuns.SchemaDrop
/-!
# Two runs of a statement

In databases that match for a session, a statement of the session has the same result.
-/
namespace SchemaCatalog

open Database Execution

variable {c : SessionRef} {M : Matching} {db db' : Database} {s : SchemaRef} {t t' o o' : ObjectRef}

namespace Alike

section Steps

private theorem releasing_tied (hs : M.schemas s) {α β : Type} {act : ExecM α} {act' : ExecM β}
    {post : Matching → α → β → Prop} {r : Reservation} (hact : Tied c M post (act db) (act' db')) :
    Tied c M post (releasing s r act db) (releasing s r act' db') := by
  rw [releasing, releasing]
  obtain ⟨M', a, b, mid, mid', hrun, hrun', hle, halike, hpost⟩ |
    ⟨M', e, mid, mid', hrun, hrun', hle, halike⟩ := hact.cases
  · rw [hrun, hrun']
    exact .ok hle (halike.release (hle.schemas s hs) r) hpost
  · rw [hrun, hrun']
    exact .error e hle (halike.release (hle.schemas s hs) r)

variable (h : Alike c M db db') (hs : M.schemas s) (ht : M.objects t t')

include h

private theorem refuse_tied {α β : Type} (e : CatalogError) {post : Matching → α → β → Prop} :
    Tied c M post (refuse e db) (refuse e db') :=
  .throw h

private theorem reject_tied {α β : Type} (detail : String) {post : Matching → α → β → Prop} :
    Tied c M post (reject detail db) (reject detail db') :=
  .throw h

private theorem validateName_tied (what name : String) :
    Tied c M Equal (validateName what name db) (validateName what name db') := by
  rw [validateName]
  split
  · exact h.reject_tied _
  · exact .pure h rfl

private theorem schemaForCreate_tied (schemaName : String) (kind : ObjectKind) (name : String)
    (ifNotExists : Bool) :
    Tied c M (fun M s? s'? => s'? = s? ∧ ∀ s, s? = some s → M.schemas s)
      (schemaForCreate schemaName kind name ifNotExists db)
      (schemaForCreate schemaName kind name ifNotExists db') := by
  rw [schemaForCreate]
  refine (h.validateName_tied kind.text name).bind fun M _ _ db db' _ h _ => ?_
  refine .bind_statement_look (h.getSchema_agree schemaName) h fun _ s ⟨rfl, hs⟩ => ?_
  refine .bind_statement_look (h.findObject_agree hs kind name) h fun o? o'? ho => ?_
  cases ho with
  | none =>
    refine .pure h ⟨rfl, fun r hr => ?_⟩
    obtain rfl := Option.some.inj hr
    exact hs
  | some =>
    cases ifNotExists with
    | true => exact .pure h ⟨rfl, fun r hr => nomatch hr⟩
    | false => exact h.refuse_tied _

private theorem newObject_tied (s : SchemaRef) (name : String) (body : ObjectBody) :
    Tied c M (fun M => M.objects) (newObject s name body db) (newObject s name body db') :=
  .ok (M.le_withObjects db.nextObject db'.nextObject) (h.withObject s name body) (.inr ⟨rfl, rfl⟩)

include hs ht

private theorem withIndexName_tied {α : Type} (stem : String) {act act' : String → ExecM α}
    (hact : ∀ M' db db' name, M ≤ M' → Alike c M' db db' →
      Tied c M' Equal (act name db) (act' name db')) :
    Tied c M Equal (withIndexName c s t stem act db) (withIndexName c s t' stem act' db') := by
  refine (h.uniqueIndexName_tied hs ht stem).lift.bind fun M' r r' db db' hle h hr => ?_
  rw [hr]
  exact releasing_tied (hle.schemas s hs) (hact M' db db' r.name hle h)

end Steps

section Columns

variable (h : Alike c M db db') (ht : M.objects t t')

include h ht

private theorem rejectView_tied : Tied c M Equal (rejectView t db) (rejectView t' db') := by
  refine .get_bind ?_
  dsimp only
  rw [h.object t t' ht]
  split
  · exact h.reject_tied _
  · exact .pure h rfl

private theorem primaryKeyColumns_tied :
    Tied c M Equal (primaryKeyColumns c t db) (primaryKeyColumns c t' db') := by
  refine .bind_statement_look (h.indexesOf_agree ht) h fun indexes indexes' hindexes => .get_bind ?_
  rw [map_eq_of_forall₂ hindexes fun i i' hi => h.indexOf_eq hi]
  exact .pure h rfl

private theorem alterColumnBy_tied (name : String) (change : Column → Column) :
    Tied c M Equal (alterColumnBy t name change db) (alterColumnBy t' name change db') :=
  (h.updateColumn_tied ht name change).lift.then_pure _

private theorem addColumnTo_tied (column : Column) :
    Tied c M Equal (Execution.addColumn t column db) (Execution.addColumn t' column db') :=
  (h.validateName_tied _ column.name).bind fun _ _ _ _ _ hle h _ =>
    (h.addColumn_tied (hle.objects t t' ht) column).lift.then_pure _

private theorem dropColumnFrom_tied (name : String) :
    Tied c M Equal (Execution.dropColumn c t name db) (Execution.dropColumn c t' name db') := by
  refine .get_bind ?_
  dsimp only
  rw [h.tableOf_eq ht, h.nameOf_eq ht, h.columnNotFound_eq ht]
  split
  · exact h.refuse_tied _
  · split
    · exact h.reject_tied _
    · refine .bind_statement_look (h.indexesOf_agree ht) h fun indexes indexes' hindexes => ?_
      have hfind := find?_of_forall₂ (p := fun i => (db.indexOf i).columns.contains name)
        (q := fun i => (db'.indexOf i).columns.contains name) hindexes fun i i' hi => by
          rw [h.indexOf_eq hi]
      obtain ⟨hi, hi'⟩ | ⟨i, i', hi, hi', hrel⟩ := cases_of_rel hfind
      · rw [hi, hi']
        exact (h.dropColumn_tied ht name).lift.then_pure _
      · rw [hi, hi']
        dsimp only
        rw [h.nameOf_eq hrel]
        exact h.refuse_tied _

private theorem changeColumnType_tied (name dataType : String) :
    Tied c M Equal (changeColumnType t name dataType db)
      (changeColumnType t' name dataType db') := by
  rw [changeColumnType, changeColumnType]
  split
  · exact h.reject_tied _
  · exact h.alterColumnBy_tied ht name _

private theorem setColumnNullable_tied (name : String) (nullable : Bool) :
    Tied c M Equal (setColumnNullable c t name nullable db)
      (setColumnNullable c t' name nullable db') := by
  rw [setColumnNullable, setColumnNullable]
  split
  · refine (h.primaryKeyColumns_tied ht).bind fun M' columns columns' db db' hle h hcolumns => ?_
    rw [hcolumns]
    split
    · exact h.reject_tied _
    · exact h.alterColumnBy_tied (hle.objects t t' ht) name _
  · exact h.alterColumnBy_tied ht name _

end Columns

private theorem alterColumn_tied (h : Alike c M db db') (change : ColumnChange) :
    Tied c M Equal (alterColumn c change db) (alterColumn c change db') := by
  refine .bind_statement_look (h.getSchema_agree change.schema) h fun _ s ⟨rfl, hs⟩ => ?_
  refine .bind_statement_look (h.getTable_agree hs change.table) h fun t t' ht => ?_
  refine (h.rejectView_tied ht).bind fun M' _ _ db db' hle h _ => ?_
  have ht := hle.objects t t' ht
  cases change.action with
  | add column => exact h.addColumnTo_tied ht column
  | drop name => exact h.dropColumnFrom_tied ht name
  | changeType name dataType => exact h.changeColumnType_tied ht name dataType
  | setNullable name nullable => exact h.setColumnNullable_tied ht name nullable
  | setDefault name defaultExpression => exact h.alterColumnBy_tied ht name _

section Indexes

variable (h : Alike c M db db') (hs : M.schemas s) (ht : M.objects t t')

include h

private theorem addTableIndex_tied (s : SchemaRef) (ht : M.objects t t') (name : String)
    (columns : List String) (kind : IndexKind) :
    Tied c M Equal (addTableIndex c s t name columns kind db)
      (addTableIndex c s t' name columns kind db') := by
  refine .get_bind ?_
  rw [h.object t t' ht]
  refine (h.newObject_tied s name _).bind fun M' i i' db db' hle h hi => ?_
  split
  · exact (h.addTempIndex_tied hi).lift
  · exact (h.addObject_tied hi).lift

private theorem createNamedIndex_tied (s : SchemaRef) (ht : M.objects t t')
    (definition : IndexDefinition) (name : String) :
    Tied c M Equal (createNamedIndex c s t definition name db)
      (createNamedIndex c s t' definition name db') :=
  (h.addTableIndex_tied s ht name definition.columns definition.kind).then_pure _

private theorem createIndex_tied (definition : IndexDefinition) :
    Tied c M Equal (createIndex c definition db) (createIndex c definition db') := by
  refine .bind_statement_look (h.getSchema_agree definition.schema) h fun _ s ⟨rfl, hs⟩ => ?_
  refine .bind_statement_look (h.getTable_agree hs definition.table) h fun t t' ht => ?_
  cases definition.indexName with
  | none =>
    exact h.withIndexName_tied hs ht definition.kind.nameStem fun _ _ _ name hle h =>
      h.createNamedIndex_tied s (hle.objects t t' ht) definition name
  | some name =>
    refine (h.validateName_tied "index" name).bind fun M' _ _ db db' hle h _ => ?_
    have hfind := h.findIndex_agree (hle.schemas s hs) (some c) (by simp) name
    refine .bind_statement_look hfind h fun i? i'? hi => ?_
    cases hi with
    | none => exact h.createNamedIndex_tied s (hle.objects t t' ht) definition name
    | some =>
      simp only [Option.isNone_some, Bool.false_eq_true, if_false]
      split
      · exact .pure h rfl
      · exact h.refuse_tied _

private theorem dropIndex_tied (schemaName name : String) (ifExists : Bool) :
    Tied c M Equal (dropIndex c schemaName name ifExists db)
      (dropIndex c schemaName name ifExists db') := by
  refine .bind_statement_look (h.getSchema_agree schemaName) h fun _ s ⟨rfl, hs⟩ => ?_
  have hfind := h.findIndex_agree hs none (by simp) name
  refine .bind_statement_look hfind h fun i? i'? hi => ?_
  cases hi with
  | some hi =>
    exact (h.removeObject_tied hi).lift.then_pure _
  | none =>
    obtain ⟨hfound, hdropped⟩ := h.dropTempIndex name
    have hdrop : Tied c M (fun M => Option.Rel M.objects)
        ((modifyGet (c.dropTempIndex name) : ExecM _) db)
        ((modifyGet (c.dropTempIndex name) : ExecM _) db') :=
      .ok M.le_refl hdropped hfound
    refine hdrop.bind fun M' i? i'? db db' _ h hi => ?_
    cases hi with
    | some => exact .pure h rfl
    | none =>
      dsimp only
      split
      · exact .pure h rfl
      · exact h.refuse_tied _

end Indexes

section Constraints

variable (h : Alike c M db db') (hs : M.schemas s) (ht : M.objects t t')
  (definition : ConstraintDefinition)

include h ht

private theorem requireColumns_tied (columns : List String) :
    Tied c M Equal (requireColumns t columns db) (requireColumns t' columns db') := by
  rw [requireColumns, requireColumns]
  split
  · exact h.reject_tied _
  · refine .get_bind ?_
    rw [h.tableOf_eq ht]
    cases columns.find? fun name => !(db.tableOf t).hasColumn name with
    | none => exact .pure h rfl
    | some name =>
      dsimp only
      rw [h.columnNotFound_eq ht]
      exact h.refuse_tied _

private theorem forbidNull_tied (columns : List String) :
    Tied c M Equal (forbidNull t columns db) (forbidNull t' columns db') := by
  refine .forM (R := Eq) (List.forall₂_same.mpr fun _ _ => rfl) h
    fun M' name name' db db' hle h hname => ?_
  rw [← hname]
  exact (h.updateColumn_tied (hle.objects t t' ht) name Column.notNull).lift

private theorem addCheckTo_tied (expression : String) :
    Tied c M Equal (Execution.addCheck t expression db) (Execution.addCheck t' expression db') := by
  rw [Execution.addCheck, Execution.addCheck]
  split
  · exact h.reject_tied _
  · have hadded : Tied c M Equal ((modify (t.addCheck expression) : ExecM Unit) db)
        ((modify (t'.addCheck expression) : ExecM Unit) db') :=
      .ok M.le_refl (h.addCheck ht expression) rfl
    refine hadded.bind fun M' _ _ db db' hle h _ => .get_bind ?_
    rw [h.nameOf_eq (hle.objects t t' ht)]
    exact .pure h rfl

include hs

private theorem addKeyIndex_tied (kind : IndexKind) :
    Tied c M Equal (addKeyIndex c s t definition kind db)
      (addKeyIndex c s t' definition kind db') := by
  refine h.withIndexName_tied hs ht (keyNameStem definition) fun M' db db' name hle h => ?_
  have ht := hle.objects t t' ht
  refine (h.addTableIndex_tied s ht name definition.columns kind).bind
    fun M'' _ _ db db' hle h _ => ?_
  have ht := hle.objects t t' ht
  have hmessage : ∀ {M' db db'}, Alike c M' db db' → M'.objects t t' →
      Tied c M' Equal
        ((do let tableName := (← get).nameOf t
             return ⟨1, s!"Constraint added to '{tableName}' with index '{name}'"⟩ :
          ExecM Outcome) db)
        ((do let tableName := (← get).nameOf t'
             return ⟨1, s!"Constraint added to '{tableName}' with index '{name}'"⟩ :
          ExecM Outcome) db') := by
    intro M' db db' h ht
    refine .get_bind ?_
    rw [h.nameOf_eq ht]
    exact .pure h rfl
  split
  · refine (h.forbidNull_tied ht definition.columns).bind fun M' _ _ db db' hle h _ => ?_
    exact hmessage h (hle.objects t t' ht)
  · exact hmessage h ht

private theorem addPrimaryKey_tied :
    Tied c M Equal (addPrimaryKey c s t definition db) (addPrimaryKey c s t' definition db') := by
  refine (h.requireColumns_tied ht definition.columns).bind fun M' _ _ db db' hle h _ => ?_
  have ht := hle.objects t t' ht
  refine .bind_statement_look (h.indexesOf_agree ht) h fun indexes indexes' hindexes => .get_bind ?_
  rw [h.nameOf_eq ht, any_eq_of_forall₂ (p := fun i => decide ((db.indexOf i).kind = .primaryKey))
    hindexes fun i i' hi => by rw [h.indexOf_eq hi]]
  split
  · exact h.reject_tied _
  · exact h.addKeyIndex_tied (hle.schemas s hs) ht definition .primaryKey

private theorem addUnique_tied :
    Tied c M Equal (addUnique c s t definition db) (addUnique c s t' definition db') :=
  (h.requireColumns_tied ht definition.columns).bind fun _ _ _ _ _ hle h _ =>
    h.addKeyIndex_tied (hle.schemas s hs) (hle.objects t t' ht) definition .unique

private theorem addForeignKey_tied (refTable : String) (refColumns : List String) :
    Tied c M Equal (addForeignKey c s t definition refTable refColumns db)
      (addForeignKey c s t' definition refTable refColumns db') := by
  refine (h.requireColumns_tied ht definition.columns).bind fun M' _ _ db db' hle h _ => ?_
  have hs := hle.schemas s hs
  have ht := hle.objects t t' ht
  refine .bind_statement_look (h.getTable_agree hs refTable) h fun r r' hr => .get_bind ?_
  dsimp only
  rw [h.nameOf_eq ht]
  split
  · exact h.reject_tied _
  · refine (h.requireColumns_tied hr refColumns).bind fun M' _ _ db₁ db₁' hle h _ => ?_
    have ht := hle.objects t t' ht
    refine .bind_statement_look (h.indexesOf_agree ht) h
      fun indexes indexes' hindexes => .get_bind ?_
    have hfind := find?_of_forall₂
      (p := fun i => decide ((db₁.indexOf i).columns = definition.columns))
      (q := fun i => decide ((db₁'.indexOf i).columns = definition.columns)) hindexes
      fun i i' hi => by rw [h.indexOf_eq hi]
    obtain ⟨hi, hi'⟩ | ⟨i, i', hi, hi', hrel⟩ := cases_of_rel hfind
    · rw [hi, hi']
      exact h.addKeyIndex_tied (hle.schemas s hs) ht definition .nonUnique
    · rw [hi, hi']
      dsimp only
      rw [h.nameOf_eq hrel]
      exact .pure h rfl

end Constraints

private theorem addConstraint_tied (h : Alike c M db db') (definition : ConstraintDefinition) :
    Tied c M Equal (addConstraint c definition db) (addConstraint c definition db') := by
  refine .bind_statement_look (h.getSchema_agree definition.schema) h fun _ s ⟨rfl, hs⟩ => ?_
  refine .bind_statement_look (h.getTable_agree hs definition.table) h fun t t' ht => ?_
  refine (h.rejectView_tied ht).bind fun M' _ _ db db' hle h _ => ?_
  have hs := hle.schemas s hs
  have ht := hle.objects t t' ht
  cases definition.kind with
  | check expression => exact h.addCheckTo_tied ht expression
  | primaryKey => exact h.addPrimaryKey_tied hs ht definition
  | unique => exact h.addUnique_tied hs ht definition
  | referential refTable refColumns =>
    exact h.addForeignKey_tied hs ht definition refTable refColumns

section Objects

variable (h : Alike c M db db')

include h

private theorem createObject_tied (schemaName : String) (kind : ObjectKind) (name : String)
    (body : ObjectBody) (message : String) :
    Tied c M Equal (createObject schemaName kind name body message db)
      (createObject schemaName kind name body message db') := by
  refine (h.schemaForCreate_tied schemaName kind name false).bind
    fun M' _ s? db db' _ h ⟨rfl, _⟩ => ?_
  cases s? with
  | none => exact .pure h rfl
  | some s =>
    refine (h.newObject_tied s name body).bind fun M' o o' db db' _ h ho => ?_
    exact (h.addObject_tied ho).lift.then_pure _

private theorem createSequence_tied (schemaName name : String) (start increment : Int64) :
    Tied c M Equal (createSequence schemaName name start increment db)
      (createSequence schemaName name start increment db') := by
  rw [createSequence]
  split
  · exact h.reject_tied _
  · exact h.createObject_tied schemaName .sequence name _ _

private theorem createFunctionAlias_tied (schemaName name target : String) (deterministic : Bool) :
    Tied c M Equal (createFunctionAlias schemaName name target deterministic db)
      (createFunctionAlias schemaName name target deterministic db') :=
  (h.validateName_tied _ target).bind fun _ _ _ _ _ _ h _ =>
    h.createObject_tied schemaName .functionAlias name _ _

private theorem rename_statement_tied (schemaName : String) (kind : ObjectKind)
    (oldName newName : String) :
    Tied c M Equal (Execution.rename schemaName kind oldName newName db)
      (Execution.rename schemaName kind oldName newName db') := by
  refine (h.validateName_tied kind.text newName).bind fun M' _ _ db db' _ h _ => ?_
  refine .bind_statement_look (h.getSchema_agree schemaName) h fun _ s ⟨rfl, hs⟩ => ?_
  refine .bind_statement_look (h.getObject_agree hs kind oldName) h fun o o' ho => ?_
  exact (h.renameObject_tied ho newName).lift.then_pure _

end Objects

section Tables

variable (h : Alike c M db db')

include h

private theorem referenceIds_tied (hs : M.schemas s) (names : List String) :
    Tied c M Equal (referenceIds c s names db) (referenceIds c s names db') := by
  induction names generalizing M db db' with
  | nil => exact .pure h rfl
  | cons name names ih =>
    rw [referenceIds, List.mapM_cons]
    have hfirst : Tied c M Equal
        ((do let t ← s.getTable (some c) name
             return ((← get).object t).id : ExecM UInt32) db)
        ((do let t ← s.getTable (some c) name
             return ((← get).object t).id : ExecM UInt32) db') := by
      refine .bind_statement_look (h.getTable_agree hs name) h fun t t' ht => .get_bind ?_
      rw [h.object t t' ht]
      exact .pure h rfl
    refine hfirst.bind fun M' id id' db db' hle h hid => ?_
    rw [hid]
    refine (ih h (hle.schemas s hs)).bind fun M'' ids ids' db db' _ h hids => ?_
    rw [hids]
    exact .pure h rfl

private theorem registerTable_tied (ht : M.objects t t') (scope : TableScope) :
    Tied c M Equal (registerTable c scope t db) (registerTable c scope t' db') := by
  cases scope with
  | localTemporary => exact (h.addTempTable_tied ht).lift
  | persistent | globalTemporary => exact (h.addObject_tied ht).lift

private theorem createTable_tied (definition : TableDefinition) :
    Tied c M Equal (createTable c definition db) (createTable c definition db') := by
  rw [createTable]
  refine (h.schemaForCreate_tied definition.schema .tableOrView definition.tableName
    definition.ifNotExists).bind fun M' _ s? db db' _ h ⟨rfl, hs⟩ => ?_
  cases s? with
  | none => exact .pure h rfl
  | some s =>
    refine .get_bind ?_
    have hfind : Option.Rel M'.objects (c.tempTable? definition.tableName db)
        (c.tempTable? definition.tableName db') := h.tables.get? definition.tableName
    rw [isSome_of_rel hfind]
    split
    · exact h.refuse_tied _
    · refine (h.referenceIds_tied (hs s rfl) definition.references).bind
        fun M' ids ids' db db' _ h hids => ?_
      rw [hids]
      refine (h.newObject_tied s definition.tableName _).bind fun M' t t' db db' _ h ht => ?_
      exact (h.registerTable_tied ht definition.scope).then_pure _

private theorem dropTable_tied (schemaName name : String) (ifExists : Bool) :
    Tied c M Equal (dropTable c schemaName name ifExists db)
      (dropTable c schemaName name ifExists db') := by
  refine .bind_statement_look (h.getSchema_agree schemaName) h fun _ s ⟨rfl, hs⟩ => ?_
  refine .bind_statement_look (h.findTable_agree hs name) h fun t? t'? ht => ?_
  cases ht with
  | none =>
    dsimp only
    split
    · exact .pure h rfl
    · exact h.refuse_tied _
  | some ht => exact (h.removeObject_tied ht).lift.then_pure _

end Tables

section Schemas

variable (h : Alike c M db db')

include h

private theorem createSchema_statement_tied (name : String) (ifNotExists : Bool) :
    Tied c M Equal (Execution.createSchema c name ifNotExists db)
      (Execution.createSchema c name ifNotExists db') := by
  refine (h.validateName_tied "schema" name).bind fun M' _ _ db db' _ h _ => .get_bind ?_
  rw [h.findSchema_eq]
  split
  · exact .pure h rfl
  · refine .get_bind ?_
    rw [h.user]
    exact (h.createSchema_tied name _).lift.then_pure _

private theorem dropSchema_statement_tied (hdb : db.WellFormed) (hdb' : db'.WellFormed)
    (name : String) (ifExists : Bool) :
    Tied c M Equal (Execution.dropSchema c name ifExists db)
      (Execution.dropSchema c name ifExists db') := by
  refine .get_bind ?_
  rw [h.findSchema_eq]
  cases hname : db.findSchema name with
  | none =>
    dsimp only
    split
    · exact .pure h rfl
    · exact h.refuse_tied _
  | some s =>
    have hs := h.schemas_of_find hname
    refine .bind_statement_look (h.objects_agree hs) h fun objects objects' hobjects => ?_
    rw [hobjects.length_eq]
    exact (h.dropSchema_tied hdb hdb' (some c) name).lift.then_pure _

end Schemas

end Alike

/-- A statement has the same result in databases that match for its session, and they match again
when it has run. -/
theorem Statement.execute_tied (h : Alike c M db db') (hdb : db.WellFormed) (hdb' : db'.WellFormed)
    (statement : Statement) :
    Tied c M Equal (statement.execute c db) (statement.execute c db') := by
  cases statement with
  | createSchema name ifNotExists => exact h.createSchema_statement_tied name ifNotExists
  | dropSchema name ifExists => exact h.dropSchema_statement_tied hdb hdb' name ifExists
  | createTable definition => exact h.createTable_tied definition
  | dropTable schema name ifExists => exact h.dropTable_tied schema name ifExists
  | createIndex definition => exact h.createIndex_tied definition
  | dropIndex schema name ifExists => exact h.dropIndex_tied schema name ifExists
  | createSequence schema name start increment =>
    exact h.createSequence_tied schema name start increment
  | createConstant schema name value => exact h.createObject_tied schema .constant name _ _
  | createFunctionAlias schema name target deterministic =>
    exact h.createFunctionAlias_tied schema name target deterministic
  | rename schema kind oldName newName =>
    exact h.rename_statement_tied schema kind oldName newName
  | alterColumn change => exact h.alterColumn_tied change
  | addConstraint definition => exact h.addConstraint_tied definition
  | truncateTable schema name => exact .throw h
  | dml kind => exact .throw h
  | transaction kind => exact .throw h

end SchemaCatalog
