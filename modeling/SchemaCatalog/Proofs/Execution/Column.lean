import SchemaCatalog.Proofs.Execution.Basic
/-!
# Column statements
-/
namespace SchemaCatalog.Execution

open Database

variable {db : Database} {s : SchemaRef} {c : SessionRef} {t : ObjectRef} {schemaName : String}

section Tables

variable (hname : db.findSchema schemaName = some s) (ht : db.Visible c s t)

include hname ht

private theorem addColumnTo_settles (column : Column) :
    Settles (t.addColumn column) db fun _ db' => Changes c schemaName db db' := by
  apply Settles.get_bind
  cases htable : (db.tableOf t).addColumn? column with
  | none => exact .of_error rfl trivial
  | some table =>
    rw [Table.addColumn?] at htable
    split at htable
    · cases htable
    · cases htable
      exact .single (.tableAltered hname ht rfl rfl)

private theorem dropColumnFrom_settles (name : String) :
    Settles (t.dropColumn name) db fun _ db' => Changes c schemaName db db' := by
  apply Settles.get_bind
  cases htable : (db.tableOf t).dropColumn? name with
  | none => exact .of_error rfl trivial
  | some dropped =>
    obtain ⟨column, hcolumn, rfl⟩ := Option.map_eq_some_iff.mp htable
    exact .single (.tableAltered hname ht rfl rfl)

private theorem updateColumn_settles (name : String) (change : Column → Column) :
    Settles (t.updateColumn name change) db fun _ db' => Changes c schemaName db db' := by
  apply Settles.get_bind
  cases htable : (db.tableOf t).updateColumn? name change with
  | none => exact .of_error rfl trivial
  | some table =>
    rw [Table.updateColumn?] at htable
    split at htable
    · cases htable
      exact .single (.tableAltered hname ht rfl rfl)
    · cases htable

end Tables

theorem rejectView_settles (t : ObjectRef) (db : Database) :
    Settles (rejectView t) db fun _ db' => db' = db ∧ True := by
  apply Settles.get_bind
  dsimp only
  split
  · exact reject_settles
  · exact .pure ⟨rfl, trivial⟩

theorem indexesOf_settles (h : db.WellFormed) (hs : s ∈ db.allSchemas) (ht : db.Visible c s t) :
    Settles (liftM (indexesOf (some c) t) : ExecM (List ObjectRef)) db
      fun _ db' => db' = db ∧ True :=
  (h.indexesOf_finds hs ht).settles

private theorem primaryKeyColumns_settles (h : db.WellFormed) (hs : s ∈ db.allSchemas)
    (ht : db.Visible c s t) :
    Settles (primaryKeyColumns c t) db fun _ db' => db' = db ∧ True :=
  (indexesOf_settles h hs ht).bind_look fun _ _ => .get_bind (.pure ⟨rfl, trivial⟩)

section Alter

variable (hname : db.findSchema schemaName = some s) (ht : db.Visible c s t)

include hname ht

private theorem alterColumnBy_settles (name : String) (change : Column → Column) :
    Settles (alterColumnBy t name change) db fun _ db' => Changes c schemaName db db' :=
  (updateColumn_settles hname ht name change).lift.bind_change fun _ _ hchanges => .pure hchanges

private theorem addColumn_settles (column : Column) :
    Settles (addColumn t column) db fun _ db' => Changes c schemaName db db' :=
  (validateName_settles _ column.name db).bind_look fun _ _ =>
    (addColumnTo_settles hname ht column).lift.bind_change fun _ _ hchanges => .pure hchanges

private theorem dropColumn_settles (h : db.WellFormed) (name : String) :
    Settles (dropColumn c t name) db fun _ db' => Changes c schemaName db db' := by
  have hs := mem_allSchemas_of_find hname
  apply Settles.get_bind
  dsimp only
  split
  · exact refuse_settles trivial
  · split
    · exact reject_settles
    · refine (indexesOf_settles h hs ht).bind_look fun indexes _ => ?_
      split
      · exact refuse_settles trivial
      · exact (dropColumnFrom_settles hname ht name).lift.bind_change
          fun _ _ hchanges => .pure hchanges

private theorem changeColumnType_settles (name dataType : String) :
    Settles (changeColumnType t name dataType) db fun _ db' => Changes c schemaName db db' := by
  rw [changeColumnType]
  split
  · exact reject_settles
  · exact alterColumnBy_settles hname ht name _

private theorem setColumnNullable_settles (h : db.WellFormed) (name : String) (nullable : Bool) :
    Settles (setColumnNullable c t name nullable) db fun _ db' => Changes c schemaName db db' := by
  have hs := mem_allSchemas_of_find hname
  rw [setColumnNullable]
  split
  · refine (primaryKeyColumns_settles h hs ht).bind_look fun columns _ => ?_
    split
    · exact reject_settles
    · exact alterColumnBy_settles hname ht name _
  · exact alterColumnBy_settles hname ht name _

end Alter

theorem alterColumn_settles (h : db.WellFormed) (c : SessionRef) (change : ColumnChange) :
    Settles (alterColumn c change) db fun _ db' =>
      Changes c change.schema db db' := by
  refine (getSchema_settles db change.schema).bind_look fun s hname => ?_
  have hs := mem_allSchemas_of_find hname
  refine (h.getTable_finds hs c change.table).settles.bind_look fun t ht => ?_
  refine (rejectView_settles t db).bind_look fun _ _ => ?_
  cases change.action with
  | add column => exact addColumn_settles hname ht column
  | drop name => exact dropColumn_settles hname ht h name
  | changeType name dataType => exact changeColumnType_settles hname ht name dataType
  | setNullable name nullable => exact setColumnNullable_settles hname ht h name nullable
  | setDefault name defaultExpression => exact alterColumnBy_settles hname ht name _

end SchemaCatalog.Execution
