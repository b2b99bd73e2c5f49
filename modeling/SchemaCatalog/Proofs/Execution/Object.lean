import SchemaCatalog.Proofs.Execution.Basic
/-!
# Statements on schemas and other objects

In a well-formed database every schema that is not a system schema can be dropped.
-/
namespace SchemaCatalog.Execution

open Database

variable {db : Database} {s : SchemaRef} {name : String} {kind : ObjectKind} {c : SessionRef}

private theorem createObject_settles (h : db.WellFormed) (schemaName name message : String)
    {body : ObjectBody} (hkind : body.kind = kind) (hfits : ∀ s, db.Fits s body) :
    Settles (createObject schemaName kind name body message) db fun _ db' =>
      Changes c schemaName db db' := by
  rw [createObject]
  refine (schemaForCreate_settles h schemaName kind name false).bind_look fun s? hs? => ?_
  cases s? with
  | none => exact .pure .refl
  | some s =>
    obtain ⟨hname, hs, hfree⟩ := hs? s rfl
    rw [← hkind] at hfree
    have hadd := addNewObject_eq h hs name body hfree
    refine Succeeds.settles ⟨⟨1, message⟩, entered s db.nextObject (db.withObject s name body),
      ?_, .single (.objectCreated hname hfree (hfits s))⟩
    simp only
    rw [bind_of_ok (newObject_run s name body db), bind_of_ok (statement_of_ok hadd)]
    rfl

theorem createSequence_settles (h : db.WellFormed) (schemaName name : String)
    (start increment : Int64) :
    Settles (createSequence schemaName name start increment) db fun _ db' =>
      Changes c schemaName db db' := by
  rw [createSequence]
  split
  · exact reject_settles
  · exact createObject_settles h schemaName name _ rfl fun _ => trivial

theorem createConstant_settles (h : db.WellFormed) (schemaName name value : String) :
    Settles (createConstant schemaName name value) db fun _ db' =>
      Changes c schemaName db db' :=
  createObject_settles h schemaName name _ rfl fun _ => trivial

theorem createFunctionAlias_settles (h : db.WellFormed) (schemaName name target : String)
    (deterministic : Bool) :
    Settles (createFunctionAlias schemaName name target deterministic) db
      fun _ db' => Changes c schemaName db db' :=
  (validateName_settles _ target db).bind_look fun _ _ =>
    createObject_settles h schemaName name _ rfl fun _ => trivial

section Rename

variable {o : ObjectRef} {newName schemaName : String}

/-- A registered object is renamed unless the new name is taken or it is the index of a key. -/
private theorem renameObject_settles (h : db.WellFormed) (hname : db.findSchema schemaName = some s)
    (ho : db.Holds s o) (newName : String) :
    Settles (renameObject o newName) db fun _ db' => Changes c schemaName db db' := by
  have hs := mem_allSchemas_of_find hname
  have hmem := (h.holds_iff hs).mp ho
  rw [renameObject, Settles, bind_of_ok (lift_of_ok (schemaOf_eq hs (h.schema_of_mem hs hmem))),
    get_bind_run, bind_of_ok (lift_of_ok (h.findObject_eq hs _ newName))]
  cases hfree : (db.space s (db.object o).kind).get? newName with
  | some other => exact ⟨trivial, rfl⟩
  | none =>
    have hactive := h.active s hs
    have hlive := h.get?_of_mem hs hmem
    simp only [Option.isSome_none, Bool.false_eq_true, if_false]
    cases hcheck : (db.object o).checkRename with
    | error e =>
      rw [rename_of_refused hactive hlive hfree hcheck]
      refine ⟨?_, rfl⟩
      rw [Object.checkRename] at hcheck
      split at hcheck
      · split at hcheck
        · cases hcheck
          trivial
        · cases hcheck
      · cases hcheck
    | ok =>
      rw [rename_eq_ok_iff.mpr ⟨hactive, hlive, hfree, hcheck, rfl⟩]
      exact .single (.renamed hname ho hfree)

theorem rename_settles (h : db.WellFormed) (schemaName : String) (kind : ObjectKind)
    (oldName newName : String) :
    Settles (rename schemaName kind oldName newName) db fun _ db' =>
      Changes c schemaName db db' := by
  refine (validateName_settles _ newName db).bind_look fun _ _ => ?_
  refine (getSchema_settles db schemaName).bind_look fun s hname => ?_
  have hs := mem_allSchemas_of_find hname
  refine (h.getObject_finds hs kind oldName).settles.bind_look fun o ho => ?_
  have hheld : db.Holds s o := ⟨kind, NameMap.mem_values_of_get? ho⟩
  exact (renameObject_settles h hname hheld newName).lift.bind_change fun _ db' hchanges =>
    .of_ok rfl hchanges

end Rename

private theorem createSchemaIn_settles (c : SessionRef) (name : String) (owner : Principal)
    (db : Database) : Settles (Database.createSchema name owner) db fun _ db' =>
      Changes c name db db' := by
  rw [Settles, Database.createSchema, get_bind_run]
  cases hfree : db.schemas.get? name with
  | some s =>
    have hcontains : db.schemas.contains name = true := by
      rw [NameMap.contains, hfree]
      rfl
    simp only [hcontains, if_true]
    exact ⟨trivial, rfl⟩
  | none =>
    have hcontains : db.schemas.contains name = false := NameMap.contains_eq_false.mpr hfree
    have hcreated : Changes c name db (withSchema name (some owner) false db) :=
      .single (.schemaCreated hfree)
    simp only [hcontains, Bool.false_eq_true, if_false]
    exact hcreated

theorem createSchema_settles (c : SessionRef) (name : String) (ifNotExists : Bool)
    (db : Database) :
    Settles (createSchema c name ifNotExists) db fun _ db' =>
      Changes c name db db' := by
  refine (validateName_settles _ name db).bind_look fun _ _ => .get_bind ?_
  split
  · exact .pure .refl
  · apply Settles.get_bind
    exact (createSchemaIn_settles c name _ db).lift.bind_change fun _ db' hchanges =>
      .of_ok rfl hchanges

/-- A schema that is not a system schema goes with everything in it. -/
theorem dropSchema_run (h : db.WellFormed) (c : SessionRef) (ifExists : Bool)
    (hname : db.findSchema name = some s) (hsystem : (db.schema s).system = false) :
    ∃ outcome db', dropSchema c name ifExists db = .ok outcome db' ∧
      outcome.affected = (db.schema s).registry.size + 1 ∧ Dropped name s db db' := by
  have hs := mem_allSchemas_of_find hname
  obtain ⟨db', hdrop, hdropped⟩ :=
    (h.live hs).dropSchema_of_droppable (some c) hname hsystem h.permanent (h.droppable hs)
  have hobjects : s.objects db = .ok (db.schema s).registry.all :=
    look_bind_of_ok (activeRegistry_eq (h.active s hs))
  rw [dropSchema, get_bind_run]
  simp only [hname]
  rw [bind_of_ok (statement_look_of_ok hobjects), bind_of_ok (statement_of_ok hdrop),
    ← Registry.size_eq_length_all]
  exact ⟨_, db', rfl, rfl, hdropped⟩

theorem dropSchema_settles (h : db.WellFormed) (c : SessionRef) (name : String)
    (ifExists : Bool) : Settles (dropSchema c name ifExists) db fun _ db' =>
      Changes c name db db' := by
  cases hname : db.findSchema name with
  | none =>
    apply Settles.get_bind
    simp only [hname]
    split
    · exact .pure .refl
    · exact refuse_settles trivial
  | some s =>
    cases hsystem : (db.schema s).system with
    | false =>
      obtain ⟨outcome, db', hrun, -, hdropped⟩ := dropSchema_run h c ifExists hname hsystem
      rw [Settles, hrun]
      exact .single (.schemaDropped hname hsystem hdropped)
    | true =>
      have hs := mem_allSchemas_of_find hname
      have hobjects : s.objects db = .ok (db.schema s).registry.all :=
        look_bind_of_ok (activeRegistry_eq (h.active s hs))
      have hrefused : Database.dropSchema (some c) name db = .error (.systemSchema name) db :=
        dropSchema_of_system hname hsystem
      apply Settles.get_bind
      simp only [hname]
      have hfound : Finds s.objects db fun _ => True := .of_ok hobjects trivial
      refine hfound.settles.bind_look fun _ _ => ?_
      exact (Settles.of_error hrefused trivial).lift.bind_change fun _ _ hchanges =>
        .of_ok rfl hchanges

end SchemaCatalog.Execution
