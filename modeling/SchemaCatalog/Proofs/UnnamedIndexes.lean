import SchemaCatalog.Proofs.FirstFreeName
import SchemaCatalog.Proofs.IndexUndo
/-!
# Indexes without a name

An index that is made without a name always gets one. Its name begins as the names of its kind do and
was neither reserved in the schema nor that of an index in the same place, so nothing can stand in its
way any more, however many names are live or reserved. In the end the name is registered and no longer
reserved, and nothing else has changed.
-/
namespace SchemaCatalog

open Database Execution

variable {db db' : Database} {c : SessionRef} {s : SchemaRef} {t : ObjectRef} {base stem : String}

private theorem stem_of_reserve {live : NameMap ObjectRef} {r : Reservation}
    (h : s.reserve base stem live db = (r, db')) : ∃ rest, r.name = stem ++ rest := by
  obtain ⟨i, -, hname⟩ := first_of_reserve h
  exact ⟨_, hname.trans (candidateName_eq stem (Text.digest base) i)⟩

/-- An index was made without a name: it is the one that was asked for, its name was free, and all
that it leaves in the reserved names is that a token was given out. -/
structure UnnamedMade (c : SessionRef) (s : SchemaRef) (t : ObjectRef)
    (definition : IndexDefinition) (name : String) (db db' : Database) : Prop where
  made : IndexMade c s db.nextObject name (db.tableOf t).isLocalTemporary db db'
  index : db'.object db.nextObject = newIndex s t name definition.columns definition.kind db
  stem : ∃ rest, name = definition.kind.nameStem ++ rest
  unreserved : s.isReserved name db = false
  reservations : (db'.schema s).reservations = { (db.schema s).reservations with
    nextToken := (db.schema s).reservations.nextToken + 1 }
  nextId : db'.nextId = db.nextId + 1

/-- An index without a name can be made in every state, whatever names are live or reserved, and the
reserved names are in the end what they were. -/
theorem createIndex_unnamed {definition : IndexDefinition} (hunnamed : definition.indexName = none)
    (hname : db.findSchema definition.schema = some s)
    (htable : s.getTable (some c) definition.table db = .ok t) : ∃ name db',
      (Statement.createIndex definition).execute c db =
        .ok ⟨1, s!"Index '{name}' created"⟩ db' ∧
      UnnamedMade c s t definition name db db' := by
  have hs := mem_allSchemas_of_find hname
  have hactive := active_of_getTable htable
  obtain ⟨r, mid, hunique, hreserve, hlive, hunreserved, -, rfl⟩ :=
    uniqueIndexName_run hactive c t definition.kind.nameStem
  let reservations := (db.schema s).reservations.enter r
  let mid := withReservations s reservations db
  let added := indexAdded c s t r.name definition.columns definition.kind mid
  have hs' : s ∈ mid.allSchemas := hs
  have hadd : addTableIndex c s t r.name definition.columns definition.kind mid = .ok () added := by
    apply addTableIndex_eq hs'
    · rw [state_withReservations, hactive]
    · exact indexFree_withReservations (indexFree_iff.mpr hlive)
  have hreleased : ((added.schema s).reservations.release r) =
      { (db.schema s).reservations with
        nextToken := (db.schema s).reservations.nextToken + 1 } := by
    rw [reservations_indexAdded, reservations_withReservations]
    split
    · exact ReservationSet.release_enter hunreserved
    · rw [ReservationSet.free_enter hunreserved]
      exact ReservationSet.release_of_not_reserved hunreserved
  refine ⟨r.name, s.release r added, ?_, ?_⟩
  · have hcreate : createNamedIndex c s t definition r.name mid =
        .ok ⟨1, s!"Index '{r.name}' created"⟩ added := bind_of_ok hadd
    change createIndex c definition db = _
    rw [createIndex, bind_of_ok (statement_look_of_ok (getSchema_eq hname)),
      bind_of_ok (statement_look_of_ok htable)]
    simp only [hunnamed]
    rw [withIndexName, bind_of_ok (statement_of_ok hunique), releasing, hcreate]
  · rw [release_eq]
    exact {
      made := (IndexMade.of_addTableIndex hs' hadd).withReservations _
      index := object_indexAdded c s t r.name definition.columns definition.kind mid
      stem := stem_of_reserve hreserve
      unreserved := hunreserved
      reservations := by rw [reservations_withReservations, hreleased]
      nextId := nextId_indexAdded c s t r.name definition.columns definition.kind mid }

/-- The database with a table and an index on it, where the next name for an index of the table is
held by somebody else. -/
def withNameHeld : Database :=
  stateAfter (SchemaRef.uniqueName ⟨2⟩ "T" .index "INDEX_") withView

/-- An index on the table without a name. -/
def unnamedDefinition : IndexDefinition :=
  { schema := "APP", table := "T", indexName := none, columns := ["A"], kind := .nonUnique,
    ifNotExists := false }

-- one shorter name is live, and the other one is reserved
theorem createIndex_unnamed_withNameHeld : Reachable withView ∧
    unnamedDefinition.indexName = none ∧ withNameHeld.findSchema "APP" = some ⟨2⟩ ∧
    SchemaRef.getTable ⟨2⟩ (some ⟨0⟩) "T" withNameHeld = .ok ⟨0⟩ ∧
    SchemaRef.isReserved ⟨2⟩ "INDEX_BE" withNameHeld = true ∧ ∃ db',
      (Statement.createIndex unnamedDefinition).execute ⟨0⟩ withNameHeld =
        .ok ⟨1, "Index 'INDEX_BE0' created"⟩ db' ∧
      ∃ name, UnnamedMade ⟨0⟩ ⟨2⟩ ⟨0⟩ unnamedDefinition name withNameHeld db' := by
  have hunnamed : unnamedDefinition.indexName = none := rfl
  have hname : withNameHeld.findSchema unnamedDefinition.schema = some ⟨2⟩ := by decide +kernel
  have htable : SchemaRef.getTable ⟨2⟩ (some ⟨0⟩) unnamedDefinition.table withNameHeld = .ok ⟨0⟩ := by
    decide +kernel
  have hsucceeds : Succeeds ((Statement.createIndex unnamedDefinition).execute ⟨0⟩) withNameHeld
      fun outcome _ => outcome = ⟨1, "Index 'INDEX_BE0' created"⟩ := by
    decide +kernel
  obtain ⟨name, db', hrun, hmade⟩ := createIndex_unnamed hunnamed hname htable
  have houtcome := hsucceeds.post_of_ok hrun
  refine ⟨reachable_withView, hunnamed, hname, htable, by decide +kernel, db', ?_, name, hmade⟩
  rw [hrun, houtcome]

end SchemaCatalog
