import SchemaCatalog.Proofs.Confinement
import SchemaCatalog.Proofs.Orphans
import SchemaCatalog.Proofs.TwoRuns.Execution
/-!
# Isolation

A statement of a session works in the schema that it names and on what the session keeps. It leaves
alone what is in other schemas and what other sessions keep, and what other sessions keep has no
part in its result.
-/
namespace SchemaCatalog

open Database

section Seen

variable {c d : SessionRef} {db db' : Database}

/-- Every registered schema stands for itself, and so does every object that is registered or that
the session keeps. -/
def Matching.seen (c : SessionRef) (db : Database) : Matching where
  objects o o' := o' = o ∧ (db.Registered o ∨ db.Keeps c o)
  schemas s := s ∈ db.allSchemas

/-- Databases match if nothing differs but what other sessions keep. -/
private theorem Alike.of_seen (h : db.WellFormed)
    (hobjects : ∀ o, db.Registered o ∨ db.Keeps c o → db'.object o = db.object o)
    (htables : (db'.session c).tempTables = (db.session c).tempTables)
    (hindexes : (db'.session c).tempIndexes = (db.session c).tempIndexes)
    (huser : ∀ d, (db'.session d).user = (db.session d).user)
    (hactive : ∀ d, (db'.session d).active = (db.session d).active)
    (hobjectCount : db.objectStore.next ≤ db'.objectStore.next)
    (hsessionCount : db'.sessionStore.next = db.sessionStore.next)
    (hrest : db' = { db with objectStore := db'.objectStore, sessionStore := db'.sessionStore }) :
    Alike c (.seen c db) db db' where
  object := by
    rintro o o' ⟨rfl, ho⟩
    exact hobjects o' ho
  slots := by
    rintro o o' ⟨rfl, ho⟩
    have hslot := ho.elim (h.slots o') (h.keptSlots c o')
    exact ⟨hslot, Nat.lt_of_lt_of_le hslot hobjectCount⟩
  injective := by
    rintro o o' p p' ⟨rfl, -⟩ ⟨rfl, -⟩
    exact .rfl
  listed := fun _ hs => hs
  schema := by
    intro s hs
    have hsame : db'.schema s = db.schema s := by
      rw [hrest]
      rfl
    rw [hsame]
    exact ⟨fun kind => .same fun o ho => ⟨rfl, .inl ⟨s, hs, kind, ho⟩⟩, rfl⟩
  tables := by
    rw [htables]
    exact .same fun t ht => ⟨rfl, .inr (.inl ht)⟩
  indexes := by
    rw [hindexes]
    exact .same fun i hi => ⟨rfl, .inr (.inr hi)⟩
  user := huser
  active := hactive
  schemaCount := by rw [hrest]
  sessionCount := hsessionCount
  rest := by
    rw [hrest]

/-- What another session drops of what it keeps is not seen. -/
private theorem Alike.of_tempDropped {gone : List ObjectRef} (h : db.WellFormed)
    (hatt : db.Attached) (hd : d ≠ c) (hdropped : TempDropped d gone db db') :
    Alike c (.seen c db) db db' := by
  have hsame : ∀ e, db'.session e = { db.session e with
      tempTables := (db'.session e).tempTables, tempIndexes := (db'.session e).tempIndexes } := by
    intro e
    by_cases he : e = d
    · rw [he]
      exact hdropped.session
    · rw [hdropped.others e he]
  refine .of_seen h (fun o ho => ?_) (by rw [hdropped.others c hd.symm])
    (by rw [hdropped.others c hd.symm]) (fun e => by rw [hsame e]) (fun e => by rw [hsame e])
    (Nat.le_of_eq hdropped.objectCount.symm) hdropped.sessionCount hdropped.rest
  rw [hdropped.object, if_neg]
  intro hgone
  have hkept := hdropped.kept o hgone
  rcases ho with hreg | ho
  · exact h.apart d o hkept hreg
  · exact hd (hatt.sessions.keeper d c o hkept ho)

end Seen

/-- An action of a session on a schema has nothing to do with other schemas and other sessions. -/
structure Isolated (c : SessionRef) (schemaName : String) (act : ExecM Outcome) (db : Database) :
    Prop where
  /-- Only the schema, what is registered in it, what the session keeps, and the counters change. -/
  confined : Confined c schemaName db (stateAfter act db)
  /-- What is registered in other schemas stays as it was. -/
  otherSchemas : ∀ r ∈ db.allSchemas, db.findSchema schemaName ≠ some r →
    ∀ o, db.Holds r o → (stateAfter act db).object o = db.object o
  /-- What other sessions keep stays as it was. -/
  otherSessions : ∀ d, d ≠ c → ∀ o, db.Keeps d o → (stateAfter act db).object o = db.object o
  /-- From a database in which other sessions keep something else, the result is the same, and so
  are the changes. -/
  sameResult : ∀ M db', Reachable db' → Alike c M db db' → Tied c M Equal (act db) (act db')

theorem Reachable.isolated {db : Database} (h : Reachable db) (c : SessionRef)
    (statement : Statement) {schemaName : String}
    (hname : statement.schemaName? = some schemaName) :
    Isolated c schemaName (statement.execute c) db := by
  have hdb := h.wellFormed
  have hconfined := statement.confined hdb c hname
  exact {
    confined := hconfined
    otherSchemas := fun r hr hother o ho =>
      hconfined.objects o (hdb.slots o ⟨r, hr, ho⟩) (not_inReach_of_holds hdb hr ho hother)
    otherSessions := fun d hd o ho =>
      hconfined.objects o (hdb.keptSlots d o ho) (not_inReach_of_keeps hdb h.attached ho hd)
    sameResult := fun _ _ h' halike => statement.execute_tied halike hdb h'.wellFormed }

section Example

/-- A second session beside the one that keeps a local temporary table and an index on it. -/
def withTwoSessions : Database :=
  (Action.openSession ⟨1, "SA"⟩).run withTempIndex

private theorem reachable_withTwoSessions : Reachable withTwoSessions :=
  .act reachable_withTempIndex _ (by decide +kernel)

/-- The first session has dropped its table and the index with it. -/
def withoutTempTable : Database :=
  (Action.execute ⟨0⟩ (.dropTable "APP" "L" false)).run withTwoSessions

private theorem reachable_withoutTempTable : Reachable withoutTempTable :=
  .act reachable_withTwoSessions _ (by decide +kernel)

private theorem alike_withoutTempTable :
    Alike ⟨1⟩ (.seen ⟨1⟩ withTwoSessions) withTwoSessions withoutTempTable := by
  have hreachable := reachable_withTwoSessions
  have hdrop : withoutTempTable = (SessionRef.dropTempTable ⟨0⟩ "L" withTwoSessions).2 := by
    decide +kernel
  obtain ⟨gone, hdropped, -⟩ :=
    (hreachable.attached.sessions.tidy hreachable.wellFormed ⟨0⟩).dropTempTable "L"
  rw [← hdrop] at hdropped
  exact .of_tempDropped hreachable.wellFormed hreachable.attached (by decide) hdropped

/-- A table with the name that the first session has for its own. -/
def createTableL : Statement :=
  .createTable
    { schema := "APP", tableName := "L", columns := [.plain "A" "INT"], kind := .table,
      scope := .persistent, references := ["T"], ifNotExists := false }

theorem isolated_withTwoSessions :
    Reachable withTwoSessions ∧ createTableL.schemaName? = some "APP" ∧
      Isolated ⟨1⟩ "APP" (createTableL.execute ⟨1⟩) withTwoSessions ∧
      Reachable withoutTempTable ∧
      Alike ⟨1⟩ (.seen ⟨1⟩ withTwoSessions) withTwoSessions withoutTempTable ∧
      withoutTempTable.session ⟨0⟩ ≠ withTwoSessions.session ⟨0⟩ ∧
      Tied ⟨1⟩ (.seen ⟨1⟩ withTwoSessions) Equal (createTableL.execute ⟨1⟩ withTwoSessions)
        (createTableL.execute ⟨1⟩ withoutTempTable) := by
  have hisolated := reachable_withTwoSessions.isolated ⟨1⟩ createTableL rfl
  exact ⟨reachable_withTwoSessions, rfl, hisolated, reachable_withoutTempTable,
    alike_withoutTempTable, by decide +kernel,
    hisolated.sameResult _ _ reachable_withoutTempTable alike_withoutTempTable⟩

end Example

end SchemaCatalog
