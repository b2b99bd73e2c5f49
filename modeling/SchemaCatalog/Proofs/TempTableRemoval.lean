import SchemaCatalog.Proofs.Orphans
import SchemaCatalog.Proofs.TableRemoval
/-!
# Removing a local temporary table

A schema strikes out the very object that it is given. A session goes by the name instead: it drops
the table that it keeps under the name of the given one, with the indexes made on that table. This
is the given table only if the session keeps it; a table that was dropped before, or that another
session keeps, takes the one that has its name now with it.
-/
namespace SchemaCatalog.Database

section Names

variable {c d : SessionRef} {names names' : List String} {db db' db'' : Database} {t u : ObjectRef}

/-- The indexes that the session keeps under these names are struck off and cut off, and nothing
else is done. -/
structure NamesStruck (c : SessionRef) (names : List String) (db db' : Database) : Prop where
  entry : ∀ key i, (db'.session c).tempIndexes.entries.get? key = some i ↔
    (db.session c).tempIndexes.entries.get? key = some i ∧
      ∀ name ∈ names, key ≠ (db.session c).tempIndexes.key name
  rule : (db'.session c).tempIndexes.rule = (db.session c).tempIndexes.rule
  object : ∀ o, db'.object o =
    if ∃ name ∈ names, (db.session c).tempIndexes.get? name = some o then (db.object o).invalidate
    else db.object o
  session : db'.session c =
    { db.session c with tempIndexes := (db'.session c).tempIndexes }
  others : ∀ d, d ≠ c → db'.session d = db.session d
  rest : db' = { db with objectStore := db'.objectStore, sessionStore := db'.sessionStore }

namespace NamesStruck

private theorem none (c : SessionRef) (db : Database) : NamesStruck c [] db db where
  entry := by simp
  rule := rfl
  object := by simp
  session := rfl
  others := fun _ _ => rfl
  rest := rfl

private theorem key_eq (h : NamesStruck c names db db') (name : String) :
    (db'.session c).tempIndexes.key name = (db.session c).tempIndexes.key name := by
  rw [NameMap.key, h.rule, NameMap.key]

private theorem one (c : SessionRef) (name : String) (db : Database) :
    NamesStruck c [name] db (c.dropTempIndex name db).2 := by
  rw [SessionRef.dropTempIndex, SessionRef.tempIndex?]
  cases hfind : (db.session c).tempIndexes.get? name with
  | none =>
    refine { NamesStruck.none c db with entry := fun key i => ?_, object := by simp [hfind] }
    -- no entry has the key of the name
    refine (and_iff_left_of_imp fun hi => ?_).symm
    rintro name' hname rfl
    rw [List.mem_singleton.mp hname] at hi
    exact absurd (hfind.symm.trans hi) (by simp)
  | some i =>
    have hsession : ∀ d, ((indexForgotten c name db).modifyObject i Object.invalidate).session d =
        if d = c then
          { db.session c with tempIndexes := (db.session c).tempIndexes.erase name }
        else db.session d := fun d => session_modifySession ..
    have hown := hsession c
    rw [if_pos rfl] at hown
    change NamesStruck c [name] db ((indexForgotten c name db).modifyObject i Object.invalidate)
    exact {
      entry := by
        intro key other
        rw [hown, NameMap.entries_erase, SortedMap.get?_erase]
        by_cases hkey : (db.session c).tempIndexes.key name = key
        · simp [hkey]
        · simp [hkey, Ne.symm hkey]
      rule := by rw [hown]; rfl
      object := by
        intro o
        rw [object_modifyObject]
        by_cases ho : o = i
        · simp only [ho, hfind, List.mem_singleton, exists_eq_left, if_true]
          rfl
        · simp only [hfind, List.mem_singleton, exists_eq_left, Option.some.injEq, Ne.symm ho, ho,
            if_false]
          rfl
      session := by rw [hown]
      others := fun d hd => (hsession d).trans (if_neg hd)
      rest := rfl }

/-- First some names, then some more. -/
private theorem trans (h : NamesStruck c names db db') (h' : NamesStruck c names' db' db'') :
    NamesStruck c (names ++ names') db db'' where
  entry := by
    intro key i
    simp only [h'.entry, h.entry, h.key_eq, List.forall_mem_append, and_assoc]
  rule := h'.rule.trans h.rule
  object := by
    intro o
    rw [h'.object, h.object]
    by_cases hfirst : ∃ name ∈ names, (db.session c).tempIndexes.get? name = some o
    · have hany : ∃ name ∈ names ++ names', (db.session c).tempIndexes.get? name = some o := by
        obtain ⟨name, hname, hget⟩ := hfirst
        exact ⟨name, List.mem_append_left _ hname, hget⟩
      rw [if_pos hfirst, if_pos hany]
      split <;> rfl
    · -- an index that none of the first names finds is still there for the others
      have hlater : (∃ name ∈ names', (db'.session c).tempIndexes.get? name = some o) ↔
          ∃ name ∈ names ++ names', (db.session c).tempIndexes.get? name = some o := by
        constructor
        · rintro ⟨name, hname, hget⟩
          rw [NameMap.get?, h.key_eq] at hget
          exact ⟨name, List.mem_append_right _ hname, ((h.entry _ _).mp hget).1⟩
        · rintro ⟨name, hname, hget⟩
          rcases List.mem_append.mp hname with hname | hname
          · exact absurd ⟨name, hname, hget⟩ hfirst
          · refine ⟨name, hname, ?_⟩
            rw [NameMap.get?, h.key_eq]
            refine (h.entry _ _).mpr ⟨hget, fun name' hname' hkey => hfirst ⟨name', hname', ?_⟩⟩
            rwa [NameMap.get?, ← hkey]
      simp only [if_neg hfirst, hlater]
  session := by rw [h'.session, h.session]
  others := fun d hd => (h'.others d hd).trans (h.others d hd)
  rest := by rw [h'.rest, h.rest]

private theorem all (c : SessionRef) (names : List String) (db : Database) :
    NamesStruck c names db (names.foldl (fun db name => (c.dropTempIndex name db).2) db) := by
  induction names generalizing db with
  | nil => exact .none c db
  | cons name names ih => exact (one c name db).trans (ih _)

end NamesStruck

end Names

/-- The session keeps the index under the name of one that was made on the table. -/
def UnderIndexName (db : Database) (c : SessionRef) (t o : ObjectRef) : Prop :=
  ∃ i ∈ c.tempIndexesOf (db.object t).id db,
    (db.session c).tempIndexes.get? (db.nameOf i) = some o

/-- The session has dropped the table `t` that it kept under a name, and what it kept under the names
of the indexes made on `t`. -/
structure TempTableDropped (c : SessionRef) (name : String) (t : ObjectRef)
    (db db' : Database) : Prop where
  tables : (db'.session c).tempTables = (db.session c).tempTables.erase name
  indexes : ∀ key i, (db'.session c).tempIndexes.entries.get? key = some i ↔
    (db.session c).tempIndexes.entries.get? key = some i ∧
      ∀ owned ∈ c.tempIndexesOf (db.object t).id db,
        key ≠ (db.session c).tempIndexes.key (db.nameOf owned)
  invalidated : ∀ o, o = t ∨ db.UnderIndexName c t o → db'.object o = (db.object o).invalidate
  otherObjects : ∀ o, o ≠ t → ¬ db.UnderIndexName c t o → db'.object o = db.object o
  session : db'.session c = { db.session c with
    tempTables := (db'.session c).tempTables, tempIndexes := (db'.session c).tempIndexes }
  otherSessions : ∀ d, d ≠ c → db'.session d = db.session d
  rest : db' = { db with objectStore := db'.objectStore, sessionStore := db'.sessionStore }

section Removal

variable {c : SessionRef} {db db' : Database} {t u dropped : ObjectRef} {name : String}
  {e : CatalogError}

private theorem tempTableDropped (hfind : (db.session c).tempTables.get? name = some t) :
    TempTableDropped c name t db (c.dropTempTable name db).2 := by
  have hown := session_tableForgotten c name db c
  rw [if_pos rfl] at hown
  have hlist : c.tempIndexesOf (db.object t).id (tableForgotten c name db) =
      c.tempIndexesOf (db.object t).id db := by
    rw [SessionRef.tempIndexesOf, hown]
    rfl
  have hstruck := NamesStruck.all c ((c.tempIndexesOf (db.object t).id db).map db.nameOf)
    (tableForgotten c name db)
  have hdrop : (c.dropTempTable name db).2 =
      (((c.tempIndexesOf (db.object t).id db).map db.nameOf).foldl
        (fun db name => (c.dropTempIndex name db).2)
        (tableForgotten c name db)).modifyObject t Object.invalidate := by
    rw [← hlist, SessionRef.dropTempTable, SessionRef.tempTable?, hfind]
    rfl
  rw [hdrop]
  generalize ((c.tempIndexesOf (db.object t).id db).map db.nameOf).foldl
    (fun db name => (c.dropTempIndex name db).2) (tableForgotten c name db) = mid at hstruck
  have hunder : ∀ o, (∃ owned ∈ (c.tempIndexesOf (db.object t).id db).map db.nameOf,
      ((tableForgotten c name db).session c).tempIndexes.get? owned = some o) ↔
        db.UnderIndexName c t o := by
    intro o
    simp only [hown, List.mem_map, exists_exists_and_eq_and, UnderIndexName]
  have hsession := hstruck.session
  rw [hown] at hsession
  exact {
    tables := congrArg Session.tempTables hsession
    indexes := by
      have hentry := hstruck.entry
      simp only [hown, List.forall_mem_map] at hentry
      exact hentry
    invalidated := by
      intro o ho
      rw [object_modifyObject]
      by_cases heq : o = t
      · rw [if_pos heq, heq, hstruck.object]
        split <;> rfl
      · rw [if_neg heq, hstruck.object, if_pos ((hunder o).mpr (ho.resolve_left heq))]
        rfl
    otherObjects := by
      intro o hne hnot
      rw [object_modifyObject, if_neg hne, hstruck.object, if_neg (mt (hunder o).mp hnot)]
      rfl
    session := by
      change mid.session c = { db.session c with
        tempTables := (mid.session c).tempTables, tempIndexes := (mid.session c).tempIndexes }
      rw [hsession]
    otherSessions := by
      intro d hd
      have hother := hstruck.others d hd
      rw [session_tableForgotten, if_neg hd] at hother
      exact hother
    rest := by
      have hrest := hstruck.rest
      simp only [tableForgotten, modifySession] at hrest
      rw [hrest]
      rfl }

/-- A session that is asked to remove a local temporary table that nothing reads drops the table that
it keeps under its name. -/
private theorem removeObject_eq_of_unread (hlocal : (db.tableOf t).isLocalTemporary = true)
    (hunread : db.findDependent t t = none) : removeObject (some c) t db =
      if (db.session c).tempTables.get? (db.nameOf t) = none then
        .error (.notFound .tableOrView (db.nameOf t)) db
      else .ok () (c.dropTempTable (db.nameOf t) db).2 := by
  have hsession : SchemaRef.sessionFor (some c) t db = .ok c := rfl
  rw [removeObject_of_table (kind_of_isLocalTemporary hlocal), removeTable, get_bind_run]
  simp only [hunread, hlocal, if_true]
  rw [removeTempTable, bind_of_ok (lift_of_ok hsession), get_bind_run]
  cases hfind : c.tempTable? (db.nameOf t) db with
  | none =>
    have hdrop : c.dropTempTable (db.nameOf t) db = (none, db) := by
      rw [SessionRef.dropTempTable, hfind]
    have hmissing : (db.session c).tempTables.get? (db.nameOf t) = none := hfind
    rw [bind_of_ok (modifyGet_run hdrop), if_pos hmissing]
    rfl
  | some dropped =>
    have hdrop : c.dropTempTable (db.nameOf t) db =
        (some dropped, (c.dropTempTable (db.nameOf t) db).2) := by
      rw [SessionRef.dropTempTable, hfind]
    have hfound : (db.session c).tempTables.get? (db.nameOf t) ≠ none := fun hnone =>
      absurd (hnone.symm.trans hfind) (by simp)
    rw [bind_of_ok (modifyGet_run hdrop), if_neg hfound]
    rfl

/-- Whether a local temporary table is removed through a session is up to its readers and its name
only: the table that goes is the one that the session keeps under this name, and it is the given one
exactly if the session keeps that one under its name. With it go the indexes made on it, and the rest
of the database stays, also when the removal is refused. -/
theorem removeObject_localTemporary (hlocal : (db.tableOf t).isLocalTemporary = true)
    (c : SessionRef) :
    ((∃ db', removeObject (some c) t db = .ok () db') ↔
      (∀ u, ¬ db.ReadByOther t u) ∧ (db.session c).tempTables.get? (db.nameOf t) ≠ none) ∧
    (∀ db', removeObject (some c) t db = .ok () db' → ∃ dropped,
      (db.session c).tempTables.get? (db.nameOf t) = some dropped ∧
        TempTableDropped c (db.nameOf t) dropped db db' ∧
        (db.Tidy c → TempDropped c (c.tempIndexesOf (db.object dropped).id db ++ [dropped]) db db' ∧
          (dropped = t ↔ t ∈ (db.session c).tempTables.values))) ∧
    ∀ e db', removeObject (some c) t db = .error e db' → db' = db ∧
      ((∃ u, db.ReadByOther t u ∧ e = .cannotDrop (db.nameOf t) (db.nameOf u)) ∨
        (db.session c).tempTables.get? (db.nameOf t) = none ∧
          e = .notFound .tableOrView (db.nameOf t)) := by
  cases hfind : db.findDependent t t with
  | some u =>
    have hread := readByOther_of_findDependent hfind
    rw [removeObject_of_table (kind_of_isLocalTemporary hlocal), removeTable_of_read hfind]
    refine ⟨⟨?_, fun h => absurd hread (h.1 u)⟩, ?_, ?_⟩
    · rintro ⟨db', hrun⟩
      cases hrun
    · intro db' hrun
      cases hrun
    · intro e db' hrun
      cases hrun
      exact ⟨rfl, .inl ⟨u, hread, rfl⟩⟩
  | none =>
    have hunread := not_readByOther_of_findDependent hfind
    rw [removeObject_eq_of_unread hlocal hfind]
    cases hkept : (db.session c).tempTables.get? (db.nameOf t) with
    | none =>
      rw [if_pos rfl]
      refine ⟨⟨?_, fun h => absurd rfl h.2⟩, ?_, ?_⟩
      · rintro ⟨db', hrun⟩
        cases hrun
      · intro db' hrun
        cases hrun
      · intro e db' hrun
        cases hrun
        exact ⟨rfl, .inr ⟨rfl, rfl⟩⟩
    | some dropped =>
      rw [if_neg (by simp)]
      refine ⟨⟨fun _ => ⟨hunread, by simp⟩, fun _ => ⟨_, rfl⟩⟩, ?_, ?_⟩
      · intro db' hrun
        cases hrun
        refine ⟨dropped, rfl, tempTableDropped hkept, fun htidy =>
          ⟨htidy.tempDropped_table hkept, ?_⟩⟩
        rw [htidy.tableNames.mem_values_iff, hkept, Option.some.injEq]
      · intro e db' hrun
        cases hrun

/-- Drop the local temporary table and make it again, with its index. -/
def replacedTableActions : List Action :=
  [.execute ⟨0⟩ (.dropTable "APP" "L" false),
    .execute ⟨0⟩ (.createTable
      { schema := "APP", tableName := "L", columns := [.plain "A" "INT"], kind := .table,
        scope := .localTemporary, references := [], ifNotExists := false }),
    .execute ⟨0⟩ (.createIndex
      { schema := "APP", table := "L", indexName := some "J", columns := ["A"], kind := .nonUnique,
        ifNotExists := false })]

/-- The database with a local temporary table in place of one that was dropped. -/
def withReplacedTable : Database :=
  replacedTableActions.foldl (fun db action => action.run db) withTempIndex

private theorem reachable_withReplacedTable : Reachable withReplacedTable := by
  rw [withReplacedTable, replacedTableActions]
  simp only [List.foldl_cons, List.foldl_nil]
  refine .act (.act (.act reachable_withTempIndex _ ?_) _ ?_) _ ?_
  all_goals decide +kernel

/-- The table that was dropped before takes the one with an index that has its name now. -/
theorem removeObject_localTemporary_withReplacedTable :
    Reachable withReplacedTable ∧ (withReplacedTable.tableOf ⟨2⟩).isLocalTemporary = true ∧
    withReplacedTable.Tidy ⟨0⟩ ∧ (withReplacedTable.session ⟨0⟩).tempTables.values = [⟨4⟩] ∧
    ∃ db', removeObject (some ⟨0⟩) ⟨2⟩ withReplacedTable = .ok () db' ∧
      TempDropped ⟨0⟩ [⟨5⟩, ⟨4⟩] withReplacedTable db' := by
  have hlocal : (withReplacedTable.tableOf ⟨2⟩).isLocalTemporary = true := by decide +kernel
  have htidy : withReplacedTable.Tidy ⟨0⟩ :=
    ⟨by decide +kernel, by decide +kernel, by decide +kernel, by decide +kernel⟩
  have hkept : (withReplacedTable.session ⟨0⟩).tempTables.get? (withReplacedTable.nameOf ⟨2⟩) =
      some ⟨4⟩ := by
    decide +kernel
  have hindexes : SessionRef.tempIndexesOf ⟨0⟩ (withReplacedTable.object ⟨4⟩).id
      withReplacedTable = [⟨5⟩] := by
    decide +kernel
  have hsucceeds : Succeeds (removeObject (some ⟨0⟩) ⟨2⟩) withReplacedTable fun _ _ => True := by
    decide +kernel
  obtain ⟨_, db', hrun, -⟩ := hsucceeds
  obtain ⟨-, hok, -⟩ := removeObject_localTemporary hlocal ⟨0⟩
  obtain ⟨dropped, hdropped, -, hgone⟩ := hok db' hrun
  obtain rfl := Option.some.inj (hdropped.symm.trans hkept)
  obtain ⟨hgone, -⟩ := hgone htidy
  rw [hindexes] at hgone
  exact ⟨reachable_withReplacedTable, hlocal, htidy, by decide +kernel, db', hrun, hgone⟩

end Removal

end SchemaCatalog.Database
