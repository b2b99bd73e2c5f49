import SchemaCatalog.Proofs.StableColumns
import SchemaCatalog.Proofs.Turns
/-!
# Closed sessions

A session that is closed lets go of everything that it keeps, and nothing else comes to it than the
local temporary tables that it is made to create, with their indexes. Nobody asks whether a session
is still open when it creates one, and what comes to it then stays, as a session is only emptied
when it is closed for the first time.
-/
namespace SchemaCatalog

open Database

namespace Database

variable {db : Database} {c d : SessionRef}

/-- The session keeps no table and no index. -/
def KeepsNothing (db : Database) (c : SessionRef) : Prop :=
  (db.session c).tempTables.values = [] ∧ (db.session c).tempIndexes.values = []

private theorem keepsNothing_iff : db.KeepsNothing c ↔ ∀ o, ¬ db.Keeps c o := by
  simp only [KeepsNothing, Keeps, not_or, List.eq_nil_iff_forall_not_mem, forall_and]

private theorem keepsNothing_congr {db' : Database} (h : db'.session c = db.session c) :
    db'.KeepsNothing c ↔ db.KeepsNothing c := by
  rw [KeepsNothing, h, KeepsNothing]

private theorem Placed.session_close_of_ne (h : db.Placed) (hd : d ≠ c) :
    (c.close db).session d = db.session d := by
  cases hactive : (db.session c).active with
  | false => simp [SessionRef.close, hactive]
  | true =>
    obtain ⟨gone, hdropped, -, -⟩ := (h.tidy c).tempDropped_close hactive
    rw [hdropped.others d hd, session_deactivated, if_neg hd]

/-- A session that is open has all its tables dropped when it is closed, and all its indexes are on
them. -/
private theorem Placed.keepsNothing_close (h : db.Placed) (hactive : (db.session c).active = true) :
    (c.close db).KeepsNothing c := by
  obtain ⟨gone, hdropped, htables, hindexes⟩ := (h.tidy c).tempDropped_close hactive
  rw [keepsNothing_iff]
  intro o ho
  obtain ⟨hkept, hstays⟩ := hdropped.keeps_iff.mp ho
  rw [Keeps, (temps_deactivated c c db).1, (temps_deactivated c c db).2] at hkept
  rcases hkept with ht | hi
  · exact hstays (htables o ht)
  · obtain ⟨t, ht, hid⟩ := h.sessions.covered c o hi
    exact hstays (hindexes t ht o hi hid.symm)

private theorem Placed.keepsNothing_of_close (h : db.Placed) (d : SessionRef)
    (hempty : (db.session c).active = false → db.KeepsNothing c)
    (hclosed : ((d.close db).session c).active = false) : (d.close db).KeepsNothing c := by
  by_cases hd : c = d
  · subst hd
    cases hactive : (db.session c).active with
    | true => exact h.keepsNothing_close hactive
    | false =>
      rw [SessionRef.close, hactive]
      exact hempty hactive
  · rw [h.session_close_of_ne hd] at hclosed
    rw [keepsNothing_congr (h.session_close_of_ne hd)]
    exact hempty hclosed

end Database

section Runs

variable {c d : SessionRef} {statement : Statement} {start db db' : Database}

/-- The session creates local temporary tables only while it is open. -/
def Action.CreatesOpen (c : SessionRef) (db : Database) : Action → Prop
  | execute d (.createTable definition) =>
    d = c → definition.scope = .localTemporary → (db.session c).active = true
  | _ => True

/-- An index only comes to a session that keeps its table, and a table only when it is created. -/
theorem Statement.Step.keepsNothing (h : statement.Step d start db db') (hdb : db.Placed)
    (hallowed : Action.CreatesOpen c start (.execute d statement))
    (hstart : (start.session c).active = false) (hempty : db.KeepsNothing c) :
    db'.KeepsNothing c := by
  rw [keepsNothing_iff] at hempty ⊢
  intro o ho
  rcases (h.admits hdb).keeps c o ho with hkept | ⟨-, rfl, ⟨t, ht⟩ | ⟨table, hdefines, hlocal⟩⟩
  · exact hempty o hkept
  · exact hempty t (.inl ht)
  · obtain ⟨definition, rfl, -, hscope, -⟩ := hdefines
    have hopen := hallowed rfl (hscope.symm.trans ((Table.isLocalTemporary_iff table).mp hlocal))
    rw [hstart] at hopen
    cases hopen

/-- What is not a statement does not fill a session, and empties one that it closes. -/
theorem Turns.keepsNothing (h : Turns (fun _ action => action.Idle) db db') (hdb : db.Placed)
    (hempty : (db.session c).active = false → db.KeepsNothing c)
    (hclosed : (db'.session c).active = false) : db'.KeepsNothing c := by
  cases h with
  | session user rule =>
    have hsession := session_withSession user rule db c
    split at hsession
    · rw [hsession] at hclosed
      cases hclosed
    · exact (keepsNothing_congr hsession).mpr (hempty (hsession ▸ hclosed))
  | act action hidle =>
    cases action with
    | execute d statement => exact hidle.elim
    | openSession user =>
      have hsession := session_openSession db user c
      split at hsession
      · rw [Action.run, hsession] at hclosed
        cases hclosed
      · exact (keepsNothing_congr hsession).mpr (hempty (hsession ▸ hclosed))
    | closeSession d => exact hdb.keepsNothing_of_close d hempty hclosed
    | removeSession d =>
      rw [Action.run, removeSession] at hclosed ⊢
      split at hclosed
      next hopen =>
        rw [if_pos hopen]
        have hstruck : ({ db with openSessions := db.openSessions.erase d } : Database).Placed :=
          hdb.samePlaces (samePlaces_of_stores db)
        exact hstruck.keepsNothing_of_close d hempty hclosed
      next hopen =>
        rw [if_neg hopen]
        exact hempty hclosed
    | createUser name admin =>
      obtain ⟨users, nextId, -, hafter⟩ := stateAfter_createUser db name admin
      rw [Action.run, hafter] at hclosed ⊢
      exact hempty hclosed
    | dropUser name =>
      obtain ⟨users, hafter⟩ := stateAfter_dropUser db name
      rw [Action.run, hafter] at hclosed ⊢
      exact hempty hclosed

/-- A session that only creates local temporary tables while it is open keeps nothing whenever it is
not open. -/
theorem Becomes.keepsNothing_of_closed {settings : Settings}
    (h : Becomes (Action.CreatesOpen c) (bootstrap settings) db)
    (hclosed : (db.session c).active = false) : db.KeepsNothing c := by
  refine h.invariant (P := fun db => (db.session c).active = false → db.KeepsNothing c)
    (placed_bootstrap settings) (fun _ => ⟨rfl, rfl⟩) ?_ ?_ hclosed
  · intro d statement start db db' hallowed hdb hbefore hstep hempty hclosed
    rw [hstep.active_eq] at hclosed
    exact hstep.keepsNothing hdb hallowed ((hbefore.active_eq c).symm.trans hclosed)
      (hempty hclosed)
  · exact fun db db' hdb hturn => hturn.keepsNothing hdb

/-- Close the session, and let it create a table that is not its own. -/
def closingActions : List Action :=
  [.closeSession ⟨0⟩,
    .execute ⟨0⟩ (.createTable
      { schema := "APP", tableName := "U", columns := [.plain "A" "INT"], kind := .table,
        scope := .persistent, references := [], ifNotExists := false })]

def withClosedSession : Database :=
  closingActions.foldl (fun db action => action.run db) withTempIndex

private theorem createsOpen_withClosedSession :
    Becomes (Action.CreatesOpen ⟨0⟩) (bootstrap .standard) withClosedSession := by
  have hfirst : InTurn (Action.CreatesOpen ⟨0⟩) (bootstrap .standard) tempIndexActions :=
    ⟨trivial, trivial, fun _ hscope => (by cases hscope), trivial, fun _ _ => by decide +kernel,
      trivial, trivial⟩
  have hlast : InTurn (Action.CreatesOpen ⟨0⟩) withTempIndex closingActions :=
    ⟨trivial, fun _ hscope => (by cases hscope), trivial⟩
  exact hfirst.becomes.trans hlast.becomes

theorem keepsNothing_withClosedSession :
    Becomes (Action.CreatesOpen ⟨0⟩) (bootstrap .standard) withClosedSession ∧
    (withTempIndex.session ⟨0⟩).tempTables.values = [⟨2⟩] ∧
    (withTempIndex.session ⟨0⟩).tempIndexes.values = [⟨3⟩] ∧
    (withClosedSession.session ⟨0⟩).active = false ∧ withClosedSession.KeepsNothing ⟨0⟩ := by
  have hclosed : (withClosedSession.session ⟨0⟩).active = false := by decide +kernel
  exact ⟨createsOpen_withClosedSession, by decide +kernel, by decide +kernel, hclosed,
    createsOpen_withClosedSession.keepsNothing_of_closed hclosed⟩

/-- Close a session, let it create a local temporary table, and close it again. -/
def reclosingActions : List Action :=
  [.openSession ⟨1, "SA"⟩,
    .execute ⟨0⟩ (.createSchema "APP" false),
    .closeSession ⟨0⟩,
    .execute ⟨0⟩ (.createTable
      { schema := "APP", tableName := "L", columns := [.plain "A" "INT"], kind := .table,
        scope := .localTemporary, references := [], ifNotExists := false }),
    .closeSession ⟨0⟩]

-- the statement that makes the table is not asked for an open session
example : let db := reclosingActions.foldl (fun db action => action.run db) (bootstrap .standard)
    (db.session ⟨0⟩).active = false ∧ (db.session ⟨0⟩).tempTables.values = [⟨0⟩] := by
  decide +kernel

end Runs

end SchemaCatalog
