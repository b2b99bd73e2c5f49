import SchemaCatalog.Proofs.StatementSteps
/-!
# Runs turn by turn

Runs of any length from any database, in which an action may be allowed in one state and forbidden
in another. Statements go in steps; in all other turns objects only leave their places. Where
objects are does not depend on their ids, so there is no end to the ids that a run may give out.
-/
namespace SchemaCatalog

open Database Relation

namespace Database

section Clears

variable {db db' db'' : Database} {c : SessionRef} {gone : List ObjectRef} {t i : ObjectRef}

/-- Objects leave their places, an index when its table does, and no table changes. -/
structure Clears (db db' : Database) : Prop where
  placed : db'.Placed
  lessens : Lessens db db'
  carries : ∀ t i, db.Carries t i → db'.Present i → db'.Carries t i
  tables : ∀ o, db'.tableOf o = db.tableOf o

private theorem Clears.trans (h : Clears db db') (h' : Clears db' db'') : Clears db db'' where
  placed := h'.placed
  lessens := h.lessens.trans h'.lessens
  carries := fun t i hon hi => h'.carries t i (h.carries t i hon (h'.lessens.present hi)) hi
  tables := fun o => (h'.tables o).trans (h.tables o)

namespace Placed

private theorem clears_refl (h : db.Placed) : Clears db db :=
  ⟨h, .refl db, fun _ _ hon _ => hon, fun _ => rfl⟩

private theorem clears_samePlaces (h : db.Placed) (hsame : SamePlaces db db')
    (htables : ∀ o, db'.tableOf o = db.tableOf o) : Clears db db' :=
  ⟨h.samePlaces hsame, hsame.lessens, fun _ _ hon _ => hon.samePlaces hsame, htables⟩

private theorem clears_tempDropped (h : db.Placed) (hdropped : TempDropped c gone db db')
    (htakes : db.TakesAlong c gone) : Clears db db' where
  placed := h.tempDropped hdropped htakes
  lessens := h.lessens_tempDropped hdropped
  carries := fun _ _ hon => h.carries_tempDropped hdropped htakes hon
  tables := by
    intro o
    rw [tableOf, hdropped.object]
    split <;> rfl

/-- A new session keeps nothing, whatever there was in its slot. -/
private theorem clears_withSession (h : db.Placed) (user : Principal) (rule : CaseRule) :
    Clears db (Database.withSession user rule db) := by
  have hless := lessens_withSession user rule db
  refine ⟨h.withSession user rule, hless, fun t i hon hi => ?_, fun _ => rfl⟩
  refine h.carries_of_lessens hless hon ?_ hi
  rcases hon.beside with ⟨s, ht, -⟩ | ⟨d, ht, hmem⟩
  · exact .inl ⟨s, _, ht⟩
  · have hd : d ≠ ⟨db.sessionStore.next⟩ := by
      rintro rfl
      rcases hi with ⟨s, hi⟩ | ⟨e, hi⟩
      · exact h.apart _ s i (.inr hmem) hi
      · obtain rfl := h.sessions.keeper _ e i (.inr hmem) (hless.keeps hi)
        rw [Keeps, session_withSession, if_pos rfl] at hi
        rcases hi with hi | hi <;> cases hi
    refine .inr ⟨d, .inl ?_⟩
    rwa [session_withSession, if_neg hd]

private theorem clears_openSession (h : db.Placed) (user : Principal) :
    Clears db (db.openSession user).2 := by
  have hnew := h.clears_withSession user db.rule
  exact hnew.trans (hnew.placed.clears_samePlaces (samePlaces_of_stores _) fun _ => rfl)

/-- What an open session keeps leaves it when it is closed. -/
private theorem clears_close (h : db.Placed) (c : SessionRef) : Clears db (c.close db) := by
  cases hactive : (db.session c).active with
  | false =>
    rw [SessionRef.close, hactive]
    exact h.clears_refl
  | true =>
    obtain ⟨gone, hdropped, -, hindexes⟩ := (h.tidy c).tempDropped_close hactive
    have hclosed := h.clears_samePlaces (samePlaces_deactivated c db) fun _ => rfl
    refine hclosed.trans (hclosed.placed.clears_tempDropped hdropped fun t _ htable i hi hid => ?_)
    rw [(temps_deactivated c c db).1] at htable
    rw [(temps_deactivated c c db).2] at hi
    exact hindexes t htable i hi hid

private theorem clears_removeSession (h : db.Placed) (c : SessionRef) :
    Clears db (db.removeSession c).2 := by
  rw [removeSession]
  split
  · have hstruck : Clears db { db with openSessions := db.openSessions.erase c } :=
      h.clears_samePlaces (samePlaces_of_stores db) fun _ => rfl
    exact hstruck.trans (hstruck.placed.clears_close c)
  · exact h.clears_refl

end Placed

end Clears

end Database

section Turns

variable {allowed : Database → Action → Prop} {db db' start : Database}

/-- The action is not a statement. -/
def Action.Idle : Action → Prop
  | execute _ _ => False
  | _ => True

private theorem Action.statement_or_idle (action : Action) :
    (∃ c statement, action = .execute c statement) ∨ action.Idle := by
  cases action with
  | execute c statement => exact .inl ⟨c, statement, rfl⟩
  | _ => exact .inr trivial

/-- Whatever is not a statement only lets objects leave. -/
theorem Action.clears (h : db.Placed) {action : Action} (hidle : action.Idle) :
    Clears db (action.run db) := by
  cases action with
  | execute c statement => exact hidle.elim
  | openSession user => exact h.clears_openSession user
  | closeSession c => exact h.clears_close c
  | removeSession c => exact h.clears_removeSession c
  | createUser name admin =>
    obtain ⟨users, nextId, -, hafter⟩ := stateAfter_createUser db name admin
    rw [Action.run, hafter]
    exact h.clears_samePlaces (samePlaces_of_stores db) fun _ => rfl
  | dropUser name =>
    obtain ⟨users, hafter⟩ := stateAfter_dropUser db name
    rw [Action.run, hafter]
    exact h.clears_samePlaces (samePlaces_of_stores db) fun _ => rfl

/-- What can come next: an action that is allowed here, or a session with a case rule of its own. -/
inductive Turns (allowed : Database → Action → Prop) (db : Database) : Database → Prop
  | act (action : Action) (hallowed : allowed db action) : Turns allowed db (action.run db)
  | session (user : Principal) (rule : CaseRule) : Turns allowed db (withSession user rule db)

/-- A run of any length. -/
def Becomes (allowed : Database → Action → Prop) : Database → Database → Prop :=
  ReflTransGen (Turns allowed)

/-- Each of the actions is allowed where those before it have led. -/
def InTurn (allowed : Database → Action → Prop) (db : Database) : List Action → Prop
  | [] => True
  | action :: actions => allowed db action ∧ InTurn allowed (action.run db) actions

theorem InTurn.becomes {actions : List Action} (h : InTurn allowed db actions) :
    Becomes allowed db (actions.foldl (fun db action => action.run db) db) := by
  induction actions generalizing db with
  | nil => exact .refl
  | cons action actions ih => exact .head (.act action h.1) (ih h.2)

theorem Turns.clears (h : Turns (fun _ action => action.Idle) db db') (hdb : db.Placed) :
    Clears db db' := by
  cases h with
  | act action hidle => exact Action.clears hdb hidle
  | session user rule => exact hdb.clears_withSession user rule

theorem Turns.placed (h : Turns allowed db db') (hdb : db.Placed) : db'.Placed := by
  cases h with
  | act action _ =>
    rcases action.statement_or_idle with ⟨c, statement, rfl⟩ | hidle
    · exact statement.placed hdb c
    · exact (Action.clears hdb hidle).placed
  | session user rule => exact hdb.withSession user rule

theorem Becomes.placed (h : Becomes allowed start db) (hstart : start.Placed) : db.Placed := by
  induction h with
  | refl => exact hstart
  | tail _ hlast ih => exact hlast.placed ih

/-- What the steps of allowed statements keep, and all other turns, holds in the whole run. -/
theorem Becomes.invariant {P : Database → Prop} (h : Becomes allowed start db)
    (hstart : start.Placed) (hfirst : P start)
    (hsteps : ∀ c statement start db db', allowed start (.execute c statement) → db.Placed →
      statement.Steps c start start db → statement.Step c start db db' → P db → P db')
    (hidle : ∀ db db', db.Placed → Turns (fun _ action => action.Idle) db db' → P db → P db') :
    P db := by
  induction h with
  | refl => exact hfirst
  | @tail mid last hbefore hlast ih =>
    have hmid := Becomes.placed hbefore hstart
    cases hlast with
    | act action hallowed =>
      rcases action.statement_or_idle with ⟨c, statement, rfl⟩ | hother
      · have hkept : ∀ {db'}, statement.Steps c mid mid db' → P db' := by
          intro db' hrun
          induction hrun with
          | refl => exact ih
          | tail hmore hstep hP =>
            exact hsteps c statement mid _ _ hallowed (Statement.Steps.placed hmore hmid) hmore
              hstep hP
        exact hkept (statement.steps_execute hmid c)
      · exact hidle mid _ hmid (.act action hother) ih
    | session user rule => exact hidle mid _ hmid (.session user rule) ih

end Turns

end SchemaCatalog
