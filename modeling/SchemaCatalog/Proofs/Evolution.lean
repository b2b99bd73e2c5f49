import SchemaCatalog.Proofs.Confinement
import SchemaCatalog.Proofs.Orphans
/-!
# How databases evolve

Runs from any database to a later one, in which some actions may be forbidden and sessions of any
case rule take part. What is listed, in a schema or by a session, and drops out of the lists never
comes back: only new objects are entered.
-/
namespace SchemaCatalog

open Database Relation

namespace Database

section Listed

variable {db db' : Database} {c d : SessionRef} {schemaName : String} {s : SchemaRef}
  {o : ObjectRef}

/-- The object is registered or kept by a session. -/
def Listed (db : Database) (o : ObjectRef) : Prop :=
  db.Registered o ∨ ∃ c, db.Keeps c o

theorem WellFormed.slot_of_listed (h : db.WellFormed) (ho : db.Listed o) :
    o.slot < db.objectStore.next :=
  ho.elim (h.slots o) fun hkept => hkept.elim fun c hc => h.keptSlots c o hc

private theorem InReach.listed (h : db.InReach c schemaName o) : db.Listed o := by
  rcases h with ⟨s, hs, ho⟩ | ho
  · exact .inl ⟨s, mem_allSchemas_of_find hs, ho⟩
  · exact .inr ⟨c, ho⟩

/-- A registered schema is found under its name. -/
private theorem Consistent.findSchema_name (h : db.Consistent) (hs : s ∈ db.allSchemas) :
    db.findSchema (db.schema s).name = some s :=
  h.schemas.mem_values_iff.mp hs

/-- What is listed after a confined change and is not new was listed before. -/
private theorem Confined.listed (h : Confined c schemaName db db') (hdb : db.WellFormed)
    (hdb' : db'.WellFormed) (hslot : o.slot < db.objectStore.next) (ho : db'.Listed o) :
    db.Listed o := by
  have hkey : ∀ name, db'.schemas.key name = db.schemas.key name := by
    intro name
    rw [NameMap.key, h.rule, NameMap.key]
  rcases ho with ⟨s, hs, ho⟩ | ⟨d, ho⟩
  · have hname := hdb'.findSchema_name hs
    by_cases heq : db.schemas.key (db'.schema s).name = db.schemas.key schemaName
    · have htarget : db'.findSchema schemaName = some s := by
        rw [← hname, findSchema, findSchema, NameMap.get?, NameMap.get?, hkey, hkey, heq]
      exact (h.reach o hslot (.inl ⟨s, htarget, ho⟩)).listed
    · rw [h.registrations _ heq] at hname
      have hold := mem_allSchemas_of_find hname
      have hother : db.findSchema schemaName ≠ some s := by
        intro htarget
        exact heq ((hdb.schemas.key_of_get? hname).trans (hdb.schemas.key_of_get? htarget).symm)
      refine .inl ⟨s, hold, ?_⟩
      obtain ⟨kind, ho⟩ := ho
      rw [space, h.schemas s (hdb.schemaSlots s hold) hother] at ho
      exact ⟨kind, ho⟩
  · by_cases hd : d = c
    · rw [hd] at ho
      exact (h.reach o hslot (.inr ho)).listed
    · rw [Keeps, h.sessions d hd] at ho
      exact .inr ⟨d, ho⟩

private theorem Shrinks.listed (h : Shrinks db db') (ho : db'.Listed o) : db.Listed o :=
  ho.imp h.registered fun hkept => hkept.imp fun _ hc => h.keeps hc

private theorem listed_of_reflTransGen (h : ReflTransGen Shrinks db db') (ho : db'.Listed o) :
    db.Listed o := by
  induction h with
  | refl => exact ho
  | tail _ hlast ih => exact ih (hlast.listed ho)

end Listed

section Sessions

variable {db : Database}

/-- The database with one more session, which has a case rule of its own and is not registered. -/
def withSession (user : Principal) (rule : CaseRule) (db : Database) : Database :=
  { db with sessionStore := (db.sessionStore.push (.create user rule)).2 }

theorem session_withSession (user : Principal) (rule : CaseRule) (db : Database) (c : SessionRef) :
    (withSession user rule db).session c =
      if c = ⟨db.sessionStore.next⟩ then .create user rule else db.session c := by
  obtain ⟨slot⟩ := c
  simp only [session, withSession, Store.get_push, SessionRef.mk.injEq]

theorem shrinks_withSession (user : Principal) (rule : CaseRule) (db : Database) :
    Shrinks db (withSession user rule db) := by
  have hsession := session_withSession user rule db
  refine shrinks_sessions db (fun c => ?_) fun c => ?_
  · change ((withSession user rule db).session c).tempTables.Within _
    rw [hsession]
    split
    · exact NameMap.within_empty _ _
    · exact .refl _
  · change ((withSession user rule db).session c).tempIndexes.Within _
    rw [hsession]
    split
    · exact NameMap.within_empty _ _
    · exact .refl _

theorem SessionsInOrder.withSession (h : db.SessionsInOrder) (user : Principal) (rule : CaseRule) :
    (withSession user rule db).SessionsInOrder := by
  -- the new session is one that keeps nothing, in a slot that nobody uses
  let emptied := db.modifySession ⟨db.sessionStore.next⟩ fun _ => .create user rule
  have hnothing : ∀ o : ObjectRef, ¬ (o ∈ (Session.create user rule).tempTables.values ∨
      o ∈ (Session.create user rule).tempIndexes.values) := by
    rintro o (ho | ho) <;> cases ho
  have hemptied : emptied.SessionsInOrder :=
    h.modifySession _ (fun i hi => absurd (.inr hi) (hnothing i)) (.empty rule _)
      (fun i hi => absurd (.inr hi) (hnothing i)) fun o ho => absurd ho (hnothing o)
  have hsame : ∀ c, (Database.withSession user rule db).session c = emptied.session c := by
    intro c
    rw [session_withSession, session_modifySession]
  exact hemptied.congr (fun c => by rw [hsame]) (fun c => by rw [hsame]) fun _ _ _ => .of_eq rfl

private theorem Attached.withSession (h : db.Attached) (user : Principal) (rule : CaseRule) :
    (withSession user rule db).Attached :=
  ⟨h.covered.congr rfl (fun _ _ => rfl) fun _ _ => .of_eq rfl, h.sessions.withSession user rule⟩

end Sessions

end Database

section Evolves

variable {allowed : Action → Prop} {db db' : Database}

/-- What can come next: an allowed action that does not exhaust the ids, or a session with a case
rule of its own. -/
inductive Advances (allowed : Action → Prop) (db : Database) : Database → Prop
  | act (action : Action) (hallowed : allowed action)
    (hid : (action.run db).nextId ≤ UInt32.size) : Advances allowed db (action.run db)
  | session (user : Principal) (rule : CaseRule) : Advances allowed db (withSession user rule db)

/-- A run of any length. -/
def Evolves (allowed : Action → Prop) : Database → Database → Prop :=
  ReflTransGen (Advances allowed)

/-- A run goes on with one more action. -/
theorem Evolves.act (h : Evolves allowed db db') (action : Action) (hallowed : allowed action)
    (hid : (action.run db').nextId ≤ UInt32.size) : Evolves allowed db (action.run db') :=
  .tail h (.act action hallowed hid)

theorem Evolves.session (h : Evolves allowed db db') (user : Principal) (rule : CaseRule) :
    Evolves allowed db (withSession user rule db') :=
  .tail h (.session user rule)

/-- What holds of the databases that matter: they are well-formed, and indexes are with their
tables. -/
structure Database.InForm (db : Database) : Prop where
  wellFormed : db.WellFormed
  attached : db.Attached

theorem inForm_bootstrap (settings : Settings) : (bootstrap settings).InForm :=
  ⟨wellFormed_bootstrap settings, attached_bootstrap settings⟩

theorem Advances.inForm (h : Advances allowed db db') (hdb : db.InForm) : db'.InForm := by
  cases h with
  | act action _ hid =>
    exact ⟨action.wellFormed hdb.wellFormed hid, action.attached hdb.wellFormed hdb.attached hid⟩
  | session user rule =>
    exact ⟨hdb.wellFormed.shrinks (shrinks_withSession user rule db),
      hdb.attached.withSession user rule⟩

theorem Evolves.inForm (h : Evolves allowed db db') (hdb : db.InForm) : db'.InForm := by
  induction h with
  | refl => exact hdb
  | tail _ hlast ih => exact hlast.inForm ih

theorem Advances.lasts (h : Advances allowed db db') (hdb : db.InForm) : Lasts db db' := by
  cases h with
  | act action _ hid => exact action.lasts hdb.wellFormed hid
  | session user rule => exact (shrinks_withSession user rule db).lasts

theorem Evolves.lasts (h : Evolves allowed db db') (hdb : db.InForm) : Lasts db db' := by
  induction h with
  | refl => exact .of_objectStore_eq rfl
  | tail hbefore hlast ih => exact ih.trans (hlast.lasts (Evolves.inForm hbefore hdb))

/-- Nothing that was made earlier comes back into the lists. -/
theorem Advances.listed (h : Advances allowed db db') (hdb : db.InForm) {o : ObjectRef}
    (hslot : o.slot < db.objectStore.next) (ho : db'.Listed o) : db.Listed o := by
  have hdb' := (h.inForm hdb).wellFormed
  cases h with
  | act action _ hid =>
    rcases action.changes_or_shrinks hdb.wellFormed with ⟨c, schemaName, hchanges⟩ | hshrinks
    · exact hchanges.confined.listed hdb.wellFormed hdb' hslot ho
    · exact listed_of_reflTransGen hshrinks ho
  | session user rule => exact (shrinks_withSession user rule db).listed ho

end Evolves

end SchemaCatalog
