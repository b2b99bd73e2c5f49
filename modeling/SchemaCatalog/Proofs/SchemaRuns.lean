import Mathlib.Logic.Relation
import SchemaCatalog.Proofs.SchemaCalls
/-!
# Runs on a schema

Any number of calls on one schema, between which anything may happen to the rest of the database. A
run records the names that were handed out, each with the kind of object that it was handed out for.
In every run the schema stays active and folds all names by one rule.
-/
namespace SchemaCatalog

open Database Relation

/-- The schema is active and folds every name by one rule. -/
structure Uniform (db : Database) (s : SchemaRef) (rule : CaseRule) : Prop where
  active : (db.schema s).state = .active
  spaces : ∀ kind, (db.space s kind).rule = rule
  reservations : (db.schema s).reservations.rule = rule

namespace Uniform

variable {db db' : Database} {s : SchemaRef} {rule : CaseRule} {call : SchemaCall}
  {r? : Option Reservation}

theorem of_create {id : UInt32} {name : String} {owner : Option Principal} {system : Bool}
    (h : db.schema s = .create id name owner system rule) : Uniform db s rule := by
  refine ⟨by rw [h]; rfl, fun kind => ?_, by rw [h]; rfl⟩
  rw [Database.space, h]
  cases kind <;> rfl

private theorem of_schema_eq (h : Uniform db s rule) (heq : db'.schema s = db.schema s) :
    Uniform db' s rule := by
  refine ⟨by rw [heq]; exact h.active, fun kind => ?_, by rw [heq]; exact h.reservations⟩
  rw [Database.space, heq]
  exact h.spaces kind

private theorem of_withReservations (h : Uniform db s rule) {reservations : ReservationSet}
    (hrule : reservations.rule = rule) : Uniform (withReservations s reservations db) s rule := by
  refine ⟨(state_withReservations ..).trans h.active, fun kind => ?_, ?_⟩
  · rw [space_withReservations]
    exact h.spaces kind
  · rw [reservations_withReservations]
    exact hrule

theorem effect (h : Uniform db s rule) (heffect : call.Effect s db r? db') :
    Uniform db' s rule := by
  cases heffect with
  | added =>
    refine ⟨state_entered.trans h.active, fun kind => ?_, ?_⟩
    · rw [space_entered]
      split <;> exact h.spaces kind
    · rw [entered, schema_modifySchema, if_pos rfl]
      exact h.reservations
  | renamed =>
    refine ⟨state_renamed.trans h.active, fun kind => ?_, ?_⟩
    · rw [space_renamed]
      split <;> exact h.spaces kind
    · rw [Database.renamed, schema_modifySchema, if_pos rfl]
      exact h.reservations
  | removed =>
    refine ⟨?_, fun kind => ?_, ?_⟩
    · rw [struckOut, schema_modifySchema, if_pos rfl]
      exact h.active
    · rw [space_struckOut]
      split <;> exact h.spaces kind
    · rw [struckOut, schema_modifySchema, if_pos rfl]
      exact h.reservations
  | named _ hreserve | indexNamed _ _ hreserve =>
    rw [(granted_of_reserve hreserve).result]
    exact h.of_withReservations h.reservations
  | freed => exact h.of_withReservations h.reservations
  | released r =>
    exact h.of_withReservations ((ReservationSet.frees_release _ r).rule.trans h.reservations)

end Uniform

section Runs

/-- A name that was handed out, and the kind of object that it was handed out for. -/
structure Handout where
  reservation : Reservation
  kind : Option ObjectKind
deriving DecidableEq, Inhabited

/-- A database and the names that one of its schemas has handed out, the latest first. -/
structure History where
  db : Database
  handouts : List Handout
deriving DecidableEq, Inhabited

/-- The hand-outs after a call that returns what it has handed out. -/
def SchemaCall.record (db : Database) (call : SchemaCall) (handouts : List Handout) :
    Option Reservation → List Handout
  | some r => ⟨r, call.kind? db⟩ :: handouts
  | none => handouts

/-- What a call leaves behind, whether it fails or not. -/
def History.after (s : SchemaRef) (h : History) (call : SchemaCall) : History :=
  match call.run s h.db with
  | .ok r? db => ⟨db, call.record h.db h.handouts r?⟩
  | .error _ db => ⟨db, h.handouts⟩

/-- Only a name that was handed out can be given back. -/
def SchemaCall.Legal (handouts : List Handout) : SchemaCall → Prop
  | release r => r ∈ handouts.map (·.reservation)
  | _ => True

instance (handouts : List Handout) : (call : SchemaCall) → Decidable (call.Legal handouts)
  | .add _ | .rename _ _ | .remove _ | .uniqueName _ _ _ | .uniqueIndexName _ _ _ | .freeName _ =>
    isTrue trivial
  | .release r => inferInstanceAs (Decidable (r ∈ _))

/-- What several calls leave behind. -/
def History.afterAll (s : SchemaRef) (h : History) : List SchemaCall → History
  | [] => h
  | call :: calls => (h.after s call).afterAll s calls

/-- The calls can be made one after the other. -/
def History.Allows (s : SchemaRef) (h : History) : List SchemaCall → Prop
  | [] => True
  | call :: calls => call.Legal h.handouts ∧ (h.after s call).Allows s calls

instance decidableAllows (s : SchemaRef) (h : History) : (calls : List SchemaCall) →
    Decidable (h.Allows s calls)
  | [] => isTrue trivial
  | call :: calls =>
    have := decidableAllows s (h.after s call) calls
    inferInstanceAs (Decidable (_ ∧ _))

/-- A call on the schema, of those that may be made, or something that happens elsewhere. -/
inductive Step (s : SchemaRef) (may : Database → SchemaCall → Prop)
    (world : Database → Database → Prop) : History → History → Prop
  | call {h : History} {call : SchemaCall} (hlegal : call.Legal h.handouts)
    (hmay : may h.db call) : Step s may world h (h.after s call)
  | elsewhere {h : History} {db' : Database} (hschema : db'.schema s = h.db.schema s)
    (hworld : world h.db db') : Step s may world h ⟨db', h.handouts⟩

/-- Any number of calls, with anything in between that leaves the schema alone. -/
def Run (s : SchemaRef) (may : Database → SchemaCall → Prop)
    (world : Database → Database → Prop) : History → History → Prop :=
  ReflTransGen (Step s may world)

/-- Every call may be made. -/
def AnyCall (_ : Database) (_ : SchemaCall) : Prop := True

variable {s : SchemaRef} {may : Database → SchemaCall → Prop}
  {world : Database → Database → Prop} {h h' : History} {rule : CaseRule}

theorem run_afterAll {calls : List SchemaCall} (hallows : h.Allows s calls) :
    Run s AnyCall world h (h.afterAll s calls) := by
  induction calls generalizing h with
  | nil => exact .refl
  | cons call calls ih => exact .head (.call hallows.1 trivial) (ih hallows.2)

/-- A step changes the schema through a call that succeeds, or not at all. -/
theorem Step.cases_effect (hstep : Step s may world h h') :
    (h'.handouts = h.handouts ∧ h'.db.schema s = h.db.schema s ∧
      (h'.db = h.db ∨ world h.db h'.db)) ∨
    ∃ call r?, call.Legal h.handouts ∧ may h.db call ∧ call.run s h.db = .ok r? h'.db ∧
      h'.handouts = call.record h.db h.handouts r? := by
  cases hstep with
  | @call call hlegal hmay =>
    rw [History.after]
    cases hrun : call.run s h.db with
    | ok r? db' => exact .inr ⟨call, r?, hlegal, hmay, hrun, rfl⟩
    | error e db' =>
      obtain rfl := call.unchanged_of_error hrun
      exact .inl ⟨rfl, rfl, .inl rfl⟩
  | elsewhere hschema hworld => exact .inl ⟨rfl, hschema, .inr hworld⟩

theorem Uniform.run (huniform : Uniform h.db s rule) (hrun : Run s may world h h') :
    Uniform h'.db s rule := by
  induction hrun with
  | refl => exact huniform
  | tail _ hstep ih =>
    rcases hstep.cases_effect with ⟨-, hschema, -⟩ | ⟨call, r?, -, -, hrun, -⟩
    · exact ih.of_schema_eq hschema
    · exact ih.effect (call.effect_of_ok hrun)

end Runs

end SchemaCatalog
