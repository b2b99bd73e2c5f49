import SchemaCatalog.Proofs.SchemaRuns
/-!
# Live names

A schema keeps every object under the name that the object has now. No call breaks this, whether it
succeeds or fails and whatever object it is given, as long as nobody else renames a registered object
or cuts it off. So a name in any spelling finds the one live object that has it.
-/
namespace SchemaCatalog

open Database Relation

variable {s : SchemaRef} {db db' : Database} {rule : CaseRule} {kind : ObjectKind} {o : ObjectRef}
  {call : SchemaCall} {r? : Option Reservation} {h h' : History}

/-- The objects that the schema holds keep their names and refer to it as before. An object that was
removed is not one of them any more (`InOrder.not_holds_of_removed`), so it may be cut off. -/
def LeavesObjects (s : SchemaRef) (db db' : Database) : Prop :=
  ∀ o, db.Holds s o → db'.nameOf o = db.nameOf o ∧ (db'.object o).kind = (db.object o).kind ∧
    (db'.object o).schema = (db.object o).schema

namespace Database.InOrder

theorem of_create {id : UInt32} {name : String} {owner : Option Principal} {system : Bool}
    (h : db.schema s = .create id name owner system rule) : db.InOrder s := by
  have hspace : ∀ kind, db.space s kind = .empty rule := by
    intro kind
    rw [space, h]
    cases kind <;> rfl
  refine ⟨fun kind => ?_, fun kind o ho => ?_⟩
  · rw [hspace]
    exact .empty rule _
  · rw [hspace] at ho
    cases ho

private theorem withReservations (h : db.InOrder s) (reservations : ReservationSet) :
    (Database.withReservations s reservations db).InOrder s :=
  h.congr (fun kind => space_withReservations s s reservations db kind) (fun _ _ => rfl)
    fun _ _ _ henters => ⟨henters.kind, henters.schema⟩

private theorem effect (h : db.InOrder s) (heffect : call.Effect s db r? db') : db'.InOrder s := by
  cases heffect with
  | added _ howner => exact h.entered howner
  | renamed _ hlive hfree =>
    exact h.renamed ⟨_, NameMap.mem_values_of_get? hlive⟩ hfree
  | removed _ hlive => exact h.struckOut ⟨_, NameMap.mem_values_of_get? hlive⟩
  | named _ hreserve | indexNamed _ _ hreserve =>
    rw [(granted_of_reserve hreserve).result]
    exact h.withReservations _
  | freed | released => exact h.withReservations _

theorem not_holds_of_removed (h : db.InOrder s)
    (hrun : (SchemaCall.remove o).run s db = .ok r? db') : ¬ db'.Holds s o := by
  cases SchemaCall.effect_of_ok hrun with
  | removed _ hlive =>
    have hheld : db.Holds s o := ⟨_, NameMap.mem_values_of_get? hlive⟩
    rintro ⟨kind, ho⟩
    exact ((h.filed.mem_space_struckOut hheld).mp ho).2 rfl

theorem step {may : Database → SchemaCall → Prop} (horder : h.db.InOrder s)
    (hstep : Step s may (LeavesObjects s) h h') : h'.db.InOrder s := by
  rcases hstep.cases_effect with ⟨-, hschema, hdb | hworld⟩ | ⟨call, r?, -, -, hrun, -⟩
  · rw [hdb]
    exact horder
  · refine horder.congr (fun kind => by rw [space, hschema, space]) (fun o ho => (hworld o ho).1)
      fun o ho kind henters => ?_
    obtain ⟨-, hkind, howner⟩ := hworld o ho
    exact ⟨hkind.trans henters.kind, howner.trans henters.schema⟩
  · exact horder.effect (call.effect_of_ok hrun)

theorem run {may : Database → SchemaCall → Prop} (horder : h.db.InOrder s)
    (hrun : Run s may (LeavesObjects s) h h') : h'.db.InOrder s := by
  induction hrun with
  | refl => exact horder
  | tail _ hstep ih => exact ih.step hstep

end Database.InOrder

/-- The registry of a schema and the names of its objects agree. -/
structure NamesAgree (s : SchemaRef) (rule : CaseRule) (db : Database) : Prop where
  /-- An entry is for an object of its kind that has this name now and refers to the schema. -/
  entry : ∀ kind key o, (db.space s kind).entries.get? key = some o →
    (db.object o).kind = kind ∧ rule.fold (db.nameOf o) = key ∧ (db.object o).schema = some s
  /-- Two objects of a kind have names that fold differently. -/
  apart : ∀ kind, ∀ o ∈ (db.space s kind).values, ∀ o' ∈ (db.space s kind).values,
    rule.fold (db.nameOf o) = rule.fold (db.nameOf o') → o = o'
  /-- No object is registered twice. -/
  once : (db.schema s).registry.all.Nodup
  /-- A look-up finds the object whose name folds like the one asked for, if there is one. -/
  found : ∀ kind name, ∃ found, s.findObject kind name db = .ok found ∧ ∀ o, found = some o ↔
    o ∈ (db.space s kind).values ∧ rule.fold (db.nameOf o) = rule.fold name
  /-- An object that a call removes is held no more. -/
  removed : ∀ o r? db', (SchemaCall.remove o).run s db = .ok r? db' → ¬ db'.Holds s o
  /-- A call that fails changes nothing. -/
  refused : ∀ (call : SchemaCall) e db', call.run s db = .error e db' → db' = db

theorem NamesAgree.of_inOrder (horder : db.InOrder s) (huniform : Uniform db s rule) :
    NamesAgree s rule db where
  entry := by
    intro kind key o ho
    have henters := horder.enters kind o (NameMap.mem_values.mpr ⟨key, ho⟩)
    refine ⟨henters.kind, ?_, henters.schema⟩
    rw [horder.keyed kind key o ho, NameMap.key, huniform.spaces]
  apart := by
    intro kind o ho o' ho' hfold
    refine (horder.keyed kind).eq_of_key_eq ho ho' ?_
    rwa [NameMap.key, NameMap.key, huniform.spaces]
  once := horder.nodup_all
  found := by
    intro kind name
    refine ⟨_, findObject_eq huniform.active, fun o => ?_⟩
    rw [(horder.keyed kind).get?_eq_some_iff, NameMap.key, NameMap.key, huniform.spaces]
  removed := fun _ _ _ hrun => horder.not_holds_of_removed hrun
  refused := fun call _ _ h => call.unchanged_of_error h

/-- In every state that a new schema gets to, its registry and the names of its objects agree. -/
theorem Run.namesAgree {start : Database} {id : UInt32} {name : String} {owner : Option Principal}
    {system : Bool} (hstart : start.schema s = .create id name owner system rule)
    (hrun : Run s AnyCall (LeavesObjects s) ⟨start, []⟩ h) : NamesAgree s rule h.db :=
  NamesAgree.of_inOrder ((InOrder.of_create hstart).run hrun)
    ((Uniform.of_create hstart).run hrun)

section Example

/-- A new schema that ignores case, with objects that are not registered yet. -/
def withUnregistered : Database :=
  let db := withSchema "App" (some ⟨1, "SA"⟩) false
    (bootstrap { Settings.standard with ignoreCase := true })
  ((db.withObject ⟨2⟩ "First" (.sequence .counting)).withObject ⟨2⟩ "FIRST"
    (.sequence .counting)).withObject ⟨2⟩ "first" (.constant "1")

/-- Add, rename and remove, with an impostor that is refused until the name is free. -/
def impostorCalls : List SchemaCall :=
  [.add ⟨0⟩, .add ⟨1⟩, .add ⟨2⟩, .rename ⟨0⟩ "Second", .add ⟨1⟩, .rename ⟨1⟩ "SECOND", .remove ⟨2⟩,
    .remove ⟨2⟩]

def afterImpostor : History :=
  History.afterAll ⟨2⟩ ⟨withUnregistered, []⟩ impostorCalls

theorem namesAgree_afterImpostor :
    withUnregistered.schema ⟨2⟩ = .create 4 "App" (some ⟨1, "SA"⟩) false .ignoreCase ∧
    Run ⟨2⟩ AnyCall (LeavesObjects ⟨2⟩) ⟨withUnregistered, []⟩ afterImpostor ∧
    NamesAgree ⟨2⟩ .ignoreCase afterImpostor.db ∧
    (afterImpostor.db.space ⟨2⟩ .sequence).entries.entries = [("FIRST", ⟨1⟩), ("SECOND", ⟨0⟩)] := by
  have hstart : withUnregistered.schema ⟨2⟩ =
      .create 4 "App" (some ⟨1, "SA"⟩) false .ignoreCase := by
    decide +kernel
  have hrun : Run ⟨2⟩ AnyCall (LeavesObjects ⟨2⟩) ⟨withUnregistered, []⟩ afterImpostor :=
    run_afterAll (by decide +kernel)
  exact ⟨hstart, hrun, hrun.namesAgree hstart, by decide +kernel⟩

end Example

end SchemaCatalog
