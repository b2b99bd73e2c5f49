import SchemaCatalog.Proofs.RemovalOrder
import SchemaCatalog.Teardown.Removal
/-!
# Errors of removals

Which errors an action never fails with. Once the order of removal is settled, what fails can be a
table that is still read, or a catalog that lost track of its own objects, but never a cycle of tables:
only the search for the order reports one.
-/
namespace SchemaCatalog

section Avoids

variable {ε σ α β : Type} {bad : ε → Prop}

/-- The action never fails with an error of this sort. -/
def Avoids (bad : ε → Prop) (act : EStateM ε σ α) : Prop :=
  ∀ s e s', act s = .error e s' → ¬ bad e

namespace Avoids

variable {act : EStateM ε σ α} {next : α → EStateM ε σ β}

private theorem bind (h : Avoids bad act) (hnext : ∀ a, Avoids bad (next a)) :
    Avoids bad (act >>= next) := by
  intro s e s' herror
  rcases bind_eq_error_iff.mp herror with herror | ⟨a, mid, -, herror⟩
  · exact h s e s' herror
  · exact hnext a mid e s' herror

private theorem get_bind {next : σ → EStateM ε σ β} (h : ∀ s, Avoids bad (next s)) :
    Avoids bad (get >>= next) :=
  fun s => h s s

private theorem pure (a : α) : Avoids bad (Pure.pure a : EStateM ε σ α) := by
  intro s e s' herror
  cases herror

private theorem throw {e : ε} (he : ¬ bad e) :
    Avoids bad (MonadExcept.throw e : EStateM ε σ α) := by
  intro s e' s' herror
  cases herror
  exact he

private theorem modifyGet (f : σ → α × σ) : Avoids bad (modifyGet f : EStateM ε σ α) := by
  intro s e s' herror
  cases herror

private theorem set (s : σ) : Avoids bad (MonadStateOf.set s : EStateM ε σ PUnit) := by
  intro s₀ e s' herror
  cases herror

private theorem forM {act : α → EStateM ε σ PUnit} (h : ∀ a, Avoids bad (act a)) (l : List α) :
    Avoids bad (l.forM act) := by
  induction l with
  | nil => exact .pure _
  | cons a l ih => exact (h a).bind fun _ => ih

end Avoids

/-- The look-up never fails with an error of this sort. -/
def AvoidsInLook (bad : CatalogError → Prop) (look : Lookup α) : Prop :=
  ∀ db e, look db = .error e → ¬ bad e

private theorem AvoidsInLook.bind {bad : CatalogError → Prop} {look : Lookup α}
    {next : α → Lookup β} (h : AvoidsInLook bad look) (hnext : ∀ a, AvoidsInLook bad (next a)) :
    AvoidsInLook bad (look >>= next) := by
  intro db e herror
  cases hlook : look db with
  | ok a =>
    rw [look_bind_of_ok hlook] at herror
    exact hnext a db e herror
  | error e' =>
    rw [look_bind_of_error hlook] at herror
    cases herror
    exact h db _ hlook

private theorem AvoidsInLook.pure {bad : CatalogError → Prop} (a : α) :
    AvoidsInLook bad (Pure.pure a : Lookup α) := by
  intro db e herror
  cases herror

private theorem AvoidsInLook.throw {bad : CatalogError → Prop} {e : CatalogError} (he : ¬ bad e) :
    AvoidsInLook bad (MonadExcept.throw e : Lookup α) := by
  intro db e' herror
  cases herror
  exact he

private theorem AvoidsInLook.read_bind {bad : CatalogError → Prop} {next : Database → Lookup α}
    (h : ∀ db, AvoidsInLook bad (next db)) : AvoidsInLook bad (read >>= next) :=
  fun db => h db db

private theorem Avoids.look {bad : CatalogError → Prop} {look : Lookup α}
    (h : AvoidsInLook bad look) :
    Avoids bad (liftM look : CatalogM α) := by
  intro db e db' herror
  exact h db e (lift_eq_error_iff.mp herror).1

private theorem Avoids.hostLift {η : Type} {bad : CatalogError → Prop} {act : CatalogM α}
    (h : Avoids bad act) : Avoids bad (liftM act : HostM η α) := by
  rintro ⟨db, own⟩ e st' herror
  rw [host_run] at herror
  cases hact : act db with
  | ok a db' =>
    rw [hact] at herror
    cases herror
  | error e' db' =>
    rw [hact] at herror
    cases herror
    exact h db e db' hact

end Avoids

section Removing

open Database

/-- The error reports a cycle of tables. -/
def CatalogError.NamesCycle : CatalogError → Prop
  | dependencyCycle _ => True
  | _ => False

private theorem activeRegistry_avoids (s : SchemaRef) :
    AvoidsInLook CatalogError.NamesCycle s.activeRegistry := by
  intro db e herror
  rw [SchemaRef.activeRegistry, Schema.activeRegistry] at herror
  split at herror <;> cases herror
  exact id

private theorem contains_avoids (s : SchemaRef) (o : ObjectRef) :
    AvoidsInLook CatalogError.NamesCycle (s.contains o) :=
  (activeRegistry_avoids s).bind fun _ => .read_bind fun _ => .pure _

private theorem firstOf_avoids (s : SchemaRef) (kind : ObjectKind) :
    AvoidsInLook CatalogError.NamesCycle (s.firstOf kind) :=
  (activeRegistry_avoids s).bind fun _ => .pure _

private theorem schemaOf_avoids (o : ObjectRef) :
    AvoidsInLook CatalogError.NamesCycle (schemaOf o) := by
  refine .read_bind fun db => ?_
  dsimp only
  split
  · exact .throw id
  · split
    · exact .pure _
    · exact .throw id

private theorem sessionFor_avoids (session : Option SessionRef) (t : ObjectRef) :
    AvoidsInLook CatalogError.NamesCycle (SchemaRef.sessionFor session t) := by
  cases session with
  | some c => exact .pure _
  | none =>
    refine .read_bind fun db => ?_
    dsimp only
    exact .throw id

private theorem indexesOf_avoids (session : Option SessionRef) (t : ObjectRef) :
    AvoidsInLook CatalogError.NamesCycle (indexesOf session t) := by
  refine .read_bind fun db => ?_
  dsimp only
  split
  · exact (sessionFor_avoids session t).bind fun _ => .pure _
  · refine (schemaOf_avoids t).bind fun s => ?_
    exact ((activeRegistry_avoids s).bind fun _ => .pure _).bind fun _ => .pure _

private theorem detach_avoids (s : SchemaRef) (o : ObjectRef) :
    Avoids CatalogError.NamesCycle (s.detach o) := by
  refine Avoids.bind ?_ fun _ => .modifyGet _
  refine (Avoids.look (activeRegistry_avoids s)).bind fun registry => .get_bind fun db => ?_
  dsimp only
  rw [Registry.remove]
  cases registry.find? (db.object o).kind (db.object o).name with
  | none => exact .throw id
  | some entry =>
    dsimp only
    by_cases hentry : entry = o
    · rw [if_pos hentry]
      exact .set _
    · rw [if_neg hentry]
      exact .throw id

private theorem detachObject_avoids (o : ObjectRef) :
    Avoids CatalogError.NamesCycle (detachObject o) :=
  (Avoids.look (schemaOf_avoids o)).bind fun s => detach_avoids s o

private theorem removeTempTable_avoids (session : Option SessionRef) (t : ObjectRef) :
    Avoids CatalogError.NamesCycle (removeTempTable session t) := by
  refine (Avoids.look (sessionFor_avoids session t)).bind fun c => .get_bind fun db => ?_
  refine (Avoids.modifyGet _).bind fun dropped => ?_
  cases dropped with
  | some t' => exact .pure _
  | none => exact .throw id

private theorem removeTable_avoids (session : Option SessionRef) (t : ObjectRef) :
    Avoids CatalogError.NamesCycle (removeTable session t) := by
  refine .get_bind fun db => ?_
  cases db.findDependent t t with
  | some dependent => exact .throw id
  | none =>
    cases (db.tableOf t).isLocalTemporary with
    | true => exact removeTempTable_avoids session t
    | false =>
      refine (Avoids.look (schemaOf_avoids t)).bind fun s => ?_
      refine (Avoids.look (indexesOf_avoids session t)).bind fun indexes => ?_
      exact (Avoids.forM (detach_avoids s) indexes).bind fun _ => detachObject_avoids t

/-- The removal of one object never reports a cycle. -/
private theorem removeObject_avoids (session : Option SessionRef) (o : ObjectRef) :
    Avoids CatalogError.NamesCycle (removeObject session o) := by
  refine .get_bind fun db => ?_
  cases (db.object o).kind with
  | tableOrView => exact removeTable_avoids session o
  | _ => exact detachObject_avoids o

end Removing

section Emptying

variable {session : Option SessionRef} {s : SchemaRef}

private theorem removeThroughHost_avoids (session : Option SessionRef) (s : SchemaRef)
    (o : ObjectRef) :
    Avoids CatalogError.NamesCycle (removeThroughHost Database.host session s o) := by
  refine (Avoids.hostLift (removeObject_avoids session o)).bind fun _ => ?_
  refine (Avoids.hostLift (.look (contains_avoids s o))).bind fun present => ?_
  cases present with
  | true => exact .get_bind fun state => .throw id
  | false => exact .pure _

private theorem removeTables_avoids (session : Option SessionRef) (s : SchemaRef)
    (tables : List ObjectRef) :
    Avoids CatalogError.NamesCycle (removeTables Database.host session s tables) := by
  refine .forM (fun t => ?_) tables
  refine (Avoids.hostLift (.look (contains_avoids s t))).bind fun present => ?_
  cases present with
  | true => exact removeThroughHost_avoids session s t
  | false => exact .pure _

private theorem drain_avoids (session : Option SessionRef) (s : SchemaRef) (kind : ObjectKind)
    (limit : Nat) : Avoids CatalogError.NamesCycle (drain Database.host session s kind limit) := by
  induction limit with
  | zero => exact .pure _
  | succ limit ih =>
    refine (Avoids.hostLift (.look (firstOf_avoids s kind))).bind fun o? => ?_
    cases o? with
    | none => exact .pure _
    | some o => exact (removeThroughHost_avoids session s o).bind fun _ => ih

/-- Only the search for an order of removal reports a cycle, and nothing has been removed by then. -/
theorem tableRemovalOrder_of_namesCycle {state state' : Database × Unit} {e : CatalogError}
    (h : removeChildren Database.host session s state = .error e state') (he : e.NamesCycle) :
    tableRemovalOrder Database.host s state = .error e state' := by
  rcases bind_eq_error_iff.mp h with horder | ⟨order, mid, -, hrest⟩
  · exact horder
  · have havoids : Avoids CatalogError.NamesCycle (do
        removeTables Database.host session s order
        trailingKinds.forM (removeKind Database.host session s)
        let (db, own) ← (get : HostM Unit (Database × Unit))
        let schema := db.schema s
        if schema.registry.isEmpty then
          set (db.modifySchema s Schema.invalidate, own)
        else
          let name := schema.name
          throw (.internalInvariant s!"schema {name} still holds objects after teardown")) := by
      refine (removeTables_avoids session s order).bind fun _ => ?_
      refine (Avoids.forM (fun kind => ?_) trailingKinds).bind fun _ => .get_bind fun last => ?_
      · exact .get_bind fun first => drain_avoids session s kind _
      · dsimp only
        split
        · exact .set _
        · exact .throw id
    exact absurd he (havoids mid e state' hrest)

end Emptying

end SchemaCatalog
