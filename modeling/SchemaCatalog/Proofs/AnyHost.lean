import SchemaCatalog.Proofs.Departures
/-!
# Teardown through any host

A schema leaves the removal of its objects to a host and only looks whether they are gone. A host that
does nothing to the schema but take objects away cannot keep teardown from coming to an end, since
every turn of a loop leaves an object less, whatever it answers about dependents. If teardown succeeds
then nothing is left, and if it fails the schema stays active.
-/
namespace SchemaCatalog

open Database

section Sheds

variable {db db' : Database} {s : SchemaRef} {kind : ObjectKind} {o : ObjectRef}

/-- Objects leave a schema and nothing else happens to it. Those that are left keep their names. -/
structure Sheds (s : SchemaRef) (db db' : Database) : Prop where
  name : (db'.schema s).name = (db.schema s).name
  state : (db'.schema s).state = (db.schema s).state
  owner : (db'.schema s).owner = (db.schema s).owner
  spaces : ∀ kind, (db'.space s kind).Within (db.space s kind)
  objects : ∀ o, db'.Holds s o →
    db'.nameOf o = db.nameOf o ∧ (db'.object o).kind = (db.object o).kind

namespace Sheds

private theorem of_eq (hschema : db'.schema s = db.schema s)
    (hobjects : ∀ o, db'.nameOf o = db.nameOf o ∧ (db'.object o).kind = (db.object o).kind) :
    Sheds s db db' where
  name := by rw [hschema]
  state := by rw [hschema]
  owner := by rw [hschema]
  spaces := fun kind => .of_eq (by rw [space, hschema, space])
  objects := fun o _ => hobjects o

private theorem holds (h : Sheds s db db') (ho : db'.Holds s o) : db.Holds s o :=
  ho.imp fun kind => (h.spaces kind).mem_values

instance : IsPreorder Database (Sheds s) where
  refl _ := .of_eq rfl fun _ => ⟨rfl, rfl⟩
  trans _ _ _ h h' := {
    name := h'.name.trans h.name
    state := h'.state.trans h.state
    owner := h'.owner.trans h.owner
    spaces := fun kind => (h'.spaces kind).trans (h.spaces kind)
    objects := fun o ho =>
      have hlast := h'.objects o ho
      have hfirst := h.objects o (h'.holds ho)
      ⟨hlast.1.trans hfirst.1, hlast.2.trans hfirst.2⟩ }

theorem filed (h : Sheds s db db') (hfiled : db.Filed s) : db'.Filed s :=
  hfiled.within h.spaces h.objects

/-- A name space that an object has left has shrunk. -/
private theorem size_lt (h : Sheds s db db') (ho : o ∈ (db.space s kind).values)
    (hgone : ¬ db'.Holds s o) :
    (db'.space s kind).size < (db.space s kind).size := by
  obtain ⟨key, hkey⟩ := NameMap.mem_values.mp ho
  exact (h.spaces kind).size_lt hkey fun hstays => hgone ⟨kind, NameMap.mem_values.mpr ⟨key, hstays⟩⟩

theorem struckOut (r : SchemaRef) (o : ObjectRef) (db : Database) :
    Sheds s db (Database.struckOut r o db) where
  name := field_modifySchema Schema.name s rfl
  state := field_modifySchema Schema.state s rfl
  owner := field_modifySchema Schema.owner s rfl
  spaces := by
    intro kind
    rw [space_struckOut]
    split
    next heq =>
      rw [heq.1]
      exact NameMap.within_erase _ _
    next => exact .refl _
  objects := fun _ _ => ⟨rfl, rfl⟩

theorem allowsDeparture : AllowsDeparture (Sheds s) where
  struckOut := fun r o db _ => struckOut r o db
  invalidate := fun _ _ => .of_eq rfl fun other =>
    ⟨field_modifyObject Object.name other rfl,
      field_modifyObject Object.kind other (Object.kind_invalidate _)⟩
  modifySession := fun _ _ _ => .of_eq rfl fun _ => ⟨rfl, rfl⟩

end Sheds

end Sheds

section RemovalOnly

variable {η : Type} {host : CatalogHost η} {session : Option SessionRef} {s : SchemaRef}
  {kind : ObjectKind} {o : ObjectRef} {st st' : Database × η} {e : CatalogError}

/-- The host takes objects away from the schema at most, whether it reports a failure or not. What it
does elsewhere and what it answers about dependents may be anything. -/
def CatalogHost.RemovalOnly (host : CatalogHost η) (s : SchemaRef) : Prop :=
  ∀ session o, Leaves (OnDatabase (Sheds s)) (host.removeObject session o)

/-- The database does no more to its schemas. -/
theorem Database.host_removalOnly (s : SchemaRef) : Database.host.RemovalOnly s :=
  fun session o => .hostLift (Sheds.allowsDeparture.removeObject session o)

private theorem contains_eq_ok_iff {db : Database} {present : Bool} :
    s.contains o db = .ok present ↔
    (db.schema s).state = .active ∧
      (db.schema s).registry.contains o (db.object o) = present := by
  rw [SchemaRef.contains, look_bind_eq_ok_iff]
  constructor
  · rintro ⟨registry, hlook, h⟩
    obtain ⟨hactive, rfl⟩ := activeRegistry_eq_ok_iff.mp hlook
    exact ⟨hactive, Except.ok.inj h⟩
  · rintro ⟨hactive, rfl⟩
    exact ⟨_, activeRegistry_eq hactive, rfl⟩

/-- What is kept under its own name is found where it is looked for. -/
private theorem Database.Filed.contains_iff {db : Database} (h : db.Filed s) :
    (db.schema s).registry.contains o (db.object o) = true ↔ db.Holds s o := by
  rw [Registry.contains_iff]
  refine ⟨fun hget => ⟨_, NameMap.mem_values_of_get? hget⟩, fun ho => ?_⟩
  exact (h.keyed _).mem_values_iff.mp (h.mem_of_holds ho)

/-- A removal through the host succeeds if the host does and the schema does not find the object. -/
private theorem removeThroughHost_eq_ok_iff : removeThroughHost host session s o st = .ok () st' ↔
    host.removeObject session o st = .ok () st' ∧ s.contains o st'.1 = .ok false := by
  rw [removeThroughHost, bind_eq_ok_iff]
  constructor
  · rintro ⟨_, mid, hremove, h⟩
    obtain ⟨present, _, hlook, h⟩ := bind_eq_ok_iff.mp h
    obtain ⟨hlook, rfl⟩ := host_look_eq_ok_iff.mp hlook
    cases present with
    | true => cases h
    | false =>
      cases h
      exact ⟨hremove, hlook⟩
  · rintro ⟨hremove, hgone⟩
    have hlook := host_look_eq_ok_iff.mpr ⟨hgone, rfl⟩
    exact ⟨(), st', hremove, bind_eq_ok_iff.mpr ⟨false, st', hlook, rfl⟩⟩

namespace CatalogHost.RemovalOnly

private theorem sheds_of_removed (hhost : host.RemovalOnly s)
    (h : removeThroughHost host session s o st = .ok () st') : Sheds s st.1 st'.1 := by
  have hleaves := Leaves.removeThroughHost hhost session s o st
  rwa [stateAfter_of_ok h] at hleaves

/-- The check after a removal shows that an object has left. -/
private theorem size_lt_of_removed (hhost : host.RemovalOnly s) (hfiled : st.1.Filed s)
    (ho : o ∈ (st.1.space s kind).values)
    (h : removeThroughHost host session s o st = .ok () st') :
    (st'.1.space s kind).size < (st.1.space s kind).size := by
  have hsheds := hhost.sheds_of_removed h
  refine hsheds.size_lt ho fun hstays => ?_
  have hfound := (hsheds.filed hfiled).contains_iff.mpr hstays
  obtain ⟨-, hgone⟩ := contains_eq_ok_iff.mp (removeThroughHost_eq_ok_iff.mp h).2
  rw [hfound] at hgone
  cases hgone

end CatalogHost.RemovalOnly

end RemovalOnly

/-- How an action of a host ends. -/
abbrev HostResult (η : Type) := EStateM.Result CatalogError (Database × η) Unit

section Loops

variable {η : Type}

/-- The objects of a kind are removed one after the other until there are none. The loop is not
limited: it has a result only if it comes to an end. -/
inductive Drains (host : CatalogHost η) (session : Option SessionRef) (s : SchemaRef)
    (kind : ObjectKind) : Database × η → HostResult η → Prop
  | refused {st : Database × η} {e : CatalogError} (hfirst : s.firstOf kind st.1 = .error e) :
    Drains host session s kind st (.error e st)
  | done {st : Database × η} (hfirst : s.firstOf kind st.1 = .ok none) :
    Drains host session s kind st (.ok () st)
  | failed {st st' : Database × η} {o : ObjectRef} {e : CatalogError}
    (hfirst : s.firstOf kind st.1 = .ok (some o))
    (hremove : removeThroughHost host session s o st = .error e st') :
    Drains host session s kind st (.error e st')
  | again {st st' : Database × η} {o : ObjectRef} {result : HostResult η}
    (hfirst : s.firstOf kind st.1 = .ok (some o))
    (hremove : removeThroughHost host session s o st = .ok () st')
    (hrest : Drains host session s kind st' result) : Drains host session s kind st result

/-- The loops for several kinds, one after the other. -/
inductive DrainsAll (host : CatalogHost η) (session : Option SessionRef) (s : SchemaRef) :
    List ObjectKind → Database × η → HostResult η → Prop
  | nil {st : Database × η} : DrainsAll host session s [] st (.ok () st)
  | failed {kind : ObjectKind} {kinds : List ObjectKind} {st st' : Database × η} {e : CatalogError}
    (hfirst : Drains host session s kind st (.error e st')) :
    DrainsAll host session s (kind :: kinds) st (.error e st')
  | next {kind : ObjectKind} {kinds : List ObjectKind} {st st' : Database × η}
    {result : HostResult η} (hfirst : Drains host session s kind st (.ok () st'))
    (hrest : DrainsAll host session s kinds st' result) :
    DrainsAll host session s (kind :: kinds) st result

/-- The tables and views go in the order of removal. -/
def removeOrdered (host : CatalogHost η) (session : Option SessionRef) (s : SchemaRef) :
    HostM η Unit := do
  let order ← tableRemovalOrder host s
  removeTables host session s order

/-- The last step of teardown: a schema that holds nothing becomes invalid. -/
def retire (s : SchemaRef) : HostM η Unit := do
  let (db, own) ← get
  let schema := db.schema s
  if schema.registry.isEmpty then
    set (db.modifySchema s Schema.invalidate, own)
  else
    let name := schema.name
    throw (.internalInvariant s!"schema {name} still holds objects after teardown")

/-- Teardown with loops that are not limited. -/
inductive TearsDown (host : CatalogHost η) (session : Option SessionRef) (s : SchemaRef)
    (st : Database × η) : HostResult η → Prop
  | tablesFailed {st' : Database × η} {e : CatalogError}
    (htables : removeOrdered host session s st = .error e st') :
    TearsDown host session s st (.error e st')
  | drainFailed {mid st' : Database × η} {e : CatalogError}
    (htables : removeOrdered host session s st = .ok () mid)
    (hdrain : DrainsAll host session s trailingKinds mid (.error e st')) :
    TearsDown host session s st (.error e st')
  | drained {mid last : Database × η} (htables : removeOrdered host session s st = .ok () mid)
    (hdrain : DrainsAll host session s trailingKinds mid (.ok () last)) :
    TearsDown host session s st (retire s last)

variable {host : CatalogHost η} {session : Option SessionRef} {s : SchemaRef} {kind : ObjectKind}
  {kinds : List ObjectKind} {o : ObjectRef} {st st' : Database × η} {e : CatalogError}
  {result result' : HostResult η}

private theorem Drains.unique (h : Drains host session s kind st result)
    (h' : Drains host session s kind st result') : result = result' := by
  induction h with
  | refused hfirst => cases h' <;> simp_all
  | done hfirst => cases h' <;> simp_all
  | failed hfirst hremove => cases h' <;> simp_all
  | again hfirst hremove _ ih => cases h' <;> simp_all

private theorem DrainsAll.unique (h : DrainsAll host session s kinds st result)
    (h' : DrainsAll host session s kinds st result') : result = result' := by
  induction h with
  | nil => cases h'; rfl
  | failed hfirst =>
    cases h' with
    | failed hfirst' => exact hfirst.unique hfirst'
    | next hfirst' _ => cases hfirst.unique hfirst'
  | next hfirst _ ih =>
    cases h' with
    | failed hfirst' => cases hfirst.unique hfirst'
    | next hfirst' hrest =>
      cases hfirst.unique hfirst'
      exact ih hrest

/-- There is one way at most for teardown to end. -/
theorem TearsDown.unique (h : TearsDown host session s st result)
    (h' : TearsDown host session s st result') : result = result' := by
  cases h with
  | tablesFailed htables => cases h' <;> simp_all
  | drainFailed htables hdrain =>
    cases h' with
    | tablesFailed htables' => simp_all
    | drainFailed htables' hdrain' =>
      cases htables.symm.trans htables'
      exact hdrain.unique hdrain'
    | drained htables' hdrain' =>
      cases htables.symm.trans htables'
      cases hdrain.unique hdrain'
  | drained htables hdrain =>
    cases h' with
    | tablesFailed htables' => simp_all
    | drainFailed htables' hdrain' =>
      cases htables.symm.trans htables'
      cases hdrain.unique hdrain'
    | drained htables' hdrain' =>
      cases htables.symm.trans htables'
      cases hdrain.unique hdrain'
      rfl

/-- An object that got another name behind the back of its schema is not found there, so a host which
does nothing is asked to remove it for ever. -/
theorem not_drains_of_renamed (hactive : (st.1.schema s).state = .active)
    (hfirst : (st.1.space s kind).first? = some o)
    (hlost : (st.1.schema s).registry.contains o (st.1.object o) = false)
    (hidle : host.removeObject session o st = .ok () st) :
    ¬ Drains host session s kind st result := by
  have hlook : s.firstOf kind st.1 = .ok (some o) := hfirst ▸ firstOf_eq hactive
  have hremove : removeThroughHost host session s o st = .ok () st :=
    removeThroughHost_eq_ok_iff.mpr ⟨hidle, contains_eq_ok_iff.mpr ⟨hactive, hlost⟩⟩
  intro h
  induction h with
  | refused hrefused => simp_all
  | done hdone => simp_all
  | failed _ hfailed => simp_all
  | again hagain hremove' _ ih =>
    obtain rfl := Option.some.inj (Except.ok.inj (hlook.symm.trans hagain))
    cases hremove.symm.trans hremove'
    exact ih hactive hfirst hlost hidle hlook hremove

private theorem removeChildren_eq : removeChildren host session s = (do
    removeOrdered host session s
    trailingKinds.forM (removeKind host session s)
    retire s) := by
  rw [removeOrdered, bind_assoc]
  rfl

private theorem retire_eq_ok_iff : (retire s : HostM η Unit) st = .ok () st' ↔
    (st.1.schema s).registry.isEmpty = true ∧
      st' = (st.1.modifySchema s Schema.invalidate, st.2) := by
  rw [retire, get_bind_run]
  cases hempty : (st.1.schema s).registry.isEmpty with
  | true =>
    simp only [hempty, if_true, true_and]
    exact ⟨fun h => by cases h; rfl, fun h => h ▸ rfl⟩
  | false =>
    simp only [hempty, Bool.false_eq_true, if_false, false_and, iff_false]
    intro h
    cases h

private theorem eq_of_retire_eq_error (h : (retire s : HostM η Unit) st = .error e st') :
    st' = st := by
  rw [retire, get_bind_run] at h
  dsimp only at h
  split at h <;> cases h
  rfl

namespace CatalogHost.RemovalOnly

variable (hhost : host.RemovalOnly s)

include hhost

/-- A limit above the number of objects is never reached. -/
private theorem drains_drain {limit : Nat} (hfiled : st.1.Filed s)
    (hlimit : (st.1.space s kind).size < limit) :
    Drains host session s kind st (drain host session s kind limit st) := by
  induction limit generalizing st with
  | zero => omega
  | succ limit ih =>
    rw [drain, bind_run, host_look_run]
    cases hfirst : s.firstOf kind st.1 with
    | error e => exact .refused hfirst
    | ok first? =>
      cases first? with
      | none => exact .done hfirst
      | some o =>
        dsimp only
        rw [bind_run]
        cases hremove : removeThroughHost host session s o st with
        | error e st' => exact .failed hfirst hremove
        | ok _ st' =>
          obtain ⟨registry, hlook, hhead⟩ := look_bind_eq_ok_iff.mp hfirst
          obtain ⟨-, rfl⟩ := activeRegistry_eq_ok_iff.mp hlook
          have ho := mem_of_first? (Except.ok.inj hhead)
          have hlt := hhost.size_lt_of_removed hfiled ho hremove
          have hfiled' := (hhost.sheds_of_removed hremove).filed hfiled
          exact .again hfirst hremove (ih hfiled' (by omega))

private theorem drainsAll_removeKinds (hfiled : st.1.Filed s) (kinds : List ObjectKind) :
    DrainsAll host session s kinds st (kinds.forM (removeKind host session s) st) := by
  induction kinds generalizing st with
  | nil => exact .nil
  | cons kind kinds ih =>
    have hdrains : Drains host session s kind st (removeKind host session s kind st) :=
      hhost.drains_drain hfiled (size_space_lt_drainLimit s kind st.1)
    change DrainsAll host session s (kind :: kinds) st
      ((removeKind host session s kind >>= fun _ => kinds.forM (removeKind host session s)) st)
    rw [bind_run]
    cases hrun : removeKind host session s kind st with
    | error e st' =>
      rw [hrun] at hdrains
      exact .failed hdrains
    | ok _ st' =>
      rw [hrun] at hdrains
      have hsheds := Leaves.removeKind hhost session s kind st
      rw [stateAfter_of_ok hrun] at hsheds
      exact .next hdrains (ih (Sheds.filed hsheds hfiled))

/-- Teardown comes to an end, and so it does what it would do without any limit. -/
theorem tearsDown_iff (hfiled : st.1.Filed s) :
    TearsDown host session s st result ↔ removeChildren host session s st = result := by
  have hends : TearsDown host session s st (removeChildren host session s st) := by
    rw [removeChildren_eq, bind_run]
    cases htables : removeOrdered host session s st with
    | error e st' => exact .tablesFailed htables
    | ok _ mid =>
      have hsheds : OnDatabase (Sheds s) st (stateAfter (removeOrdered host session s) st) :=
        (Leaves.tableRemovalOrder host s).bind (Leaves.removeTables hhost session s) st
      rw [stateAfter_of_ok htables] at hsheds
      have hdrain : DrainsAll host session s trailingKinds mid
          (trailingKinds.forM (removeKind host session s) mid) :=
        hhost.drainsAll_removeKinds (Sheds.filed hsheds hfiled) trailingKinds
      dsimp only
      rw [bind_run]
      cases hrun : trailingKinds.forM (removeKind host session s) mid with
      | error e st' =>
        rw [hrun] at hdrain
        exact .drainFailed htables hdrain
      | ok _ last =>
        rw [hrun] at hdrain
        exact .drained htables hdrain
  exact ⟨hends.unique, fun h => h ▸ hends⟩

/-- What fails has removed objects at most. -/
private theorem sheds_of_removeChildren_eq_error
    (h : removeChildren host session s st = .error e st') :
    Sheds s st.1 st'.1 := by
  have hphases : OnDatabase (Sheds s) st (stateAfter (do
      removeOrdered host session s
      trailingKinds.forM (removeKind host session s)) st) :=
    ((Leaves.tableRemovalOrder host s).bind (Leaves.removeTables hhost session s)).bind
      (fun _ => .forM (Leaves.removeKind hhost session s) trailingKinds) st
  rw [removeChildren_eq, ← bind_assoc] at h
  rcases bind_eq_error_iff.mp h with h | ⟨_, mid, hmid, h⟩
  · rwa [stateAfter_of_error h] at hphases
  · rw [stateAfter_of_ok hmid] at hphases
    rwa [eq_of_retire_eq_error h]

end CatalogHost.RemovalOnly

/-- Teardown through any host succeeds only if it leaves the schema without objects, and then the
schema is invalid and has no owner. -/
private theorem retired_of_removeChildren_eq_ok
    (h : removeChildren host session s st = .ok () st') :
    (∀ kind, (st'.1.space s kind).values = []) ∧ (st'.1.schema s).state = .invalid ∧
      (st'.1.schema s).owner = none := by
  rw [removeChildren_eq, ← bind_assoc] at h
  obtain ⟨_, mid, -, h⟩ := bind_eq_ok_iff.mp h
  obtain ⟨hempty, rfl⟩ := retire_eq_ok_iff.mp h
  have hschema : ((mid.1.modifySchema s Schema.invalidate).schema s) =
      (mid.1.schema s).invalidate := by
    rw [schema_modifySchema, if_pos rfl]
  refine ⟨fun kind => ?_, by rw [hschema]; rfl, by rw [hschema]; rfl⟩
  rw [space, hschema]
  exact Registry.isEmpty_iff.mp hempty kind

/-- The order is settled without asking for anything to be removed. -/
private theorem tableRemovalOrder_withRemoveObject
    (removeObject : Option SessionRef → ObjectRef → HostM η Unit) :
    tableRemovalOrder { host with removeObject } s = tableRemovalOrder host s := by
  have hedges : ∀ tables numbered,
      edgesBetween { host with removeObject } tables numbered = edgesBetween host tables numbered := by
    intro tables numbered
    induction numbered with
    | nil => rfl
    | cons entry numbered ih => simp only [edgesBetween, ih]
  simp only [tableRemovalOrder, hedges]

/-- What keeps the tables from having an order ends teardown before anything is asked to be removed,
and the database stays what it was. -/
private theorem removeChildren_of_unordered (h : tableRemovalOrder host s st = .error e st')
    (removeObject : Option SessionRef → ObjectRef → HostM η Unit) :
    removeChildren { host with removeObject } session s st = .error e st' ∧ st'.1 = st.1 := by
  have hunchanged : OnDatabase (· = ·) st (stateAfter (tableRemovalOrder host s) st) :=
    Leaves.tableRemovalOrder host s st
  rw [stateAfter_of_error h] at hunchanged
  rw [← tableRemovalOrder_withRemoveObject removeObject] at h
  exact ⟨bind_of_error h, hunchanged.symm⟩

/-- What teardown comes to when it starts from a state. -/
structure TeardownOutcome (host : CatalogHost η) (session : Option SessionRef) (s : SchemaRef)
    (st : Database × η) : Prop where
  /-- It ends, and would end so without any limit. -/
  ends : ∀ result, TearsDown host session s st result ↔ removeChildren host session s st = result
  emptied : ∀ st', removeChildren host session s st = .ok () st' →
    (∀ kind, (st'.1.space s kind).values = []) ∧ (st'.1.schema s).state = .invalid ∧
      (st'.1.schema s).owner = none
  kept : (st.1.schema s).state = .active → ∀ e st', removeChildren host session s st = .error e st' →
    (st'.1.schema s).state = .active ∧ (st'.1.schema s).owner = (st.1.schema s).owner
  /-- Without an order of removal nothing is removed, whatever the host would do. -/
  unordered : ∀ e st', tableRemovalOrder host s st = .error e st' → ∀ removeObject,
    removeChildren { host with removeObject } session s st = .error e st' ∧ st'.1 = st.1

theorem CatalogHost.RemovalOnly.outcome (hhost : host.RemovalOnly s) (hfiled : st.1.Filed s) :
    TeardownOutcome host session s st where
  ends := fun _ => hhost.tearsDown_iff hfiled
  emptied := fun _ => retired_of_removeChildren_eq_ok
  kept := by
    intro hactive e st' h
    have hsheds := hhost.sheds_of_removeChildren_eq_error h
    exact ⟨hsheds.state.trans hactive, hsheds.owner⟩
  unordered := fun _ _ => removeChildren_of_unordered

end Loops

end SchemaCatalog
