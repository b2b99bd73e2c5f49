import SchemaCatalog.Proofs.Carrying
import SchemaCatalog.Proofs.Effects
import SchemaCatalog.Proofs.SchemaDrop
/-!
# Departures

How objects leave their places when they are dropped, alone or with their schema. They leave one
after the other, a table only when no registered table reads it and its indexes have left. What
fails on the way has let the first of them go and leaves the others.
-/
namespace SchemaCatalog

open Database Relation

namespace Database

section Departs

variable {c d : SessionRef} {db db' : Database} {s : SchemaRef} {o t u i : ObjectRef}

/-- An object leaves its schema, or a table with its indexes or an index leaves the session. -/
inductive Departs (c : SessionRef) (db : Database) : Database → Prop
  | detached {s : SchemaRef} {o : ObjectRef} (ho : db.Holds s o)
    (hfree : (db.object o).kind = .tableOrView →
      db.findDependent o o = none ∧ ∀ i, ¬ db.Carries o i) : Departs c db (detached s db o)
  | tempDropped {gone : List ObjectRef} {db' : Database} (hdropped : TempDropped c gone db db')
    (htakes : db.TakesAlong c gone)
    (hfree : ∀ t ∈ gone, t ∈ (db.session c).tempTables.values → db.findDependent t t = none) :
    Departs c db db'

namespace Departs

theorem lessens (h : Departs c db db') (hdb : db.Placed) : Lessens db db' := by
  cases h with
  | detached ho _ => exact hdb.lessens_detached ho
  | tempDropped hdropped _ _ => exact hdb.lessens_tempDropped hdropped

theorem placed (h : Departs c db db') (hdb : db.Placed) : db'.Placed := by
  cases h with
  | detached ho _ => exact hdb.detached ho
  | tempDropped hdropped htakes _ => exact hdb.tempDropped hdropped htakes

/-- An index that is left is left with its table. -/
theorem carries (h : Departs c db db') (hdb : db.Placed) (hon : db.Carries t i)
    (hi : db'.Present i) : db'.Carries t i := by
  cases h with
  | @detached s o ho hfree =>
    refine hdb.carries_detached ho hon ?_ hi
    rintro rfl
    have hkind : (db.object t).kind = .tableOrView := by
      rcases hon.beside with ⟨r, ht, -⟩ | ⟨d, ht, -⟩
      · exact (hdb.inOrder r).kind_of_mem ht
      · exact (hdb.tempTables d t ht).1
    exact (hfree hkind).2 i hon
  | tempDropped hdropped htakes _ => exact hdb.carries_tempDropped hdropped htakes hon hi

private theorem schemas_eq (h : Departs c db db') : db'.schemas = db.schemas := by
  cases h with
  | detached => rfl
  | tempDropped hdropped _ _ => rw [hdropped.rest]

private theorem state_eq (h : Departs c db db') (s : SchemaRef) :
    (db'.schema s).state = (db.schema s).state := by
  cases h with
  | @detached r o _ _ => exact state_detached r s db o
  | tempDropped hdropped _ _ => rw [hdropped.schema_eq]

/-- Only the session itself loses something, and it stays open or closed. -/
theorem session (h : Departs c db db') (d : SessionRef) :
    (d ≠ c → db'.session d = db.session d) ∧ (db'.session d).active = (db.session d).active := by
  cases h with
  | detached => exact ⟨fun _ => rfl, rfl⟩
  | tempDropped hdropped _ _ =>
    refine ⟨hdropped.others d, ?_⟩
    by_cases hd : d = c
    · rw [hd, hdropped.session]
    · rw [hdropped.others d hd]

theorem tables_eq (h : Departs c db db') (o : ObjectRef) : db'.tableOf o = db.tableOf o := by
  cases h with
  | @detached s o' _ _ => exact field_modifyObject Object.asTable o rfl
  | tempDropped hdropped _ _ =>
    rw [tableOf, hdropped.object]
    split <;> rfl

private theorem mem_allTables (h : Departs c db db') (hdb : db.Placed) (ht : t ∈ db'.allTables) :
    t ∈ db.allTables := by
  obtain ⟨s, hs, ht⟩ := Database.mem_allTables.mp ht
  obtain ⟨hactive, ht⟩ := mem_tablesIn.mp ht
  rw [h.state_eq] at hactive
  rw [allSchemas, h.schemas_eq] at hs
  exact Database.mem_allTables.mpr ⟨s, hs,
    mem_tablesIn.mpr ⟨hactive, ((h.lessens hdb).spaces s _).mem_values ht⟩⟩

/-- What nobody reads is not read when there is less. -/
theorem findDependent_eq_none (h : Departs c db db') (hdb : db.Placed)
    (hfree : db.findDependent t t = none) : db'.findDependent t t = none := by
  rw [findDependent_eq_none_iff] at hfree ⊢
  intro u hu
  rw [(h.lessens hdb).dependsOn_eq]
  exact hfree u (h.mem_allTables hdb hu)

end Departs

/-- Objects leave one after the other. -/
def Departures (c : SessionRef) : Database → Database → Prop :=
  ReflTransGen (Departs c)

namespace Departures

theorem placed (h : Departures c db db') (hdb : db.Placed) : db'.Placed := by
  induction h with
  | refl => exact hdb
  | tail _ hlast ih => exact hlast.placed ih

theorem lessens (h : Departures c db db') (hdb : db.Placed) : Lessens db db' := by
  induction h with
  | refl => exact .refl db
  | tail hbefore hlast ih => exact ih.trans (hlast.lessens (placed hbefore hdb))

theorem schemas_eq (h : Departures c db db') : db'.schemas = db.schemas := by
  induction h with
  | refl => rfl
  | tail _ hlast ih => exact hlast.schemas_eq.trans ih

private theorem findDependent_eq_none (h : Departures c db db') (hdb : db.Placed)
    (hfree : db.findDependent t t = none) : db'.findDependent t t = none := by
  induction h with
  | refl => exact hfree
  | tail hbefore hlast ih => exact hlast.findDependent_eq_none (placed hbefore hdb) ih

end Departures

end Departs

section Objects

variable {c : SessionRef} {db db' : Database} {s : SchemaRef} {o t i : ObjectRef}

private theorem detach_of_ok {u : Unit} (h : s.detach o db = .ok u db') :
    db.Holds s o ∧ db' = detached s db o := by
  obtain ⟨_, mid, hremove, h⟩ := bind_eq_ok_iff.mp h
  obtain ⟨-, hlive, rfl⟩ := remove_eq_ok_iff.mp hremove
  cases h
  exact ⟨⟨_, NameMap.mem_values_of_get? hlive⟩, rfl⟩

private theorem eq_of_detach_eq_error {e : CatalogError} (h : s.detach o db = .error e db') :
    db' = db := by
  rcases bind_eq_error_iff.mp h with h | ⟨_, mid, -, h⟩
  · rw [remove_eq_guarded] at h
    exact eq_of_guarded_eq_error h
  · cases h

theorem eq_of_detachObject_eq_error {e : CatalogError} (h : detachObject o db = .error e db') :
    db' = db := by
  rcases bind_eq_error_iff.mp h with hlook | ⟨s, mid, hschema, hrest⟩
  · exact (lift_eq_error_iff.mp hlook).2
  · obtain ⟨-, rfl⟩ := lift_eq_ok_iff.mp hschema
    exact eq_of_detach_eq_error hrest

private theorem departures_detach (hfree : (db.object o).kind = .tableOrView →
    db.findDependent o o = none ∧ ∀ i, ¬ db.Carries o i) :
    Departures c db (stateAfter (s.detach o) db) := by
  cases hrun : s.detach o db with
  | ok u db' =>
    obtain ⟨ho, rfl⟩ := detach_of_ok hrun
    rw [stateAfter_of_ok hrun]
    exact .single (.detached ho hfree)
  | error e db' =>
    rw [stateAfter_of_error hrun, eq_of_detach_eq_error hrun]
    exact .refl

private theorem departures_detachObject (hfree : (db.object o).kind = .tableOrView →
    db.findDependent o o = none ∧ ∀ i, ¬ db.Carries o i) :
    Departures c db (stateAfter (detachObject o) db) :=
  stateAfter_look_bind (Departures c db) .refl fun _ _ => departures_detach hfree

namespace Placed

/-- Objects that are no tables leave the schema, and if nothing fails, all of them. -/
private theorem departures_forM_detach (hdb : db.Placed) {objects : List ObjectRef}
    (hkinds : ∀ o ∈ objects, (db.object o).kind ≠ .tableOrView) :
    Departures c db (stateAfter (objects.forM s.detach) db) ∧
      ∀ u db', objects.forM s.detach db = .ok u db' → ∀ o ∈ objects, ¬ db'.Holds s o := by
  induction objects generalizing db with
  | nil => exact ⟨.refl, by simp⟩
  | cons o objects ih =>
    obtain ⟨hkind, hkinds⟩ := List.forall_mem_cons.mp hkinds
    change Departures c db (stateAfter (s.detach o >>= fun _ => objects.forM s.detach) db) ∧
      ∀ u db', (s.detach o >>= fun _ => objects.forM s.detach) db = .ok u db' → _
    cases hrun : s.detach o db with
    | error e mid =>
      rw [stateAfter_bind, bind_of_error hrun, hrun, eq_of_detach_eq_error hrun]
      exact ⟨.refl, fun u db' h => by cases h⟩
    | ok u mid =>
      obtain ⟨ho, rfl⟩ := detach_of_ok hrun
      have hstep : Departs c db (Database.detached s db o) :=
        .detached ho fun htable => absurd htable hkind
      have hmid := hstep.placed hdb
      have hkinds' : ∀ o' ∈ objects,
          ((Database.detached s db o).object o').kind ≠ .tableOrView := by
        intro o' ho'
        rw [kind_detached]
        exact hkinds o' ho'
      obtain ⟨hrest, hgone⟩ := ih hmid hkinds'
      rw [stateAfter_bind_of_ok hrun, bind_of_ok hrun]
      refine ⟨.head hstep hrest, fun u db' hok => List.forall_mem_cons.mpr ⟨?_, hgone u db' hok⟩⟩
      rw [stateAfter_of_ok hok] at hrest
      intro hheld
      obtain ⟨kind, hheld⟩ := (Departures.lessens hrest hmid).holds hheld
      exact ((hdb.mem_space_detached ho).mp hheld).2 rfl

/-- The table that the session keeps under the name of one of its tables is this very table. -/
private theorem departures_removeTempTable (hdb : db.Placed)
    (ht : t ∈ (db.session c).tempTables.values) (hfree : db.findDependent t t = none) :
    Departures c db (stateAfter (removeTempTable (some c) t) db) := by
  have hfind : (db.session c).tempTables.get? (db.nameOf t) = some t :=
    (hdb.tempKeyed c).mem_values_iff.mp ht
  have hsession : SchemaRef.sessionFor (some c) t db = .ok c := rfl
  have hafter : stateAfter (removeTempTable (some c) t) db =
      (c.dropTempTable (db.nameOf t) db).2 := by
    rw [removeTempTable, stateAfter_bind_of_ok (lift_of_ok hsession), stateAfter_get_bind,
      stateAfter_bind_unchanged fun t? _ => by cases t? <;> rfl]
    rfl
  have htidy := hdb.tidy c
  rw [hafter]
  refine .single (.tempDropped (htidy.tempDropped_table hfind) ?_ ?_)
  · intro u hu htable i hi hid
    rcases List.mem_append.mp hu with hu | hu
    · exact absurd rfl (htidy.ne htable (List.mem_filter.mp hu).1)
    · rw [List.mem_singleton.mp hu] at hid
      exact List.mem_append_left _ (List.mem_filter.mpr ⟨hi, by simpa⟩)
  · intro u hu htable
    rcases List.mem_append.mp hu with hu | hu
    · exact absurd rfl (htidy.ne htable (List.mem_filter.mp hu).1)
    · rwa [List.mem_singleton.mp hu]

theorem departures_dropTempIndex (hdb : db.Placed) (c : SessionRef) (name : String) :
    Departures c db (c.dropTempIndex name db).2 := by
  cases hfind : (db.session c).tempIndexes.get? name with
  | none =>
    rw [SessionRef.dropTempIndex, SessionRef.tempIndex?, hfind]
    exact .refl
  | some i =>
    have htidy := hdb.tidy c
    have hnone : ∀ t ∈ [i], t ∉ (db.session c).tempTables.values := by
      intro t ht htable
      rw [List.mem_singleton.mp ht] at htable
      exact htidy.ne htable (NameMap.mem_values_of_get? hfind) rfl
    exact .single (.tempDropped (htidy.tempDropped_index hfind)
      (fun t ht htable => absurd htable (hnone t ht)) fun t ht htable =>
        absurd htable (hnone t ht))

/-- The indexes that a table carries leave before it. -/
private theorem departures_removeTable (hdb : db.Placed) (ht : db.Visible c s t) :
    Departures c db (stateAfter (removeTable (some c) t) db) := by
  rw [removeTable, stateAfter_get_bind]
  cases hfree : db.findDependent t t with
  | some dependent => exact .refl
  | none =>
    cases hlocal : (db.tableOf t).isLocalTemporary with
    | true =>
      simp only [if_true]
      exact hdb.departures_removeTempTable (hdb.mem_tempTables_of_local ht hlocal) hfree
    | false =>
      have hmem := hdb.mem_space_of_not_local ht hlocal
      simp only [Bool.false_eq_true, if_false]
      refine stateAfter_look_bind (Departures c db) .refl fun r hschema => ?_
      obtain rfl := hdb.schema_of_ok ⟨_, hmem⟩ hschema
      refine stateAfter_look_bind (Departures c db) .refl fun indexes hindexes => ?_
      have hiff : ∀ {i}, i ∈ indexes ↔ db.Carries t i := hdb.mem_indexesOf ht hindexes
      have hkinds : ∀ i ∈ indexes, (db.object i).kind ≠ .tableOrView := by
        intro i hi
        rw [(hdb.inOrder r).kind_of_mem (hdb.mem_space_of_carries hmem (hiff.mp hi))]
        decide
      obtain ⟨hgo, hgone⟩ := hdb.departures_forM_detach (c := c) (s := r) hkinds
      rw [stateAfter] at hgo
      rw [stateAfter_bind]
      cases hrun : indexes.forM r.detach db with
      | error e mid =>
        rw [hrun] at hgo
        exact hgo
      | ok u mid =>
        rw [hrun] at hgo
        have hgo : Departures c db mid := hgo
        have hless := hgo.lessens hdb
        refine hgo.trans (departures_detachObject fun _ =>
          ⟨hgo.findDependent_eq_none hdb hfree, fun i hon => ?_⟩)
        -- an index that is left would be one of those that have left
        have hold := hon.of_lessens hless
        have hheld : db.Holds r i := ⟨_, hdb.mem_space_of_carries hmem hold⟩
        refine hgone u mid hrun i (hiff.mpr hold) ?_
        rcases hon.index_present with ⟨r', hi⟩ | ⟨d, hi⟩
        · exact hdb.schema_eq hheld (hless.holds hi) ▸ hi
        · exact absurd hheld (hdb.apart d r i (hless.keeps hi))

theorem departures_removeObject (hdb : db.Placed)
    (ho : db.Holds s o ∨ o ∈ (db.session c).tempTables.values) :
    Departures c db (stateAfter (removeObject (some c) o) db) := by
  by_cases hkind : (db.object o).kind = .tableOrView
  · have hvisible : db.Visible c s o := by
      refine ho.imp_left fun ho => ?_
      have hmem := (hdb.inOrder s).mem_of_holds ho
      rwa [hkind] at hmem
    rw [stateAfter, removeObject_of_table hkind]
    exact hdb.departures_removeTable hvisible
  · rw [stateAfter, removeObject_of_other hkind]
    exact departures_detachObject fun htable => absurd htable hkind

end Placed

end Objects

section Teardown

variable {c : SessionRef} {db db' : Database} {s : SchemaRef} {o : ObjectRef} {name : String}

/-- From where everything is in place, objects leave. -/
def Empties (c : SessionRef) (db db' : Database) : Prop :=
  db.Placed → Departures c db db'

instance : IsPreorder Database (Empties c) where
  refl _ _ := .refl
  trans _ _ _ h h' hdb := (h hdb).trans (h' ((h hdb).placed hdb))

private theorem holds_of_contains (h : s.contains o db = .ok true) : db.Holds s o := by
  obtain ⟨registry, hactive, h⟩ := look_bind_eq_ok_iff.mp h
  obtain ⟨-, rfl⟩ := activeRegistry_eq_ok_iff.mp hactive
  rw [read_bind_run] at h
  exact ⟨_, NameMap.mem_values_of_get? (Registry.contains_iff.mp (Except.ok.inj h))⟩

private theorem holds_of_firstOf {kind : ObjectKind} (h : s.firstOf kind db = .ok (some o)) :
    db.Holds s o := by
  obtain ⟨registry, hactive, h⟩ := look_bind_eq_ok_iff.mp h
  obtain ⟨-, rfl⟩ := activeRegistry_eq_ok_iff.mp hactive
  exact ⟨kind, mem_of_first? (Except.ok.inj h)⟩

private theorem stateAfter_hostLook {α η : Type} (look : Lookup α) (state : Database × η) :
    stateAfter (liftM look : HostM η α) state = state := by
  obtain ⟨db, own⟩ := state
  rw [stateAfter, host_look_run]
  cases look db <;> rfl

private theorem stateAfter_hostLook_bind {α β η : Type} {look : Lookup α} {next : α → HostM η β}
    {state : Database × η} (post : Database × η → Prop) (hstate : post state)
    (hnext : ∀ a, look state.1 = .ok a → post (stateAfter (next a) state)) :
    post (stateAfter ((liftM look : HostM η α) >>= next) state) := by
  obtain ⟨db, own⟩ := state
  refine stateAfter_bind_of_found post (stateAfter_hostLook look _) hstate fun a h => hnext a ?_
  rw [host_look_run] at h
  cases hlook : look db with
  | ok a' =>
    rw [hlook] at h
    cases h
    rfl
  | error e =>
    rw [hlook] at h
    cases h

private theorem empties_removeThroughHost {state : Database × Unit} (ho : state.1.Holds s o) :
    OnDatabase (Empties c) state (stateAfter (removeThroughHost host (some c) s o) state) := by
  obtain ⟨db, own⟩ := state
  intro hdb
  have hafter : (stateAfter (removeThroughHost host (some c) s o) (db, own)).1 =
      stateAfter (removeObject (some c) o) db := by
    rw [removeThroughHost, stateAfter_bind_unchanged]
    · change (stateAfter (liftM (removeObject (some c) o) : HostM Unit Unit) (db, own)).1 = _
      rw [stateAfter, host_run, stateAfter]
      cases removeObject (some c) o db <;> rfl
    · intro _ state'
      refine stateAfter_hostLook_bind (· = state') rfl fun present _ => ?_
      split <;> rfl
  rw [hafter]
  exact hdb.departures_removeObject (.inl ho)

private theorem empties_removeTables (s : SchemaRef) (tables : List ObjectRef) :
    Leaves (OnDatabase (Empties c)) (removeTables host (some c) s tables) := by
  refine .forM (fun t state => ?_) tables
  refine stateAfter_hostLook_bind (OnDatabase (Empties c) state) (refl_of _ state)
    fun present h => ?_
  cases present with
  | false => exact refl_of (OnDatabase (Empties c)) state
  | true => exact empties_removeThroughHost (holds_of_contains h)

private theorem empties_drain (s : SchemaRef) (kind : ObjectKind) (limit : Nat) :
    Leaves (OnDatabase (Empties c)) (drain host (some c) s kind limit) := by
  induction limit with
  | zero => exact .pure _
  | succ limit ih =>
    intro state
    refine stateAfter_hostLook_bind (OnDatabase (Empties c) state) (refl_of _ state) fun o? h => ?_
    cases o? with
    | none => exact refl_of (OnDatabase (Empties c)) state
    | some o =>
      exact Leaves.bind_from (empties_removeThroughHost (holds_of_firstOf h)) fun _ => ih

private theorem empties_removeKind (s : SchemaRef) (kind : ObjectKind) :
    Leaves (OnDatabase (Empties c)) (removeKind host (some c) s kind) :=
  .get_bind fun state => empties_drain s kind _ state

/-- A schema that is emptied becomes invalid in the end; what fails before leaves it as it is. -/
private theorem departures_removeChildren (hdb : db.Placed) (s : SchemaRef) :
    match removeChildren host (some c) s (db, ()) with
    | .ok _ (db', _) => ∃ mid, Departures c db mid ∧ (mid.schema s).registry.isEmpty = true ∧
      db' = mid.modifySchema s Schema.invalidate
    | .error _ (db', _) => Departures c db db' := by
  have hphases : Leaves (OnDatabase (Empties c)) (tableRemovalOrder host s >>= fun order =>
      removeTables host (some c) s order >>= fun _ =>
        trailingKinds.forM (removeKind host (some c) s)) :=
    (Leaves.tableRemovalOrder host s).bind fun order => (empties_removeTables s order).bind
      fun _ => .forM (empties_removeKind s) trailingKinds
  have hgo : Departures c db _ := hphases (db, ()) hdb
  rw [stateAfter] at hgo
  rw [removeChildren]
  simp only [← bind_assoc] at hgo ⊢
  rw [bind_assoc, bind_run]
  split at hgo
  next _ last hrun =>
    rw [hrun]
    dsimp only
    rw [get_bind_run]
    by_cases hempty : (last.1.schema s).registry.isEmpty = true
    · rw [if_pos hempty]
      exact ⟨_, hgo, hempty, rfl⟩
    · rw [if_neg hempty]
      exact hgo
  next hrun =>
    rw [hrun]
    exact hgo

/-- Objects leave the schema that is dropped, and then the schema itself goes. -/
theorem departures_dropSchema (hdb : db.Placed) (name : String) :
    match dropSchema (some c) name db with
    | .ok _ db' => ∃ s mid, db.findSchema name = some s ∧ Departures c db mid ∧
      (mid.schema s).registry.isEmpty = true ∧ db' = schemaGone s name mid
    | .error _ db' => Departures c db db' := by
  cases hname : db.findSchema name with
  | none =>
    rw [dropSchema, bind_of_error (lift_of_error (getSchema_of_none hname))]
    exact .refl
  | some s =>
    cases hsystem : (db.schema s).system with
    | true =>
      rw [dropSchema_of_system hname hsystem]
      exact .refl
    | false =>
      have hchildren := departures_removeChildren (c := c) hdb s
      rw [dropSchema_run hname hsystem]
      cases hrun : removeChildren host (some c) s (db, ()) with
      | ok _ state =>
        rw [hrun] at hchildren
        obtain ⟨last, own⟩ := state
        obtain ⟨mid, hgo, hempty, rfl⟩ := hchildren
        exact ⟨s, mid, rfl, hgo, hempty, rfl⟩
      | error e state =>
        rw [hrun] at hchildren
        exact hchildren

end Teardown

end Database

end SchemaCatalog
