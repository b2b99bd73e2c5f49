import SchemaCatalog.Proofs.RemovalOrder
import SchemaCatalog.Teardown.Removal
/-!
# Emptying a schema

With the database as host, emptying a schema detaches its objects one after the other. Tables go in
the order of removal, so that no registered table reads one that goes, and take their indexes with
them; the other kinds are drained. No step of this fails once the order stands.
-/
namespace SchemaCatalog.Database

/-- A registered schema of a consistent database that has not been emptied. -/
structure Live (db : Database) (s : SchemaRef) : Prop where
  consistent : db.Consistent
  registered : s ∈ db.allSchemas
  active : (db.schema s).state = .active

/-- An action that detaches objects of the schema and does nothing else. -/
def Strips (s : SchemaRef) (act : HostM Unit Unit) (db : Database) (post : Database → Prop) :
    Prop :=
  ∃ gone : List ObjectRef, gone.Nodup ∧ (∀ o ∈ gone, db.Holds s o) ∧
    act (db, ()) = .ok () (detachedAll s gone db, ()) ∧ post (detachedAll s gone db)

section Strips

variable {db : Database} {s : SchemaRef} {gone : List ObjectRef} {o : ObjectRef}
  {act next : HostM Unit Unit} {post last : Database → Prop}

theorem allSchemas_detachedAll (s : SchemaRef) (gone : List ObjectRef) (db : Database) :
    (detachedAll s gone db).allSchemas = db.allSchemas := by
  rw [allSchemas, schemas_detachedAll, allSchemas]

private theorem Live.after (h : db.Live s) (hnodup : gone.Nodup)
    (hheld : ∀ o ∈ gone, db.Holds s o) : (detachedAll s gone db).Live s where
  consistent := consistent_detachedAll h.consistent h.registered hheld hnodup
  registered := by
    rw [allSchemas_detachedAll]
    exact h.registered
  active := by
    rw [(frame_detachedAll s gone db).schema]
    exact h.active

theorem Live.mem_space_detachedAll (h : db.Live s) (hnodup : gone.Nodup)
    (hheld : ∀ o ∈ gone, db.Holds s o) {kind : ObjectKind} :
    o ∈ ((detachedAll s gone db).space s kind).values ↔
      o ∈ (db.space s kind).values ∧ o ∉ gone :=
  ((h.consistent.inOrder h.registered).detachedAll hheld hnodup).2 kind o

private theorem Live.holds_detachedAll (h : db.Live s) (hnodup : gone.Nodup)
    (hheld : ∀ o ∈ gone, db.Holds s o) :
    (detachedAll s gone db).Holds s o ↔ db.Holds s o ∧ o ∉ gone := by
  simp only [Holds, h.mem_space_detachedAll hnodup hheld, exists_and_right]

private theorem Strips.none (hpost : post db) : Strips s (pure ()) db post :=
  ⟨[], .nil, by simp, rfl, hpost⟩

private theorem Strips.mono (h : Strips s act db post) (himp : ∀ db', post db' → last db') :
    Strips s act db last := by
  obtain ⟨gone, hnodup, hheld, hrun, hpost⟩ := h
  exact ⟨gone, hnodup, hheld, hrun, himp _ hpost⟩

/-- First some objects go, then some of those left. -/
private theorem Strips.bind (h : Strips s act db post) (hlive : db.Live s)
    (hnext : ∀ db', db'.Live s → post db' → Strips s next db' last) :
    Strips s (act >>= fun _ => next) db last := by
  obtain ⟨gone, hnodup, hheld, hrun, hpost⟩ := h
  obtain ⟨gone', hnodup', hheld', hrun', hlast⟩ :=
    hnext _ (hlive.after hnodup hheld) hpost
  have hleft : ∀ o ∈ gone', db.Holds s o ∧ o ∉ gone := fun o ho =>
    (hlive.holds_detachedAll hnodup hheld).mp (hheld' o ho)
  refine ⟨gone ++ gone', ?_, ?_, ?_, ?_⟩
  · refine List.nodup_append.mpr ⟨hnodup, hnodup', fun o ho o' ho' heq => ?_⟩
    exact (hleft o' ho').2 (heq ▸ ho)
  · intro o ho
    rcases List.mem_append.mp ho with ho | ho
    · exact hheld o ho
    · exact (hleft o ho).1
  · rw [bind_of_ok hrun, hrun', detachedAll_append]
  · rwa [detachedAll_append]

private theorem Strips.look {α : Type} {look : Lookup α} {a : α} {next : α → HostM Unit Unit}
    (h : look db = .ok a) (hnext : Strips s (next a) db last) :
    Strips s ((liftM look : HostM Unit α) >>= next) db last := by
  obtain ⟨gone, hnodup, hheld, hrun, hlast⟩ := hnext
  exact ⟨gone, hnodup, hheld, (bind_of_ok (host_of_look h)).trans hrun, hlast⟩

private theorem Live.contains_eq (h : db.Live s) :
    s.contains o db = .ok (decide (o ∈ (db.space s (db.object o).kind).values)) := by
  rw [SchemaRef.contains, look_bind_of_ok (activeRegistry_eq h.active), read_bind_run]
  refine congrArg Except.ok (Bool.eq_iff_iff.mpr ?_)
  rw [Registry.contains_iff, decide_eq_true_iff]
  exact ((h.consistent.keyed s h.registered _).mem_values_iff).symm

/-- An object that the database removes is gone, which is what the schema insists on. -/
private theorem Strips.removeThroughHost {session : Option SessionRef} (hlive : db.Live s)
    (hnodup : gone.Nodup) (hheld : ∀ o ∈ gone, db.Holds s o) (ho : o ∈ gone)
    (hrun : removeObject session o db = .ok () (detachedAll s gone db))
    (hpost : post (detachedAll s gone db)) :
    Strips s (removeThroughHost host session s o) db post := by
  have hleft : o ∉ ((detachedAll s gone db).space s
      ((detachedAll s gone db).object o).kind).values := fun hmem =>
    ((hlive.mem_space_detachedAll hnodup hheld).mp hmem).2 ho
  have hcontains := (hlive.after hnodup hheld).contains_eq (o := o)
  rw [decide_eq_false hleft] at hcontains
  refine ⟨gone, hnodup, hheld, ?_, hpost⟩
  have hhost : host.removeObject session o (db, ()) = .ok () (detachedAll s gone db, ()) :=
    host_of_ok hrun
  rw [SchemaCatalog.removeThroughHost, bind_of_ok hhost, bind_of_ok (host_of_look hcontains)]
  rfl

end Strips

section Tables

variable {db : Database} {s : SchemaRef} {gone tables : List ObjectRef} {t u : ObjectRef}
  {session : Option SessionRef}

private theorem Live.mem_allTables_detachedAll (h : db.Live s) (hnodup : gone.Nodup)
    (hheld : ∀ o ∈ gone, db.Holds s o) (hu : u ∈ (detachedAll s gone db).allTables) :
    u ∈ db.allTables ∧ u ∉ gone := by
  obtain ⟨r, hr, hu⟩ := mem_allTables.mp hu
  rw [allSchemas_detachedAll] at hr
  obtain ⟨hactive, hu⟩ := mem_tablesIn.mp hu
  have hmem := mem_space_of_detachedAll hu
  have hstate : (db.schema r).state = .active := by
    by_cases hrs : r = s
    · rw [hrs]
      exact h.active
    · rwa [schema_detachedAll_of_ne gone db hrs] at hactive
  refine ⟨mem_allTables.mpr ⟨r, hr, mem_tablesIn.mpr ⟨hstate, hmem⟩⟩, fun hgone => ?_⟩
  obtain rfl := h.consistent.schema_eq h.registered hr (hheld u hgone) ⟨_, hmem⟩
  exact ((h.mem_space_detachedAll hnodup hheld).mp hu).2 hgone

/-- Tables of the schema that can go in this order: every reader of one of them comes before it. -/
structure Removable (db : Database) (s : SchemaRef) (tables : List ObjectRef) : Prop where
  nodup : tables.Nodup
  held : ∀ t ∈ tables, t ∈ (db.space s .tableOrView).values
  permanent : ∀ t ∈ tables, (db.tableOf t).isLocalTemporary = false
  closed : ∀ t ∈ tables, ∀ u ∈ db.allTables, db.dependsOn u t = true → u ∈ tables
  readersFirst : tables.Pairwise fun t u => db.dependsOn u t = false

/-- Nothing registered reads the first table any more. -/
private theorem Removable.findDependent_eq_none (h : db.Removable s (t :: tables)) :
    db.findDependent t t = none := by
  apply findDependent_eq_none_iff.mpr
  intro u hu
  by_contra hdep
  rw [Bool.not_eq_false] at hdep
  rcases List.mem_cons.mp (h.closed t (by simp) u hu hdep) with rfl | hmem
  · exact (dependsOn_iff.mp hdep).1 rfl
  · have hfalse := (List.pairwise_cons.mp h.readersFirst).1 u hmem
    rw [hdep] at hfalse
    cases hfalse

private theorem tableOf_detachedAll (s : SchemaRef) (gone : List ObjectRef) (db : Database)
    (t : ObjectRef) : (detachedAll s gone db).tableOf t = db.tableOf t := by
  rw [tableOf, object_detachedAll]
  split <;> rfl

/-- When the first table is gone with its indexes, the others can go in their order. -/
private theorem Removable.tableRemoved (hlive : db.Live s) (h : db.Removable s (t :: tables)) :
    (db.tableRemoved s t).Removable s tables := by
  obtain ⟨hnot, hnodup⟩ := List.nodup_cons.mp h.nodup
  have ht := h.held t (by simp)
  obtain ⟨hgone, hheld⟩ := (hlive.consistent.inOrder hlive.registered).indexesOn_append ht
  refine ⟨hnodup, fun t' ht' => ?_, fun t' ht' => ?_, fun t' ht' u hu hdep => ?_, ?_⟩
  · have hmem := h.held t' (List.mem_cons_of_mem _ ht')
    refine (hlive.mem_space_detachedAll hgone hheld).mpr ⟨hmem, fun hin => ?_⟩
    rcases List.mem_append.mp hin with hin | hin
    · have hindex := hlive.consistent.kind_of_mem hlive.registered (mem_indexesOn.mp hin).1
      rw [hlive.consistent.kind_of_mem hlive.registered hmem] at hindex
      cases hindex
    · exact hnot (List.mem_singleton.mp hin ▸ ht')
  · rw [Database.tableRemoved, tableOf_detachedAll]
    exact h.permanent t' (List.mem_cons_of_mem _ ht')
  · rw [Database.tableRemoved, dependsOn_detachedAll] at hdep
    obtain ⟨hu, hnotgone⟩ := hlive.mem_allTables_detachedAll hgone hheld hu
    rcases List.mem_cons.mp (h.closed t' (List.mem_cons_of_mem _ ht') u hu hdep) with rfl | hmem
    · exact absurd (by simp) hnotgone
    · exact hmem
  · simp only [Database.tableRemoved, dependsOn_detachedAll]
    exact (List.pairwise_cons.mp h.readersFirst).2

/-- Tables in an order in which they can go do go, all of them. -/
private theorem Removable.removeTables (hlive : db.Live s) (h : db.Removable s tables) :
    Strips s (removeTables host session s tables) db fun db' =>
      ∀ o ∈ (db'.space s .tableOrView).values,
        o ∈ (db.space s .tableOrView).values ∧ o ∉ tables := by
  induction tables generalizing db with
  | nil => exact .none fun o ho => ⟨ho, by simp⟩
  | cons t tables ih =>
    have ht := h.held t (by simp)
    have hkind := hlive.consistent.kind_of_mem hlive.registered ht
    obtain ⟨hgone, hheld⟩ := (hlive.consistent.inOrder hlive.registered).indexesOn_append ht
    have hrun : removeObject session t db = .ok () (db.tableRemoved s t) := by
      rw [removeObject_of_table hkind]
      exact (hlive.consistent.inOrder hlive.registered).removeTable_eq hlive.registered hlive.active ht
        (h.permanent t (by simp)) h.findDependent_eq_none
    have hcontains := hlive.contains_eq (o := t)
    rw [hkind, decide_eq_true ht] at hcontains
    have hfirst : Strips s (do
        if ← s.contains t then
          removeThroughHost host session s t) db fun db' => db' = db.tableRemoved s t :=
      .look hcontains (.removeThroughHost hlive hgone hheld (by simp) hrun rfl)
    apply hfirst.bind hlive
    rintro db' hlive' rfl
    apply (ih hlive' (h.tableRemoved hlive)).mono
    intro db'' hleft o ho
    obtain ⟨hmem, hnot⟩ := hleft o ho
    obtain ⟨hbefore, hstays⟩ := (hlive.mem_space_detachedAll hgone hheld).mp hmem
    refine ⟨hbefore, fun hin => ?_⟩
    rcases List.mem_cons.mp hin with rfl | hin
    · exact hstays (by simp)
    · exact hnot hin

end Tables

section Others

variable {db : Database} {s : SchemaRef} {kind : ObjectKind} {o : ObjectRef}
  {session : Option SessionRef} {act : HostM Unit Unit} {post : Database → Prop}

private theorem Strips.keeps_empty (h : Strips s act db post) : Strips s act db fun db' =>
    post db' ∧ ∀ kind, (db.space s kind).values = [] → (db'.space s kind).values = [] := by
  obtain ⟨gone, hnodup, hheld, hrun, hpost⟩ := h
  refine ⟨gone, hnodup, hheld, hrun, hpost, fun kind hempty => ?_⟩
  apply List.eq_nil_iff_forall_not_mem.mpr
  intro o ho
  have hmem := mem_space_of_detachedAll ho
  rw [hempty] at hmem
  cases hmem

theorem firstOf_eq (h : (db.schema s).state = .active) :
    s.firstOf kind db = .ok (db.space s kind).first? :=
  look_bind_of_ok (activeRegistry_eq h)

theorem mem_of_first? (h : (db.space s kind).first? = some o) : o ∈ (db.space s kind).values :=
  List.mem_of_mem_head? h

private theorem Live.removeOther (h : db.Live s) (hkind : kind ≠ .tableOrView)
    (ho : o ∈ (db.space s kind).values) :
    Strips s (removeThroughHost host session s o) db fun db' => db' = detached s db o := by
  have hne : (db.object o).kind ≠ .tableOrView := by
    rw [h.consistent.kind_of_mem h.registered ho]
    exact hkind
  have hrun : removeObject session o db = .ok () (detachedAll s [o] db) := by
    rw [removeObject_of_other hne]
    exact (h.consistent.inOrder h.registered).detachObject_eq h.registered h.active ⟨kind, ho⟩
  refine .removeThroughHost h (List.nodup_singleton o) ?_ (List.mem_singleton_self o) hrun rfl
  intro o' ho'
  exact ⟨kind, List.mem_singleton.mp ho' ▸ ho⟩

private theorem Live.size_detached_lt (h : db.Live s) (ho : o ∈ (db.space s kind).values) :
    ((detached s db o).space s kind).size < (db.space s kind).size := by
  rw [space_detached, if_pos ⟨rfl, (h.consistent.kind_of_mem h.registered ho).symm⟩]
  exact SortedMap.size_erase_lt (h.consistent.get?_of_mem h.registered ho)

/-- Removing the first object of a kind often enough leaves none. -/
private theorem Live.drain (h : db.Live s) (hkind : kind ≠ .tableOrView) (limit : Nat)
    (hlimit : (db.space s kind).size ≤ limit) :
    Strips s (drain host session s kind limit) db fun db' => (db'.space s kind).values = [] := by
  induction limit generalizing db with
  | zero =>
    have hsize : (db.space s kind).entries.size = 0 := Nat.le_zero.mp hlimit
    exact .none ((SortedMap.size_eq_zero_iff _).mp hsize)
  | succ limit ih =>
    rw [SchemaCatalog.drain]
    refine .look (firstOf_eq h.active) ?_
    cases hfirst : (db.space s kind).first? with
    | none =>
      have hhead : (db.space s kind).values.head? = none := hfirst
      exact .none (List.head?_eq_none_iff.mp hhead)
    | some o =>
      have ho := mem_of_first? hfirst
      apply (h.removeOther hkind ho).bind h
      rintro db' hlive rfl
      have hlt := h.size_detached_lt ho
      exact ih hlive (by omega)

theorem size_space_lt_drainLimit (s : SchemaRef) (kind : ObjectKind) (db : Database) :
    (db.space s kind).size < drainLimit s db := by
  have hle : (db.space s kind).size ≤ (db.schema s).registry.size := by
    cases kind <;> simp only [space, Registry.space, Registry.size] <;> omega
  have hlt : db.objectStore.next + (db.schema s).registry.size < drainLimit s db :=
    Nat.lt_two_pow_self
  omega

private theorem Live.removeKind (h : db.Live s) (hkind : kind ≠ .tableOrView) :
    Strips s (removeKind host session s kind) db fun db' => (db'.space s kind).values = [] :=
  h.drain hkind _ (Nat.le_of_lt (size_space_lt_drainLimit s kind db))

/-- Removing kind by kind leaves nothing of these kinds. -/
private theorem Live.removeKinds (h : db.Live s) (kinds : List ObjectKind)
    (hkinds : ∀ kind ∈ kinds, kind ≠ .tableOrView) :
    Strips s (kinds.forM (SchemaCatalog.removeKind host session s)) db fun db' =>
      (∀ kind ∈ kinds, (db'.space s kind).values = []) ∧
        ∀ kind, (db.space s kind).values = [] → (db'.space s kind).values = [] := by
  induction kinds generalizing db with
  | nil => exact .none ⟨by simp, fun _ hempty => hempty⟩
  | cons kind kinds ih =>
    obtain ⟨hkind, hkinds⟩ := List.forall_mem_cons.mp hkinds
    apply (h.removeKind hkind).keeps_empty.bind h
    rintro db' hlive ⟨hempty, hkeeps⟩
    apply (ih hlive hkinds).mono
    rintro db'' ⟨hrest, hkeeps'⟩
    refine ⟨fun other hother => ?_, fun other hother => hkeeps' other (hkeeps other hother)⟩
    rcases List.mem_cons.mp hother with rfl | hother
    · exact hkeeps' _ hempty
    · exact hrest other hother

end Others

section Drop

variable {db : Database} {s : SchemaRef} {name : String} {session : Option SessionRef}

/-- No registered table belongs to one session. -/
def Permanent (db : Database) : Prop :=
  ∀ t ∈ db.allTables, (db.tableOf t).isLocalTemporary = false

instance (db : Database) : Decidable db.Permanent :=
  inferInstanceAs (Decidable (∀ t ∈ db.allTables, (db.tableOf t).isLocalTemporary = false))

private theorem Live.removable (h : db.Live s) (hpermanent : db.Permanent)
    (hdroppable : db.Droppable s) {order : List ObjectRef}
    (horder : RemovesReadersFirst db s order) : db.Removable s order := by
  have htables := tablesIn_of_active h.active
  have hmem : ∀ t, t ∈ order ↔ t ∈ db.tablesIn s := fun t => horder.perm.mem_iff
  refine ⟨?_, fun t ht => ?_, fun t ht => ?_, fun t ht u hu hdep => ?_, horder.readersFirst⟩
  · rw [horder.perm.nodup_iff]
    exact h.consistent.nodup_tablesIn h.registered h.active
  · rw [← htables]
    exact (hmem t).mp ht
  · exact hpermanent t (mem_allTables_of_mem_tablesIn h.registered ((hmem t).mp ht))
  · by_contra hout
    refine hdroppable.inside ⟨t, (hmem t).mp ht, u, hu, fun hin => hout ((hmem u).mpr hin), ?_⟩
    exact (dependsOn_iff.mp hdep).2

/-- A schema with an order of removal is stripped of everything. -/
private theorem Live.strips_all (h : db.Live s) (session : Option SessionRef)
    {order : List ObjectRef} (hremovable : db.Removable s order)
    (hperm : order.Perm (db.tablesIn s)) :
    Strips s (do
      removeTables host session s order
      trailingKinds.forM (SchemaCatalog.removeKind host session s)) db
      fun db' => ∀ kind, (db'.space s kind).values = [] := by
  apply (hremovable.removeTables h).bind h
  intro db' hlive hleft
  have htables : (db'.space s .tableOrView).values = [] := by
    apply List.eq_nil_iff_forall_not_mem.mpr
    intro o ho
    obtain ⟨hmem, hnot⟩ := hleft o ho
    rw [← tablesIn_of_active h.active] at hmem
    exact hnot (hperm.mem_iff.mpr hmem)
  apply (hlive.removeKinds trailingKinds (by decide)).mono
  rintro db'' ⟨htrailing, hkeeps⟩ kind
  cases kind with
  | tableOrView => exact hkeeps _ htables
  | _ => exact htrailing _ (by decide)

/-- A schema without obstacles is emptied and cut off, whatever it held. -/
theorem Live.removeChildren (h : db.Live s) (session : Option SessionRef)
    (hpermanent : db.Permanent) (hdroppable : db.Droppable s) : ∃ objects : List ObjectRef,
      (∀ o, o ∈ objects ↔ db.Holds s o) ∧
      (∀ kind, ((detachedAll s objects db).space s kind).values = []) ∧
      removeChildren host session s (db, ()) =
        .ok () ((detachedAll s objects db).modifySchema s Schema.invalidate, ()) := by
  obtain ⟨order, hrun, horder⟩ :=
    tableRemovalOrder_of_droppable h.consistent h.registered h.active hdroppable
  have hremovable := h.removable hpermanent hdroppable horder
  obtain ⟨objects, hnodup, hheld, hstrip, hempty⟩ := h.strips_all session hremovable horder.perm
  have hall : ∀ o, o ∈ objects ↔ db.Holds s o := by
    refine fun o => ⟨hheld o, fun ⟨kind, ho⟩ => ?_⟩
    by_contra hnot
    have hmem := (h.mem_space_detachedAll hnodup hheld).mpr ⟨ho, hnot⟩
    rw [hempty kind] at hmem
    cases hmem
  have hregistry : ((detachedAll s objects db).schema s).registry.isEmpty = true :=
    Registry.isEmpty_iff.mpr hempty
  refine ⟨objects, hall, hempty, ?_⟩
  have hget : (get : HostM Unit (Database × Unit)) (detachedAll s objects db, ()) =
      .ok (detachedAll s objects db, ()) (detachedAll s objects db, ()) := rfl
  rw [SchemaCatalog.removeChildren, bind_of_ok hrun, ← bind_assoc, bind_of_ok hstrip,
    get_bind_run]
  simp only [hregistry, if_true]
  rfl

end Drop

end SchemaCatalog.Database
