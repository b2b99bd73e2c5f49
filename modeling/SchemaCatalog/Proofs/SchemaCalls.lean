import SchemaCatalog.Proofs.Growth
import SchemaCatalog.Proofs.Shrinking
/-!
# Calls on a schema

The calls that change one schema. `SchemaCall.effect_of_ok` says once what a call that succeeds has
done, and `SchemaCall.unchanged_of_error` that one that fails has done nothing. Names are reserved
one at a time, and all that the other calls do to the reserved names is strike some off.
-/
namespace SchemaCatalog

open Database

/-- A call that changes a schema. -/
inductive SchemaCall where
  | add (o : ObjectRef)
  | rename (o : ObjectRef) (newName : String)
  | remove (o : ObjectRef)
  | uniqueName (base : String) (kind : ObjectKind) (stem : String)
  | uniqueIndexName (session : Option SessionRef) (t : ObjectRef) (stem : String)
  | freeName (name : String)
  | release (r : Reservation)
deriving DecidableEq, Inhabited

namespace SchemaCall

/-- Make a call on a schema and return the name that it hands out, if any. -/
def run (s : SchemaRef) : SchemaCall → CatalogM (Option Reservation)
  | add o => do s.add o; return none
  | rename o newName => do s.rename o newName; return none
  | remove o => do s.remove o; return none
  | uniqueName base kind stem => do return some (← s.uniqueName base kind stem)
  | uniqueIndexName session t stem => do return some (← s.uniqueIndexName session t stem)
  | freeName name => do modify (s.freeName name); return none
  | release r => do modify (s.release r); return none

/-- The kind of object that a call hands out a name for. The indexes of a local temporary table are
kept by a session and have no name space in the schema. -/
def kind? (db : Database) : SchemaCall → Option ObjectKind
  | uniqueName _ kind _ => some kind
  | uniqueIndexName _ t _ => if (db.tableOf t).isLocalTemporary then none else some .index
  | _ => none

/-- The names that a call strikes off the reserved ones, whoever holds them. -/
def names (db : Database) : SchemaCall → List String
  | add o => [db.nameOf o]
  | rename o newName => [db.nameOf o, newName]
  | remove o => [db.nameOf o]
  | freeName name => [name]
  | _ => []

/-- What a call that succeeds hands out and leaves behind. -/
inductive Effect (s : SchemaRef) (db : Database) :
    SchemaCall → Option Reservation → Database → Prop
  | added {o : ObjectRef} (hactive : (db.schema s).state = .active)
    (howner : (db.object o).schema = some s)
    (hfree : (db.space s (db.object o).kind).get? (db.nameOf o) = none) :
    Effect s db (.add o) none (entered s o db)
  | renamed {o : ObjectRef} {newName : String} (hactive : (db.schema s).state = .active)
    (hlive : (db.space s (db.object o).kind).get? (db.nameOf o) = some o)
    (hfree : (db.space s (db.object o).kind).get? newName = none)
    (hcheck : (db.object o).checkRename = .ok ()) :
    Effect s db (.rename o newName) none (Database.renamed s o newName db)
  | removed {o : ObjectRef} (hactive : (db.schema s).state = .active)
    (hlive : (db.space s (db.object o).kind).get? (db.nameOf o) = some o) :
    Effect s db (.remove o) none (struckOut s o db)
  | named {base : String} {kind : ObjectKind} {stem : String} {r : Reservation} {db' : Database}
    (hactive : (db.schema s).state = .active)
    (hreserve : s.reserve base stem (db.space s kind) db = (r, db')) :
    Effect s db (.uniqueName base kind stem) (some r) db'
  | indexNamed {session : Option SessionRef} {t : ObjectRef} {stem : String}
    {live : NameMap ObjectRef} {r : Reservation} {db' : Database}
    (hactive : (db.schema s).state = .active)
    (hlive : (db.tableOf t).isLocalTemporary = false → live = db.space s .index)
    (hreserve : s.reserve (db.nameOf t) stem live db = (r, db')) :
    Effect s db (.uniqueIndexName session t stem) (some r) db'
  | freed (name : String) : Effect s db (.freeName name) none
      (withReservations s ((db.schema s).reservations.free name) db)
  | released (r : Reservation) : Effect s db (.release r) none
      (withReservations s ((db.schema s).reservations.release r) db)

section Run

variable {s : SchemaRef} {db db' : Database} {call : SchemaCall} {r? : Option Reservation}
  {r : Reservation} {e : CatalogError} {session : Option SessionRef} {t : ObjectRef}
  {base stem : String} {kind : ObjectKind}

private theorem eq_of_uniqueName_eq_error (h : s.uniqueName base kind stem db = .error e db') :
    db' = db := by
  rcases bind_eq_error_iff.mp h with h | ⟨registry, mid, -, h⟩
  · exact (lift_eq_error_iff.mp h).2
  · cases h

/-- The indexes of a local temporary table are looked for in the session. -/
theorem reserve_of_uniqueIndexName (h : s.uniqueIndexName session t stem db = .ok r db') :
    (db.schema s).state = .active ∧ ∃ live,
      ((db.tableOf t).isLocalTemporary = false → live = db.space s .index) ∧
        s.reserve (db.nameOf t) stem live db = (r, db') := by
  rw [SchemaRef.uniqueIndexName, get_bind_run, get_bind_run] at h
  cases hlocal : (db.tableOf t).isLocalTemporary with
  | false =>
    simp only [hlocal, Bool.false_eq_true, if_false] at h
    obtain ⟨hactive, hreserve⟩ := uniqueName_eq_ok_iff.mp h
    exact ⟨hactive, _, fun _ => rfl, hreserve⟩
  | true =>
    simp only [hlocal, if_true] at h
    obtain ⟨c, mid, hsession, h⟩ := bind_eq_ok_iff.mp h
    obtain ⟨-, rfl⟩ := lift_eq_ok_iff.mp hsession
    obtain ⟨registry, mid, hactive, h⟩ := bind_eq_ok_iff.mp h
    obtain ⟨hactive, rfl⟩ := lift_eq_ok_iff.mp hactive
    exact ⟨(activeRegistry_eq_ok_iff.mp hactive).1, _, fun hfalse => (by cases hfalse),
      modifyGet_eq_ok_iff.mp h⟩

theorem eq_of_uniqueIndexName_eq_error
    (h : s.uniqueIndexName session t stem db = .error e db') : db' = db := by
  rw [SchemaRef.uniqueIndexName, get_bind_run, get_bind_run] at h
  split at h
  · rcases bind_eq_error_iff.mp h with h | ⟨c, mid, hsession, h⟩
    · exact (lift_eq_error_iff.mp h).2
    · obtain ⟨-, rfl⟩ := lift_eq_ok_iff.mp hsession
      rcases bind_eq_error_iff.mp h with h | ⟨registry, mid, -, h⟩
      · exact (lift_eq_error_iff.mp h).2
      · cases h
  · exact eq_of_uniqueName_eq_error h

/-- A call that succeeds has done what its effect says. -/
theorem effect_of_ok (h : call.run s db = .ok r? db') : Effect s db call r? db' := by
  cases call with
  | add o =>
    obtain ⟨_, mid, hadd, h⟩ := bind_eq_ok_iff.mp h
    obtain ⟨hactive, howner, hfree, rfl⟩ := add_eq_ok_iff.mp hadd
    cases h
    exact .added hactive howner hfree
  | rename o newName =>
    obtain ⟨_, mid, hrename, h⟩ := bind_eq_ok_iff.mp h
    obtain ⟨hactive, hlive, hfree, hcheck, rfl⟩ := rename_eq_ok_iff.mp hrename
    cases h
    exact .renamed hactive hlive hfree hcheck
  | remove o =>
    obtain ⟨_, mid, hremove, h⟩ := bind_eq_ok_iff.mp h
    obtain ⟨hactive, hlive, rfl⟩ := remove_eq_ok_iff.mp hremove
    cases h
    exact .removed hactive hlive
  | uniqueName base kind stem =>
    obtain ⟨r, mid, hname, h⟩ := bind_eq_ok_iff.mp h
    obtain ⟨hactive, hreserve⟩ := uniqueName_eq_ok_iff.mp hname
    cases h
    exact .named hactive hreserve
  | uniqueIndexName session t stem =>
    obtain ⟨r, mid, hname, h⟩ := bind_eq_ok_iff.mp h
    obtain ⟨hactive, live, hlive, hreserve⟩ := reserve_of_uniqueIndexName hname
    cases h
    exact .indexNamed hactive hlive hreserve
  | freeName name =>
    cases h
    rw [freeName_eq]
    exact .freed name
  | release r =>
    cases h
    rw [release_eq]
    exact .released r

/-- A call that fails leaves everything as it was. -/
theorem unchanged_of_error (h : call.run s db = .error e db') : db' = db := by
  cases call with
  | add | rename | remove =>
    rcases bind_eq_error_iff.mp h with h | ⟨_, _, -, h⟩
    · exact eq_of_guarded_eq_error h
    · cases h
  | uniqueName =>
    rcases bind_eq_error_iff.mp h with h | ⟨_, _, -, h⟩
    · exact eq_of_uniqueName_eq_error h
    · cases h
  | uniqueIndexName =>
    rcases bind_eq_error_iff.mp h with h | ⟨_, _, -, h⟩
    · exact eq_of_uniqueIndexName_eq_error h
    · cases h
  | freeName | release => cases h

end Run

/-- A call strikes a key off the reserved ones, either for its names or because the reservation
that it gives back is still entered. -/
def Strikes (s : SchemaRef) (db : Database) (call : SchemaCall) (key : String) : Prop :=
  (∃ name ∈ call.names db, key = (db.schema s).reservations.key name) ∨
    ∃ r, call = .release r ∧ key = (db.schema s).reservations.key r.name ∧
      (db.schema s).reservations.names.get? key = some r.token

namespace Effect

variable {s : SchemaRef} {db db' : Database} {call : SchemaCall} {r? : Option Reservation}
  {r : Reservation} {kind : ObjectKind} {key : String} {o : ObjectRef}

/-- A call that hands out no name only strikes off some. -/
theorem frees (h : Effect s db call none db') :
    (db.schema s).reservations.Frees (call.Strikes s db) (db'.schema s).reservations := by
  cases h with
  | added =>
    rw [entered, schema_modifySchema, if_pos rfl]
    refine (ReservationSet.frees_free _ _).congr fun key => ?_
    simp [Strikes, names]
  | renamed =>
    rw [Database.renamed, schema_modifySchema, if_pos rfl]
    refine ((ReservationSet.frees_free _ _).trans (ReservationSet.frees_free _ _)).congr
      fun key => ?_
    simp [Strikes, names, ReservationSet.key, ReservationSet.free]
  | removed =>
    rw [struckOut, schema_modifySchema, if_pos rfl]
    refine (ReservationSet.frees_free _ _).congr fun key => ?_
    simp [Strikes, names]
  | freed name =>
    rw [reservations_withReservations]
    refine (ReservationSet.frees_free _ _).congr fun key => ?_
    simp [Strikes, names]
  | released r =>
    rw [reservations_withReservations]
    refine (ReservationSet.frees_release _ r).congr fun key => ?_
    simp [Strikes, names]

/-- A name that is handed out for a kind is free in the name space of this kind. -/
theorem granted (h : Effect s db call (some r) db') : ∃ live, Granted s live r db db' ∧
    ∀ kind, call.kind? db = some kind → live = db.space s kind := by
  cases h with
  | named hactive hreserve =>
    exact ⟨_, granted_of_reserve hreserve, fun kind hkind => by cases hkind; rfl⟩
  | indexNamed hactive hlive hreserve =>
    refine ⟨_, granted_of_reserve hreserve, fun kind hkind => ?_⟩
    rw [kind?] at hkind
    split at hkind
    next => cases hkind
    next hlocal =>
      cases hkind
      exact hlive (Bool.eq_false_iff.mpr hlocal)

/-- What is registered after a call was registered before, or has one of the names of the call. -/
theorem get?_space (h : Effect s db call r? db')
    (hget : (db'.space s kind).entries.get? key = some o) :
    (db.space s kind).entries.get? key = some o ∨
      ∃ name ∈ call.names db, key = (db.space s kind).key name := by
  have hinsert : ∀ {m : NameMap ObjectRef} {name : String} {o' : ObjectRef},
      (m.insert name o').entries.get? key = some o →
        m.entries.get? key = some o ∨ key = m.key name := by
    intro m name o' h
    rw [NameMap.entries_insert, SortedMap.get?_insert] at h
    split at h
    next hkey => exact .inr hkey
    next => exact .inl h
  have hsame : ∀ reservations,
      ((withReservations s reservations db).space s kind).entries.get? key = some o →
        (db.space s kind).entries.get? key = some o := by
    intro reservations h
    rwa [space_withReservations] at h
  cases h with
  | added =>
    rw [space_entered] at hget
    split at hget
    · exact (hinsert hget).imp_right fun hkey => ⟨_, List.mem_singleton_self _, hkey⟩
    · exact .inl hget
  | @renamed o' newName =>
    rw [space_renamed] at hget
    split at hget
    · rcases hinsert hget with hold | hkey
      · exact .inl (NameMap.within_erase _ _ _ _ hold).2
      · exact .inr ⟨newName, List.mem_cons_of_mem _ (List.mem_singleton_self _), hkey⟩
    · exact .inl hget
  | removed =>
    rw [space_struckOut] at hget
    split at hget
    · exact .inl (NameMap.within_erase _ _ _ _ hget).2
    · exact .inl hget
  | named _ hreserve | indexNamed _ _ hreserve =>
    rw [(granted_of_reserve hreserve).result] at hget
    exact .inl (hsame _ hget)
  | freed | released => exact .inl (hsame _ hget)

end Effect

end SchemaCall

end SchemaCatalog
