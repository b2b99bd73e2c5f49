import SchemaCatalog.Proofs.Consistency
import SchemaCatalog.Proofs.FreshName
/-!
# Reservations

A schema enters the names that it hands out into its reserved names, one at a time and each under a
token of its own, and strikes names off. Neither touches what is registered.
-/
namespace SchemaCatalog

/-- Tokens do not repeat below the bound on their numbers. -/
theorem ofNat_injective {m n : Nat} (hm : m < UInt64.size) (hn : n < UInt64.size)
    (heq : UInt64.ofNat m = UInt64.ofNat n) : m = n := by
  have htoNat := congrArg UInt64.toNat heq
  rwa [UInt64.toNat_ofNat_of_lt' hm, UInt64.toNat_ofNat_of_lt' hn] at htoNat

namespace ReservationSet

/-- Some reserved names are struck off, and nothing else changes. -/
structure Frees (keys : String → Prop) (set set' : ReservationSet) : Prop where
  rule : set'.rule = set.rule
  nextToken : set'.nextToken = set.nextToken
  freed : ∀ key, keys key → set'.names.get? key = none
  kept : ∀ key, ¬ keys key → set'.names.get? key = set.names.get? key

theorem frees_free (set : ReservationSet) (name : String) :
    set.Frees (· = set.key name) (set.free name) where
  rule := rfl
  nextToken := rfl
  freed := by
    rintro key rfl
    simp [free, SortedMap.get?_erase]
  kept := by
    intro key hkey
    simp [free, SortedMap.get?_erase, Ne.symm hkey]

theorem frees_release (set : ReservationSet) (r : Reservation) :
    set.Frees (fun key => key = set.key r.name ∧ set.names.get? key = some r.token)
      (set.release r) := by
  refine ⟨?_, ?_, fun key hkey => ?_, fun key hkey => ?_⟩
  · rw [release]
    split <;> rfl
  · rw [release]
    split <;> rfl
  · rw [release_get?, if_pos hkey]
  · rw [release_get?, if_neg hkey]

theorem Frees.trans {keys keys' : String → Prop} {set set' set'' : ReservationSet}
    (h : set.Frees keys set') (h' : set'.Frees keys' set'') :
    set.Frees (fun key => keys key ∨ keys' key) set'' where
  rule := h'.rule.trans h.rule
  nextToken := h'.nextToken.trans h.nextToken
  freed := by
    intro key hkey
    by_cases hlast : keys' key
    · exact h'.freed key hlast
    · rw [h'.kept key hlast]
      exact h.freed key (hkey.resolve_right hlast)
  kept := by
    intro key hkey
    rw [not_or] at hkey
    rw [h'.kept key hkey.2, h.kept key hkey.1]

theorem Frees.congr {keys keys' : String → Prop} {set set' : ReservationSet}
    (h : set.Frees keys set') (hkeys : ∀ key, keys' key ↔ keys key) : set.Frees keys' set' where
  rule := h.rule
  nextToken := h.nextToken
  freed := fun key hkey => h.freed key ((hkeys key).mp hkey)
  kept := fun key hkey => h.kept key fun hfree => hkey ((hkeys key).mpr hfree)

/-- A name that is still reserved was reserved before, and not struck off. -/
theorem Frees.of_get?_eq_some {keys : String → Prop} {set set' : ReservationSet}
    (h : set.Frees keys set') {key : String} {token : UInt64}
    (hkey : set'.names.get? key = some token) :
    set.names.get? key = some token ∧ ¬ keys key := by
  have hkept : ¬ keys key := by
    intro hfree
    rw [h.freed key hfree] at hkey
    cases hkey
  rw [h.kept key hkept] at hkey
  exact ⟨hkey, hkept⟩

theorem frees_giveBack (set : ReservationSet) (g : NameGuard) :
    set.Frees (fun key => g.released = false ∧ key = set.key g.reservation.name ∧
      set.names.get? key = some g.reservation.token) (set.giveBack g) := by
  rw [giveBack]
  cases hreleased : g.released with
  | false =>
    refine (set.frees_release g.reservation).congr fun key => ?_
    exact and_iff_right rfl
  | true => exact ⟨rfl, rfl, fun _ hkey => (nomatch hkey.1), fun _ _ => rfl⟩

/-- The set with a reservation entered under its token. -/
def enter (set : ReservationSet) (r : Reservation) : ReservationSet :=
  { set with names := set.names.insert (set.key r.name) r.token, nextToken := set.nextToken + 1 }

theorem get?_enter (set : ReservationSet) (r : Reservation) (key : String) :
    (set.enter r).names.get? key =
      if key = set.key r.name then some r.token else set.names.get? key :=
  SortedMap.get?_insert ..

theorem isReserved_eq_false_iff {set : ReservationSet} {name : String} :
    set.isReserved name = false ↔ set.names.get? (set.key name) = none := by
  simp [isReserved, SortedMap.contains]

/-- What is entered and struck off again leaves no trace but that its token was given out. -/
theorem free_enter {set : ReservationSet} {r : Reservation} (h : set.isReserved r.name = false) :
    (set.enter r).free r.name = { set with nextToken := set.nextToken + 1 } :=
  congrArg (fun names => { set with names, nextToken := set.nextToken + 1 })
    (SortedMap.erase_insert (isReserved_eq_false_iff.mp h) r.token)

/-- A reservation that is given back at once takes its entry with it. -/
theorem release_enter {set : ReservationSet} {r : Reservation}
    (h : set.isReserved r.name = false) :
    (set.enter r).release r = { set with nextToken := set.nextToken + 1 } := by
  have hentry : (set.enter r).names.get? ((set.enter r).key r.name) = some r.token :=
    (set.get?_enter r _).trans (if_pos rfl)
  rw [release, if_pos hentry, free_enter h]

/-- A reservation whose name is not reserved any more takes nothing with it. -/
theorem release_of_not_reserved {set : ReservationSet} {r : Reservation}
    (h : set.isReserved r.name = false) : set.release r = set := by
  rw [release, isReserved_eq_false_iff.mp h, if_neg (by simp)]

end ReservationSet

namespace Database

/-- The database with other reserved names in a schema. -/
def withReservations (s : SchemaRef) (reservations : ReservationSet) (db : Database) : Database :=
  db.modifySchema s fun schema => { schema with reservations }

theorem space_withReservations (s r : SchemaRef) (reservations : ReservationSet) (db : Database)
    (kind : ObjectKind) : (withReservations s reservations db).space r kind = db.space r kind :=
  field_modifySchema (fun schema => schema.registry.space kind) r rfl

theorem state_withReservations (s r : SchemaRef) (reservations : ReservationSet) (db : Database) :
    ((withReservations s reservations db).schema r).state = (db.schema r).state :=
  field_modifySchema Schema.state r rfl

theorem reservations_withReservations (s : SchemaRef) (reservations : ReservationSet)
    (db : Database) :
    ((withReservations s reservations db).schema s).reservations = reservations := by
  rw [withReservations, schema_modifySchema, if_pos rfl]

theorem freeName_eq (s : SchemaRef) (name : String) (db : Database) :
    s.freeName name db = withReservations s ((db.schema s).reservations.free name) db :=
  modifySchema_congr rfl

theorem release_eq (s : SchemaRef) (r : Reservation) (db : Database) :
    s.release r db = withReservations s ((db.schema s).reservations.release r) db :=
  modifySchema_congr rfl

end Database

section Granted

open Database

variable {s : SchemaRef} {live : NameMap ObjectRef} {r : Reservation} {db db' : Database}
  {base stem : String} {kind : ObjectKind}

/-- The schema has handed out a name that is neither live nor reserved, under a token of its own. -/
structure Granted (s : SchemaRef) (live : NameMap ObjectRef) (r : Reservation)
    (db db' : Database) : Prop where
  free : live.get? r.name = none
  unreserved : (db.schema s).reservations.isReserved r.name = false
  token : r.token = UInt64.ofNat (db.schema s).reservations.nextToken
  result : db' = withReservations s ((db.schema s).reservations.enter r) db

theorem granted_of_reserve (h : s.reserve base stem live db = (r, db')) :
    Granted s live r db db' := by
  obtain ⟨hlive, hreserved⟩ := uniqueName_free (db.schema s).reservations live base stem
  cases h
  exact ⟨NameMap.contains_eq_false.mp hlive, hreserved, rfl, modifySchema_congr rfl⟩

theorem Granted.space_eq (h : Granted s live r db db') (kind : ObjectKind) :
    db'.space s kind = db.space s kind := by
  rw [h.result, space_withReservations]

theorem Granted.reservations_eq (h : Granted s live r db db') :
    (db'.schema s).reservations = (db.schema s).reservations.enter r := by
  rw [h.result, reservations_withReservations]

theorem uniqueName_eq_ok_iff : s.uniqueName base kind stem db = .ok r db' ↔
    (db.schema s).state = .active ∧ s.reserve base stem (db.space s kind) db = (r, db') := by
  rw [SchemaRef.uniqueName, bind_eq_ok_iff]
  simp only [lift_eq_ok_iff, activeRegistry_eq_ok_iff]
  constructor
  · rintro ⟨registry, mid, ⟨⟨hactive, rfl⟩, rfl⟩, h⟩
    exact ⟨hactive, modifyGet_eq_ok_iff.mp h⟩
  · rintro ⟨hactive, h⟩
    exact ⟨_, _, ⟨⟨hactive, rfl⟩, rfl⟩, modifyGet_eq_ok_iff.mpr h⟩

end Granted

end SchemaCatalog
