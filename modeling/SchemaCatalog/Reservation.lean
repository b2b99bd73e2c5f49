import SchemaCatalog.NameMap
import SchemaCatalog.SortedMap
import SchemaCatalog.Text.Graphic
/-!
# Reserved names

Names handed out for implicit objects but not committed yet. Candidates for a base name are a stem
followed by ever more digits of the base's digest, then the whole digest with a running number. The
digest is the CRC-32 checksum of the name's UTF-8 bytes in upper-case hexadecimal, without leading
zeros: one to eight digits. A reservation carries the token under which its name was entered, and
giving it back removes only an entry with that token: `release_get?` leaves a later reservation of
the same name alone.
-/
namespace SchemaCatalog.Text

/-- One bit of the reflected division by the polynomial `0x04C11DB7`. -/
def checksumBit (remainder : UInt32) : UInt32 :=
  if remainder &&& 1 = 1 then (remainder >>> 1) ^^^ 0xEDB88320 else remainder >>> 1

def checksumByte (remainder : UInt32) (byte : UInt8) : UInt32 :=
  Nat.repeat checksumBit 8 (remainder ^^^ byte.toUInt32)

/-- The CRC-32 checksum of a sequence of bytes. -/
def checksum (bytes : List UInt8) : UInt32 :=
  bytes.foldl checksumByte 0xFFFFFFFF ^^^ 0xFFFFFFFF

/-- A number in upper-case hexadecimal digits. -/
def hexDigits (n : Nat) : List Char :=
  (Nat.toDigits 16 n).map Char.toUpper

/-- The digits that stand for a name in generated names. -/
def digest (name : String) : List Char :=
  hexDigits (checksum (name.toList.flatMap String.utf8EncodeChar)).toNat

end SchemaCatalog.Text

namespace SchemaCatalog

/-- A name handed out, with the token that identifies the hand-out. -/
structure Reservation where
  name : String
  token : UInt64
deriving DecidableEq, Inhabited

/-- The reservation as diagnostics show it. -/
def Reservation.debugText (r : Reservation) : String :=
  let name := Text.quoted r.name
  let token := r.token.toNat
  s!"NameReservation \x7b name: {name}, token: {token} \x7d"

/-- The guard of a reservation, with the one that the name was handed out to. -/
structure NameGuard where
  reservation : Reservation
  /-- The reservation was given back. -/
  released : Bool
deriving DecidableEq, Inhabited

/-- Names handed out and not given back, each with the token of the hand-out that owns it. -/
structure ReservationSet where
  rule : CaseRule
  names : SortedMap String UInt64
  /-- The number of the next token; tokens repeat after `2 ^ 64`. -/
  nextToken : Nat
deriving DecidableEq, Inhabited

/-- The candidate in place `i` for a stem and the digits of a digest. -/
def candidateName (stem : String) (digits : List Char) (i : Nat) : String :=
  if i < digits.length then stem ++ String.ofList (digits.take (i + 1))
  else stem ++ String.ofList digits ++ "_" ++ toString (i - digits.length)

/-- The first place from `i` on that is not taken, looking at `tries` places and settling for the
one after them. -/
def firstFree (taken : Nat → Bool) : Nat → Nat → Nat
  | 0, i => i
  | tries + 1, i => if taken i then firstFree taken tries (i + 1) else i

theorem le_firstFree (taken : Nat → Bool) (tries i : Nat) : i ≤ firstFree taken tries i := by
  induction tries generalizing i with
  | zero => exact Nat.le_refl i
  | succ tries ih =>
    rw [firstFree]
    split
    · exact Nat.le_trans (Nat.le_succ i) (ih (i + 1))
    · exact Nat.le_refl i

theorem taken_of_lt_firstFree {taken : Nat → Bool} {tries i j : Nat} (hij : i ≤ j)
    (hj : j < firstFree taken tries i) : taken j = true := by
  induction tries generalizing i with
  | zero => exact absurd hj (by simp [firstFree]; omega)
  | succ tries ih =>
    rw [firstFree] at hj
    split at hj
    next h =>
      by_cases heq : i = j
      · exact heq ▸ h
      · exact ih (by omega) hj
    next => omega

namespace ReservationSet

def empty (rule : CaseRule) : ReservationSet := ⟨rule, .empty, 1⟩

def key (set : ReservationSet) (name : String) : String :=
  set.rule.fold name

def isReserved (set : ReservationSet) (name : String) : Bool :=
  set.names.contains (set.key name)

def size (set : ReservationSet) : Nat :=
  set.names.size

def isEmpty (set : ReservationSet) : Bool :=
  set.names.isEmpty

/-- The first candidate that is neither live nor reserved. Distinct candidates number one more than
`liveCount` live names and the reserved names together, so one of those looked at is free. -/
def uniqueName (set : ReservationSet) (base stem : String) (live : String → Bool)
    (liveCount : Nat) : String :=
  let digits := Text.digest base
  let candidate := candidateName stem digits
  candidate (firstFree (fun i => live (candidate i) || set.isReserved (candidate i))
    (liveCount + set.size) 0)

/-- Hand out a name derived from `base` that is neither live nor reserved. -/
def reserve (set : ReservationSet) (base stem : String) (live : String → Bool)
    (liveCount : Nat) : Reservation × ReservationSet :=
  let name := set.uniqueName base stem live liveCount
  let token := UInt64.ofNat set.nextToken
  (⟨name, token⟩,
    { set with names := set.names.insert (set.key name) token, nextToken := set.nextToken + 1 })

/-- Strike a name off, whoever holds it. -/
def free (set : ReservationSet) (name : String) : ReservationSet :=
  { set with names := set.names.erase (set.key name) }

/-- Give a reservation back: its name is struck off if it is still entered under its token. -/
def release (set : ReservationSet) (r : Reservation) : ReservationSet :=
  if set.names.get? (set.key r.name) = some r.token then set.free r.name else set

/-- What releasing or dropping a guard does: its reservation is given back once. -/
def giveBack (set : ReservationSet) (g : NameGuard) : ReservationSet :=
  if g.released then set else set.release g.reservation

theorem release_get? (set : ReservationSet) (r : Reservation) (k : String) :
    (set.release r).names.get? k =
      if k = set.key r.name ∧ set.names.get? k = some r.token then none
      else set.names.get? k := by
  rw [release]
  split
  next h =>
    by_cases hk : set.key r.name = k
    · subst hk
      simp [free, SortedMap.get?_erase, h]
    · simp [free, SortedMap.get?_erase, hk, Ne.symm hk]
  next h =>
    by_cases hk : k = set.key r.name
    · subst hk
      simp [h]
    · simp [hk]

end ReservationSet

end SchemaCatalog
