import Mathlib.Data.Int.GCD
import Mathlib.Data.Int.ModEq
import SchemaCatalog.Proofs.IfNotExists
/-!
# Values of sequences

The value of a call is the start plus a multiple of the increment, modulo `2 ^ 64`. Two calls give the
same value exactly when their numbers differ by a multiple of the period, so the values of one period
are all different and then come again. It does not matter what happens to the sequence between two
calls.
-/
namespace SchemaCatalog

open Database Execution

namespace Sequence

/-- How many values come before the first one comes again. -/
def period (increment : Int64) : Nat :=
  2 ^ 64 / Int.gcd increment.toInt (2 ^ 64)

section Values

variable (s : Sequence)

private theorem modEq_ofInt (x : Int) : (Int64.ofInt x).toInt ≡ x [ZMOD 2 ^ 64] := by
  rw [Int64.toInt_ofInt]
  exact Int.bmod_emod

/-- No two 64-bit integers are congruent. -/
private theorem eq_iff_modEq {v w : Int64} : v = w ↔ v.toInt ≡ w.toInt [ZMOD 2 ^ 64] := by
  refine ⟨fun h => h ▸ .refl _, fun h => ?_⟩
  rw [← Int64.toInt_inj, ← Int64.toInt_bmod_size v, ← Int64.toInt_bmod_size w,
    ← Int.emod_bmod v.toInt, ← Int.emod_bmod w.toInt]
  exact congrArg (Int.bmod · Int64.size) h

private theorem valueAt_modEq (n : Nat) :
    (s.valueAt n).toInt ≡ s.next.toInt + n * s.increment.toInt [ZMOD 2 ^ 64] := by
  have hvalue : s.valueAt n = Int64.ofInt (s.next.toInt + n * s.increment.toInt) := by
    rw [valueAt_eq, Int64.ofInt_add, Int64.ofInt_mul, Int64.ofInt_toInt, Int64.ofInt_toInt,
      Int64.ofInt_eq_ofNat]
  rw [hvalue]
  exact modEq_ofInt _

private theorem valueAt_eq_iff_modEq {n : Nat} {v : Int64} :
    s.valueAt n = v ↔ v.toInt ≡ s.next.toInt + n * s.increment.toInt [ZMOD 2 ^ 64] := by
  rw [eq_iff_modEq]
  exact ⟨fun h => h.symm.trans (s.valueAt_modEq n), fun h => (s.valueAt_modEq n).trans h.symm⟩

/-- Multiples of the increment are congruent when the factors differ by a multiple of the period. -/
private theorem mul_modEq_iff {increment : Int64} {i j : Nat} :
    i * increment.toInt ≡ j * increment.toInt [ZMOD 2 ^ 64] ↔ i ≡ j [MOD period increment] := by
  have hperiod : ((period increment : Nat) : Int) =
      2 ^ 64 / (Int.gcd (2 ^ 64) increment.toInt : Int) := by
    rw [period, Int.gcd_comm, Int.natCast_ediv]
    rfl
  rw [← Int.natCast_modEq_iff, hperiod]
  constructor
  · exact Int.ModEq.cancel_right_div_gcd (by decide)
  · intro h
    apply (h.mul_right' (c := increment.toInt)).of_dvd
    calc (2 ^ 64 : Int) = 2 ^ 64 / Int.gcd (2 ^ 64) increment.toInt *
          Int.gcd (2 ^ 64) increment.toInt := (Int.ediv_mul_cancel (Int.gcd_dvd_left ..)).symm
      _ ∣ _ := Int.mul_dvd_mul_left _ (Int.gcd_dvd_right ..)

theorem valueAt_eq_valueAt_iff {i j : Nat} :
    s.valueAt i = s.valueAt j ↔ i ≡ j [MOD period s.increment] := by
  rw [eq_iff_modEq, ← mul_modEq_iff]
  constructor
  · intro h
    have hsum := ((s.valueAt_modEq i).symm.trans h).trans (s.valueAt_modEq j)
    exact hsum.add_left_cancel' _
  · intro h
    have hsum := h.add_left s.next.toInt
    exact ((s.valueAt_modEq i).trans hsum).trans (s.valueAt_modEq j).symm

/-- A sequence goes on from where it is. -/
private theorem valueAt_next (k n : Nat) :
    valueAt { s with next := s.valueAt k } n = s.valueAt (k + n) := by
  simp only [valueAt_eq, Int64.ofNat_add, Int64.add_mul, Int64.add_assoc]

/-- The values that are taken are those of the first calls. -/
theorem take_eq (n : Nat) :
    s.take n = ((List.range n).map s.valueAt, { s with next := s.valueAt n }) := by
  induction n generalizing s with
  | zero => rfl
  | succ n ih =>
    have hadvance : s.advance = { s with next := s.valueAt 1 } := rfl
    have hvalues : valueAt s.advance = s.valueAt ∘ Nat.succ := by
      funext i
      rw [hadvance, valueAt_next, Nat.add_comm]
      rfl
    rw [take, ih, hvalues, List.range_succ_eq_map, List.map_cons, List.map_map]
    rfl

end Values

end Sequence

section Calls

variable {o : ObjectRef} {start db db' : Database} {s : Sequence} {calls : Nat}
  {values : List Int64}

/-- Calls on an object that take a value each, with the values in their order. Between two calls
anything may happen that leaves alone what the object is made of. -/
inductive ValuesTaken (o : ObjectRef) (start : Database) : Nat → List Int64 → Database → Prop
  | none : ValuesTaken o start 0 [] start
  | next {calls : Nat} {values : List Int64} {db : Database} (h : ValuesTaken o start calls values db) :
    ValuesTaken o start (calls + 1) (values ++ (o.takeValues 1 db).1) (o.takeValues 1 db).2
  | elsewhere {calls : Nat} {values : List Int64} {db db' : Database}
    (h : ValuesTaken o start calls values db) (hbody : (db'.object o).body = (db.object o).body) :
    ValuesTaken o start calls values db'

private theorem takeValues_eq (hbody : (db.object o).body = .sequence s) (n : Nat) :
    (o.takeValues n db).1 = (List.range n).map s.valueAt ∧
      ((o.takeValues n db).2.object o).body = .sequence { s with next := s.valueAt n } := by
  rw [ObjectRef.takeValues, hbody]
  simp only [Sequence.take_eq, object_modifyObject, if_true, and_self]

/-- Whatever happens in between, the calls go through the values of the sequence one by one. -/
theorem ValuesTaken.values_eq (h : ValuesTaken o start calls values db)
    (hbody : (start.object o).body = .sequence s) : values = (List.range calls).map s.valueAt ∧
      (db.object o).body = .sequence { s with next := s.valueAt calls } := by
  induction h with
  | none => exact ⟨rfl, hbody⟩
  | @next calls values db _ ih =>
    obtain ⟨rfl, hnow⟩ := ih
    obtain ⟨hvalues, hafter⟩ := takeValues_eq hnow 1
    have hvalue : (o.takeValues 1 db).1 = [s.valueAt calls] :=
      hvalues.trans (congrArg ([·]) (s.valueAt_next calls 0))
    refine ⟨?_, ?_⟩
    · rw [hvalue, List.range_succ, List.map_append]
      rfl
    · rw [hafter, Sequence.valueAt_next]
  | elsewhere _ hsame ih => exact ⟨ih.1, hsame.trans ih.2⟩

/-- The values of so many calls: each is the one 64-bit integer congruent to the start plus so many
increments, those of one period are all different, and after them the sequence starts again. -/
structure Counts (first increment : Int64) (calls : Nat) (values : List Int64) : Prop where
  length : values.length = calls
  value : ∀ n < calls, ∀ v, values[n]? = some v ↔
    v.toInt ≡ first.toInt + n * increment.toInt [ZMOD 2 ^ 64]
  apart : (values.take (Sequence.period increment)).Nodup
  again : values.drop (Sequence.period increment) <+: values

private theorem counts_values (first increment : Int64) (calls : Nat) :
    Counts first increment calls ((List.range calls).map (Sequence.valueAt ⟨increment, first⟩)) where
  length := by rw [List.length_map, List.length_range]
  value := by
    intro n hn v
    rw [List.getElem?_map, List.getElem?_range hn, Option.map_some, Option.some_inj]
    exact Sequence.valueAt_eq_iff_modEq _
  apart := by
    rw [← List.map_take, List.take_range]
    refine List.nodup_range.map_on fun i hi j hj hvalue => ?_
    have hmod := (Sequence.valueAt_eq_valueAt_iff _).mp hvalue
    exact hmod.eq_of_lt_of_lt (lt_of_lt_of_le (List.mem_range.mp hi) (Nat.min_le_left ..))
      (lt_of_lt_of_le (List.mem_range.mp hj) (Nat.min_le_left ..))
  again := by
    refine List.prefix_iff_getElem?.mpr fun i hi => ?_
    rw [List.length_drop, List.length_map, List.length_range] at hi
    rw [List.getElem?_map, List.getElem?_range (by omega), List.getElem_drop, List.getElem_map,
      List.getElem_range]
    have hmod : i ≡ Sequence.period increment + i [MOD Sequence.period increment] :=
      (Nat.add_mod_left ..).symm
    exact congrArg some ((Sequence.valueAt_eq_valueAt_iff _).mpr hmod)

end Calls

section Create

variable {db : Database} {c : SessionRef} {s : SchemaRef} {schemaName name : String}
  {kind : ObjectKind}

private theorem schemaForCreate_of_free (h : db.LooksIn schemaName name s)
    (hfree : (db.space s kind).get? name = none) (ifNotExists : Bool) :
    schemaForCreate schemaName kind name ifNotExists db = .ok (some s) db := by
  rw [schemaForCreate, bind_of_ok (validateName_eq _ h.name),
    bind_of_ok (statement_look_of_ok (getSchema_eq h.schema)),
    bind_of_ok (statement_look_of_ok (findObject_eq h.active)), hfree]
  rfl

private theorem createObject_of_free (h : db.LooksIn schemaName name s) (body : ObjectBody)
    (hfree : (db.space s body.kind).get? name = none) (message : String) :
    createObject schemaName body.kind name body message db =
      .ok ⟨1, message⟩ (entered s db.nextObject (db.withObject s name body)) := by
  have hnew : (db.withObject s name body).object db.nextObject =
    { id := UInt32.ofNat db.nextId, name, schema := some s, body } := object_nextObject
  have hadd : addObject db.nextObject (db.withObject s name body) =
      .ok () (entered s db.nextObject (db.withObject s name body)) := by
    refine addObject_eq (mem_allSchemas_of_find h.schema) h.active (by rw [hnew]) ?_
    rw [Database.nameOf, hnew]
    exact hfree
  rw [createObject, bind_of_ok (schemaForCreate_of_free h hfree false)]
  dsimp only
  rw [bind_of_ok (newObject_run ..), bind_of_ok (statement_of_ok hadd)]
  rfl

/-- What sequences with this start and increment do, from the statement that makes them on. -/
structure CountsFrom (first increment : Int64) : Prop where
  /-- A sequence that stands still is never made. -/
  refused : increment = 0 → ∀ c schemaName name db,
    (Statement.createSequence schemaName name first increment).execute c db =
      .error (.invalidStatement "sequence increment cannot be 0") db
  /-- Every other one is made where its name is free. -/
  created : increment ≠ 0 → ∀ c schemaName name db s, db.LooksIn schemaName name s →
    (db.space s .sequence).get? name = none → ∃ db',
      (Statement.createSequence schemaName name first increment).execute c db =
        .ok ⟨1, "Sequence '" ++ name ++ "' created"⟩ db' ∧
      (db'.space s .sequence).get? name = some db.nextObject ∧
      (db'.object db.nextObject).body = .sequence ⟨increment, first⟩
  counts : ∀ o start calls values db, (start.object o).body = .sequence ⟨increment, first⟩ →
    ValuesTaken o start calls values db → Counts first increment calls values

/-- The values of every sequence wrap around and come again after one period. -/
theorem sequence_countsFrom (first increment : Int64) : CountsFrom first increment where
  refused := by
    rintro rfl c schemaName name db
    rfl
  created := by
    intro hmoves c schemaName name db s h hfree
    have hrun : createSequence schemaName name first increment db =
        .ok ⟨1, "Sequence '" ++ name ++ "' created"⟩ (entered s db.nextObject
          (db.withObject s name (.sequence ⟨increment, first⟩))) := by
      rw [createSequence, if_neg hmoves]
      exact createObject_of_free h (.sequence ⟨increment, first⟩) hfree _
    refine ⟨_, hrun, ?_, congrArg Object.body object_nextObject⟩
    rw [space_entered, nameOf, object_nextObject, if_pos ⟨rfl, rfl⟩]
    exact (NameMap.get?_insert ..).trans (if_pos rfl)
  counts := by
    intro o start calls values db hbody hvalues
    rw [(hvalues.values_eq hbody).1]
    exact counts_values first increment calls

/-- The database with a sequence that starts at the largest number and has the least as increment. -/
def withSequence : Database :=
  (Action.execute ⟨0⟩ (.createSequence "APP" "S" Int64.maxValue Int64.minValue)).run withView

/-- The sequence has another name after the first value was taken. -/
def withSequenceRenamed : Database :=
  (Action.execute ⟨0⟩ (.rename "APP" .sequence "S" "R")).run
    (ObjectRef.takeValues ⟨3⟩ 1 withSequence).2

-- a period of two values: the second call wraps around, and the third one is back at the start
theorem countsFrom_withSequence : withView.LooksIn "APP" "S" ⟨2⟩ ∧
    (withSequence.object ⟨3⟩).body = .sequence ⟨Int64.minValue, Int64.maxValue⟩ ∧
    Sequence.period Int64.minValue = 2 ∧ ∃ values db, ValuesTaken ⟨3⟩ withSequence 3 values db ∧
      values = [Int64.maxValue, -1, Int64.maxValue] ∧
      Counts Int64.maxValue Int64.minValue 3 values := by
  have hbody : (withSequence.object ⟨3⟩).body = .sequence ⟨Int64.minValue, Int64.maxValue⟩ := by
    decide +kernel
  have hrenamed : ValuesTaken ⟨3⟩ withSequence 1 _ withSequenceRenamed :=
    .elsewhere (.next .none) (by decide +kernel)
  have hvalues : ValuesTaken ⟨3⟩ withSequence 3 _ _ := .next (.next hrenamed)
  have hcounts := (sequence_countsFrom Int64.maxValue Int64.minValue).counts _ _ _ _ _ hbody hvalues
  exact ⟨⟨by decide +kernel, by decide +kernel, by decide +kernel⟩, hbody, by decide +kernel, _, _,
    hvalues, by decide +kernel, hcounts⟩

end Create

end SchemaCatalog
