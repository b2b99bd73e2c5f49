import Mathlib.Data.List.Nodup
import Mathlib.Data.List.Perm.Subperm
import SchemaCatalog.NameMap
import SchemaCatalog.Reservation
/-!
# Fresh names

A name that is handed out is free. The candidates for a name stay apart under every case rule, since
the digits, the underscore and the capital hexadecimal digits that tell them apart are their own
capitals; so one more candidate than there are taken names holds a free one.
-/
namespace SchemaCatalog

namespace Text

private theorem mem_toDigits {b n : Nat} (hb : 1 < b) {c : Char} (h : c ∈ Nat.toDigits b n) :
    ∃ d < b, c = d.digitChar := by
  induction n using Nat.strongRecOn with
  | ind n ih =>
    rw [Nat.toDigits_eq_if hb] at h
    split at h
    next hn => exact ⟨n, hn, List.mem_singleton.mp h⟩
    next hn =>
      rcases List.mem_append.mp h with h | h
      · exact ih (n / b) (Nat.div_lt_self (by omega) hb) h
      · exact ⟨n % b, Nat.mod_lt n (by omega), List.mem_singleton.mp h⟩

private theorem upperChar_decimal : ∀ d < 10, upperChar d.digitChar = [d.digitChar] := by
  decide

private theorem upperChar_hex :
    ∀ d < 16, upperChar d.digitChar.toUpper = [d.digitChar.toUpper] := by
  decide

private theorem upperChar_of_mem_hexDigits {n : Nat} {c : Char} (h : c ∈ hexDigits n) :
    upperChar c = [c] := by
  obtain ⟨c', hc', rfl⟩ := List.mem_map.mp h
  obtain ⟨d, hd, rfl⟩ := mem_toDigits (by decide) hc'
  exact upperChar_hex d hd

private theorem upperChar_of_mem_toDigits {n : Nat} {c : Char} (h : c ∈ Nat.toDigits 10 n) :
    upperChar c = [c] := by
  obtain ⟨d, hd, rfl⟩ := mem_toDigits (by decide) h
  exact upperChar_decimal d hd

private theorem upper_ofList {l : List Char} (h : ∀ c ∈ l, upperChar c = [c]) :
    upper (String.ofList l) = String.ofList l := by
  have hflat : l.flatMap upperChar = l := by
    induction l with
    | nil => rfl
    | cons c l ih =>
      obtain ⟨hc, hl⟩ := List.forall_mem_cons.mp h
      rw [List.flatMap_cons, hc, ih hl]
      rfl
  rw [upper, String.toList_ofList, hflat]

end Text

section Candidates

/-- What a candidate appends to the stem. -/
def candidateSuffix (digits : List Char) (i : Nat) : List Char :=
  if i < digits.length then digits.take (i + 1)
  else digits ++ '_' :: Nat.toDigits 10 (i - digits.length)

theorem candidateName_eq (stem : String) (digits : List Char) (i : Nat) :
    candidateName stem digits i = stem ++ String.ofList (candidateSuffix digits i) := by
  rw [candidateName, candidateSuffix]
  split
  · rfl
  · have hcons : ('_' :: Nat.toDigits 10 (i - digits.length)) =
        ['_'] ++ Nat.toDigits 10 (i - digits.length) := rfl
    rw [hcons, String.ofList_append, String.ofList_append, Nat.toString_eq_ofList_toDigits,
      String.append_assoc, String.append_assoc]

theorem candidateSuffix_injective (digits : List Char) :
    Function.Injective (candidateSuffix digits) := by
  intro i j h
  have hlength := congrArg List.length h
  have hpos : ∀ n, 0 < (Nat.toDigits 10 n).length := fun n => Nat.length_toDigits_pos
  unfold candidateSuffix at h hlength
  by_cases hi : i < digits.length
  · by_cases hj : j < digits.length
    · simp only [hi, hj, if_true, List.length_take] at hlength
      omega
    · simp only [hi, hj, if_true, if_false, List.length_take, List.length_append,
        List.length_cons] at hlength
      omega
  · by_cases hj : j < digits.length
    · simp only [hi, hj, if_true, if_false, List.length_take, List.length_append,
        List.length_cons] at hlength
      omega
    · simp only [hi, hj, if_false, List.append_cancel_left_eq, List.cons.injEq, true_and] at h
      have hvalue := congrArg (fun digits => Nat.ofDigitChars 10 digits 0) h
      simp only [Nat.ofDigitChars_ten_toDigits] at hvalue
      omega

private theorem upperChar_of_mem_candidateSuffix {base : String} {i : Nat} {c : Char}
    (h : c ∈ candidateSuffix (Text.digest base) i) : Text.upperChar c = [c] := by
  rw [candidateSuffix] at h
  split at h
  · exact Text.upperChar_of_mem_hexDigits (List.mem_of_mem_take h)
  · rcases List.mem_append.mp h with h | h
    · exact Text.upperChar_of_mem_hexDigits h
    · rcases List.mem_cons.mp h with rfl | h
      · decide
      · exact Text.upperChar_of_mem_toDigits h

/-- Under every case rule the candidates for a name stay apart. -/
theorem fold_candidateName_injective (rule : CaseRule) (base stem : String) :
    Function.Injective fun i => rule.fold (candidateName stem (Text.digest base) i) := by
  have hfold : ∀ i, rule.fold (candidateName stem (Text.digest base) i) =
      rule.fold stem ++ String.ofList (candidateSuffix (Text.digest base) i) := by
    intro i
    rw [candidateName_eq, CaseRule.fold_append]
    congr 1
    cases rule with
    | exact => rfl
    | ignoreCase => exact Text.upper_ofList fun c hc => upperChar_of_mem_candidateSuffix hc
  intro i j h
  simp only [hfold] at h
  have hsuffix := congrArg String.toList h
  rw [String.toList_append, String.toList_append, String.toList_ofList, String.toList_ofList,
    List.append_cancel_left_eq] at hsuffix
  exact candidateSuffix_injective _ hsuffix

end Candidates

section Search

/-- The search settles for a place that is free, or looked at every place it may. -/
private theorem firstFree_free_or (taken : Nat → Bool) (tries i : Nat) :
    taken (firstFree taken tries i) = false ∨ firstFree taken tries i = i + tries := by
  induction tries generalizing i with
  | zero => exact .inr rfl
  | succ tries ih =>
    rw [firstFree]
    split
    next => rcases ih (i + 1) with h | h <;> [exact .inl h; exact .inr (by omega)]
    next h => exact .inl (by simpa using h)

/-- The search settles for a free place when one more place is there than are taken. -/
theorem firstFree_free {taken : Nat → Bool} {tries : Nat}
    (h : ((List.range (tries + 1)).filter taken).length ≤ tries) :
    taken (firstFree taken tries 0) = false := by
  by_contra hlast
  rw [Bool.not_eq_false] at hlast
  have hstop : firstFree taken tries 0 = tries := by
    have hor := firstFree_free_or taken tries 0
    rw [hlast] at hor
    simpa using hor
  have htaken : ∀ i ∈ List.range (tries + 1), taken i = true := by
    intro i hi
    rcases Nat.lt_succ_iff_lt_or_eq.mp (List.mem_range.mp hi) with hlt | rfl
    · exact taken_of_lt_firstFree (Nat.zero_le i) (hstop.symm ▸ hlt)
    · rw [← hstop, hlast]
  rw [List.filter_eq_self.mpr htaken, List.length_range] at h
  omega

end Search

section Counting

/-- Numbers whose keys are apart and in a map are no more than the map has entries. -/
theorem length_le_size {κ ν : Type} [Ord κ] [Std.LawfulEqOrd κ] [DecidableEq κ]
    {m : SortedMap κ ν} {key : Nat → κ} (hkey : Function.Injective key) {places : List Nat}
    (hnodup : places.Nodup) (hmem : ∀ i ∈ places, (m.get? (key i)).isSome) :
    places.length ≤ m.size := by
  have hsub : places.map key ⊆ m.keys := by
    intro k hk
    obtain ⟨i, hi, rfl⟩ := List.mem_map.mp hk
    obtain ⟨v, hv⟩ := Option.isSome_iff_exists.mp (hmem i hi)
    exact List.mem_map.mpr ⟨(key i, v), (m.mem_entries_iff _ _).mpr hv, rfl⟩
  have hle := ((hnodup.map hkey).subperm hsub).length_le
  simpa [SortedMap.keys, SortedMap.size] using hle

private theorem length_filter_or_le (p q : Nat → Bool) (l : List Nat) :
    (l.filter fun i => p i || q i).length ≤ (l.filter p).length + (l.filter q).length := by
  induction l with
  | nil => simp
  | cons i l ih => cases hp : p i <;> cases hq : q i <;> simp [hp, hq] <;> omega

/-- The candidate in this place is live or reserved. -/
def ReservationSet.taken (set : ReservationSet) (base stem : String) (live : String → Bool)
    (i : Nat) : Bool :=
  live (candidateName stem (Text.digest base) i) ||
    set.isReserved (candidateName stem (Text.digest base) i)

/-- A search that may look at as many places as there are live candidates and reserved names finds
a free one. -/
theorem firstFree_taken_free (set : ReservationSet) (base stem : String) {live : String → Bool}
    {liveCount : Nat}
    (hlive : ∀ places : List Nat, places.Nodup →
      (∀ i ∈ places, live (candidateName stem (Text.digest base) i) = true) →
        places.length ≤ liveCount) :
    set.taken base stem live (firstFree (set.taken base stem live) (liveCount + set.size) 0) =
      false := by
  apply firstFree_free
  let places := List.range (liveCount + set.size + 1)
  have hnodup : places.Nodup := List.nodup_range
  have hlive' : (places.filter fun i =>
      live (candidateName stem (Text.digest base) i)).length ≤ liveCount :=
    hlive _ (hnodup.filter _) fun i hi => (List.mem_filter.mp hi).2
  have hreserved : (places.filter fun i =>
      set.isReserved (candidateName stem (Text.digest base) i)).length ≤ set.size :=
    length_le_size (fold_candidateName_injective set.rule base stem) (hnodup.filter _)
      fun i hi => (List.mem_filter.mp hi).2
  exact Nat.le_trans (length_filter_or_le _ _ places) (Nat.add_le_add hlive' hreserved)

/-- The name that is handed out is neither live nor reserved. -/
theorem uniqueName_free {ν : Type} (set : ReservationSet) (live : NameMap ν) (base stem : String) :
    live.contains (set.uniqueName base stem live.contains live.size) = false ∧
      set.isReserved (set.uniqueName base stem live.contains live.size) = false := by
  have hfree : set.taken base stem live.contains
      (firstFree (set.taken base stem live.contains) (live.size + set.size) 0) = false :=
    firstFree_taken_free set base stem fun places hnodup hlive =>
      length_le_size (fold_candidateName_injective live.rule base stem) hnodup hlive
  exact Bool.or_eq_false_iff.mp hfree

end Counting

end SchemaCatalog
