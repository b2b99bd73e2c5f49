import Mathlib.Data.Set.Card
import SchemaCatalog.Proofs.LiveNames
/-!
# Name spaces as finite maps

A name space is the finite map from folded names to the values that were stored last, whatever calls
were made in whatever spelling. It lists the values by the code points of their keys, so a registry
lists its objects group by group and each group by key, every entry once. In a schema these are the
objects that are registered under their own names.
-/
namespace SchemaCatalog

open Database

namespace Text

def codePoints (s : String) : List Nat :=
  s.toList.map Char.toNat

/-- The order of texts is the lexicographic order of their code points. -/
private theorem codePoints_lt_of_compare {s t : String} (h : compare s t = .lt) :
    codePoints s < codePoints t :=
  List.map_lt (fun _ _ hlt => hlt) (String.lt_iff.mp (compareOfLessAndEq_eq_lt.mp h))

end Text

namespace SortedMap

variable {ν : Type} (m : SortedMap String ν)

private theorem pairwise_keys : m.keys.Pairwise (Text.codePoints · < Text.codePoints ·) :=
  List.pairwise_map.mpr (m.sorted.imp Text.codePoints_lt_of_compare)

private theorem nodup_keys : m.keys.Nodup := by
  refine m.pairwise_keys.imp ?_
  rintro key _ hlt rfl
  exact lt_irrefl _ hlt

end SortedMap

/-- A call that changes a map. -/
inductive MapCall (ν : Type) where
  | insert (name : String) (v : ν)
  | remove (name : String)

namespace MapCall

variable {ν : Type}

def name : MapCall ν → String
  | insert name _ => name
  | remove name => name

/-- What is under the name afterwards. -/
def left : MapCall ν → Option ν
  | insert _ v => some v
  | remove _ => none

/-- The value that the call returns, and the map that it leaves. -/
def run : MapCall ν → NameMap ν → Option ν × NameMap ν
  | insert name v, m => m.put name v
  | remove name, m => m.take name

section LastStored

variable (fold : String → String) (calls : List (MapCall ν))

/-- The last call for the key stored this value. -/
def LastStored (key : String) (v : ν) : Prop :=
  ∃ name before after, calls = before ++ .insert name v :: after ∧ fold name = key ∧
    ∀ call ∈ after, fold call.name ≠ key

/-- A value was stored under the key and not removed since. -/
def Live (key : String) : Prop :=
  ∃ v, LastStored fold calls key v

variable {fold calls} {key : String} {call : MapCall ν} {v : ν}

private theorem not_lastStored_nil : ¬ LastStored fold [] key v := by
  rintro ⟨name, before, after, heq, -⟩
  cases before <;> cases heq

/-- A call for the key decides what is there, any other call makes no difference. -/
private theorem lastStored_concat : LastStored fold (calls ++ [call]) key v ↔
    fold call.name = key ∧ call.left = some v ∨
      fold call.name ≠ key ∧ LastStored fold calls key v := by
  constructor
  · rintro ⟨name, before, after, heq, hfold, hafter⟩
    -- the new call is the one that stored the value, or it is one of those after it
    rcases after.eq_nil_or_concat' with rfl | ⟨after, last, rfl⟩
    · obtain ⟨-, rfl⟩ := List.append_singleton_inj.mp heq
      exact .inl ⟨hfold, rfl⟩
    · rw [← List.cons_append, ← List.append_assoc] at heq
      obtain ⟨rfl, rfl⟩ := List.append_singleton_inj.mp heq
      exact .inr ⟨hafter call (List.mem_append_right _ List.mem_cons_self), name, before, after,
        rfl, hfold, fun call' hcall => hafter call' (List.mem_append_left _ hcall)⟩
  · rintro (⟨hfold, hleft⟩ | ⟨hne, name, before, after, rfl, hfold, hafter⟩)
    · cases call with
      | insert name w =>
        cases hleft
        exact ⟨name, calls, [], rfl, hfold, fun _ hcall => nomatch hcall⟩
      | remove name => cases hleft
    · refine ⟨name, before, after ++ [call], by simp, hfold, fun call' hcall => ?_⟩
      rcases List.mem_append.mp hcall with hcall | hcall
      · exact hafter call' hcall
      · rwa [List.mem_singleton.mp hcall]

end LastStored

end MapCall

namespace NameMap

section Calls

variable {ν : Type} {rule : CaseRule} {calls : List (MapCall ν)}

private theorem rule_run (call : MapCall ν) (m : NameMap ν) : (call.run m).2.rule = m.rule := by
  cases call <;> rfl

private theorem returned_run (call : MapCall ν) (m : NameMap ν) :
    (call.run m).1 = m.get? call.name := by
  cases call <;> rfl

private theorem entries_run (call : MapCall ν) (m : NameMap ν) (key : String) :
    (call.run m).2.entries.get? key =
      if m.key call.name = key then call.left else m.entries.get? key := by
  cases call with
  | insert name v =>
    simp only [@eq_comm _ (m.key _)]
    exact SortedMap.get?_insert ..
  | remove name => exact SortedMap.get?_erase ..

/-- The map that these calls make, one after the other, of an empty one. -/
def after (rule : CaseRule) (calls : List (MapCall ν)) : NameMap ν :=
  calls.foldl (fun m call => (call.run m).2) (empty rule)

private theorem after_concat (rule : CaseRule) (calls : List (MapCall ν)) (call : MapCall ν) :
    after rule (calls ++ [call]) = (call.run (after rule calls)).2 :=
  List.foldl_concat ..

private theorem rule_after (rule : CaseRule) (calls : List (MapCall ν)) :
    (after rule calls).rule = rule := by
  induction calls using List.reverseRecOn with
  | nil => rfl
  | append_singleton calls call ih => rw [after_concat, rule_run, ih]

private theorem key_after (name : String) : (after rule calls).key name = rule.fold name := by
  rw [key, rule_after]

private theorem entries_after {key : String} {v : ν} :
    (after rule calls).entries.get? key = some v ↔ MapCall.LastStored rule.fold calls key v := by
  induction calls using List.reverseRecOn with
  | nil => exact iff_of_false (fun h => nomatch h) MapCall.not_lastStored_nil
  | append_singleton calls call ih =>
    rw [after_concat, entries_run, key_after, MapCall.lastStored_concat, ← ih]
    by_cases hkey : rule.fold call.name = key <;> simp [hkey]

theorem get?_after {name : String} {v : ν} :
    (after rule calls).get? name = some v ↔
      MapCall.LastStored rule.fold calls (rule.fold name) v := by
  rw [get?, key_after, entries_after]

/-- What a map answers and lists when it is the finite map that the calls make. -/
structure Reflects (m : NameMap ν) (fold : String → String) (calls : List (MapCall ν)) : Prop where
  get : ∀ name v, m.get? name = some v ↔ MapCall.LastStored fold calls (fold name) v
  contains : ∀ name, m.contains name = true ↔ MapCall.Live fold calls (fold name)
  /-- One more call returns what was there before and leaves the other names alone. -/
  returned : ∀ (call : MapCall ν) v,
    (call.run m).1 = some v ↔ MapCall.LastStored fold calls (fold call.name) v
  others : ∀ (call : MapCall ν) name, fold name ≠ fold call.name →
    (call.run m).2.get? name = m.get? name
  size : m.size = {key | MapCall.Live fold calls key}.ncard
  /-- The values are those of the live keys, in the order of the keys. -/
  listed : ∃ keys : List String, keys.Pairwise (Text.codePoints · < Text.codePoints ·) ∧
    (∀ key, key ∈ keys ↔ MapCall.Live fold calls key) ∧
      List.Forall₂ (MapCall.LastStored fold calls) keys m.values
  first : m.first? = m.values.head?
  empty : m.isEmpty = true ↔ ∀ key, ¬ MapCall.Live fold calls key

private theorem mem_keys_after {key : String} :
    key ∈ (after rule calls).entries.keys ↔ MapCall.Live rule.fold calls key := by
  simp only [SortedMap.keys, List.mem_map, Prod.exists, exists_and_right, exists_eq_right,
    SortedMap.mem_entries_iff, entries_after, MapCall.Live]

/-- In whatever spelling the calls are made, a map is the finite map of its folded names. -/
theorem reflects_after (rule : CaseRule) (calls : List (MapCall ν)) :
    (after rule calls).Reflects rule.fold calls where
  get := fun _ _ => get?_after
  contains := by
    intro name
    rw [NameMap.contains, Option.isSome_iff_exists]
    exact exists_congr fun _ => get?_after
  returned := by
    intro call v
    rw [returned_run, get?_after]
  others := by
    intro call name hne
    rw [get?, key, rule_run, entries_run, key_after, rule_after, if_neg (Ne.symm hne), get?,
      key_after]
  size := by
    have hlive : {key | MapCall.Live rule.fold calls key} =
        (after rule calls).entries.keys.toFinset := by
      ext key
      rw [List.coe_toFinset]
      exact mem_keys_after.symm
    rw [hlive, Set.ncard_coe_finset, List.toFinset_card_of_nodup (SortedMap.nodup_keys _),
      SortedMap.keys, List.length_map]
    rfl
  listed := by
    refine ⟨(after rule calls).entries.keys, SortedMap.pairwise_keys _, fun _ => mem_keys_after, ?_⟩
    rw [SortedMap.keys, values, SortedMap.values, List.forall₂_map_left_iff,
      List.forall₂_map_right_iff, List.forall₂_same]
    exact fun e he => entries_after.mp ((SortedMap.mem_entries_iff ..).mp he)
  first := rfl
  empty := by
    rw [isEmpty, SortedMap.isEmpty_iff, List.eq_nil_iff_forall_not_mem]
    simp only [SortedMap.mem_values, entries_after, MapCall.Live, not_exists]
    exact forall_comm

end Calls

end NameMap

namespace Registry

/-- The kinds in the order in which a registry lists their objects. -/
def groups : List ObjectKind :=
  [.tableOrView, .sequence, .index, .constant, .functionAlias]

/-- The group comes first, or the group is the same and the code points of the key come first. -/
def Before (a b : ObjectKind × String) : Prop :=
  groups.idxOf a.1 < groups.idxOf b.1 ∨ a.1 = b.1 ∧ Text.codePoints a.2 < Text.codePoints b.2

/-- All entries of a registry, with kind and key. -/
def listing (registry : Registry) : List ((ObjectKind × String) × ObjectRef) :=
  groups.flatMap fun kind => (registry.space kind).entries.entries.map fun e => ((kind, e.1), e.2)

/-- A registry lists its entries one by one, by kind and key. -/
structure ListsEntries (registry : Registry) : Prop where
  all : registry.all = registry.listing.map (·.2)
  entry : ∀ kind key o, ((kind, key), o) ∈ registry.listing ↔
    (registry.space kind).entries.get? key = some o
  sorted : registry.listing.Pairwise fun a b => Before a.1 b.1
  empty : registry.isEmpty = true ↔ registry.all = []

section Entries

variable {registry : Registry} {kind : ObjectKind} {key : String} {o : ObjectRef}

private theorem mem_groups (kind : ObjectKind) : kind ∈ groups := by
  cases kind <;> decide

private theorem all_eq (registry : Registry) :
    registry.all = groups.flatMap fun kind => (registry.space kind).values := by
  simp only [all, groups, List.flatMap_cons, List.flatMap_nil, List.append_nil, List.append_assoc]
  rfl

private theorem all_eq_map_listing (registry : Registry) :
    registry.all = registry.listing.map (·.2) := by
  rw [all_eq, listing, List.map_flatMap]
  simp only [List.map_map]
  rfl

private theorem mem_listing :
    ((kind, key), o) ∈ registry.listing ↔ (registry.space kind).entries.get? key = some o := by
  rw [← SortedMap.mem_entries_iff]
  simp only [listing, List.mem_flatMap, List.mem_map, Prod.mk.injEq, Prod.exists]
  constructor
  · rintro ⟨kind, -, key, o, h, ⟨rfl, rfl⟩, rfl⟩
    exact h
  · intro h
    exact ⟨kind, mem_groups kind, key, o, h, ⟨rfl, rfl⟩, rfl⟩

private theorem pairwise_listing (registry : Registry) :
    registry.listing.Pairwise fun a b => Before a.1 b.1 := by
  refine List.pairwise_flatMap.mpr ⟨fun kind _ => ?_, ?_⟩
  · exact List.pairwise_map.mpr ((registry.space kind).entries.sorted.imp fun h =>
      .inr ⟨rfl, Text.codePoints_lt_of_compare h⟩)
  · have hgroups : groups.Pairwise fun kind kind' => groups.idxOf kind < groups.idxOf kind' := by
      decide
    refine hgroups.imp fun {kind kind'} hlt a ha b hb => .inl ?_
    obtain ⟨-, -, rfl⟩ := List.mem_map.mp ha
    obtain ⟨-, -, rfl⟩ := List.mem_map.mp hb
    exact hlt

private theorem listsEntries (registry : Registry) : registry.ListsEntries where
  all := registry.all_eq_map_listing
  entry := fun _ _ _ => mem_listing
  sorted := registry.pairwise_listing
  empty := by
    rw [isEmpty_iff, all_eq, List.flatMap_eq_nil_iff]
    exact ⟨fun h kind _ => h kind, fun h kind => h kind (mem_groups kind)⟩

theorem mem_all_iff : o ∈ registry.all ↔ ∃ kind, o ∈ (registry.space kind).values := by
  rw [all_eq, List.mem_flatMap]
  exact exists_congr fun kind => and_iff_right (mem_groups kind)

end Entries

end Registry

section Schema

variable {s : SchemaRef} {rule : CaseRule} {db : Database}

/-- The registry of a schema lists what is registered there, every object once, by kind and name. -/
structure ListsObjects (s : SchemaRef) (rule : CaseRule) (db : Database) : Prop where
  registered : ∀ o, o ∈ (db.schema s).registry.all ↔
    (db.schema s).registry.contains o (db.object o) = true
  once : (db.schema s).registry.all.Nodup
  sorted : (db.schema s).registry.all.Pairwise fun o o' =>
    Registry.Before ((db.object o).kind, rule.fold (db.nameOf o))
      ((db.object o').kind, rule.fold (db.nameOf o'))

private theorem ListsObjects.of_inOrder (horder : db.InOrder s) (huniform : Uniform db s rule) :
    ListsObjects s rule db where
  registered := by
    intro o
    rw [Registry.mem_all_iff, Registry.contains_iff]
    constructor
    · rintro ⟨kind, ho⟩
      rw [horder.kind_of_mem ho]
      exact (horder.keyed kind).mem_values_iff.mp ho
    · intro ho
      exact ⟨_, NameMap.mem_values_of_get? ho⟩
  once := horder.nodup_all
  sorted := by
    have hentry := (NamesAgree.of_inOrder horder huniform).entry
    rw [Registry.all_eq_map_listing, List.pairwise_map]
    refine (Registry.pairwise_listing _).imp_of_mem ?_
    rintro ⟨⟨kind, key⟩, o⟩ ⟨⟨kind', key'⟩, o'⟩ ho ho' hbefore
    obtain ⟨rfl, rfl, -⟩ := hentry kind key o (Registry.mem_listing.mp ho)
    obtain ⟨rfl, rfl, -⟩ := hentry kind' key' o' (Registry.mem_listing.mp ho')
    exact hbefore

/-- Name spaces of this case rule are finite maps, alone, in a registry and in a schema that lives. -/
structure FiniteMaps (rule : CaseRule) : Prop where
  spaces : ∀ (ν : Type) (calls : List (MapCall ν)),
    (NameMap.after rule calls).Reflects rule.fold calls
  registries : ∀ registry : Registry, registry.ListsEntries
  schemas : ∀ s start id name owner system h, start.schema s = .create id name owner system rule →
    Run s AnyCall (LeavesObjects s) ⟨start, []⟩ h → ListsObjects s rule h.db

/-- Name spaces are finite maps from folded names, listed in the order of their keys. -/
theorem nameSpaces_finiteMaps (rule : CaseRule) : FiniteMaps rule where
  spaces := fun _ calls => NameMap.reflects_after rule calls
  registries := Registry.listsEntries
  schemas := by
    intro s start id name owner system h hstart hrun
    have horder := (InOrder.of_create hstart).run hrun
    have huniform := (Uniform.of_create hstart).run hrun
    exact .of_inOrder horder huniform

/-- Calls in spellings that fold alike: two of one key, and one that removes the value of another. -/
def collidingCalls : List (MapCall Nat) :=
  [.insert "straße" 1, .insert "Orders" 2, .insert "STRASSE" 3, .remove "oRdErS", .insert "é" 4,
    .insert "b" 5]

/-- The constant is registered before the sequences, and the later sequence has the lesser name. -/
def withListed : History :=
  History.afterAll ⟨2⟩ ⟨withUnregistered, []⟩
    [.add ⟨2⟩, .add ⟨0⟩, .rename ⟨0⟩ "Second", .add ⟨1⟩]

theorem finiteMaps_ignoreCase :
    (NameMap.after .ignoreCase collidingCalls).values = [5, 3, 4] ∧
    (NameMap.after .ignoreCase collidingCalls).Reflects Text.upper collidingCalls ∧
    withUnregistered.schema ⟨2⟩ = .create 4 "App" (some ⟨1, "SA"⟩) false .ignoreCase ∧
    Run ⟨2⟩ AnyCall (LeavesObjects ⟨2⟩) ⟨withUnregistered, []⟩ withListed ∧
    (withListed.db.schema ⟨2⟩).registry.all = [⟨1⟩, ⟨0⟩, ⟨2⟩] ∧
    (withListed.db.schema ⟨2⟩).registry.ListsEntries ∧
    ListsObjects ⟨2⟩ .ignoreCase withListed.db := by
  have hmaps := nameSpaces_finiteMaps .ignoreCase
  have hstart : withUnregistered.schema ⟨2⟩ =
      .create 4 "App" (some ⟨1, "SA"⟩) false .ignoreCase := by
    decide +kernel
  have hrun : Run ⟨2⟩ AnyCall (LeavesObjects ⟨2⟩) ⟨withUnregistered, []⟩ withListed :=
    run_afterAll (by decide +kernel)
  exact ⟨by decide +kernel, hmaps.spaces Nat collidingCalls, hstart, hrun, by decide +kernel,
    hmaps.registries _, hmaps.schemas _ _ _ _ _ _ _ hstart hrun⟩

end Schema

end SchemaCatalog
