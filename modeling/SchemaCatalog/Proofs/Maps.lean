import Mathlib.Data.List.Nodup
import SchemaCatalog.Registry
/-!
# The values of a map

Which values a map lists, and how inserting and erasing change them. A name space is keyed when it
keeps every object under the name that the object has: then an object is listed exactly when its own
name finds it. What a registry accepts, and what it becomes, is said by `Registry.add_eq_ok_iff` and
its like.
-/
namespace SchemaCatalog

namespace SortedMap

variable {κ ν : Type} [Ord κ]

theorem eq_empty_of_values {m : SortedMap κ ν} (h : m.values = []) : m = empty := by
  cases m
  simpa [values, empty] using h

theorem isEmpty_iff {m : SortedMap κ ν} : m.isEmpty = true ↔ m.values = [] := by
  simp [isEmpty, values]

variable [Std.LawfulEqOrd κ] [DecidableEq κ]

theorem mem_values {m : SortedMap κ ν} {v : ν} : v ∈ m.values ↔ ∃ k, m.get? k = some v := by
  simp only [values, List.mem_map, Prod.exists, exists_eq_right, mem_entries_iff]

/-- Values that sit under one key each are listed once. -/
theorem nodup_values {m : SortedMap κ ν}
    (h : ∀ k k' v, m.get? k = some v → m.get? k' = some v → k = k') : m.values.Nodup := by
  have hentries : m.entries.Pairwise fun a b => a.2 ≠ b.2 := by
    refine m.sorted.imp_of_mem fun {a b} ha hb hlt heq => ?_
    have hka := (mem_entries_iff m a.1 a.2).mp ha
    have hkb := (mem_entries_iff m b.1 b.2).mp hb
    simp [h a.1 b.1 a.2 hka (heq ▸ hkb)] at hlt
  exact hentries.map _ fun _ _ h => h

theorem size_erase_lt {m : SortedMap κ ν} {k : κ} {v : ν} (h : m.get? k = some v) :
    (m.erase k).size < m.size := by
  have hmem := (mem_entries_iff m k v).mpr h
  exact List.length_filter_lt_length_iff_exists.mpr ⟨(k, v), hmem, by simp⟩

variable [Std.TransOrd κ]

/-- Erasing a key that was new gives back what was there before. -/
theorem erase_insert {m : SortedMap κ ν} {k : κ} (h : m.get? k = none) (v : ν) :
    (m.insert k v).erase k = m := by
  refine eq_of_get?_eq fun k' => ?_
  rw [get?_erase, get?_insert]
  by_cases hk : k = k'
  · rw [if_pos hk, ← hk, h]
  · rw [if_neg hk, if_neg (Ne.symm hk)]

theorem mem_values_of_mem_insert {m : SortedMap κ ν} {k : κ} {v w : ν}
    (h : w ∈ (m.insert k v).values) : w = v ∨ w ∈ m.values := by
  obtain ⟨k', h⟩ := mem_values.mp h
  rw [get?_insert] at h
  split at h
  · exact .inl (Option.some.inj h).symm
  · exact .inr (mem_values.mpr ⟨k', h⟩)

theorem mem_values_insert {m : SortedMap κ ν} {k : κ} (hk : m.get? k = none) (v w : ν) :
    w ∈ (m.insert k v).values ↔ w = v ∨ w ∈ m.values := by
  refine ⟨mem_values_of_mem_insert, ?_⟩
  simp only [mem_values, get?_insert]
  rintro (rfl | ⟨k', h⟩)
  · exact ⟨k, by simp⟩
  · have hne : k' ≠ k := fun heq => by simp [← heq, h] at hk
    exact ⟨k', by simp [hne, h]⟩

theorem mem_values_of_mem_erase {m : SortedMap κ ν} {k : κ} {v : ν} (h : v ∈ (m.erase k).values) :
    v ∈ m.values := by
  obtain ⟨k', h⟩ := mem_values.mp h
  rw [get?_erase] at h
  split at h
  · cases h
  · exact mem_values.mpr ⟨k', h⟩

end SortedMap

namespace NameMap

variable {ν : Type}

theorem mem_values {m : NameMap ν} {v : ν} :
    v ∈ m.values ↔ ∃ key, m.entries.get? key = some v :=
  SortedMap.mem_values

theorem mem_values_of_get? {m : NameMap ν} {name : String} {v : ν} (h : m.get? name = some v) :
    v ∈ m.values :=
  mem_values.mpr ⟨_, h⟩

theorem mem_values_insert {m : NameMap ν} {name : String} (h : m.get? name = none) (v w : ν) :
    w ∈ (m.insert name v).values ↔ w = v ∨ w ∈ m.values :=
  SortedMap.mem_values_insert h v w

theorem mem_values_of_mem_insert {m : NameMap ν} {name : String} {v w : ν}
    (h : w ∈ (m.insert name v).values) : w = v ∨ w ∈ m.values :=
  SortedMap.mem_values_of_mem_insert h

theorem mem_values_of_mem_erase {m : NameMap ν} {name : String} {v : ν}
    (h : v ∈ (m.erase name).values) : v ∈ m.values :=
  SortedMap.mem_values_of_mem_erase h

/-- Only the value that a name finds is taken by erasing the name. -/
theorem mem_values_erase_of_ne {m : NameMap ν} {name : String} {v w : ν} (h : m.get? name = some v)
    (hw : w ∈ m.values) (hne : w ≠ v) : w ∈ (m.erase name).values := by
  obtain ⟨key, hw⟩ := mem_values.mp hw
  refine mem_values.mpr ⟨key, ?_⟩
  change (m.entries.erase (m.key name)).get? key = some w
  rw [SortedMap.get?_erase, if_neg, hw]
  rintro rfl
  exact hne (Option.some.inj (hw.symm.trans h))

theorem contains_eq_false {m : NameMap ν} {name : String} :
    m.contains name = false ↔ m.get? name = none := by
  simp [contains]

theorem entries_insert (m : NameMap ν) (name : String) (v : ν) :
    (m.insert name v).entries = m.entries.insert (m.key name) v := rfl

theorem entries_erase (m : NameMap ν) (name : String) :
    (m.erase name).entries = m.entries.erase (m.key name) := rfl

theorem erase_insert {m : NameMap ν} {name : String} (h : m.get? name = none) (v : ν) :
    (m.insert name v).erase name = m := by
  have hentries := SortedMap.erase_insert h v
  obtain ⟨rule, entries⟩ := m
  exact congrArg (NameMap.mk rule) hentries

/-- Every value is kept under its own name. -/
def Keyed (m : NameMap ν) (nameOf : ν → String) : Prop :=
  ∀ key v, m.entries.get? key = some v → key = m.key (nameOf v)

theorem keyed_iff_entries {m : NameMap ν} {nameOf : ν → String} :
    m.Keyed nameOf ↔ ∀ e ∈ m.entries.entries, e.1 = m.key (nameOf e.2) := by
  simp only [Keyed, Prod.forall, SortedMap.mem_entries_iff]

instance (m : NameMap ν) (nameOf : ν → String) : Decidable (m.Keyed nameOf) :=
  decidable_of_iff' _ keyed_iff_entries

theorem Keyed.empty (rule : CaseRule) (nameOf : ν → String) : (empty rule).Keyed nameOf := by
  intro key v h
  simp [NameMap.empty] at h

section Keyed

variable {m : NameMap ν} {nameOf : ν → String}

theorem Keyed.mem_values_iff (h : m.Keyed nameOf) {v : ν} :
    v ∈ m.values ↔ m.get? (nameOf v) = some v := by
  refine ⟨fun hv => ?_, mem_values_of_get?⟩
  obtain ⟨key, hkey⟩ := mem_values.mp hv
  rwa [h key v hkey] at hkey

/-- Values whose names fold alike are one value. -/
theorem Keyed.eq_of_key_eq (h : m.Keyed nameOf) {v w : ν} (hv : v ∈ m.values) (hw : w ∈ m.values)
    (hkey : m.key (nameOf v) = m.key (nameOf w)) : v = w := by
  have hv := h.mem_values_iff.mp hv
  have hw := h.mem_values_iff.mp hw
  rw [get?] at hv hw
  rw [hkey, hw] at hv
  exact (Option.some.inj hv).symm

theorem Keyed.nodup_values (h : m.Keyed nameOf) : m.values.Nodup :=
  SortedMap.nodup_values fun k k' v hk hk' => (h k v hk).trans (h k' v hk').symm

/-- The values are listed in the order of their keys. -/
theorem Keyed.pairwise_values (h : m.Keyed nameOf) :
    m.values.Pairwise fun v w => m.key (nameOf v) < m.key (nameOf w) := by
  rw [values, SortedMap.values, List.pairwise_map]
  refine m.entries.sorted.imp_of_mem fun {a b} ha hb hlt => ?_
  rw [← keyed_iff_entries.mp h a ha, ← keyed_iff_entries.mp h b hb]
  exact compareOfLessAndEq_eq_lt.mp hlt

/-- A value that a name finds has a name that folds like it. -/
theorem Keyed.key_of_get? (h : m.Keyed nameOf) {name : String} {v : ν} (hv : m.get? name = some v) :
    m.key name = m.key (nameOf v) :=
  h _ v hv

/-- A name finds the value whose name folds like it. -/
theorem Keyed.get?_eq_some_iff (h : m.Keyed nameOf) {name : String} {v : ν} :
    m.get? name = some v ↔ v ∈ m.values ∧ m.key (nameOf v) = m.key name := by
  constructor
  · intro hv
    exact ⟨mem_values_of_get? hv, (h.key_of_get? hv).symm⟩
  · rintro ⟨hv, hkey⟩
    have hget := h.mem_values_iff.mp hv
    rwa [get?, hkey] at hget

/-- A value has one entry, under the key of its name. -/
theorem Keyed.entry_iff (h : m.Keyed nameOf) {key : String} {v : ν} :
    m.entries.get? key = some v ↔ v ∈ m.values ∧ key = m.key (nameOf v) := by
  constructor
  · intro hv
    exact ⟨mem_values.mpr ⟨key, hv⟩, h key v hv⟩
  · rintro ⟨hv, rfl⟩
    exact h.mem_values_iff.mp hv

theorem Keyed.insert (h : m.Keyed nameOf) {name : String} {v : ν} (hname : nameOf v = name) :
    (m.insert name v).Keyed nameOf := by
  intro key w hw
  rw [entries_insert, SortedMap.get?_insert] at hw
  split at hw
  next heq =>
    obtain rfl := Option.some.inj hw
    rw [heq, hname, key_insert]
  next => exact h key w hw

theorem Keyed.erase (h : m.Keyed nameOf) (name : String) : (m.erase name).Keyed nameOf := by
  intro key w hw
  rw [entries_erase, SortedMap.get?_erase] at hw
  split at hw
  · cases hw
  · exact h key w hw

/-- Only the names of the values that are kept matter. -/
theorem Keyed.congr (h : m.Keyed nameOf) {nameOf' : ν → String}
    (heq : ∀ v ∈ m.values, nameOf' v = nameOf v) : m.Keyed nameOf' := by
  intro key v hv
  rw [heq v (mem_values.mpr ⟨key, hv⟩)]
  exact h key v hv

theorem Keyed.mem_values_erase (h : m.Keyed nameOf) {v w : ν} (hv : v ∈ m.values) :
    w ∈ (m.erase (nameOf v)).values ↔ w ∈ m.values ∧ w ≠ v := by
  constructor
  · intro hw
    refine ⟨mem_values_of_mem_erase hw, ?_⟩
    rintro rfl
    have := (h.erase (nameOf w)).mem_values_iff.mp hw
    simp [get?_erase] at this
  · rintro ⟨hw, hne⟩
    apply (h.erase (nameOf v)).mem_values_iff.mpr
    rw [get?_erase, if_neg fun hkey => hne (h.eq_of_key_eq hv hw hkey).symm]
    exact h.mem_values_iff.mp hw

/-- Erasing a name takes the value that it finds. -/
theorem Keyed.mem_values_erase_of_get? (h : m.Keyed nameOf) {name : String} {v w : ν}
    (hv : m.get? name = some v) : w ∈ (m.erase name).values ↔ w ∈ m.values ∧ w ≠ v := by
  have herase : m.erase name = m.erase (nameOf v) := by
    simp only [NameMap.erase, h.key_of_get? hv]
  rw [herase, h.mem_values_erase (mem_values_of_get? hv)]

end Keyed

end NameMap

namespace Registry

theorem contains_iff {registry : Registry} {ref : ObjectRef} {object : Object} :
    registry.contains ref object = true ↔
      (registry.space object.kind).get? object.name = some ref := by
  rw [contains, find?, decide_eq_true_iff]

section Updates

variable {registry registry' : Registry} {owner : SchemaRef} {ref : ObjectRef} {object : Object}
  {newName : String}

/-- An object is entered if it belongs to the owner and its name is free. -/
theorem add_eq_ok_iff : registry.add owner ref object = .ok registry' ↔
    object.schema = some owner ∧ (registry.space object.kind).get? object.name = none ∧
      registry' = registry.modifySpace object.kind (·.insert object.name ref) := by
  rw [add, ← NameMap.contains_eq_false, @eq_comm _ registry']
  by_cases howner : object.schema = some owner
  · cases (registry.space object.kind).contains object.name <;> simp [howner]
  · simp [howner]

/-- Whether a registered object is moved to a free name is up to the object. -/
theorem rename_eq (hlive : (registry.space object.kind).get? object.name = some ref)
    (hfree : (registry.space object.kind).get? newName = none) :
    registry.rename ref object newName = object.checkRename.map fun _ =>
      registry.modifySpace object.kind fun space =>
        (space.erase object.name).insert newName ref := by
  have hne : object.name ≠ newName := by
    rintro rfl
    rw [hfree] at hlive
    cases hlive
  simp only [rename, contains_iff.mpr hlive, NameMap.contains_eq_false.mpr hfree, hne,
    Bool.not_true, Bool.false_eq_true, decide_false, Bool.or_false, if_false]
  cases object.checkRename <;> rfl

/-- A registered object is moved to a free name if it lets its schema rename it. -/
theorem rename_eq_ok_iff : registry.rename ref object newName = .ok registry' ↔
    (registry.space object.kind).get? object.name = some ref ∧
      (registry.space object.kind).get? newName = none ∧ object.checkRename = .ok () ∧
      registry' = registry.modifySpace object.kind fun space =>
        (space.erase object.name).insert newName ref := by
  cases hlive : registry.contains ref object with
  | false =>
    rw [← contains_iff, hlive, rename, hlive]
    exact iff_of_false (fun h => by cases h) (by simp)
  | true =>
    cases hname : (registry.space object.kind).contains newName with
    | true =>
      rw [← NameMap.contains_eq_false, hname, rename, hlive, hname, Bool.or_true]
      exact iff_of_false (fun h => by cases h) (by simp)
    | false =>
      have hfree := NameMap.contains_eq_false.mp hname
      rw [rename_eq (contains_iff.mp hlive) hfree]
      cases object.checkRename <;> simp [Except.map, contains_iff.mp hlive, hfree, eq_comm]

/-- Only the very object that is registered under its name is struck out. -/
theorem remove_eq_ok_iff : registry.remove ref object = .ok registry' ↔
    (registry.space object.kind).get? object.name = some ref ∧
      registry' = registry.modifySpace object.kind (·.erase object.name) := by
  rw [remove, @eq_comm _ registry']
  change _ ↔ registry.find? object.kind object.name = some ref ∧ _
  cases registry.find? object.kind object.name with
  | none => simp
  | some entry => by_cases heq : entry = ref <;> simp [heq]

end Updates

theorem isEmpty_iff {registry : Registry} :
    registry.isEmpty = true ↔ ∀ kind, (registry.space kind).values = [] := by
  have hspace : ∀ kind, (registry.space kind).isEmpty = true ↔ (registry.space kind).values = [] :=
    fun kind => SortedMap.isEmpty_iff
  simp only [isEmpty, List.all_eq_true, hspace]
  refine ⟨fun h kind => h kind ?_, fun h kind _ => h kind⟩
  cases kind <;> decide

theorem size_eq_length_all (registry : Registry) : registry.all.length = registry.size := by
  simp only [all, size, NameMap.values, NameMap.size, SortedMap.values, SortedMap.size,
    List.length_append, List.length_map]
  omega

end Registry

end SchemaCatalog
