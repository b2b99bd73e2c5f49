/-!
# Sorted maps

A finite map is the list of its entries in strictly increasing key order, so maps with the same
contents are equal. `get?_insert` and `get?_erase` say what an update does to every look-up, and
`eq_of_get?_eq` that the look-ups determine the map.
-/
namespace SchemaCatalog

/-- A finite map with its entries in strictly increasing key order. -/
structure SortedMap (κ ν : Type) [Ord κ] where
  entries : List (κ × ν)
  sorted : entries.Pairwise fun a b => compare a.1 b.1 = .lt
deriving DecidableEq

namespace SortedMap

section Entries

variable {κ ν : Type} [Ord κ]

/-- The value stored under `k` in a list of entries. -/
def lookup (k : κ) : List (κ × ν) → Option ν
  | [] => none
  | e :: rest => if compare k e.1 = .eq then some e.2 else lookup k rest

/-- Place `k ↦ v` before the first larger key, replacing an entry with the same key. -/
def insertEntry (k : κ) (v : ν) : List (κ × ν) → List (κ × ν)
  | [] => [(k, v)]
  | e :: rest =>
    match compare k e.1 with
    | .lt => (k, v) :: e :: rest
    | .eq => (k, v) :: rest
    | .gt => e :: insertEntry k v rest

private theorem mem_insertEntry {k : κ} {v : ν} {a : κ × ν} {l : List (κ × ν)}
    (h : a ∈ insertEntry k v l) : a = (k, v) ∨ a ∈ l := by
  induction l with
  | nil => simpa [insertEntry] using h
  | cons e rest ih =>
    rw [insertEntry] at h
    split at h <;> grind

variable [Std.TransOrd κ]

private theorem sorted_insertEntry (k : κ) (v : ν) {l : List (κ × ν)}
    (h : l.Pairwise fun a b => compare a.1 b.1 = .lt) :
    (insertEntry k v l).Pairwise fun a b => compare a.1 b.1 = .lt := by
  induction l with
  | nil => simp [insertEntry]
  | cons e rest ih =>
    obtain ⟨he, hrest⟩ := List.pairwise_cons.mp h
    rw [insertEntry]
    split
    next hk =>
      refine List.pairwise_cons.mpr ⟨fun a ha => ?_, h⟩
      rcases List.mem_cons.mp ha with rfl | ha
      · exact hk
      · exact Std.TransCmp.lt_trans hk (he a ha)
    next hk =>
      exact List.pairwise_cons.mpr ⟨fun a ha => Std.TransCmp.lt_of_eq_of_lt hk (he a ha), hrest⟩
    next hk =>
      refine List.pairwise_cons.mpr ⟨fun a ha => ?_, ih hrest⟩
      rcases mem_insertEntry ha with rfl | ha
      · exact Std.OrientedCmp.gt_iff_lt.mp hk
      · exact he a ha

private theorem lookup_insertEntry (k : κ) (v : ν) (k' : κ) (l : List (κ × ν)) :
    lookup k' (insertEntry k v l) = if compare k' k = .eq then some v else lookup k' l := by
  induction l with
  | nil => simp [insertEntry, lookup]
  | cons e rest ih =>
    rw [insertEntry]
    split
    next => simp [lookup]
    next hk =>
      have hswap : compare k' k = compare k' e.1 := Std.TransCmp.congr_right hk
      by_cases hk' : compare k' k = .eq
      · simp [lookup, hk']
      · simp [lookup, hk', hswap ▸ hk']
    next hk =>
      simp only [lookup, ih]
      by_cases hk' : compare k' k = .eq
      · have : compare k' e.1 = .gt := (Std.TransCmp.congr_left hk').trans hk
        simp [hk', this]
      · simp [hk']

private theorem lookup_filter_ne (k k' : κ) (l : List (κ × ν)) :
    lookup k' (l.filter fun e => compare k e.1 != .eq) =
      if compare k k' = .eq then none else lookup k' l := by
  induction l with
  | nil => simp [lookup]
  | cons e rest ih =>
    by_cases hk : compare k e.1 = .eq
    · by_cases hk' : compare k k' = .eq
      · simp [hk, ih, hk']
      · have h : ¬ compare k' e.1 = .eq := fun h =>
          hk' ((Std.TransCmp.congr_right h).trans hk)
        simp [hk, ih, hk', lookup, h]
    · by_cases hk' : compare k k' = .eq
      · have h : ¬ compare k' e.1 = .eq := fun h => hk ((Std.TransCmp.congr_left hk').trans h)
        simp [hk, ih, hk', lookup, h]
      · simp [hk, ih, hk', lookup]

end Entries

variable {κ ν : Type} [Ord κ]

def empty : SortedMap κ ν := ⟨[], .nil⟩

instance : Inhabited (SortedMap κ ν) := ⟨empty⟩

def get? (m : SortedMap κ ν) (k : κ) : Option ν :=
  lookup k m.entries

def contains (m : SortedMap κ ν) (k : κ) : Bool :=
  (m.get? k).isSome

def insert [Std.TransOrd κ] (m : SortedMap κ ν) (k : κ) (v : ν) : SortedMap κ ν :=
  ⟨insertEntry k v m.entries, sorted_insertEntry k v m.sorted⟩

def erase (m : SortedMap κ ν) (k : κ) : SortedMap κ ν :=
  ⟨m.entries.filter fun e => compare k e.1 != .eq, m.sorted.filter _⟩

def size (m : SortedMap κ ν) : Nat :=
  m.entries.length

def isEmpty (m : SortedMap κ ν) : Bool :=
  m.entries.isEmpty

/-- The keys in increasing order. -/
def keys (m : SortedMap κ ν) : List κ :=
  m.entries.map (·.1)

/-- The values in the order of their keys. -/
def values (m : SortedMap κ ν) : List ν :=
  m.entries.map (·.2)

/-- The value with the least key. -/
def first? (m : SortedMap κ ν) : Option ν :=
  m.values.head?

@[simp] theorem get?_empty (k : κ) : (empty : SortedMap κ ν).get? k = none := rfl

@[simp] theorem values_empty : (empty : SortedMap κ ν).values = [] := rfl

theorem size_eq_zero_iff (m : SortedMap κ ν) : m.size = 0 ↔ m.values = [] := by
  simp [size, values]

section Lawful

variable [Std.TransOrd κ] [Std.LawfulEqOrd κ] [DecidableEq κ]

theorem get?_insert (m : SortedMap κ ν) (k k' : κ) (v : ν) :
    (m.insert k v).get? k' = if k' = k then some v else m.get? k' := by
  simp [get?, insert, lookup_insertEntry]

theorem get?_erase (m : SortedMap κ ν) (k k' : κ) :
    (m.erase k).get? k' = if k = k' then none else m.get? k' := by
  simp [get?, erase, lookup_filter_ne]

omit [Std.TransOrd κ] in
/-- An entry is in the list exactly when the look-up of its key finds its value. -/
theorem mem_entries_iff (m : SortedMap κ ν) (k : κ) (v : ν) :
    (k, v) ∈ m.entries ↔ m.get? k = some v := by
  obtain ⟨l, hl⟩ := m
  simp only [get?]
  induction l with
  | nil => simp [lookup]
  | cons e rest ih =>
    obtain ⟨he, hrest⟩ := List.pairwise_cons.mp hl
    by_cases hk : k = e.1
    · subst hk
      have hnot : ∀ w, (e.1, w) ∉ rest := fun w hw => by simpa using he _ hw
      simp [lookup, hnot, Prod.ext_iff, eq_comm]
    · have hne : (k, v) ≠ e := fun h => hk (h ▸ rfl)
      simp [lookup, hk, hne, ih hrest]

omit [DecidableEq κ] in
private theorem entries_eq_of_mem_iff {l l' : List (κ × ν)}
    (hl : l.Pairwise fun a b => compare a.1 b.1 = .lt)
    (hl' : l'.Pairwise fun a b => compare a.1 b.1 = .lt)
    (h : ∀ a, a ∈ l ↔ a ∈ l') : l = l' := by
  induction l generalizing l' with
  | nil => exact (List.eq_nil_iff_forall_not_mem.mpr fun a ha => by simpa using (h a).mpr ha).symm
  | cons e rest ih =>
    cases l' with
    | nil => exact absurd ((h e).mp (by simp)) (by simp)
    | cons e' rest' =>
      obtain ⟨he, hrest⟩ := List.pairwise_cons.mp hl
      obtain ⟨he', hrest'⟩ := List.pairwise_cons.mp hl'
      have hee : e = e' := by
        rcases List.mem_cons.mp ((h e).mp (by simp)) with heq | hmem
        · exact heq
        · rcases List.mem_cons.mp ((h e').mpr (by simp)) with heq | hmem'
          · exact heq.symm
          · have h₁ := he' e hmem
            have h₂ := he e' hmem'
            exact absurd (Std.TransCmp.lt_trans h₁ h₂) (by simp)
      subst hee
      congr 1
      refine ih hrest hrest' fun a => ⟨fun ha => ?_, fun ha => ?_⟩
      · rcases List.mem_cons.mp ((h a).mp (List.mem_cons_of_mem _ ha)) with rfl | ha'
        · simpa using he _ ha
        · exact ha'
      · rcases List.mem_cons.mp ((h a).mpr (List.mem_cons_of_mem _ ha)) with rfl | ha'
        · simpa using he' _ ha
        · exact ha'

/-- Maps that answer every look-up alike are equal. -/
theorem eq_of_get?_eq {m m' : SortedMap κ ν} (h : ∀ k, m.get? k = m'.get? k) : m = m' := by
  have hentries := entries_eq_of_mem_iff m.sorted m'.sorted fun a => by
    rw [show a = (a.1, a.2) from rfl, mem_entries_iff, mem_entries_iff, h]
  cases m
  cases m'
  simpa using hentries

end Lawful

end SortedMap

end SchemaCatalog
