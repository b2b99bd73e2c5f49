import Mathlib.Data.List.Forall2
import SchemaCatalog.Proofs.Growth
import SchemaCatalog.Proofs.Shrinking
/-!
# Matching databases

Two databases match for a session when they differ at most in what other sessions keep and in
objects that are neither registered nor kept by the session. Objects may sit in different slots, so
a matching says which of them stand for each other.
-/
namespace SchemaCatalog

section Maps

theorem isSome_of_rel {ν μ : Type} {R : ν → μ → Prop} {v? : Option ν} {w? : Option μ}
    (h : Option.Rel R v? w?) : w?.isSome = v?.isSome := by
  cases h <;> rfl

theorem cases_of_rel {ν μ : Type} {R : ν → μ → Prop} {v? : Option ν} {w? : Option μ}
    (h : Option.Rel R v? w?) :
    (v? = none ∧ w? = none) ∨ ∃ v w, v? = some v ∧ w? = some w ∧ R v w := by
  cases h with
  | none => exact .inl ⟨rfl, rfl⟩
  | some h => exact .inr ⟨_, _, rfl, rfl, h⟩

variable {κ ν μ : Type} [Ord κ] {R R' : ν → μ → Prop} {v : ν} {w : μ}

namespace SortedMap

variable {l : List (κ × ν)} {l' : List (κ × μ)}

/-- The entries pair off: the keys are the same and the values match. -/
abbrev Pairs (R : ν → μ → Prop) (l : List (κ × ν)) (l' : List (κ × μ)) : Prop :=
  List.Forall₂ (fun e e' => e'.1 = e.1 ∧ R e.2 e'.2) l l'

private theorem Pairs.lookup (h : Pairs R l l') (k : κ) :
    Option.Rel R (lookup k l) (lookup k l') := by
  induction h with
  | nil => exact .none
  | cons hentry _ ih =>
    rw [SortedMap.lookup, SortedMap.lookup, hentry.1]
    split
    · exact .some hentry.2
    · exact ih

private theorem Pairs.insertEntry (h : Pairs R l l') (k : κ) (hvalue : R v w) :
    Pairs R (insertEntry k v l) (insertEntry k w l') := by
  induction h with
  | nil => exact .cons ⟨rfl, hvalue⟩ .nil
  | cons hentry hrest ih =>
    rw [SortedMap.insertEntry, SortedMap.insertEntry, hentry.1]
    split
    · exact .cons ⟨rfl, hvalue⟩ (.cons hentry hrest)
    · exact .cons ⟨rfl, hvalue⟩ hrest
    · exact .cons hentry ih

private theorem Pairs.filter (h : Pairs R l l') (k : κ) :
    Pairs R (l.filter fun e => compare k e.1 != .eq) (l'.filter fun e => compare k e.1 != .eq) := by
  refine List.rel_filter (fun e e' he => ?_) h
  simp only [he.1]

end SortedMap

namespace NameMap

variable {m : NameMap ν} {m' : NameMap μ}

/-- The maps have the same keys, and the values under a key match. -/
structure Matches (R : ν → μ → Prop) (m : NameMap ν) (m' : NameMap μ) : Prop where
  rule : m'.rule = m.rule
  entries : SortedMap.Pairs R m.entries.entries m'.entries.entries

namespace Matches

private theorem key (h : Matches R m m') (name : String) : m'.key name = m.key name := by
  rw [NameMap.key, h.rule, NameMap.key]

theorem get? (h : Matches R m m') (name : String) : Option.Rel R (m.get? name) (m'.get? name) := by
  rw [NameMap.get?, NameMap.get?, h.key]
  exact h.entries.lookup _

theorem contains (h : Matches R m m') (name : String) : m'.contains name = m.contains name := by
  rw [NameMap.contains, NameMap.contains, isSome_of_rel (h.get? name)]

theorem size (h : Matches R m m') : m'.size = m.size :=
  h.entries.length_eq.symm

theorem values (h : Matches R m m') : List.Forall₂ R m.values m'.values :=
  List.rel_map (fun _ _ he => he.2) h.entries

theorem empty (rule : CaseRule) : Matches R (empty rule) (NameMap.empty rule) :=
  ⟨rfl, .nil⟩

theorem insert (h : Matches R m m') (name : String) (hvalue : R v w) :
    Matches R (m.insert name v) (m'.insert name w) := by
  refine ⟨h.rule, ?_⟩
  have hentries := h.entries.insertEntry (m.key name) hvalue
  rw [entries_insert, entries_insert, h.key]
  exact hentries

theorem erase (h : Matches R m m') (name : String) : Matches R (m.erase name) (m'.erase name) := by
  refine ⟨h.rule, ?_⟩
  have hentries := h.entries.filter (m.key name)
  rw [entries_erase, entries_erase, h.key]
  exact hentries

theorem same {R : ν → ν → Prop} (h : ∀ v ∈ m.values, R v v) : Matches R m m :=
  ⟨rfl, List.forall₂_same.mpr fun e he => ⟨rfl, h e.2 (List.mem_map_of_mem he)⟩⟩

private theorem mono (h : Matches R m m') (hle : ∀ v w, R v w → R' v w) : Matches R' m m' :=
  ⟨h.rule, h.entries.imp fun _ _ he => ⟨he.1, hle _ _ he.2⟩⟩

end Matches

end NameMap

end Maps

section Schemas

variable {R R' : ObjectRef → ObjectRef → Prop} {registry registry' : Registry}
  {schema schema' : Schema}

/-- The name spaces match, kind by kind. -/
def Registry.Matches (R : ObjectRef → ObjectRef → Prop) (registry registry' : Registry) : Prop :=
  ∀ kind, (registry.space kind).Matches R (registry'.space kind)

theorem Registry.Matches.modifySpace (h : registry.Matches R registry') (kind : ObjectKind)
    {change change' : NameMap ObjectRef → NameMap ObjectRef}
    (hchange : (change (registry.space kind)).Matches R (change' (registry'.space kind))) :
    (registry.modifySpace kind change).Matches R (registry'.modifySpace kind change') := by
  intro other
  rw [Registry.space_modifySpace, Registry.space_modifySpace]
  split
  · exact hchange
  · exact h other

private theorem Registry.Matches.mono (h : registry.Matches R registry')
    (hle : ∀ o o', R o o' → R' o o') :
    registry.Matches R' registry' :=
  fun kind => (h kind).mono hle

/-- The schemas are the same, up to the objects that stand for each other. -/
structure Schema.Matches (R : ObjectRef → ObjectRef → Prop) (schema schema' : Schema) : Prop where
  registry : schema.registry.Matches R schema'.registry
  rest : schema' = { schema with registry := schema'.registry }

namespace Schema.Matches

variable (h : schema.Matches R schema')

include h

theorem reservations_eq : schema'.reservations = schema.reservations := by
  rw [h.rest]

theorem name_eq : schema'.name = schema.name := by
  rw [h.rest]

theorem state_eq : schema'.state = schema.state := by
  rw [h.rest]

theorem system_eq : schema'.system = schema.system := by
  rw [h.rest]

theorem withRegistry (hregistry : registry.Matches R registry') :
    Schema.Matches R { schema with registry } { schema' with registry := registry' } := by
  refine ⟨hregistry, ?_⟩
  rw [h.rest]

theorem withReservations (reservations : ReservationSet) :
    Schema.Matches R { schema with reservations } { schema' with reservations } := by
  refine ⟨h.registry, ?_⟩
  rw [h.rest]

theorem freeName (name : String) : (schema.freeName name).Matches R (schema'.freeName name) := by
  rw [Schema.freeName, Schema.freeName, h.reservations_eq]
  exact h.withReservations _

end Schema.Matches

end Schemas

/-- Which objects of two databases stand for each other, and which schemas are the same in both. -/
structure Matching where
  objects : ObjectRef → ObjectRef → Prop
  schemas : SchemaRef → Prop

namespace Matching

/-- The second matching has all that the first has. -/
structure Le (M M' : Matching) : Prop where
  objects : ∀ o o', M.objects o o' → M'.objects o o'
  schemas : ∀ s, M.schemas s → M'.schemas s

instance : LE Matching := ⟨Le⟩

variable {M M' M'' : Matching}

theorem le_refl (M : Matching) : M ≤ M :=
  ⟨fun _ _ h => h, fun _ h => h⟩

theorem le_trans (h : M ≤ M') (h' : M' ≤ M'') : M ≤ M'' :=
  ⟨fun o o' ho => h'.objects o o' (h.objects o o' ho), fun s hs => h'.schemas s (h.schemas s hs)⟩

/-- The matching with one more pair of objects. -/
def withObjects (M : Matching) (o o' : ObjectRef) : Matching :=
  { M with objects := fun p p' => M.objects p p' ∨ (p = o ∧ p' = o') }

theorem le_withObjects (M : Matching) (o o' : ObjectRef) : M ≤ M.withObjects o o' :=
  ⟨fun _ _ h => .inl h, fun _ h => h⟩

/-- The matching with one more schema. -/
def withSchema (M : Matching) (s : SchemaRef) : Matching :=
  { M with schemas := fun r => M.schemas r ∨ r = s }

theorem le_withSchema (M : Matching) (s : SchemaRef) : M ≤ M.withSchema s :=
  ⟨fun _ _ h => h, fun _ h => .inl h⟩

end Matching

/-- The databases differ at most in what sessions other than this one keep, and in objects that no
schema and not this session holds. -/
structure Alike (c : SessionRef) (M : Matching) (db db' : Database) : Prop where
  object : ∀ o o', M.objects o o' → db'.object o' = db.object o
  slots : ∀ o o', M.objects o o' → o.slot < db.objectStore.next ∧ o'.slot < db'.objectStore.next
  injective : ∀ o o' p p', M.objects o o' → M.objects p p' → (o = p ↔ o' = p')
  listed : ∀ s ∈ db.allSchemas, M.schemas s
  schema : ∀ s, M.schemas s → (db.schema s).Matches M.objects (db'.schema s)
  tables : (db.session c).tempTables.Matches M.objects (db'.session c).tempTables
  indexes : (db.session c).tempIndexes.Matches M.objects (db'.session c).tempIndexes
  user : ∀ d, (db'.session d).user = (db.session d).user
  active : ∀ d, (db'.session d).active = (db.session d).active
  schemaCount : db'.schemaStore.next = db.schemaStore.next
  sessionCount : db'.sessionStore.next = db.sessionStore.next
  rest : db' = { db with
    objectStore := db'.objectStore, schemaStore := db'.schemaStore,
    sessionStore := db'.sessionStore }

namespace Alike

open Database

variable {c : SessionRef} {M : Matching} {db db' : Database} {s : SchemaRef} {o o' : ObjectRef}

section Reading

variable (h : Alike c M db db')

include h

theorem schemas_eq : db'.schemas = db.schemas := by
  rw [h.rest]

private theorem nextId_eq : db'.nextId = db.nextId := by
  rw [h.rest]

private theorem rule_eq : db'.rule = db.rule := by
  rw [rule, h.rest, rule]

theorem allSchemas_eq : db'.allSchemas = db.allSchemas := by
  rw [allSchemas, h.schemas_eq, allSchemas]

theorem findSchema_eq (name : String) : db'.findSchema name = db.findSchema name := by
  rw [findSchema, h.schemas_eq, findSchema]

theorem schemas_of_find {name : String} (hname : db.findSchema name = some s) : M.schemas s :=
  h.listed s (mem_allSchemas_of_find hname)

theorem nameOf_eq (ho : M.objects o o') : db'.nameOf o' = db.nameOf o := by
  rw [nameOf, h.object o o' ho, nameOf]

theorem tableOf_eq (ho : M.objects o o') : db'.tableOf o' = db.tableOf o := by
  rw [tableOf, h.object o o' ho, tableOf]

theorem indexOf_eq (ho : M.objects o o') : db'.indexOf o' = db.indexOf o := by
  rw [indexOf, h.object o o' ho, indexOf]

theorem space (hs : M.schemas s) (kind : ObjectKind) :
    (db.space s kind).Matches M.objects (db'.space s kind) :=
  (h.schema s hs).registry kind

end Reading

section Changing

variable (h : Alike c M db db')

include h

theorem modifyObject (ho : M.objects o o') (change : Object → Object) :
    Alike c M (db.modifyObject o change) (db'.modifyObject o' change) := by
  refine { h with object := fun p p' hp => ?_, rest := ?_ }
  -- the pairs are one to one, so the change meets `p` exactly if it meets `p'`
  · rw [object_modifyObject, object_modifyObject, h.object o o' ho, h.object p p' hp]
    exact if_congr (h.injective p p' o o' hp ho).symm rfl rfl
  · rw [h.rest]
    rfl

theorem modifySchema {change change' : Schema → Schema}
    (hschema : (change (db.schema s)).Matches M.objects (change' (db'.schema s))) :
    Alike c M (db.modifySchema s change) (db'.modifySchema s change') := by
  refine { h with schema := fun r hr => ?_, schemaCount := h.schemaCount, rest := ?_ }
  · rw [schema_modifySchema, schema_modifySchema]
    split
    · exact hschema
    · exact h.schema r hr
  · rw [h.rest]
    rfl

theorem modifySession {change change' : Session → Session}
    (htables : (change (db.session c)).tempTables.Matches M.objects
      (change' (db'.session c)).tempTables)
    (hindexes : (change (db.session c)).tempIndexes.Matches M.objects
      (change' (db'.session c)).tempIndexes)
    (huser : (change' (db'.session c)).user = (change (db.session c)).user)
    (hactive : (change' (db'.session c)).active = (change (db.session c)).active) :
    Alike c M (db.modifySession c change) (db'.modifySession c change') := by
  have hsession : ∀ (db : Database) (change : Session → Session) d,
      (db.modifySession c change).session d =
        if d = c then change (db.session c) else db.session d := fun _ _ _ =>
    session_modifySession ..
  refine { h with
    tables := ?_, indexes := ?_, user := fun d => ?_, active := fun d => ?_,
    sessionCount := h.sessionCount, rest := ?_ }
  · rw [hsession, hsession, if_pos rfl, if_pos rfl]
    exact htables
  · rw [hsession, hsession, if_pos rfl, if_pos rfl]
    exact hindexes
  · rw [hsession, hsession]
    split
    · exact huser
    · exact h.user d
  · rw [hsession, hsession]
    split
    · exact hactive
    · exact h.active d
  · rw [h.rest]
    rfl

/-- New objects of one schema stand for each other. -/
theorem withObject (s : SchemaRef) (name : String) (body : ObjectBody) :
    Alike c (M.withObjects db.nextObject db'.nextObject) (db.withObject s name body)
      (db'.withObject s name body) := by
  have hle := (M.le_withObjects db.nextObject db'.nextObject).objects
  refine {
    h with
    object := ?_, slots := ?_, injective := ?_,
    schema := fun r hr => ⟨(h.schema r hr).registry.mono hle, (h.schema r hr).rest⟩,
    tables := h.tables.mono hle, indexes := h.indexes.mono hle, rest := ?_ }
  · rintro p p' (hp | ⟨rfl, rfl⟩)
    · obtain ⟨hslot, hslot'⟩ := h.slots p p' hp
      rw [object_withObject_of_lt s name body hslot, object_withObject_of_lt s name body hslot',
        h.object p p' hp]
    · rw [object_nextObject, object_nextObject, h.nextId_eq]
  · rintro p p' (hp | ⟨rfl, rfl⟩)
    · obtain ⟨hslot, hslot'⟩ := h.slots p p' hp
      exact ⟨Nat.lt_succ_of_lt hslot, Nat.lt_succ_of_lt hslot'⟩
    · exact ⟨Nat.lt_succ_self _, Nat.lt_succ_self _⟩
  · rintro p p' q q' (hp | ⟨rfl, rfl⟩) (hq | ⟨rfl, rfl⟩)
    · exact h.injective p p' q q' hp hq
    · obtain ⟨hslot, hslot'⟩ := h.slots p p' hp
      refine iff_of_false ?_ ?_
      · rintro rfl
        exact Nat.lt_irrefl _ hslot
      · rintro rfl
        exact Nat.lt_irrefl _ hslot'
    · obtain ⟨hslot, hslot'⟩ := h.slots q q' hq
      refine iff_of_false ?_ ?_
      · rintro rfl
        exact Nat.lt_irrefl _ hslot
      · rintro rfl
        exact Nat.lt_irrefl _ hslot'
    · exact iff_of_true rfl rfl
  · rw [h.rest]
    rfl

/-- A new schema is the same in both. -/
theorem withSchema (name : String) (owner : Option Principal) (system : Bool) :
    Alike c (M.withSchema db.nextSchema) (withSchema name owner system db)
      (withSchema name owner system db') := by
  have hnext : db'.nextSchema = db.nextSchema := congrArg SchemaRef.mk h.schemaCount
  refine {
    h with
    listed := fun r hr => ?_, schema := fun r hr => ?_, schemaCount := ?_, rest := ?_ }
  · rcases NameMap.mem_values_of_mem_insert hr with rfl | hr
    · exact .inr rfl
    · exact .inl (h.listed r hr)
  · rw [schema_withSchema, schema_withSchema, hnext, h.nextId_eq, h.rule_eq]
    split
    next => exact ⟨fun kind => by cases kind <;> exact .empty db.rule, rfl⟩
    next hne => exact h.schema r (hr.resolve_right hne)
  · exact congrArg Nat.succ h.schemaCount
  · rw [Database.withSchema, Database.withSchema, hnext, h.rest]
    rfl

end Changing

end Alike

end SchemaCatalog
