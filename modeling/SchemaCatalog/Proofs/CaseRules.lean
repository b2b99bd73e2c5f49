import SchemaCatalog.Proofs.Effects
import SchemaCatalog.Proofs.Evolution
/-!
# One case rule

A database compares all the names in it by the case rule of its settings, for good. So a look-up in
it finds the same under every name that the rule does not tell apart.
-/
namespace SchemaCatalog

open Database

/-- The rule does not tell the names apart. -/
def CaseRule.Same (rule : CaseRule) (name name' : String) : Prop :=
  rule.fold name = rule.fold name'

instance (rule : CaseRule) (name name' : String) : Decidable (rule.Same name name') :=
  inferInstanceAs (Decidable (rule.fold name = rule.fold name'))

namespace NameMap

variable {ν : Type} {m : NameMap ν} {rule : CaseRule} {name name' : String}

private theorem key_same (hrule : m.rule = rule) (hname : rule.Same name name') :
    m.key name = m.key name' := by
  rw [key, key, hrule]
  exact hname

private theorem get?_same (hrule : m.rule = rule) (hname : rule.Same name name') :
    m.get? name = m.get? name' := by
  rw [get?, key_same hrule hname, get?]

theorem erase_same (hrule : m.rule = rule) (hname : rule.Same name name') :
    m.erase name = m.erase name' := by
  rw [erase, key_same hrule hname, erase]

end NameMap

namespace Database

variable {rule : CaseRule} {db db' : Database} {c : SessionRef} {s : SchemaRef}

/-- The database compares the names of schemas and of what is in them by this rule. -/
structure Follows (rule : CaseRule) (db : Database) : Prop where
  own : db.rule = rule
  schemas : db.schemas.rule = rule
  spaces : ∀ s : SchemaRef, s.slot < db.schemaStore.next → ∀ kind, (db.space s kind).rule = rule

/-- A session compares the names of its temporary objects by this rule. -/
structure SessionFollows (rule : CaseRule) (db : Database) (c : SessionRef) : Prop where
  tables : (db.session c).tempTables.rule = rule
  indexes : (db.session c).tempIndexes.rule = rule

/-- If the first database follows the rule, so does the second. -/
def StillFollows (rule : CaseRule) (db db' : Database) : Prop :=
  db.Follows rule → db'.Follows rule

instance : IsPreorder Database (StillFollows rule) where
  refl _ := id
  trans _ _ _ h h' := h' ∘ h

namespace Follows

variable (h : db.Follows rule)

include h

private theorem of_eq (hown : db'.settings = db.settings) (hschemas : db'.schemas = db.schemas)
    (hstore : db'.schemaStore = db.schemaStore) : db'.Follows rule := by
  refine ⟨by rw [Database.rule, hown]; exact h.own, by rw [hschemas, h.schemas],
    fun s hs kind => ?_⟩
  rw [space, schema, hstore]
  rw [hstore] at hs
  exact h.spaces s hs kind

/-- A schema changes, but not its rule. -/
private theorem modifySchema (s : SchemaRef) (change : Schema → Schema)
    (hchange : ∀ kind, ((change (db.schema s)).registry.space kind).rule = (db.space s kind).rule) :
    (db.modifySchema s change).Follows rule := by
  refine ⟨h.own, h.schemas, fun r hr kind => ?_⟩
  have hrule := field_modifySchema (fun schema => (schema.registry.space kind).rule) r
    (hchange kind)
  exact hrule.trans (h.spaces r hr kind)

/-- One name space of a schema changes, but not its rule. -/
private theorem modifySpace (s : SchemaRef) (changed : ObjectKind)
    (update : NameMap ObjectRef → NameMap ObjectRef) {change : Schema → Schema}
    (hchange : (change (db.schema s)).registry =
      (db.schema s).registry.modifySpace changed update)
    (hupdate : ∀ names, (update names).rule = names.rule) :
    (db.modifySchema s change).Follows rule := by
  refine h.modifySchema s change fun kind => ?_
  rw [hchange, Registry.space_modifySpace, space]
  split
  next hkind => rw [hkind, hupdate]
  next => rfl

private theorem withSchema (name : String) (owner : Option Principal) (system : Bool) :
    (db.withSchema name owner system).Follows rule := by
  refine ⟨h.own, h.schemas, fun s hs kind => ?_⟩
  by_cases hnew : s = db.nextSchema
  · rw [hnew, space_nextSchema]
    exact h.own
  · rw [space_withSchema hnew]
    refine h.spaces s ?_ kind
    have hle : s.slot < db.schemaStore.next + 1 := hs
    have hslot : s.slot ≠ db.schemaStore.next := fun heq => hnew (by
      obtain ⟨slot⟩ := s
      exact congrArg SchemaRef.mk heq)
    omega

omit h

theorem allowsStatements : AllowsStatements (StillFollows rule) where
  withObject _ _ _ _ _ h := h.of_eq rfl rfl rfl
  entered s o db _ h :=
    h.modifySpace s (db.object o).kind (·.insert (db.nameOf o) o) rfl fun _ => rfl
  modifySession _ _ _ h := h.of_eq rfl rfl rfl
  struckOut s o db _ h :=
    h.modifySpace s (db.object o).kind (·.erase (db.nameOf o)) rfl fun _ => rfl
  invalidate _ _ h := h.of_eq rfl rfl rfl
  schemaInvalidated s _ h := h.modifySchema s _ fun _ => rfl
  schemaErased _ _ h := ⟨h.own, h.schemas, h.spaces⟩
  setTable _ _ _ h := h.of_eq rfl rfl rfl
  reservations s _ _ h := h.modifySchema s _ fun _ => rfl
  renamed s o newName db h :=
    have hobject : (db.modifyObject o (Object.rename newName)).Follows rule := h.of_eq rfl rfl rfl
    hobject.modifySpace s (db.object o).kind
      (fun space => (space.erase (db.nameOf o)).insert newName o) rfl fun _ => rfl
  withSchema name owner _ h := h.withSchema name (some owner) false

end Follows

/-- A database before its first schema. -/
private theorem follows_of_empty (hown : db.rule = rule) (hschemas : db.schemas = .empty rule)
    (hstore : db.schemaStore = .empty) : db.Follows rule := by
  refine ⟨hown, by rw [hschemas, NameMap.empty], fun s hs => ?_⟩
  rw [hstore] at hs
  exact absurd hs (Nat.not_lt_zero _)

private theorem follows_bootstrap (settings : Settings) :
    (bootstrap settings).Follows settings.rule := by
  refine Follows.withSchema (Follows.withSchema (follows_of_empty ?_ ?_ ?_) _ _ _) _ _ _
  all_goals rfl

/-- A change of a session is settled by what it does to this one session. -/
private theorem modifySession_congr {change change' : Session → Session}
    (h : change (db.session c) = change' (db.session c)) :
    db.modifySession c change = db.modifySession c change' := by
  simp only [session] at h
  simp only [modifySession, Store.modify, h]

section Lookups

variable {name name' : String} (hname : rule.Same name name')

include hname

theorem Follows.findSchema_same (h : db.Follows rule) :
    db.findSchema name = db.findSchema name' :=
  NameMap.get?_same h.schemas hname

theorem Follows.space_same (h : db.Follows rule) (hdb : db.WellFormed) (hs : s ∈ db.allSchemas)
    (kind : ObjectKind) : (db.space s kind).get? name = (db.space s kind).get? name' :=
  NameMap.get?_same (h.spaces s (hdb.schemaSlots s hs) kind) hname

theorem SessionFollows.tempTable?_same (h : db.SessionFollows rule c) :
    c.tempTable? name db = c.tempTable? name' db :=
  NameMap.get?_same h.tables hname

theorem SessionFollows.dropTempIndex_same (h : db.SessionFollows rule c) :
    c.dropTempIndex name db = c.dropTempIndex name' db := by
  rw [SessionRef.dropTempIndex, SessionRef.tempIndex?, NameMap.get?_same h.indexes hname,
    SessionRef.dropTempIndex, SessionRef.tempIndex?]
  cases (db.session c).tempIndexes.get? name' with
  | none => rfl
  | some i =>
    have herased : (db.modifySession c fun session =>
        { session with tempIndexes := session.tempIndexes.erase name }) =
          db.modifySession c fun session =>
            { session with tempIndexes := session.tempIndexes.erase name' } :=
      modifySession_congr (by rw [NameMap.erase_same h.indexes hname])
    simp only [herased]

end Lookups

end Database

section Runs

variable {rule : CaseRule} {allowed : Action → Prop} {db db' : Database}

private theorem Database.Follows.run (h : db.Follows rule) (action : Action) :
    (action.run db).Follows rule := by
  have hR : AllowsStatements (StillFollows rule) := Follows.allowsStatements
  cases action with
  | execute c statement => exact hR.execute c statement db h
  | openSession user => exact h.of_eq rfl rfl rfl
  | closeSession c => exact hR.close c db h
  | removeSession c =>
    rw [Action.run, Database.removeSession]
    split
    · exact hR.close c _ (h.of_eq rfl rfl rfl)
    · exact h
  | createUser name admin =>
    obtain ⟨users, nextId, -, hafter⟩ := stateAfter_createUser db name admin
    rw [Action.run, hafter]
    exact h.of_eq rfl rfl rfl
  | dropUser name =>
    obtain ⟨users, hafter⟩ := stateAfter_dropUser db name
    rw [Action.run, hafter]
    exact h.of_eq rfl rfl rfl

/-- A database follows the rule of its settings at all times. -/
theorem Evolves.follows {settings : Settings} (h : Evolves allowed (bootstrap settings) db) :
    db.Follows settings.rule := by
  induction h with
  | refl => exact follows_bootstrap settings
  | tail _ hlast ih =>
    cases hlast with
    | act action _ _ => exact ih.run action
    | session user rule => exact ih.of_eq rfl rfl rfl

end Runs

end SchemaCatalog
