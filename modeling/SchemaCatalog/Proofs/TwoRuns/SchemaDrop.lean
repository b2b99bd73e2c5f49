import SchemaCatalog.Proofs.SchemaDrop
import SchemaCatalog.Proofs.TwoRuns.Catalog
import SchemaCatalog.Proofs.WellFormed
/-!
# Dropping a schema twice

A schema that is dropped from databases that match leaves databases that match. What is left of it
is determined by what it was.
-/
namespace SchemaCatalog

open Database

/-- What is left is determined by what is struck off. -/
private theorem ReservationSet.Frees.eq {keys : String → Prop} {set set₁ set₂ : ReservationSet}
    (h : set.Frees keys set₁) (h' : set.Frees keys set₂) : set₂ = set₁ := by
  have hnames : set₂.names = set₁.names := by
    apply SortedMap.eq_of_get?_eq
    intro key
    by_cases hkey : keys key
    · rw [h.freed key hkey, h'.freed key hkey]
    · rw [h.kept key hkey, h'.kept key hkey]
  have hrule := h'.rule.trans h.rule.symm
  have hnextToken := h'.nextToken.trans h.nextToken.symm
  cases set₁
  cases set₂
  cases hnames
  cases hrule
  cases hnextToken
  rfl

namespace Alike

variable {c : SessionRef} {M : Matching} {db db' after after' : Database} {s : SchemaRef}
  {o o' : ObjectRef} {name : String} (h : Alike c M db db') (hs : M.schemas s)

include h hs

theorem objects_agree :
    Agree (List.Forall₂ M.objects) (s.objects db) (s.objects db') := by
  refine (h.activeRegistry_agree hs).bind fun registry registry' hregistry => .ok ?_
  have hvalues := fun kind => (hregistry kind).values
  exact List.rel_append (List.rel_append (List.rel_append (List.rel_append
    (hvalues .tableOrView) (hvalues .sequence)) (hvalues .index)) (hvalues .constant))
    (hvalues .functionAlias)

private theorem holds_iff (ho : M.objects o o') : db'.Holds s o' ↔ db.Holds s o := by
  have hmem : ∀ {l l' : List ObjectRef}, List.Forall₂ M.objects l l' → (o' ∈ l' ↔ o ∈ l) := by
    intro l l' hl
    induction hl with
    | nil => simp
    | @cons p p' l l' hp _ ih =>
      rw [List.mem_cons, List.mem_cons, ih, h.injective o o' p p' ho hp]
  exact exists_congr fun kind => hmem (h.space hs kind).values

/-- The names of what a schema holds are the same. -/
private theorem exists_holds_iff (P : String → Prop) :
    (∃ o, db'.Holds s o ∧ P (db'.nameOf o)) ↔ ∃ o, db.Holds s o ∧ P (db.nameOf o) := by
  have hnames : ∀ db : Database, (∃ o, db.Holds s o ∧ P (db.nameOf o)) ↔
      ∃ kind, ∃ name ∈ (db.space s kind).values.map db.nameOf, P name := by
    intro db
    simp only [Holds, List.mem_map, exists_exists_and_eq_and]
    constructor
    · rintro ⟨o, ⟨kind, ho⟩, hP⟩
      exact ⟨kind, o, ho, hP⟩
    · rintro ⟨kind, o, ho, hP⟩
      exact ⟨o, ⟨kind, ho⟩, hP⟩
  rw [hnames, hnames]
  refine exists_congr fun kind => ?_
  rw [h.map_nameOf_eq (h.space hs kind).values]

private theorem reservations_dropped (hdropped : Dropped name s db after)
    (hdropped' : Dropped name s db' after') :
    (after'.schema s).reservations = (after.schema s).reservations := by
  have hfreed' := hdropped'.freed
  rw [(h.schema s hs).reservations_eq] at hfreed'
  exact hdropped.freed.eq (hfreed'.congr fun key =>
    (h.exists_holds_iff hs (key = (db.schema s).reservations.key ·)).symm)

private theorem dropped (hdropped : Dropped name s db after)
    (hdropped' : Dropped name s db' after') :
    Alike c M after after' := by
  have hsession : ∀ d, after.session d = db.session d := by
    intro d
    rw [hdropped.rest]
    rfl
  have hsession' : ∀ d, after'.session d = db'.session d := by
    intro d
    rw [hdropped'.rest]
    rfl
  exact {
    object := by
      intro o o' ho
      by_cases hin : db.Holds s o
      · rw [hdropped.invalidated o hin, hdropped'.invalidated o' ((h.holds_iff hs ho).mpr hin),
          h.object o o' ho]
      · rw [hdropped.otherObjects o hin, hdropped'.otherObjects o' fun hin' =>
          hin ((h.holds_iff hs ho).mp hin'), h.object o o' ho]
    slots := by
      rw [hdropped.objectCount, hdropped'.objectCount]
      exact h.slots
    injective := h.injective
    listed := by
      intro r hr
      rw [allSchemas, hdropped.schemas] at hr
      exact h.listed r (NameMap.mem_values_of_mem_erase hr)
    schema := by
      intro r hr
      by_cases heq : r = s
      · rw [heq]
        refine ⟨fun kind => ?_, ?_⟩
        · have hemptied := hdropped.emptied kind
          have hemptied' := hdropped'.emptied kind
          rw [(h.space hs kind).rule] at hemptied'
          rw [Database.space] at hemptied hemptied'
          rw [hemptied, hemptied']
          exact .empty _
        · rw [hdropped'.schema, h.reservations_dropped hs hdropped hdropped', hdropped.schema,
            (h.schema s hs).rest]
      · rw [hdropped.otherSchemas r heq, hdropped'.otherSchemas r heq]
        exact h.schema r hr
    tables := by
      rw [hsession, hsession']
      exact h.tables
    indexes := by
      rw [hsession, hsession']
      exact h.indexes
    user := by
      intro d
      rw [hsession, hsession', h.user]
    active := by
      intro d
      rw [hsession, hsession', h.active]
    schemaCount := by rw [hdropped.schemaCount, hdropped'.schemaCount, h.schemaCount]
    sessionCount := by
      rw [hdropped.rest, hdropped'.rest]
      exact h.sessionCount
    rest := by
      have hschemas : after'.schemas = after.schemas := by
        rw [hdropped.schemas, hdropped'.schemas, h.schemas_eq]
      rw [hdropped'.rest, hschemas, hdropped.rest, h.rest] }

omit hs in
theorem dropSchema_tied (hdb : db.WellFormed) (hdb' : db'.WellFormed)
    (session : Option SessionRef) (name : String) :
    Tied c M Equal (dropSchema session name db) (dropSchema session name db') := by
  cases hname : db.findSchema name with
  | none =>
    have hname' := (h.findSchema_eq name).trans hname
    rw [dropSchema, bind_of_error (lift_of_error (getSchema_of_none hname)),
      bind_of_error (lift_of_error (getSchema_of_none hname'))]
    exact .error _ M.le_refl h
  | some s =>
    have hs := h.schemas_of_find hname
    have hname' := (h.findSchema_eq name).trans hname
    have hmem := mem_allSchemas_of_find hname
    have hmem' := mem_allSchemas_of_find hname'
    have hsame := (h.schema s hs).system_eq
    cases hsystem : (db.schema s).system with
    | true =>
      rw [dropSchema, bind_of_ok (lift_of_ok (getSchema_eq hname)),
        bind_of_ok (lift_of_ok (getSchema_eq hname'))]
      refine .get_bind ?_
      rw [hsame, hsystem]
      exact .throw h
    | false =>
      -- both drops succeed, and what a drop leaves is determined by what was there
      obtain ⟨after, hrun, hdropped⟩ := (hdb.live hmem).dropSchema_of_droppable session hname
        hsystem hdb.permanent (hdb.droppable hmem)
      obtain ⟨after', hrun', hdropped'⟩ := (hdb'.live hmem').dropSchema_of_droppable session hname'
        (hsame.trans hsystem) hdb'.permanent (hdb'.droppable hmem')
      rw [hrun, hrun']
      exact .ok M.le_refl (h.dropped hs hdropped hdropped') rfl

end Alike

end SchemaCatalog
