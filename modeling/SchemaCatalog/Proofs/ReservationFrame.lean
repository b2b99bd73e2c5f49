import SchemaCatalog.Proofs.Effects
/-!
# Statements and reserved names

What a statement does to the names reserved in a schema, whoever holds them. A name that a statement
reserves for an index is given back in every case: by the index that takes it, or by the end of the
reservation. The others stay reserved, save those under which something is registered that was not,
or no longer is what was.
-/
namespace SchemaCatalog

open Database

namespace Database

/-- In one schema names are taken (`true`) or given up (`false`), never the other way round, and
a reserved name is struck off only when that happens to it. -/
structure Moves (taken : Bool) (s : SchemaRef) (db db' : Database) : Prop where
  rule : (db'.schema s).reservations.rule = (db.schema s).reservations.rule
  stays : ∀ kind name, (db.space s kind).contains name = taken →
    (db'.space s kind).contains name = taken
  kept : ∀ key token, (db'.schema s).reservations.names.get? key = some token →
    (db.schema s).reservations.names.get? key = some token
  lost : ∀ key token, (db.schema s).reservations.names.get? key = some token →
    (db'.schema s).reservations.names.get? key = none →
      ∃ kind name, key = (db.schema s).reservations.key name ∧
        (db.space s kind).contains name = !taken ∧ (db'.space s kind).contains name = taken

namespace Moves

variable {taken : Bool} {s r : SchemaRef} {db db' db'' : Database}

private theorem of_eq (h : db'.schema s = db.schema s) : Moves taken s db db' where
  rule := by rw [h]
  stays := by
    intro kind name hname
    rwa [space, h]
  kept := by
    intro key token hkey
    rwa [h] at hkey
  lost := by
    intro key token hkey hgone
    rw [h, hkey] at hgone
    cases hgone

private theorem trans (h : Moves taken s db db') (h' : Moves taken s db' db'') :
    Moves taken s db db'' where
  rule := h'.rule.trans h.rule
  stays := fun kind name hname => h'.stays kind name (h.stays kind name hname)
  kept := fun key token hkey => h.kept key token (h'.kept key token hkey)
  lost := by
    intro key token hkey hgone
    cases hmid : (db'.schema s).reservations.names.get? key with
    | none =>
      obtain ⟨kind, name, hname, hbefore, hafter⟩ := h.lost key token hkey hmid
      exact ⟨kind, name, hname, hbefore, h'.stays kind name hafter⟩
    | some token' =>
      obtain ⟨kind, name, hname, hbefore, hafter⟩ := h'.lost key token' hmid hgone
      refine ⟨kind, name, ?_, ?_, hafter⟩
      · rw [hname, ReservationSet.key, h.rule, ReservationSet.key]
      · -- a name that moves later cannot have moved before
        by_contra hmoved
        rw [Bool.not_eq_not] at hmoved
        rw [h.stays kind name hmoved] at hbefore
        exact Bool.eq_not_self taken |>.mp hbefore

instance : IsPreorder Database fun db db' => ∀ s, Moves taken s db db' where
  refl _ _ := .of_eq rfl
  trans _ _ _ h h' s := (h s).trans (h' s)

/-- One name moves, and it is no longer reserved. -/
private theorem of_free (kind : ObjectKind) {name : String}
    (hreservations : (db'.schema s).reservations = (db.schema s).reservations.free name)
    (hbefore : (db.space s kind).contains name = !taken)
    (hafter : (db'.space s kind).contains name = taken)
    (hstays : ∀ kind name, (db.space s kind).contains name = taken →
      (db'.space s kind).contains name = taken) : Moves taken s db db' where
  rule := by
    rw [hreservations]
    rfl
  stays := hstays
  kept := by
    intro key token hkey
    rw [hreservations] at hkey
    exact ((ReservationSet.frees_free _ name).of_get?_eq_some hkey).1
  lost := by
    intro key token hkey hgone
    by_cases heq : key = (db.schema s).reservations.key name
    · exact ⟨kind, name, heq, hbefore, hafter⟩
    · rw [hreservations, (ReservationSet.frees_free _ name).kept key heq, hkey] at hgone
      cases hgone

end Moves

/-- In every schema names are only taken, and only these are no longer reserved. -/
def Takes (db db' : Database) : Prop :=
  ∀ s, Moves true s db db'

/-- In every schema names are only given up, and only these are no longer reserved. -/
def GivesUp (db db' : Database) : Prop :=
  ∀ s, Moves false s db db'

instance : IsPreorder Database Takes :=
  inferInstanceAs (IsPreorder Database fun db db' => ∀ s, Moves true s db db')

instance : IsPreorder Database GivesUp :=
  inferInstanceAs (IsPreorder Database fun db db' => ∀ s, Moves false s db db')

section Steps

variable {db : Database} {s : SchemaRef} {o : ObjectRef}

private theorem contains_insert {ν : Type} (m : NameMap ν) (name other : String) (v : ν) :
    (m.insert name v).contains other = (decide (m.key other = m.key name) || m.contains other) := by
  rw [NameMap.contains, NameMap.get?_insert]
  split
  next h => simp [h]
  next h => simp [h, NameMap.contains]

private theorem contains_erase {ν : Type} (m : NameMap ν) (name other : String) :
    (m.erase name).contains other =
      (!decide (m.key name = m.key other) && m.contains other) := by
  rw [NameMap.contains, NameMap.get?_erase]
  split
  next h => simp [h]
  next h => simp [h, NameMap.contains]

private theorem takes_entered (hfree : (db.space s (db.object o).kind).get? (db.nameOf o) = none) :
    Takes db (entered s o db) := by
  intro r
  by_cases hr : r = s
  · subst hr
    have hreservations : ((entered r o db).schema r).reservations =
        (db.schema r).reservations.free (db.nameOf o) := by
      rw [entered, schema_modifySchema, if_pos rfl]
      rfl
    refine .of_free (db.object o).kind hreservations ?_ ?_ fun kind name hname => ?_
    · exact NameMap.contains_eq_false.mpr hfree
    · rw [space_entered, if_pos ⟨rfl, rfl⟩, contains_insert]
      simp
    · rw [space_entered]
      split
      next heq =>
        rw [heq.2] at hname
        rw [contains_insert, heq.2, hname, Bool.or_true]
      next => exact hname
  · apply Moves.of_eq
    rw [entered, schema_modifySchema, if_neg hr]

private theorem givesUp_struckOut
    (hlive : (db.space s (db.object o).kind).get? (db.nameOf o) = some o) :
    GivesUp db (struckOut s o db) := by
  intro r
  by_cases hr : r = s
  · subst hr
    have hreservations : ((struckOut r o db).schema r).reservations =
        (db.schema r).reservations.free (db.nameOf o) := by
      rw [struckOut, schema_modifySchema, if_pos rfl]
      rfl
    refine .of_free (db.object o).kind hreservations ?_ ?_ fun kind name hname => ?_
    · rw [NameMap.contains, hlive]
      rfl
    · rw [space_struckOut, if_pos ⟨rfl, rfl⟩, contains_erase]
      simp
    · rw [space_struckOut]
      split
      next heq =>
        rw [heq.2] at hname
        rw [contains_erase, heq.2, hname, Bool.and_false]
      next => exact hname
  · apply Moves.of_eq
    rw [struckOut, schema_modifySchema, if_neg hr]

private theorem givesUp_schemaInvalidated (s : SchemaRef) (db : Database) :
    GivesUp db (db.modifySchema s Schema.invalidate) := by
  intro r
  have hreservations : ((db.modifySchema s Schema.invalidate).schema r).reservations =
      (db.schema r).reservations := field_modifySchema Schema.reservations r rfl
  have hspace : ∀ kind, (db.modifySchema s Schema.invalidate).space r kind = db.space r kind :=
    fun kind => field_modifySchema (fun schema => schema.registry.space kind) r rfl
  refine ⟨by rw [hreservations], fun kind name hname => ?_, fun key token hkey => ?_,
    fun key token hkey hgone => ?_⟩
  · rwa [hspace]
  · rwa [hreservations] at hkey
  · rw [hreservations, hkey] at hgone
    cases hgone

private theorem allowsCreation_takes : AllowsCreation (fun _ => True) Takes where
  withObject _ _ _ _ _ _ := .of_eq rfl
  entered _ _ _ hfree := takes_entered hfree
  modifySession _ _ _ _ := .of_eq rfl

private theorem allowsRemoval_givesUp : AllowsRemoval GivesUp where
  struckOut _ _ _ hlive := givesUp_struckOut hlive
  invalidate _ _ _ := .of_eq rfl
  modifySession _ _ _ _ := .of_eq rfl
  schemaInvalidated := givesUp_schemaInvalidated
  schemaErased _ _ _ := .of_eq rfl

end Steps

/-- In a schema every name that is reserved was reserved before, under the same token, and a name
that is no longer reserved has been registered or struck out there. -/
structure LeaksNothing (s : SchemaRef) (db db' : Database) : Prop where
  kept : ∀ key token, (db'.schema s).reservations.names.get? key = some token →
    (db.schema s).reservations.names.get? key = some token
  lost : s.slot < db.schemaStore.next → ∀ key token,
    (db.schema s).reservations.names.get? key = some token →
      (db'.schema s).reservations.names.get? key = none →
        ∃ kind name, key = (db.schema s).reservations.key name ∧
          (db'.space s kind).contains name ≠ (db.space s kind).contains name

namespace LeaksNothing

variable {taken : Bool} {s r : SchemaRef} {db db' : Database} {o : ObjectRef}
  {name newName : String}

private theorem of_moves (h : Moves taken s db db') : LeaksNothing s db db' where
  kept := h.kept
  lost := by
    intro _ key token hkey hgone
    obtain ⟨kind, name, hname, hbefore, hafter⟩ := h.lost key token hkey hgone
    refine ⟨kind, name, hname, ?_⟩
    rw [hbefore, hafter]
    cases taken <;> simp

private theorem refl (s : SchemaRef) (db : Database) : LeaksNothing s db db :=
  .of_moves (Moves.of_eq rfl : Moves true s db db)

/-- A new schema has no reserved names. -/
private theorem withSchema (s : SchemaRef) (name : String) (owner : Option Principal)
    (system : Bool) (db : Database) : LeaksNothing s db (withSchema name owner system db) := by
  by_cases hs : s = db.nextSchema
  · subst hs
    refine ⟨fun key token hkey => ?_, fun hslot => absurd hslot (Nat.lt_irrefl _)⟩
    rw [schema_withSchema, if_pos rfl] at hkey
    cases hkey
  · have hmoves : Moves true s db (Database.withSchema name owner system db) := by
      apply Moves.of_eq
      rw [schema_withSchema, if_neg hs]
    exact .of_moves hmoves

/-- An object gives up its old name and takes the new one. -/
private theorem renamed (hlive : (db.space s (db.object o).kind).get? (db.nameOf o) = some o)
    (hfree : (db.space s (db.object o).kind).get? newName = none) (r : SchemaRef) :
    LeaksNothing r db (renamed s o newName db) := by
  by_cases hr : r = s
  · subst hr
    have hreservations : ((Database.renamed r o newName db).schema r).reservations =
        ((db.schema r).reservations.free (db.nameOf o)).free newName := by
      rw [Database.renamed, schema_modifySchema, if_pos rfl]
      rfl
    have hfrees := ((db.schema r).reservations.frees_free (db.nameOf o)).trans
      (ReservationSet.frees_free _ newName)
    have hkey : (db.space r (db.object o).kind).key (db.nameOf o) ≠
        (db.space r (db.object o).kind).key newName := by
      intro heq
      rw [NameMap.get?, heq] at hlive
      rw [NameMap.get?, hlive] at hfree
      cases hfree
    have hspace : (Database.renamed r o newName db).space r (db.object o).kind =
        ((db.space r (db.object o).kind).erase (db.nameOf o)).insert newName o := by
      rw [space_renamed, if_pos ⟨rfl, rfl⟩]
    refine ⟨fun key token hreserved => ?_, fun _ key token hreserved hgone => ?_⟩
    · rw [hreservations] at hreserved
      exact (hfrees.of_get?_eq_some hreserved).1
    · rw [hreservations] at hgone
      by_cases hold : key = (db.schema r).reservations.key (db.nameOf o)
      · refine ⟨(db.object o).kind, db.nameOf o, hold, ?_⟩
        rw [hspace, contains_insert, contains_erase, NameMap.contains, hlive]
        simp [hkey]
      by_cases hnew : key = (db.schema r).reservations.key newName
      · refine ⟨(db.object o).kind, newName, hnew, ?_⟩
        rw [hspace, contains_insert, NameMap.contains_eq_false.mpr hfree]
        simp
      · rw [hfrees.kept key (not_or.mpr ⟨hold, hnew⟩), hreserved] at hgone
        cases hgone
  · have hmoves : Moves true r db (Database.renamed s o newName db) := by
      apply Moves.of_eq
      rw [Database.renamed, schema_modifySchema, if_neg hr]
      rfl
    exact .of_moves hmoves

end LeaksNothing

variable {s r : SchemaRef} {live : NameMap ObjectRef} {reservation : Reservation}
  {db mid last : Database}

/-- Once a name that was handed out is given back, all that is left is what was taken meanwhile. -/
private theorem Takes.released (h : Takes mid last) (hgranted : Granted s live reservation db mid) :
    Takes db (s.release reservation last) := by
  intro r
  have hspace : ∀ kind, (s.release reservation last).space r kind = last.space r kind := by
    intro kind
    rw [release_eq, space_withReservations]
  have hmid : ∀ kind, mid.space r kind = db.space r kind := by
    intro kind
    rw [hgranted.result, space_withReservations]
  have hmoves := h r
  by_cases hr : r = s
  · subst hr
    have hentered := hgranted.reservations_eq
    have hrule : (last.schema r).reservations.rule = (db.schema r).reservations.rule := by
      rw [hmoves.rule, hentered]
      rfl
    have hkey : (last.schema r).reservations.key reservation.name =
        (db.schema r).reservations.key reservation.name := by
      rw [ReservationSet.key, hrule, ReservationSet.key]
    have hreleased : ((r.release reservation last).schema r).reservations =
        (last.schema r).reservations.release reservation := by
      rw [release_eq, reservations_withReservations]
    have hfrees := (last.schema r).reservations.frees_release reservation
    -- the name itself is reserved neither before nor after
    have hbefore : (db.schema r).reservations.names.get?
        ((db.schema r).reservations.key reservation.name) = none := by
      have hunreserved := hgranted.unreserved
      rwa [ReservationSet.isReserved, SortedMap.contains, Option.isSome_eq_false_iff,
        Option.isNone_iff_eq_none] at hunreserved
    have hother : ∀ key, key ≠ (db.schema r).reservations.key reservation.name →
        (mid.schema r).reservations.names.get? key = (db.schema r).reservations.names.get? key := by
      intro key hne
      rw [hentered, ReservationSet.get?_enter, if_neg hne]
    refine ⟨?_, fun kind name hname => ?_, fun key token hreserved => ?_,
      fun key token hreserved hgone => ?_⟩
    · rw [hreleased, hfrees.rule, hrule]
    · rw [hspace]
      exact hmoves.stays kind name (by rwa [hmid])
    · rw [hreleased] at hreserved
      obtain ⟨hreserved, hkept⟩ := hfrees.of_get?_eq_some hreserved
      have hentry := hmoves.kept key token hreserved
      by_cases hname : key = (db.schema r).reservations.key reservation.name
      · rw [hentered, ReservationSet.get?_enter, if_pos hname] at hentry
        rw [← hentry] at hreserved
        exact absurd ⟨hname.trans hkey.symm, hreserved⟩ hkept
      · rwa [← hother key hname]
    · have hname : key ≠ (db.schema r).reservations.key reservation.name := by
        rintro rfl
        rw [hbefore] at hreserved
        cases hreserved
      rw [hreleased, hfrees.kept key fun hkept => hname (hkept.1.trans hkey)] at hgone
      rw [← hother key hname] at hreserved
      obtain ⟨kind, name, heq, hfree, htaken⟩ := hmoves.lost key token hreserved hgone
      refine ⟨kind, name, ?_, ?_, ?_⟩
      · rw [heq, hentered]
        rfl
      · rwa [← hmid]
      · rwa [hspace]
  · have hlast : Moves true r last (s.release reservation last) := by
      apply Moves.of_eq
      rw [SchemaRef.release, schema_modifySchema, if_neg hr]
    have hfirst : Moves true r db mid := by
      apply Moves.of_eq
      rw [hgranted.result, withReservations, schema_modifySchema, if_neg hr]
    exact (hfirst.trans hmoves).trans hlast

end Database

section Statements

open Execution

/-- A name that is handed out for an index is given back in every case. -/
private theorem withIndexName_takes {α : Type} {c : SessionRef} {s : SchemaRef} {t : ObjectRef}
    {stem : String} {act : String → ExecM α} (hact : ∀ name, Leaves Takes (act name)) :
    Leaves Takes (withIndexName c s t stem act) := by
  intro db
  rcases stateAfter_withIndexName act db with hsame | ⟨live, r, mid, hgranted, hafter⟩
  · rw [hsame]
    exact refl_of Takes db
  · rw [hafter]
    exact (hact r.name mid).released hgranted

private theorem setTable_takes (t : ObjectRef) (table : Table) (db : Database) :
    Takes db (t.setTable table db) :=
  fun _ => .of_eq rfl

private theorem addKeyIndex_takes (c : SessionRef) (s : SchemaRef) (t : ObjectRef)
    (definition : ConstraintDefinition) (kind : IndexKind) :
    Leaves Takes (addKeyIndex c s t definition kind) := by
  refine withIndexName_takes fun name => ?_
  refine (allowsCreation_takes.addTableIndex c s t name fun _ _ => trivial).bind fun _ => ?_
  split
  · exact (Leaves.forbidNull setTable_takes t _).bind fun _ => .get_bind (refl_of Takes)
  · exact .get_bind (refl_of Takes)

private theorem createIndex_takes (c : SessionRef) (definition : IndexDefinition) :
    Leaves Takes (createIndex c definition) :=
  allowsCreation_takes.createIndex c definition (fun _ _ => trivial) fun s t =>
    withIndexName_takes (allowsCreation_takes.createNamedIndex c s t definition fun _ _ => trivial)

/-- Whether a statement fails or not, it leaves no name reserved that was not reserved before, and
strikes off only names that it takes or gives up. -/
theorem Statement.leaksNothing (c : SessionRef) (statement : Statement) (db : Database)
    (s : SchemaRef) : db.LeaksNothing s (stateAfter (statement.execute c) db) := by
  have htakes : ∀ {act : ExecM Outcome}, Leaves Takes act → db.LeaksNothing s (stateAfter act db) :=
    fun h => .of_moves (h db s)
  have hgivesUp : ∀ {act : ExecM Outcome}, Leaves GivesUp act →
      db.LeaksNothing s (stateAfter act db) := fun h => .of_moves (h db s)
  have hcreates := allowsCreation_takes
  have hremoves := allowsRemoval_givesUp
  cases statement with
  | createSchema name ifNotExists =>
    rw [Statement.execute]
    rcases stateAfter_createSchemaStatement c name ifNotExists db with hafter | hafter
    · rw [hafter]
      exact .refl s db
    · rw [hafter]
      exact .withSchema s name _ false db
  | dropSchema name ifExists => exact hgivesUp (hremoves.dropSchemaStatement c name ifExists)
  | createTable definition => exact htakes (hcreates.createTable c definition fun _ => trivial)
  | dropTable schema name ifExists => exact hgivesUp (hremoves.dropTable c schema name ifExists)
  | createIndex definition => exact htakes (createIndex_takes c definition)
  | dropIndex schema name ifExists => exact hgivesUp (hremoves.dropIndex c schema name ifExists)
  | createSequence schema name start increment =>
    exact htakes (hcreates.createSequence schema name start increment trivial)
  | createConstant schema name value =>
    exact htakes (hcreates.createObject schema .constant name trivial _)
  | createFunctionAlias schema name target deterministic =>
    exact htakes (hcreates.createFunctionAlias schema name target deterministic trivial)
  | rename schema kind oldName newName =>
    rw [Statement.execute]
    rcases stateAfter_rename schema kind oldName newName db with
      hafter | ⟨r, o, hlive, hfree, hafter⟩
    · rw [hafter]
      exact .refl s db
    · rw [hafter]
      exact .renamed hlive hfree s
  | alterColumn change => exact htakes (Leaves.alterColumn setTable_takes c change)
  | addConstraint definition =>
    exact htakes (Leaves.addConstraint c definition
      (fun t expression _ => Leaves.addCheck setTable_takes t expression)
      fun s t kind _ => addKeyIndex_takes c s t definition kind)
  | truncateTable schema name => exact .refl s db
  | dml kind => exact .refl s db
  | transaction kind => exact .refl s db

end Statements

end SchemaCatalog
