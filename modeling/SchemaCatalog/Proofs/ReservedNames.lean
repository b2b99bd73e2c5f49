import SchemaCatalog.Proofs.SchemaRuns
/-!
# Reserved names

A name that is reserved for an object of some kind is not the name of a registered object of this
kind, whatever calls were made on the schema. A name stays reserved for the one it was handed out to,
and is handed out to nobody else, until a call takes it, gives it up or strikes it off. There is one
set of reserved names for all kinds, so this can be a call on an object of another kind.
-/
namespace SchemaCatalog

open Database Relation

/-- The rest of the database may change in any way. -/
def Anything (_ _ : Database) : Prop := True

section Exclusive

variable {s : SchemaRef} {rule : CaseRule} {h h' : History}
  {may : Database → SchemaCall → Prop} {world : Database → Database → Prop}

/-- The last hand-out of a name with this key. -/
def latest (rule : CaseRule) (handouts : List Handout) (key : String) : Option Handout :=
  handouts.find? fun handout => rule.fold handout.reservation.name = key

private theorem latest_cons (handout : Handout) (handouts : List Handout) (key : String) :
    latest rule (handout :: handouts) key =
      if rule.fold handout.reservation.name = key then some handout
      else latest rule handouts key := by
  rw [latest, List.find?_cons]
  by_cases hkey : rule.fold handout.reservation.name = key <;> simp [hkey, latest]

/-- A reserved key was handed out last under its token, and is free in the name space that it was
handed out for. -/
def Exclusive (s : SchemaRef) (rule : CaseRule) (h : History) : Prop :=
  ∀ key token, (h.db.schema s).reservations.names.get? key = some token →
    ∃ handout, latest rule h.handouts key = some handout ∧ handout.reservation.token = token ∧
      ∀ kind, handout.kind = some kind → (h.db.space s kind).entries.get? key = none

namespace Exclusive

private theorem of_create {start : Database} {id : UInt32} {name : String}
    {owner : Option Principal} {system : Bool}
    (hstart : start.schema s = .create id name owner system rule) :
    Exclusive s rule ⟨start, []⟩ := by
  intro key token hkey
  rw [hstart] at hkey
  cases hkey

private theorem struck {call : SchemaCall} (hexclusive : Exclusive s rule h)
    (huniform : Uniform h.db s rule) (heffect : call.Effect s h.db none h'.db)
    (hhandouts : h'.handouts = h.handouts) : Exclusive s rule h' := by
  intro key token hkey
  obtain ⟨hkey, hstays⟩ := heffect.frees.of_get?_eq_some hkey
  obtain ⟨handout, hlatest, htoken, hfree⟩ := hexclusive key token hkey
  refine ⟨handout, by rwa [hhandouts], htoken, fun kind hkind => ?_⟩
  -- an object that is new under the key has one of the names that the call strikes off
  refine Option.eq_none_iff_forall_ne_some.mpr fun o ho => ?_
  rcases heffect.get?_space ho with ho | ⟨name, hname, hkey⟩
  · rw [hfree kind hkind] at ho
    cases ho
  · refine hstays (.inl ⟨name, hname, ?_⟩)
    rw [hkey, NameMap.key, ReservationSet.key, huniform.spaces, huniform.reservations]

private theorem granted {call : SchemaCall} {r : Reservation} (hexclusive : Exclusive s rule h)
    (huniform : Uniform h.db s rule) (heffect : call.Effect s h.db (some r) h'.db)
    (hhandouts : h'.handouts = ⟨r, call.kind? h.db⟩ :: h.handouts) : Exclusive s rule h' := by
  obtain ⟨live, hgranted, hlive⟩ := heffect.granted
  intro key token hkey
  rw [hgranted.reservations_eq, ReservationSet.get?_enter, ReservationSet.key,
    huniform.reservations] at hkey
  rw [hhandouts, latest_cons]
  split at hkey
  next hnew =>
    refine ⟨_, if_pos hnew.symm, Option.some.inj hkey, fun kind hkind => ?_⟩
    have hfree := hgranted.free
    rw [hlive kind hkind, NameMap.get?, NameMap.key, huniform.spaces, ← hnew] at hfree
    rwa [hgranted.space_eq]
  next hold =>
    obtain ⟨handout, hlatest, htoken, hfree⟩ := hexclusive key token hkey
    refine ⟨handout, (if_neg (Ne.symm hold)).trans hlatest, htoken, fun kind hkind => ?_⟩
    rw [hgranted.space_eq]
    exact hfree kind hkind

theorem step (hexclusive : Exclusive s rule h) (huniform : Uniform h.db s rule)
    (hstep : Step s may world h h') : Exclusive s rule h' := by
  rcases hstep.cases_effect with ⟨hhandouts, hschema, -⟩ | ⟨call, r?, -, -, hrun, hhandouts⟩
  · intro key token hkey
    rw [hschema] at hkey
    obtain ⟨handout, hlatest, htoken, hfree⟩ := hexclusive key token hkey
    refine ⟨handout, by rwa [hhandouts], htoken, fun kind hkind => ?_⟩
    rw [space, hschema]
    exact hfree kind hkind
  · cases r? with
    | none => exact hexclusive.struck huniform (call.effect_of_ok hrun) hhandouts
    | some r => exact hexclusive.granted huniform (call.effect_of_ok hrun) hhandouts

theorem run (hexclusive : Exclusive s rule h) (huniform : Uniform h.db s rule)
    (hrun : Run s may world h h') : Exclusive s rule h' := by
  induction hrun with
  | refl => exact hexclusive
  | tail hbefore hstep ih => exact ih.step (huniform.run hbefore) hstep

end Exclusive

/-- In every state that a new schema gets to, a reserved key is free in the name space of the kind
that it was handed out for. -/
theorem Run.exclusive {start : Database} {id : UInt32} {name : String} {owner : Option Principal}
    {system : Bool} (hstart : start.schema s = .create id name owner system rule)
    (hrun : Run s AnyCall Anything ⟨start, []⟩ h) : Exclusive s rule h :=
  (Exclusive.of_create hstart).run (.of_create hstart) hrun

end Exclusive

section Example

/-- A new schema with a sequence and an index that are not registered yet. -/
def withLooseObjects : Database :=
  let db := withSchema "APP" (some ⟨1, "SA"⟩) false (bootstrap .standard)
  (db.withObject ⟨2⟩ "IDX_B" (.sequence .counting)).withObject ⟨2⟩ "IDX_B"
    (.index { tableId := 0, tableName := "T", columns := [], kind := .nonUnique })

private theorem schema_withLooseObjects :
    withLooseObjects.schema ⟨2⟩ = .create 4 "APP" (some ⟨1, "SA"⟩) false .exact := by
  decide +kernel

/-- Reserve a name for an index, register the index under it, give the reservation back late, and
reserve another name. -/
def commitCalls : List SchemaCall :=
  [.uniqueName "T" .index "IDX_", .add ⟨1⟩, .uniqueName "T" .index "IDX_", .release ⟨"IDX_B", 1⟩]

def afterCommit : History :=
  History.afterAll ⟨2⟩ ⟨withLooseObjects, []⟩ commitCalls

theorem exclusive_afterCommit :
    withLooseObjects.schema ⟨2⟩ = .create 4 "APP" (some ⟨1, "SA"⟩) false .exact ∧
    Run ⟨2⟩ AnyCall Anything ⟨withLooseObjects, []⟩ afterCommit ∧
    Exclusive ⟨2⟩ .exact afterCommit ∧
    (afterCommit.db.schema ⟨2⟩).reservations.names.entries = [("IDX_BE", 2)] ∧
    (afterCommit.db.space ⟨2⟩ .index).values = [⟨1⟩] := by
  have hrun : Run ⟨2⟩ AnyCall Anything ⟨withLooseObjects, []⟩ afterCommit :=
    run_afterAll (by decide +kernel)
  exact ⟨schema_withLooseObjects, hrun, hrun.exclusive schema_withLooseObjects, by decide +kernel,
    by decide +kernel⟩

end Example

section Held

variable {s : SchemaRef} {rule : CaseRule} {h h' : History} {g : Handout} {n : Nat}
  {may : Database → SchemaCall → Prop} {world : Database → Database → Prop}

/-- The number of the next token of a schema. -/
def nextToken (s : SchemaRef) (h : History) : Nat :=
  (h.db.schema s).reservations.nextToken

private theorem token_granted {call : SchemaCall} {r : Reservation}
    (heffect : call.Effect s h.db (some r) h'.db) :
    r.token = UInt64.ofNat (nextToken s h) ∧ nextToken s h' = nextToken s h + 1 := by
  obtain ⟨live, hgranted, -⟩ := heffect.granted
  refine ⟨hgranted.token, ?_⟩
  rw [nextToken, hgranted.reservations_eq]
  rfl

/-- A step hands out one name or none. -/
private theorem Step.handouts_eq (hstep : Step s may world h h') :
    nextToken s h' = nextToken s h ∧ h'.handouts = h.handouts ∨
      ∃ (call : SchemaCall) (r : Reservation), call.Effect s h.db (some r) h'.db ∧
        h'.handouts = ⟨r, call.kind? h.db⟩ :: h.handouts := by
  rcases hstep.cases_effect with ⟨hhandouts, hschema, -⟩ | ⟨call, r?, -, -, hrun, hhandouts⟩
  · rw [nextToken, hschema]
    exact .inl ⟨rfl, hhandouts⟩
  · have heffect := call.effect_of_ok hrun
    cases r? with
    | none => exact .inl ⟨heffect.frees.nextToken, hhandouts⟩
    | some r => exact .inr ⟨call, r, heffect, hhandouts⟩

private theorem Step.nextToken_le (hstep : Step s may world h h') :
    nextToken s h ≤ nextToken s h' := by
  rcases hstep.handouts_eq with ⟨heq, -⟩ | ⟨call, r, heffect, -⟩
  · exact Nat.le_of_eq heq.symm
  · rw [(token_granted heffect).2]
    exact Nat.le_succ _

private theorem Run.nextToken_le (hrun : Run s may world h h') :
    nextToken s h ≤ nextToken s h' := by
  induction hrun with
  | refl => exact Nat.le_refl _
  | tail _ hstep ih => exact Nat.le_trans ih hstep.nextToken_le

/-- Every hand-out had a token of a number that is used up. -/
def Numbered (s : SchemaRef) (h : History) : Prop :=
  ∀ handout ∈ h.handouts, ∃ n < nextToken s h, handout.reservation.token = UInt64.ofNat n

private theorem Numbered.step (hnumbered : Numbered s h) (hstep : Step s may world h h') :
    Numbered s h' := by
  have hle := hstep.nextToken_le
  have hold : ∀ handout ∈ h.handouts,
      ∃ n < nextToken s h', handout.reservation.token = UInt64.ofNat n := by
    intro handout hhandout
    obtain ⟨n, hn, htoken⟩ := hnumbered handout hhandout
    exact ⟨n, Nat.lt_of_lt_of_le hn hle, htoken⟩
  rcases hstep.handouts_eq with ⟨-, hhandouts⟩ | ⟨call, r, heffect, hhandouts⟩
  · rwa [Numbered, hhandouts]
  · obtain ⟨htoken, hnext⟩ := token_granted heffect
    rw [Numbered, hhandouts]
    exact List.forall_mem_cons.mpr ⟨⟨nextToken s h, by omega, htoken⟩, hold⟩

theorem Numbered.run (hnumbered : Numbered s h) (hrun : Run s may world h h') :
    Numbered s h' := by
  induction hrun with
  | refl => exact hnumbered
  | tail _ hstep ih => exact ih.step hstep

/-- A call adds or moves an object to a key, strikes the key off, or takes it from an object of
another kind. -/
def SchemaCall.Uses (rule : CaseRule) (key : String) (kind : Option ObjectKind) (db : Database) :
    SchemaCall → Prop
  | add o => rule.fold (db.nameOf o) = key
  | rename o newName =>
    rule.fold newName = key ∨ rule.fold (db.nameOf o) = key ∧ some (db.object o).kind ≠ kind
  | remove o => rule.fold (db.nameOf o) = key ∧ some (db.object o).kind ≠ kind
  | freeName name => rule.fold name = key
  | _ => False

/-- The call does not give the name back, and if it uses the name, then it fails. -/
def Spares (s : SchemaRef) (rule : CaseRule) (g : Handout) (db : Database) (call : SchemaCall) :
    Prop :=
  call ≠ .release g.reservation ∧
    (call.Uses rule (rule.fold g.reservation.name) g.kind db → ∃ e, call.run s db = .error e db)

/-- The name is reserved under its own token, which no other hand-out has. -/
structure Held (s : SchemaRef) (rule : CaseRule) (g : Handout) (n : Nat) (h : History) :
    Prop where
  reserved : (h.db.schema s).reservations.names.get? (rule.fold g.reservation.name) =
    some g.reservation.token
  token : g.reservation.token = UInt64.ofNat n
  used : n < nextToken s h
  own : ∀ handout ∈ h.handouts, handout.reservation.token = g.reservation.token → handout = g

namespace Held

/-- A name that is handed out is held, as long as tokens do not repeat. -/
private theorem of_granted {call : SchemaCall} {r : Reservation} (hnumbered : Numbered s h)
    (huniform : Uniform h.db s rule) (heffect : call.Effect s h.db (some r) h'.db)
    (hhandouts : h'.handouts = ⟨r, call.kind? h.db⟩ :: h.handouts)
    (hsize : nextToken s h' ≤ UInt64.size) :
    Held s rule ⟨r, call.kind? h.db⟩ (nextToken s h) h' := by
  obtain ⟨htoken, hnext⟩ := token_granted heffect
  obtain ⟨live, hgranted, -⟩ := heffect.granted
  refine ⟨?_, htoken, by omega, ?_⟩
  · rw [hgranted.reservations_eq, ReservationSet.get?_enter, ReservationSet.key,
      huniform.reservations, if_pos rfl]
  · rw [hhandouts]
    refine List.forall_mem_cons.mpr ⟨fun _ => rfl, fun handout hhandout hsame => ?_⟩
    obtain ⟨n, hn, hn'⟩ := hnumbered handout hhandout
    rw [htoken, hn'] at hsame
    have heq := ofNat_injective (by omega) (by omega) hsame
    omega

private theorem ne_of_granted {call : SchemaCall} {r : Reservation} {db' : Database}
    (hheld : Held s rule g n h) (huniform : Uniform h.db s rule)
    (heffect : call.Effect s h.db (some r) db') :
    rule.fold r.name ≠ rule.fold g.reservation.name := by
  obtain ⟨live, hgranted, -⟩ := heffect.granted
  have hunreserved := hgranted.unreserved
  rw [ReservationSet.isReserved, ReservationSet.key, huniform.reservations,
    SortedMap.contains] at hunreserved
  intro heq
  rw [heq, hheld.reserved] at hunreserved
  cases hunreserved

/-- No object of the kind that the name is held for has the name. -/
private theorem kind_ne (hheld : Held s rule g n h) (hexclusive : Exclusive s rule h)
    (huniform : Uniform h.db s rule) {o : ObjectRef}
    (hlive : (h.db.space s (h.db.object o).kind).get? (h.db.nameOf o) = some o)
    (hkey : rule.fold (h.db.nameOf o) = rule.fold g.reservation.name) :
    some (h.db.object o).kind ≠ g.kind := by
  obtain ⟨handout, hlatest, htoken, hfree⟩ := hexclusive _ _ hheld.reserved
  obtain rfl := hheld.own handout (List.mem_of_find?_eq_some hlatest) htoken
  intro hkind
  rw [NameMap.get?, NameMap.key, huniform.spaces, hkey, hfree _ hkind.symm] at hlive
  cases hlive

/-- A call that strikes the key off uses it. -/
private theorem uses_of_effect {call : SchemaCall} {db' : Database} (hheld : Held s rule g n h)
    (hexclusive : Exclusive s rule h) (huniform : Uniform h.db s rule)
    (heffect : call.Effect s h.db none db') {name : String} (hname : name ∈ call.names h.db)
    (hkey : rule.fold name = rule.fold g.reservation.name) :
    call.Uses rule (rule.fold g.reservation.name) g.kind h.db := by
  cases heffect with
  | added =>
    obtain rfl := List.mem_singleton.mp hname
    exact hkey
  | renamed _ hlive =>
    rcases List.mem_cons.mp hname with rfl | hname
    · exact .inr ⟨hkey, hheld.kind_ne hexclusive huniform hlive hkey⟩
    · obtain rfl := List.mem_singleton.mp hname
      exact .inl hkey
  | removed _ hlive =>
    obtain rfl := List.mem_singleton.mp hname
    exact ⟨hkey, hheld.kind_ne hexclusive huniform hlive hkey⟩
  | freed name' =>
    obtain rfl := List.mem_singleton.mp hname
    exact hkey
  | released r => cases hname

private theorem struck {call : SchemaCall} (hheld : Held s rule g n h)
    (hexclusive : Exclusive s rule h) (huniform : Uniform h.db s rule)
    (hlegal : call.Legal h.handouts) (hspares : Spares s rule g h.db call)
    (hrun : call.run s h.db = .ok none h'.db) (hhandouts : h'.handouts = h.handouts) :
    Held s rule g n h' := by
  have heffect := call.effect_of_ok hrun
  have hstays : ¬ call.Strikes s h.db (rule.fold g.reservation.name) := by
    rintro (⟨name, hname, hkey⟩ | ⟨r, rfl, hkey, htoken⟩)
    · rw [ReservationSet.key, huniform.reservations] at hkey
      obtain ⟨e, herror⟩ :=
        hspares.2 (hheld.uses_of_effect hexclusive huniform heffect hname hkey.symm)
      rw [hrun] at herror
      cases herror
    · -- by its token the reservation is not an older one of the same name
      rw [hheld.reserved] at htoken
      obtain ⟨handout, hhandout, rfl⟩ := List.mem_map.mp hlegal
      exact hspares.1 (by rw [hheld.own handout hhandout (Option.some.inj htoken).symm])
  refine ⟨?_, hheld.token, ?_, by rw [hhandouts]; exact hheld.own⟩
  · rw [heffect.frees.kept _ hstays]
    exact hheld.reserved
  · rw [nextToken, heffect.frees.nextToken]
    exact hheld.used

private theorem granted {call : SchemaCall} {r : Reservation} (hheld : Held s rule g n h)
    (huniform : Uniform h.db s rule) (heffect : call.Effect s h.db (some r) h'.db)
    (hhandouts : h'.handouts = ⟨r, call.kind? h.db⟩ :: h.handouts)
    (hsize : nextToken s h' ≤ UInt64.size) : Held s rule g n h' := by
  have hne := hheld.ne_of_granted huniform heffect
  have hused := hheld.used
  obtain ⟨htoken, hnext⟩ := token_granted heffect
  obtain ⟨live, hgranted, -⟩ := heffect.granted
  refine ⟨?_, hheld.token, by omega, ?_⟩
  · rw [hgranted.reservations_eq, ReservationSet.get?_enter, ReservationSet.key,
      huniform.reservations, if_neg (Ne.symm hne)]
    exact hheld.reserved
  · rw [hhandouts]
    refine List.forall_mem_cons.mpr ⟨fun hsame => ?_, hheld.own⟩
    rw [htoken, hheld.token] at hsame
    have heq := ofNat_injective (by omega) (by omega) hsame
    omega

theorem step (hheld : Held s rule g n h) (hexclusive : Exclusive s rule h)
    (huniform : Uniform h.db s rule) (hstep : Step s (Spares s rule g) world h h')
    (hsize : nextToken s h' ≤ UInt64.size) : Held s rule g n h' := by
  rcases hstep.cases_effect with
    ⟨hhandouts, hschema, -⟩ | ⟨call, r?, hlegal, hspares, hrun, hhandouts⟩
  · refine ⟨?_, hheld.token, ?_, by rw [hhandouts]; exact hheld.own⟩
    · rw [hschema]
      exact hheld.reserved
    · rw [nextToken, hschema]
      exact hheld.used
  · cases r? with
    | none => exact hheld.struck hexclusive huniform hlegal hspares hrun hhandouts
    | some r => exact hheld.granted huniform (call.effect_of_ok hrun) hhandouts hsize

theorem run (hheld : Held s rule g n h) (hexclusive : Exclusive s rule h)
    (huniform : Uniform h.db s rule) (hrun : Run s (Spares s rule g) world h h')
    (hsize : nextToken s h' ≤ UInt64.size) : Held s rule g n h' := by
  induction hrun with
  | refl => exact hheld
  | tail hbefore hstep ih =>
    have hle := hstep.nextToken_le
    exact (ih (by omega)).step (hexclusive.run huniform hbefore) (huniform.run hbefore) hstep hsize

end Held

/-- A name that was handed out stays reserved, and no other hand-out gives a name that folds like it,
while the reservation is not given back, no object gets the name, nobody strikes it off, and no
object of another kind gives it up. -/
theorem Run.reserved_until_used {start : Database} {id : UInt32} {name : String}
    {owner : Option Principal} {system : Bool} {call : SchemaCall} {r : Reservation}
    {db : Database} (hstart : start.schema s = .create id name owner system rule)
    (hbefore : Run s AnyCall Anything ⟨start, []⟩ h) (hcall : call.run s h.db = .ok (some r) db)
    (hafter : Run s (Spares s rule ⟨r, call.kind? h.db⟩) Anything (h.after s call) h')
    (hsize : nextToken s h' ≤ UInt64.size) :
    s.isReserved r.name h'.db = true ∧
      ∀ (later : SchemaCall) r' db', later.run s h'.db = .ok (some r') db' →
        rule.fold r'.name ≠ rule.fold r.name := by
  have huniform := (Uniform.of_create hstart).run hbefore
  have hexclusive := (Exclusive.of_create hstart).run (.of_create hstart) hbefore
  have hnumbered : Numbered s ⟨start, []⟩ := by simp [Numbered]
  have heffect := call.effect_of_ok hcall
  have hgranted : h.after s call = ⟨db, ⟨r, call.kind? h.db⟩ :: h.handouts⟩ := by
    rw [History.after, hcall]
    rfl
  rw [hgranted] at hafter
  have hheld : Held s rule ⟨r, call.kind? h.db⟩ (nextToken s h)
      ⟨db, ⟨r, call.kind? h.db⟩ :: h.handouts⟩ :=
    .of_granted (hnumbered.run hbefore) huniform heffect rfl
      (Nat.le_trans hafter.nextToken_le hsize)
  have hlast := hheld.run (hexclusive.granted huniform heffect rfl) (huniform.effect heffect) hafter
    hsize
  have huniform := (huniform.effect heffect).run hafter
  refine ⟨?_, fun later r' db' hlater => hlast.ne_of_granted huniform (later.effect_of_ok hlater)⟩
  rw [SchemaRef.isReserved, ReservationSet.isReserved, ReservationSet.key, huniform.reservations,
    SortedMap.contains, hlast.reserved]
  rfl

/-- Reserve a name and strike it off, so that it can be reserved again. -/
def afterFreed : History :=
  History.afterAll ⟨2⟩ ⟨withLooseObjects, []⟩ [.uniqueName "T" .index "IDX_", .freeName "IDX_B"]

theorem reserved_until_used_afterFreed :
    withLooseObjects.schema ⟨2⟩ = .create 4 "APP" (some ⟨1, "SA"⟩) false .exact ∧
    Run ⟨2⟩ AnyCall Anything ⟨withLooseObjects, []⟩ afterFreed ∧
    ∃ db, (SchemaCall.uniqueName "T" .index "IDX_").run ⟨2⟩ afterFreed.db =
        .ok (some ⟨"IDX_B", 2⟩) db ∧
      ∃ h', Run ⟨2⟩ (Spares ⟨2⟩ .exact ⟨⟨"IDX_B", 2⟩, some .index⟩) Anything
          (afterFreed.after ⟨2⟩ (.uniqueName "T" .index "IDX_")) h' ∧
        nextToken ⟨2⟩ h' = 3 ∧ SchemaRef.isReserved ⟨2⟩ "IDX_B" h'.db = true := by
  have hbefore : Run ⟨2⟩ AnyCall Anything ⟨withLooseObjects, []⟩ afterFreed :=
    run_afterAll (by decide +kernel)
  have hsucceeds : Succeeds ((SchemaCall.uniqueName "T" .index "IDX_").run ⟨2⟩) afterFreed.db
      fun r? _ => r? = some ⟨"IDX_B", 2⟩ := by
    decide +kernel
  obtain ⟨_, db, hcall, rfl⟩ := hsucceeds
  -- the guard of the first hand-out is dropped while the second one is held
  have hafter : Run ⟨2⟩ (Spares ⟨2⟩ .exact ⟨⟨"IDX_B", 2⟩, some .index⟩) Anything
      (afterFreed.after ⟨2⟩ (.uniqueName "T" .index "IDX_"))
      ((afterFreed.after ⟨2⟩ (.uniqueName "T" .index "IDX_")).after ⟨2⟩ (.release ⟨"IDX_B", 1⟩)) :=
    .single (.call (by decide +kernel) ⟨by decide, False.elim⟩)
  have hnext : nextToken ⟨2⟩ ((afterFreed.after ⟨2⟩ (.uniqueName "T" .index "IDX_")).after ⟨2⟩
      (.release ⟨"IDX_B", 1⟩)) = 3 := by
    decide +kernel
  have hreserved := hbefore.reserved_until_used schema_withLooseObjects hcall hafter
    (by rw [hnext]; decide)
  exact ⟨schema_withLooseObjects, hbefore, db, hcall, _, hafter, hnext, hreserved.1⟩

/-- Reserve a name for an index and register a sequence under it. -/
def afterSequence : History :=
  History.afterAll ⟨2⟩ ⟨withLooseObjects, []⟩ [.uniqueName "T" .index "IDX_", .add ⟨0⟩]

/-- A sequence that takes a name reserved for an index strikes it off, and the name is handed out for
another index while the first reservation is still held. -/
theorem uniqueName_twice :
    Run ⟨2⟩ AnyCall Anything ⟨withLooseObjects, []⟩ afterSequence ∧
    afterSequence.handouts = [⟨⟨"IDX_B", 1⟩, some .index⟩] ∧
    (afterSequence.db.space ⟨2⟩ .index).values = [] ∧
    SchemaRef.isReserved ⟨2⟩ "IDX_B" afterSequence.db = false ∧
    Succeeds ((SchemaCall.uniqueName "T" .index "IDX_").run ⟨2⟩) afterSequence.db
      fun r? _ => r? = some ⟨"IDX_B", 2⟩ :=
  ⟨run_afterAll (by decide +kernel), by decide +kernel, by decide +kernel, by decide +kernel,
    by decide +kernel⟩

end Held

end SchemaCatalog
