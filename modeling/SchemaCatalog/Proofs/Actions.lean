import SchemaCatalog.Execution.Basic
/-!
# Running actions

What an action does from a given state, put together from what its parts do. An action settles when
it either ends as promised or fails through a fault of the user with nothing changed: parts that only
look may fail at any time, and once something has changed no later part may fail.
-/
namespace SchemaCatalog

/-- The error lies in what the user asks for, and not in the catalog or its callers. -/
def CatalogError.OfUser : CatalogError → Prop
  | internalInvariant _ => False
  | schemaInvalid _ => False
  | dependencyCycle _ => False
  | _ => True

def ExecutionError.OfUser : ExecutionError → Prop
  | catalog error => error.OfUser
  | _ => True

/-- Errors that can be told apart by who is at fault. -/
class Fault (ε : Type) where
  ofUser : ε → Prop

instance : Fault CatalogError := ⟨CatalogError.OfUser⟩

instance : Fault ExecutionError := ⟨ExecutionError.OfUser⟩

section Run

variable {ε σ α β : Type}

instance decidableEqError [DecidableEq ε] [DecidableEq σ] (result : EStateM.Result ε σ α) (e : ε)
    (s : σ) : Decidable (result = .error e s) :=
  match result with
  | .ok _ _ => isFalse fun h => by cases h
  | .error e' s' => decidable_of_iff (e' = e ∧ s' = s) (by simp)

theorem bind_run (act : EStateM ε σ α) (next : α → EStateM ε σ β) (s : σ) :
    (act >>= next) s = match act s with
      | .ok a s' => next a s'
      | .error e s' => .error e s' := rfl

theorem bind_of_ok {act : EStateM ε σ α} {next : α → EStateM ε σ β} {s s' : σ} {a : α}
    (h : act s = .ok a s') : (act >>= next) s = next a s' := by
  rw [bind_run, h]

theorem bind_of_error {act : EStateM ε σ α} {next : α → EStateM ε σ β} {s s' : σ} {e : ε}
    (h : act s = .error e s') : (act >>= next) s = .error e s' := by
  rw [bind_run, h]

theorem bind_eq_ok_iff {act : EStateM ε σ α} {next : α → EStateM ε σ β} {s s' : σ} {b : β} :
    (act >>= next) s = .ok b s' ↔ ∃ a mid, act s = .ok a mid ∧ next a mid = .ok b s' := by
  rw [bind_run]
  cases act s with
  | ok a mid => exact ⟨fun h => ⟨a, mid, rfl, h⟩, fun ⟨_, _, heq, h⟩ => by cases heq; exact h⟩
  | error e mid => simp

theorem bind_eq_error_iff {act : EStateM ε σ α} {next : α → EStateM ε σ β} {s s' : σ} {e : ε} :
    (act >>= next) s = .error e s' ↔
      act s = .error e s' ∨ ∃ a mid, act s = .ok a mid ∧ next a mid = .error e s' := by
  rw [bind_run]
  cases act s with
  | ok a mid =>
    refine ⟨fun h => .inr ⟨a, mid, rfl, h⟩, ?_⟩
    rintro (heq | ⟨_, _, heq, h⟩) <;> cases heq
    exact h
  | error e mid => simp

theorem get_bind_run (next : σ → EStateM ε σ α) (s : σ) :
    ((get : EStateM ε σ σ) >>= next) s = next s s := rfl

theorem modifyGet_run {f : σ → α × σ} {s s' : σ} {a : α} (h : f s = (a, s')) :
    (modifyGet f : EStateM ε σ α) s = .ok a s' := by
  change (match f s with | (a, s) => EStateM.Result.ok a s) = _
  rw [h]

theorem modifyGet_eq_ok_iff {f : σ → α × σ} {s s' : σ} {a : α} :
    (modifyGet f : EStateM ε σ α) s = .ok a s' ↔ f s = (a, s') := by
  refine ⟨fun h => ?_, modifyGet_run⟩
  cases h
  rfl

theorem read_bind_run (next : Database → Lookup α) (db : Database) :
    ((read : Lookup Database) >>= next) db = next db db := rfl

theorem look_bind_of_ok {look : Lookup α} {next : α → Lookup β} {db : Database} {a : α}
    (h : look db = .ok a) : (look >>= next) db = next a db := by
  change Except.bind (look db) (fun a => next a db) = _
  rw [h]
  rfl

theorem look_bind_of_error {look : Lookup α} {next : α → Lookup β} {db : Database}
    {e : CatalogError} (h : look db = .error e) : (look >>= next) db = .error e := by
  change Except.bind (look db) (fun a => next a db) = _
  rw [h]
  rfl

theorem look_bind_eq_ok_iff {look : Lookup α} {next : α → Lookup β} {db : Database} {b : β} :
    (look >>= next) db = .ok b ↔ ∃ a, look db = .ok a ∧ next a db = .ok b := by
  cases hlook : look db with
  | ok a => simp [look_bind_of_ok hlook]
  | error e => simp [look_bind_of_error hlook]

theorem lift_run (look : Lookup α) (db : Database) :
    (liftM look : CatalogM α) db = match look db with
      | .ok a => .ok a db
      | .error e => .error e db := rfl

theorem lift_of_ok {look : Lookup α} {db : Database} {a : α} (h : look db = .ok a) :
    (liftM look : CatalogM α) db = .ok a db := by
  rw [lift_run, h]

theorem lift_of_error {look : Lookup α} {db : Database} {e : CatalogError}
    (h : look db = .error e) : (liftM look : CatalogM α) db = .error e db := by
  rw [lift_run, h]

theorem lift_eq_ok_iff {look : Lookup α} {db db' : Database} {a : α} :
    (liftM look : CatalogM α) db = .ok a db' ↔ look db = .ok a ∧ db' = db := by
  rw [lift_run]
  cases look db <;> simp [eq_comm]

theorem lift_eq_error_iff {look : Lookup α} {db db' : Database} {e : CatalogError} :
    (liftM look : CatalogM α) db = .error e db' ↔ look db = .error e ∧ db' = db := by
  rw [lift_run]
  cases look db <;> simp [eq_comm]

theorem statement_run (act : CatalogM α) (db : Database) :
    (liftM act : ExecM α) db = match act db with
      | .ok a db' => .ok a db'
      | .error e db' => .error (.catalog e) db' := rfl

theorem statement_of_ok {act : CatalogM α} {db db' : Database} {a : α} (h : act db = .ok a db') :
    (liftM act : ExecM α) db = .ok a db' := by
  rw [statement_run, h]

theorem statement_look_of_ok {look : Lookup α} {db : Database} {a : α} (h : look db = .ok a) :
    (liftM look : ExecM α) db = .ok a db :=
  statement_of_ok (lift_of_ok h)

theorem statement_eq_ok_iff {act : CatalogM α} {db db' : Database} {a : α} :
    (liftM act : ExecM α) db = .ok a db' ↔ act db = .ok a db' := by
  rw [statement_run]
  cases act db <;> simp

theorem statement_look_eq_ok_iff {look : Lookup α} {db db' : Database} {a : α} :
    (liftM look : ExecM α) db = .ok a db' ↔ look db = .ok a ∧ db' = db :=
  statement_eq_ok_iff.trans lift_eq_ok_iff

theorem statement_of_error {act : CatalogM α} {db db' : Database} {e : CatalogError}
    (h : act db = .error e db') : (liftM act : ExecM α) db = .error (.catalog e) db' := by
  rw [statement_run, h]

theorem statement_look_of_error {look : Lookup α} {db : Database} {e : CatalogError}
    (h : look db = .error e) : (liftM look : ExecM α) db = .error (.catalog e) db :=
  statement_of_error (lift_of_error h)

end Run

section Settles

variable {ε σ α β : Type}

/-- The action ends with `post`. -/
def Succeeds (act : EStateM ε σ α) (s : σ) (post : α → σ → Prop) : Prop :=
  ∃ a s', act s = .ok a s' ∧ post a s'

/-- The action ends with `post`, or fails through a fault of the user and changes nothing. -/
def Settles [Fault ε] (act : EStateM ε σ α) (s : σ) (post : α → σ → Prop) : Prop :=
  match act s with
  | .ok a s' => post a s'
  | .error e s' => Fault.ofUser e ∧ s' = s

/-- The look-up finds something with `post`, or fails through a fault of the user. -/
def Finds (look : Lookup α) (db : Database) (post : α → Prop) : Prop :=
  match look db with
  | .ok a => post a
  | .error e => e.OfUser

namespace Succeeds

variable {act : EStateM ε σ α} {next : α → EStateM ε σ β} {s s' : σ} {a : α}
  {post mid : α → σ → Prop} {last : β → σ → Prop}

theorem of_ok (h : act s = .ok a s') (hpost : post a s') : Succeeds act s post :=
  ⟨a, s', h, hpost⟩

theorem pure (h : post a s) : Succeeds (pure a : EStateM ε σ α) s post :=
  of_ok rfl h

theorem bind_ok (h : act s = .ok a s') (hnext : Succeeds (next a) s' last) :
    Succeeds (act >>= next) s last := by
  obtain ⟨b, s'', hb, hlast⟩ := hnext
  exact ⟨b, s'', (bind_of_ok h).trans hb, hlast⟩

theorem bind (h : Succeeds act s mid) (hnext : ∀ a s', mid a s' → Succeeds (next a) s' last) :
    Succeeds (act >>= next) s last := by
  obtain ⟨a, s', hact, hmid⟩ := h
  obtain ⟨b, s'', hb, hlast⟩ := hnext a s' hmid
  exact ⟨b, s'', (bind_of_ok hact).trans hb, hlast⟩

theorem mono (h : Succeeds act s mid) (himp : ∀ a s', mid a s' → post a s') :
    Succeeds act s post := by
  obtain ⟨a, s', hact, hmid⟩ := h
  exact ⟨a, s', hact, himp a s' hmid⟩

theorem settles [Fault ε] (h : Succeeds act s post) : Settles act s post := by
  obtain ⟨a, s', hact, hpost⟩ := h
  rw [Settles, hact]
  exact hpost

theorem post_of_ok (h : Succeeds act s post) (hact : act s = .ok a s') : post a s' := by
  obtain ⟨b, s'', hb, hpost⟩ := h
  rw [hact] at hb
  cases hb
  exact hpost

private theorem false_of_error {e : ε} (h : Succeeds act s post) (hact : act s = .error e s') :
    False := by
  obtain ⟨b, s'', hb, -⟩ := h
  rw [hact] at hb
  cases hb

instance [∀ a s, Decidable (post a s)] : Decidable (Succeeds act s post) :=
  match hact : act s with
  | .ok a s' => decidable_of_iff (post a s') ⟨of_ok hact, fun h => h.post_of_ok hact⟩
  | .error _ _ => isFalse fun h => h.false_of_error hact

/-- An action on a list that succeeds on each member, whatever came before. -/
theorem forM {act : α → EStateM ε σ PUnit} {inv : σ → Prop} {l : List α}
    (hact : ∀ a ∈ l, ∀ s, inv s → Succeeds (act a) s fun _ s' => inv s') {s : σ} (hs : inv s) :
    Succeeds (l.forM act) s fun _ s' => inv s' := by
  induction l generalizing s with
  | nil => exact ⟨⟨⟩, s, rfl, hs⟩
  | cons a l ih =>
    change Succeeds (act a >>= fun _ => l.forM act) s _
    exact (hact a (by simp) s hs).bind fun _ s' hs' =>
      ih (fun b hb => hact b (List.mem_cons_of_mem _ hb)) hs'

end Succeeds

namespace Settles

variable [Fault ε] {act : EStateM ε σ α} {next : α → EStateM ε σ β} {s s' : σ} {a : α} {e : ε}
  {post mid : α → σ → Prop} {known : α → Prop} {last : β → σ → Prop}

theorem of_error (h : act s = .error e s) (he : Fault.ofUser e) : Settles act s post := by
  rw [Settles, h]
  exact ⟨he, rfl⟩

theorem post_of_ok (h : Settles act s post) (hact : act s = .ok a s') : post a s' := by
  rw [Settles, hact] at h
  exact h

theorem unchanged_of_error (h : Settles act s post) (hact : act s = .error e s') :
    Fault.ofUser e ∧ s' = s := by
  rw [Settles, hact] at h
  exact h

theorem pure (h : post a s) : Settles (pure a : EStateM ε σ α) s post := h

theorem mono (h : Settles act s mid) (himp : ∀ a s', mid a s' → post a s') :
    Settles act s post := by
  cases hact : act s with
  | ok a s' =>
    rw [Settles, hact]
    exact himp a s' (h.post_of_ok hact)
  | error e s' =>
    rw [Settles, hact]
    exact h.unchanged_of_error hact

/-- First a look, which may fail, then the rest. -/
theorem bind_look (h : Settles act s fun a s' => s' = s ∧ known a)
    (hnext : ∀ a, known a → Settles (next a) s last) : Settles (act >>= next) s last := by
  cases hact : act s with
  | ok a s' =>
    obtain ⟨rfl, ha⟩ := h.post_of_ok hact
    rw [Settles, bind_of_ok hact]
    exact hnext a ha
  | error e s' =>
    rw [Settles, bind_of_error hact]
    exact h.unchanged_of_error hact

/-- First a change, which may be refused, then what cannot fail any more. -/
theorem bind_change (h : Settles act s mid)
    (hnext : ∀ a s', mid a s' → Succeeds (next a) s' last) : Settles (act >>= next) s last := by
  cases hact : act s with
  | ok a s' =>
    obtain ⟨b, s'', hb, hlast⟩ := hnext a s' (h.post_of_ok hact)
    rw [Settles, bind_of_ok hact, hb]
    exact hlast
  | error e s' =>
    rw [Settles, bind_of_error hact]
    exact h.unchanged_of_error hact

theorem get_bind {next : σ → EStateM ε σ β} (h : Settles (next s) s last) :
    Settles (get >>= next) s last := h

theorem lift {act : CatalogM α} {db : Database} {post : α → Database → Prop}
    (h : Settles act db post) : Settles (liftM act : ExecM α) db post := by
  cases hact : act db with
  | ok a db' =>
    rw [Settles, statement_of_ok hact]
    exact h.post_of_ok hact
  | error e db' =>
    rw [Settles, statement_of_error hact]
    exact h.unchanged_of_error hact

end Settles

theorem Succeeds.lift {α : Type} {act : CatalogM α} {db : Database} {post : α → Database → Prop}
    (h : Succeeds act db post) : Succeeds (liftM act : ExecM α) db post := by
  obtain ⟨a, db', hact, hpost⟩ := h
  exact ⟨a, db', statement_of_ok hact, hpost⟩

namespace Finds

variable {α β : Type} {look : Lookup α} {next : α → Lookup β} {db : Database} {a : α}
  {e : CatalogError} {post mid : α → Prop} {last : β → Prop}

theorem of_ok (h : look db = .ok a) (hpost : post a) : Finds look db post := by
  rw [Finds, h]
  exact hpost

theorem of_error (h : look db = .error e) (he : e.OfUser) : Finds look db post := by
  rw [Finds, h]
  exact he

theorem post_of_ok (h : Finds look db post) (hlook : look db = .ok a) : post a := by
  rw [Finds, hlook] at h
  exact h

private theorem fault_of_error (h : Finds look db post) (hlook : look db = .error e) :
    e.OfUser := by
  rw [Finds, hlook] at h
  exact h

theorem bind (h : Finds look db mid) (hnext : ∀ a, mid a → Finds (next a) db last) :
    Finds (look >>= next) db last := by
  cases hlook : look db with
  | ok a =>
    rw [Finds, look_bind_of_ok hlook]
    exact hnext a (h.post_of_ok hlook)
  | error e => exact .of_error (look_bind_of_error hlook) (h.fault_of_error hlook)

theorem mono (h : Finds look db mid) (himp : ∀ a, mid a → post a) : Finds look db post := by
  cases hlook : look db with
  | ok a => exact .of_ok hlook (himp a (h.post_of_ok hlook))
  | error e => exact .of_error hlook (h.fault_of_error hlook)

theorem settles (h : Finds look db post) :
    Settles (liftM look : ExecM α) db fun a db' => db' = db ∧ post a := by
  cases hlook : look db with
  | ok a => exact (Succeeds.of_ok (lift_of_ok hlook) ⟨rfl, h.post_of_ok hlook⟩).lift.settles
  | error e => exact (Settles.of_error (lift_of_error hlook) (h.fault_of_error hlook)).lift

end Finds

end Settles

end SchemaCatalog
