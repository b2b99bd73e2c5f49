import SchemaCatalog.Proofs.Actions
import SchemaCatalog.Proofs.Matching
/-!
# Two runs

What two runs of the same code do from databases that match. Look-ups agree, and actions are tied:
they fail alike or end with results that match, in databases that match again.
-/
namespace SchemaCatalog

section Agree

variable {ε α β γ δ : Type}

/-- Both fail with the same error, or both succeed with results that match. -/
inductive Agree (post : α → β → Prop) : Except ε α → Except ε β → Prop
  | ok {a : α} {b : β} (h : post a b) : Agree post (.ok a) (.ok b)
  | error (e : ε) : Agree post (.error e) (.error e)

namespace Agree

variable {r : Except ε α} {r' : Except ε β} {db db' : Database} {look : Lookup α} {look' : Lookup β}
  {next : α → Lookup γ} {next' : β → Lookup δ} {mid : α → β → Prop} {post : γ → δ → Prop}

theorem cases (h : Agree mid r r') :
    (∃ a b, r = .ok a ∧ r' = .ok b ∧ mid a b) ∨ ∃ e, r = .error e ∧ r' = .error e := by
  cases h with
  | ok h => exact .inl ⟨_, _, rfl, rfl, h⟩
  | error e => exact .inr ⟨e, rfl, rfl⟩

theorem bind (h : Agree mid (look db) (look' db'))
    (hnext : ∀ a b, mid a b → Agree post (next a db) (next' b db')) :
    Agree post ((look >>= next) db) ((look' >>= next') db') := by
  obtain ⟨a, b, hlook, hlook', hmid⟩ | ⟨e, hlook, hlook'⟩ := h.cases
  · rw [look_bind_of_ok hlook, look_bind_of_ok hlook']
    exact hnext a b hmid
  · rw [look_bind_of_error hlook, look_bind_of_error hlook']
    exact .error e

end Agree

end Agree

section Tied

variable {ε α β γ δ : Type} {c : SessionRef} {M M' : Matching} {db db' : Database}

/-- Both runs fail with the same error, or both succeed with results that match. In the end the
databases match as they did before, and there may be more in them that matches. -/
inductive Tied (c : SessionRef) (M : Matching) (post : Matching → α → β → Prop) :
    EStateM.Result ε Database α → EStateM.Result ε Database β → Prop
  | ok {M' : Matching} {a : α} {b : β} {db db' : Database} (hle : M ≤ M')
    (halike : Alike c M' db db') (hpost : post M' a b) : Tied c M post (.ok a db) (.ok b db')
  | error {M' : Matching} {db db' : Database} (e : ε) (hle : M ≤ M') (halike : Alike c M' db db') :
    Tied c M post (.error e db) (.error e db')

/-- The results are the same. -/
abbrev Equal : Matching → α → α → Prop :=
  fun _ a b => b = a

namespace Tied

section Rules

variable {act : EStateM ε Database α} {act' : EStateM ε Database β}
  {next : α → EStateM ε Database γ} {next' : β → EStateM ε Database δ}
  {mid : Matching → α → β → Prop} {post : Matching → γ → δ → Prop}

theorem cases {r : EStateM.Result ε Database α} {r' : EStateM.Result ε Database β}
    (h : Tied c M mid r r') :
    (∃ M' a b db db', r = .ok a db ∧ r' = .ok b db' ∧ M ≤ M' ∧ Alike c M' db db' ∧ mid M' a b) ∨
      ∃ M' e db db', r = .error e db ∧ r' = .error e db' ∧ M ≤ M' ∧ Alike c M' db db' := by
  cases h with
  | ok hle halike hmid => exact .inl ⟨_, _, _, _, _, rfl, rfl, hle, halike, hmid⟩
  | error e hle halike => exact .inr ⟨_, e, _, _, rfl, rfl, hle, halike⟩

private theorem of_le {r : EStateM.Result ε Database α} {r' : EStateM.Result ε Database β}
    (h : Tied c M' mid r r') (hle : M ≤ M') : Tied c M mid r r' := by
  cases h with
  | ok hle' halike hmid => exact .ok (Matching.le_trans hle hle') halike hmid
  | error e hle' halike => exact .error e (Matching.le_trans hle hle') halike

theorem pure {a : γ} {b : δ} (h : Alike c M db db') (hpost : post M a b) :
    Tied c M post ((pure a : EStateM ε Database γ) db) ((pure b : EStateM ε Database δ) db') :=
  .ok M.le_refl h hpost

theorem throw {e : ε} (h : Alike c M db db') : Tied c M post
    ((throw e : EStateM ε Database γ) db) ((throw e : EStateM ε Database δ) db') :=
  .error e M.le_refl h

theorem bind (h : Tied c M mid (act db) (act' db'))
    (hnext : ∀ M' a b db db', M ≤ M' → Alike c M' db db' → mid M' a b →
      Tied c M' post (next a db) (next' b db')) :
    Tied c M post ((act >>= next) db) ((act' >>= next') db') := by
  obtain ⟨M', a, b, mid, mid', hact, hact', hle, halike, hmid⟩ |
    ⟨M', e, mid, mid', hact, hact', hle, halike⟩ := h.cases
  · rw [bind_of_ok hact, bind_of_ok hact']
    exact (hnext M' a b mid mid' hle halike hmid).of_le hle
  · rw [bind_of_error hact, bind_of_error hact']
    exact .error e hle halike

/-- An action whose result is not used. -/
theorem then_pure (h : Tied c M mid (act db) (act' db')) (result : γ) :
    Tied c M Equal ((act >>= fun _ => Pure.pure result) db)
      ((act' >>= fun _ => Pure.pure result) db') :=
  h.bind fun _ _ _ _ _ _ h _ => .pure h rfl

theorem get_bind {next next' : Database → EStateM ε Database γ} {post : Matching → γ → γ → Prop}
    (h : Tied c M post (next db db) (next' db' db')) :
    Tied c M post ((get >>= next) db) ((get >>= next') db') := h

/-- Actions on lists of objects that stand for each other. -/
theorem forM {R : α → β → Prop} {act : α → EStateM ε Database PUnit}
    {act' : β → EStateM ε Database PUnit} {l : List α} {l' : List β} (hl : List.Forall₂ R l l')
    (h : Alike c M db db')
    (hact : ∀ M' a b db db', M ≤ M' → Alike c M' db db' → R a b →
      Tied c M' Equal (act a db) (act' b db')) :
    Tied c M Equal (l.forM act db) (l'.forM act' db') := by
  -- the matching may grow with each step, so it is general in the induction
  induction hl generalizing M db db' with
  | nil => exact .pure h rfl
  | @cons a b l l' hab _ ih =>
    change Tied c M Equal ((act a >>= fun _ => l.forM act) db)
      ((act' b >>= fun _ => l'.forM act') db')
    refine (hact M a b db db' M.le_refl h hab).bind fun M' _ _ db db' hle h _ => ?_
    exact ih h fun M'' a b db db' hle' => hact M'' a b db db' (Matching.le_trans hle hle')

end Rules

section Lifts

variable {look : Lookup α} {look' : Lookup β} {mid : α → β → Prop}

/-- First a look-up, which leaves the databases as they are. -/
theorem bind_look {next : α → CatalogM γ} {next' : β → CatalogM δ} {post : Matching → γ → δ → Prop}
    (hlook : Agree mid (look db) (look' db')) (h : Alike c M db db')
    (hnext : ∀ a b, mid a b → Tied c M post (next a db) (next' b db')) :
    Tied c M post ((liftM look >>= next) db) ((liftM look' >>= next') db') := by
  obtain ⟨a, b, hlook, hlook', hmid⟩ | ⟨e, hlook, hlook'⟩ := hlook.cases
  · rw [bind_of_ok (lift_of_ok hlook), bind_of_ok (lift_of_ok hlook')]
    exact hnext a b hmid
  · rw [bind_of_error (lift_of_error hlook), bind_of_error (lift_of_error hlook')]
    exact .error e M.le_refl h

theorem lift {act : CatalogM α} {act' : CatalogM β} {post : Matching → α → β → Prop}
    (h : Tied c M post (act db) (act' db')) :
    Tied c M post ((liftM act : ExecM α) db) ((liftM act' : ExecM β) db') := by
  obtain ⟨M', a, b, mid, mid', hact, hact', hle, halike, hpost⟩ |
    ⟨M', e, mid, mid', hact, hact', hle, halike⟩ := h.cases
  · rw [statement_of_ok hact, statement_of_ok hact']
    exact .ok hle halike hpost
  · rw [statement_of_error hact, statement_of_error hact']
    exact .error _ hle halike

theorem bind_statement_look {next : α → ExecM γ} {next' : β → ExecM δ}
    {post : Matching → γ → δ → Prop}
    (hlook : Agree mid (look db) (look' db')) (h : Alike c M db db')
    (hnext : ∀ a b, mid a b → Tied c M post (next a db) (next' b db')) :
    Tied c M post ((liftM look >>= next) db) ((liftM look' >>= next') db') := by
  obtain ⟨a, b, hlook, hlook', hmid⟩ | ⟨e, hlook, hlook'⟩ := hlook.cases
  · rw [bind_of_ok (statement_look_of_ok hlook), bind_of_ok (statement_look_of_ok hlook')]
    exact hnext a b hmid
  · rw [bind_of_error (statement_look_of_error hlook),
      bind_of_error (statement_look_of_error hlook')]
    exact .error _ M.le_refl h

end Lifts

end Tied

end Tied

end SchemaCatalog
