import Mathlib.Data.List.Perm.Subperm
import Mathlib.Data.List.Range
import Mathlib.Logic.Relation
import SchemaCatalog.Proofs.Reservations
/-!
# Owners of reservations

One set of reserved names and the guards of its reservations, which may be released and dropped at
any time and in any order. Every call takes the lock of the set, so the calls of several threads come
one after the other. A name can be struck off and handed out again while an old guard of it is still
around, also under another spelling; the token of an entry tells which guard it belongs to.
-/
namespace SchemaCatalog

open Relation

/-- A set of reserved names, the guards that were not dropped, and all reservations ever made. -/
structure Ledger where
  set : ReservationSet
  guards : List NameGuard
  issued : List Reservation
deriving DecidableEq, Inhabited

/-- What can be done with a set of reserved names and its guards. The search for a free name may be
of any length `liveCount`. -/
inductive LedgerCall where
  | reserve (base stem : String) (live : String → Bool) (liveCount : Nat)
  | free (name : String)
  | release (g : NameGuard)
  | drop (g : NameGuard)

namespace Ledger

def new (rule : CaseRule) : Ledger := ⟨.empty rule, [], []⟩

/-- The reservations that nobody has given back. -/
def outstanding (l : Ledger) : List Reservation :=
  (l.guards.filter fun g => !g.released).map (·.reservation)

def after (l : Ledger) : LedgerCall → Ledger
  | .reserve base stem live liveCount =>
    let (r, set) := l.set.reserve base stem live liveCount
    ⟨set, ⟨r, false⟩ :: l.guards, r :: l.issued⟩
  | .free name => { l with set := l.set.free name }
  | .release g =>
    { l with set := l.set.giveBack g, guards := { g with released := true } :: l.guards.erase g }
  | .drop g => { l with set := l.set.giveBack g, guards := l.guards.erase g }

/-- Only a guard that is still around can be released or dropped. -/
def Allows (l : Ledger) : LedgerCall → Prop
  | .release g => g ∈ l.guards ∧ g.released = false
  | .drop g => g ∈ l.guards
  | _ => True

instance (l : Ledger) : (call : LedgerCall) → Decidable (l.Allows call)
  | .reserve .. | .free _ => isTrue trivial
  | .release _ => inferInstanceAs (Decidable (_ ∧ _))
  | .drop _ => inferInstanceAs (Decidable (_ ∈ _))

def Step (l l' : Ledger) : Prop :=
  ∃ call, l.Allows call ∧ l' = l.after call

def Run : Ledger → Ledger → Prop :=
  ReflTransGen Step

variable {rule : CaseRule} {l l' : Ledger} {g : NameGuard} {r : Reservation}

private theorem mem_outstanding :
    r ∈ l.outstanding ↔ ∃ g ∈ l.guards, g.released = false ∧ g.reservation = r := by
  simp [outstanding, and_assoc]

section Numbered

/-- Reservations are numbered from one on, and a guard is of one that was made. -/
structure Numbered (l : Ledger) : Prop where
  next : l.set.nextToken = l.issued.length + 1
  tokens : l.issued.map (·.token) = (List.range' 1 l.issued.length).reverse.map UInt64.ofNat
  guards : (l.guards.map (·.reservation)).Subperm l.issued

namespace Numbered

theorem new (rule : CaseRule) : (new rule).Numbered :=
  ⟨rfl, rfl, List.Subperm.refl _⟩

private theorem reserve (h : l.Numbered) (base stem : String) (live : String → Bool)
    (liveCount : Nat) :
    (l.after (.reserve base stem live liveCount)).Numbered where
  next := congrArg (· + 1) h.next
  tokens := by
    change UInt64.ofNat l.set.nextToken :: l.issued.map (·.token) =
      (List.range' 1 (l.issued.length + 1)).reverse.map UInt64.ofNat
    rw [List.range'_concat, List.reverse_append, List.map_append, h.tokens, h.next, Nat.one_mul,
      Nat.add_comm 1]
    rfl
  guards := (List.subperm_cons _).mpr h.guards

/-- A call that makes no reservation. -/
private theorem keep (h : l.Numbered) (hissued : l'.issued = l.issued)
    (hnext : l'.set.nextToken = l.set.nextToken)
    (hguards : (l'.guards.map (·.reservation)).Subperm (l.guards.map (·.reservation))) :
    l'.Numbered where
  next := by rw [hnext, hissued, h.next]
  tokens := by rw [hissued, h.tokens]
  guards := by
    rw [hissued]
    exact hguards.trans h.guards

theorem step (h : l.Numbered) (hstep : Step l l') : l'.Numbered := by
  obtain ⟨call, hallows, rfl⟩ := hstep
  cases call with
  | reserve base stem live liveCount => exact h.reserve base stem live liveCount
  | free name => exact h.keep rfl rfl (List.Subperm.refl _)
  | release g =>
    refine h.keep rfl (l.set.frees_giveBack g).nextToken ?_
    exact ((List.perm_cons_erase hallows.1).map (·.reservation)).symm.subperm
  | drop g =>
    refine h.keep rfl (l.set.frees_giveBack g).nextToken ?_
    exact (List.Sublist.map NameGuard.reservation List.erase_sublist).subperm

theorem run (h : l.Numbered) (hrun : Run l l') : l'.Numbered := by
  induction hrun with
  | refl => exact h
  | tail _ hstep ih => exact ih.step hstep

private theorem tokens_nodup (h : l.Numbered) (hsize : l.issued.length < UInt64.size) :
    (l.issued.map (·.token)).Nodup := by
  rw [h.tokens]
  refine (List.nodup_reverse.mpr List.nodup_range').map_on fun m hm n hn heq => ?_
  rw [List.mem_reverse, List.mem_range'_1] at hm hn
  exact ofNat_injective (by omega) (by omega) heq

private theorem guards_nodup (h : l.Numbered) (hsize : l.issued.length < UInt64.size) :
    (l.guards.map (·.reservation.token)).Nodup := by
  obtain ⟨issued, hperm, hsub⟩ := h.guards
  have hnodup := (h.tokens_nodup hsize).sublist (hsub.map (·.token))
  rwa [(hperm.map (·.token)).nodup_iff, List.map_map] at hnodup

private theorem outstanding_nodup (h : l.Numbered) (hsize : l.issued.length < UInt64.size) :
    (l.outstanding.map (·.token)).Nodup := by
  rw [outstanding, List.map_map]
  exact (h.guards_nodup hsize).sublist (List.filter_sublist.map _)

end Numbered

end Numbered

section Entries

/-- Every entry is that of an outstanding guard: its key is the folded name, its token the guard's. -/
structure Accounted (rule : CaseRule) (l : Ledger) : Prop where
  folds : l.set.rule = rule
  entry : ∀ key token, l.set.names.get? key = some token →
    ∃ r ∈ l.outstanding, r.token = token ∧ rule.fold r.name = key

namespace Accounted

private theorem new (rule : CaseRule) : (new rule).Accounted rule :=
  ⟨rfl, fun _ _ hentry => nomatch hentry⟩

private theorem reserve (h : l.Accounted rule) (base stem : String) (live : String → Bool)
    (liveCount : Nat) : (l.after (.reserve base stem live liveCount)).Accounted rule where
  folds := h.folds
  entry := by
    let r := (l.set.reserve base stem live liveCount).1
    change ∀ key token, (l.set.enter r).names.get? key = some token →
      ∃ r' ∈ r :: l.outstanding, r'.token = token ∧ rule.fold r'.name = key
    intro key token hentry
    rw [ReservationSet.get?_enter, ReservationSet.key, h.folds] at hentry
    split at hentry
    next hkey => exact ⟨r, List.mem_cons_self, Option.some.inj hentry, hkey.symm⟩
    next =>
      obtain ⟨r', hr', howns⟩ := h.entry key token hentry
      exact ⟨r', List.mem_cons_of_mem r hr', howns⟩

private theorem free (h : l.Accounted rule) (name : String) :
    (l.after (.free name)).Accounted rule where
  folds := h.folds
  entry := fun key token hentry =>
    h.entry key token ((l.set.frees_free name).of_get?_eq_some hentry).1

/-- A guard that is given back takes its own entry with it, so the others keep theirs. -/
private theorem giveBack (h : l.Accounted rule) (hset : l'.set = l.set.giveBack g)
    (hguards : ∀ r ∈ l.outstanding, r ∈ l'.outstanding ∨ g.released = false ∧ r = g.reservation) :
    l'.Accounted rule where
  folds := by rw [hset, (l.set.frees_giveBack g).rule, h.folds]
  entry := by
    intro key token hentry
    rw [hset] at hentry
    obtain ⟨hentry, hstays⟩ := (l.set.frees_giveBack g).of_get?_eq_some hentry
    obtain ⟨r, hr, rfl, rfl⟩ := h.entry key token hentry
    refine ⟨r, (hguards r hr).resolve_right ?_, rfl, rfl⟩
    rintro ⟨hreleased, rfl⟩
    rw [ReservationSet.key, h.folds] at hstays
    exact hstays ⟨hreleased, rfl, hentry⟩

theorem step (h : l.Accounted rule) (hstep : Step l l') : l'.Accounted rule := by
  obtain ⟨call, hallows, rfl⟩ := hstep
  -- dropping a guard takes no other guard away
  have hothers : ∀ g, ∀ r ∈ l.outstanding,
      (∃ g' ∈ l.guards.erase g, g'.released = false ∧ g'.reservation = r) ∨
        g.released = false ∧ r = g.reservation := by
    intro g r hr
    obtain ⟨g', hg', hreleased, rfl⟩ := mem_outstanding.mp hr
    by_cases hsame : g' = g
    · exact .inr (hsame ▸ ⟨hreleased, rfl⟩)
    · exact .inl ⟨g', (List.mem_erase_of_ne hsame).mpr hg', hreleased, rfl⟩
  cases call with
  | reserve base stem live liveCount => exact h.reserve base stem live liveCount
  | free name => exact h.free name
  | release g =>
    refine h.giveBack rfl fun r hr => (hothers g r hr).imp_left fun ⟨g', hg', hr'⟩ => ?_
    exact mem_outstanding.mpr ⟨g', List.mem_cons_of_mem _ hg', hr'⟩
  | drop g => exact h.giveBack rfl fun r hr => (hothers g r hr).imp_left mem_outstanding.mpr

theorem run (h : l.Accounted rule) (hrun : Run l l') : l'.Accounted rule := by
  induction hrun with
  | refl => exact h
  | tail _ hstep ih => exact ih.step hstep

end Accounted

end Entries

section Owned

/-- Each entry belongs to one outstanding guard, tokens are never shared, and a guard that is given
back takes its own entry, once, and no other. -/
structure Owned (rule : CaseRule) (l : Ledger) : Prop where
  owner : ∀ key token, l.set.names.get? key = some token →
    ∃ r, l.outstanding.filter (·.token = token) = [r] ∧ rule.fold r.name = key
  tokens : (l.issued.map (·.token)).Nodup
  strikes : ∀ g ∈ l.guards, ∀ key, (l.set.giveBack g).names.get? key =
    if key = rule.fold g.reservation.name ∧ l.set.names.get? key = some g.reservation.token
    then none else l.set.names.get? key
  once : ∀ g ∈ l.guards,
    (l.after (.release g)).after (.drop { g with released := true }) = l.after (.drop g)
  empty : l.outstanding = [] → l.set.isEmpty = true

private theorem filter_token {rs : List Reservation} (hnodup : (rs.map (·.token)).Nodup)
    (hr : r ∈ rs) :
    rs.filter (·.token = r.token) = [r] := by
  induction rs with
  | nil => cases hr
  | cons r' rs ih =>
    rw [List.map_cons, List.nodup_cons] at hnodup
    rcases List.mem_cons.mp hr with rfl | hr
    · rw [List.filter_cons_of_pos (by simp), List.filter_eq_nil_iff.mpr]
      intro r' hr' htoken
      exact hnodup.1 (List.mem_map.mpr ⟨r', hr', of_decide_eq_true htoken⟩)
    · rw [List.filter_cons_of_neg, ih hnodup.2 hr]
      intro htoken
      exact hnodup.1 (List.mem_map.mpr ⟨r, hr, (of_decide_eq_true htoken).symm⟩)

/-- A guard that was released has no entry left. -/
private theorem Accounted.released_eq_false (haccounted : l.Accounted rule) (hnumbered : l.Numbered)
    (hsize : l.issued.length < UInt64.size) (hg : g ∈ l.guards) {key : String}
    (hentry : l.set.names.get? key = some g.reservation.token) : g.released = false := by
  obtain ⟨r, hr, htoken, -⟩ := haccounted.entry key _ hentry
  obtain ⟨g', hg', hreleased, rfl⟩ := mem_outstanding.mp hr
  obtain rfl := List.inj_on_of_nodup_map (hnumbered.guards_nodup hsize) hg' hg htoken
  exact hreleased

private theorem Accounted.owned_of_numbered (haccounted : l.Accounted rule) (hnumbered : l.Numbered)
    (hsize : l.issued.length < UInt64.size) : l.Owned rule where
  owner := by
    intro key token hentry
    obtain ⟨r, hr, rfl, hkey⟩ := haccounted.entry key token hentry
    exact ⟨r, filter_token (hnumbered.outstanding_nodup hsize) hr, hkey⟩
  tokens := hnumbered.tokens_nodup hsize
  strikes := by
    intro g hg key
    have hfrees := l.set.frees_giveBack g
    rw [ReservationSet.key, haccounted.folds] at hfrees
    split
    next hown =>
      exact hfrees.freed key ⟨haccounted.released_eq_false hnumbered hsize hg hown.2, hown⟩
    next hother => exact hfrees.kept key fun hown => hother hown.2
  once := by
    intro g _
    simp [after, ReservationSet.giveBack]
  empty := by
    intro hnone
    refine List.isEmpty_iff.mpr (List.eq_nil_iff_forall_not_mem.mpr fun entry hentry => ?_)
    obtain ⟨key, token⟩ := entry
    obtain ⟨r, hr, -⟩ := haccounted.entry key token ((l.set.names.mem_entries_iff ..).mp hentry)
    rw [hnone] at hr
    cases hr

/-- In every run from a new set, as long as tokens do not repeat. -/
theorem Run.owned (hrun : Run (new rule) l) (hsize : l.issued.length < UInt64.size) :
    l.Owned rule :=
  ((Accounted.new rule).run hrun).owned_of_numbered ((Numbered.new rule).run hrun) hsize

/-- A guard whose name was struck off and handed out again under another spelling is dropped late. -/
def afterStaleDrop : Ledger :=
  [.reserve "T" "idx_" (fun _ => false) 0, .free "idx_b",
    .reserve "T" "IDX_" (fun _ => false) 0, .drop ⟨⟨"idx_B", 1⟩, false⟩].foldl after (new .ignoreCase)

theorem owned_afterStaleDrop :
    Run (new .ignoreCase) afterStaleDrop ∧ afterStaleDrop.issued.length < UInt64.size ∧
    afterStaleDrop.Owned .ignoreCase ∧
    afterStaleDrop.outstanding = [⟨"IDX_B", 2⟩] ∧
    afterStaleDrop.set.names.entries = [("IDX_B", 2)] := by
  have hrun : Run (new .ignoreCase) afterStaleDrop :=
    .tail (.tail (.tail (.tail .refl ⟨.reserve "T" "idx_" (fun _ => false) 0, trivial, rfl⟩)
      ⟨.free "idx_b", trivial, rfl⟩) ⟨.reserve "T" "IDX_" (fun _ => false) 0, trivial, rfl⟩)
      ⟨.drop ⟨⟨"idx_B", 1⟩, false⟩, by decide +kernel, rfl⟩
  have hsize : afterStaleDrop.issued.length < UInt64.size := by decide +kernel
  exact ⟨hrun, hsize, hrun.owned hsize, by decide +kernel, by decide +kernel⟩

end Owned

end Ledger

end SchemaCatalog
