import Mathlib.Data.List.Perm.Basic
import Mathlib.Logic.Relation
import SchemaCatalog.Json.Decode
/-!
# The order of members

The members of an object come in no order. A decoder that goes by names gives the same for all
values that differ in the order of members only, at whatever depth; here this is shown for the parts
that decoders are made of.
-/
namespace SchemaCatalog.Json

open Relation

/-- The members of one object in the value, or of one inside of it, come in another order. -/
inductive Reordered : Json → Json → Prop
  | members {members members' : List (String × Json)} (h : members.Perm members') :
    Reordered (object members) (object members')
  | member (before after : List (String × Json)) (name : String) {value value' : Json}
    (h : Reordered value value') :
    Reordered (object (before ++ (name, value) :: after)) (object (before ++ (name, value') :: after))
  | item (before after : List Json) {value value' : Json} (h : Reordered value value') :
    Reordered (array (before ++ value :: after)) (array (before ++ value' :: after))

/-- The values differ in nothing but the order of members. -/
def Same : Json → Json → Prop :=
  ReflTransGen Reordered

/-- The decoder does not see the order of members. -/
def Orderless {α : Type} (decode : Json → Option α) : Prop :=
  ∀ value value', Reordered value value' → decode value = decode value'

section Values

variable {α β : Type} {decode : Json → Option α} {value value' : Json}

theorem Orderless.same (h : Orderless decode) (hsame : Same value value') :
    decode value = decode value' := by
  induction hsame with
  | refl => rfl
  | tail _ hlast ih => exact ih.trans (h _ _ hlast)

theorem orderless_text : Orderless text? := by
  intro value value' h
  cases h <;> rfl

theorem orderless_flag : Orderless flag? := by
  intro value value' h
  cases h <;> rfl

theorem orderless_int64 : Orderless int64? := by
  intro value value' h
  cases h <;> rfl

theorem Orderless.map (h : Orderless decode) (f : α → β) :
    Orderless fun value => (decode value).map f := by
  intro value value' hvalue
  simp only [h value value' hvalue]

theorem Orderless.list (h : Orderless decode) : Orderless (list? decode) := by
  intro value value' hvalue
  cases hvalue with
  | members | member => rfl
  | item before after hitem =>
    simp only [list?, List.mapM_append, List.mapM_cons, h _ _ hitem]

theorem Orderless.option (h : Orderless decode) : Orderless (option? decode) := by
  intro value value' hvalue
  have hdecode := h value value' hvalue
  cases hvalue with
  | members | member | item => simp only [option?, hdecode]

/-- A choice has the same name, and its data differ in the order of members only. -/
theorem choice?_reordered (h : Reordered value value') : choice? value = choice? value' ∨
    ∃ name data data', choice? value = some (name, some data) ∧
      choice? value' = some (name, some data') ∧ Reordered data data' := by
  cases h with
  | item => exact .inl rfl
  | @members members members' hperm =>
    left
    match members, hperm with
    | [], hperm => rw [hperm.nil_eq]
    | [member], hperm => rw [List.singleton_perm.mp hperm]
    | _ :: _ :: _, hperm =>
      match members', hperm.length_eq with
      | _ :: _ :: _, _ => rfl
  | member before after name hdata =>
    match before, after with
    | [], [] => exact .inr ⟨name, _, _, rfl, rfl, hdata⟩
    | [], _ :: _ => exact .inl rfl
    | [_], [] => exact .inl rfl
    | [_], _ :: _ => exact .inl rfl
    | _ :: _ :: _, _ => exact .inl rfl

theorem plain_reordered (a : α) (h : Reordered value value') :
    plain a (some value) = plain a (some value') := by
  cases h <;> rfl

theorem orderless_plainChoice (choices : List (String × α)) : Orderless (plainChoice? choices) := by
  intro value value' h
  rcases choice?_reordered h with hsame | ⟨name, data, data', hvalue, hvalue', hdata⟩
  · simp only [plainChoice?, hsame]
  · simp only [plainChoice?, hvalue, hvalue', Option.bind_eq_bind, Option.bind_some,
      plain_reordered _ hdata]

end Values

section Records

variable {α β : Type}

/-- The sources differ in the order of members only. -/
inductive FieldSource.Reordered : FieldSource → FieldSource → Prop
  | same (source : FieldSource) : Reordered source source
  | members {members members' : List (String × Json)} (h : members.Perm members') :
    Reordered (.named members) (.named members')
  | member (before after : List (String × Json)) (name : String) {value value' : Json}
    (h : Json.Reordered value value') :
    Reordered (.named (before ++ (name, value) :: after))
      (.named (before ++ (name, value') :: after))
  | item (before after : List Json) {value value' : Json} (h : Json.Reordered value value') :
    Reordered (.listed (before ++ value :: after)) (.listed (before ++ value' :: after))

/-- What the members of a name say: nothing, the value of the one, or that there are too many. -/
def valueOf (decode : Json → Option α) (absent : Option α) : List (String × Json) → Option α
  | [] => absent
  | [member] => decode member.2
  | _ => none

theorem field_named (name : String) (decode : Json → Option α) (absent : FieldSource → Option α)
    (members : List (String × Json)) : field name decode absent (.named members) =
      (valueOf decode (absent (.named members)) (members.filter (·.1 == name))).map
        (·, .named members) := by
  rw [field]
  generalize members.filter (·.1 == name) = found
  match found with
  | [] => rfl
  | [_] => rfl
  | _ :: _ :: _ => rfl

private theorem valueOf_perm {found found' : List (String × Json)} (h : found.Perm found')
    (decode : Json → Option α) (absent : Option α) :
    valueOf decode absent found = valueOf decode absent found' := by
  match found with
  | [] => rw [h.nil_eq]
  | [member] => rw [List.singleton_perm.mp h]
  | _ :: _ :: _ =>
    match found', h.length_eq with
    | _ :: _ :: _, _ => rfl

private theorem valueOf_member {decode : Json → Option α} {value value' : Json}
    (h : decode value = decode value') (absent : Option α) (before after : List (String × Json))
    (name : String) : valueOf decode absent (before ++ (name, value) :: after) =
      valueOf decode absent (before ++ (name, value') :: after) := by
  match before, after with
  | [], [] => exact h
  | [], _ :: _ => rfl
  | [_], [] => rfl
  | [_], _ :: _ => rfl
  | _ :: _ :: _, _ => rfl

/-- The reader does not see the order of members, and leaves them as they were. -/
def FieldReader.Orderless (reader : FieldReader α) : Prop :=
  ∀ source source', source.Reordered source' →
    Option.Rel (fun r r' => r.1 = r'.1 ∧ r.2.Reordered r'.2) (reader source) (reader source')

namespace FieldReader.Orderless

variable {reader : FieldReader α} {next : α → FieldReader β} {decode : Json → Option α}

theorem pure (a : α) : Orderless (Pure.pure a) :=
  fun _ _ h => .some ⟨rfl, h⟩

theorem bind (h : Orderless reader) (hnext : ∀ a, Orderless (next a)) :
    Orderless (reader >>= next) := by
  intro source source' hsource
  have hfirst := h source source' hsource
  change Option.Rel _ ((reader source).bind fun r => next r.1 r.2)
    ((reader source').bind fun r => next r.1 r.2)
  generalize reader source = r? at hfirst ⊢
  generalize reader source' = r?' at hfirst ⊢
  cases hfirst with
  | none => exact .none
  | @some r r' hr =>
    obtain ⟨heq, hrest⟩ := hr
    rw [Option.bind_some, Option.bind_some, heq]
    exact hnext r'.1 r.2 r'.2 hrest

private theorem rel_map {a? a?' : Option α} {source source' : FieldSource} (ha : a? = a?')
    (hsource : source.Reordered source') :
    Option.Rel (fun r r' => r.1 = r'.1 ∧ r.2.Reordered r'.2) (a?.map (·, source))
      (a?'.map (·, source')) := by
  subst ha
  cases a? with
  | none => exact .none
  | some a => exact .some ⟨rfl, hsource⟩

/-- A field, if what it is where it is absent does not depend on the order of members either. -/
private theorem field (name : String) (h : Json.Orderless decode) {absent : FieldSource → Option α}
    (habsent : ∀ source source', source.Reordered source' → absent source = absent source') :
    Orderless (Json.field name decode absent) := by
  intro source source' hsource
  have hmissing := habsent source source' hsource
  cases hsource with
  | same source =>
    cases Json.field name decode absent source with
    | none => exact .none
    | some r => exact .some ⟨rfl, .same _⟩
  | members hperm =>
    rw [field_named, field_named, hmissing]
    exact rel_map (valueOf_perm (hperm.filter _) decode _) (.members hperm)
  | member before after other hvalue =>
    rw [field_named, field_named, hmissing]
    refine rel_map ?_ (.member before after other hvalue)
    simp only [List.filter_append, List.filter_cons]
    split
    · exact valueOf_member (h _ _ hvalue) _ _ _ _
    · rfl
  | item before after hvalue =>
    cases before with
    | nil => exact rel_map (h _ _ hvalue) (.same _)
    | cons item before => exact rel_map rfl (.item before after hvalue)

theorem required (name : String) (h : Json.Orderless decode) :
    Orderless (Json.required name decode) :=
  field name h fun _ _ _ => rfl

theorem optional (name : String) (h : Json.Orderless decode) :
    Orderless (Json.optional name decode) := by
  apply field name h.option
  intro source source' hsource
  cases hsource <;> rfl

theorem defaulted (name : String) (h : Json.Orderless decode) (fallback : α) :
    Orderless (Json.defaulted name decode fallback) :=
  field name h fun _ _ _ => rfl

end FieldReader.Orderless

variable {reader : FieldReader α}

theorem orderless_members (h : FieldReader.Orderless reader) : Orderless (members? reader) := by
  have hnamed : ∀ members members', FieldSource.Reordered (.named members) (.named members') →
      members? reader (object members) = members? reader (object members') := by
    intro members members' hsource
    have hrel := h _ _ hsource
    rw [members?, members?]
    generalize reader (.named members) = r? at hrel ⊢
    generalize reader (.named members') = r?' at hrel ⊢
    cases hrel with
    | none => rfl
    | some hr => rw [Option.map_some, Option.map_some, hr.1]
  intro value value' hvalue
  cases hvalue with
  | members hperm => exact hnamed _ _ (.members hperm)
  | member before after name hdata => exact hnamed _ _ (.member before after name hdata)
  | item => rfl

theorem orderless_record (h : FieldReader.Orderless reader) : Orderless (record? reader) := by
  intro value value' hvalue
  cases hvalue with
  | members hperm => exact orderless_members h _ _ (.members hperm)
  | member before after name hdata =>
    exact orderless_members h _ _ (.member before after name hdata)
  | @item before after value value' hitem =>
    have hrel := h _ _ (.item before after hitem)
    rw [record?, record?]
    generalize reader (.listed (before ++ value :: after)) = r? at hrel ⊢
    generalize reader (.listed (before ++ value' :: after)) = r?' at hrel ⊢
    cases hrel with
    | none => rfl
    | @some r r' hr =>
      obtain ⟨a, rest⟩ := r
      obtain ⟨a', rest'⟩ := r'
      obtain ⟨rfl, hrest⟩ := hr
      -- what is left over is left over in both
      cases hrest with
      | same | members | member => rfl
      | item before after =>
        cases before with
        | nil => rfl
        | cons item before => rfl

end Records

end SchemaCatalog.Json
