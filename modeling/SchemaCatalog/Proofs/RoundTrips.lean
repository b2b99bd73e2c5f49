import SchemaCatalog.Product
import SchemaCatalog.Proofs.Reordering
import SchemaCatalog.Statement.Data
/-!
# Round trips through JSON

Statements, all that they carry, and settings are decoded from what they are encoded as, in whatever
order the members of its objects come. So whatever a value has been decoded from, it is encoded as a
value that decodes to it again and encodes to itself. A record is read from the array of its fields
too.
-/
namespace SchemaCatalog

namespace Json

variable {α β : Type}

/-- Decoding undoes encoding, and neither cares for the order of members. -/
structure RoundTrips (encode : α → Json) (decode : Json → Option α) : Prop where
  /-- Decoding undoes encoding, in whatever order the members come. -/
  undoes : ∀ a value, Same (encode a) value → decode value = some a
  /-- Values that differ in the order of members decode alike, or neither decodes. -/
  orderless : ∀ value value', Same value value' → decode value = decode value'
  /-- What a value decodes to is encoded as a value that decodes to the same, and which is then
  encoded as itself. -/
  settles : ∀ value a, decode value = some a →
    decode (encode a) = some a ∧ (decode (encode a)).map encode = some (encode a)

private theorem RoundTrips.of {encode : α → Json} {decode : Json → Option α} (h : Orderless decode)
    (hundoes : ∀ a, decode (encode a) = some a) : RoundTrips encode decode where
  undoes a value hsame := (h.same hsame).symm.trans (hundoes a)
  orderless value value' := h.same
  settles value a _ := by simp [hundoes a]

private theorem RoundTrips.undone {encode : α → Json} {decode : Json → Option α}
    (h : RoundTrips encode decode) (a : α) : decode (encode a) = some a :=
  h.undoes a _ .refl

private theorem RoundTrips.decoder {encode : α → Json} {decode : Json → Option α}
    (h : RoundTrips encode decode) : Orderless decode :=
  fun value value' hvalue => h.orderless value value' (.single hvalue)

section Parts

private theorem int64?_toInt (n : Int64) : int64? (integer n.toInt) = some n := by
  have hlow := Int64.le_toInt n
  have hhigh := Int64.toInt_lt n
  rw [int64?, if_pos ⟨by omega, by omega⟩, Int64.ofInt_toInt]

private theorem option?_ofOption (text : Option String) :
    option? text? (ofOption string text) = some text := by
  cases text <;> rfl

@[simp] theorem ofOption_string_eq_null {text : Option String} :
    ofOption string text = null ↔ text = none := by
  cases text <;> simp [ofOption]

private theorem list?_map {encode : α → Json} {decode : Json → Option α}
    (h : ∀ a, decode (encode a) = some a) (items : List α) :
    list? decode (array (items.map encode)) = some items := by
  rw [list?]
  induction items with
  | nil => rfl
  | cons item items ih => simp [h item, ih]

private theorem list?_ofStrings (texts : List String) :
    list? text? (ofStrings texts) = some texts := by
  have htext : ∀ text, text? (string text) = some text := fun _ => rfl
  exact list?_map htext texts

end Parts

section Records

variable {defaults : List (String × Json)} {options : List String}

/-- An object may leave a member out that is at its default, or an option that is `null`. -/
def Omissible (defaults : List (String × Json)) (options : List String)
    (member : String × Json) : Prop :=
  member ∈ defaults ∨ member.1 ∈ options ∧ member.2 = null

/-- The source gives a value for the next field, or it may do without it. -/
inductive FieldSource.Gives (defaults : List (String × Json)) (options : List String) :
    FieldSource → String × Json → FieldSource → Prop
  | named {members : List (String × Json)} {member : String × Json}
    (h : members.filter (·.1 == member.1) = [member]) :
    Gives defaults options (.named members) member (.named members)
  | omitted {members : List (String × Json)} {member : String × Json}
    (h : members.filter (·.1 == member.1) = []) (homissible : Omissible defaults options member) :
    Gives defaults options (.named members) member (.named members)
  | listed (name : String) (item : Json) (items : List Json) :
    Gives defaults options (.listed (item :: items)) (name, item) (.listed items)
  | ended {member : String × Json} (h : member ∈ defaults) :
    Gives defaults options (.listed []) member (.listed [])

/-- The source gives the values of these fields one after the other. -/
inductive FieldSource.GivesAll (defaults : List (String × Json)) (options : List String) :
    FieldSource → List (String × Json) → FieldSource → Prop
  | done (source : FieldSource) : GivesAll defaults options source [] source
  | next {source middle rest : FieldSource} {member : String × Json}
    {members : List (String × Json)} (h : source.Gives defaults options member middle)
    (hrest : middle.GivesAll defaults options members rest) :
    GivesAll defaults options source (member :: members) rest

/-- The reader reads these fields, and nothing beyond them. -/
def FieldReader.Reads (defaults : List (String × Json)) (options : List String)
    (reader : FieldReader α) (members : List (String × Json)) (a : α) : Prop :=
  ∀ source rest, source.GivesAll defaults options members rest → reader source = some (a, rest)

namespace FieldReader.Reads

variable {name : String} {decode : Json → Option α} {value : Json} {a : α}
  {next : α → FieldReader β} {members : List (String × Json)} {b : β}

private theorem pure (b : β) : Reads defaults options (Pure.pure b) [] b := by
  intro source rest h
  cases h
  rfl

/-- A field that is left out is read as the value that it has. -/
private theorem field {absent : FieldSource → Option α} (hvalue : decode value = some a)
    (homitted : Omissible defaults options (name, value) →
      ∀ members, absent (.named members) = some a)
    (hended : (name, value) ∈ defaults → absent (.listed []) = some a)
    (hnext : Reads defaults options (next a) members b) :
    Reads defaults options (Json.field name decode absent >>= next) ((name, value) :: members) b := by
  intro source rest h
  cases h with
  | @next _ middle _ _ _ hgives hrest =>
    have hfirst : Json.field name decode absent source = some (a, middle) := by
      cases hgives with
      | named hmember => rw [field_named, hmember, valueOf, hvalue, Option.map_some]
      | omitted hnone homissible =>
        rw [field_named, hnone, valueOf, homitted homissible, Option.map_some]
      | listed name item items => rw [Json.field, hvalue, Option.map_some]
      | ended hdefault => rw [Json.field, hended hdefault, Option.map_some]
    change ((Json.field name decode absent source).bind fun r => next r.1 r.2) = _
    rw [hfirst, Option.bind_some]
    exact hnext middle rest hrest

private theorem required (hname : name ∉ defaults.map (·.1) ∧ name ∉ options)
    (hvalue : decode value = some a) (hnext : Reads defaults options (next a) members b) :
    Reads defaults options (Json.required name decode >>= next) ((name, value) :: members) b := by
  have hgiven : (name, value) ∉ defaults := fun h => hname.1 (List.mem_map.mpr ⟨_, h, rfl⟩)
  refine field hvalue (fun homissible => ?_) (fun hdefault => absurd hdefault hgiven) hnext
  rcases homissible with hdefault | ⟨hoption, -⟩
  · exact absurd hdefault hgiven
  · exact absurd hoption hname.2

private theorem optional {a : Option α} {next : Option α → FieldReader β}
    (hname : name ∉ defaults.map (·.1)) (hvalue : option? decode value = some a)
    (hnext : Reads defaults options (next a) members b) :
    Reads defaults options (Json.optional name decode >>= next) ((name, value) :: members) b := by
  have hgiven : (name, value) ∉ defaults := fun h => hname (List.mem_map.mpr ⟨_, h, rfl⟩)
  refine field hvalue (fun homissible => ?_) (fun hdefault => absurd hdefault hgiven) hnext
  rcases homissible with hdefault | ⟨-, rfl⟩
  · exact absurd hdefault hgiven
  · cases hvalue
    exact fun _ => rfl

private theorem defaulted {fallback : α}
    (hname : name ∉ options ∧ ((name, value) ∈ defaults → a = fallback))
    (hvalue : decode value = some a) (hnext : Reads defaults options (next a) members b) :
    Reads defaults options (Json.defaulted name decode fallback >>= next)
      ((name, value) :: members) b := by
  have hdefault : (name, value) ∈ defaults → some fallback = some a := fun h => by rw [hname.2 h]
  refine field hvalue (fun homissible => ?_) hdefault hnext
  rcases homissible with h | ⟨hoption, -⟩
  · exact fun _ => hdefault h
  · exact absurd hoption hname.1

end FieldReader.Reads

variable {reader : FieldReader α} {members : List (String × Json)} {a : α}

/-- Among members with names of their own, a name finds its member. -/
private theorem filter_name {all : List (String × Json)} (hnames : (all.map (·.1)).Nodup)
    {member : String × Json} (hmember : member ∈ all) :
    all.filter (·.1 == member.1) = [member] := by
  induction all with
  | nil => cases hmember
  | cons head all ih =>
    obtain ⟨hhead, hnames⟩ := List.nodup_cons.mp hnames
    rcases List.mem_cons.mp hmember with rfl | hmember
    · have hrest : all.filter (·.1 == member.1) = [] := by
        apply List.filter_eq_nil_iff.mpr
        intro other hother heq
        exact hhead (List.mem_map.mpr ⟨other, hother, by simpa using heq⟩)
      simp [hrest]
    · have hne : head.1 ≠ member.1 := fun heq =>
        hhead (List.mem_map.mpr ⟨member, hmember, heq.symm⟩)
      simp [hne, ih hnames hmember]

/-- A name of one of all members finds that member if it is kept, and nothing if it is left out. -/
private theorem filter_kept {all kept : List (String × Json)} (hnames : (all.map (·.1)).Nodup)
    (hkept : kept.Sublist all) {member : String × Json} (hmember : member ∈ all) :
    kept.filter (·.1 == member.1) = [member] ∨
      member ∉ kept ∧ kept.filter (·.1 == member.1) = [] := by
  have hsub : (kept.filter (·.1 == member.1)).Sublist [member] := by
    rw [← filter_name hnames hmember]
    exact hkept.filter _
  rcases List.sublist_singleton.mp hsub with hnone | hone
  · refine .inr ⟨fun hin => ?_, hnone⟩
    exact List.filter_eq_nil_iff.mp hnone member hin (beq_self_eq_true _)
  · exact .inl hone

private theorem givesAll_named {all kept : List (String × Json)} (hnames : (all.map (·.1)).Nodup)
    (hkept : kept.Sublist all)
    (homitted : ∀ member ∈ all, member ∉ kept → Omissible defaults options member)
    (hmembers : members ⊆ all) :
    FieldSource.GivesAll defaults options (.named kept) members (.named kept) := by
  induction members with
  | nil => exact .done _
  | cons member members ih =>
    obtain ⟨hmember, hrest⟩ := List.cons_subset.mp hmembers
    refine .next ?_ (ih hrest)
    rcases filter_kept hnames hkept hmember with hone | ⟨hout, hnone⟩
    · exact .named hone
    · exact .omitted hnone (homitted member hmember hout)

private theorem givesAll_listed (shown : List (String × Json)) {hidden : List (String × Json)}
    (hhidden : ∀ member ∈ hidden, member ∈ defaults) :
    FieldSource.GivesAll defaults options (.listed (shown.map (·.2))) (shown ++ hidden)
      (.listed []) := by
  induction shown with
  | nil =>
    induction hidden with
    | nil => exact .done _
    | cons member hidden ih =>
      obtain ⟨hmember, hhidden⟩ := List.forall_mem_cons.mp hhidden
      exact .next (.ended hmember) (ih hhidden)
  | cons member shown ih => exact .next (.listed member.1 member.2 _) ih

private theorem members?_of_reads {kept : List (String × Json)}
    (h : FieldReader.Reads defaults options reader members a) (hnames : (members.map (·.1)).Nodup)
    (hkept : kept.Sublist members)
    (homitted : ∀ member ∈ members, member ∉ kept → Omissible defaults options member) :
    members? reader (object kept) = some a := by
  have hgives := givesAll_named hnames hkept homitted (List.Subset.refl members)
  rw [members?, h _ _ hgives, Option.map_some]

private theorem members?_of_reads_all (h : FieldReader.Reads [] [] reader members a)
    (hnames : (members.map (·.1)).Nodup) : members? reader (object members) = some a :=
  members?_of_reads h hnames (List.Sublist.refl _) fun _ hin hout => absurd hin hout

end Records

end Json

open Json

/-- A record that is written in one way is read from it with or without what may be left out, and
from the array of its values with or without defaults at the end. -/
structure Json.RecordRoundTrips {α : Type} (encode : α → Json) (decode : Json → Option α)
    (defaults : List (String × Json)) (options : List String) : Prop
    extends RoundTrips encode decode where
  shortened : ∀ a, ∃ members, encode a = object members ∧
    (∀ kept, kept.Sublist members →
      (∀ member ∈ members, member ∉ kept → Omissible defaults options member) →
        decode (object kept) = some a) ∧
    ∀ shown hidden, members = shown ++ hidden → (∀ member ∈ hidden, member ∈ defaults) →
      decode (array (shown.map (·.2))) = some a

private theorem Json.RecordRoundTrips.of {α : Type} {encode : α → Json} {reader : FieldReader α}
    {defaults : List (String × Json)} {options : List String}
    (h : FieldReader.Orderless reader) (hreads : ∀ a, ∃ members, encode a = object members ∧
      FieldReader.Reads defaults options reader members a ∧ (members.map (·.1)).Nodup) :
    RecordRoundTrips encode (record? reader) defaults options where
  toRoundTrips := by
    refine .of (orderless_record h) fun a => ?_
    obtain ⟨members, hencode, hmembers, hnames⟩ := hreads a
    rw [hencode]
    exact members?_of_reads hmembers hnames (List.Sublist.refl _) fun _ hin hout => absurd hin hout
  shortened a := by
    obtain ⟨members, hencode, hmembers, hnames⟩ := hreads a
    refine ⟨members, hencode, fun kept => members?_of_reads hmembers hnames, ?_⟩
    rintro shown hidden rfl hhidden
    rw [record?, hmembers _ _ (givesAll_listed shown hhidden)]

namespace Column

theorem roundTrips : RecordRoundTrips toJson ofJson?
    [("nullable", .bool true), ("default_expression", .null)] ["computed"] := by
  apply RecordRoundTrips.of
  · refine .bind (.required _ orderless_text) fun name => ?_
    refine .bind (.required _ orderless_text) fun dataType => ?_
    refine .bind (.optional _ orderless_text) fun computed => ?_
    refine .bind (.defaulted _ orderless_flag true) fun nullable => ?_
    refine .bind (.defaulted _ orderless_text.option none) fun defaultExpression => ?_
    exact .pure _
  · intro column
    refine ⟨_, rfl, ?_, by simp⟩
    refine .required (by simp) rfl ?_
    refine .required (by simp) rfl ?_
    refine .optional (by simp) (option?_ofOption _) ?_
    refine .defaulted (by simp) rfl ?_
    refine .defaulted (by simp) (option?_ofOption _) ?_
    exact .pure _

end Column

section Choices

theorem TableKind.roundTrips : RoundTrips TableKind.toJson TableKind.ofJson? := by
  apply RoundTrips.of (orderless_plainChoice _)
  intro kind
  cases kind <;> rfl

theorem TableScope.roundTrips : RoundTrips TableScope.toJson TableScope.ofJson? := by
  apply RoundTrips.of (orderless_plainChoice _)
  intro kind
  cases kind <;> rfl

theorem IndexKind.roundTrips : RoundTrips IndexKind.toJson IndexKind.ofJson? := by
  apply RoundTrips.of (orderless_plainChoice _)
  intro kind
  cases kind <;> rfl

theorem ObjectKind.roundTrips : RoundTrips ObjectKind.toJson ObjectKind.ofJson? := by
  apply RoundTrips.of (orderless_plainChoice _)
  intro kind
  cases kind <;> rfl

theorem DmlKind.roundTrips : RoundTrips DmlKind.toJson DmlKind.ofJson? := by
  apply RoundTrips.of (orderless_plainChoice _)
  intro kind
  cases kind <;> rfl

theorem TransactionKind.roundTrips : RoundTrips TransactionKind.toJson TransactionKind.ofJson? := by
  apply RoundTrips.of (orderless_plainChoice _)
  intro kind
  cases kind <;> rfl

end Choices

namespace Settings

theorem roundTrips : RecordRoundTrips toJson ofJson?
    [("name", .string standard.name), ("ignore_case", .bool standard.ignoreCase),
      ("main_schema", .string standard.mainSchema), ("info_schema", .string standard.infoSchema),
      ("admin_user", .string standard.adminUser)] [] := by
  apply RecordRoundTrips.of
  · refine .bind (.defaulted _ orderless_text _) fun name => ?_
    refine .bind (.defaulted _ orderless_flag _) fun ignoreCase => ?_
    refine .bind (.defaulted _ orderless_text _) fun mainSchema => ?_
    refine .bind (.defaulted _ orderless_text _) fun infoSchema => ?_
    refine .bind (.defaulted _ orderless_text _) fun adminUser => ?_
    exact .pure _
  · intro settings
    refine ⟨_, rfl, ?_, by simp⟩
    refine .defaulted (by simp) rfl ?_
    refine .defaulted (by simp) rfl ?_
    refine .defaulted (by simp) rfl ?_
    refine .defaulted (by simp) rfl ?_
    refine .defaulted (by simp) rfl ?_
    exact .pure _

end Settings

namespace TableDefinition

theorem roundTrips : RecordRoundTrips toJson ofJson? [] [] := by
  apply RecordRoundTrips.of
  · refine .bind (.required _ orderless_text) fun schema => ?_
    refine .bind (.required _ orderless_text) fun tableName => ?_
    refine .bind (.required _ Column.roundTrips.decoder.list) fun columns => ?_
    refine .bind (.required _ TableKind.roundTrips.decoder) fun kind => ?_
    refine .bind (.required _ TableScope.roundTrips.decoder) fun scope => ?_
    refine .bind (.required _ orderless_text.list) fun references => ?_
    refine .bind (.required _ orderless_flag) fun ifNotExists => ?_
    exact .pure _
  · intro definition
    refine ⟨_, rfl, ?_, by simp⟩
    refine .required (by simp) rfl ?_
    refine .required (by simp) rfl ?_
    refine .required (by simp) (list?_map Column.roundTrips.undone _) ?_
    refine .required (by simp) (TableKind.roundTrips.undone _) ?_
    refine .required (by simp) (TableScope.roundTrips.undone _) ?_
    refine .required (by simp) (list?_ofStrings _) ?_
    refine .required (by simp) rfl ?_
    exact .pure _

end TableDefinition

namespace IndexDefinition

theorem roundTrips : RecordRoundTrips toJson ofJson? [] ["index_name"] := by
  apply RecordRoundTrips.of
  · refine .bind (.required _ orderless_text) fun schema => ?_
    refine .bind (.required _ orderless_text) fun table => ?_
    refine .bind (.optional _ orderless_text) fun indexName => ?_
    refine .bind (.required _ orderless_text.list) fun columns => ?_
    refine .bind (.required _ IndexKind.roundTrips.decoder) fun kind => ?_
    refine .bind (.required _ orderless_flag) fun ifNotExists => ?_
    exact .pure _
  · intro definition
    refine ⟨_, rfl, ?_, by simp⟩
    refine .required (by simp) rfl ?_
    refine .required (by simp) rfl ?_
    refine .optional (by simp) (option?_ofOption _) ?_
    refine .required (by simp) (list?_ofStrings _) ?_
    refine .required (by simp) (IndexKind.roundTrips.undone _) ?_
    refine .required (by simp) rfl ?_
    exact .pure _

end IndexDefinition

namespace ColumnAction

private theorem orderless_changeType : Orderless changeTypeOfJson? := by
  apply orderless_members
  refine .bind (.required _ orderless_text) fun column => ?_
  refine .bind (.required _ orderless_text) fun dataType => ?_
  exact .pure _

private theorem orderless_setNullable : Orderless setNullableOfJson? := by
  apply orderless_members
  refine .bind (.required _ orderless_text) fun column => ?_
  refine .bind (.required _ orderless_flag) fun nullable => ?_
  exact .pure _

private theorem orderless_setDefault : Orderless setDefaultOfJson? := by
  apply orderless_members
  refine .bind (.required _ orderless_text) fun column => ?_
  refine .bind (.optional _ orderless_text) fun expression => ?_
  exact .pure _

theorem roundTrips : RoundTrips toJson ofJson? := by
  apply RoundTrips.of
  · intro value value' h
    rcases choice?_reordered h with hsame | ⟨name, data, data', hvalue, hvalue', hdata⟩
    · rw [ofJson?, ofJson?, hsame]
    · simp only [ofJson?, hvalue, hvalue']
      split
      next heq =>
        cases heq
        exact Column.roundTrips.decoder.map add _ _ hdata
      next heq =>
        cases heq
        exact orderless_text.map drop _ _ hdata
      next heq =>
        cases heq
        exact orderless_changeType _ _ hdata
      next heq =>
        cases heq
        exact orderless_setNullable _ _ hdata
      next heq =>
        cases heq
        exact orderless_setDefault _ _ hdata
      next => simp_all
  · intro action
    cases action with
    | add column => exact congrArg (Option.map add) (Column.roundTrips.undone column)
    | drop name => rfl
    | changeType column dataType => rfl
    | setNullable column nullable => rfl
    | setDefault column expression => cases expression <;> rfl

end ColumnAction

namespace ConstraintKind

private theorem orderless_referential : Orderless referentialOfJson? := by
  apply orderless_members
  refine .bind (.required _ orderless_text) fun refTable => ?_
  refine .bind (.required _ orderless_text.list) fun refColumns => ?_
  exact .pure _

theorem roundTrips : RoundTrips toJson ofJson? := by
  apply RoundTrips.of
  · intro value value' h
    rcases choice?_reordered h with hsame | ⟨name, data, data', hvalue, hvalue', hdata⟩
    · rw [ofJson?, ofJson?, hsame]
    · simp only [ofJson?, hvalue, hvalue']
      split
      next heq =>
        cases heq
        exact plain_reordered primaryKey hdata
      next heq =>
        cases heq
        exact plain_reordered unique hdata
      next heq =>
        cases heq
        exact orderless_referential _ _ hdata
      next heq =>
        cases heq
        exact orderless_text.map check _ _ hdata
      next => simp_all
  · intro kind
    cases kind with
    | referential refTable refColumns =>
      refine members?_of_reads_all ?_ (by simp)
      refine .required (by simp) rfl ?_
      refine .required (by simp) (list?_ofStrings refColumns) ?_
      exact .pure _
    | _ => rfl

end ConstraintKind

namespace ColumnChange

theorem roundTrips : RecordRoundTrips toJson ofJson? [] [] := by
  apply RecordRoundTrips.of
  · refine .bind (.required _ orderless_text) fun schema => ?_
    refine .bind (.required _ orderless_text) fun table => ?_
    refine .bind (.required _ ColumnAction.roundTrips.decoder) fun action => ?_
    exact .pure _
  · intro change
    refine ⟨_, rfl, ?_, by simp⟩
    refine .required (by simp) rfl ?_
    refine .required (by simp) rfl ?_
    refine .required (by simp) (ColumnAction.roundTrips.undone _) ?_
    exact .pure _

end ColumnChange

namespace ConstraintDefinition

theorem roundTrips : RecordRoundTrips toJson ofJson? [] ["constraint_name"] := by
  apply RecordRoundTrips.of
  · refine .bind (.required _ orderless_text) fun schema => ?_
    refine .bind (.required _ orderless_text) fun table => ?_
    refine .bind (.optional _ orderless_text) fun constraintName => ?_
    refine .bind (.required _ ConstraintKind.roundTrips.decoder) fun kind => ?_
    refine .bind (.required _ orderless_text.list) fun columns => ?_
    exact .pure _
  · intro definition
    refine ⟨_, rfl, ?_, by simp⟩
    refine .required (by simp) rfl ?_
    refine .required (by simp) rfl ?_
    refine .optional (by simp) (option?_ofOption _) ?_
    refine .required (by simp) (ConstraintKind.roundTrips.undone _) ?_
    refine .required (by simp) (list?_ofStrings _) ?_
    exact .pure _

end ConstraintDefinition

namespace Statement

private theorem orderless_createSchema : Orderless createSchemaOfJson? := by
  apply orderless_members
  refine .bind (.required _ orderless_text) fun name => ?_
  refine .bind (.required _ orderless_flag) fun ifNotExists => ?_
  exact .pure _

private theorem orderless_dropSchema : Orderless dropSchemaOfJson? := by
  apply orderless_members
  refine .bind (.required _ orderless_text) fun name => ?_
  refine .bind (.required _ orderless_flag) fun ifExists => ?_
  exact .pure _

private theorem orderless_drop (drop : String → String → Bool → Statement) :
    Orderless (dropOfJson? drop) := by
  apply orderless_members
  refine .bind (.required _ orderless_text) fun schema => ?_
  refine .bind (.required _ orderless_text) fun name => ?_
  refine .bind (.required _ orderless_flag) fun ifExists => ?_
  exact .pure _

private theorem orderless_createSequence : Orderless createSequenceOfJson? := by
  apply orderless_members
  refine .bind (.required _ orderless_text) fun schema => ?_
  refine .bind (.required _ orderless_text) fun name => ?_
  refine .bind (.required _ orderless_int64) fun start => ?_
  refine .bind (.required _ orderless_int64) fun increment => ?_
  exact .pure _

private theorem orderless_createConstant : Orderless createConstantOfJson? := by
  apply orderless_members
  refine .bind (.required _ orderless_text) fun schema => ?_
  refine .bind (.required _ orderless_text) fun name => ?_
  refine .bind (.required _ orderless_text) fun value => ?_
  exact .pure _

private theorem orderless_createFunctionAlias : Orderless createFunctionAliasOfJson? := by
  apply orderless_members
  refine .bind (.required _ orderless_text) fun schema => ?_
  refine .bind (.required _ orderless_text) fun name => ?_
  refine .bind (.required _ orderless_text) fun target => ?_
  refine .bind (.required _ orderless_flag) fun deterministic => ?_
  exact .pure _

private theorem orderless_rename : Orderless renameOfJson? := by
  apply orderless_members
  refine .bind (.required _ orderless_text) fun schema => ?_
  refine .bind (.required _ ObjectKind.roundTrips.decoder) fun kind => ?_
  refine .bind (.required _ orderless_text) fun oldName => ?_
  refine .bind (.required _ orderless_text) fun newName => ?_
  exact .pure _

private theorem orderless_truncateTable : Orderless truncateTableOfJson? := by
  apply orderless_members
  refine .bind (.required _ orderless_text) fun schema => ?_
  refine .bind (.required _ orderless_text) fun name => ?_
  exact .pure _

private theorem orderless_reader {name : String} {reader : Json → Option Statement}
    (h : reader? name = some reader) : Orderless reader := by
  rw [reader?.eq_def] at h
  split at h <;> cases h
  · exact orderless_createSchema
  · exact orderless_dropSchema
  · exact TableDefinition.roundTrips.decoder.map createTable
  · exact orderless_drop dropTable
  · exact IndexDefinition.roundTrips.decoder.map createIndex
  · exact orderless_drop dropIndex
  · exact orderless_createSequence
  · exact orderless_createConstant
  · exact orderless_createFunctionAlias
  · exact orderless_rename
  · exact ColumnChange.roundTrips.decoder.map alterColumn
  · exact ConstraintDefinition.roundTrips.decoder.map addConstraint
  · exact orderless_truncateTable
  · exact DmlKind.roundTrips.decoder.map dml
  · exact TransactionKind.roundTrips.decoder.map transaction

theorem roundTrips : RoundTrips toJson ofJson? := by
  apply RoundTrips.of
  · intro value value' h
    rcases choice?_reordered h with hsame | ⟨name, data, data', hvalue, hvalue', hdata⟩
    · rw [ofJson?, ofJson?, hsame]
    · simp only [ofJson?, hvalue, hvalue']
      cases hreader : reader? name with
      | none => rfl
      | some reader => exact orderless_reader hreader _ _ hdata
  · intro statement
    cases statement with
    | createTable definition =>
      exact congrArg (Option.map createTable) (TableDefinition.roundTrips.undone definition)
    | createIndex definition =>
      exact congrArg (Option.map createIndex) (IndexDefinition.roundTrips.undone definition)
    | createSequence schema name start increment =>
      refine members?_of_reads_all ?_ (by simp)
      refine .required (by simp) rfl ?_
      refine .required (by simp) rfl ?_
      refine .required (by simp) (int64?_toInt start) ?_
      refine .required (by simp) (int64?_toInt increment) ?_
      exact .pure _
    | rename schema kind oldName newName =>
      refine members?_of_reads_all ?_ (by simp)
      refine .required (by simp) rfl ?_
      refine .required (by simp) (ObjectKind.roundTrips.undone kind) ?_
      refine .required (by simp) rfl ?_
      refine .required (by simp) rfl ?_
      exact .pure _
    | alterColumn change =>
      exact congrArg (Option.map alterColumn) (ColumnChange.roundTrips.undone change)
    | addConstraint definition =>
      exact congrArg (Option.map addConstraint) (ConstraintDefinition.roundTrips.undone definition)
    | dml kind => exact congrArg (Option.map dml) (DmlKind.roundTrips.undone kind)
    | transaction kind =>
      exact congrArg (Option.map transaction) (TransactionKind.roundTrips.undone kind)
    | _ => rfl

end Statement

/-- Statements, all types of data that are nested in them, and settings. The records come with what
their objects may leave out. -/
theorem roundTrips_all :
    RoundTrips Statement.toJson Statement.ofJson? ∧
    RecordRoundTrips TableDefinition.toJson TableDefinition.ofJson? [] [] ∧
    RecordRoundTrips Column.toJson Column.ofJson?
      [("nullable", .bool true), ("default_expression", .null)] ["computed"] ∧
    RecordRoundTrips IndexDefinition.toJson IndexDefinition.ofJson? [] ["index_name"] ∧
    RecordRoundTrips ColumnChange.toJson ColumnChange.ofJson? [] [] ∧
    RecordRoundTrips ConstraintDefinition.toJson ConstraintDefinition.ofJson? []
      ["constraint_name"] ∧
    RecordRoundTrips Settings.toJson Settings.ofJson?
      [("name", .string Settings.standard.name),
        ("ignore_case", .bool Settings.standard.ignoreCase),
        ("main_schema", .string Settings.standard.mainSchema),
        ("info_schema", .string Settings.standard.infoSchema),
        ("admin_user", .string Settings.standard.adminUser)] [] ∧
    RoundTrips ColumnAction.toJson ColumnAction.ofJson? ∧
    (∀ column, ColumnAction.ofJson?
      (.object [("SetDefault", .object [("column", .string column)])]) =
        some (.setDefault column none)) ∧
    RoundTrips ConstraintKind.toJson ConstraintKind.ofJson? ∧
    RoundTrips TableKind.toJson TableKind.ofJson? ∧
    RoundTrips TableScope.toJson TableScope.ofJson? ∧
    RoundTrips IndexKind.toJson IndexKind.ofJson? ∧
    RoundTrips ObjectKind.toJson ObjectKind.ofJson? ∧
    RoundTrips DmlKind.toJson DmlKind.ofJson? ∧
    RoundTrips TransactionKind.toJson TransactionKind.ofJson? :=
  ⟨Statement.roundTrips, TableDefinition.roundTrips, Column.roundTrips, IndexDefinition.roundTrips,
    ColumnChange.roundTrips, ConstraintDefinition.roundTrips, Settings.roundTrips,
    ColumnAction.roundTrips, fun _ => rfl, ConstraintKind.roundTrips, TableKind.roundTrips,
    TableScope.roundTrips, IndexKind.roundTrips, ObjectKind.roundTrips, DmlKind.roundTrips,
    TransactionKind.roundTrips⟩

end SchemaCatalog
