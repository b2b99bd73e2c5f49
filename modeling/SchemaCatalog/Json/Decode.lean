/-!
# JSON values and their decoding

Values as a JSON text denotes them. Whole numbers are exact; a number written with a fraction or an
exponent keeps its text. A text may hold a string that denotes no characters, an unpaired half of a
surrogate pair: it can be passed over but not read.

A record is read from an object, whose unknown members are passed over, or from an array of its
fields in order. A choice without data is its name, and one with data an object whose only member
has that name. Nothing is converted: `1` is no text, and `1.0` no whole number.
-/
namespace SchemaCatalog

inductive Json where
  | null
  | bool (b : Bool)
  | integer (n : Int)
  | decimal (text : String)
  | string (s : String)
  | array (items : List Json)
  | object (members : List (String × Json))
  | unreadable
deriving Inhabited

namespace Json

/-- Nothing as `null`, and a value as itself. -/
def ofOption {α : Type} (encode : α → Json) : Option α → Json
  | none => null
  | some a => encode a

def ofNat (n : Nat) : Json :=
  integer n

def ofStrings (texts : List String) : Json :=
  array (texts.map string)

def text? : Json → Option String
  | string s => some s
  | _ => none

def flag? : Json → Option Bool
  | bool b => some b
  | _ => none

def word32? : Json → Option UInt32
  | integer n => if 0 ≤ n ∧ n < 0x100000000 then some (UInt32.ofNat n.toNat) else none
  | _ => none

/-- A count that fits into 64 bits. -/
def count? : Json → Option Nat
  | integer n => if 0 ≤ n ∧ n < 0x10000000000000000 then some n.toNat else none
  | _ => none

def int64? : Json → Option Int64
  | integer n =>
    if -0x8000000000000000 ≤ n ∧ n < 0x8000000000000000 then some (Int64.ofInt n) else none
  | _ => none

def list? {α : Type} (decode : Json → Option α) : Json → Option (List α)
  | array items => items.mapM decode
  | _ => none

def option? {α : Type} (decode : Json → Option α) : Json → Option (Option α)
  | null => some none
  | value => (decode value).map some

/-- What a record is read from: members by name, or values in the order of the fields. -/
inductive FieldSource where
  | named (members : List (String × Json))
  | listed (items : List Json)

/-- Reads fields one after the other. -/
abbrev FieldReader := StateT FieldSource Option

/-- The value of the next field, `absent` where the source holds none. A field that is named twice
has no value. -/
def field {α : Type} (name : String) (decode : Json → Option α)
    (absent : FieldSource → Option α) : FieldReader α := fun source =>
  match source with
  | .named members =>
    match members.filter (·.1 == name) with
    | [] => (absent source).map (·, source)
    | [member] => (decode member.2).map (·, source)
    | _ => none
  | .listed [] => (absent source).map (·, source)
  | .listed (item :: items) => (decode item).map (·, .listed items)

/-- A field that has to be given. -/
def required {α : Type} (name : String) (decode : Json → Option α) : FieldReader α :=
  field name decode fun _ => none

/-- A field that may be `null`, and that an object may leave out. -/
def optional {α : Type} (name : String) (decode : Json → Option α) : FieldReader (Option α) :=
  field name (option? decode) fun
    | .named _ => some none
    | .listed _ => none

/-- A field that may be left out, also at the end of an array. -/
def defaulted {α : Type} (name : String) (decode : Json → Option α) (fallback : α) :
    FieldReader α :=
  field name decode fun _ => some fallback

/-- A record from the members of an object. -/
def members? {α : Type} (reader : FieldReader α) : Json → Option α
  | object members => (reader (.named members)).map (·.1)
  | _ => none

/-- A record from an object, or from an array that holds nothing beyond its fields. -/
def record? {α : Type} (reader : FieldReader α) : Json → Option α
  | object members => members? reader (object members)
  | array items =>
    match reader (.listed items) with
    | some (a, .listed []) => some a
    | _ => none
  | _ => none

/-- The name of a choice and its data, if any. -/
def choice? : Json → Option (String × Option Json)
  | string name => some (name, none)
  | object [(name, data)] => some (name, some data)
  | _ => none

/-- A choice without data, which may be written as `null`. -/
def plain {α : Type} (a : α) : Option Json → Option α
  | none => some a
  | some null => some a
  | some _ => none

/-- A choice with data. -/
def carrying {α : Type} (decode : Json → Option α) : Option Json → Option α
  | none => none
  | some data => decode data

/-- A choice by name among those that carry no data. -/
def plainChoice? {α : Type} (choices : List (String × α)) (value : Json) : Option α := do
  let (name, data) ← choice? value
  plain (← choices.lookup name) data

end Json

end SchemaCatalog
