import SchemaCatalog.Json.Decode
/-!
# Writing JSON text

The compact text of a value in ASCII: characters above `~` are written as UTF-16 units.
-/
namespace SchemaCatalog.Json

/-- A UTF-16 unit as an escape of four digits. -/
def unitEscape (n : Nat) : String :=
  let digits := Nat.toDigits 16 n
  String.ofList (['\\', 'u'] ++ List.replicate (4 - digits.length) '0' ++ digits)

def charEscape (c : Char) : String :=
  let n := c.toNat
  if c = '"' then "\\\"" else if c = '\\' then "\\\\"
  else if 0x20 ≤ n && n ≤ 0x7E then c.toString
  else if n < 0x10000 then unitEscape n
  else unitEscape (0xD800 + (n - 0x10000) / 0x400) ++ unitEscape (0xDC00 + (n - 0x10000) % 0x400)

/-- Append a string literal to `out`. -/
def writeString (out s : String) : String :=
  s.toList.foldl (fun out c => out ++ charEscape c) (out ++ "\"") ++ "\""

mutual

/-- Append the text of a value to `out`. -/
def write (out : String) : Json → String
  | null => out ++ "null"
  | unreadable => out ++ "null"
  | bool b => out ++ if b then "true" else "false"
  | integer n => out ++ toString n
  | decimal text => out ++ text
  | string s => writeString out s
  | array [] => out ++ "[]"
  | array (item :: items) => writeItems (write (out ++ "[") item) items ++ "]"
  | object [] => out ++ "\x7b\x7d"
  | object ((key, value) :: members) =>
    writeMembers (write (writeString (out ++ "\x7b") key ++ ":") value) members ++ "\x7d"

def writeItems (out : String) : List Json → String
  | [] => out
  | item :: items => writeItems (write (out ++ ",") item) items

def writeMembers (out : String) : List (String × Json) → String
  | [] => out
  | (key, value) :: members =>
    writeMembers (write (writeString (out ++ ",") key ++ ":") value) members

end

/-- The compact text of a value. -/
def text (value : Json) : String :=
  write "" value

end SchemaCatalog.Json
