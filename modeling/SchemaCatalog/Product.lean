import SchemaCatalog.Json.Decode
import SchemaCatalog.Json.Reader
import SchemaCatalog.NameMap
/-!
# The product and its settings

The name and version of the product, and what a database is set up with. Every setting has a
default; a settings document is a JSON text.
-/
namespace SchemaCatalog

def Product.name : String := "shardlite"

def Product.version : String := "0.0.1"

structure Settings where
  name : String
  ignoreCase : Bool
  mainSchema : String
  infoSchema : String
  adminUser : String
deriving DecidableEq

namespace Settings

def standard : Settings :=
  { name := "SHARDLITE", ignoreCase := false, mainSchema := "PUBLIC",
    infoSchema := "INFORMATION_SCHEMA", adminUser := "SA" }

instance : Inhabited Settings := ⟨standard⟩

/-- How the database compares names. -/
def rule (settings : Settings) : CaseRule :=
  .ofIgnoreCase settings.ignoreCase

def toJson (settings : Settings) : Json :=
  .object [
    ("name", .string settings.name),
    ("ignore_case", .bool settings.ignoreCase),
    ("main_schema", .string settings.mainSchema),
    ("info_schema", .string settings.infoSchema),
    ("admin_user", .string settings.adminUser)]

def ofJson? : Json → Option Settings :=
  Json.record? do
    let name ← Json.defaulted "name" Json.text? standard.name
    let ignoreCase ← Json.defaulted "ignore_case" Json.flag? standard.ignoreCase
    let mainSchema ← Json.defaulted "main_schema" Json.text? standard.mainSchema
    let infoSchema ← Json.defaulted "info_schema" Json.text? standard.infoSchema
    let adminUser ← Json.defaulted "admin_user" Json.text? standard.adminUser
    return { name, ignoreCase, mainSchema, infoSchema, adminUser }

/-- The settings in a JSON text. -/
def ofText? (text : String) : Option Settings :=
  (Json.ofText? text).bind ofJson?

end Settings

end SchemaCatalog
