import SchemaCatalog.Json.Decode
import SchemaCatalog.NameMap
import SchemaCatalog.Store
import SchemaCatalog.Text.Graphic
/-!
# Users and sessions

A principal names a user by id and name; schemas and sessions keep it without keeping the user. A
session runs statements for a user and owns local temporary tables and their indexes, which no
other session sees.
-/
namespace SchemaCatalog

structure Principal where
  id : UInt32
  name : String
deriving DecidableEq, Inhabited

structure User where
  id : UInt32
  name : String
  admin : Bool
deriving DecidableEq, Inhabited

/-- The principal under which a user owns schemas. -/
def User.principal (user : User) : Principal :=
  ⟨user.id, user.name⟩

def Principal.toJson (principal : Principal) : Json :=
  .object [("id", .ofNat principal.id.toNat), ("name", .string principal.name)]

def Principal.ofJson? : Json → Option Principal :=
  Json.record? do
    let id ← Json.required "id" Json.word32?
    let name ← Json.required "name" Json.text?
    return { id, name }

def User.toJson (user : User) : Json :=
  .object [("id", .ofNat user.id.toNat), ("name", .string user.name), ("admin", .bool user.admin)]

def User.ofJson? : Json → Option User :=
  Json.record? do
    let id ← Json.required "id" Json.word32?
    let name ← Json.required "name" Json.text?
    let admin ← Json.required "admin" Json.flag?
    return { id, name, admin }

structure Session where
  user : Principal
  tempTables : NameMap ObjectRef
  tempIndexes : NameMap ObjectRef
  active : Bool
deriving DecidableEq, Inhabited

namespace Session

/-- An open session without temporary objects. -/
def create (user : Principal) (rule : CaseRule) : Session :=
  { user, tempTables := .empty rule, tempIndexes := .empty rule, active := true }

/-- The session as diagnostics show it under an id. -/
def debugText (session : Session) (id : String) : String :=
  let id := Text.quoted id
  let user := Text.quoted session.user.name
  let active := session.active
  s!"Session \x7b session_id: {id}, user: {user}, active: {active} \x7d"

end Session

end SchemaCatalog
