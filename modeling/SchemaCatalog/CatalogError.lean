import SchemaCatalog.ObjectKind
/-!
# Catalog errors

Why the catalog refuses an operation. All causes but `internalInvariant` lie in what a user asks
for; that one reports a caller that broke a rule of the catalog.
-/
namespace SchemaCatalog

inductive CatalogError where
  | internalInvariant (detail : String)
  | notFound (kind : ObjectKind) (name : String)
  | alreadyExists (kind : ObjectKind) (name : String)
  | schemaInvalid (name : String)
  | schemaNotFound (name : String)
  | duplicateSchema (name : String)
  | duplicateUser (name : String)
  | userNotFound (name : String)
  | duplicateColumn (table column : String)
  | columnNotFound (table column : String)
  | systemSchema (name : String)
  | cannotDrop (name dependent : String)
  | dependencyCycle (tables : List String)
  | unsupported (feature : String)
deriving DecidableEq, Inhabited

namespace CatalogError

def message : CatalogError → String
  | internalInvariant detail => s!"Internal error: {detail}"
  | notFound kind name => kind.text ++ s!" \"{name}\" not found"
  | alreadyExists kind name => kind.text ++ s!" \"{name}\" already exists"
  | schemaInvalid name => s!"Schema \"{name}\" is no longer valid"
  | schemaNotFound name => s!"Schema \"{name}\" not found"
  | duplicateSchema name => s!"Schema \"{name}\" already exists"
  | duplicateUser name => s!"User \"{name}\" already exists"
  | userNotFound name => s!"User \"{name}\" not found"
  | duplicateColumn table column => s!"Column \"{column}\" already exists in table \"{table}\""
  | columnNotFound table column => s!"Column \"{column}\" not found in table \"{table}\""
  | systemSchema name => s!"Cannot drop system schema \"{name}\""
  | cannotDrop name dependent => s!"Cannot drop \"{name}\" because \"{dependent}\" depends on it"
  | dependencyCycle tables =>
    "Cannot drop: dependency cycle between tables " ++ ", ".intercalate tables
  | unsupported feature => s!"Feature not supported: {feature}"

/-- The error signals a mistake of the caller and not of the user. -/
def isInternal : CatalogError → Bool
  | internalInvariant _ => true
  | _ => false

end CatalogError

end SchemaCatalog
