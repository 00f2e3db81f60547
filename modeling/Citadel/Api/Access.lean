import Citadel.Data.Bytes

/-!
# Who may call the API

The scopes of an API key, the scope that each route requires, and the context of an
authenticated caller. A caller without a list of domains is global; one with a list is
confined to it. The request identifiers in responses are random labels and left out.
-/

namespace Citadel.Api

/-- The status codes of the routes. -/
inductive StatusCode where
  | ok
  | created
  | badRequest
  | unauthorized
  | forbidden
  | notFound
  | unprocessableEntity
  | internalServerError
  | serviceUnavailable
  deriving DecidableEq, Repr

/-- A response that carries an `ApiError`. -/
structure ApiError where
  status : StatusCode
  error : String
  deriving DecidableEq, Repr

/-- `err`. -/
def err (message : String) : ApiError := ⟨.badRequest, message⟩

/-- `err500`. -/
def err500 (message : String) : ApiError := ⟨.internalServerError, message⟩

/-- `Scope`. -/
inductive Scope where
  | read
  | encrypt
  | manage
  | admin
  deriving DecidableEq, Repr

namespace Scope

/-- `Scope::from_str`. -/
def fromStr : String → Option Scope
  | "read" => some .read
  | "encrypt" => some .encrypt
  | "manage" => some .manage
  | "admin" => some .admin
  | _ => none

/-- `Scope::as_str`. -/
def asStr : Scope → String
  | .read => "read"
  | .encrypt => "encrypt"
  | .manage => "manage"
  | .admin => "admin"

/-- `Debug for Scope`. -/
def debug : Scope → String
  | .read => "Read"
  | .encrypt => "Encrypt"
  | .manage => "Manage"
  | .admin => "Admin"

end Scope

/-- `has_scope`. -/
def hasScope (granted : List Scope) (required : Scope) : Bool :=
  if granted.contains .admin then true else granted.contains required

/-- `str::starts_with`. -/
def startsWith (text start : String) : Bool := start.toList.isPrefixOf text.toList

/-- `str::ends_with`. -/
def endsWith (text ending : String) : Bool := ending.toList.isSuffixOf text.toList

/-- `required_scope`. -/
def requiredScope (path method : String) : Option Scope :=
  if path = "/" ∨ path = "/health" then none
  else if path = "/api/auth/whoami" then some .read
  else if startsWith path "/api/auth/" then some .admin
  else if endsWith path "/encrypt" ∨ path = "/api/decrypt" then some .encrypt
  else if endsWith path "/sign" ∨ path = "/api/assertions/issue" then some .encrypt
  else if path = "/api/verify" ∨ endsWith path "/verifying-key" ∨ path = "/api/assertions/verify" then
    some .read
  else if method = "POST" ∨ method = "DELETE" then some .manage
  else some .read

/-- A path below `/api/auth/` that is not the caller's own page is for admins. -/
theorem requiredScope_auth {rest method : String} (other : "/api/auth/" ++ rest ≠ "/api/auth/whoami") :
    requiredScope ("/api/auth/" ++ rest) method = some .admin := by
  have below : startsWith ("/api/auth/" ++ rest) "/api/auth/" = true := by
    rw [startsWith, String.toList_append]
    exact List.isPrefixOf_iff_prefix.mpr (List.prefix_append _ _)
  have elsewhere : ∀ page, startsWith page "/api/auth/" = false → "/api/auth/" ++ rest ≠ page := by
    rintro page outside rfl
    rw [below] at outside
    cases outside
  simp only [requiredScope, other, below, elsewhere "/" (by decide), elsewhere "/health" (by decide),
    or_self, if_false, if_true]

/-- `AuthContext`. -/
structure AuthContext where
  keyId : String
  keyName : String
  scopes : List Scope
  /-- Without a list the caller is global. -/
  allowedDomains : Option (List String)
  deriving DecidableEq, Repr

/-- The check for a global admin that every route makes. -/
def AuthContext.isGlobalAdmin (auth : AuthContext) : Bool :=
  auth.allowedDomains.isNone && auth.scopes.contains .admin

/-- A caller with a list of domains is no global admin. -/
theorem AuthContext.isGlobalAdmin_of_domains {auth : AuthContext} {domains : List String}
    (confined : auth.allowedDomains = some domains) : auth.isGlobalAdmin = false := by
  rw [isGlobalAdmin, confined]
  rfl

/-- `require_global_admin`. -/
def requireGlobalAdmin (auth : AuthContext) : Except ApiError Unit :=
  if auth.isGlobalAdmin then .ok ()
  else
    .error ⟨.forbidden,
      "this endpoint exposes/mutates global state and requires a global admin key"⟩

end Citadel.Api
