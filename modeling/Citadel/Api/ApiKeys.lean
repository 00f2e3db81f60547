import Citadel.Api.Access

/-!
# API keys

The store of API keys, the authorization of the routes that administer it, and those
routes. The store only grows: a key is never removed, only deactivated. What a route
draws at random, reads from the clock or meets when it saves the file is an argument.
-/

namespace Citadel.Api

/-- `ApiKeyEntry`. -/
structure ApiKeyEntry where
  id : String
  name : String
  keyHash : String
  scopes : List Scope
  createdAt : String
  active : Bool
  lastUsed : Option String
  /-- `none` is global; a list confines the key to the domains in it. -/
  allowedDomains : Option (List String)
  deriving DecidableEq, Repr

/-- The context of a caller that authenticated with an entry. -/
def ApiKeyEntry.context (entry : ApiKeyEntry) : AuthContext :=
  ⟨entry.id, entry.name, entry.scopes, entry.allowedDomains⟩

/-- `ApiKeyInfo`: an entry as the listing shows it. -/
structure ApiKeyInfo where
  id : String
  name : String
  scopes : List Scope
  createdAt : String
  active : Bool
  lastUsed : Option String
  allowedDomains : Option (List String)
  deriving DecidableEq, Repr

/-- `ApiKeyStore`. -/
structure ApiKeyStore where
  keys : List ApiKeyEntry
  deriving DecidableEq, Repr

/-- Change the first entry that is wanted (`iter_mut().find`). -/
def updateFirst (wanted : ApiKeyEntry → Bool) (change : ApiKeyEntry → ApiKeyEntry) :
    List ApiKeyEntry → List ApiKeyEntry
  | [] => []
  | entry :: rest =>
      if wanted entry then change entry :: rest else entry :: updateFirst wanted change rest

namespace ApiKeyStore

/-- `ApiKeyStore::authenticate`. -/
def authenticate (store : ApiKeyStore) (providedHash : SizedBytes 32) : Option ApiKeyEntry :=
  store.keys.find? fun entry => entry.active && entry.keyHash == hexEncode providedHash.1

/-- `ApiKeyStore::add`. -/
def add (store : ApiKeyStore) (entry : ApiKeyEntry) : ApiKeyStore := ⟨store.keys ++ [entry]⟩

/-- `ApiKeyStore::deactivate`. -/
def deactivate (store : ApiKeyStore) (id : String) : ApiKeyStore :=
  ⟨updateFirst (fun entry => entry.id == id) (fun entry => { entry with active := false })
    store.keys⟩

/-- `ApiKeyStore::touch`. -/
def touch (store : ApiKeyStore) (id now : String) : ApiKeyStore :=
  ⟨updateFirst (fun entry => entry.id == id) (fun entry => { entry with lastUsed := some now })
    store.keys⟩

/-- `ApiKeyStore::list_info`. -/
def listInfo (store : ApiKeyStore) : List ApiKeyInfo :=
  store.keys.map fun entry => ⟨entry.id, entry.name, entry.scopes, entry.createdAt, entry.active,
    entry.lastUsed, entry.allowedDomains⟩

end ApiKeyStore

/-- The admin key that `bootstrap_api_keys` makes of the configured hash. -/
def bootstrapEntry (hash : SizedBytes 32) (createdAt : String) : ApiKeyEntry where
  id := "ck_bootstrap"
  name := "bootstrap-admin"
  keyHash := hexEncode hash.1
  scopes := [.admin]
  createdAt := createdAt
  active := true
  lastUsed := none
  allowedDomains := none

/-- The store that `bootstrap_api_keys` starts from when there are no keys. -/
def bootstrapStore (hash : SizedBytes 32) (createdAt : String) : ApiKeyStore :=
  ⟨[bootstrapEntry hash createdAt]⟩

/-- `ApiKeyAction`. -/
inductive ApiKeyAction where
  | createApiKey (scopes : List Scope) (allowedDomains : Option (List String))
  | listApiKeys
  | revokeApiKey (targetKey : ApiKeyEntry)
  deriving DecidableEq, Repr

/-- Whether a key is a global admin key. -/
def ApiKeyEntry.isGlobalAdmin (entry : ApiKeyEntry) : Bool :=
  entry.allowedDomains.isNone && entry.scopes.contains .admin

/-- Rule 3: a scoped admin creates keys only for domains of its own. -/
def checkDomains (adminDomains targetDomains : Option (List String)) : Except ApiError Unit :=
  match targetDomains, adminDomains with
  | some target, some admin =>
      match target.find? fun domain => !admin.contains domain with
      | some domain => .error ⟨.forbidden,
          s!"scoped admin cannot create API key for domain '{domain}' outside allowed domains"⟩
      | none => .ok ()
  | _, _ => .ok ()

/-- Rule 4: a scoped admin grants only scopes of its own. -/
def checkScopes (adminScopes scopes : List Scope) : Except ApiError Unit :=
  match scopes.find? fun scope => !adminScopes.contains scope with
  | some scope => .error ⟨.forbidden,
      s!"scoped admin cannot grant scope '{scope.debug}' they do not have"⟩
  | none => .ok ()

/-- Rule 6: a scoped admin revokes only keys whose domains are all its own. -/
def checkRevoked (adminDomains targetDomains : Option (List String)) : Except ApiError Unit :=
  match targetDomains with
  | none => .ok ()
  | some target =>
      match adminDomains with
      | some admin =>
          if target.all admin.contains then .ok ()
          else .error ⟨.forbidden, "scoped admin cannot revoke API key outside allowed domains"⟩
      | none => .error ⟨.forbidden, "invalid admin configuration"⟩

/-- `authorize_api_key_admin_action`. -/
def authorizeApiKeyAdminAction (auth : AuthContext) (action : ApiKeyAction) : Except ApiError Unit :=
  if auth.isGlobalAdmin then .ok ()
  else
    match action with
    | .createApiKey scopes allowedDomains =>
        if allowedDomains = none then
          .error ⟨.forbidden, "scoped admin cannot create global API keys"⟩
        else if .admin ∈ scopes then
          .error ⟨.forbidden, "scoped admin cannot create admin API keys"⟩
        else do
          checkDomains auth.allowedDomains allowedDomains
          checkScopes auth.scopes scopes
    | .listApiKeys => .ok ()
    | .revokeApiKey targetKey =>
        if targetKey.isGlobalAdmin then
          .error ⟨.forbidden, "scoped admin cannot revoke global admin API keys"⟩
        else checkRevoked auth.allowedDomains targetKey.allowedDomains

/-- `CreateApiKeyReq`. -/
structure CreateApiKeyReq where
  name : String
  scopes : List String
  allowedDomains : Option (List String)
  deriving DecidableEq, Repr

/-- What the creation of a key draws and meets: the random bytes of the key and of its
identifier, the time, and how saving the file ends. -/
structure KeyDraw where
  secret : SizedBytes 32
  id : SizedBytes 8
  now : String
  saved : Except String Unit

/-- `generate_key_id`. -/
def generateKeyId (random : SizedBytes 8) : String := "ck_" ++ hexEncode random.1

/-- The scopes of a creation request, each once. -/
def parseScopes : List Scope → List String → Except ApiError (List Scope)
  | scopes, [] => .ok scopes
  | scopes, name :: rest =>
      match Scope.fromStr name with
      | some scope => parseScopes (if scopes.contains scope then scopes else scopes ++ [scope]) rest
      | none => .error (err
          s!"invalid scope '{name}' - valid: read, encrypt, manage, admin")

/-- The rules about the domains of a new key. -/
def checkScoping (allowedDomains : Option (List String)) (isAdmin : Bool) : Except ApiError Unit :=
  match allowedDomains, isAdmin with
  | some [], true => .error (err ("empty allowed_domains list is invalid - use null for global " ++
      "admin or specify domains"))
  | none, false => .error (err "non-admin API keys must be scoped to at least one domain")
  | some [], false => .error (err
      "empty allowed_domains list is invalid - specify at least one domain")
  | _, _ => .ok ()

/-- The checks of `create_api_key`, with the scopes of the new key. -/
def admitApiKey (auth : AuthContext) (req : CreateApiKeyReq) : Except ApiError (List Scope) :=
  if req.name = "" ∨ 100 < (utf8 req.name).length then .error (err "name must be 1-100 characters")
  else do
    let scopes ← parseScopes [] req.scopes
    if scopes = [] then .error (err "at least one scope required")
    else do
      authorizeApiKeyAdminAction auth (.createApiKey scopes req.allowedDomains)
      checkScoping req.allowedDomains (scopes.contains .admin)
      return scopes

/-- The body of the response of `create_api_key`. -/
structure CreatedApiKey where
  keyId : String
  name : String
  apiKey : String
  scopes : List Scope
  deriving DecidableEq, Repr

/-- The entry of a new key. -/
def newApiKeyEntry (hashApiKey : String → SizedBytes 32) (req : CreateApiKeyReq)
    (scopes : List Scope) (draw : KeyDraw) : ApiKeyEntry where
  id := generateKeyId draw.id
  name := req.name
  keyHash := hexEncode (hashApiKey (hexEncode draw.secret.1)).1
  scopes := scopes
  createdAt := draw.now
  active := true
  lastUsed := none
  allowedDomains := req.allowedDomains

/-- `create_api_key`. The new key is in the store even when the file cannot be saved. -/
def createApiKey (hashApiKey : String → SizedBytes 32) (auth : AuthContext) (req : CreateApiKeyReq)
    (draw : KeyDraw) (store : ApiKeyStore) : Except ApiError CreatedApiKey × ApiKeyStore :=
  match admitApiKey auth req with
  | .error error => (.error error, store)
  | .ok scopes =>
      let grown := store.add (newApiKeyEntry hashApiKey req scopes draw)
      match draw.saved with
      | .error error => (.error (err500 s!"failed to save: {error}"), grown)
      | .ok () => (.ok ⟨generateKeyId draw.id, req.name, hexEncode draw.secret.1, scopes⟩, grown)

/-- The checks of `revoke_api_key`, with the entry to deactivate. -/
def admitRevocation (auth : AuthContext) (id : String) (store : ApiKeyStore) :
    Except ApiError ApiKeyEntry :=
  match store.keys.find? fun entry => entry.id == id with
  | none => .error (err s!"API key '{id}' not found")
  | some target => do
      authorizeApiKeyAdminAction auth (.revokeApiKey target)
      if target.active = false then .error (err s!"API key '{id}' already revoked")
      -- the protection of the last admin counts scoped admins as well
      else if .admin ∈ target.scopes ∧ (store.keys.countP fun entry =>
          entry.id != id && entry.active && entry.scopes.contains .admin) = 0 then
        .error (err "cannot revoke the last admin key")
      else return target

/-- `revoke_api_key`. The key is deactivated even when the file cannot be saved. -/
def revokeApiKey (auth : AuthContext) (id : String) (saved : Except String Unit)
    (store : ApiKeyStore) : Except ApiError Unit × ApiKeyStore :=
  match admitRevocation auth id store with
  | .error error => (.error error, store)
  | .ok _ =>
      let shrunk := store.deactivate id
      match saved with
      | .error error => (.error (err500 s!"failed to save: {error}"), shrunk)
      | .ok () => (.ok (), shrunk)

/-- `list_api_keys`. -/
def listApiKeys (auth : AuthContext) (store : ApiKeyStore) : Except ApiError (List ApiKeyInfo) := do
  authorizeApiKeyAdminAction auth .listApiKeys
  if auth.isGlobalAdmin then return store.listInfo
  else
    match auth.allowedDomains with
    | some adminDomains =>
        return store.listInfo.filter fun info =>
          match info.allowedDomains with
          | some keyDomains => keyDomains.all adminDomains.contains
          | none => false
    | none => return []

/-- `auth_middleware`, up to the route: the entry that the caller authenticated with.
What it presents is the hash of its bearer token, if there is one. -/
def authorizeRequest (store : ApiKeyStore) (required : Scope) (presented : Option (SizedBytes 32)) :
    Except ApiError ApiKeyEntry :=
  if store.keys.isEmpty then
    .error ⟨.serviceUnavailable, "Server is not configured: no API keys are registered. " ++
      "Set CITADEL_API_KEY_HASH and restart."⟩
  else
    match presented with
    | none => .error ⟨.unauthorized,
        "missing Authorization header (use: Bearer <api-key>)"⟩
    | some hash =>
        match store.authenticate hash with
        | none => .error ⟨.unauthorized, "authentication failed"⟩
        | some entry =>
            if hasScope entry.scopes required then .ok entry
            else .error ⟨.forbidden,
              s!"insufficient scope: requires '{required.asStr}' permission"⟩

end Citadel.Api
