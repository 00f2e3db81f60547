import Citadel.Api.Service

/-!
# The routes on keys

The handlers, as programs over `Service`: a route fails with the response of an error and
returns the body of its success. Every handler authorizes its caller itself, with its own
operation and its own target.
-/

namespace Citadel.Api

open Envelope Program

/-- `Operation`. -/
inductive Operation where
  | readKey
  | listKeys
  | encrypt
  | decrypt
  | createRoot
  | createDomain
  | createKek
  | createDek
  | createSigningKey
  | activateKey
  | rotateKey
  | revokeKey
  | destroyKey
  deriving DecidableEq, Repr

/-- The response to a caller whose domains do not include the target's. -/
def deniedFor (operation : Operation) (domain : KeyId) : ApiError :=
  match operation with
  | .decrypt => ⟨.badRequest, "operation failed"⟩
  | .encrypt => ⟨.forbidden, s!"access denied for domain {domain.text}"⟩
  | _ => ⟨.forbidden, s!"API key not allowed for domain {domain.text}"⟩

/-- The response to a caller whose target has no domain. -/
def unresolvedFor (operation : Operation) (error : KeystoreError) : ApiError :=
  match operation with
  | .decrypt => ⟨.badRequest, "operation failed"⟩
  | _ => ⟨.badRequest, s!"cannot resolve domain: {error.display}"⟩

/-- The part of `authorize_domain_access` that resolves the domain of the target. -/
def authorizeTarget (auth : AuthContext) (operation : Operation) (target : Option KeyId) :
    Handler (Option KeyId) := do
  let keyId ← Program.ofOption
    ⟨.internalServerError, "target_key_id required for this operation"⟩ target
  let resolved ← ask (.resolveDomainForKey keyId) >>= settle
  match resolved with
  | .error error => .fail (unresolvedFor operation error)
  | .ok domain =>
      match auth.allowedDomains with
      | some allowed =>
          if domain.text ∈ allowed then .ret (some domain) else .fail (deniedFor operation domain)
      | none => .ret (some domain)

/-- `authorize_domain_access`. -/
def authorizeDomainAccess (auth : AuthContext) (operation : Operation) (target : Option KeyId) :
    Handler (Option KeyId) :=
  if auth.isGlobalAdmin then .ret none
  else
    match operation with
    | .listKeys => .ret none
    | .createRoot =>
        .fail ⟨.forbidden, "creating Root or Domain requires global admin access"⟩
    | .createDomain =>
        .fail ⟨.forbidden, "creating Root or Domain requires global admin access"⟩
    | _ => authorizeTarget auth operation target

/-- Ask the enforcer for a context. -/
def authorize (request : Core.Request) : Handler (Except Core.DenialReason Core.AuthorizedContext) :=
  ask (.authorize request)

/-- Ask the enforcer for a context, and answer with its reason when it denies one. -/
def requireAuthorized (request : Core.Request) : Handler Core.AuthorizedContext := do
  match ← authorize request with
  | .error reason => .fail ⟨.forbidden, s!"StateEnforcer denied: {reason.display}"⟩
  | .ok context => .ret context

/-- `KeyResponse`: a record as the API shows it. Instants are shown as texts. -/
structure KeyResponse where
  id : String
  name : String
  keyType : String
  state : String
  version : Nat
  usageCount : Nat
  createdAt : Nat
  updatedAt : Nat
  policyId : Option String
  parentId : Option String
  deriving DecidableEq, Repr

/-- `key_to_response`. -/
def keyToResponse (record : KeyMetadata) : KeyResponse where
  id := record.id.text
  name := record.name
  keyType := record.keyType.debug
  state := record.state.display
  version := (record.versions.getLast?.map KeyVersion.version).getD 0
  usageCount := record.usageCount
  createdAt := record.createdAt
  updatedAt := record.updatedAt
  policyId := record.policyId.map PolicyId.text
  parentId := record.parentId.map KeyId.text

/-- The loop of `list_keys_handler` over the keys that a scoped caller may see. -/
def filterKeys (allowed : List String) : List KeyMetadata → Handler (List KeyResponse)
  | [] => .ret []
  | record :: rest => do
      let resolved ← ask (.resolveDomainForKey record.id) >>= settle
      let later ← filterKeys allowed rest
      match resolved with
      | .ok domain =>
          if domain.text ∈ allowed then .ret (keyToResponse record :: later) else .ret later
      | .error _ => .ret later

/-- `list_keys_handler`. -/
def listKeysHandler (auth : AuthContext) : Handler (List KeyResponse) := do
  match ← ask .listKeys with
  | .error error => .fail (err500 error.display)
  | .ok keys =>
      if auth.isGlobalAdmin then .ret (keys.map keyToResponse)
      else filterKeys (auth.allowedDomains.getD []) keys

/-- `get_key`. -/
def getKey (auth : AuthContext) (id : String) : Handler KeyResponse := do
  let _ ← authorizeDomainAccess auth .readKey (some ⟨id⟩)
  match ← ask (.get ⟨id⟩) >>= settle with
  | .ok record => .ret (keyToResponse record)
  | .error error => .fail (err error.display)

/-- `get_status`, for the numbers it counts. -/
def getStatus (auth : AuthContext) : Handler (Nat × Nat) := do
  Program.ofExcept (fun error : ApiError => error) (requireGlobalAdmin auth)
  match ← ask .listKeys with
  | .error error => .fail (err500 error.display)
  | .ok keys => .ret (keys.length, keys.countP fun record => record.state = .active)

/-- `get_metrics`, `get_threat`, `post_threat_event`, `reset_threat` and `get_policies`. What
they read and change is the threat assessment, which is up to the environment here. -/
def threatRoute (auth : AuthContext) : Handler Unit :=
  Program.ofExcept (fun error : ApiError => error) (requireGlobalAdmin auth)

/-- `expire_due`, with what the response counts. -/
def expireDue (auth : AuthContext) : Handler (Nat × Nat × Nat) := do
  Program.ofExcept (fun error : ApiError => error) (requireGlobalAdmin auth)
  match ← ask .expireDueKeys >>= settle with
  | .ok report => .ret (report.expired.length, report.warnings.length, report.skipped)
  | .error error => .fail (err500 error.display)

/-- The lower case of the characters that have one in ASCII; no name of a key type has
others. -/
def lowered (character : Char) : Char :=
  if character = Char.ofNat 0x212A then 'k' else character.toLower

/-- `parse_key_type`. -/
def parseKeyType (text : String) : Option KeyType :=
  match String.ofList (text.toList.map lowered) with
  | "root" => some .root
  | "domain" => some .domain
  | "kek" => some .keyEncrypting
  | "keyencrypting" => some .keyEncrypting
  | "dek" => some .dataEncrypting
  | "dataencrypting" => some .dataEncrypting
  | "hybrid-id" => some .hybridIdentity
  | "hybrididentity" => some .hybridIdentity
  | "signing" => some .signing
  | "sign" => some .signing
  | _ => none

/-- `GenerateKeyReq`. -/
structure GenerateKeyReq where
  name : String
  keyType : String
  policyId : Option String
  parentId : Option String
  deriving DecidableEq, Repr

/-- The operation that the creation of a key is authorized as. -/
def creationOf : KeyType → Operation
  | .root => .createRoot
  | .domain => .createDomain
  | .keyEncrypting => .createKek
  | .dataEncrypting => .createDek
  | .hybridIdentity => .createDek
  | .signing => .createSigningKey

/-- The call of the keystore that creates a key of one type. -/
def createOfType (req : GenerateKeyReq) (keyType : KeyType) : Handler (Except String KeyId) :=
  let policy := req.policyId.map PolicyId.mk
  let parent := req.parentId.map KeyId.mk
  if keyType = .signing then
    match parent with
    | none => .ret (.error
        "KeyType::Signing requires a parent_id (must be a KeyEncrypting key)")
    | some parentKek => do
        let created ← ask (.generateSigningKey req.name policy parentKek) >>= settle
        .ret (created.mapError CallError.display)
  else do
    let created ← ask (.generate req.name keyType policy parent) >>= settle
    .ret (created.mapError CallError.display)

/-- The domain that a key is registered under. -/
def domainToRegister (id : KeyId) : Handler (Option String) := do
  let resolved ← ask (.resolveDomainForKey id) >>= settle
  .ret (resolved.toOption.map KeyId.text)

/-- `generate_key`. -/
def generateKey (auth : AuthContext) (req : GenerateKeyReq) : Handler KeyId := do
  let keyType ← Program.ofOption (err s!"invalid key_type: {req.keyType}") (parseKeyType req.keyType)
  let _ ← authorizeDomainAccess auth (creationOf keyType) (req.parentId.map KeyId.mk)
  match ← createOfType req keyType with
  | .ok id =>
      let actualDomain ← domainToRegister id
      ask (.registerKey id.text actualDomain)
      .ret id
  | .error error => .fail (err error)

/-- `activate_key`. -/
def activateKey (auth : AuthContext) (id : String) : Handler Unit := do
  let domain ← authorizeDomainAccess auth .activateKey (some ⟨id⟩)
  let _ ← requireAuthorized (.apiRequest id (domain.map KeyId.text))
  match ← ask (.activate ⟨id⟩) >>= settle with
  | .ok () => .ret ()
  | .error error => .fail (err error.display)

/-- `rotate_key`. The identifier announced to the enforcer is not the one that the key
keeps. -/
def rotateKey (auth : AuthContext) (id : String) : Handler KeyId := do
  let now ← ask .utcNow
  let newKeyId := s!"{id}-rotated-{now / 1000000000}"
  let domain ← authorizeDomainAccess auth .rotateKey (some ⟨id⟩)
  let _ ← requireAuthorized (.keyRotation id newKeyId (domain.map KeyId.text))
  match ← ask (.rotate ⟨id⟩) >>= settle with
  | .ok newId =>
      ask (.registerKey newId.text (domain.map KeyId.text))
      .ret newId
  | .error error => .fail (err error.display)

/-- `revoke_key`. -/
def revokeKey (auth : AuthContext) (id : String) : Handler Unit := do
  let domain ← authorizeDomainAccess auth .revokeKey (some ⟨id⟩)
  let _ ← requireAuthorized (.apiRequest id (domain.map KeyId.text))
  match ← ask (.revoke ⟨id⟩) >>= settle with
  | .ok () => ask (.revokeKey id)
  | .error error => .fail (err error.display)

/-- `destroy_key`. The enforcer is not asked: a revoked key can still be destroyed. -/
def destroyKey (auth : AuthContext) (id : String) : Handler Unit := do
  let _ ← authorizeDomainAccess auth .destroyKey (some ⟨id⟩)
  match ← ask (.destroy ⟨id⟩) >>= settle with
  | .ok () => ask (.revokeKey id)
  | .error error => .fail (err error.display)

/-- `str::contains`. -/
def containsText (text part : String) : Bool := decide (part.toList <:+: text.toList)

/-- `EncryptReq`. -/
structure EncryptReq where
  plaintext : String
  aad : String
  context : String
  deriving DecidableEq, Repr

/-- `encrypt_data`. -/
def encryptData (auth : AuthContext) (id : String) (req : EncryptReq) : Handler EncryptedBlob := do
  let domain ← authorizeDomainAccess auth .encrypt (some ⟨id⟩)
  let authz ← requireAuthorized (.encrypt id (domain.map KeyId.text) none)
  match ← ask (.encryptAuthorized authz (utf8 req.plaintext) (.raw (utf8 req.aad))
      ⟨utf8 req.context⟩) >>= settle with
  | .ok blob => .ret blob
  | .error error =>
      let message := error.display
      if containsText message "policy" ∨ containsText message "compliance" then
        .fail ⟨.forbidden, message⟩
      else .fail (err message)

/-- `DecryptReq`. -/
structure DecryptReq where
  blob : EncryptedBlob
  aad : String
  context : String
  deriving DecidableEq, Repr

/-- The one response to everything that goes wrong in a decryption. -/
def decryptFailed : ApiError := ⟨.badRequest, "operation failed"⟩

/-- `decrypt_data_inner`, after the request was read. -/
def decryptDataInner (auth : AuthContext) (req : DecryptReq) : Handler Bytes := do
  let domain ← authorizeDomainAccess auth .decrypt (some ⟨req.blob.keyId⟩)
  match ← authorize (.decrypt req.blob.keyId (domain.map KeyId.text)) with
  | .error _ => .fail decryptFailed
  | .ok authz =>
      match ← ask (.decryptAuthorized authz req.blob (.raw (utf8 req.aad)) ⟨utf8 req.context⟩) >>=
          settle with
      | .ok plaintext => .ret plaintext
      | .error _ => .fail decryptFailed

/-- `decrypt_data`. A body that is not JSON and one that is no request end alike. The
body of the response shows the bytes as a text, with what is not UTF-8 replaced. -/
def decryptData (auth : AuthContext) (body : Option DecryptReq) : Handler Bytes :=
  match body with
  | none => .fail decryptFailed
  | some req => decryptDataInner auth req

/-- `sign_data`, with the hexadecimal payload of its request. -/
def signData (auth : AuthContext) (id payloadHex : String) : Handler SignedPayload := do
  let payload ← Program.ofExcept (fun error : FromHexError =>
    err s!"invalid payload_hex: {error.display}") (hexDecode (utf8 payloadHex))
  let domain ← authorizeDomainAccess auth .readKey (some ⟨id⟩)
  let authz ← requireAuthorized (.sign id (domain.map KeyId.text) payload)
  match ← ask (.signAuthorized authz payload) >>= settle with
  | .ok signed => .ret signed
  | .error error =>
      let message := error.display
      if containsText message "StateEnforcer" ∨ containsText message "revoked" ∨
          containsText message "Active" then .fail ⟨.forbidden, message⟩
      -- a message about the type of the key is answered in the same way as any other
      else .fail (err message)

/-- `caller_can_read_key`. -/
def callerCanReadKey (auth : AuthContext) (keyDomain : Option String) : Bool :=
  match keyDomain, auth.allowedDomains with
  | none, _ => true
  | some _, none => true
  | some domain, some allowed => allowed.contains domain

/-- `lookup_readable_key_or_deny`. -/
def lookupReadableKeyOrDeny (auth : AuthContext) (keyId : KeyId) : Handler KeyMetadata := do
  match ← ask (.get keyId) >>= settle with
  | .error error =>
      if auth.isGlobalAdmin then .fail ⟨.notFound, error.display⟩
      else .fail ⟨.forbidden, "access denied"⟩
  | .ok record =>
      let keyDomain ← domainToRegister keyId
      if callerCanReadKey auth keyDomain then .ret record
      else .fail ⟨.forbidden, "access denied"⟩

/-- `VerifyReq`. -/
structure VerifyReq where
  keyId : String
  keyVersion : Nat
  payloadHex : String
  signatureHex : String
  deriving DecidableEq, Repr

/-- `verify_signature_handler`. -/
def verifySignatureHandler (auth : AuthContext) (req : VerifyReq) : Handler Bool := do
  let _ ← lookupReadableKeyOrDeny auth ⟨req.keyId⟩
  let payload ← Program.ofExcept (fun error : FromHexError =>
    err s!"invalid payload_hex: {error.display}") (hexDecode (utf8 req.payloadHex))
  let now ← ask .utcNow
  match ← ask (.verifySignature ⟨req.keyId⟩ payload
      ⟨req.keyId, req.keyVersion, req.signatureHex, now⟩) >>= settle with
  | .ok valid => .ret valid
  | .error error =>
      if containsText error.display "not found" then .fail ⟨.notFound, error.display⟩
      else .fail (err error.display)

/-- The body of the response of `get_verifying_key`. -/
structure VerifyingKeyResponse where
  keyId : String
  keyVersion : Nat
  keyType : String
  state : String
  verifyingKeyHex : String
  verifyingKeyBytes : Nat
  deriving DecidableEq, Repr

/-- The bytes of a verifying key that a record stores. -/
def decodeVerifyingKey (version : KeyVersion) : Handler Bytes :=
  Program.ofExcept (fun error : FromHexError => err s!"decode verifying key: {error.display}")
    (hexDecode (utf8 version.publicKeyHex))

/-- `get_verifying_key`. -/
def getVerifyingKey (auth : AuthContext) (id : String) : Handler VerifyingKeyResponse := do
  let record ← lookupReadableKeyOrDeny auth ⟨id⟩
  if record.keyType ≠ .signing then
    .fail (err (s!"key {id} is type {record.keyType.display} — " ++
      "verifying-key only available for Signing keys"))
  else
    match record.currentKeyVersion with
    | none => .fail (err "no current key version")
    | some version => do
        let bytes ← decodeVerifyingKey version
        .ret ⟨id, version.version, record.keyType.display, record.state.display,
          version.publicKeyHex, bytes.length⟩

/-- What the routes use of an assertion: how one is built from a request at a time and
with a random identifier, the bytes that are signed, and how one is verified. -/
structure AssertionCode where
  Claims : Type
  Assertion : Type
  Verified : Type
  buildUnsigned : Nat → SizedBytes 16 → String → Nat → Claims → Except String Assertion
  canonicalSigningInput : Assertion → Except String Bytes
  withSignature : Assertion → String → Assertion
  verify : Nat → Assertion → Bytes → Except String Verified

section Assertions

variable (code : AssertionCode)

/-- `issue_assertion`. -/
def issueAssertion (auth : AuthContext) (signingKeyId : String) (claims : code.Claims) :
    Handler code.Assertion := do
  let domain ← authorizeDomainAccess auth .readKey (some ⟨signingKeyId⟩)
  match ← ask (.get ⟨signingKeyId⟩) >>= settle with
  | .error error => .fail ⟨.notFound, error.display⟩
  | .ok record =>
      if record.keyType ≠ .signing then
        .fail (err (s!"key {signingKeyId} is type {record.keyType.display} — " ++
          "assertion issue requires a Signing key"))
      else do
        let now ← ask .utcNow
        let random ← ask .randomBytes
        let unsigned ← Program.ofExcept err
          (code.buildUnsigned now random signingKeyId record.currentVersion claims)
        let signingInput ← Program.ofExcept err (code.canonicalSigningInput unsigned)
        let authz ← requireAuthorized (.sign signingKeyId (domain.map KeyId.text) signingInput)
        match ← ask (.signAuthorized authz signingInput) >>= settle with
        | .error error => .fail ⟨.forbidden, error.display⟩
        | .ok signed => .ret (code.withSignature unsigned signed.signatureHex)

/-- `verify_assertion`. An assertion that does not verify has a response of its own. -/
def verifyAssertion (auth : AuthContext) (signingKeyId : String) (assertion : code.Assertion) :
    Handler (Except String code.Verified) := do
  let record ← lookupReadableKeyOrDeny auth ⟨signingKeyId⟩
  match record.currentKeyVersion with
  | none => .fail (err "no current key version")
  | some version => do
      let bytes ← decodeVerifyingKey version
      let now ← ask .utcNow
      .ret (code.verify now assertion bytes)

end Assertions

end Citadel.Api
