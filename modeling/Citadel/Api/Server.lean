import Citadel.Api.Routes

/-!
# The server over time

A request passes the middleware and runs its route. Between requests the server sweeps
its keys, notes when API keys were used and is restarted: the keystore's records and the
file of API keys stay, the enforcer is built anew from the stored keys.
-/

namespace Citadel.Api

open Envelope Program

variable (code : AssertionCode)

/-- A request to a route behind the middleware. -/
inductive Request where
  | getStatus
  | getMetrics
  | getThreat
  | postThreatEvent
  | resetThreat
  | getPolicies
  | expireDue
  | listKeys
  | generateKey (req : GenerateKeyReq)
  | getKey (id : String)
  | activateKey (id : String)
  | rotateKey (id : String)
  | revokeKey (id : String)
  | destroyKey (id : String)
  | encrypt (id : String) (req : EncryptReq)
  | decrypt (body : Option DecryptReq)
  | sign (id payloadHex : String)
  | verify (req : VerifyReq)
  | issueAssertion (signingKeyId : String) (claims : code.Claims)
  | verifyAssertion (signingKeyId : String) (assertion : code.Assertion)
  | verifyingKey (id : String)
  | listApiKeys
  | createApiKey (req : CreateApiKeyReq) (draw : KeyDraw)
  | revokeApiKey (id : String) (saved : Except String Unit)
  | whoami

/-- The body of a response. -/
inductive Body where
  | status (totalKeys activeKeys : Nat)
  | done
  | expired (expired warnings skipped : Nat)
  | keys (keys : List KeyResponse)
  | key (key : KeyResponse)
  | created (id : KeyId)
  | rotated (id : KeyId)
  | blob (blob : EncryptedBlob)
  | plaintext (bytes : Bytes)
  | signature (signed : SignedPayload)
  | valid (valid : Bool)
  | verifyingKey (response : VerifyingKeyResponse)
  | assertion (assertion : code.Assertion)
  | verified (verified : Except String code.Verified)
  | apiKeys (keys : List ApiKeyInfo)
  | apiKeyCreated (created : CreatedApiKey)
  | caller (auth : AuthContext)

variable {code}

/-- The path of a request. -/
def Request.path : Request code → String
  | .getStatus => "/api/status"
  | .getMetrics => "/api/metrics"
  | .getThreat => "/api/threat"
  | .postThreatEvent => "/api/threat/event"
  | .resetThreat => "/api/threat/reset"
  | .getPolicies => "/api/policies"
  | .expireDue => "/api/expire"
  | .listKeys => "/api/keys"
  | .generateKey _ => "/api/keys"
  | .getKey id => "/api/keys/" ++ id
  | .activateKey id => "/api/keys/" ++ id ++ "/activate"
  | .rotateKey id => "/api/keys/" ++ id ++ "/rotate"
  | .revokeKey id => "/api/keys/" ++ id ++ "/revoke"
  | .destroyKey id => "/api/keys/" ++ id ++ "/destroy"
  | .encrypt id _ => "/api/keys/" ++ id ++ "/encrypt"
  | .decrypt _ => "/api/decrypt"
  | .sign id _ => "/api/keys/" ++ id ++ "/sign"
  | .verify _ => "/api/verify"
  | .issueAssertion _ _ => "/api/assertions/issue"
  | .verifyAssertion _ _ => "/api/assertions/verify"
  | .verifyingKey id => "/api/keys/" ++ id ++ "/verifying-key"
  | .listApiKeys => "/api/auth/keys"
  | .createApiKey _ _ => "/api/auth/keys"
  | .revokeApiKey id _ => "/api/auth/keys/" ++ id
  | .whoami => "/api/auth/whoami"

/-- The method of a request. -/
def Request.method : Request code → String
  | .getStatus => "GET"
  | .getMetrics => "GET"
  | .getThreat => "GET"
  | .getPolicies => "GET"
  | .listKeys => "GET"
  | .getKey _ => "GET"
  | .verifyingKey _ => "GET"
  | .listApiKeys => "GET"
  | .whoami => "GET"
  | .revokeApiKey _ _ => "DELETE"
  | _ => "POST"

/-- The route of a request on keys; the routes on API keys touch nothing but their
store. -/
def Request.route (auth : AuthContext) : Request code → Handler (Body code)
  | .getStatus => do
      let (total, active) ← Api.getStatus auth
      return .status total active
  | .getMetrics => do
      threatRoute auth
      return .done
  | .getThreat => do
      threatRoute auth
      return .done
  | .postThreatEvent => do
      threatRoute auth
      return .done
  | .resetThreat => do
      threatRoute auth
      return .done
  | .getPolicies => do
      threatRoute auth
      return .done
  | .expireDue => do
      let (expired, warnings, skipped) ← Api.expireDue auth
      return .expired expired warnings skipped
  | .listKeys => do return .keys (← listKeysHandler auth)
  | .generateKey req => do return .created (← Api.generateKey auth req)
  | .getKey id => do return .key (← Api.getKey auth id)
  | .activateKey id => do
      Api.activateKey auth id
      return .done
  | .rotateKey id => do return .rotated (← Api.rotateKey auth id)
  | .revokeKey id => do
      Api.revokeKey auth id
      return .done
  | .destroyKey id => do
      Api.destroyKey auth id
      return .done
  | .encrypt id req => do return .blob (← encryptData auth id req)
  | .decrypt body => do return .plaintext (← decryptData auth body)
  | .sign id payloadHex => do return .signature (← signData auth id payloadHex)
  | .verify req => do return .valid (← verifySignatureHandler auth req)
  | .issueAssertion signingKeyId claims => do
      return .assertion (← Api.issueAssertion code auth signingKeyId claims)
  | .verifyAssertion signingKeyId assertion => do
      return .verified (← Api.verifyAssertion code auth signingKeyId assertion)
  | .verifyingKey id => do return .verifyingKey (← getVerifyingKey auth id)
  | .whoami => return .caller auth
  | .listApiKeys => return .done
  | .createApiKey _ _ => return .done
  | .revokeApiKey _ _ => return .done

/-- The store of API keys in memory and in its file, after a change that was saved or
not. -/
def AppState.withApiKeys (app : AppState) (changed : ApiKeyStore) (saved : Except String Unit) :
    AppState :=
  { app with
    apiKeys := changed
    apiKeysFile := match saved with
      | .ok () => changed
      | .error _ => app.apiKeysFile }

/-- Play a route. -/
def AppState.playRoute {α : Type} (app : AppState) (ks : Keystore) (moments : Moments)
    (handler : Handler α) : Outcome ApiError α × AppState :=
  let (outcome, after) := handler.run (answering ks) (app, moments)
  (outcome, after.1)

/-- The outcome of a route that does not touch the keys. -/
def outcomeOf {α : Type} (body : α → Body code) : Except ApiError α → Outcome ApiError (Body code)
  | .ok value => .ok (body value)
  | .error error => .err error

/-- Answer a caller that the middleware let through. -/
def Request.answer (ks : Keystore) (hashApiKey : String → SizedBytes 32) (auth : AuthContext)
    (moments : Moments) (app : AppState) :
    Request code → Outcome ApiError (Body code) × AppState
  | .listApiKeys => (outcomeOf .apiKeys (Api.listApiKeys auth app.apiKeys), app)
  | .createApiKey req draw =>
      let (outcome, grown) := Api.createApiKey hashApiKey auth req draw app.apiKeys
      (outcomeOf .apiKeyCreated outcome,
        if grown = app.apiKeys then app else app.withApiKeys grown draw.saved)
  | .revokeApiKey id saved =>
      let (outcome, shrunk) := Api.revokeApiKey auth id saved app.apiKeys
      (outcomeOf (fun _ => .done) outcome,
        if shrunk = app.apiKeys then app else app.withApiKeys shrunk saved)
  | request => app.playRoute ks moments (request.route auth)

/-- A request as it reaches the server: what its caller presents, and the moments that
its operations meet. -/
structure Arrival (code : AssertionCode) where
  presented : Option (SizedBytes 32)
  request : Request code
  moments : Moments

/-- The caller of a request, when the middleware lets it through. -/
def Arrival.caller (arrival : Arrival code) (app : AppState) : Except ApiError ApiKeyEntry :=
  match requiredScope arrival.request.path arrival.request.method with
  | none => .error ⟨.unauthorized, "authentication required"⟩
  | some required => authorizeRequest app.apiKeys required arrival.presented

/-- The response to a request and the state it leaves. -/
def Arrival.run (ks : Keystore) (hashApiKey : String → SizedBytes 32) (arrival : Arrival code)
    (app : AppState) : Outcome ApiError (Body code) × AppState :=
  match arrival.caller app with
  | .error error => (.err error, app)
  | .ok entry => arrival.request.answer ks hashApiKey entry.context arrival.moments app

/-- What a start of the server meets: the configuration of the enforcer, the hash of the
first admin key, the replay store, and the moments of its operations. -/
structure Boot where
  generation : Nat
  ttlMs : Nat
  clockSkewMs : Nat
  bootstrapHash : Option (SizedBytes 32)
  bootstrapTime : String
  bootstrapSaved : Except String Unit
  replay : ReplayStore
  moments : Moments

/-- `bootstrap_api_keys`. The process exits when the file holds a key that may not be
there; a server without keys refuses every request. -/
def bootstrapApiKeys (boot : Boot) (file : ApiKeyStore) : ApiKeyStore :=
  if file.keys = [] then
    match boot.bootstrapHash with
    | some hash => bootstrapStore hash boot.bootstrapTime
    | none => file
  else if file.keys.any fun entry => entry.allowedDomains.isNone && !entry.scopes.contains .admin then
    ⟨[]⟩
  else file

/-- The loop of `build_app` that registers the stored keys. -/
def registerKeys : List KeyMetadata → Handler Unit
  | [] => .ret ()
  | record :: rest => do
      let actualDomain ← domainToRegister record.id
      ask (.registerKey record.id.text actualDomain)
      registerKeys rest

/-- The part of `build_app` that initializes the enforcer: every listed key is
registered, whatever its state. -/
def initializeEnforcer : Handler Unit := do
  match ← ask .listKeys with
  | .ok keys => registerKeys keys
  | .error _ => .ret ()

/-- `build_app` over what an earlier server left. -/
def buildApp (ks : Keystore) (boot : Boot) (app : AppState) : AppState :=
  (AppState.playRoute
    { world := { app.world with replay := boot.replay }
      enforcer := .withConfig boot.generation boot.ttlMs boot.clockSkewMs
      apiKeys := bootstrapApiKeys boot app.apiKeysFile
      -- only the first admin key is written back
      apiKeysFile := if app.apiKeysFile.keys = [] ∧ boot.bootstrapSaved.isOk then
          bootstrapApiKeys boot app.apiKeysFile
        else app.apiKeysFile } ks boot.moments initializeEnforcer).2

/-- What happens to the server. -/
inductive Event (code : AssertionCode) where
  | request (arrival : Arrival code)
  /-- The task that a request leaves behind notes when its key was used. -/
  | touch (id now : String) (saved : Except String Unit)
  /-- The background task expires the keys that are due. -/
  | sweep (moment : Moment)
  | restart (boot : Boot)

/-- The state after an event. -/
def Event.run (ks : Keystore) (hashApiKey : String → SizedBytes 32) (app : AppState) :
    Event code → AppState
  | .request arrival => (arrival.run ks hashApiKey app).2
  | .touch id now saved => app.withApiKeys (app.apiKeys.touch id now) saved
  | .sweep moment => (serve ks moment app .expireDueKeys).2
  | .restart boot => buildApp ks boot app

/-- The first start of a server, with no keys stored. -/
def firstStart (ks : Keystore) (boot : Boot) : AppState :=
  buildApp ks boot ⟨.initial 0 boot.replay, .withConfig 0 0 0, ⟨[]⟩, ⟨[]⟩⟩

/-- The state after a sequence of events. -/
def playServer (ks : Keystore) (hashApiKey : String → SizedBytes 32) (start : AppState)
    (events : List (Event code)) : AppState :=
  events.foldl (Event.run ks hashApiKey) start

end Citadel.Api
