import Citadel.Api.ApiKeys
import Citadel.Core.Authority
import Citadel.Keystore.Capabilities

/-!
# What the routes act on

`Service` lists what the handlers of the API ask of the keystore and of the state
enforcer, one operation for each call they make, and `AppState` is the state of the
running server. `serve` plays one operation. Every operation meets its own `Moment`: the
time, the environment of the keystore, and what the enforcer draws and reads.
-/

namespace Citadel.Api

open Envelope

/-- `AppState`, for the parts that the routes change. The keystore and the routes share
one enforcer. -/
structure AppState where
  world : World
  enforcer : Core.StateEnforcer
  apiKeys : ApiKeyStore
  /-- What the file of API keys holds. -/
  apiKeysFile : ApiKeyStore

/-- What one operation meets. -/
structure Moment where
  now : Nat
  env : Env
  issue : Core.Issue
  reading : Core.Reading

/-- What the handlers ask for. -/
inductive Service where
  | utcNow
  | randomBytes
  | get (id : KeyId)
  | listKeys
  | resolveDomainForKey (id : KeyId)
  | generate (name : String) (keyType : KeyType) (policyId : Option PolicyId)
      (parentId : Option KeyId)
  | generateSigningKey (name : String) (policyId : Option PolicyId) (parentId : KeyId)
  | activate (id : KeyId)
  | rotate (id : KeyId)
  | revoke (id : KeyId)
  | destroy (id : KeyId)
  | expireDueKeys
  | encryptAuthorized (authz : Core.AuthorizedContext) (plaintext : Bytes) (aad : Aad)
      (context : Context)
  | decryptAuthorized (authz : Core.AuthorizedContext) (blob : EncryptedBlob) (aad : Aad)
      (context : Context)
  | signAuthorized (authz : Core.AuthorizedContext) (message : Bytes)
  | verifySignature (id : KeyId) (message : Bytes) (signedPayload : SignedPayload)
  | authorize (request : Core.Request)
  | registerKey (keyId : String) (domainId : Option String)
  | revokeKey (keyId : String)

/-- The type of the answer to an operation. -/
@[reducible] def Service.Ret : Service → Type
  | .utcNow => Nat
  | .randomBytes => SizedBytes 16
  | .get _ => Outcome KeystoreError KeyMetadata
  | .listKeys => Except KeystoreError (List KeyMetadata)
  | .resolveDomainForKey _ => Outcome KeystoreError KeyId
  | .generate _ _ _ _ => Outcome CallError KeyId
  | .generateSigningKey _ _ _ => Outcome CallError KeyId
  | .activate _ => Outcome CallError Unit
  | .rotate _ => Outcome CallError KeyId
  | .revoke _ => Outcome CallError Unit
  | .destroy _ => Outcome CallError Unit
  | .expireDueKeys => Outcome CallError ExpirationReport
  | .encryptAuthorized _ _ _ _ => Outcome CallError EncryptedBlob
  | .decryptAuthorized _ _ _ _ => Outcome CallError Bytes
  | .signAuthorized _ _ => Outcome CallError SignedPayload
  | .verifySignature _ _ _ => Outcome VerifyError Bool
  | .authorize _ => Except Core.DenialReason Core.AuthorizedContext
  | .registerKey _ _ => Unit
  | .revokeKey _ => Unit

/-- The code of a route. -/
abbrev Handler := Program Service Service.Ret ApiError

section Serve

variable {ε α : Type} (ks : Keystore) (moment : Moment) (app : AppState)

/-- Play a program of the keystore. -/
def AppState.play (program : Prog ε α) : Outcome ε α × AppState :=
  let (outcome, after) := program.run (handle moment.env) { app.world with now := moment.now }
  (outcome, { app with world := after })

/-- The enforcer as the keystore sees it. -/
def AppState.boundary : Boundary := ⟨some app.enforcer, moment.reading⟩

/-- Play an authorized entry point of the keystore, which checks the context first. -/
def AppState.playAuthorized (authz : Core.AuthorizedContext)
    (program : Boundary → Prog ε α) : Outcome ε α × AppState :=
  let (outcome, after) := app.play moment (program (app.boundary moment))
  (outcome, { after with
    enforcer := ((app.boundary moment).validateAuthz authz).2.getD app.enforcer })

/-- Play one operation. -/
def serve : (op : Service) → op.Ret × AppState
  | .utcNow => (moment.now, app)
  | .randomBytes => (moment.env.randomness.keyId, app)
  | .get id => app.play moment (Keystore.get id)
  | .listKeys => (faulty moment.env.listFault (moment.env.order app.world.keys.entries), app)
  | .resolveDomainForKey id => app.play moment (Keystore.resolveDomainForKey id)
  | .generate name keyType policyId parentId =>
      app.play moment (ks.generate name keyType policyId parentId)
  | .generateSigningKey name policyId parentId =>
      app.play moment (ks.generateSigningKey name policyId parentId)
  | .activate id => app.play moment (Keystore.activate id)
  | .rotate id => app.play moment (ks.rotate id)
  | .revoke id => app.play moment (Keystore.revoke id)
  | .destroy id => app.play moment (Keystore.destroy id)
  | .expireDueKeys => app.play moment ks.expireDueKeys
  | .encryptAuthorized authz plaintext aad context =>
      app.playAuthorized moment authz fun boundary =>
        ks.encryptAuthorized boundary authz plaintext aad context
  | .decryptAuthorized authz blob aad context =>
      app.playAuthorized moment authz fun boundary =>
        ks.decryptAuthorized boundary authz blob aad context
  | .signAuthorized authz message =>
      app.playAuthorized moment authz fun boundary => ks.signAuthorized boundary authz message
  | .verifySignature id message signedPayload =>
      app.play moment (ks.verifySignature id message signedPayload)
  | .authorize request =>
      let (answer, after) := app.enforcer.answer ks.crypto.sha256 moment.issue request
      (answer, { app with enforcer := after })
  | .registerKey keyId domainId =>
      ((), { app with enforcer := app.enforcer.registerKey keyId domainId })
  | .revokeKey keyId => ((), { app with enforcer := app.enforcer.revokeKey keyId })

end Serve

/-- The moments that the operations of a request meet, in order. -/
abbrev Moments := Nat → Moment

/-- The handler that `Program.run` plays a route against. -/
def answering (ks : Keystore) (op : Service) (state : AppState × Moments) :
    op.Ret × (AppState × Moments) :=
  let (answer, after) := serve ks (state.2 0) state.1 op
  (answer, after, fun position => state.2 (position + 1))

/-- Ask for one operation. -/
abbrev ask {δ : Type} (op : Service) : Program Service Service.Ret δ op.Ret := Program.call op

/-- Hand the outcome of a call to the route. A panic ends the route too. -/
def settle {ε δ α : Type} : Outcome ε α → Program Service Service.Ret δ (Except ε α)
  | .ok value => .ret (.ok value)
  | .err error => .ret (.error error)
  | .aborted why => .abort why

end Citadel.Api
