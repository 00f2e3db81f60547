import Citadel.Data.Bytes
import Mathlib.Data.Finset.Insert
import Mathlib.Data.Finset.Erase

/-!
# The state enforcer

The first of the two layers that guard the key material. It knows which keys exist,
which are revoked and which domain they were registered for, and issues contexts that
the keystore checks again. A context carries a token that its enforcer accepts once.

What a call draws at random or reads from the clock is an argument.
-/

namespace Citadel.Core

/-- `CapabilityToken`. The nonce is 128-bit, the generation 64-bit. -/
structure CapabilityToken where
  nonce : Nat
  enforcerGeneration : Nat
  deriving DecidableEq, Repr

/-- `OperationType`. -/
inductive OperationType where
  | encrypt
  | decrypt
  | keyRotation
  | keyAccess
  | sign
  | verify
  deriving DecidableEq, Repr

/-- The text of an `OperationType`. -/
def OperationType.debug : OperationType → String
  | .encrypt => "Encrypt"
  | .decrypt => "Decrypt"
  | .keyRotation => "KeyRotation"
  | .keyAccess => "KeyAccess"
  | .sign => "Sign"
  | .verify => "Verify"

/-- `LifecycleState`. -/
inductive LifecycleState where
  | active
  | pending
  | revoked
  | destroyed
  deriving DecidableEq, Repr

/-- The text of a `LifecycleState`. -/
def LifecycleState.debug : LifecycleState → String
  | .active => "Active"
  | .pending => "Pending"
  | .revoked => "Revoked"
  | .destroyed => "Destroyed"

/-- `OperationParams`. -/
inductive OperationParams where
  | encrypt (recipientKeyId : Option String)
  | decrypt
  | keyRotation (newKeyId : String)
  | keyAccess
  | sign (payloadHash : SizedBytes 32)
  | verify
  deriving DecidableEq, Repr

/-- `AuthorizedContext`: the proof that the enforcer allowed one operation. -/
structure AuthorizedContext where
  capability : CapabilityToken
  operation : OperationType
  keyId : String
  domainId : Option String
  lifecycleState : LifecycleState
  timestampMs : Nat
  operationParams : OperationParams
  deriving DecidableEq, Repr

/-- `DenialReason`, for the reasons that the code gives. -/
inductive DenialReason where
  | invalidKey (message : String)
  | invalidKeyState (message : String)
  | domainViolation (message : String)
  deriving DecidableEq, Repr

/-- The text of a `DenialReason`. -/
def DenialReason.display : DenialReason → String
  | .invalidKey message => s!"Invalid key: {message}"
  | .invalidKeyState message => s!"Invalid key state: {message}"
  | .domainViolation message => s!"Domain violation: {message}"

/-- `StateEnforcer`. Durations are 64-bit numbers of milliseconds; the tokens are kept
with the time of their issue in nanoseconds. -/
structure StateEnforcer where
  validKeys : Finset String
  revokedKeys : Finset String
  domainKeys : String → Option (Finset String)
  issuedTokens : Nat → Option Nat
  generation : Nat
  ttlMs : Nat
  clockSkewMs : Nat

/-- What the issue of a context draws and reads. -/
structure Issue where
  nonce : Nat
  nanos : Nat
  millis : Nat

/-- What the validation of a context reads from the clock. -/
structure Reading where
  nanos : Nat
  millis : Nat

namespace StateEnforcer

/-- `CAPABILITY_TOKEN_TTL_NANOS`. -/
def capabilityTokenTtlNanos : Nat := 60000000000

/-- `StateEnforcer::with_config`, for the values that the process settles on. -/
def withConfig (generation ttlMs clockSkewMs : Nat) : StateEnforcer where
  validKeys := ∅
  revokedKeys := ∅
  domainKeys _ := none
  issuedTokens _ := none
  generation := generation
  ttlMs := ttlMs
  clockSkewMs := clockSkewMs

/-- `register_key`. -/
def registerKey (enforcer : StateEnforcer) (keyId : String) (domainId : Option String) :
    StateEnforcer :=
  { enforcer with
    validKeys := insert keyId enforcer.validKeys
    domainKeys := fun domain =>
      if domainId = some domain then some (insert keyId ((enforcer.domainKeys domain).getD ∅))
      else enforcer.domainKeys domain }

/-- `revoke_key`. -/
def revokeKey (enforcer : StateEnforcer) (keyId : String) : StateEnforcer :=
  { enforcer with
    revokedKeys := insert keyId enforcer.revokedKeys
    validKeys := enforcer.validKeys.erase keyId
    domainKeys := fun domain => (enforcer.domainKeys domain).map fun keys => keys.erase keyId }

/-- `validate_key`. -/
def validateKey (enforcer : StateEnforcer) (keyId : String) (domain : Option String) :
    Option DenialReason :=
  if keyId ∈ enforcer.revokedKeys then some (.invalidKeyState s!"Key {keyId} is revoked")
  else if keyId ∉ enforcer.validKeys then some (.invalidKey s!"Key {keyId} does not exist")
  else
    match domain with
    | none => none
    | some domainId =>
        match enforcer.domainKeys domainId with
        | some keys =>
            if keyId ∉ keys then
              some (.domainViolation s!"Key {keyId} not authorized for domain {domainId}")
            else none
        | none => some (.domainViolation s!"Domain {domainId} does not exist")

/-- The registry without the tokens that have outlived their time. -/
def retain (issuedTokens : Nat → Option Nat) (nowNanos : Nat) (nonce : Nat) : Option Nat :=
  (issuedTokens nonce).filter fun issuedAt => nowNanos - issuedAt < capabilityTokenTtlNanos

/-- `generate_capability_token`. -/
def generateCapabilityToken (enforcer : StateEnforcer) (issue : Issue) :
    CapabilityToken × StateEnforcer :=
  (⟨issue.nonce, enforcer.generation⟩,
    { enforcer with
      issuedTokens :=
        retain (Function.update enforcer.issuedTokens issue.nonce (some issue.nanos)) issue.nanos })

/-- Issue a context for a key that was validated. -/
def grant (enforcer : StateEnforcer) (issue : Issue) (operation : OperationType) (keyId : String)
    (domain : Option String) (params : OperationParams) : AuthorizedContext × StateEnforcer :=
  let (token, after) := enforcer.generateCapabilityToken issue
  (⟨token, operation, keyId, domain, .active, issue.millis % 2 ^ 64, params⟩, after)

/-- The operations that need no more than a valid key. -/
def authorize (enforcer : StateEnforcer) (issue : Issue) (operation : OperationType)
    (keyId : String) (domain : Option String) (params : OperationParams) :
    Except DenialReason AuthorizedContext × StateEnforcer :=
  match enforcer.validateKey keyId domain with
  | some denial => (.error denial, enforcer)
  | none =>
      let (context, after) := enforcer.grant issue operation keyId domain params
      (.ok context, after)

/-- `authorize_encrypt`. -/
def authorizeEncrypt (enforcer : StateEnforcer) (issue : Issue) (senderKeyId : String)
    (senderDomain recipientKeyId : Option String) :
    Except DenialReason AuthorizedContext × StateEnforcer :=
  match enforcer.validateKey senderKeyId senderDomain with
  | some denial => (.error denial, enforcer)
  | none =>
      match recipientKeyId with
      | some recipient =>
          if recipient ∉ enforcer.validKeys then
            (.error (.invalidKey s!"Recipient key {recipient} does not exist"), enforcer)
          else if recipient ∈ enforcer.revokedKeys then
            (.error (.invalidKeyState s!"Recipient key {recipient} is revoked"), enforcer)
          else
            let (context, after) := enforcer.grant issue .encrypt senderKeyId senderDomain
              (.encrypt recipientKeyId)
            (.ok context, after)
      | none =>
          let (context, after) := enforcer.grant issue .encrypt senderKeyId senderDomain
            (.encrypt recipientKeyId)
          (.ok context, after)

/-- `authorize_decrypt`. -/
def authorizeDecrypt (enforcer : StateEnforcer) (issue : Issue) (decryptorKeyId : String)
    (decryptorDomain : Option String) : Except DenialReason AuthorizedContext × StateEnforcer :=
  enforcer.authorize issue .decrypt decryptorKeyId decryptorDomain .decrypt

/-- `authorize_key_rotation`. -/
def authorizeKeyRotation (enforcer : StateEnforcer) (issue : Issue) (oldKeyId newKeyId : String)
    (domain : Option String) : Except DenialReason AuthorizedContext × StateEnforcer :=
  match enforcer.validateKey oldKeyId domain with
  | some denial => (.error denial, enforcer)
  | none =>
      if newKeyId ∈ enforcer.validKeys then
        (.error (.invalidKey s!"New key ID {newKeyId} already exists"), enforcer)
      else
        let (context, after) := enforcer.grant issue .keyRotation oldKeyId domain
          (.keyRotation newKeyId)
        (.ok context, after)

/-- `authorize_api_request`. -/
def authorizeApiRequest (enforcer : StateEnforcer) (issue : Issue) (keyId : String)
    (domain : Option String) : Except DenialReason AuthorizedContext × StateEnforcer :=
  enforcer.authorize issue .keyAccess keyId domain .keyAccess

/-- `authorize_sign`: the context is bound to the hash of the message. -/
def authorizeSign (sha256 : Bytes → SizedBytes 32) (enforcer : StateEnforcer) (issue : Issue)
    (signingKeyId : String) (domain : Option String) (message : Bytes) :
    Except DenialReason AuthorizedContext × StateEnforcer :=
  enforcer.authorize issue .sign signingKeyId domain (.sign (sha256 message))

/-- `authorize_verify`. -/
def authorizeVerify (enforcer : StateEnforcer) (issue : Issue) (signingKeyId : String)
    (domain : Option String) : Except DenialReason AuthorizedContext × StateEnforcer :=
  enforcer.authorize issue .verify signingKeyId domain .verify

/-- `validate_capability`: an accepted token leaves the registry. -/
def validateCapability (enforcer : StateEnforcer) (token : CapabilityToken) (nowNanos : Nat) :
    Bool × StateEnforcer :=
  if token.nonce = 0 then (false, enforcer)
  else if token.enforcerGeneration ≠ enforcer.generation then (false, enforcer)
  else
    ((retain enforcer.issuedTokens nowNanos token.nonce).isSome,
      { enforcer with
        issuedTokens :=
          Function.update (retain enforcer.issuedTokens nowNanos) token.nonce none })

end StateEnforcer

namespace AuthorizedContext

/-- `validate`. The sum of the two durations wraps around in 64 bits. -/
def validate (context : AuthorizedContext) (enforcer : StateEnforcer) (reading : Reading) :
    Except String Unit × StateEnforcer :=
  let (accepted, after) := enforcer.validateCapability context.capability reading.nanos
  if accepted = false then
    (.error "StateEnforcer denied: capability token is invalid or forged", after)
  else
    let ageMs := reading.millis % 2 ^ 64 - context.timestampMs
    let effectiveTtl := (enforcer.ttlMs + enforcer.clockSkewMs) % 2 ^ 64
    if effectiveTtl < ageMs then
      (.error (s!"StateEnforcer denied: authorization context expired ({ageMs} ms old, max " ++
        s!"{effectiveTtl} ms [TTL {enforcer.ttlMs} + skew {enforcer.clockSkewMs}])"), after)
    else (.ok (), after)

/-- The check of a context against the operation that it is used for. `requested` and
`subject` are the words of the message for the key. -/
def requireFor (context : AuthorizedContext) (operation : OperationType)
    (requested subject keyId : String) : Except String Unit :=
  if context.operation ≠ operation then
    .error (s!"StateEnforcer denied: context operation is {context.operation.debug}, " ++
      s!"not {operation.debug}")
  else if context.keyId ≠ keyId then
    .error (s!"StateEnforcer denied: context key_id {context.keyId} does not match " ++
      s!"{requested} {keyId}")
  else if context.lifecycleState ≠ .active then
    .error (s!"StateEnforcer denied: {subject} {keyId} lifecycle is " ++
      s!"{context.lifecycleState.debug}, not Active")
  else .ok ()

/-- `require_encrypt_for`. -/
def requireEncryptFor (context : AuthorizedContext) (keyId : String) : Except String Unit :=
  context.requireFor .encrypt "requested key" "key" keyId

/-- `require_decrypt_for`. -/
def requireDecryptFor (context : AuthorizedContext) (keyId : String) : Except String Unit :=
  context.requireFor .decrypt "requested key" "key" keyId

/-- `require_sign_for`. -/
def requireSignFor (context : AuthorizedContext) (keyId : String) : Except String Unit :=
  context.requireFor .sign "requested signing key" "signing key" keyId

/-- `require_sign_for_payload`. -/
def requireSignForPayload (sha256 : Bytes → SizedBytes 32) (context : AuthorizedContext)
    (keyId : String) (message : Bytes) : Except String Unit :=
  match context.requireSignFor keyId with
  | .error denial => .error denial
  | .ok () =>
      match context.operationParams with
      | .sign payloadHash =>
          if payloadHash = sha256 message then .ok ()
          else
            .error ("StateEnforcer denied: message hash mismatch (expected " ++
              hexEncode payloadHash.1 ++ ", got " ++ hexEncode (sha256 message).1 ++ ")")
      | _ => .error "StateEnforcer denied: wrong operation params"

end AuthorizedContext

end Citadel.Core
