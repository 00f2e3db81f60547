import Citadel.Keystore.Wrapping

/-!
# Creating keys and moving them through their lifecycle

Every operation reads a whole record, changes it in memory and writes the whole
record back.
-/

namespace Citadel

open Envelope

/-- `KeyId::generate`. -/
def KeyId.generate (random : SizedBytes 16) : KeyId := ⟨hexEncode random.1⟩

/-- Apply a change to the first version with a number (`iter_mut().find`). -/
def updateVersion (number : Nat) (change : KeyVersion → KeyVersion) :
    List KeyVersion → List KeyVersion
  | [] => []
  | version :: rest =>
      if version.version = number then change version :: rest
      else version :: updateVersion number change rest

/-- The decision about a key that has existed for `elapsed` of its `limit`. -/
def expirationDecision (limit : Nat) (elapsed : Int) (required warning : String)
    (source : ExpirationSource) : ExpirationDecision :=
  if chronoFromStd limit ≤ elapsed then .required required source
  else if Float64.nineTenths.scaleI64 (asSecs limit) ≤ numSeconds elapsed then
    .warning warning (chronoFromStd limit - elapsed).toNat source
  else .notNeeded

namespace Keystore

variable (ks : Keystore)

/-- `get`. -/
def get (id : KeyId) : Prog KeystoreError KeyMetadata := do
  let loaded ← storageGet id
  let found ← Program.ofExcept (fun error : KeystoreError => error) loaded
  Program.ofOption (.keyNotFound id) found

/-- The loop of `resolve_domain_for_key`, with the iterations left and the depth. -/
def resolveDomainFrom (start : KeyId) : Nat → Nat → KeyId → Prog KeystoreError KeyId
  | 0, _, _ =>
      .fail (.hierarchyViolation (s!"resolve_domain_for_key exceeded max depth (10) starting " ++
        s!"from {start.text} — possible cycle in parent chain"))
  | left + 1, depth, current => do
      let record ← get current
      match record.keyType with
      | .domain => .ret record.id
      | .root => .fail (.hierarchyViolation "Root key has no Domain ancestor")
      | _ =>
          let parentId ← Program.ofOption
            (.hierarchyViolation (s!"Key {current.text} is orphaned (no parent) and not a " ++
              s!"Domain (depth {depth})")) record.parentId
          resolveDomainFrom start left (depth + 1) parentId

/-- `resolve_domain_for_key`. -/
def resolveDomainForKey (keyId : KeyId) : Prog KeystoreError KeyId :=
  resolveDomainFrom keyId 10 0 keyId

/-- `effective_policy_for`, at a threat level. -/
def effectivePolicyFor (record : KeyMetadata) (level : ThreatLevel) : Option KeyPolicy :=
  (record.policyId.bind ks.policies).map fun base => adapt base level

/-- `grace_period_for`. -/
def gracePeriodFor (record : KeyMetadata) (level : ThreatLevel) : Nat :=
  ((ks.effectivePolicyFor record level).map KeyPolicy.rotationGracePeriod).getD
    (fromSecs (7 * 86400))

/-- `max_lifetime_for`. -/
def maxLifetimeFor (record : KeyMetadata) (level : ThreatLevel) : Option Nat :=
  (ks.effectivePolicyFor record level).bind KeyPolicy.maxLifetime

/-- Evaluate the policy of a record, adapted to the current threat level. -/
def evaluateEffective {ε : Type} (record : KeyMetadata) : Prog ε (Option PolicyVerdict) := do
  let level ← currentThreatLevel
  match ks.effectivePolicyFor record level with
  | none => .ret none
  | some policy =>
      let now ← utcNow
      match evaluate policy record now with
      | .error why => .abort why
      | .ok verdict => .ret (some verdict)

/-- The fail-closed check that secrets can be wrapped. -/
def requireMasterKey : Prog KeystoreError Unit :=
  match ks.masterKey with
  | some _ => .ret ()
  | none => do
      let process ← processEnv
      if process.devMode then .ret ()
      else
        .fail (.storageError ("CITADEL_MASTER_KEY is not set. Set CITADEL_MASTER_KEY or " ++
          "set CITADEL_ALLOW_PLAINTEXT_KEYS=1 and CITADEL_ENV=development."))

/-- The hierarchy rules of `generate`: only a root has no parent, and the parent's
role must be able to wrap the child's. -/
def checkHierarchy (keyType : KeyType) (parentId : Option KeyId) : Prog KeystoreError Unit := do
  let process ← processEnv
  match parentId with
  | none =>
      if keyType ≠ .root ∧ process.flatOverride = false then
        .fail (.hierarchyViolation (s!"{keyType.debug} keys require a parent. " ++
          "Valid hierarchy: Root → Domain → KeyEncrypting → DataEncrypting. " ++
          "Set CITADEL_ALLOW_FLAT_DEKS=1 with CITADEL_ENV=development to override " ++
          "for testing only."))
      else .ret ()
  | some parentId =>
      let loaded ← storageGet parentId
      let found ← Program.ofExcept (fun error : KeystoreError =>
        .storageError s!"load parent for hierarchy check {parentId.text}: {error.display}") loaded
      let parent ← Program.ofOption
        (.hierarchyViolation s!"parent key {parentId.text} not found") found
      if parent.keyType.role.canWrap keyType.role = false ∧ process.flatOverride = false then
        .fail (.hierarchyViolation
          (s!"{keyType.debug} ({keyType.role.debug}) cannot be a child of " ++
            s!"{parent.keyType.debug} ({parent.keyType.role.debug}). " ++
            "Valid hierarchy: Root → Domain → KeyEncrypting → DataEncrypting/HybridIdentity. " ++
            "Set CITADEL_ALLOW_FLAT_DEKS=1 with CITADEL_ENV=development to override " ++
            "for testing only."))
      else .ret ()

/-- The first version of a key. -/
def firstVersion (now : Nat) (publicKeyHex : String) (wrapped : Wrapped) : KeyVersion :=
  { version := 1
    createdAt := now
    publicKeyHex := publicKeyHex
    secretKeyMaterial := wrapped.material
    wrappingKeyId := wrapped.wrappingKeyId
    wrappingKeyVersion := wrapped.wrappingKeyVersion
    wrapNonceHex := extractWrapNonce wrapped.material
    wrappingMode := none }

/-- The record of a new key. -/
def newRecord (id : KeyId) (name : String) (keyType : KeyType) (policyId : Option PolicyId)
    (parentId : Option KeyId) (now : Nat) (version : KeyVersion) : KeyMetadata :=
  { id := id
    name := name
    keyType := keyType
    state := .pending
    policyId := policyId
    parentId := parentId
    createdAt := now
    updatedAt := now
    activatedAt := none
    rotatedAt := none
    revokedAt := none
    destroyedAt := none
    versions := [version]
    currentVersion := 1
    usageCount := 0 }

/-- Wrap a fresh secret, build the record of its key and store it. -/
def createKey (name : String) (keyType : KeyType) (policyId : Option PolicyId)
    (parentId : Option KeyId) (keyPair : Randomness → Bytes × Bytes) :
    Prog KeystoreError KeyId := do
  let random ← osRng
  let id := KeyId.generate random.keyId
  let now ← utcNow
  let wrapped ← (ks.wrapSecretKeyFor id 1 parentId (keyPair random).2).mapErr .storageError
  let stored ← storagePut (newRecord id name keyType policyId parentId now
    (firstVersion now (hexEncode (keyPair random).1) wrapped))
  Program.ofExcept (fun error : KeystoreError => error) stored
  .ret id

/-- The bytes of a fresh encryption key pair. -/
def kemKeyPair (random : Randomness) : Bytes × Bytes :=
  ((keygen ks.crypto random.keypair).1.toBytes, (keygen ks.crypto random.keypair).2.toBytes)

/-- The bytes of a fresh signing key pair: the verifying key and the seed. -/
def signingKeyPair (random : Randomness) : Bytes × Bytes :=
  ((ks.crypto.mldsaVerifyingKey random.signingSeed).1, random.signingSeed.1)

/-- `generate`. -/
def generate (name : String) (keyType : KeyType) (policyId : Option PolicyId)
    (parentId : Option KeyId) : Prog CallError KeyId :=
  Program.mapErr .generate <|
    if keyType = .signing then
      .fail (.hierarchyViolation ("KeyType::Signing keys must be created with " ++
        "generate_signing_key(), not generate(). generate() creates KEM keys; signing keys " ++
        "require ML-DSA-65 keypairs."))
    else do
      ks.requireMasterKey
      checkHierarchy keyType parentId
      ks.createKey name keyType policyId parentId ks.kemKeyPair

/-- `generate_signing_key`. -/
def generateSigningKey (name : String) (policyId : Option PolicyId) (parentId : KeyId) :
    Prog CallError KeyId :=
  Program.mapErr .generate do
    ks.requireMasterKey
    let loaded ← storageGet parentId
    let found ← Program.ofExcept (fun error : KeystoreError =>
      .storageError s!"load parent for signing key: {error.display}") loaded
    let parent ← Program.ofOption
      (.hierarchyViolation s!"parent key {parentId.text} not found") found
    let process ← processEnv
    if parent.keyType.role.canWrap .signingKey = false ∧ process.flatOverride = false then
      .fail (.hierarchyViolation ("Signing key parent must be KeyEncrypting (Kek). " ++
        s!"Got {parent.keyType.debug} ({parent.keyType.role.debug})."))
    else ks.createKey name .signing policyId (some parentId) ks.signingKeyPair

/-- `transition`: the only check against the transition table besides `destroy`. -/
def transition (record : KeyMetadata) (target : KeyState) : Prog KeystoreError KeyMetadata :=
  if record.state.canTransitionTo target then do
    let now ← utcNow
    .ret { record with state := target, updatedAt := now }
  else .fail (.invalidTransition record.id record.state target)

/-- `activate`. -/
def activate (id : KeyId) : Prog CallError Unit :=
  Program.mapErr .lifecycle do
    let record ← get id
    let record ← transition record .active
    let now ← utcNow
    let stored ← storagePut { record with activatedAt := some now }
    Program.ofExcept (fun error : KeystoreError => error) stored

/-- The record after a rotation: the new version is live at once. -/
def rotatedRecord (record : KeyMetadata) (now : Nat) (version : KeyVersion) : KeyMetadata :=
  { record with
    versions := record.versions ++ [version]
    currentVersion := version.version
    state := .active
    activatedAt := some now
    rotatedAt := some now
    updatedAt := now }

/-- `rotate`. Version numbers are 32-bit. -/
def rotate (id : KeyId) : Prog CallError KeyId :=
  Program.mapErr .rotate do
    let record ← get id
    if record.state ≠ .active then .fail (.notActive id)
    else
      ks.requireMasterKey
      let random ← osRng
      let (publicKey, secretKey) := ks.kemKeyPair random
      let newVersion := (record.currentVersion + 1) % 2 ^ 32
      let now ← utcNow
      let wrapped ← (ks.wrapSecretKeyFor id newVersion record.parentId secretKey).mapErr
        .storageError
      let stored ← storagePut (rotatedRecord record now
        { firstVersion now (hexEncode publicKey) wrapped with version := newVersion })
      Program.ofExcept (fun error : KeystoreError => error) stored
      .ret id

/-- A version whose secret is wrapped anew. -/
def rewrappedVersion (wrapped : Wrapped) (version : KeyVersion) : KeyVersion :=
  { version with
    secretKeyMaterial := wrapped.material
    wrappingKeyId := wrapped.wrappingKeyId
    wrappingKeyVersion := wrapped.wrappingKeyVersion
    wrapNonceHex := extractWrapNonce wrapped.material
    wrappingMode := none }

/-- The record after its current version was wrapped anew. -/
def rewrappedRecord (record : KeyMetadata) (now : Nat) (wrapped : Wrapped) : KeyMetadata :=
  { record with
    versions := updateVersion record.currentVersion (rewrappedVersion wrapped) record.versions
    updatedAt := now }

/-- `rewrap`. It changes how the current version is wrapped, never `parentId`. -/
def rewrap (id : KeyId) (newParentId : Option KeyId) : Prog CallError Unit :=
  Program.mapErr .rewrap do
    let record ← (get id).mapErr fun _ => .keyNotFound id
    let version ← Program.ofOption (.keyNotFound id) record.currentKeyVersion
    let skBytes ← (ks.unwrapKeyVersionForRewrap id version).mapErr .storageError
    let wrapped ← (ks.wrapSecretKeyFor id version.version newParentId skBytes).mapErr .storageError
    let now ← utcNow
    let stored ← storagePut (rewrappedRecord record now wrapped)
    Program.ofExcept (fun error : KeystoreError => error) stored

/-- The record after a revocation. -/
def revokedRecord (record : KeyMetadata) (revoked updated : Nat) : KeyMetadata :=
  { record with state := .revoked, revokedAt := some revoked, updatedAt := updated }

/-- `revoke`. The reason goes to the audit log only. -/
def revoke (id : KeyId) : Prog CallError Unit :=
  Program.mapErr .lifecycle do
    let record ← get id
    if record.state ≠ .active then .fail (.invalidTransition id record.state .revoked)
    else
      let revoked ← utcNow
      let updated ← utcNow
      let stored ← storagePut (revokedRecord record revoked updated)
      Program.ofExcept (fun error : KeystoreError => error) stored

/-- `zeroize_and_destroy` and the marker in the public key. -/
def destroyedVersion (version : KeyVersion) : KeyVersion :=
  { version with secretKeyMaterial := .destroyed, publicKeyHex := "DESTROYED" }

/-- The record after its destruction. -/
def destroyedRecord (record : KeyMetadata) (destroyed updated : Nat) : KeyMetadata :=
  { record with
    versions := record.versions.map destroyedVersion
    state := .destroyed
    destroyedAt := some destroyed
    updatedAt := updated }

/-- `destroy`. -/
def destroy (id : KeyId) : Prog CallError Unit :=
  Program.mapErr .lifecycle do
    let record ← get id
    if record.state.canTransitionTo .destroyed = false then
      .fail (.invalidTransition id record.state .destroyed)
    else
      let destroyed ← utcNow
      let updated ← utcNow
      let overwritten ← storageOverwriteKeyFile id
      Program.ofExcept (fun error : KeystoreError => error) overwritten
      let stored ← storagePut (destroyedRecord record destroyed updated)
      Program.ofExcept (fun error : KeystoreError => error) stored

/-- `check_expiration`. -/
def checkExpiration {ε : Type} (record : KeyMetadata) : Prog ε ExpirationDecision :=
  match record.state with
  | .rotated =>
      match record.rotatedAt with
      | none => .ret .notNeeded
      | some rotatedAt => do
          let level ← currentThreatLevel
          let now ← utcNow
          let grace := ks.gracePeriodFor record level
          let elapsed : Int := now - rotatedAt
          .ret (expirationDecision grace elapsed
            s!"rotated {numSeconds elapsed}s ago, grace period {asSecs grace}s"
            "grace period expiring soon" .gracePeriodExpired)
  | .active => do
      let level ← currentThreatLevel
      match ks.maxLifetimeFor record level, record.activatedAt with
      | some maxLifetime, some activatedAt =>
          let now ← utcNow
          let elapsed : Int := now - activatedAt
          .ret (expirationDecision maxLifetime elapsed
            s!"active for {numSeconds elapsed}s, max lifetime {asSecs maxLifetime}s"
            "max lifetime expiring soon" .maxLifetimeExceeded)
      | _, _ => .ret .notNeeded
  | _ => .ret .notNeeded

/-- The record after its expiration. -/
def expiredRecord (record : KeyMetadata) (now : Nat) : KeyMetadata :=
  { record with state := .expired, updatedAt := now }

/-- `expire`. -/
def expire (id : KeyId) : Prog CallError ExpirationSource :=
  Program.mapErr .expire do
    let record ← get id
    let decision ← ks.checkExpiration record
    match decision with
    | .required _ source =>
        let now ← utcNow
        let stored ← storagePut (expiredRecord record now)
        Program.ofExcept (fun error : KeystoreError => error) stored
        .ret source
    | _ => .fail (.invalidTransition id record.state .expired)

/-- One loop of `expire_due_keys` over the listed keys. -/
def expireListed : List KeyMetadata → ExpirationReport → Prog CallError ExpirationReport
  | [], report => .ret report
  | record :: rest, report => do
      let decision ← ks.checkExpiration record
      match decision with
      | .required _ _ =>
          let expired ← Program.attempt (ks.expire record.id)
          match expired with
          | .ok source =>
              expireListed rest { report with expired := report.expired ++ [(record.id, source)] }
          | .error error =>
              expireListed rest
                { report with failed := report.failed ++ [(record.id, CallError.display error)] }
      | .warning reason remaining _ =>
          expireListed rest
            { report with warnings := report.warnings ++ [(record.id, reason, remaining)] }
      | .notNeeded => expireListed rest { report with skipped := report.skipped + 1 }

/-- `expire_due_keys`. -/
def expireDueKeys : Prog CallError ExpirationReport := do
  let listed ← storageListByState .rotated
  let rotated ← Program.ofExcept .keystore listed
  let report ← ks.expireListed rotated .default
  let listed ← storageListByState .active
  let active ← Program.ofExcept .keystore listed
  ks.expireListed active report

end Keystore

end Citadel
