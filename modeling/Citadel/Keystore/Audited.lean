import Citadel.Audit.Events
import Citadel.Keystore.Signing
import Citadel.Program.Journal

/-!
# The keystore with its audit log

The code of every call with the events that it records. The definitions without events
are what these become when the events are left out (`erase_audited`); parts that record
nothing are shared with them. Recording cannot fail and answers nothing.

Events that the threat assessor records of its own are left out.
-/

namespace Citadel

open Envelope Program Audit

/-- The code of the keystore with the events that it records. -/
abbrev Audited := Recorder Op EventDraft Op.Ret

/-- Perform an operation on the world. -/
abbrev act {ε : Type} (op : Op) : Audited ε op.Ret := .perform (.act op) .ret

/-- The text of the event on a verdict of the policy, before an encryption. -/
def verdictText : PolicyVerdict → Option String
  | .rotationNeeded reason => some s!"BLOCKED: {reason}"
  | .usageLimitExceeded count limit => some s!"BLOCKED: usage {count}/{limit}"
  | .expired ageDays limitDays => some s!"BLOCKED: expired age={ageDays}d limit={limitDays}d"
  | .warning reason => some s!"WARNING: {reason}"
  | .compliant => none

/-- The text of the event on an expired key, before a decryption. -/
def decryptBlockText : PolicyVerdict → Option String
  | .expired ageDays limitDays =>
      some s!"BLOCKED DECRYPT: expired age={ageDays}d limit={limitDays}d"
  | _ => none

/-- Record the text of a verdict, if it has one. -/
def noteVerdict {ε : Type} (id : KeyId) (record : KeyMetadata) : Option String → Audited ε Unit
  | some text => note (keyEvent id record.keyType record.state (.policyEvaluated text))
  | none => .ret ()

namespace Keystore.Audited

variable (ks : Keystore)

/-! ### Unwrapping -/

/-- `unwrap_key_version_inner`: a parent that may not be used is recorded under the
identifier of the child, with the type and the state of the parent. -/
def unwrapKeyVersionInner (skipParentStateCheck : Bool) :
    Nat → KeyId → KeyVersion → Audited String Bytes
  | 0, keyId, _ =>
      .fail (s!"key {keyId.text} hierarchy too deep (>{maxUnwrapDepth} levels); " ++
        "possible circular wrapping")
  | levels + 1, keyId, version =>
      match version.secretKeyMaterial with
      | .destroyed => .fail "key material has been destroyed and cannot be recovered"
      | .plaintext text => (decodeHex "plaintext hex decode" (utf8 text)).lift
      | .encrypted text => (ks.unwrapEncrypted keyId version.version text).lift
      | .citadelWrapped text => do
          let parentId ← Program.ofOption
            (s!"key {keyId.text} v{version.version} is CitadelWrapped but " ++
              "wrapping_key_id is missing") version.wrappingKeyId
          let loaded ← act (.get ⟨parentId⟩)
          let found ← Program.ofExcept
            (fun error : KeystoreError => s!"load parent {parentId}: {error.display}") loaded
          let parent ← Program.ofOption
            (s!"parent key '{parentId}' not found (needed to unwrap '{keyId.text}' " ++
              s!"v{version.version}) — hierarchy broken; use rewrap() to re-wrap under a " ++
              "present parent") found
          if !skipParentStateCheck && !parent.state.canDecrypt then
            note (keyEvent keyId parent.keyType parent.state
              (.hierarchyViolation parentId parent.state.display keyId.text))
            .fail (s!"parent key {parentId} is in state {parent.state.display} — " ++
              s!"hierarchy access denied for {keyId.text} v{version.version}")
          else
            let parentNumber ← Program.ofOption
              (s!"key {keyId.text} v{version.version} is CitadelWrapped but " ++
                "wrapping_key_version is missing") version.wrappingKeyVersion
            let parentVersion ← Program.ofOption
              (s!"parent key {parentId} v{parentNumber} not found (needed to unwrap " ++
                s!"{keyId.text} v{version.version})") (parent.getVersion parentNumber)
            let parentSkBytes ← unwrapKeyVersionInner skipParentStateCheck levels ⟨parentId⟩
              parentVersion
            (ks.unwrapSealed keyId version.version parentId parentSkBytes text).lift

/-- `unwrap_key_version`, from depth 0. -/
def unwrapKeyVersion (keyId : KeyId) (version : KeyVersion) : Audited String Bytes :=
  unwrapKeyVersionInner ks false (maxUnwrapDepth + 1) keyId version

/-- `unwrap_key_version_for_rewrap`. -/
def unwrapKeyVersionForRewrap (keyId : KeyId) (version : KeyVersion) : Audited String Bytes :=
  unwrapKeyVersionInner ks true (maxUnwrapDepth + 1) keyId version

/-! ### Creating keys -/

/-- Wrap a fresh secret, build the record of its key, store it and record the event. -/
def createKey (name : String) (keyType : KeyType) (policyId : Option PolicyId)
    (parentId : Option KeyId) (keyPair : Randomness → Bytes × Bytes) :
    Audited KeystoreError KeyId := do
  let random ← act .osRng
  let id := KeyId.generate random.keyId
  let now ← act .utcNow
  let wrapped ← ((ks.wrapSecretKeyFor id 1 parentId (keyPair random).2).mapErr .storageError).lift
  let stored ← act (.put (newRecord id name keyType policyId parentId now
    (firstVersion now (hexEncode (keyPair random).1) wrapped)))
  Program.ofExcept (fun error : KeystoreError => error) stored
  note (keyEvent id keyType .pending .keyGenerated)
  .ret id

/-- `generate`. -/
def generate (name : String) (keyType : KeyType) (policyId : Option PolicyId)
    (parentId : Option KeyId) : Audited CallError KeyId :=
  Program.mapErr .generate <|
    if keyType = .signing then
      .fail (.hierarchyViolation ("KeyType::Signing keys must be created with " ++
        "generate_signing_key(), not generate(). generate() creates KEM keys; signing keys " ++
        "require ML-DSA-65 keypairs."))
    else do
      ks.requireMasterKey.lift
      (checkHierarchy keyType parentId).lift
      createKey ks name keyType policyId parentId ks.kemKeyPair

/-- `generate_signing_key`. -/
def generateSigningKey (name : String) (policyId : Option PolicyId) (parentId : KeyId) :
    Audited CallError KeyId :=
  Program.mapErr .generate do
    ks.requireMasterKey.lift
    let loaded ← act (.get parentId)
    let found ← Program.ofExcept (fun error : KeystoreError =>
      .storageError s!"load parent for signing key: {error.display}") loaded
    let parent ← Program.ofOption
      (.hierarchyViolation s!"parent key {parentId.text} not found") found
    let process ← act .processEnv
    if parent.keyType.role.canWrap .signingKey = false ∧ process.flatOverride = false then
      .fail (.hierarchyViolation ("Signing key parent must be KeyEncrypting (Kek). " ++
        s!"Got {parent.keyType.debug} ({parent.keyType.role.debug})."))
    else createKey ks name .signing policyId (some parentId) ks.signingKeyPair

/-! ### State transitions -/

/-- `activate`. -/
def activate (id : KeyId) : Audited CallError Unit :=
  Program.mapErr .lifecycle do
    let record ← (get id).lift
    let record ← (transition record .active).lift
    let now ← act .utcNow
    let stored ← act (.put { record with activatedAt := some now })
    Program.ofExcept (fun error : KeystoreError => error) stored
    note (keyEvent id record.keyType record.state .keyActivated)

/-- `rotate`. -/
def rotate (id : KeyId) : Audited CallError KeyId :=
  Program.mapErr .rotate do
    let record ← (get id).lift
    if record.state ≠ .active then .fail (.notActive id)
    else
      ks.requireMasterKey.lift
      let random ← act .osRng
      let (publicKey, secretKey) := ks.kemKeyPair random
      let newVersion := (record.currentVersion + 1) % 2 ^ 32
      let now ← act .utcNow
      let wrapped ← ((ks.wrapSecretKeyFor id newVersion record.parentId secretKey).mapErr
        .storageError).lift
      let stored ← act (.put (rotatedRecord record now
        { firstVersion now (hexEncode publicKey) wrapped with version := newVersion }))
      Program.ofExcept (fun error : KeystoreError => error) stored
      note (keyEvent id record.keyType .active (.keyRotated newVersion))
      .ret id

/-- `rewrap`. -/
def rewrap (id : KeyId) (newParentId : Option KeyId) : Audited CallError Unit :=
  Program.mapErr .rewrap do
    let record ← ((get id).mapErr fun _ => .keyNotFound id).lift
    let version ← Program.ofOption (.keyNotFound id) record.currentKeyVersion
    let skBytes ← (unwrapKeyVersionForRewrap ks id version).mapErr .storageError
    let wrapped ← ((ks.wrapSecretKeyFor id version.version newParentId skBytes).mapErr
      .storageError).lift
    let now ← act .utcNow
    let stored ← act (.put (rewrappedRecord record now wrapped))
    Program.ofExcept (fun error : KeystoreError => error) stored
    note (keyEvent id record.keyType record.state (.keyRewrapped version.wrappingKeyId
      (newParentId.map KeyId.text) wrapped.wrappingKeyVersion))

/-- `revoke`. -/
def revoke (id : KeyId) (reason : String) : Audited CallError Unit :=
  Program.mapErr .lifecycle do
    let record ← (get id).lift
    if record.state ≠ .active then .fail (.invalidTransition id record.state .revoked)
    else
      let revoked ← act .utcNow
      let updated ← act .utcNow
      let stored ← act (.put (revokedRecord record revoked updated))
      Program.ofExcept (fun error : KeystoreError => error) stored
      note (keyEvent id record.keyType .revoked (.keyRevoked reason))

/-- `destroy`. -/
def destroy (id : KeyId) : Audited CallError Unit :=
  Program.mapErr .lifecycle do
    let record ← (get id).lift
    if record.state.canTransitionTo .destroyed = false then
      .fail (.invalidTransition id record.state .destroyed)
    else
      let destroyed ← act .utcNow
      let updated ← act .utcNow
      let overwritten ← act (.overwriteKeyFile id)
      Program.ofExcept (fun error : KeystoreError => error) overwritten
      let stored ← act (.put (destroyedRecord record destroyed updated))
      Program.ofExcept (fun error : KeystoreError => error) stored
      note (keyEvent id record.keyType .destroyed .keyDestroyed)

/-- `expire`. -/
def expire (id : KeyId) : Audited CallError ExpirationSource :=
  Program.mapErr .expire do
    let record ← (get id).lift
    let decision ← (ks.checkExpiration record).lift
    match decision with
    | .required reason source =>
        let now ← act .utcNow
        let stored ← act (.put (expiredRecord record now))
        Program.ofExcept (fun error : KeystoreError => error) stored
        note (keyEvent id record.keyType .expired (.keyExpired reason))
        .ret source
    | _ => .fail (.invalidTransition id record.state .expired)

/-- One loop of `expire_due_keys` over the listed keys. -/
def expireListed : List KeyMetadata → ExpirationReport → Audited CallError ExpirationReport
  | [], report => .ret report
  | record :: rest, report => do
      let decision ← (ks.checkExpiration record).lift
      match decision with
      | .required _ _ =>
          let expired ← Program.attempt (expire ks record.id)
          match expired with
          | .ok source =>
              expireListed rest { report with expired := report.expired ++ [(record.id, source)] }
          | .error error =>
              expireListed rest
                { report with failed := report.failed ++ [(record.id, CallError.display error)] }
      | .warning reason remaining _ =>
          expireListed rest
            { report with warnings := report.warnings ++ [(record.id, reason, remaining)] }
      | .notNeeded => expireListed rest { report with skipped := report.skipped + 1 }

/-- `expire_due_keys`. -/
def expireDueKeys : Audited CallError ExpirationReport := do
  let listed ← act (.listByState .rotated)
  let rotated ← Program.ofExcept .keystore listed
  let report ← expireListed ks rotated .default
  let listed ← act (.listByState .active)
  let active ← Program.ofExcept .keystore listed
  let report ← expireListed ks active report
  note (systemEvent (.expirationCheckRun report.expired.length report.warnings.length))
  .ret report

/-! ### Revocation with its descendants -/

/-- The inner loop: suspend the listed children. The state of the parent is given as
`Revoked`, where unwrapping gives it as `REVOKED`. -/
def suspendChildren (parentId : KeyId) :
    List KeyMetadata → Cascade → Audited CallError Cascade
  | [], cascade => .ret cascade
  | child :: rest, cascade =>
      if alreadyTerminal child.state then suspendChildren parentId rest cascade
      else if child.state.canTransitionTo .suspended = false then
        suspendChildren parentId rest { cascade with
          errors := cascade.errors ++
            [(child.id, s!"cannot suspend {child.name} key (state: {child.state.display})")] }
      else do
        let now ← act .utcNow
        let stored ← act (.put (suspendedRecord child now))
        match stored with
        | .ok _ =>
            note (keyEvent child.id child.keyType .suspended
              (.hierarchyViolation parentId.text "Revoked" child.id.text))
            suspendChildren parentId rest { cascade with
              suspended := cascade.suspended + 1
              stack := child.id :: cascade.stack }
        | .error error =>
            suspendChildren parentId rest { cascade with
              errors := cascade.errors ++ [(child.id, KeystoreError.display error)] }

/-- The outer loop. -/
def cascadeLoop : Nat → Cascade → Audited CallError Cascade
  | 0, cascade =>
      match cascade.stack with
      | [] => .ret cascade
      | _ :: _ => .abort .outOfFuel
  | fuel + 1, cascade =>
      match cascade.stack with
      | [] => .ret cascade
      | parentId :: stack => do
          let listed ← act (.listByParent parentId)
          let children ← Program.ofExcept .cascade listed
          let cascade ← suspendChildren parentId children { cascade with stack := stack }
          cascadeLoop fuel cascade

/-- `revoke_cascade`. -/
def revokeCascade (fuel : Nat) (id : KeyId) (reason : String) :
    Audited CallError (Nat × Nat × List (KeyId × String)) := do
  (revoke id reason).mapErr cascadeError
  let cascade ← cascadeLoop fuel ⟨0, [], [id]⟩
  .ret (1, cascade.suspended, cascade.errors)

/-! ### Using keys -/

/-- `encrypt`. -/
def encrypt (keyId : KeyId) (plaintext : Bytes) (aad : Aad) (context : Context) :
    Audited CallError EncryptedBlob :=
  Program.mapErr .encrypt do
    let record ← ((get keyId).mapErr KeystoreError.display).lift
    if record.state.canEncrypt = false then
      .fail s!"key {keyId.text} is {record.state.display}, cannot encrypt"
    else if encryptsUserData record.keyType = false then
      .fail (s!"key {keyId.text} is type {record.keyType.display}, only DataEncrypting keys can " ++
        "encrypt user data")
    else
      let verdict ← (ks.evaluateEffective record).lift
      noteVerdict keyId record (verdict.bind verdictText)
      match verdict.bind encryptionBlock with
      | some message => .fail message
      | none =>
          let version ← Program.ofOption "no current version" record.currentKeyVersion
          let pk ← (ks.parsePublicKey version.publicKeyHex).lift
          let domainId ← ((resolveDomainForKey keyId).mapErr fun error =>
            s!"domain resolution failed: {error.display}").lift
          let random ← act .osRng
          let ciphertext ← Program.ofExcept
            (fun error : EncodingError => s!"seal: {error.display}")
            (Envelope.seal ks.crypto random.sealing pk plaintext (domainBoundAad domainId aad)
              context)
          let now ← act .utcNow
          let stored ← act (.put (usedRecord record now))
          Program.ofExcept KeystoreError.display stored
          note (keyEvent keyId record.keyType record.state
            (.encryptionPerformed record.currentVersion))
          let encryptedAt ← act .utcNow
          .ret ⟨keyId.text, record.currentVersion, hexEncode ciphertext, encryptedAt⟩

/-- Release the claim and fail. -/
def releaseAndFail {α : Type} (cacheKey : Bytes) : Audited String α := do
  let _ ← act (.release cacheKey)
  .fail "operation failed"

/-- What `decrypt` does once it holds the claim. -/
def openClaimed (record : KeyMetadata) (blob : EncryptedBlob) (version : KeyVersion)
    (domainId : KeyId) (ciphertext : Bytes) (cacheKey : Bytes) (aad : Aad) (context : Context) :
    Audited String Bytes := do
  let keyId : KeyId := ⟨blob.keyId⟩
  let unwrapped ← Program.attempt (unwrapKeyVersion ks keyId version)
  match unwrapped with
  | .error _ => releaseAndFail cacheKey
  | .ok skBytes =>
      match SecretKey.fromBytes ks.crypto skBytes with
      | .error _ => releaseAndFail cacheKey
      | .ok sk =>
          match Envelope.open ks.crypto sk ciphertext (domainBoundAad domainId aad) context with
          | .error _ => do
              note (keyEvent keyId record.keyType record.state (.decryptionFailed blob.keyVersion))
              releaseAndFail cacheKey
          | .ok plaintext => do
              note (keyEvent keyId record.keyType record.state
                (.decryptionPerformed blob.keyVersion))
              .ret plaintext

/-- `decrypt`. -/
def decrypt (blob : EncryptedBlob) (aad : Aad) (context : Context) : Audited CallError Bytes :=
  Program.mapErr .decrypt do
    let keyId : KeyId := ⟨blob.keyId⟩
    let record ← ((get keyId).mapErr fun _ => "operation failed").lift
    if record.state.canDecrypt = false then .fail "operation failed"
    else
      let verdict ← (ks.evaluateEffective record).lift
      if verdict.any PolicyVerdict.isExpired then
        noteVerdict keyId record (verdict.bind decryptBlockText)
        .fail "operation failed"
      else
        let version ← Program.ofOption "operation failed" (record.getVersion blob.keyVersion)
        let ciphertext ← Program.ofExcept (fun _ => "operation failed")
          (hexDecode (utf8 blob.ciphertextHex))
        if ciphertext.length < aeadTagBytes then .fail "operation failed"
        else
          let domainId ← ((resolveDomainForKey keyId).mapErr fun _ => "operation failed").lift
          let nonce ← Program.ofExcept (fun _ => "operation failed") (envelopeNonce ciphertext)
          let cacheKey := deriveReplayKey ks.crypto domainId.text blob.keyId blob.keyVersion nonce
            (aeadTag ciphertext)
          let claimed ← act (.claim cacheKey)
          match claimed with
          | .ok true => openClaimed ks record blob version domainId ciphertext cacheKey aad context
          | .ok false => do
              note (keyEvent keyId record.keyType record.state (.replayDetected blob.keyVersion))
              .fail "operation failed"
          | .error _ => do
              note (keyEvent keyId record.keyType record.state (.replayDetected blob.keyVersion))
              .fail "operation failed"

/-- Record that signing failed, and fail. -/
def signingFails {α : Type} (keyId : KeyId) (record : KeyMetadata) (version : Nat)
    (reason : String) : Audited String α := do
  note (keyEvent keyId record.keyType record.state (.signingFailed version reason))
  .fail reason

/-- `sign`. -/
def sign (keyId : KeyId) (message : Bytes) : Audited CallError SignedPayload :=
  Program.mapErr .sign do
    let record ← ((get keyId).mapErr KeystoreError.display).lift
    if record.keyType ≠ .signing then
      signingFails keyId record record.currentVersion
        (s!"keystore denied: key {keyId.text} is type {record.keyType.display} — " ++
          "sign() requires KeyType::Signing")
    else if record.state ≠ .active then
      signingFails keyId record record.currentVersion
        (s!"keystore denied: key {keyId.text} is {record.state.display} — " ++
          "signing requires Active state")
    else
      let version ← Program.ofOption "no current key version" record.currentKeyVersion
      let unwrapped ← Program.attempt (unwrapKeyVersion ks keyId version)
      match unwrapped with
      | .error error => signingFails keyId record version.version s!"unwrap signing key: {error}"
      | .ok seedBytes =>
          let signature ← Program.ofExcept (fun error => s!"ML-DSA sign failed: {error}")
            (ks.signMessage seedBytes message)
          note (keyEvent keyId record.keyType record.state
            (.signingPerformed version.version message.length))
          let signedAt ← act .utcNow
          .ret ⟨keyId.text, version.version, hexEncode signature, signedAt⟩

/-- `verify_signature`. -/
def verifySignature (keyId : KeyId) (message : Bytes) (signedPayload : SignedPayload) :
    Audited VerifyError Bool :=
  Program.mapErr .mk do
    let record ← ((get keyId).mapErr KeystoreError.display).lift
    if record.keyType ≠ .signing then
      .fail (s!"key {keyId.text} is type {record.keyType.display} — " ++
        "verify_signature() requires KeyType::Signing")
    else if ¬ (record.state = .active ∨ record.state = .rotated) then
      .fail (s!"key {keyId.text} is {record.state.display} — " ++
        "cannot verify (Revoked/Expired/Destroyed keys are terminal)")
    else
      let version ← Program.ofOption
        s!"key {keyId.text} version {signedPayload.keyVersion} not found"
        (record.getVersion signedPayload.keyVersion)
      let vkBytes ← (decodeHex "decode verifying key hex" (utf8 version.publicKeyHex)).lift
      let sigBytes ← (decodeHex "decode signature hex" (utf8 signedPayload.signatureHex)).lift
      let valid ← Program.ofExcept
        (fun error : VerifyError => s!"ML-DSA verify failed: {error.display}")
        (ks.verifyMessage vkBytes message sigBytes)
      note (keyEvent keyId record.keyType record.state
        (.verificationPerformed signedPayload.keyVersion valid))
      .ret valid

end Keystore.Audited

/-- The code of a call with its events. `reason` is what a revocation is given. -/
def Call.audited (ks : Keystore) (fuel : Nat) (reason : String) :
    Call → Audited CallError CallValue
  | .generate name keyType policyId parentId => do
      return .key (← Keystore.Audited.generate ks name keyType policyId parentId)
  | .generateSigningKey name policyId parentId => do
      return .key (← Keystore.Audited.generateSigningKey ks name policyId parentId)
  | .activate id => do
      Keystore.Audited.activate id
      return .done
  | .rotate id => do return .key (← Keystore.Audited.rotate ks id)
  | .rewrap id newParentId => do
      Keystore.Audited.rewrap ks id newParentId
      return .done
  | .revoke id => do
      Keystore.Audited.revoke id reason
      return .done
  | .revokeCascade id => do
      let (revoked, suspended, errors) ← Keystore.Audited.revokeCascade fuel id reason
      return .cascade revoked suspended errors
  | .expire id => do return .source (← Keystore.Audited.expire ks id)
  | .expireDueKeys => do return .report (← Keystore.Audited.expireDueKeys ks)
  | .destroy id => do
      Keystore.Audited.destroy id
      return .done
  | .encrypt keyId plaintext aad context => do
      return .blob (← Keystore.Audited.encrypt ks keyId plaintext aad context)
  | .decrypt blob aad context => do
      return .plaintext (← Keystore.Audited.decrypt ks blob aad context)
  | .sign keyId message => do return .signature (← Keystore.Audited.sign ks keyId message)

/-! ### The code without its events -/

namespace Keystore.Audited

variable {ks : Keystore}

@[simp] theorem erase_noteVerdict {ε : Type} (id : KeyId) (record : KeyMetadata)
    (text : Option String) : (noteVerdict id record text : Audited ε Unit).erase = .ret () := by
  cases text <;> rfl

theorem erase_unwrapKeyVersionInner (skip : Bool) (levels : Nat) (keyId : KeyId)
    (version : KeyVersion) : (unwrapKeyVersionInner ks skip levels keyId version).erase =
      ks.unwrapKeyVersionInner skip levels keyId version := by
  induction levels generalizing keyId version with
  | zero => rfl
  | succ levels ih =>
      unfold unwrapKeyVersionInner Keystore.unwrapKeyVersionInner
      cases version.secretKeyMaterial with
      | destroyed => rfl
      | plaintext text => exact erase_lift _
      | encrypted text => exact erase_lift _
      | citadelWrapped text =>
          simp only [erase_bind, erase_ofOption, erase_ofExcept, erase_act]
          refine bind_congr fun parentId => bind_congr fun loaded => ?_
          refine bind_congr fun found => bind_congr fun parent => ?_
          split
          · rfl
          · simp only [erase_bind, erase_ofOption, erase_lift, ih]

@[simp] theorem erase_unwrapKeyVersion (keyId : KeyId) (version : KeyVersion) :
    (unwrapKeyVersion ks keyId version).erase = ks.unwrapKeyVersion keyId version :=
  erase_unwrapKeyVersionInner false _ keyId version

@[simp] theorem erase_unwrapKeyVersionForRewrap (keyId : KeyId) (version : KeyVersion) :
    (unwrapKeyVersionForRewrap ks keyId version).erase =
      ks.unwrapKeyVersionForRewrap keyId version :=
  erase_unwrapKeyVersionInner true _ keyId version

@[simp] theorem erase_createKey (name : String) (keyType : KeyType) (policyId : Option PolicyId)
    (parentId : Option KeyId) (keyPair : Randomness → Bytes × Bytes) :
    (createKey ks name keyType policyId parentId keyPair).erase =
      ks.createKey name keyType policyId parentId keyPair := by
  simp only [createKey, erase_act, erase_bind, erase_lift, erase_ofExcept, erase_note, ret_bind,
    erase_ret]
  rfl

@[simp] theorem erase_generate (name : String) (keyType : KeyType) (policyId : Option PolicyId)
    (parentId : Option KeyId) : (generate ks name keyType policyId parentId).erase =
      ks.generate name keyType policyId parentId := by
  unfold generate Keystore.generate
  rw [erase_mapErr]
  split
  · rfl
  · simp only [erase_bind, erase_lift, erase_createKey]

@[simp] theorem erase_generateSigningKey (name : String) (policyId : Option PolicyId)
    (parentId : KeyId) : (generateSigningKey ks name policyId parentId).erase =
      ks.generateSigningKey name policyId parentId := by
  unfold generateSigningKey Keystore.generateSigningKey
  simp only [erase_mapErr, erase_bind, erase_lift, erase_act, erase_ofExcept, erase_ofOption]
  congr 1
  refine bind_congr fun _ => bind_congr fun loaded => bind_congr fun found => ?_
  refine bind_congr fun parent => bind_congr fun process => ?_
  split
  · rfl
  · exact erase_createKey _ _ _ _ _

@[simp] theorem erase_activate (id : KeyId) : (activate id).erase = Keystore.activate id := by
  simp only [activate, erase_mapErr, erase_bind, erase_lift, erase_act, erase_ofExcept, erase_note,
    bind_ret_unit]
  rfl

@[simp] theorem erase_rotate (id : KeyId) : (rotate ks id).erase = ks.rotate id := by
  unfold rotate Keystore.rotate
  simp only [erase_mapErr, erase_bind, erase_lift]
  congr 1
  refine bind_congr fun record => ?_
  split
  · rfl
  · simp only [erase_bind, erase_lift, erase_act, erase_ofExcept, erase_note, erase_ret, ret_bind]
    rfl

@[simp] theorem erase_rewrap (id : KeyId) (newParentId : Option KeyId) :
    (rewrap ks id newParentId).erase = ks.rewrap id newParentId := by
  simp only [rewrap, erase_mapErr, erase_bind, erase_lift, erase_act, erase_ofExcept,
    erase_ofOption, erase_note, erase_unwrapKeyVersionForRewrap, bind_ret_unit]
  rfl

@[simp] theorem erase_revoke (id : KeyId) (reason : String) :
    (revoke id reason).erase = Keystore.revoke id := by
  unfold revoke Keystore.revoke
  simp only [erase_mapErr, erase_bind, erase_lift]
  congr 1
  refine bind_congr fun record => ?_
  split
  · rfl
  · simp only [erase_bind, erase_act, erase_ofExcept, erase_note, bind_ret_unit]
    rfl

@[simp] theorem erase_destroy (id : KeyId) : (destroy id).erase = Keystore.destroy id := by
  unfold destroy Keystore.destroy
  simp only [erase_mapErr, erase_bind, erase_lift]
  congr 1
  refine bind_congr fun record => ?_
  split
  · rfl
  · simp only [erase_bind, erase_act, erase_ofExcept, erase_note, bind_ret_unit]
    rfl

@[simp] theorem erase_expire (id : KeyId) : (expire ks id).erase = ks.expire id := by
  unfold expire Keystore.expire
  simp only [erase_mapErr, erase_bind, erase_lift]
  congr 1
  refine bind_congr fun record => bind_congr fun decision => ?_
  cases decision with
  | required reason source =>
      simp only [erase_bind, erase_act, erase_ofExcept, erase_note, erase_ret, ret_bind]
      rfl
  | warning reason remaining source => rfl
  | notNeeded => rfl

@[simp] theorem erase_expireListed (records : List KeyMetadata) (report : ExpirationReport) :
    (expireListed ks records report).erase = ks.expireListed records report := by
  induction records generalizing report with
  | nil => rfl
  | cons record rest ih =>
      unfold expireListed Keystore.expireListed
      rw [erase_bind, erase_lift]
      refine bind_congr fun decision => ?_
      cases decision with
      | required reason source =>
          simp only [erase_bind, erase_attempt, erase_expire]
          refine bind_congr fun expired => ?_
          cases expired with
          | ok source => exact ih _
          | error error => exact ih _
      | warning reason remaining source => exact ih _
      | notNeeded => exact ih _

@[simp] theorem erase_expireDueKeys : (expireDueKeys ks).erase = ks.expireDueKeys := by
  simp only [expireDueKeys, erase_bind, erase_act, erase_ofExcept, erase_expireListed, erase_note,
    erase_ret, ret_bind, bind_ret]
  rfl

theorem erase_suspendChildren (parentId : KeyId) (children : List KeyMetadata)
    (cascade : Cascade) : (suspendChildren parentId children cascade).erase =
      Keystore.suspendChildren children cascade := by
  induction children generalizing cascade with
  | nil => rfl
  | cons child rest ih =>
      unfold suspendChildren Keystore.suspendChildren
      split
      · exact ih _
      · split
        · exact ih _
        · simp only [erase_bind, erase_act]
          refine bind_congr fun now => bind_congr fun stored => ?_
          cases stored with
          | ok done =>
              simp only [erase_bind, erase_note, ret_bind]
              exact ih _
          | error error => exact ih _

theorem erase_cascadeLoop (fuel : Nat) (cascade : Cascade) :
    (cascadeLoop fuel cascade).erase = Keystore.cascadeLoop fuel cascade := by
  induction fuel generalizing cascade with
  | zero =>
      unfold cascadeLoop Keystore.cascadeLoop
      cases cascade.stack with
      | nil => rfl
      | cons parentId stack => rfl
  | succ fuel ih =>
      unfold cascadeLoop Keystore.cascadeLoop
      cases cascade.stack with
      | nil => rfl
      | cons parentId stack =>
          simp only [erase_bind, erase_act, erase_ofExcept, erase_suspendChildren, ih]
          rfl

@[simp] theorem erase_revokeCascade (fuel : Nat) (id : KeyId) (reason : String) :
    (revokeCascade fuel id reason).erase = Keystore.revokeCascade fuel id := by
  simp only [revokeCascade, Keystore.revokeCascade, erase_bind, erase_mapErr, erase_revoke,
    erase_cascadeLoop, erase_ret]

@[simp] theorem erase_encrypt (keyId : KeyId) (plaintext : Bytes) (aad : Aad) (context : Context) :
    (encrypt ks keyId plaintext aad context).erase = ks.encrypt keyId plaintext aad context := by
  unfold encrypt Keystore.encrypt
  simp only [erase_mapErr, erase_bind, erase_lift]
  congr 1
  refine bind_congr fun record => ?_
  split
  · rfl
  · split
    · rfl
    · simp only [erase_bind, erase_lift, erase_noteVerdict, ret_bind]
      refine bind_congr fun verdict => ?_
      cases verdict.bind encryptionBlock with
      | some message => rfl
      | none =>
          simp only [erase_bind, erase_lift, erase_act, erase_ofExcept, erase_ofOption, erase_note,
            erase_ret, ret_bind]
          rfl

theorem erase_openClaimed (record : KeyMetadata) (blob : EncryptedBlob) (version : KeyVersion)
    (domainId : KeyId) (ciphertext : Bytes) (cacheKey : Bytes) (aad : Aad) (context : Context) :
    (openClaimed ks record blob version domainId ciphertext cacheKey aad context).erase =
      ks.openClaimed ⟨blob.keyId⟩ version domainId ciphertext cacheKey aad context := by
  unfold openClaimed Keystore.openClaimed
  simp only [erase_bind, erase_attempt, erase_unwrapKeyVersion]
  refine bind_congr fun unwrapped => ?_
  cases unwrapped with
  | error error => rfl
  | ok skBytes =>
      simp only
      cases SecretKey.fromBytes ks.crypto skBytes with
      | error error => rfl
      | ok sk =>
          simp only
          cases Envelope.open ks.crypto sk ciphertext (domainBoundAad domainId aad) context with
          | error error => rfl
          | ok plaintext => rfl

@[simp] theorem erase_decrypt (blob : EncryptedBlob) (aad : Aad) (context : Context) :
    (decrypt ks blob aad context).erase = ks.decrypt blob aad context := by
  unfold decrypt Keystore.decrypt
  simp only [erase_mapErr, erase_bind, erase_lift]
  congr 1
  refine bind_congr fun record => ?_
  split
  · rfl
  · simp only [erase_bind, erase_lift]
    refine bind_congr fun verdict => ?_
    split
    · simp only [erase_bind, erase_noteVerdict, ret_bind, erase_fail]
    · simp only [erase_bind, erase_ofOption, erase_ofExcept]
      refine bind_congr fun version => bind_congr fun ciphertext => ?_
      split
      · rfl
      · simp only [erase_bind, erase_lift, erase_ofExcept, erase_act]
        refine bind_congr fun domainId => bind_congr fun nonce => bind_congr fun claimed => ?_
        rcases claimed with error | _ | _
        · rfl
        · rfl
        · exact erase_openClaimed _ _ _ _ _ _ _ _

@[simp] theorem erase_sign (keyId : KeyId) (message : Bytes) :
    (sign ks keyId message).erase = ks.sign keyId message := by
  unfold sign Keystore.sign
  simp only [erase_mapErr, erase_bind, erase_lift]
  congr 1
  refine bind_congr fun record => ?_
  split
  · rfl
  · split
    · rfl
    · simp only [erase_bind, erase_ofOption, erase_attempt, erase_unwrapKeyVersion]
      refine bind_congr fun version => ?_
      rw [← attempt_bind_eq]
      refine bind_congr fun unwrapped => ?_
      cases unwrapped with
      | error error => rfl
      | ok seedBytes =>
          simp only [erase_bind, erase_ofExcept, erase_note, erase_act, erase_ret, ret_bind]
          rfl

@[simp] theorem erase_verifySignature (keyId : KeyId) (message : Bytes) (payload : SignedPayload) :
    (verifySignature ks keyId message payload).erase =
      ks.verifySignature keyId message payload := by
  unfold verifySignature Keystore.verifySignature
  simp only [erase_mapErr, erase_bind, erase_lift]
  congr 1
  refine bind_congr fun record => ?_
  split
  · rfl
  · split
    · rfl
    · simp only [erase_bind, erase_ofOption, erase_lift, erase_ofExcept, erase_note, erase_ret,
        ret_bind, bind_ret]

end Keystore.Audited

open Keystore.Audited in
/-- Without its events the code of a call is the code without events. -/
theorem Call.erase_audited (ks : Keystore) (fuel : Nat) (reason : String) (call : Call) :
    (call.audited ks fuel reason).erase = call.prog ks fuel := by
  cases call with
  | generate name keyType policyId parentId => simp [Call.audited, Call.prog]
  | generateSigningKey name policyId parentId => simp [Call.audited, Call.prog]
  | activate id => simp [Call.audited, Call.prog]
  | rotate id => simp [Call.audited, Call.prog]
  | rewrap id newParentId => simp [Call.audited, Call.prog]
  | revoke id => simp [Call.audited, Call.prog]
  | revokeCascade id => simp [Call.audited, Call.prog]
  | expire id => simp [Call.audited, Call.prog]
  | expireDueKeys => simp [Call.audited, Call.prog]
  | destroy id => simp [Call.audited, Call.prog]
  | encrypt keyId plaintext aad context => simp [Call.audited, Call.prog]
  | decrypt blob aad context => simp [Call.audited, Call.prog]
  | sign keyId message => simp [Call.audited, Call.prog]

end Citadel
