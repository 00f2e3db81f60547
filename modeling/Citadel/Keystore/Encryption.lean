import Citadel.Keystore.Lifecycle

/-!
# Using keys

`encrypt` seals to the current public key and writes the record back to count the
use. `decrypt` claims the ciphertext in the replay store before it touches the key,
and releases the claim on every failure after that point. All its errors are one.
-/

namespace Citadel

open Envelope

/-- A ciphertext and the key that made it (`EncryptedBlob`). -/
structure EncryptedBlob where
  keyId : String
  keyVersion : Nat
  ciphertextHex : String
  encryptedAt : Nat
  deriving DecidableEq, Repr

/-- `SignedPayload`. -/
structure SignedPayload where
  keyId : String
  keyVersion : Nat
  signatureHex : String
  signedAt : Nat
  deriving DecidableEq, Repr

/-- The error text of a verdict that blocks encryption. -/
def encryptionBlock : PolicyVerdict → Option String
  | .rotationNeeded reason =>
      some s!"policy violation: {reason}. Rotate key before encrypting."
  | .usageLimitExceeded count limit =>
      some s!"policy violation: usage {count}/{limit} exceeded. Rotate key before encrypting."
  | .expired ageDays limitDays =>
      some (s!"policy violation: key expired after {ageDays} days; limit is {limitDays} days. " ++
        "Rotate key before encrypting.")
  | .warning _ => none
  | .compliant => none

/-- The caller's associated data, bound to the domain of the key. -/
def domainBoundAad (domainId : KeyId) (aad : Aad) : Aad :=
  .raw (utf8 domainId.text ++ utf8 ":" ++ aad.inner)

/-- The record after one more use. The counter is 64-bit. -/
def usedRecord (record : KeyMetadata) (now : Nat) : KeyMetadata :=
  { record with usageCount := (record.usageCount + 1) % 2 ^ 64, updatedAt := now }

/-- The tag of a ciphertext: its last 16 bytes. -/
def aeadTag (ciphertext : Bytes) : Bytes := ciphertext.drop (ciphertext.length - aeadTagBytes)

namespace Keystore

variable (ks : Keystore)

/-- Whether a key of this type may encrypt user data. -/
def encryptsUserData : KeyType → Bool
  | .dataEncrypting => true
  | .hybridIdentity => true
  | _ => false

/-- The public key of a stored version. -/
def parsePublicKey (publicKeyHex : String) : Prog String PublicKey := do
  let pkBytes ← decodeHex "decode pk" (utf8 publicKeyHex)
  Program.ofExcept (fun _ => "parse public key failed") (PublicKey.fromBytes ks.crypto pkBytes)

/-- `encrypt`. -/
def encrypt (keyId : KeyId) (plaintext : Bytes) (aad : Aad) (context : Context) :
    Prog CallError EncryptedBlob :=
  Program.mapErr .encrypt do
    let record ← (get keyId).mapErr KeystoreError.display
    if record.state.canEncrypt = false then
      .fail s!"key {keyId.text} is {record.state.display}, cannot encrypt"
    else if encryptsUserData record.keyType = false then
      .fail (s!"key {keyId.text} is type {record.keyType.display}, only DataEncrypting keys can " ++
        "encrypt user data")
    else
      let verdict ← ks.evaluateEffective record
      match verdict.bind encryptionBlock with
      | some message => .fail message
      | none =>
          let version ← Program.ofOption "no current version" record.currentKeyVersion
          let pk ← ks.parsePublicKey version.publicKeyHex
          let domainId ← (resolveDomainForKey keyId).mapErr fun error =>
            s!"domain resolution failed: {error.display}"
          let random ← osRng
          let ciphertext ← Program.ofExcept
            (fun error : EncodingError => s!"seal: {error.display}")
            (Envelope.seal ks.crypto random.sealing pk plaintext (domainBoundAad domainId aad)
              context)
          let now ← utcNow
          let stored ← storagePut (usedRecord record now)
          Program.ofExcept KeystoreError.display stored
          let encryptedAt ← utcNow
          .ret ⟨keyId.text, record.currentVersion, hexEncode ciphertext, encryptedAt⟩

/-- Release the claim and fail (the three failure paths after the claim). -/
def releaseAndFail {α : Type} (cacheKey : Bytes) : Prog String α := do
  let _ ← replayRelease cacheKey
  .fail "operation failed"

/-- What `decrypt` does once it holds the claim. -/
def openClaimed (keyId : KeyId) (version : KeyVersion) (domainId : KeyId) (ciphertext : Bytes)
    (cacheKey : Bytes) (aad : Aad) (context : Context) : Prog String Bytes := do
  let unwrapped ← Program.attempt (ks.unwrapKeyVersion keyId version)
  match unwrapped with
  | .error _ => releaseAndFail cacheKey
  | .ok skBytes =>
      match SecretKey.fromBytes ks.crypto skBytes with
      | .error _ => releaseAndFail cacheKey
      | .ok sk =>
          match Envelope.open ks.crypto sk ciphertext (domainBoundAad domainId aad) context with
          | .error _ => releaseAndFail cacheKey
          | .ok plaintext => .ret plaintext

/-- `decrypt`. -/
def decrypt (blob : EncryptedBlob) (aad : Aad) (context : Context) : Prog CallError Bytes :=
  Program.mapErr .decrypt do
    let keyId : KeyId := ⟨blob.keyId⟩
    let record ← (get keyId).mapErr fun _ => "operation failed"
    if record.state.canDecrypt = false then .fail "operation failed"
    else
      let verdict ← ks.evaluateEffective record
      if verdict.any PolicyVerdict.isExpired then .fail "operation failed"
      else
        let version ← Program.ofOption "operation failed" (record.getVersion blob.keyVersion)
        let ciphertext ← Program.ofExcept (fun _ => "operation failed")
          (hexDecode (utf8 blob.ciphertextHex))
        if ciphertext.length < aeadTagBytes then .fail "operation failed"
        else
          let domainId ← (resolveDomainForKey keyId).mapErr fun _ => "operation failed"
          let nonce ← Program.ofExcept (fun _ => "operation failed") (envelopeNonce ciphertext)
          let cacheKey := deriveReplayKey ks.crypto domainId.text blob.keyId blob.keyVersion nonce
            (aeadTag ciphertext)
          let claimed ← replayClaim cacheKey
          match claimed with
          | .ok true => ks.openClaimed keyId version domainId ciphertext cacheKey aad context
          | .ok false => .fail "operation failed"
          | .error _ => .fail "operation failed"

/-- `citadel_signer::dsa::sign_message`. -/
def signMessage (seed message : Bytes) : Except String Bytes :=
  if exact : seed.length = 32 then
    match ks.crypto.mldsaSign ⟨seed, exact⟩ message with
    | some signature => .ok signature
    | none => .error "SignError: ML-DSA sign: signature error"
  else .error s!"SignError: seed must be 32 bytes, got {seed.length}"

/-- `sign`. -/
def sign (keyId : KeyId) (message : Bytes) : Prog CallError SignedPayload :=
  Program.mapErr .sign do
    let record ← (get keyId).mapErr KeystoreError.display
    if record.keyType ≠ .signing then
      .fail (s!"keystore denied: key {keyId.text} is type {record.keyType.display} — " ++
        "sign() requires KeyType::Signing")
    else if record.state ≠ .active then
      .fail (s!"keystore denied: key {keyId.text} is {record.state.display} — " ++
        "signing requires Active state")
    else
      let version ← Program.ofOption "no current key version" record.currentKeyVersion
      let seedBytes ← (ks.unwrapKeyVersion keyId version).mapErr fun error =>
        s!"unwrap signing key: {error}"
      let signature ← Program.ofExcept (fun error => s!"ML-DSA sign failed: {error}")
        (ks.signMessage seedBytes message)
      let signedAt ← utcNow
      .ret ⟨keyId.text, version.version, hexEncode signature, signedAt⟩

end Keystore

end Citadel
