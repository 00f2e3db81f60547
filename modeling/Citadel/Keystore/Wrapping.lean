import Citadel.Keystore.Storage

/-!
# Wrapping and unwrapping secret keys

A secret key is stored encrypted under the master key, or sealed to the public key
of a parent in the hierarchy. Unwrapping a sealed key reads the parent's record and
unwraps the parent first, through at most `maxUnwrapDepth` further levels.
-/

namespace Citadel

open Envelope

/-- A keystore: the crates it calls, its master key and its policies. -/
structure Keystore where
  crypto : Crypto
  masterKey : Option (SizedBytes 32)
  policies : PolicyId → Option KeyPolicy

/-- `MAX_UNWRAP_DEPTH`. -/
def maxUnwrapDepth : Nat := 4

/-- `HIERARCHY_WRAP_AAD`. -/
def hierarchyWrapAad : Aad := .raw (utf8 "citadel-kek-hierarchy-v2")

/-- The context that binds a sealed key to its own identity and to its parent. -/
def hierarchyWrapContext (childId : KeyId) (childVersion : Nat) (parentId : String) : Context :=
  .forSecrets s!"kek-wrap-v2:{childId.text}:{childVersion}" parentId

/-- The bytes of that context. -/
theorem hierarchyWrapContext_inner (childId : KeyId) (childVersion : Nat) (parentId : String) :
    (hierarchyWrapContext childId childVersion parentId).inner =
      utf8 "secrets|kek-wrap-v2:" ++ (utf8 childId.text ++ (utf8 ":" ++
        (utf8 (toString childVersion) ++ (utf8 "|" ++ utf8 parentId)))) := by
  have front : utf8 "secrets|kek-wrap-v2:" = utf8 "secrets|" ++ utf8 "kek-wrap-v2:" := by
    rw [← utf8_append]
    rfl
  simp [hierarchyWrapContext, Context.forSecrets, front, toString]

/-- The text of `FromHexError` after a label. -/
def hexError (label : String) (error : FromHexError) : String := s!"{label}: {error.display}"

/-- Continue with decoded hexadecimal text. -/
def decodeHex (label : String) (text : Bytes) : Prog String Bytes :=
  .ofExcept (hexError label) (hexDecode text)

namespace Keystore

variable (ks : Keystore)

/-- The key that wraps one version of one key: HKDF of the master key. -/
def masterWrapKey (masterKey : SizedBytes 32) (keyId : KeyId) (version : Nat) : SizedBytes 32 :=
  ks.crypto.hkdfSha256 none masterKey.1
    (utf8 "citadel-kek-v1:" ++ utf8 keyId.text ++ utf8 ":" ++ beBytes 4 version)

/-- `wrap_with_master_key`. -/
def wrapWithMasterKey (keyId : KeyId) (version : Nat) (skBytes : Bytes) :
    Prog String SecretKeyMaterial :=
  match ks.masterKey with
  | none => .ret (.plaintext (hexEncode skBytes))
  | some masterKey => do
      let random ← osRng
      let aesKey := ks.masterWrapKey masterKey keyId version
      match ks.crypto.aesGcmEncrypt aesKey random.wrapNonce skBytes [] with
      | none => .fail "AES-256-GCM encrypt failed"
      | some ciphertext =>
          .ret (.encrypted ("enc:" ++ hexEncode random.wrapNonce.1 ++ hexEncode ciphertext))

/-- `wrap_with_citadel_key`. -/
def wrapWithCitadelKey (childId : KeyId) (childVersion : Nat) (parentId : KeyId)
    (parentPkHex : String) (skBytes : Bytes) : Prog String SecretKeyMaterial := do
  let pkBytes ← decodeHex "decode parent public key hex" (utf8 parentPkHex)
  let pk ← Program.ofExcept (fun _ => "parse parent public key failed")
    (PublicKey.fromBytes ks.crypto pkBytes)
  let random ← osRng
  let ciphertext ← Program.ofExcept
    (fun error : EncodingError => s!"Citadel seal for hierarchy wrap: {error.display}")
    (Envelope.seal ks.crypto random.sealing pk skBytes hierarchyWrapAad
      (hierarchyWrapContext childId childVersion parentId.text))
  .ret (.citadelWrapped ("ckw:" ++ hexEncode ciphertext))

/-- A wrapped secret with the parent and parent version that wrapped it. -/
structure Wrapped where
  material : SecretKeyMaterial
  wrappingKeyId : Option String
  wrappingKeyVersion : Option Nat
  deriving DecidableEq, Repr

/-- The key types whose public key wraps their children. -/
def wrapsChildren : KeyType → Bool
  | .keyEncrypting => true
  | .domain => true
  | _ => false

/-- `wrap_secret_key_for`: seal to a key-encrypting or domain parent, else use the
master key. -/
def wrapSecretKeyFor (keyId : KeyId) (version : Nat) (parentId : Option KeyId)
    (skBytes : Bytes) : Prog String Wrapped := do
  match parentId with
  | none =>
      let material ← ks.wrapWithMasterKey keyId version skBytes
      .ret ⟨material, none, none⟩
  | some parentId =>
      let loaded ← storageGet parentId
      let found ← Program.ofExcept
        (fun error : KeystoreError => s!"load parent {parentId.text}: {error.display}") loaded
      let parent ← Program.ofOption s!"parent key {parentId.text} not found" found
      if wrapsChildren parent.keyType then
        let parentVersion ← Program.ofOption s!"parent {parentId.text} has no current version"
          parent.currentKeyVersion
        let material ← ks.wrapWithCitadelKey keyId version parentId parentVersion.publicKeyHex
          skBytes
        .ret ⟨material, some parentId.text, some parentVersion.version⟩
      else
        let material ← ks.wrapWithMasterKey keyId version skBytes
        .ret ⟨material, none, none⟩

/-- Whether a text can be cut at a byte index (`is_char_boundary`). -/
def isCharBoundary (text : Bytes) (index : Nat) : Bool :=
  match text[index]? with
  | none => index == text.length
  | some byte => byte.toNat < 128 || 192 ≤ byte.toNat

/-- Unwrap material encrypted under the master key. -/
def unwrapEncrypted (keyId : KeyId) (version : Nat) (text : String) : Prog String Bytes :=
  match ks.masterKey with
  | none => .fail "key is AES-wrapped but CITADEL_MASTER_KEY is not set"
  | some masterKey =>
      if (utf8 "enc:").isPrefixOf (utf8 text) then
        let payload := (utf8 text).drop 4
        if payload.length < 24 then .fail "encrypted key blob too short"
        else if isCharBoundary payload 24 then do
          let nonceBytes ← decodeHex "nonce hex" (payload.take 24)
          let ciphertext ← decodeHex "ct hex" (payload.drop 24)
          let nonce ← Program.ofExcept (fun _ => "nonce must be 12 bytes") (toSized 12 nonceBytes)
          let aesKey := ks.masterWrapKey masterKey keyId version
          Program.ofOption "AES-256-GCM decryption failed — wrong master key or corruption"
            (ks.crypto.aesGcmDecrypt aesKey nonce ciphertext [])
        else .abort (.panic "byte index 24 is not a char boundary")
      else .fail "malformed Encrypted material: missing 'enc:' prefix"

/-- Unwrap material sealed to a parent whose secret key is at hand. -/
def unwrapSealed (keyId : KeyId) (version : Nat) (parentId : String) (parentSkBytes : Bytes)
    (text : String) : Prog String Bytes := do
  let parentSk ← Program.ofExcept (fun _ => s!"parse parent {parentId} secret key failed")
    (SecretKey.fromBytes ks.crypto parentSkBytes)
  if (utf8 "ckw:").isPrefixOf (utf8 text) then
    let ciphertext ← decodeHex "decode CitadelWrapped" ((utf8 text).drop 4)
    Program.ofExcept
      (fun _ => s!"CitadelWrapped decryption failed for key {keyId.text} v{version} " ++
        "(wrong parent key or corruption)")
      (Envelope.open ks.crypto parentSk ciphertext hierarchyWrapAad
        (hierarchyWrapContext keyId version parentId))
  else .fail "malformed CitadelWrapped material: missing 'ckw:' prefix"

/-- `unwrap_key_version_inner`. `levels` counts down from `maxUnwrapDepth + 1`: it
is what the source's `depth` has left. -/
def unwrapKeyVersionInner (skipParentStateCheck : Bool) :
    Nat → KeyId → KeyVersion → Prog String Bytes
  | 0, keyId, _ =>
      .fail (s!"key {keyId.text} hierarchy too deep (>{maxUnwrapDepth} levels); " ++
        "possible circular wrapping")
  | levels + 1, keyId, version =>
      match version.secretKeyMaterial with
      | .destroyed => .fail "key material has been destroyed and cannot be recovered"
      | .plaintext text => decodeHex "plaintext hex decode" (utf8 text)
      | .encrypted text => ks.unwrapEncrypted keyId version.version text
      | .citadelWrapped text => do
          let parentId ← Program.ofOption
            (s!"key {keyId.text} v{version.version} is CitadelWrapped but " ++
              "wrapping_key_id is missing") version.wrappingKeyId
          let loaded ← storageGet ⟨parentId⟩
          let found ← Program.ofExcept
            (fun error : KeystoreError => s!"load parent {parentId}: {error.display}") loaded
          let parent ← Program.ofOption
            (s!"parent key '{parentId}' not found (needed to unwrap '{keyId.text}' " ++
              s!"v{version.version}) — hierarchy broken; use rewrap() to re-wrap under a " ++
              "present parent") found
          if !skipParentStateCheck && !parent.state.canDecrypt then
            .fail (s!"parent key {parentId} is in state {parent.state.display} — " ++
              s!"hierarchy access denied for {keyId.text} v{version.version}")
          else
            let parentNumber ← Program.ofOption
              (s!"key {keyId.text} v{version.version} is CitadelWrapped but " ++
                "wrapping_key_version is missing") version.wrappingKeyVersion
            let parentVersion ← Program.ofOption
              (s!"parent key {parentId} v{parentNumber} not found (needed to unwrap " ++
                s!"{keyId.text} v{version.version})") (parent.getVersion parentNumber)
            let parentSkBytes ← unwrapKeyVersionInner skipParentStateCheck levels ⟨parentId⟩
              parentVersion
            ks.unwrapSealed keyId version.version parentId parentSkBytes text

/-- `unwrap_key_version`, from depth 0. -/
def unwrapKeyVersion (keyId : KeyId) (version : KeyVersion) : Prog String Bytes :=
  ks.unwrapKeyVersionInner false (maxUnwrapDepth + 1) keyId version

/-- `unwrap_key_version_for_rewrap`: reads through parents in any state. -/
def unwrapKeyVersionForRewrap (keyId : KeyId) (version : KeyVersion) : Prog String Bytes :=
  ks.unwrapKeyVersionInner true (maxUnwrapDepth + 1) keyId version

end Keystore

/-- `extract_wrap_nonce`. The material it sees is ASCII. -/
def extractWrapNonce : SecretKeyMaterial → Option String
  | .encrypted text =>
      if 28 < (utf8 text).length then some (String.ofList ((text.toList.drop 4).take 24)) else none
  | _ => none

end Citadel
