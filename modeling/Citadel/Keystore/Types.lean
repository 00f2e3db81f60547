import Mathlib.Data.List.Basic

/-!
# Keys and their records

The data model of the keystore: identifiers, key types and roles, the lifecycle
table, and the persisted record of a key with all its versions. Instants are
nanoseconds since the epoch. A record's free-form tags are left out: no operation
reads them.
-/

namespace Citadel

/-- A key identifier (`KeyId`). -/
structure KeyId where
  text : String
  deriving DecidableEq, Repr

/-- A policy identifier (`PolicyId`). -/
structure PolicyId where
  text : String
  deriving DecidableEq, Repr

/-- Position in the key hierarchy (`KeyType`). -/
inductive KeyType where
  | root
  | domain
  | keyEncrypting
  | dataEncrypting
  | hybridIdentity
  | signing
  deriving DecidableEq, Repr

/-- `Display for KeyType`. -/
def KeyType.display : KeyType → String
  | .root => "ROOT"
  | .domain => "DOMAIN"
  | .keyEncrypting => "KEK"
  | .dataEncrypting => "DEK"
  | .hybridIdentity => "HYBRID-ID"
  | .signing => "SIGNING"

/-- `Debug for KeyType`. -/
def KeyType.debug : KeyType → String
  | .root => "Root"
  | .domain => "Domain"
  | .keyEncrypting => "KeyEncrypting"
  | .dataEncrypting => "DataEncrypting"
  | .hybridIdentity => "HybridIdentity"
  | .signing => "Signing"

/-- Formal role of a key (`KeyRole`). -/
inductive KeyRole where
  | root
  | domainKek
  | kek
  | dek
  | hybridIdentityKey
  | signingKey
  deriving DecidableEq, Repr

/-- `Debug for KeyRole`. -/
def KeyRole.debug : KeyRole → String
  | .root => "Root"
  | .domainKek => "DomainKek"
  | .kek => "Kek"
  | .dek => "Dek"
  | .hybridIdentityKey => "HybridIdentityKey"
  | .signingKey => "SigningKey"

/-- `From<KeyType> for KeyRole`. -/
def KeyType.role : KeyType → KeyRole
  | .root => .root
  | .domain => .domainKek
  | .keyEncrypting => .kek
  | .dataEncrypting => .dek
  | .hybridIdentity => .hybridIdentityKey
  | .signing => .signingKey

/-- `KeyRole::can_wrap`. -/
def KeyRole.canWrap : KeyRole → KeyRole → Bool
  | .root, .domainKek => true
  | .domainKek, .kek => true
  | .kek, .dek => true
  | .kek, .hybridIdentityKey => true
  | .kek, .signingKey => true
  | _, _ => false

/-- Key lifecycle state (`KeyState`). -/
inductive KeyState where
  | pending
  | active
  | rotated
  | expired
  | revoked
  | suspended
  | destroyed
  deriving DecidableEq, Repr

namespace KeyState

/-- `Display for KeyState`. -/
def display : KeyState → String
  | .pending => "PENDING"
  | .active => "ACTIVE"
  | .rotated => "ROTATED"
  | .expired => "EXPIRED"
  | .revoked => "REVOKED"
  | .suspended => "SUSPENDED"
  | .destroyed => "DESTROYED"

/-- `can_encrypt`. -/
def canEncrypt : KeyState → Bool
  | .active => true
  | _ => false

/-- `can_decrypt`. -/
def canDecrypt : KeyState → Bool
  | .active => true
  | .rotated => true
  | _ => false

/-- `valid_transitions`. -/
def validTransitions : KeyState → List KeyState
  | .pending => [.active, .destroyed]
  | .active => [.rotated, .revoked, .expired, .suspended]
  | .rotated => [.expired, .suspended]
  | .suspended => [.active, .destroyed]
  | .expired => [.destroyed]
  | .revoked => [.destroyed]
  | .destroyed => []

/-- `can_transition_to`. -/
def canTransitionTo (current target : KeyState) : Bool :=
  current.validTransitions.contains target

/-- The states in which a key may be used for something. -/
theorem canDecrypt_iff {state : KeyState} :
    state.canDecrypt = true ↔ state = .active ∨ state = .rotated := by
  cases state <;> decide

end KeyState

/-- Stored secret material (`SecretKeyMaterial`). -/
inductive SecretKeyMaterial where
  /-- Wrapped by the master key: `enc:`, nonce and ciphertext in hexadecimal. -/
  | encrypted (text : String)
  /-- Sealed to the parent key: `ckw:` and the envelope in hexadecimal. -/
  | citadelWrapped (text : String)
  /-- Plain hexadecimal, for development. -/
  | plaintext (text : String)
  | destroyed
  deriving DecidableEq, Repr

/-- Cryptographic algorithm of a wrapping (`WrapAlgorithm`). -/
inductive WrapAlgorithm where
  | aes256GcmHkdfSha256
  | citadelHybridV2
  deriving DecidableEq, Repr

/-- How a version's material is protected (`WrappingMode`). -/
inductive WrappingMode where
  | externalMaster
  | wrappedByKey (parentKeyId : String) (parentVersion : Nat) (algorithm : WrapAlgorithm)
  | hsmBacked (provider keyRef : String)
  deriving DecidableEq, Repr

/-- One version of a key (`KeyVersion`). -/
structure KeyVersion where
  version : Nat
  createdAt : Nat
  publicKeyHex : String
  secretKeyMaterial : SecretKeyMaterial
  wrappingKeyId : Option String
  wrappingKeyVersion : Option Nat
  wrapNonceHex : Option String
  wrappingMode : Option WrappingMode
  deriving DecidableEq, Repr

/-- The persisted record of a key (`KeyMetadata`). -/
structure KeyMetadata where
  id : KeyId
  name : String
  keyType : KeyType
  state : KeyState
  policyId : Option PolicyId
  parentId : Option KeyId
  createdAt : Nat
  updatedAt : Nat
  activatedAt : Option Nat
  rotatedAt : Option Nat
  revokedAt : Option Nat
  destroyedAt : Option Nat
  versions : List KeyVersion
  currentVersion : Nat
  usageCount : Nat
  deriving DecidableEq, Repr

namespace KeyMetadata

/-- `get_version`: the first version with the number. -/
def getVersion (record : KeyMetadata) (version : Nat) : Option KeyVersion :=
  record.versions.find? fun candidate => candidate.version = version

/-- `current_key_version`. -/
def currentKeyVersion (record : KeyMetadata) : Option KeyVersion :=
  record.getVersion record.currentVersion

/-- A version that is found carries the number it was asked for. -/
theorem version_of_getVersion {record : KeyMetadata} {number : Nat} {found : KeyVersion}
    (lookup : record.getVersion number = some found) : found.version = number := by
  simpa using List.find?_some lookup

/-- A version that is found is one of the record's versions. -/
theorem mem_of_getVersion {record : KeyMetadata} {number : Nat} {found : KeyVersion}
    (lookup : record.getVersion number = some found) : found ∈ record.versions :=
  List.mem_of_find?_eq_some lookup

end KeyMetadata

end Citadel
