import Citadel.Data.Bytes

/-!
# The cryptographic seam

The envelope reaches every primitive through one seam: hashes, HKDF, AES-256-GCM
and the two arms of the hybrid key encapsulation. The crates behind that seam are
outside the repository, so they are the fields of `Crypto`. `Crypto.Lawful` states
the documented behaviour the code relies on, and nothing about secrecy.

Fresh randomness is an explicit argument everywhere.
-/

namespace Citadel.Envelope

/-- `EncodingError`, the uniform error of the sealing direction. -/
structure EncodingError where
  deriving DecidableEq, Repr

/-- The text of an `EncodingError`. -/
def EncodingError.display (_ : EncodingError) : String := "encoding error"

/-- `DecryptionError`, the uniform error of the opening direction. -/
structure DecryptionError where
  deriving DecidableEq, Repr

/-- The text of a `DecryptionError`. -/
def DecryptionError.display (_ : DecryptionError) : String := "decryption failed"

/-- `From<EncodingError> for DecryptionError`. -/
def EncodingError.toDecryptionError (_ : EncodingError) : DecryptionError := ⟨⟩

/-- The primitives of the crates behind the seam. -/
structure Crypto where
  /-- `x25519_dalek`: the public key of a secret. -/
  x25519PublicKey : SizedBytes 32 → SizedBytes 32
  /-- `x25519_dalek`: `diffie_hellman`, as the bytes of the shared secret. -/
  diffieHellman : SizedBytes 32 → SizedBytes 32 → SizedBytes 32
  /-- `ml_kem`: a parsed decapsulation key. -/
  DecapsulationKey : Type
  /-- `ml_kem`: key generation from its random seed. -/
  mlkemFromSeed : SizedBytes 64 → DecapsulationKey
  mlkemEncapsulationKey : DecapsulationKey → SizedBytes 1184
  /-- `ml_kem`: whether `EncapsulationKey::new` accepts the encoding. -/
  mlkemAccepts : SizedBytes 1184 → Bool
  /-- `ml_kem`: ciphertext and shared secret from the key and the random message. -/
  mlkemEncapsulate : SizedBytes 1184 → SizedBytes 32 → SizedBytes 1088 × SizedBytes 32
  mlkemDecapsulate : DecapsulationKey → SizedBytes 1088 → SizedBytes 32
  mlkemToExpandedBytes : DecapsulationKey → SizedBytes 2400
  mlkemFromExpandedBytes : SizedBytes 2400 → Option DecapsulationKey
  sha256 : Bytes → SizedBytes 32
  sha3_256 : Bytes → SizedBytes 32
  /-- `hkdf`: extract with an optional salt, expand the info to 32 bytes. The
  expansion refuses only outputs of more than 255 blocks. -/
  hkdfSha256 : Option Bytes → Bytes → Bytes → SizedBytes 32
  /-- `aes_gcm`: key, nonce, message, associated data; refuses oversized input. -/
  aesGcmEncrypt : SizedBytes 32 → SizedBytes 12 → Bytes → Bytes → Option Bytes
  aesGcmDecrypt : SizedBytes 32 → SizedBytes 12 → Bytes → Bytes → Option Bytes
  /-- `ml_dsa`: the encoded verifying key of a seed. -/
  mldsaVerifyingKey : SizedBytes 32 → SizedBytes 1952
  /-- `ml_dsa`: the encoded signature of a message, if signing succeeds. -/
  mldsaSign : SizedBytes 32 → Bytes → Option Bytes
  /-- `ml_dsa`: whether an encoded signature of a message verifies, unless it cannot be
  decoded. -/
  mldsaVerify : SizedBytes 1952 → Bytes → SizedBytes 3309 → Option Bool

/-- What the code relies on: both parties of a Diffie-Hellman exchange agree,
ML-KEM decapsulation undoes encapsulation, the expanded key encoding is faithful,
and AES-GCM decryption undoes encryption with a 16-byte tag. -/
structure Crypto.Lawful (crypto : Crypto) : Prop where
  diffieHellman_comm : ∀ mine yours,
    crypto.diffieHellman mine (crypto.x25519PublicKey yours) =
      crypto.diffieHellman yours (crypto.x25519PublicKey mine)
  mlkemAccepts_encapsulationKey : ∀ key,
    crypto.mlkemAccepts (crypto.mlkemEncapsulationKey key) = true
  mlkemDecapsulate_encapsulate : ∀ key message,
    crypto.mlkemDecapsulate key
        (crypto.mlkemEncapsulate (crypto.mlkemEncapsulationKey key) message).1 =
      (crypto.mlkemEncapsulate (crypto.mlkemEncapsulationKey key) message).2
  mlkemFromExpandedBytes_toExpandedBytes : ∀ key,
    crypto.mlkemFromExpandedBytes (crypto.mlkemToExpandedBytes key) = some key
  aesGcmDecrypt_encrypt : ∀ key nonce message aad ciphertext,
    crypto.aesGcmEncrypt key nonce message aad = some ciphertext →
      crypto.aesGcmDecrypt key nonce ciphertext aad = some message
  aesGcmEncrypt_length : ∀ key nonce message aad ciphertext,
    crypto.aesGcmEncrypt key nonce message aad = some ciphertext →
      ciphertext.length = message.length + 16

/-- Signing with an empty context never fails, and its signature verifies under the
verifying key of the same seed. -/
def Crypto.Signs (crypto : Crypto) : Prop :=
  ∀ seed message, ∃ signature : SizedBytes 3309, crypto.mldsaSign seed message = some signature.1 ∧
    crypto.mldsaVerify (crypto.mldsaVerifyingKey seed) message signature = some true

/-- The randomness one `seal` draws: the coins of the encapsulation and the nonce
of the cipher, absent when the system's random source fails. -/
structure SealCoins (Coins : Type) where
  encapsulation : Coins
  nonce : Option (SizedBytes 12)

/-- A hybrid key-encapsulation suite (`trait KemProvider`). -/
structure KemProvider where
  PublicKey : Type
  SecretKey : Type
  Seed : Type
  Coins : Type
  suiteKem : UInt8
  kemCiphertextBytes : Nat
  kemPublicKeyBytes : Nat
  kemSecretKeyBytes : Nat
  keygen : Seed → PublicKey × SecretKey
  /-- The combined shared secret and the ciphertext. -/
  encapsulate : Coins → PublicKey → Except EncodingError (Bytes × Bytes)
  decapsulate : SecretKey → Bytes → Except DecryptionError Bytes
  publicKeyBytes : PublicKey → Bytes
  publicKeyOf : SecretKey → PublicKey

/-- What the trait asks of its implementors. -/
structure KemProvider.Lawful (provider : KemProvider) : Prop where
  encapsulate_length : ∀ coins key secret ciphertext,
    provider.encapsulate coins key = .ok (secret, ciphertext) →
      ciphertext.length = provider.kemCiphertextBytes
  decapsulate_encapsulate : ∀ coins key secret ciphertext,
    provider.encapsulate coins (provider.publicKeyOf key) = .ok (secret, ciphertext) →
      provider.decapsulate key ciphertext = .ok secret

/-- `aead::aead_seal` behind the seam: the backend draws the nonce itself. -/
def aeadSeal (crypto : Crypto) (nonce : Option (SizedBytes 12)) (key : SizedBytes 32)
    (plaintext aad : Bytes) : Except EncodingError (SizedBytes 12 × Bytes) :=
  match nonce with
  | none => .error ⟨⟩
  | some nonce =>
      match crypto.aesGcmEncrypt key nonce plaintext aad with
      | none => .error ⟨⟩
      | some ciphertext => .ok (nonce, ciphertext)

/-- `aead::aead_open`. -/
def aeadOpen (crypto : Crypto) (key : SizedBytes 32) (nonce : SizedBytes 12)
    (ciphertext aad : Bytes) : Except DecryptionError Bytes :=
  match crypto.aesGcmDecrypt key nonce ciphertext aad with
  | none => .error ⟨⟩
  | some plaintext => .ok plaintext

/-- What a successful `aeadSeal` did. -/
theorem aeadSeal_eq_ok {crypto : Crypto} {drawn : Option (SizedBytes 12)} {key : SizedBytes 32}
    {plaintext aad ciphertext : Bytes} {nonce : SizedBytes 12}
    (sealed : aeadSeal crypto drawn key plaintext aad = .ok (nonce, ciphertext)) :
    drawn = some nonce ∧ crypto.aesGcmEncrypt key nonce plaintext aad = some ciphertext := by
  cases drawn with
  | none => cases sealed
  | some chosen =>
      simp only [aeadSeal] at sealed
      split at sealed
      · cases sealed
      · rename_i found
        cases sealed
        exact ⟨rfl, found⟩

end Citadel.Envelope
