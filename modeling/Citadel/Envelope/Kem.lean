import Citadel.Envelope.Backend

/-!
# The X25519 + ML-KEM-768 suite

The provider of suite `0xA3`. Public keys, secret keys and ciphertexts are the
concatenation of their two arms, and so is the shared secret.
-/

namespace Citadel.Envelope

def x25519KeyBytes : Nat := 32
def mlkemCiphertextBytes : Nat := 1088
def mlkemPublicKeyBytes : Nat := 1184
def mlkemSecretKeyBytes : Nat := 2400

/-- `KEM_CIPHERTEXT_BYTES`, 1120. -/
def kemCiphertextBytes : Nat := x25519KeyBytes + mlkemCiphertextBytes

/-- `KEM_PUBLIC_KEY_BYTES`, 1216. -/
def kemPublicKeyBytes : Nat := x25519KeyBytes + mlkemPublicKeyBytes

/-- `KEM_SECRET_KEY_BYTES`, 2432. -/
def kemSecretKeyBytes : Nat := x25519KeyBytes + mlkemSecretKeyBytes

def suiteKemHybridX25519Mlkem768 : UInt8 := 0xA3

/-- Cut a byte string into a prefix of known size and the rest (`try_into` of a
slice): absent when the string is too short. -/
def splitSized (count : Nat) (bytes : Bytes) : Option (SizedBytes count × Bytes) :=
  if enough : (bytes.take count).length = count then
    some (⟨bytes.take count, enough⟩, bytes.drop count)
  else none

@[simp] theorem splitSized_append {count : Nat} (front : SizedBytes count) (rest : Bytes) :
    splitSized count (front.1 ++ rest) = some (front, rest) := by
  have taken : (front.1 ++ rest).take count = front.1 := List.take_left' front.2
  have dropped : (front.1 ++ rest).drop count = rest := List.drop_left' front.2
  simp [splitSized, taken, dropped]

/-- `PublicKey`: an X25519 public key and an ML-KEM encapsulation key. -/
structure PublicKey where
  x25519 : SizedBytes 32
  mlkemBytes : SizedBytes 1184
  deriving DecidableEq

/-- `PublicKey::to_bytes`. -/
def PublicKey.toBytes (key : PublicKey) : Bytes := key.x25519.1 ++ key.mlkemBytes.1

/-- `SecretKey`: an X25519 secret and an ML-KEM decapsulation key. -/
structure SecretKey (crypto : Crypto) where
  x25519 : SizedBytes 32
  mlkem : crypto.DecapsulationKey

/-- The seed of a key pair: the X25519 secret and the ML-KEM seed. -/
structure KeygenSeed where
  x25519 : SizedBytes 32
  mlkem : SizedBytes 64

/-- The coins of an encapsulation: the ephemeral X25519 secret and the ML-KEM message. -/
structure EncapsulationCoins where
  x25519 : SizedBytes 32
  mlkem : SizedBytes 32

variable (crypto : Crypto)

/-- `PublicKey::from_bytes`. -/
def PublicKey.fromBytes (bytes : Bytes) : Except DecryptionError PublicKey :=
  if bytes.length ≠ kemPublicKeyBytes then .error ⟨⟩
  else
    match splitSized 32 bytes with
    | none => .error ⟨⟩
    | some (x25519, rest) =>
        match splitSized 1184 rest with
        | none => .error ⟨⟩
        | some (mlkemBytes, _) =>
            if crypto.mlkemAccepts mlkemBytes then .ok ⟨x25519, mlkemBytes⟩ else .error ⟨⟩

variable {crypto}

/-- `SecretKey::to_bytes`. -/
def SecretKey.toBytes (key : SecretKey crypto) : Bytes :=
  key.x25519.1 ++ (crypto.mlkemToExpandedBytes key.mlkem).1

variable (crypto)

/-- `SecretKey::from_bytes`. -/
def SecretKey.fromBytes (bytes : Bytes) : Except DecryptionError (SecretKey crypto) :=
  if bytes.length ≠ kemSecretKeyBytes then .error ⟨⟩
  else
    match splitSized 32 bytes with
    | none => .error ⟨⟩
    | some (x25519, rest) =>
        match splitSized 2400 rest with
        | none => .error ⟨⟩
        | some (mlkemBytes, _) =>
            match crypto.mlkemFromExpandedBytes mlkemBytes with
            | none => .error ⟨⟩
            | some mlkem => .ok ⟨x25519, mlkem⟩

variable {crypto}

/-- `SecretKey::public_key`. -/
def SecretKey.publicKey (key : SecretKey crypto) : PublicKey :=
  ⟨crypto.x25519PublicKey key.x25519, crypto.mlkemEncapsulationKey key.mlkem⟩

variable (crypto)

/-- `keygen`. -/
def keygen (seed : KeygenSeed) : PublicKey × SecretKey crypto :=
  let mlkem := crypto.mlkemFromSeed seed.mlkem
  (⟨crypto.x25519PublicKey seed.x25519, crypto.mlkemEncapsulationKey mlkem⟩,
    ⟨seed.x25519, mlkem⟩)

/-- `SharedSecret::was_contributory`: the exchange did not yield the identity. -/
def wasContributory (shared : SizedBytes 32) : Bool :=
  shared.1.any (· ≠ 0)

/-- `encapsulate`. -/
def encapsulate (coins : EncapsulationCoins) (key : PublicKey) :
    Except EncodingError (Bytes × Bytes) :=
  let x25519Shared := crypto.diffieHellman coins.x25519 key.x25519
  if wasContributory x25519Shared then
    let (ciphertext, mlkemShared) := crypto.mlkemEncapsulate key.mlkemBytes coins.mlkem
    .ok (x25519Shared.1 ++ mlkemShared.1,
      (crypto.x25519PublicKey coins.x25519).1 ++ ciphertext.1)
  else .error ⟨⟩

/-- `decapsulate`. -/
def decapsulate (key : SecretKey crypto) (ciphertext : Bytes) : Except DecryptionError Bytes :=
  if ciphertext.length ≠ kemCiphertextBytes then .error ⟨⟩
  else
    match splitSized 32 ciphertext with
    | none => .error ⟨⟩
    | some (ephemeral, rest) =>
        match splitSized 1088 rest with
        | none => .error ⟨⟩
        | some (mlkemCiphertext, _) =>
            let x25519Shared := crypto.diffieHellman key.x25519 ephemeral
            if wasContributory x25519Shared then
              .ok (x25519Shared.1 ++ (crypto.mlkemDecapsulate key.mlkem mlkemCiphertext).1)
            else .error ⟨⟩

/-- `HybridX25519MlKem768Provider`. -/
def hybridX25519MlKem768Provider : KemProvider where
  PublicKey := PublicKey
  SecretKey := SecretKey crypto
  Seed := KeygenSeed
  Coins := EncapsulationCoins
  suiteKem := suiteKemHybridX25519Mlkem768
  kemCiphertextBytes := kemCiphertextBytes
  kemPublicKeyBytes := x25519KeyBytes + mlkemPublicKeyBytes
  kemSecretKeyBytes := x25519KeyBytes + mlkemSecretKeyBytes
  keygen := keygen crypto
  encapsulate := encapsulate crypto
  decapsulate := decapsulate crypto
  publicKeyBytes := PublicKey.toBytes
  publicKeyOf := SecretKey.publicKey

variable {crypto}

@[simp] theorem PublicKey.toBytes_length (key : PublicKey) :
    key.toBytes.length = kemPublicKeyBytes := by
  simp [PublicKey.toBytes, kemPublicKeyBytes, x25519KeyBytes, mlkemPublicKeyBytes]

@[simp] theorem SecretKey.toBytes_length (key : SecretKey crypto) :
    key.toBytes.length = kemSecretKeyBytes := by
  simp [SecretKey.toBytes, kemSecretKeyBytes, x25519KeyBytes, mlkemSecretKeyBytes]

/-- A public key that came out of key generation is read back from its bytes. -/
theorem PublicKey.fromBytes_toBytes (lawful : crypto.Lawful) (key : SecretKey crypto) :
    PublicKey.fromBytes crypto key.publicKey.toBytes = .ok key.publicKey := by
  have accepts := lawful.mlkemAccepts_encapsulationKey key.mlkem
  have whole : splitSized 1184 key.publicKey.mlkemBytes.1 = some (key.publicKey.mlkemBytes, []) := by
    have := splitSized_append key.publicKey.mlkemBytes []
    rwa [List.append_nil] at this
  rw [PublicKey.fromBytes, if_neg (by simp), PublicKey.toBytes, splitSized_append]
  simp only [whole]
  exact if_pos accepts

/-- A secret key is read back from its bytes. -/
theorem SecretKey.fromBytes_toBytes (lawful : crypto.Lawful) (key : SecretKey crypto) :
    SecretKey.fromBytes crypto key.toBytes = .ok key := by
  have whole : splitSized 2400 (crypto.mlkemToExpandedBytes key.mlkem).1 =
      some (crypto.mlkemToExpandedBytes key.mlkem, []) := by
    have := splitSized_append (crypto.mlkemToExpandedBytes key.mlkem) []
    rwa [List.append_nil] at this
  rw [SecretKey.fromBytes, if_neg (by simp), SecretKey.toBytes, splitSized_append]
  simp only [whole, lawful.mlkemFromExpandedBytes_toExpandedBytes key.mlkem]

/-- The two halves of a generated pair belong together. -/
@[simp] theorem keygen_publicKey (seed : KeygenSeed) :
    (keygen crypto seed).2.publicKey = (keygen crypto seed).1 := rfl

private theorem encapsulate_eq_ok {coins : EncapsulationCoins} {key : PublicKey}
    {secret ciphertext : Bytes}
    (encapsulated : encapsulate crypto coins key = .ok (secret, ciphertext)) :
    wasContributory (crypto.diffieHellman coins.x25519 key.x25519) = true ∧
      secret = (crypto.diffieHellman coins.x25519 key.x25519).1 ++
        (crypto.mlkemEncapsulate key.mlkemBytes coins.mlkem).2.1 ∧
      ciphertext = (crypto.x25519PublicKey coins.x25519).1 ++
        (crypto.mlkemEncapsulate key.mlkemBytes coins.mlkem).1.1 := by
  simp only [encapsulate] at encapsulated
  split at encapsulated
  · rename_i contributory
    cases encapsulated
    exact ⟨contributory, rfl, rfl⟩
  · cases encapsulated

/-- The provider does what its trait asks, because both arms are correct. -/
theorem hybridX25519MlKem768Provider_lawful (lawful : crypto.Lawful) :
    (hybridX25519MlKem768Provider crypto).Lawful where
  encapsulate_length := by
    intro coins key secret ciphertext encapsulated
    obtain ⟨-, -, rfl⟩ := encapsulate_eq_ok encapsulated
    simp [hybridX25519MlKem768Provider, kemCiphertextBytes, x25519KeyBytes, mlkemCiphertextBytes]
  decapsulate_encapsulate := by
    intro coins key secret ciphertext encapsulated
    obtain ⟨contributory, rfl, rfl⟩ := encapsulate_eq_ok encapsulated
    have agree := lawful.diffieHellman_comm key.x25519 coins.x25519
    have undone := lawful.mlkemDecapsulate_encapsulate key.mlkem coins.mlkem
    have whole := splitSized_append
      (crypto.mlkemEncapsulate (crypto.mlkemEncapsulationKey key.mlkem) coins.mlkem).1 []
    rw [List.append_nil] at whole
    simp only [hybridX25519MlKem768Provider, SecretKey.publicKey] at contributory ⊢
    unfold decapsulate
    rw [if_neg (by simp [kemCiphertextBytes, x25519KeyBytes, mlkemCiphertextBytes])]
    simp only [splitSized_append, whole, agree, contributory, undone, if_true]

end Citadel.Envelope
