import Citadel.Envelope.KemP384
import Citadel.Envelope.Transparent

/-!
# The supported suites

The suite table has two rows and each of them has a provider. Whatever was sealed to a key
of either suite is opened again by its owner, and sealing succeeds on everything within the
limits of the format.
-/

namespace Citadel.Envelope

/-- The suites with a row in `SUITE_TABLE`. -/
inductive Suite where
  | hybridX25519MlKem768
  | hybridP384MlKem1024
  deriving DecidableEq, Repr

/-- The provider of a suite. -/
def Suite.provider (crypto : Crypto) (nist : NistCrypto) : Suite → KemProvider
  | .hybridX25519MlKem768 => hybridX25519MlKem768Provider crypto
  | .hybridP384MlKem1024 => hybridP384MlKem1024Provider nist

/-- The system's random source answered every request of one `seal`. Only the P-384 arm
and the cipher can be told that it did not. -/
def Suite.Drawn (crypto : Crypto) (nist : NistCrypto) :
    (suite : Suite) → SealCoins (suite.provider crypto nist).Coins → Prop
  | .hybridX25519MlKem768, coins => coins.nonce.isSome
  | .hybridP384MlKem1024, coins =>
      (P384Coins.ephemeral coins.encapsulation).isSome ∧ coins.nonce.isSome

/-- An exchange between two X25519 keys, neither of them of small order, contributes. -/
def Crypto.Contributes (crypto : Crypto) : Prop :=
  ∀ mine yours, wasContributory (crypto.diffieHellman mine (crypto.x25519PublicKey yours)) = true

/-- AES-GCM takes every message and every associated data of at most `2 ^ 36` bytes. -/
def Crypto.Encrypts (crypto : Crypto) : Prop :=
  ∀ key nonce message associated, message.length ≤ 2 ^ 36 → associated.length ≤ 2 ^ 36 →
    ∃ ciphertext, crypto.aesGcmEncrypt key nonce message associated = some ciphertext

namespace Suite

variable {crypto : Crypto} {nist : NistCrypto}

/-- The table supports the suites with a provider and no others. -/
theorem supported_iff {suiteKem : UInt8} :
    (suiteParams suiteKem).isSome ↔
      ∃ suite : Suite, (suite.provider crypto nist).suiteKem = suiteKem := by
  have found : (suiteParams suiteKem).isSome ↔
      suiteKemHybridX25519Mlkem768 = suiteKem ∨ suiteKemHybridP384Mlkem1024 = suiteKem := by
    simp [suiteParams, suiteTable]
  rw [found]
  constructor
  · rintro (rfl | rfl)
    · exact ⟨.hybridX25519MlKem768, rfl⟩
    · exact ⟨.hybridP384MlKem1024, rfl⟩
  · rintro ⟨suite, rfl⟩
    cases suite
    · exact .inl rfl
    · exact .inr rfl

/-- Two suites do not share an identifier. -/
theorem suiteKem_injective {left right : Suite}
    (same : (left.provider crypto nist).suiteKem = (right.provider crypto nist).suiteKem) :
    left = right := by
  have distinct : suiteKemHybridX25519Mlkem768 ≠ suiteKemHybridP384Mlkem1024 := by decide
  cases left <;> cases right
  · rfl
  · exact absurd same distinct
  · exact absurd same distinct.symm
  · rfl

/-- Every provider agrees with its row of the table. -/
theorem row (crypto : Crypto) (nist : NistCrypto) (suite : Suite) :
    ∃ row, suiteParams (suite.provider crypto nist).suiteKem = some row ∧
      row.kemCiphertextBytes = (suite.provider crypto nist).kemCiphertextBytes ∧
      (suite.provider crypto nist).kemCiphertextBytes < 2 ^ 12 := by
  cases suite
  · exact ⟨_, rfl, rfl, show kemCiphertextBytes < 2 ^ 12 by decide⟩
  · exact ⟨_, rfl, rfl, show p384PointBytes + mlkem1024CtBytes < 2 ^ 12 by decide⟩

/-- Both providers do what the trait asks. -/
theorem provider_lawful (lawful : crypto.Lawful) (nistLawful : nist.Lawful) (suite : Suite) :
    (suite.provider crypto nist).Lawful := by
  cases suite
  · exact hybridX25519MlKem768Provider_lawful lawful
  · exact hybridP384MlKem1024Provider_lawful nistLawful

/-- Encapsulation to the public half of a key pair succeeds. -/
theorem encapsulates (contributes : crypto.Contributes) (suite : Suite)
    {coins : SealCoins (suite.provider crypto nist).Coins} (drawn : suite.Drawn crypto nist coins)
    (secretKey : (suite.provider crypto nist).SecretKey) :
    ∃ secret kemCt, (suite.provider crypto nist).encapsulate coins.encapsulation
      ((suite.provider crypto nist).publicKeyOf secretKey) = .ok (secret, kemCt) := by
  cases suite with
  | hybridX25519MlKem768 =>
      have contributory := contributes (EncapsulationCoins.x25519 coins.encapsulation)
        (SecretKey.x25519 secretKey)
      exact ⟨_, _, if_pos contributory⟩
  | hybridP384MlKem1024 =>
      exact HybridP384MlKem1024Provider.encapsulate_of_drawn drawn.1
        (HybridP384MlKem1024Provider.publicKeyOf secretKey)

/-- A nonce was drawn. -/
theorem Drawn.nonce {suite : Suite} {coins : SealCoins (suite.provider crypto nist).Coins}
    (drawn : suite.Drawn crypto nist coins) : ∃ nonce, coins.nonce = some nonce := by
  cases suite
  · exact Option.isSome_iff_exists.mp drawn
  · exact Option.isSome_iff_exists.mp drawn.2

end Suite

/-- Associated data of inputs within the limits is far below what the cipher takes. -/
theorem WireV2.associatedData_length {header kemCt context aad associated : Bytes}
    (bound : associatedData header kemCt context aad = .ok associated) :
    associated.length = 122 + kemCt.length + context.length + aad.length := by
  obtain ⟨long, -, -, -, rfl⟩ := associatedData_eq_ok bound
  have label : aadLabel.length = 24 := by decide +kernel
  have front : (header.take headerBoundLen).length = 86 := by
    rw [List.length_take, Nat.min_eq_left long]
    rfl
  simp only [List.length_append, framed_length, label, front]
  omega

/-- Whatever is within the limits of the format can be sealed to a key pair of either suite. -/
theorem WireV2.seal_within_limits {crypto : Crypto} {nist : NistCrypto} (lawful : crypto.Lawful)
    (nistLawful : nist.Lawful) (contributes : crypto.Contributes) (encrypts : crypto.Encrypts)
    (suite : Suite) (secretKey : (suite.provider crypto nist).SecretKey)
    {coins : SealCoins (suite.provider crypto nist).Coins} (drawn : suite.Drawn crypto nist coins)
    (plaintext aad context : Bytes) (plaintextFits : plaintext.length ≤ maxPlaintextLen)
    (aadFits : aad.length ≤ maxAadLen) (contextFits : context.length ≤ maxContextLen) :
    ∃ envelope, WireV2.seal crypto (suite.provider crypto nist) coins
      ((suite.provider crypto nist).publicKeyOf secretKey) plaintext aad context =
        .ok envelope := by
  have correct := suite.provider_lawful lawful nistLawful
  obtain ⟨row, supported, agrees, small⟩ := suite.row crypto nist
  obtain ⟨secret, kemCt, encapsulated⟩ := suite.encapsulates contributes drawn secretKey
  obtain ⟨nonce, found⟩ := drawn.nonce
  refine seal_succeeds lawful correct supported agrees (by omega) plaintextFits aadFits contextFits
    encapsulated found ?_
  intro transcript associated bound
  have kemLength := correct.encapsulate_length _ _ _ _ encapsulated
  have length := associatedData_length bound
  apply encrypts
  · exact plaintextFits.trans (by decide)
  · simp only [maxAadLen, maxContextLen] at aadFits contextFits
    omega

/-- Whatever is within the limits of the format can be sealed to a key pair of either suite,
and its owner opens it again. -/
theorem WireV2.seal_open_round_trip (crypto : Crypto) (nist : NistCrypto)
    (lawful : crypto.Lawful) (nistLawful : nist.Lawful) (contributes : crypto.Contributes)
    (encrypts : crypto.Encrypts) (suite : Suite)
    (secretKey : (suite.provider crypto nist).SecretKey)
    (publicKey : (suite.provider crypto nist).PublicKey)
    (pair : (suite.provider crypto nist).publicKeyOf secretKey = publicKey)
    (coins : SealCoins (suite.provider crypto nist).Coins) (drawn : suite.Drawn crypto nist coins)
    (plaintext aad context : Bytes) (plaintextFits : plaintext.length ≤ maxPlaintextLen)
    (aadFits : aad.length ≤ maxAadLen) (contextFits : context.length ≤ maxContextLen) :
    ∃ envelope,
      WireV2.seal crypto (suite.provider crypto nist) coins publicKey plaintext aad context =
        .ok envelope ∧
      WireV2.open crypto (suite.provider crypto nist) secretKey envelope aad context =
        .ok plaintext := by
  subst pair
  obtain ⟨envelope, sealed⟩ := seal_within_limits lawful nistLawful contributes encrypts suite
    secretKey drawn plaintext aad context plaintextFits aadFits contextFits
  exact ⟨envelope, sealed, open_seal lawful (suite.provider_lawful lawful nistLawful) sealed⟩

/-- The second suite without secrets, to go with the transparent backend. -/
def transparentNist : NistCrypto where
  P384SecretKey := Unit
  P384PublicKey := Unit
  p384PublicKey key := key
  p384DiffieHellman _ _ := filled 48 1
  p384ToSec1 _ := filled 97 sec1TagUncompressed
  p384FromSec1 _ := some ()
  DecapsulationKey := Unit
  EncapsulationKey := Unit
  mlkemFromSeed _ := ()
  mlkemEncapsulationKey key := key
  mlkemToBytes _ := .zeros 1568
  mlkemEncapsulate _ _ := (.zeros 1568, .zeros 32)
  mlkemDecapsulate _ _ := .zeros 32

theorem transparentNist_lawful : transparentNist.Lawful where
  diffieHellman_comm _ _ := rfl
  fromSec1_toSec1 _ := rfl
  toSec1_tag _ := rfl
  mlkemToBytes_injective _ _ _ := rfl
  mlkemDecapsulate_encapsulate _ _ := rfl

theorem transparent_contributes : transparent.Contributes := fun _ _ => rfl

theorem transparent_encrypts : transparent.Encrypts :=
  fun _ _ message _ _ _ => ⟨message ++ List.replicate 16 0, rfl⟩

/-- A message to a key of the second suite. -/
theorem WireV2.seal_open_p384 :
    ∃ envelope,
      WireV2.seal transparent (hybridP384MlKem1024Provider transparentNist)
        ⟨⟨some (), .zeros 32⟩, some (.zeros 12)⟩ ⟨(), ()⟩ [7, 8, 9] [1, 2] [3] =
          .ok envelope ∧
      WireV2.open transparent (hybridP384MlKem1024Provider transparentNist) ⟨(), .zeros 64⟩
        envelope [1, 2] [3] = .ok [7, 8, 9] :=
  seal_open_round_trip transparent transparentNist transparent_lawful transparentNist_lawful
    transparent_contributes transparent_encrypts .hybridP384MlKem1024 ⟨(), .zeros 64⟩ ⟨(), ()⟩ rfl
    ⟨⟨some (), .zeros 32⟩, some (.zeros 12)⟩ ⟨rfl, rfl⟩ [7, 8, 9] [1, 2] [3]
    (by decide) (by decide) (by decide)

end Citadel.Envelope
