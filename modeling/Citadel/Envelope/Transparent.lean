import Citadel.Envelope.Sdk

/-!
# A transparent backend

`transparent` keeps no secret: its cipher appends a tag of zeros and its key exchange
always agrees on the same bytes. It has the documented behaviour the code relies on and
seals whatever the limits of the envelope admit, so it shows that the assumptions of
this development can be met together.
-/

namespace Citadel.Envelope

/-- The array that repeats one byte. -/
def filled (count : Nat) (byte : UInt8) : SizedBytes count :=
  ⟨List.replicate count byte, List.length_replicate⟩

/-- The backend without secrets. -/
def transparent : Crypto where
  x25519PublicKey secret := secret
  diffieHellman _ _ := filled 32 1
  DecapsulationKey := SizedBytes 2400
  mlkemFromSeed _ := .zeros 2400
  mlkemEncapsulationKey _ := .zeros 1184
  mlkemAccepts _ := true
  mlkemEncapsulate _ _ := (.zeros 1088, .zeros 32)
  mlkemDecapsulate _ _ := .zeros 32
  mlkemToExpandedBytes key := key
  mlkemFromExpandedBytes bytes := some bytes
  sha256 _ := .zeros 32
  sha3_256 _ := .zeros 32
  hkdfSha256 _ _ _ := .zeros 32
  aesGcmEncrypt _ _ message _ := some (message ++ List.replicate 16 0)
  aesGcmDecrypt _ _ ciphertext _ := some (ciphertext.take (ciphertext.length - 16))
  mldsaVerifyingKey _ := .zeros 1952
  mldsaSign _ _ := some (SizedBytes.zeros 3309).1
  mldsaVerify _ _ signature := some (signature = .zeros 3309)

theorem transparent_lawful : transparent.Lawful where
  diffieHellman_comm _ _ := rfl
  mlkemAccepts_encapsulationKey _ := rfl
  mlkemDecapsulate_encapsulate _ _ := rfl
  mlkemFromExpandedBytes_toExpandedBytes _ := rfl
  aesGcmDecrypt_encrypt := by
    rintro key nonce message aad ciphertext ⟨⟩
    simp [transparent]
  aesGcmEncrypt_length := by
    rintro key nonce message aad ciphertext ⟨⟩
    simp

theorem transparent_signs : transparent.Signs := by
  intro seed message
  refine ⟨.zeros 3309, rfl, ?_⟩
  exact congrArg some (decide_eq_true rfl)

/-- A backend that seals to every key it can parse, whatever the data within the limits
of the envelope. -/
def Crypto.Seals (crypto : Crypto) : Prop :=
  ∀ (coins : EncapsulationCoins) (nonce : SizedBytes 12) (key : PublicKey) (plaintext : Bytes)
    (aad : Aad) (context : Context), plaintext.length ≤ WireV2.maxPlaintextLen →
    aad.inner.length ≤ WireV2.maxAadLen → context.inner.length ≤ WireV2.maxContextLen →
    ∃ envelope, Envelope.seal crypto ⟨coins, some nonce⟩ key plaintext aad context = .ok envelope

/-- A lawful backend whose exchange always contributes and whose cipher never refuses
seals everything. -/
theorem Crypto.seals_of_total {crypto : Crypto} (lawful : crypto.Lawful)
    (contributes : ∀ mine yours, wasContributory (crypto.diffieHellman mine yours) = true)
    (encrypts : ∀ key nonce message aad,
      ∃ ciphertext, crypto.aesGcmEncrypt key nonce message aad = some ciphertext) :
    crypto.Seals := by
  intro coins nonce key plaintext aad context plaintextFits aadFits contextFits
  have contributory := contributes coins.x25519 key.x25519
  have encapsulated : (hybridX25519MlKem768Provider crypto).encapsulate coins key =
      .ok ((crypto.diffieHellman coins.x25519 key.x25519).1 ++
        (crypto.mlkemEncapsulate key.mlkemBytes coins.mlkem).2.1,
        (crypto.x25519PublicKey coins.x25519).1 ++
          (crypto.mlkemEncapsulate key.mlkemBytes coins.mlkem).1.1) := if_pos contributory
  have small : (hybridX25519MlKem768Provider crypto).kemCiphertextBytes < 2 ^ 16 :=
    show kemCiphertextBytes < 2 ^ 16 by decide
  have correct := hybridX25519MlKem768Provider_lawful lawful
  apply WireV2.seal_succeeds lawful correct rfl rfl small plaintextFits aadFits contextFits
    encapsulated rfl
  intro transcript associated _
  exact encrypts _ nonce plaintext associated

theorem transparent_seals : transparent.Seals := by
  refine Crypto.seals_of_total transparent_lawful ?_ ?_
  · intro mine yours
    rfl
  · intro key nonce message aad
    exact ⟨_, rfl⟩

end Citadel.Envelope
