import Citadel.Envelope.Wire

/-!
# The P-384 + ML-KEM-1024 suite

The provider of suite `0xA4`. It has the construction of the first suite over other
primitives: points travel as uncompressed SEC1 encodings, and a secret key keeps the seed
of its ML-KEM half. A shared point is never the identity, so there is no check for it.
-/

namespace Citadel.Envelope

def p384PointBytes : Nat := 97
def p384ScalarBytes : Nat := 48
def mlkem1024EkBytes : Nat := 1568
def mlkem1024CtBytes : Nat := 1568
def mlkemSeedBytes : Nat := 64
def sec1TagUncompressed : UInt8 := 0x04

/-- The primitives of the crates behind the second suite. -/
structure NistCrypto where
  /-- `p384`: a scalar in range. -/
  P384SecretKey : Type
  /-- `p384`: a point of the curve other than the identity. -/
  P384PublicKey : Type
  p384PublicKey : P384SecretKey → P384PublicKey
  /-- `p384`: `diffie_hellman`, as the bytes of the shared coordinate. -/
  p384DiffieHellman : P384SecretKey → P384PublicKey → SizedBytes 48
  /-- `p384`: `to_sec1_point(false)`. -/
  p384ToSec1 : P384PublicKey → SizedBytes 97
  /-- `p384`: `from_sec1_bytes`. -/
  p384FromSec1 : Bytes → Option P384PublicKey
  /-- `ml_kem`: a decapsulation key of ML-KEM-1024. -/
  DecapsulationKey : Type
  /-- `ml_kem`: an encapsulation key of ML-KEM-1024. -/
  EncapsulationKey : Type
  mlkemFromSeed : SizedBytes 64 → DecapsulationKey
  mlkemEncapsulationKey : DecapsulationKey → EncapsulationKey
  mlkemToBytes : EncapsulationKey → SizedBytes 1568
  mlkemEncapsulate : EncapsulationKey → SizedBytes 32 → SizedBytes 1568 × SizedBytes 32
  mlkemDecapsulate : DecapsulationKey → SizedBytes 1568 → SizedBytes 32

/-- What the code relies on: both parties of the exchange agree, an uncompressed point is
read back, the encoding of an encapsulation key is faithful, and ML-KEM decapsulation
undoes encapsulation. -/
structure NistCrypto.Lawful (nist : NistCrypto) : Prop where
  diffieHellman_comm : ∀ mine yours,
    nist.p384DiffieHellman mine (nist.p384PublicKey yours) =
      nist.p384DiffieHellman yours (nist.p384PublicKey mine)
  fromSec1_toSec1 : ∀ key, nist.p384FromSec1 (nist.p384ToSec1 key).1 = some key
  toSec1_tag : ∀ key, byteAt (nist.p384ToSec1 key).1 0 = sec1TagUncompressed
  mlkemToBytes_injective : Function.Injective nist.mlkemToBytes
  mlkemDecapsulate_encapsulate : ∀ key message,
    nist.mlkemDecapsulate key
        (nist.mlkemEncapsulate (nist.mlkemEncapsulationKey key) message).1 =
      (nist.mlkemEncapsulate (nist.mlkemEncapsulationKey key) message).2

variable (nist : NistCrypto)

/-- `P384MlKem1024PublicKey`. -/
structure P384MlKem1024PublicKey where
  p384 : nist.P384PublicKey
  mlkem : nist.EncapsulationKey

/-- `P384MlKem1024SecretKey`: a scalar and the seed of the ML-KEM key. -/
structure P384MlKem1024SecretKey where
  p384 : nist.P384SecretKey
  mlkemSeed : SizedBytes 64

/-- The coins of an encapsulation: the ephemeral secret, absent when the system's random
source fails, and the ML-KEM message. -/
structure P384Coins where
  ephemeral : Option nist.P384SecretKey
  mlkem : SizedBytes 32

namespace HybridP384MlKem1024Provider

variable {nist}

/-- `P384MlKem1024SecretKey::mlkem_key`. -/
def mlkemKey (key : P384MlKem1024SecretKey nist) : nist.DecapsulationKey :=
  nist.mlkemFromSeed key.mlkemSeed

/-- `keygen`. -/
def keygen (seed : nist.P384SecretKey × SizedBytes 64) :
    P384MlKem1024PublicKey nist × P384MlKem1024SecretKey nist :=
  (⟨nist.p384PublicKey seed.1, nist.mlkemEncapsulationKey (nist.mlkemFromSeed seed.2)⟩,
    ⟨seed.1, seed.2⟩)

/-- `parse_p384_point`. -/
def parseP384Point (bytes : Bytes) : Option nist.P384PublicKey :=
  if bytes.length ≠ p384PointBytes ∨ byteAt bytes 0 ≠ sec1TagUncompressed then none
  else nist.p384FromSec1 bytes

/-- `encapsulate`. -/
def encapsulate (coins : P384Coins nist) (key : P384MlKem1024PublicKey nist) :
    Except EncodingError (Bytes × Bytes) :=
  match coins.ephemeral with
  | none => .error ⟨⟩
  | some ephemeral =>
      let (ciphertext, mlkemShared) := nist.mlkemEncapsulate key.mlkem coins.mlkem
      .ok ((nist.p384DiffieHellman ephemeral key.p384).1 ++ mlkemShared.1,
        (nist.p384ToSec1 (nist.p384PublicKey ephemeral)).1 ++ ciphertext.1)

/-- `decapsulate`. -/
def decapsulate (key : P384MlKem1024SecretKey nist) (ciphertext : Bytes) :
    Except DecryptionError Bytes :=
  if ciphertext.length ≠ p384PointBytes + mlkem1024CtBytes then .error ⟨⟩
  else
    match parseP384Point (ciphertext.take p384PointBytes) with
    | none => .error ⟨⟩
    | some ephemeral => do
        let mlkemCiphertext ← toSized 1568 (ciphertext.drop p384PointBytes)
        .ok ((nist.p384DiffieHellman key.p384 ephemeral).1 ++
          (nist.mlkemDecapsulate (mlkemKey key) mlkemCiphertext).1)

/-- `public_key_bytes`. -/
def publicKeyBytes (key : P384MlKem1024PublicKey nist) : Bytes :=
  (nist.p384ToSec1 key.p384).1 ++ (nist.mlkemToBytes key.mlkem).1

/-- `public_key_of`. -/
def publicKeyOf (key : P384MlKem1024SecretKey nist) : P384MlKem1024PublicKey nist :=
  ⟨nist.p384PublicKey key.p384, nist.mlkemEncapsulationKey (mlkemKey key)⟩

end HybridP384MlKem1024Provider

/-- `HybridP384MlKem1024Provider`. -/
def hybridP384MlKem1024Provider : KemProvider where
  PublicKey := P384MlKem1024PublicKey nist
  SecretKey := P384MlKem1024SecretKey nist
  Seed := nist.P384SecretKey × SizedBytes 64
  Coins := P384Coins nist
  suiteKem := suiteKemHybridP384Mlkem1024
  kemCiphertextBytes := p384PointBytes + mlkem1024CtBytes
  kemPublicKeyBytes := p384PointBytes + mlkem1024EkBytes
  kemSecretKeyBytes := p384ScalarBytes + mlkemSeedBytes
  keygen := HybridP384MlKem1024Provider.keygen
  encapsulate := HybridP384MlKem1024Provider.encapsulate
  decapsulate := HybridP384MlKem1024Provider.decapsulate
  publicKeyBytes := HybridP384MlKem1024Provider.publicKeyBytes
  publicKeyOf := HybridP384MlKem1024Provider.publicKeyOf

namespace HybridP384MlKem1024Provider

variable {nist}

/-- The point at the front of a ciphertext is read back. -/
theorem parseP384Point_toSec1 (lawful : nist.Lawful) (key : nist.P384PublicKey) :
    parseP384Point (nist.p384ToSec1 key).1 = some key := by
  have tag := lawful.toSec1_tag key
  rw [parseP384Point, if_neg (by simp [p384PointBytes, tag]), lawful.fromSec1_toSec1]

/-- What a successful encapsulation gives. -/
theorem encapsulate_eq_ok {coins : P384Coins nist} {key : P384MlKem1024PublicKey nist}
    {secret ciphertext : Bytes} (encapsulated : encapsulate coins key = .ok (secret, ciphertext)) :
    ∃ ephemeral, coins.ephemeral = some ephemeral ∧
      secret = (nist.p384DiffieHellman ephemeral key.p384).1 ++
        (nist.mlkemEncapsulate key.mlkem coins.mlkem).2.1 ∧
      ciphertext = (nist.p384ToSec1 (nist.p384PublicKey ephemeral)).1 ++
        (nist.mlkemEncapsulate key.mlkem coins.mlkem).1.1 := by
  unfold encapsulate at encapsulated
  split at encapsulated
  · cases encapsulated
  · rename_i ephemeral drawn
    cases encapsulated
    exact ⟨ephemeral, drawn, rfl, rfl⟩

/-- Encapsulation fails only when no ephemeral secret is drawn. -/
theorem encapsulate_of_drawn {coins : P384Coins nist} (drawn : coins.ephemeral.isSome)
    (key : P384MlKem1024PublicKey nist) :
    ∃ secret ciphertext, encapsulate coins key = .ok (secret, ciphertext) := by
  obtain ⟨ephemeral, found⟩ := Option.isSome_iff_exists.mp drawn
  simp [encapsulate, found]

/-- Decapsulation finds the secret of an encapsulation. -/
theorem decapsulate_encapsulate (lawful : nist.Lawful) {coins : P384Coins nist}
    {key : P384MlKem1024SecretKey nist} {secret ciphertext : Bytes}
    (encapsulated : encapsulate coins (publicKeyOf key) = .ok (secret, ciphertext)) :
    decapsulate key ciphertext = .ok secret := by
  obtain ⟨ephemeral, -, rfl, rfl⟩ := encapsulate_eq_ok encapsulated
  have parsed := parseP384Point_toSec1 lawful (nist.p384PublicKey ephemeral)
  have agree := lawful.diffieHellman_comm key.p384 ephemeral
  have undone := lawful.mlkemDecapsulate_encapsulate (mlkemKey key) coins.mlkem
  have pointLength : (nist.p384ToSec1 (nist.p384PublicKey ephemeral)).1.length = p384PointBytes :=
    (nist.p384ToSec1 (nist.p384PublicKey ephemeral)).2
  unfold decapsulate
  rw [if_neg (by simp [p384PointBytes, mlkem1024CtBytes]), List.take_left' pointLength,
    List.drop_left' pointLength, parsed]
  simp only [publicKeyOf, toSized_val, agree, bind, Except.bind, undone]

end HybridP384MlKem1024Provider

variable {nist}

/-- The provider does what its trait asks, because both arms are correct. -/
theorem hybridP384MlKem1024Provider_lawful (lawful : nist.Lawful) :
    (hybridP384MlKem1024Provider nist).Lawful where
  encapsulate_length := by
    intro coins key secret ciphertext encapsulated
    obtain ⟨ephemeral, -, -, rfl⟩ := HybridP384MlKem1024Provider.encapsulate_eq_ok encapsulated
    simp [hybridP384MlKem1024Provider, p384PointBytes, mlkem1024CtBytes]
  decapsulate_encapsulate := by
    intro coins key secret ciphertext encapsulated
    exact HybridP384MlKem1024Provider.decapsulate_encapsulate lawful encapsulated

end Citadel.Envelope
