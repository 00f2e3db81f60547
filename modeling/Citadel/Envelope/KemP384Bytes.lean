import Citadel.Envelope.KemP384
import Citadel.Envelope.Wire

/-!
# The byte forms of P-384 + ML-KEM-1024 keys

A public key travels as an uncompressed point and an encapsulation key, a secret key as a
scalar and a seed. Parsing checks the length of the whole and both arms; the seed of a
secret key is taken as it is.
-/

namespace Citadel.Envelope

/-- The encodings of the crates behind the second suite. -/
structure NistEncodings (nist : NistCrypto) where
  /-- `p384`: `SecretKey::to_bytes`. -/
  p384ToBytes : nist.P384SecretKey → SizedBytes 48
  /-- `p384`: `SecretKey::from_slice`. -/
  p384FromSlice : SizedBytes 48 → Option nist.P384SecretKey
  /-- `ml_kem`: `EncapsulationKey::new`. -/
  mlkemNew : SizedBytes 1568 → Option nist.EncapsulationKey

/-- What the code relies on: what is encoded is read back. -/
structure NistEncodings.Lawful {nist : NistCrypto} (encodings : NistEncodings nist) : Prop where
  fromSlice_toBytes : ∀ key, encodings.p384FromSlice (encodings.p384ToBytes key) = some key
  new_toBytes : ∀ key, encodings.mlkemNew (nist.mlkemToBytes key) = some key

open HybridP384MlKem1024Provider

variable {nist : NistCrypto}

/-- `P384_MLKEM1024_PUBLIC_KEY_BYTES`, 1665. -/
def p384Mlkem1024PublicKeyBytes : Nat := p384PointBytes + mlkem1024EkBytes

/-- `P384_MLKEM1024_SECRET_KEY_BYTES`, 112. -/
def p384Mlkem1024SecretKeyBytes : Nat := p384ScalarBytes + mlkemSeedBytes

/-- `P384MlKem1024PublicKey::to_bytes`. -/
def P384MlKem1024PublicKey.toBytes (key : P384MlKem1024PublicKey nist) : Bytes :=
  (nist.p384ToSec1 key.p384).1 ++ (nist.mlkemToBytes key.mlkem).1

/-- `P384MlKem1024PublicKey::from_bytes`. -/
def P384MlKem1024PublicKey.fromBytes (encodings : NistEncodings nist) (bytes : Bytes) :
    Except DecryptionError (P384MlKem1024PublicKey nist) :=
  if bytes.length ≠ p384Mlkem1024PublicKeyBytes then .error ⟨⟩
  else
    match parseP384Point (bytes.take p384PointBytes) with
    | none => .error ⟨⟩
    | some p384 => do
        let encoded ← toSized 1568 (bytes.drop p384PointBytes)
        match encodings.mlkemNew encoded with
        | none => .error ⟨⟩
        | some mlkem => .ok ⟨p384, mlkem⟩

/-- `P384MlKem1024SecretKey::to_bytes`. -/
def P384MlKem1024SecretKey.toBytes (encodings : NistEncodings nist)
    (key : P384MlKem1024SecretKey nist) : Bytes :=
  (encodings.p384ToBytes key.p384).1 ++ key.mlkemSeed.1

/-- `P384MlKem1024SecretKey::from_bytes`. -/
def P384MlKem1024SecretKey.fromBytes (encodings : NistEncodings nist) (bytes : Bytes) :
    Except DecryptionError (P384MlKem1024SecretKey nist) :=
  if bytes.length ≠ p384Mlkem1024SecretKeyBytes then .error ⟨⟩
  else do
    let scalar ← toSized 48 (bytes.take p384ScalarBytes)
    let seed ← toSized 64 (bytes.drop p384ScalarBytes)
    match encodings.p384FromSlice scalar with
    | none => .error ⟨⟩
    | some p384 => .ok ⟨p384, seed⟩

@[simp] theorem P384MlKem1024PublicKey.toBytes_length (key : P384MlKem1024PublicKey nist) :
    key.toBytes.length = p384Mlkem1024PublicKeyBytes := by
  rw [toBytes, List.length_append, SizedBytes.length, SizedBytes.length]
  rfl

@[simp] theorem P384MlKem1024SecretKey.toBytes_length (encodings : NistEncodings nist)
    (key : P384MlKem1024SecretKey nist) :
    (key.toBytes encodings).length = p384Mlkem1024SecretKeyBytes := by
  rw [toBytes, List.length_append, SizedBytes.length, SizedBytes.length]
  rfl

/-- A public key is read back from its bytes. -/
theorem P384MlKem1024PublicKey.fromBytes_toBytes (lawful : nist.Lawful)
    {encodings : NistEncodings nist} (encodes : encodings.Lawful)
    (key : P384MlKem1024PublicKey nist) : fromBytes encodings key.toBytes = .ok key := by
  have point : key.toBytes.take p384PointBytes = (nist.p384ToSec1 key.p384).1 :=
    List.take_left' (nist.p384ToSec1 key.p384).2
  have rest : key.toBytes.drop p384PointBytes = (nist.mlkemToBytes key.mlkem).1 :=
    List.drop_left' (nist.p384ToSec1 key.p384).2
  rw [fromBytes, if_neg (not_not.mpr key.toBytes_length), point, rest,
    parseP384Point_toSec1 lawful]
  simp only [toSized_val, bind, Except.bind, encodes.new_toBytes]

/-- A secret key is read back from its bytes. -/
theorem P384MlKem1024SecretKey.fromBytes_toBytes {encodings : NistEncodings nist}
    (encodes : encodings.Lawful) (key : P384MlKem1024SecretKey nist) :
    fromBytes encodings (key.toBytes encodings) = .ok key := by
  have scalar : (key.toBytes encodings).take p384ScalarBytes = (encodings.p384ToBytes key.p384).1 :=
    List.take_left' (encodings.p384ToBytes key.p384).2
  have seed : (key.toBytes encodings).drop p384ScalarBytes = key.mlkemSeed.1 :=
    List.drop_left' (encodings.p384ToBytes key.p384).2
  rw [fromBytes, if_neg (not_not.mpr (key.toBytes_length encodings)), scalar, seed]
  simp only [toSized_val, bind, Except.bind, encodes.fromSlice_toBytes]

end Citadel.Envelope
