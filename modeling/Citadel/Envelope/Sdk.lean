import Citadel.Envelope.WireV2

/-!
# The engine behind the SDK

`seal` writes version 2 envelopes. `open` dispatches on the magic bytes and still
reads version 1.
-/

namespace Citadel.Envelope

/-- Additional authenticated data (`Aad`). -/
structure Aad where
  inner : Bytes
  deriving DecidableEq, Repr

/-- `Aad::raw`. -/
def Aad.raw (bytes : Bytes) : Aad := ⟨bytes⟩

/-- A domain separation context (`Context`). -/
structure Context where
  inner : Bytes
  deriving DecidableEq, Repr

/-- `Context::for_secrets`. -/
def Context.forSecrets (space keyId : String) : Context :=
  ⟨utf8 s!"secrets|{space}|{keyId}"⟩

/-- `envelope_nonce`: the nonce field of a version 1 or version 2 envelope. -/
def envelopeNonce (data : Bytes) : Except DecryptionError (SizedBytes 12) :=
  if WireV2.magic.isPrefixOf data then (WireV2.decode data).map WireV2.Parts.nonce
  else (decodeWire data).map WireComponents.nonce

variable (crypto : Crypto)

/-- `kdf::ct_hash`. -/
def ctHash (kemCt : Bytes) : SizedBytes 32 := crypto.sha3_256 kemCt

/-- `kdf::derive_key`, of version 1. -/
def deriveKey (sharedSecret : Bytes) (ctHash : SizedBytes 32) (context : Bytes) : SizedBytes 32 :=
  crypto.hkdfSha256 none sharedSecret (protocolId ++ utf8 "|aes|" ++ ctHash.1 ++ context)

section Engine

variable (provider : KemProvider)

/-- `kem_engine::Citadel::encrypt`. -/
def encrypt (coins : SealCoins provider.Coins) (key : provider.PublicKey)
    (plaintext aad context : Bytes) : Except EncodingError Bytes :=
  WireV2.seal crypto provider coins key plaintext aad context

/-- `kem_engine::Citadel::decrypt`. -/
def decrypt (key : provider.SecretKey) (ciphertext aad context : Bytes) :
    Except DecryptionError Bytes :=
  if WireV2.magic.isPrefixOf ciphertext then
    WireV2.open crypto provider key ciphertext aad context
  else do
    let parts ← decodeWire ciphertext
    let sharedSecret ← provider.decapsulate key parts.kemCiphertext.1
    let aesKey := deriveKey crypto sharedSecret (ctHash crypto parts.kemCiphertext.1) context
    aeadOpen crypto aesKey parts.nonce parts.aeadCiphertext aad

end Engine

/-- `Citadel::seal`. -/
def «seal» (coins : SealCoins EncapsulationCoins) (key : PublicKey) (plaintext : Bytes)
    (aad : Aad) (context : Context) : Except EncodingError Bytes :=
  encrypt crypto (hybridX25519MlKem768Provider crypto) coins key plaintext aad.inner context.inner

/-- `Citadel::open`. -/
def «open» (key : SecretKey crypto) (ciphertext : Bytes) (aad : Aad) (context : Context) :
    Except DecryptionError Bytes :=
  decrypt crypto (hybridX25519MlKem768Provider crypto) key ciphertext aad.inner context.inner

section RoundTrip

variable {crypto} {coins : SealCoins EncapsulationCoins} {key : PublicKey}
  {plaintext envelope : Bytes} {aad : Aad} {context : Context}

private theorem seal_isPrefixOf
    (sealed : Envelope.seal crypto coins key plaintext aad context = .ok envelope) :
    WireV2.magic.isPrefixOf envelope = true :=
  List.isPrefixOf_iff_prefix.mpr (WireV2.seal_magic sealed)

/-- The recipient opens what was sealed to them. -/
theorem open_seal (lawful : crypto.Lawful) {secretKey : SecretKey crypto}
    (sealed : Envelope.seal crypto coins secretKey.publicKey plaintext aad context = .ok envelope) :
    Envelope.open crypto secretKey envelope aad context = .ok plaintext := by
  have opened := WireV2.open_seal lawful (hybridX25519MlKem768Provider_lawful lawful)
    sealed
  simp only [Envelope.open, decrypt, seal_isPrefixOf sealed, if_true]
  exact opened

/-- A sealed envelope has a nonce field and room for its tag. -/
theorem envelopeNonce_seal (lawful : crypto.Lawful)
    (sealed : Envelope.seal crypto coins key plaintext aad context = .ok envelope) :
    aeadTagBytes ≤ envelope.length ∧ ∃ nonce, envelopeNonce envelope = .ok nonce := by
  obtain ⟨parts, decoded, long⟩ :=
    WireV2.decode_seal lawful (hybridX25519MlKem768Provider_lawful lawful) sealed
  refine ⟨long, parts.nonce, ?_⟩
  simp only [envelopeNonce, seal_isPrefixOf sealed, if_true, decoded]
  rfl

end RoundTrip

end Citadel.Envelope
