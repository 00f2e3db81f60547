import Citadel.Envelope.Sdk

/-!
# Version 3 streams

A stream is one encapsulation and a sequence of chunks under the key it agrees on. A chunk
travels with its sequence number and a flag that marks the last one; its nonce is derived
from the sequence number and its associated data names the stream, the number and the flag.
The final tag authenticates how many chunks there were.
-/

namespace Citadel.Envelope

/-- `aead::aead_seal`, with a nonce of the caller's. -/
def aeadSealWith (crypto : Crypto) (key : SizedBytes 32) (nonce : SizedBytes 12)
    (plaintext aad : Bytes) : Except EncodingError Bytes :=
  match crypto.aesGcmEncrypt key nonce plaintext aad with
  | none => .error ⟨⟩
  | some ciphertext => .ok ciphertext

/-- What a successful `aeadSealWith` did. -/
theorem aeadSealWith_eq_ok {crypto : Crypto} {key : SizedBytes 32} {nonce : SizedBytes 12}
    {plaintext aad ciphertext : Bytes}
    (sealed : aeadSealWith crypto key nonce plaintext aad = .ok ciphertext) :
    crypto.aesGcmEncrypt key nonce plaintext aad = some ciphertext := by
  unfold aeadSealWith at sealed
  split at sealed
  · cases sealed
  · rename_i found
    cases sealed
    exact found

namespace StreamV3

def streamV3Magic : Bytes := utf8 "CTDL"
def streamV3Version : UInt8 := 0x03
def streamV3Flags : UInt8 := 0x00
def streamV3SuiteKem : UInt8 := suiteKemHybridX25519Mlkem768
def streamV3SuiteAead : UInt8 := suiteAeadAes256Gcm

/-- `STREAM_V3_HEADER_BYTES`, 1162. -/
def streamV3HeaderBytes : Nat := 4 + 1 + 1 + 1 + 1 + 16 + 2 + 1120 + 16

def streamV3ChunkHeaderBytes : Nat := 8 + 1
def streamV3ChunkMinBytes : Nat := streamV3ChunkHeaderBytes + 16

/-- The flag byte of a chunk. -/
def finalByte (isFinal : Bool) : UInt8 := if isFinal then 0x01 else 0x00

/-- `make_chunk_aad`. -/
def makeChunkAad (streamId : SizedBytes 16) (seq : Nat) (isFinal : Bool) (userAad : Aad) : Bytes :=
  utf8 "citadel-v3-chunk|" ++ streamId.1 ++ beBytes 8 seq ++ [finalByte isFinal] ++ utf8 "|" ++
    userAad.inner

/-- The header up to its tag. -/
def preHeader (streamId : SizedBytes 16) (kemCt : Bytes) : Bytes :=
  streamV3Magic ++ [streamV3Version, streamV3Flags, streamV3SuiteKem, streamV3SuiteAead] ++
    streamId.1 ++ beBytes 2 kemCiphertextBytes ++ kemCt

/-- The bytes of one chunk on the wire. -/
def frameBytes (seq : Nat) (isFinal : Bool) (ciphertext : Bytes) : Bytes :=
  beBytes 8 seq ++ [finalByte isFinal] ++ ciphertext

/-- `StreamV3Encryptor`. -/
structure StreamV3Encryptor where
  streamKey : SizedBytes 32
  finalKey : SizedBytes 32
  streamId : SizedBytes 16
  header : Bytes
  nextSeq : Nat
  finalized : Bool

/-- `StreamV3Decryptor`. -/
structure StreamV3Decryptor where
  streamKey : SizedBytes 32
  finalKey : SizedBytes 32
  streamId : SizedBytes 16
  expectedSeq : Nat
  done : Bool

/-- `StreamV3Header`. -/
structure StreamV3Header where
  version : UInt8
  suiteKem : UInt8
  suiteAead : UInt8
  streamId : SizedBytes 16

/-- `EncryptedStreamV3`. -/
structure EncryptedStreamV3 where
  header : Bytes
  frames : List Bytes
  finalTag : Bytes

/-- The randomness of one stream: the coins of the encapsulation and the identifier. -/
structure StreamCoins where
  encapsulation : EncapsulationCoins
  streamId : SizedBytes 16

section Keys

variable (crypto : Crypto)

/-- `derive_stream_key`. -/
def deriveStreamKey (sharedSecret kemCt : Bytes) (streamId : SizedBytes 16) (context : Context) :
    SizedBytes 32 :=
  deriveKey crypto sharedSecret (ctHash crypto kemCt)
    (utf8 "v3:" ++ streamId.1 ++ utf8 "|" ++ context.inner)

/-- `derive_header_key`. -/
def deriveHeaderKey (streamKey : SizedBytes 32) : SizedBytes 32 :=
  crypto.hkdfSha256 none streamKey.1 (utf8 "citadel-v3-header-key")

/-- `derive_final_key`. -/
def deriveFinalKey (streamKey : SizedBytes 32) : SizedBytes 32 :=
  crypto.hkdfSha256 none streamKey.1 (utf8 "citadel-v3-final-key")

/-- `derive_chunk_nonce`. A shorter output of HKDF is the front of a longer one. -/
def deriveChunkNonce (streamKey : SizedBytes 32) (seq : Nat) : SizedBytes 12 :=
  ⟨(crypto.hkdfSha256 none streamKey.1 (utf8 "citadel-v3-nonce|" ++ beBytes 8 seq)).1.take 12,
    by simp⟩

end Keys

section Code

variable (crypto : Crypto) (hmacSha256 : SizedBytes 32 → Bytes → SizedBytes 32)

/-- `StreamV3Encryptor::new`. The caller's data is bound by the chunks, not by the header. -/
def StreamV3Encryptor.new (coins : StreamCoins) (key : PublicKey) (_aad : Aad)
    (context : Context) : Except EncodingError StreamV3Encryptor := do
  let (sharedSecret, kemCt) ← encapsulate crypto coins.encapsulation key
  let streamKey := deriveStreamKey crypto sharedSecret kemCt coins.streamId context
  let front := preHeader coins.streamId kemCt
  let headerTag ← aeadSealWith crypto (deriveHeaderKey crypto streamKey) (.zeros 12) [] front
  .ok ⟨streamKey, deriveFinalKey crypto streamKey, coins.streamId, front ++ headerTag, 0, false⟩

/-- `StreamV3Encryptor::encrypt_chunk`. -/
def StreamV3Encryptor.encryptChunk (encryptor : StreamV3Encryptor) (plaintext : Bytes)
    (isFinal : Bool) (aad : Aad) : Except EncodingError (Bytes × StreamV3Encryptor) :=
  if encryptor.finalized then .error ⟨⟩
  else do
    let seq := encryptor.nextSeq
    let ciphertext ← aeadSealWith crypto encryptor.streamKey
      (deriveChunkNonce crypto encryptor.streamKey seq) plaintext
      (makeChunkAad encryptor.streamId seq isFinal aad)
    if 2 ^ 64 ≤ seq + 1 then .error ⟨⟩
    else
      .ok (frameBytes seq isFinal ciphertext,
        { encryptor with nextSeq := seq + 1, finalized := isFinal })

/-- `StreamV3Encryptor::final_tag`. -/
def StreamV3Encryptor.finalTag (encryptor : StreamV3Encryptor) : Except EncodingError Bytes :=
  if !encryptor.finalized then .error ⟨⟩
  else .ok (hmacSha256 encryptor.finalKey (encryptor.streamId.1 ++ beBytes 8 encryptor.nextSeq)).1

/-- The loop of `encrypt_stream_v3`: the chunk at the last index is the one that no chunk
follows. -/
def StreamV3Encryptor.encryptChunks (aad : Aad) :
    StreamV3Encryptor → List Bytes → Except EncodingError (List Bytes × StreamV3Encryptor)
  | encryptor, [] => .ok ([], encryptor)
  | encryptor, plaintext :: rest => do
      let (frame, encryptor) ← encryptor.encryptChunk crypto plaintext rest.isEmpty aad
      let (frames, encryptor) ← StreamV3Encryptor.encryptChunks aad encryptor rest
      .ok (frame :: frames, encryptor)

/-- `encrypt_stream_v3`. -/
def encryptStreamV3 (coins : StreamCoins) (key : PublicKey) (plaintextChunks : List Bytes)
    (aad : Aad) (context : Context) : Except EncodingError EncryptedStreamV3 :=
  if plaintextChunks.isEmpty then .error ⟨⟩
  else do
    let encryptor ← StreamV3Encryptor.new crypto coins key aad context
    let (frames, finished) ← encryptor.encryptChunks crypto aad plaintextChunks
    let finalTag ← finished.finalTag hmacSha256
    .ok ⟨encryptor.header, frames, finalTag⟩

/-- `StreamV3Decryptor::from_header`. -/
def StreamV3Decryptor.fromHeader (key : SecretKey crypto) (header : Bytes) (_aad : Aad)
    (context : Context) : Except DecryptionError (StreamV3Decryptor × StreamV3Header) :=
  if header.length < streamV3HeaderBytes then .error ⟨⟩
  else if header.take 4 ≠ streamV3Magic then .error ⟨⟩
  else if byteAt header 4 ≠ streamV3Version then .error ⟨⟩
  else if byteAt header 5 ≠ streamV3Flags then .error ⟨⟩
  else if byteAt header 6 ≠ streamV3SuiteKem then .error ⟨⟩
  else if byteAt header 7 ≠ streamV3SuiteAead then .error ⟨⟩
  else do
    let streamId ← toSized 16 (slice header 8 24)
    if beNat (slice header 24 26) ≠ kemCiphertextBytes then .error ⟨⟩
    else
      let kemCt := slice header 26 (26 + kemCiphertextBytes)
      let front := header.take (streamV3HeaderBytes - 16)
      let headerTag := slice header (streamV3HeaderBytes - 16) streamV3HeaderBytes
      let sharedSecret ← decapsulate crypto key kemCt
      let streamKey := deriveStreamKey crypto sharedSecret kemCt streamId context
      let expectedTag ← (aeadSealWith crypto (deriveHeaderKey crypto streamKey) (.zeros 12) []
        front).mapError EncodingError.toDecryptionError
      if expectedTag ≠ headerTag then .error ⟨⟩
      else
        .ok (⟨streamKey, deriveFinalKey crypto streamKey, streamId, 0, false⟩,
          ⟨byteAt header 4, byteAt header 6, byteAt header 7, streamId⟩)

/-- The flag that a byte stands for. -/
def readFinal (byte : UInt8) : Except DecryptionError Bool :=
  if byte = 0x00 then .ok false else if byte = 0x01 then .ok true else .error ⟨⟩

/-- `StreamV3Decryptor::decrypt_chunk`. -/
def StreamV3Decryptor.decryptChunk (decryptor : StreamV3Decryptor) (chunkData : Bytes)
    (aad : Aad) : Except DecryptionError ((Bytes × Bool) × StreamV3Decryptor) :=
  if decryptor.done then .error ⟨⟩
  else if chunkData.length < streamV3ChunkMinBytes then .error ⟨⟩
  else do
    let seq := beNat (chunkData.take 8)
    let isFinal ← readFinal (byteAt chunkData 8)
    let ciphertext := chunkData.drop 9
    if seq ≠ decryptor.expectedSeq then .error ⟨⟩
    else
      let plaintext ← aeadOpen crypto decryptor.streamKey
        (deriveChunkNonce crypto decryptor.streamKey seq) ciphertext
        (makeChunkAad decryptor.streamId seq isFinal aad)
      if 2 ^ 64 ≤ decryptor.expectedSeq + 1 then .error ⟨⟩
      else
        .ok ((plaintext, isFinal),
          { decryptor with expectedSeq := decryptor.expectedSeq + 1, done := isFinal })

/-- `StreamV3Decryptor::verify_final_tag`. -/
def StreamV3Decryptor.verifyFinalTag (decryptor : StreamV3Decryptor) (finalTag : Bytes) :
    Except DecryptionError Unit :=
  if !decryptor.done then .error ⟨⟩
  else if (hmacSha256 decryptor.finalKey
      (decryptor.streamId.1 ++ beBytes 8 decryptor.expectedSeq)).1 ≠ finalTag then .error ⟨⟩
  else .ok ()

/-- `StreamV3Decryptor::finish`. -/
def StreamV3Decryptor.finish (decryptor : StreamV3Decryptor) (finalTag : Bytes) :
    Except DecryptionError Unit :=
  decryptor.verifyFinalTag hmacSha256 finalTag

/-- The loop of `decrypt_stream_v3`: the flag must be set on exactly the last chunk. -/
def StreamV3Decryptor.decryptChunks (aad : Aad) :
    StreamV3Decryptor → Bytes → List Bytes → Except DecryptionError (Bytes × StreamV3Decryptor)
  | decryptor, out, [] => .ok (out, decryptor)
  | decryptor, out, frame :: rest => do
      let ((plaintext, isFinal), decryptor) ← decryptor.decryptChunk crypto frame aad
      if isFinal ≠ rest.isEmpty then .error ⟨⟩
      else StreamV3Decryptor.decryptChunks aad decryptor (out ++ plaintext) rest

/-- `decrypt_stream_v3`. -/
def decryptStreamV3 (key : SecretKey crypto) (header : Bytes) (chunks : List Bytes)
    (finalTag : Bytes) (aad : Aad) (context : Context) : Except DecryptionError Bytes :=
  if chunks.isEmpty then .error ⟨⟩
  else do
    let (decryptor, _) ← StreamV3Decryptor.fromHeader crypto key header aad context
    let (out, decryptor) ← decryptor.decryptChunks crypto aad [] chunks
    decryptor.finish hmacSha256 finalTag
    .ok out

end Code

end StreamV3

end Citadel.Envelope
