import Citadel.Envelope.Formats
import Citadel.Envelope.StreamFrames

/-!
# The older formats, sealed

Version 1 envelopes are written by `encrypt_v1_compat` only, and version 2 streams by their
own encryptor. Both derive their key from the encapsulation as version 1 does; a stream
derives one more key for each of its chunks.
-/

namespace Citadel.Envelope

/-- The bytes of a version 1 envelope. -/
def wireBytes (kemCt nonce aeadCt : Bytes) : Bytes :=
  [protocolVersion, suiteKemHybridX25519Mlkem768, suiteAeadAes256Gcm, flagsV1] ++
    beBytes 2 kemCiphertextBytes ++ kemCt ++ nonce ++ aeadCt

/-- `encode_wire`. -/
def encodeWire (kemCt : Bytes) (nonce : SizedBytes 12) (aeadCt : Bytes) :
    Except EncodingError Bytes :=
  if kemCt.length ≠ kemCiphertextBytes then .error ⟨⟩
  else if aeadCt.length < aeadTagBytes then .error ⟨⟩
  else .ok (wireBytes kemCt nonce.1 aeadCt)

/-- `kem_engine::Citadel::encrypt_v1_compat`. -/
def encryptV1Compat (crypto : Crypto) (provider : KemProvider) (coins : SealCoins provider.Coins)
    (key : provider.PublicKey) (plaintext aad context : Bytes) : Except EncodingError Bytes := do
  let (sharedSecret, kemCt) ← provider.encapsulate coins.encapsulation key
  let aesKey := deriveKey crypto sharedSecret (ctHash crypto kemCt) context
  let (nonce, aeadCt) ← aeadSeal crypto coins.nonce aesKey plaintext aad
  encodeWire kemCt nonce aeadCt

/-- What a successful `encrypt_v1_compat` did. -/
theorem encryptV1Compat_eq_ok {crypto : Crypto} {provider : KemProvider}
    {coins : SealCoins provider.Coins} {key : provider.PublicKey}
    {plaintext aad context envelope : Bytes}
    (sealed : encryptV1Compat crypto provider coins key plaintext aad context = .ok envelope) :
    ∃ sharedSecret kemCt nonce aeadCt,
      provider.encapsulate coins.encapsulation key = .ok (sharedSecret, kemCt) ∧
      coins.nonce = some nonce ∧
      crypto.aesGcmEncrypt (deriveKey crypto sharedSecret (ctHash crypto kemCt) context) nonce
        plaintext aad = some aeadCt ∧
      envelope = wireBytes kemCt nonce.1 aeadCt := by
  obtain ⟨⟨sharedSecret, kemCt⟩, encapsulated, sealed⟩ := Except.of_bind_eq_ok sealed
  obtain ⟨⟨nonce, aeadCt⟩, encrypted, sealed⟩ := Except.of_bind_eq_ok sealed
  obtain ⟨-, sealed⟩ := Except.of_guard_eq_ok sealed
  obtain ⟨-, sealed⟩ := Except.of_guard_eq_ok sealed
  cases sealed
  obtain ⟨drawn, ciphertext⟩ := aeadSeal_eq_ok encrypted
  exact ⟨sharedSecret, kemCt, nonce, aeadCt, encapsulated, drawn, ciphertext, rfl⟩

section Parts

variable (kemCt : SizedBytes 1120) (nonce : SizedBytes 12) (aeadCt : Bytes)

/-! Where the parts of a version 1 envelope stand. -/

theorem wireBytes_length :
    (wireBytes kemCt.1 nonce.1 aeadCt).length = minCiphertextBytes - aeadTagBytes + aeadCt.length := by
  have kemLength := kemCt.2
  have nonceLength := nonce.2
  simp only [wireBytes, List.length_append, List.length_cons, List.length_nil, beBytes_length]
  simp only [minCiphertextBytes, headerBytes, kemCiphertextBytes, x25519KeyBytes,
    mlkemCiphertextBytes, nonceBytes, aeadTagBytes]
  omega

theorem slice_size_wireBytes :
    slice (wireBytes kemCt.1 nonce.1 aeadCt) 4 6 = beBytes 2 kemCiphertextBytes := by
  simp only [wireBytes, List.append_assoc]
  exact slice_append (by simp) (by simp)

theorem slice_kem_wireBytes :
    slice (wireBytes kemCt.1 nonce.1 aeadCt) headerBytes (headerBytes + kemCiphertextBytes) =
      kemCt.1 := by
  simp only [wireBytes, List.append_assoc]
  rw [← List.append_assoc]
  exact slice_append (by simp [headerBytes])
    (by simp [kemCt.2, kemCiphertextBytes, x25519KeyBytes, mlkemCiphertextBytes])

theorem slice_nonce_wireBytes :
    slice (wireBytes kemCt.1 nonce.1 aeadCt) (headerBytes + kemCiphertextBytes)
        (headerBytes + kemCiphertextBytes + nonceBytes) = nonce.1 := by
  simp only [wireBytes, List.append_assoc]
  rw [← List.append_assoc, ← List.append_assoc]
  exact slice_append (by
      simp [kemCt.2, headerBytes, kemCiphertextBytes, x25519KeyBytes, mlkemCiphertextBytes])
    (by simp [nonce.2, nonceBytes])

theorem drop_wireBytes :
    (wireBytes kemCt.1 nonce.1 aeadCt).drop (headerBytes + kemCiphertextBytes + nonceBytes) =
      aeadCt := by
  apply List.drop_left'
  simp [kemCt.2, nonce.2, headerBytes, kemCiphertextBytes, x25519KeyBytes, mlkemCiphertextBytes,
    nonceBytes]

/-- The parts of a version 1 envelope are where its decoder looks for them. -/
theorem decodeWire_wireBytes (tagged : aeadTagBytes ≤ aeadCt.length) :
    decodeWire (wireBytes kemCt.1 nonce.1 aeadCt) =
      .ok ⟨protocolVersion, suiteKemHybridX25519Mlkem768, suiteAeadAes256Gcm, flagsV1,
        kemCiphertextBytes, kemCt, nonce, aeadCt⟩ := by
  have long : ¬ (wireBytes kemCt.1 nonce.1 aeadCt).length < minCiphertextBytes := by
    rw [wireBytes_length]
    omega
  have version : byteAt (wireBytes kemCt.1 nonce.1 aeadCt) 0 = protocolVersion := rfl
  have suiteKem : byteAt (wireBytes kemCt.1 nonce.1 aeadCt) 1 = suiteKemHybridX25519Mlkem768 := rfl
  have suiteAead : byteAt (wireBytes kemCt.1 nonce.1 aeadCt) 2 = suiteAeadAes256Gcm := rfl
  have flags : byteAt (wireBytes kemCt.1 nonce.1 aeadCt) 3 = flagsV1 := rfl
  have size : beNat (beBytes 2 kemCiphertextBytes) = kemCiphertextBytes :=
    beNat_beBytes_of_lt (by decide)
  have raw : decodeWireRaw (wireBytes kemCt.1 nonce.1 aeadCt) =
      .ok ⟨protocolVersion, suiteKemHybridX25519Mlkem768, suiteAeadAes256Gcm, flagsV1,
        kemCiphertextBytes, kemCt, nonce, aeadCt⟩ := by
    simp only [decodeWireRaw, if_neg long, version, suiteKem, suiteAead, flags, ne_eq,
      not_true_eq_false, if_false, slice_size_wireBytes, size, slice_kem_wireBytes,
      slice_nonce_wireBytes, drop_wireBytes, toSized_val]
    exact if_neg (not_lt.mpr tagged)
  rw [decodeWire, raw]
  rfl

end Parts

/-- The rest of a byte string begins with a slice. -/
theorem drop_eq_slice_append (data : Bytes) {start stop : Nat} (ordered : start ≤ stop) :
    data.drop start = slice data start stop ++ data.drop stop := by
  have rest : data.drop stop = (data.drop start).drop (stop - start) := by
    rw [List.drop_drop, Nat.add_sub_cancel' ordered]
  rw [slice, rest, List.take_append_drop]

theorem take_four {data : Bytes} (long : 4 ≤ data.length) :
    data.take 4 = [byteAt data 0, byteAt data 1, byteAt data 2, byteAt data 3] := by
  match data, long with
  | _ :: _ :: _ :: _ :: _, _ => rfl

/-- The version 1 decoder leaves no byte of an envelope unread. -/
theorem eq_wireBytes_of_decodeWire {data : Bytes} {parts : WireComponents}
    (decoded : decodeWire data = .ok parts) :
    data = wireBytes parts.kemCiphertext.1 parts.nonce.1 parts.aeadCiphertext ∧
      aeadTagBytes ≤ parts.aeadCiphertext.length := by
  obtain ⟨raw, structural, decoded⟩ := Except.of_bind_eq_ok decoded
  obtain ⟨⟨⟩, checked, decoded⟩ := Except.of_bind_eq_ok decoded
  cases decoded
  obtain ⟨long, read⟩ := Except.of_guard_eq_ok structural
  obtain ⟨version, read⟩ := Except.of_guard_eq_ok read
  obtain ⟨flags, read⟩ := Except.of_guard_eq_ok read
  obtain ⟨size, read⟩ := Except.of_guard_eq_ok read
  obtain ⟨kemCiphertext, kemRead, read⟩ := Except.of_bind_eq_ok read
  obtain ⟨nonce, nonceRead, read⟩ := Except.of_bind_eq_ok read
  obtain ⟨tagged, read⟩ := Except.of_guard_eq_ok read
  cases read
  obtain ⟨suites, -⟩ := Except.of_guard_eq_ok checked
  simp only [not_or, not_not] at suites version flags size
  have enough : 1154 ≤ data.length := not_lt.mp long
  have front : data.take 4 =
      [protocolVersion, suiteKemHybridX25519Mlkem768, suiteAeadAes256Gcm, flagsV1] := by
    rw [take_four (by omega), version, suites.1, suites.2, flags]
  have sizeBytes : slice data 4 6 = beBytes 2 kemCiphertextBytes := by
    have two : (slice data 4 6).length = 2 := by
      simp only [slice, List.length_take, List.length_drop]
      omega
    have written := beBytes_beNat (slice data 4 6)
    rw [two, size] at written
    exact written.symm
  refine ⟨?_, not_lt.mp tagged⟩
  calc data = data.take 4 ++ data.drop 4 := (List.take_append_drop 4 data).symm
    _ = data.take 4 ++ (slice data 4 6 ++ (slice data 6 1126 ++ (slice data 1126 1138 ++
          data.drop 1138))) := by
        rw [drop_eq_slice_append data (show 4 ≤ 6 by omega),
          drop_eq_slice_append data (show 6 ≤ 1126 by omega),
          drop_eq_slice_append data (show 1126 ≤ 1138 by omega)]
    _ = wireBytes kemCiphertext.1 nonce.1 (data.drop 1138) := by
        rw [front, sizeBytes, wireBytes, ← toSized_eq_ok kemRead, ← toSized_eq_ok nonceRead]
        simp only [List.append_assoc]
        rfl

namespace StreamV2

/-- `StreamEncryptor`. The first chunk has the index 1. -/
structure StreamEncryptor where
  streamKey : SizedBytes 32
  header : Bytes
  nextIndex : Nat
  finalized : Bool

/-- `encode_stream_header`. -/
def encodeStreamHeader (kemCt : Bytes) : Except EncodingError Bytes :=
  if kemCt.length ≠ kemCiphertextBytes then .error ⟨⟩
  else
    .ok ([streamVersion, suiteKemHybridX25519Mlkem768, suiteAeadAes256Gcm, flagsStream] ++
      beBytes 2 kemCiphertextBytes ++ kemCt)

/-- `make_chunk_aad`. -/
def makeChunkAad (userAad : Aad) (index : Nat) (isFinal : Bool) : Bytes :=
  utf8 "citadel-stream-v2|" ++ beBytes 4 index ++ [StreamV3.finalByte isFinal] ++ utf8 "|" ++
    userAad.inner

/-- The bytes of one chunk on the wire. -/
def chunkBytes (index : Nat) (isFinal : Bool) (nonce : SizedBytes 12) (ciphertext : Bytes) : Bytes :=
  beBytes 4 index ++ [StreamV3.finalByte isFinal] ++ nonce.1 ++ ciphertext

/-- What a chunk's key is expanded from. -/
def chunkKeyInfo (index : Nat) (isFinal : Bool) : Bytes :=
  utf8 "citadel-stream-chunk-v2|" ++ beBytes 4 index ++ [StreamV3.finalByte isFinal]

section Code

variable (crypto : Crypto)

/-- `derive_chunk_key`. -/
def deriveChunkKey (streamKey : SizedBytes 32) (index : Nat) (isFinal : Bool) : SizedBytes 32 :=
  crypto.hkdfSha256 none streamKey.1 (chunkKeyInfo index isFinal)

/-- `StreamEncryptor::new`. The caller's data is bound by the chunks, not by the header. -/
def StreamEncryptor.new (coins : EncapsulationCoins) (key : PublicKey) (_aad : Aad)
    (context : Context) : Except EncodingError StreamEncryptor := do
  let (sharedSecret, kemCt) ← encapsulate crypto coins key
  let streamKey := deriveKey crypto sharedSecret (ctHash crypto kemCt) context.inner
  let header ← encodeStreamHeader kemCt
  .ok ⟨streamKey, header, 1, false⟩

/-- `StreamEncryptor::encrypt_chunk`. The nonce is drawn for each chunk. -/
def StreamEncryptor.encryptChunk (encryptor : StreamEncryptor) (nonce : Option (SizedBytes 12))
    (plaintext : Bytes) (isFinal : Bool) (aad : Aad) :
    Except EncodingError (Bytes × StreamEncryptor) :=
  if encryptor.finalized then .error ⟨⟩
  else do
    let index := encryptor.nextIndex
    let chunkKey := deriveChunkKey crypto encryptor.streamKey index isFinal
    let (nonce, ciphertext) ← aeadSeal crypto nonce chunkKey plaintext
      (makeChunkAad aad index isFinal)
    if 2 ^ 32 ≤ index + 1 then .error ⟨⟩
    else
      .ok (chunkBytes index isFinal nonce ciphertext,
        { encryptor with nextIndex := index + 1, finalized := isFinal })

end Code

end StreamV2

end Citadel.Envelope
