import Citadel.Envelope.StreamFrames

/-!
# What a stream binds

A cipher that opens only what was sealed makes `decrypt_stream_v3` accept, behind the header
of a stream, only the frames and the final tag of that stream. A frame that opens names its
stream, its place and whether it is the last one, so frames cannot be dropped, repeated,
reordered or taken from another stream.
-/

namespace Citadel.Envelope.StreamV3

variable {crypto : Crypto} {hmacSha256 : SizedBytes 32 → Bytes → SizedBytes 32}

/-! ### The parts of a stream -/

/-- What `StreamV3Encryptor::new` sets up. -/
theorem new_eq_ok {coins : StreamCoins} {key : PublicKey} {aad : Aad} {context : Context}
    {encryptor : StreamV3Encryptor}
    (started : StreamV3Encryptor.new crypto coins key aad context = .ok encryptor) :
    ∃ secret kemCt tag, encapsulate crypto coins.encapsulation key = .ok (secret, kemCt) ∧
      crypto.aesGcmEncrypt (deriveHeaderKey crypto encryptor.streamKey) (.zeros 12) []
        (preHeader encryptor.streamId kemCt) = some tag ∧
      encryptor = ⟨deriveStreamKey crypto secret kemCt coins.streamId context,
        deriveFinalKey crypto encryptor.streamKey, coins.streamId,
        preHeader coins.streamId kemCt ++ tag, 0, false⟩ := by
  obtain ⟨⟨secret, kemCt⟩, encapsulated, started⟩ := Except.of_bind_eq_ok started
  obtain ⟨tag, sealed, started⟩ := Except.of_bind_eq_ok started
  cases started
  exact ⟨secret, kemCt, tag, encapsulated, aeadSealWith_eq_ok sealed, rfl⟩

/-- What `encrypt_stream_v3` returns. -/
theorem encryptStreamV3_eq_ok {coins : StreamCoins} {key : PublicKey} {chunks : List Bytes}
    {aad : Aad} {context : Context} {stream : EncryptedStreamV3} {encryptor : StreamV3Encryptor}
    (started : StreamV3Encryptor.new crypto coins key aad context = .ok encryptor)
    (returned : encryptStreamV3 crypto hmacSha256 coins key chunks aad context = .ok stream) :
    Framed (Seals crypto encryptor.streamKey encryptor.streamId aad) 0 stream.frames chunks ∧
      stream.frames ≠ [] ∧ stream.header = encryptor.header ∧
      stream.finalTag = (hmacSha256 (deriveFinalKey crypto encryptor.streamKey)
        (encryptor.streamId.1 ++ beBytes 8 stream.frames.length)).1 := by
  obtain ⟨secret, kemCt, tag, -, -, shape⟩ := new_eq_ok started
  obtain ⟨filled, returned⟩ := Except.of_guard_eq_ok returned
  obtain ⟨encryptor', again, returned⟩ := Except.of_bind_eq_ok returned
  obtain ⟨⟨frames, finished⟩, encrypted, returned⟩ := Except.of_bind_eq_ok returned
  obtain ⟨finalTag, tagged, returned⟩ := Except.of_bind_eq_ok returned
  obtain rfl := Except.ok.inj (again.symm.trans started)
  obtain ⟨framed, finalKey, streamId, nextSeq⟩ := encryptChunks_eq_ok encrypted
  obtain ⟨-, tagged⟩ := Except.of_guard_eq_ok tagged
  cases returned
  have first : encryptor'.nextSeq = 0 := by rw [shape]
  have derived : encryptor'.finalKey = deriveFinalKey crypto encryptor'.streamKey := by
    conv_lhs => rw [shape]
  rw [first] at framed
  refine ⟨framed, ?_, rfl, ?_⟩
  · rintro rfl
    have none : chunks = [] := List.length_eq_zero_iff.mp framed.length_eq.symm
    exact filled (by rw [none]; rfl)
  · rw [← Except.ok.inj tagged, finalKey, streamId, nextSeq, first, derived, Nat.zero_add]

/-- The identifier in a header is where `from_header` looks for it. -/
theorem preHeader_streamId (streamId : SizedBytes 16) (kemCt tag : Bytes) :
    slice (preHeader streamId kemCt ++ tag) 8 24 = streamId.1 := by
  have magicLength : streamV3Magic.length = 4 := by decide +kernel
  have shape : preHeader streamId kemCt ++ tag =
      (streamV3Magic ++ [streamV3Version, streamV3Flags, streamV3SuiteKem, streamV3SuiteAead]) ++
        (streamId.1 ++ (beBytes 2 kemCiphertextBytes ++ kemCt ++ tag)) := by
    simp [preHeader]
  rw [shape]
  exact slice_append (by simp [magicLength]) (by simp)

/-- What a decryptor takes from the header of a stream. -/
theorem fromHeader_eq_ok {key : SecretKey crypto} {header : Bytes} {aad : Aad} {context : Context}
    {decryptor : StreamV3Decryptor} {parsed : StreamV3Header}
    (accepted : StreamV3Decryptor.fromHeader crypto key header aad context =
      .ok (decryptor, parsed)) :
    slice header 8 24 = decryptor.streamId.1 ∧ decryptor.expectedSeq = 0 ∧
      decryptor.finalKey = deriveFinalKey crypto decryptor.streamKey := by
  obtain ⟨-, accepted⟩ := Except.of_guard_eq_ok accepted
  obtain ⟨-, accepted⟩ := Except.of_guard_eq_ok accepted
  obtain ⟨-, accepted⟩ := Except.of_guard_eq_ok accepted
  obtain ⟨-, accepted⟩ := Except.of_guard_eq_ok accepted
  obtain ⟨-, accepted⟩ := Except.of_guard_eq_ok accepted
  obtain ⟨-, accepted⟩ := Except.of_guard_eq_ok accepted
  obtain ⟨streamId, read, accepted⟩ := Except.of_bind_eq_ok accepted
  obtain ⟨-, accepted⟩ := Except.of_guard_eq_ok accepted
  obtain ⟨secret, -, accepted⟩ := Except.of_bind_eq_ok accepted
  obtain ⟨tag, -, accepted⟩ := Except.of_bind_eq_ok accepted
  obtain ⟨-, accepted⟩ := Except.of_guard_eq_ok accepted
  cases accepted
  exact ⟨toSized_eq_ok read, rfl, rfl⟩

/-- The associated data of a chunk names the stream, the place and the flag. -/
theorem makeChunkAad_inj {streamId streamId' : SizedBytes 16} {seq seq' : Nat}
    {isFinal isFinal' : Bool} {aad aad' : Aad} (small : seq < 2 ^ 64) (small' : seq' < 2 ^ 64)
    (same : makeChunkAad streamId seq isFinal aad = makeChunkAad streamId' seq' isFinal' aad') :
    streamId = streamId' ∧ seq = seq' ∧ isFinal = isFinal' := by
  simp only [makeChunkAad, List.append_assoc] at same
  obtain ⟨identifiers, same⟩ := List.append_inj (List.append_cancel_left same) (by simp)
  obtain ⟨numbers, same⟩ := List.append_inj same (by simp)
  obtain ⟨flags, -⟩ := List.append_inj same (by simp)
  refine ⟨Subtype.ext identifiers, beBytes_inj (by omega) (by omega) numbers, ?_⟩
  cases isFinal <;> cases isFinal' <;> first | rfl | cases flags

/-- No chunk has the associated data of a header. -/
theorem makeChunkAad_ne_front {streamId : SizedBytes 16} {seq : Nat} {isFinal : Bool} {aad : Aad}
    {streamId' : SizedBytes 16} {kemCt : Bytes} :
    makeChunkAad streamId seq isFinal aad ≠ preHeader streamId' kemCt := by
  intro same
  have heads := congrArg (List.take 1) same
  have label : utf8 "citadel-v3-chunk|" = 99 :: (utf8 "citadel-v3-chunk|").tail := by
    decide +kernel
  have magic : streamV3Magic = 67 :: streamV3Magic.tail := by decide +kernel
  simp only [makeChunkAad, preHeader, List.append_assoc] at heads
  rw [label, magic] at heads
  simp at heads

/-! ### Integrity -/

/-- A call of `encrypt_stream_v3` that returned a stream. -/
structure Streaming (crypto : Crypto) (hmacSha256 : SizedBytes 32 → Bytes → SizedBytes 32) where
  coins : StreamCoins
  key : PublicKey
  chunks : List Bytes
  aad : Aad
  context : Context
  encryptor : StreamV3Encryptor
  stream : EncryptedStreamV3
  started : StreamV3Encryptor.new crypto coins key aad context = .ok encryptor
  returned : encryptStreamV3 crypto hmacSha256 coins key chunks aad context = .ok stream

namespace Streaming

/-- The tuple behind the tag of the header. -/
def headerTuple (streaming : Streaming crypto hmacSha256) : AeadTuple :=
  ⟨deriveHeaderKey crypto streaming.encryptor.streamKey, .zeros 12,
    streaming.stream.header.take (streamV3HeaderBytes - 16),
    streaming.stream.header.drop (streamV3HeaderBytes - 16)⟩

/-- The tuple behind the frame at an index. -/
def frameTuple (streaming : Streaming crypto hmacSha256) (index : Nat) (frame : Bytes) :
    AeadTuple :=
  ⟨streaming.encryptor.streamKey, deriveChunkNonce crypto streaming.encryptor.streamKey index,
    makeChunkAad streaming.encryptor.streamId index
      (decide (index + 1 = streaming.stream.frames.length)) streaming.aad,
    frame.drop streamV3ChunkHeaderBytes⟩

/-- Everything the cipher sealed for a stream. -/
def tuples (streaming : Streaming crypto hmacSha256) : Set AeadTuple :=
  {tuple | tuple = streaming.headerTuple ∨
    ∃ index frame, streaming.stream.frames[index]? = some frame ∧
      tuple = streaming.frameTuple index frame}

theorem framed (streaming : Streaming crypto hmacSha256) :
    Framed (Seals crypto streaming.encryptor.streamKey streaming.encryptor.streamId streaming.aad) 0
      streaming.stream.frames streaming.chunks :=
  (encryptStreamV3_eq_ok streaming.started streaming.returned).1

/-- The front of the header, for a cipher with a tag of 16 bytes. -/
theorem headerTuple_associated (lawful : crypto.Lawful) (streaming : Streaming crypto hmacSha256) :
    ∃ kemCt, streaming.headerTuple.associated = preHeader streaming.encryptor.streamId kemCt := by
  obtain ⟨-, -, header, -⟩ := encryptStreamV3_eq_ok streaming.started streaming.returned
  obtain ⟨secret, kemCt, tag, encapsulated, sealed, shape⟩ := new_eq_ok streaming.started
  have magicLength : streamV3Magic.length = 4 := by decide +kernel
  have kemLength : kemCt.length = kemCiphertextBytes :=
    (hybridX25519MlKem768Provider_lawful lawful).encapsulate_length _ _ _ _ encapsulated
  have streamId : streaming.encryptor.streamId = streaming.coins.streamId := by
    conv_lhs => rw [shape]
  have front : streaming.stream.header = preHeader streaming.coins.streamId kemCt ++ tag := by
    rw [header]
    conv_lhs => rw [shape]
  have length : (preHeader streaming.coins.streamId kemCt).length = streamV3HeaderBytes - 16 := by
    simp [preHeader, magicLength, kemLength, kemCiphertextBytes, x25519KeyBytes,
      mlkemCiphertextBytes, streamV3HeaderBytes]
  refine ⟨kemCt, ?_⟩
  rw [headerTuple, front, streamId, List.take_left' length]

end Streaming

section Integrity

variable {log : Set (Streaming crypto hmacSha256)} {streaming : Streaming crypto hmacSha256}
  {decryptor : StreamV3Decryptor} {aad : Aad} {frames chunks : List Bytes}

/-- A frame that a decryptor accepts at some place behind the header of a stream is the frame
of that stream at that place, under the stream's key, and it carries the stream's chunk. -/
theorem accepted_frame (lawful : crypto.Lawful)
    (ideal : crypto.OpensOnly {tuple | ∃ streaming ∈ log, tuple ∈ streaming.tuples})
    (unique : Set.InjOn (fun streaming => streaming.encryptor.streamId) log)
    (logged : streaming ∈ log) (identified : decryptor.streamId = streaming.encryptor.streamId)
    (framed : Framed (Opens crypto decryptor.streamKey decryptor.streamId aad) 0 frames chunks)
    {index : Nat} {frame : Bytes} (found : frames[index]? = some frame) :
    decryptor.streamKey = streaming.encryptor.streamKey ∧
      streaming.stream.frames[index]? = some frame ∧
      streaming.chunks[index]? = chunks[index]? ∧
      (index + 1 = frames.length ↔ index + 1 = streaming.stream.frames.length) := by
  obtain ⟨fits, ciphertext, chunk, here, rfl, -, opened⟩ := framed.at_index found
  rw [Nat.zero_add] at fits opened ⊢
  obtain ⟨other, otherLogged, header | ⟨place, sent, sentAt, tuple⟩⟩ := ideal _ _ _ _ _ opened
  · obtain ⟨kemCt, front⟩ := other.headerTuple_associated lawful
    have associated := congrArg AeadTuple.associated header
    exact absurd (associated.trans front) makeChunkAad_ne_front
  · obtain ⟨otherFits, ciphertext', chunk', there, rfl, sealed⟩ := other.framed.at_index sentAt
    rw [Nat.zero_add] at otherFits sealed tuple sentAt
    simp only [Streaming.frameTuple, AeadTuple.mk.injEq] at tuple
    obtain ⟨keys, -, associated, ciphertexts⟩ := tuple
    obtain ⟨streams, rfl, flags⟩ := makeChunkAad_inj (by omega) (by omega) associated
    obtain rfl : other = streaming := unique otherLogged logged (streams.symm.trans identified)
    have bytes : (frameBytes index (decide (index + 1 = other.stream.frames.length))
        ciphertext').drop streamV3ChunkHeaderBytes = ciphertext' := List.drop_left' (by simp
          [streamV3ChunkHeaderBytes])
    rw [bytes] at ciphertexts
    have undone := lawful.aesGcmDecrypt_encrypt _ _ _ _ _ sealed
    rw [← keys, ← ciphertexts, ← associated, opened] at undone
    refine ⟨keys, ?_, ?_, ?_⟩
    · rw [flags, ciphertexts]
      exact sentAt
    · rw [there, here, Option.some.inj undone]
    · simpa using flags

/-- Behind the header of a stream, only the frames and the final tag of that stream are
accepted, and the result is its chunks. The identifiers of the streams were drawn at random,
no two of them alike. -/
theorem decrypt_only_encrypted (crypto : Crypto)
    (hmacSha256 : SizedBytes 32 → Bytes → SizedBytes 32) (lawful : crypto.Lawful)
    (log : Set (Streaming crypto hmacSha256))
    (ideal : crypto.OpensOnly {tuple | ∃ streaming ∈ log, tuple ∈ streaming.tuples})
    (unique : Set.InjOn (fun streaming => streaming.encryptor.streamId) log)
    (streaming : Streaming crypto hmacSha256) (logged : streaming ∈ log)
    (secretKey : SecretKey crypto) (frames : List Bytes) (finalTag : Bytes) (aad : Aad)
    (context : Context) (plaintext : Bytes)
    (decrypted : decryptStreamV3 crypto hmacSha256 secretKey streaming.stream.header frames finalTag
      aad context = .ok plaintext) :
    frames = streaming.stream.frames ∧ finalTag = streaming.stream.finalTag ∧
      plaintext = streaming.chunks.flatten := by
  obtain ⟨filled, decrypted⟩ := Except.of_guard_eq_ok decrypted
  obtain ⟨⟨decryptor, parsed⟩, accepted, decrypted⟩ := Except.of_bind_eq_ok decrypted
  obtain ⟨⟨out, finished⟩, walked, decrypted⟩ := Except.of_bind_eq_ok decrypted
  obtain ⟨⟨⟩, verified, decrypted⟩ := Except.of_bind_eq_ok decrypted
  cases decrypted
  obtain ⟨chunks, framed, rfl, finalKey, streamId, expectedSeq⟩ := decryptChunks_eq_ok walked
  obtain ⟨identifier, first, derived⟩ := fromHeader_eq_ok accepted
  obtain ⟨-, -, header, tag⟩ := encryptStreamV3_eq_ok streaming.started streaming.returned
  obtain ⟨secret, kemCt, headerTag, -, -, shape⟩ := new_eq_ok streaming.started
  have identified : decryptor.streamId = streaming.encryptor.streamId := by
    apply Subtype.ext
    rw [← identifier, header, shape]
    exact preHeader_streamId _ _ _
  rw [first] at framed expectedSeq
  have same := fun index frame (found : frames[index]? = some frame) =>
    accepted_frame lawful ideal unique logged identified framed found
  have nonempty : frames ≠ [] := fun none => filled (by rw [none]; rfl)
  -- the last frame is flagged, so it is the last one of the stream
  obtain ⟨keys, -, -, ends⟩ := same (frames.length - 1) (frames.getLast nonempty)
    (by rw [List.getLast_eq_getElem, List.getElem?_eq_getElem])
  have atEnd : frames.length - 1 + 1 = frames.length :=
    Nat.sub_add_cancel (List.length_pos_iff.mpr nonempty)
  have lengths : frames.length = streaming.stream.frames.length := atEnd.symm.trans (ends.mp atEnd)
  have sameFrames : frames = streaming.stream.frames := by
    apply List.ext_getElem lengths
    intro index inside inside'
    obtain ⟨-, sent, -⟩ := same index frames[index] (List.getElem?_eq_getElem inside)
    rw [List.getElem?_eq_getElem inside'] at sent
    exact (Option.some.inj sent).symm
  have sameChunks : chunks = streaming.chunks := by
    apply List.ext_getElem?
    intro index
    by_cases inside : index < frames.length
    · obtain ⟨-, -, carried, -⟩ := same index frames[index] (List.getElem?_eq_getElem inside)
      exact carried.symm
    · have short := framed.length_eq
      have short' := streaming.framed.length_eq
      rw [List.getElem?_eq_none (by omega), List.getElem?_eq_none (by omega)]
  refine ⟨sameFrames, ?_, ?_⟩
  · obtain ⟨-, verified⟩ := Except.of_guard_eq_ok verified
    obtain ⟨matched, -⟩ := Except.of_guard_eq_ok verified
    rw [← not_not.mp matched, tag, finalKey, derived, streamId, identified, expectedSeq, keys,
      Nat.zero_add, lengths]
  · rw [sameChunks, List.nil_append]

end Integrity

/-! ### Opening what was encrypted -/

/-- What the fixed offsets of a header hold. -/
theorem header_reads (streamId : SizedBytes 16) {kemCt tag : Bytes}
    (kemLength : kemCt.length = kemCiphertextBytes) (tagLength : tag.length = 16) :
    (preHeader streamId kemCt ++ tag).length = streamV3HeaderBytes ∧
      slice (preHeader streamId kemCt ++ tag) 24 26 = beBytes 2 kemCiphertextBytes ∧
      slice (preHeader streamId kemCt ++ tag) 26 (26 + kemCiphertextBytes) = kemCt ∧
      (preHeader streamId kemCt ++ tag).take (streamV3HeaderBytes - 16) =
        preHeader streamId kemCt ∧
      slice (preHeader streamId kemCt ++ tag) (streamV3HeaderBytes - 16) streamV3HeaderBytes =
        tag := by
  have magicLength : streamV3Magic.length = 4 := by decide +kernel
  have kemSize : kemCiphertextBytes = 1120 := rfl
  have front : (preHeader streamId kemCt).length = streamV3HeaderBytes - 16 := by
    simp [preHeader, magicLength, kemLength, kemSize, streamV3HeaderBytes]
  have fixed : (streamV3Magic ++ [streamV3Version, streamV3Flags, streamV3SuiteKem,
      streamV3SuiteAead] ++ streamId.1).length = 24 := by simp [magicLength]
  refine ⟨?_, ?_, ?_, List.take_left' front, ?_⟩
  · rw [List.length_append, front, tagLength]
    rfl
  · have shape : preHeader streamId kemCt ++ tag = streamV3Magic ++ [streamV3Version, streamV3Flags,
        streamV3SuiteKem, streamV3SuiteAead] ++ streamId.1 ++
        (beBytes 2 kemCiphertextBytes ++ (kemCt ++ tag)) := by simp [preHeader]
    rw [shape]
    exact slice_append fixed (by simp)
  · have shape : preHeader streamId kemCt ++ tag = streamV3Magic ++ [streamV3Version, streamV3Flags,
        streamV3SuiteKem, streamV3SuiteAead] ++ streamId.1 ++ beBytes 2 kemCiphertextBytes ++
        (kemCt ++ tag) := by simp [preHeader]
    rw [shape]
    exact slice_append (by rw [List.length_append, fixed, beBytes_length]) (by rw [kemLength])
  · have shape : preHeader streamId kemCt ++ tag = preHeader streamId kemCt ++ (tag ++ []) := by simp
    rw [shape]
    exact slice_append front (by rw [tagLength]; rfl)

/-- The recipient of a stream derives the keys of its sender. -/
theorem fromHeader_of_new (lawful : crypto.Lawful) {coins : StreamCoins}
    {secretKey : SecretKey crypto} {aad : Aad} {context : Context} {encryptor : StreamV3Encryptor}
    (started : StreamV3Encryptor.new crypto coins secretKey.publicKey aad context =
      .ok encryptor) :
    ∃ parsed, StreamV3Decryptor.fromHeader crypto secretKey encryptor.header aad context =
      .ok (⟨encryptor.streamKey, deriveFinalKey crypto encryptor.streamKey, encryptor.streamId, 0,
        false⟩, parsed) := by
  obtain ⟨secret, kemCt, tag, encapsulated, sealed, shape⟩ := new_eq_ok started
  have provider := hybridX25519MlKem768Provider_lawful lawful
  have kemLength : kemCt.length = kemCiphertextBytes :=
    provider.encapsulate_length _ _ _ _ encapsulated
  have decapsulated : decapsulate crypto secretKey kemCt = .ok secret :=
    provider.decapsulate_encapsulate _ secretKey _ _ encapsulated
  have tagLength : tag.length = 16 := lawful.aesGcmEncrypt_length _ _ _ _ _ sealed
  obtain ⟨length, kemLenField, kemField, front, tagField⟩ :=
    header_reads coins.streamId kemLength tagLength
  have streamIdField := preHeader_streamId coins.streamId kemCt tag
  have kemLen : beNat (beBytes 2 kemCiphertextBytes) = kemCiphertextBytes := rfl
  have magic : streamV3Magic = [67, 84, 68, 76] := by decide +kernel
  have fixed : preHeader coins.streamId kemCt ++ tag = [67, 84, 68, 76] ++ ([streamV3Version,
      streamV3Flags, streamV3SuiteKem, streamV3SuiteAead] ++ (coins.streamId.1 ++
        (beBytes 2 kemCiphertextBytes ++ (kemCt ++ tag)))) := by
    simp [preHeader, magic]
  have magicField : (preHeader coins.streamId kemCt ++ tag).take 4 = streamV3Magic := by
    rw [fixed, magic]
    rfl
  have versionField : byteAt (preHeader coins.streamId kemCt ++ tag) 4 = streamV3Version := by
    rw [fixed]
    rfl
  have flagsField : byteAt (preHeader coins.streamId kemCt ++ tag) 5 = streamV3Flags := by
    rw [fixed]
    rfl
  have suiteKemField : byteAt (preHeader coins.streamId kemCt ++ tag) 6 = streamV3SuiteKem := by
    rw [fixed]
    rfl
  have suiteAeadField : byteAt (preHeader coins.streamId kemCt ++ tag) 7 = streamV3SuiteAead := by
    rw [fixed]
    rfl
  rw [shape] at sealed ⊢
  refine ⟨⟨streamV3Version, streamV3SuiteKem, streamV3SuiteAead, coins.streamId⟩, ?_⟩
  simp only [StreamV3Decryptor.fromHeader, length, lt_irrefl, if_false, magicField, versionField,
    flagsField, suiteKemField, suiteAeadField, streamIdField, toSized_val, bind, Except.bind,
    kemLenField, kemLen, kemField, front, tagField, decapsulated, aeadSealWith, sealed,
    Except.mapError_ok, ne_eq, not_true_eq_false]

/-- Behind the header of a stream, frames that open are accepted with the tag of their
number. -/
theorem decryptStreamV3_of_framed (lawful : crypto.Lawful) {coins : StreamCoins}
    {secretKey : SecretKey crypto} {frames chunks : List Bytes} {aad : Aad} {context : Context}
    {encryptor : StreamV3Encryptor}
    (started : StreamV3Encryptor.new crypto coins secretKey.publicKey aad context = .ok encryptor)
    (nonempty : frames ≠ [])
    (framed : Framed (Opens crypto encryptor.streamKey encryptor.streamId aad) 0 frames chunks) :
    decryptStreamV3 crypto hmacSha256 secretKey encryptor.header frames
      (hmacSha256 (deriveFinalKey crypto encryptor.streamKey)
        (encryptor.streamId.1 ++ beBytes 8 frames.length)).1 aad context =
      .ok chunks.flatten := by
  obtain ⟨parsed, accepted⟩ := fromHeader_of_new lawful started
  have filled : frames.isEmpty = false := by simpa using nonempty
  let decryptor : StreamV3Decryptor := ⟨encryptor.streamKey,
    deriveFinalKey crypto encryptor.streamKey, encryptor.streamId, 0, false⟩
  have pending : decryptor.done = false := rfl
  have walked := decryptChunks_of_framed pending framed []
  simp only [decryptor] at walked
  simp only [decryptStreamV3, filled, Bool.false_eq_true, if_false, accepted, walked, bind,
    Except.bind, StreamV3Decryptor.finish, StreamV3Decryptor.verifyFinalTag, Bool.not_false,
    Bool.not_true, Nat.zero_add, ne_eq, not_true_eq_false, List.nil_append]

/-- Decrypting a stream gives its chunks back. -/
theorem decryptStreamV3_encryptStreamV3 (lawful : crypto.Lawful) {coins : StreamCoins}
    {secretKey : SecretKey crypto} {chunks : List Bytes} {aad : Aad} {context : Context}
    {stream : EncryptedStreamV3}
    (returned : encryptStreamV3 crypto hmacSha256 coins secretKey.publicKey chunks aad context =
      .ok stream) :
    decryptStreamV3 crypto hmacSha256 secretKey stream.header stream.frames stream.finalTag aad
      context = .ok chunks.flatten := by
  obtain ⟨encryptor, started⟩ : ∃ encryptor,
      StreamV3Encryptor.new crypto coins secretKey.publicKey aad context = .ok encryptor := by
    obtain ⟨-, started⟩ := Except.of_guard_eq_ok returned
    obtain ⟨encryptor, started, -⟩ := Except.of_bind_eq_ok started
    exact ⟨encryptor, started⟩
  obtain ⟨framed, nonempty, header, tag⟩ := encryptStreamV3_eq_ok started returned
  rw [header, tag]
  exact decryptStreamV3_of_framed lawful started nonempty
    (framed.imp fun _ _ _ _ => Seals.opens lawful)

/-! ### A stream of two chunks -/

/-- The front of the header of a stream that draws zeros. -/
def zeroFront : Bytes :=
  preHeader (.zeros 16) ((SizedBytes.zeros 32).1 ++ (SizedBytes.zeros 1088).1)

/-- The associated data of a chunk. -/
def pairChunkAad (index : Nat) (isFinal : Bool) : Bytes :=
  makeChunkAad (.zeros 16) index isFinal ⟨[1, 2]⟩

/-- What the backend of the stream takes: its header and two chunks. -/
def pairEntries : List (SizedBytes 32 × SizedBytes 12 × Bytes × Bytes) :=
  [(.zeros 32, .zeros 12, [], zeroFront), (.zeros 32, .zeros 12, [7, 8], pairChunkAad 0 false),
    (.zeros 32, .zeros 12, [9], pairChunkAad 1 true)]

def pairCrypto : Crypto := registry pairEntries

def pairHmac : SizedBytes 32 → Bytes → SizedBytes 32 := fun _ _ => .zeros 32

/-- The recipient of the stream. -/
def pairKey : SecretKey pairCrypto := ⟨.zeros 32, SizedBytes.zeros 2400⟩

/-- The encryptor of the stream after some chunks. -/
def pairEncryptor (nextSeq : Nat) (finalized : Bool) : StreamV3Encryptor :=
  ⟨.zeros 32, .zeros 32, .zeros 16, zeroFront ++ List.replicate 16 0, nextSeq, finalized⟩

/-- The frames of the stream. -/
def pairFrames : List Bytes :=
  [frameBytes 0 false ([7, 8] ++ List.replicate 16 0),
    frameBytes 1 true ([9] ++ List.replicate 16 0)]

theorem pair_sealed {message associated : Bytes}
    (entered : (.zeros 32, .zeros 12, message, associated) ∈ pairEntries) :
    aeadSealWith pairCrypto (.zeros 32) (.zeros 12) message associated =
      .ok (message ++ List.replicate 16 0) := by
  rw [aeadSealWith, show pairCrypto.aesGcmEncrypt _ _ _ _ = _ from registry_encrypts entered]

theorem pair_started :
    StreamV3Encryptor.new pairCrypto ⟨⟨.zeros 32, .zeros 32⟩, .zeros 16⟩ pairKey.publicKey ⟨[1, 2]⟩
      ⟨[3]⟩ = .ok (pairEncryptor 0 false) := by
  have encapsulated : encapsulate pairCrypto ⟨.zeros 32, .zeros 32⟩ pairKey.publicKey =
      .ok ((filled 32 1).1 ++ (SizedBytes.zeros 32).1,
        (SizedBytes.zeros 32).1 ++ (SizedBytes.zeros 1088).1) := rfl
  have sealed := pair_sealed (List.mem_cons_self : (_, _, _, zeroFront) ∈ pairEntries)
  have streamKey : ∀ secret kemCt streamId context,
      deriveStreamKey pairCrypto secret kemCt streamId context = .zeros 32 :=
    fun _ _ _ _ => rfl
  have headerKey : deriveHeaderKey pairCrypto (.zeros 32) = .zeros 32 := rfl
  have finalKey : deriveFinalKey pairCrypto (.zeros 32) = .zeros 32 := rfl
  rw [zeroFront, List.nil_append] at sealed
  rw [pairEncryptor, zeroFront]
  simp only [StreamV3Encryptor.new, encapsulated, bind, Except.bind, streamKey, headerKey, finalKey,
    sealed]

/-- A chunk of the stream is encrypted in its turn. -/
theorem pair_encrypted {index : Nat} {isFinal : Bool} {chunk : Bytes} (small : index < 2)
    (entered : (.zeros 32, .zeros 12, chunk, pairChunkAad index isFinal) ∈ pairEntries) :
    StreamV3Encryptor.encryptChunk pairCrypto (pairEncryptor index false) chunk isFinal ⟨[1, 2]⟩ =
      .ok (frameBytes index isFinal (chunk ++ List.replicate 16 0),
        pairEncryptor (index + 1) isFinal) := by
  have goesOn : ¬ 2 ^ 64 ≤ index + 1 := by omega
  change (aeadSealWith pairCrypto (.zeros 32) (.zeros 12) chunk (pairChunkAad index isFinal) >>=
    fun ciphertext => if 2 ^ 64 ≤ index + 1 then .error ⟨⟩
      else .ok (frameBytes index isFinal ciphertext, pairEncryptor (index + 1) isFinal)) = _
  rw [pair_sealed entered]
  exact if_neg goesOn

theorem pair_returned :
    encryptStreamV3 pairCrypto pairHmac ⟨⟨.zeros 32, .zeros 32⟩, .zeros 16⟩ pairKey.publicKey
      [[7, 8], [9]] ⟨[1, 2]⟩ ⟨[3]⟩ =
      .ok ⟨zeroFront ++ List.replicate 16 0, pairFrames, (SizedBytes.zeros 32).1⟩ := by
  have first := pair_encrypted (by decide) (.tail _ (.head _) :
    (_, _, [7, 8], pairChunkAad 0 false) ∈ pairEntries)
  have second := pair_encrypted (by decide) (.tail _ (.tail _ (.head _)) :
    (_, _, [9], pairChunkAad 1 true) ∈ pairEntries)
  simp only [encryptStreamV3, List.isEmpty_cons, Bool.false_eq_true, if_false, pair_started, bind,
    Except.bind, StreamV3Encryptor.encryptChunks, List.isEmpty_nil, first, second]
  rfl

/-- The stream is decrypted to its chunks. -/
theorem two_chunks_decrypted :
    decryptStreamV3 pairCrypto pairHmac pairKey (zeroFront ++ List.replicate 16 0) pairFrames
      (SizedBytes.zeros 32).1 ⟨[1, 2]⟩ ⟨[3]⟩ = .ok [7, 8, 9] := by
  have lawful : pairCrypto.Lawful := registry_lawful _
  have decrypted := decryptStreamV3_encryptStreamV3 lawful pair_returned
  exact decrypted

/-- The call that returned the stream. -/
def pairStreaming : Streaming pairCrypto pairHmac :=
  ⟨_, _, _, _, _, _, _, pair_started, pair_returned⟩

/-- The stream is accepted, as it was sent. -/
theorem two_chunks_decrypt_only_encrypted :
    decryptStreamV3 pairCrypto pairHmac pairKey pairStreaming.stream.header pairFrames
      (SizedBytes.zeros 32).1 ⟨[1, 2]⟩ ⟨[3]⟩ = .ok [7, 8, 9] ∧
    pairFrames = pairStreaming.stream.frames ∧
      (SizedBytes.zeros 32).1 = pairStreaming.stream.finalTag ∧
      [7, 8, 9] = pairStreaming.chunks.flatten := by
  have lawful : pairCrypto.Lawful := registry_lawful _
  obtain ⟨framed, nonempty, -, -⟩ := encryptStreamV3_eq_ok pair_started pair_returned
  have opened := framed.imp fun _ _ _ _ => Seals.opens lawful
  have decrypted : decryptStreamV3 pairCrypto pairHmac pairKey _ _ _ ⟨[1, 2]⟩ ⟨[3]⟩ = _ :=
    decryptStreamV3_of_framed lawful pair_started nonempty opened
  refine ⟨decrypted, ?_⟩
  apply decrypt_only_encrypted pairCrypto pairHmac lawful {pairStreaming} ?_
    (Set.injOn_singleton _ _) pairStreaming rfl pairKey _ _ _ _ _ decrypted
  intro key nonce ciphertext associated plaintext opened
  obtain ⟨held, rfl⟩ := registry_decrypt opened
  simp only [pairEntries, List.mem_cons, List.not_mem_nil, or_false, Prod.mk.injEq] at held
  refine ⟨pairStreaming, rfl, ?_⟩
  obtain ⟨rfl, rfl, rfl, rfl⟩ | ⟨rfl, rfl, rfl, rfl⟩ | ⟨rfl, rfl, rfl, rfl⟩ := held
  · have front : zeroFront.length = streamV3HeaderBytes - 16 := by decide +kernel
    left
    rw [Streaming.headerTuple]
    change _ = AeadTuple.mk (.zeros 32) (.zeros 12)
      ((zeroFront ++ List.replicate 16 0).take (streamV3HeaderBytes - 16))
      ((zeroFront ++ List.replicate 16 0).drop (streamV3HeaderBytes - 16))
    rw [List.take_left' front, List.drop_left' front]
    rfl
  · exact .inr ⟨0, _, rfl, rfl⟩
  · exact .inr ⟨1, _, rfl, rfl⟩

end Citadel.Envelope.StreamV3
