import Citadel.Envelope.Legacy
import Citadel.Envelope.StreamIntegrity
import Mathlib.Data.Set.Lattice
import Mathlib.Order.CompletePartialOrder

/-!
# One key pair, four formats

Envelopes of both versions and streams of both versions are sealed to the same public keys,
and each of them leads from an encapsulation to a key of the cipher. What keeps them apart
is how the keys are derived. Version 2 envelopes have a salt of their own, and version 2
streams derive a second key for each chunk. A version 3 stream uses the key of the first
derivation, as a version 1 envelope does, with a context that begins `v3:`.
-/

namespace Citadel.Envelope

/-- The inputs of one key derivation. -/
structure Derivation where
  salt : Option Bytes
  secret : Bytes
  info : Bytes
  deriving DecidableEq

/-- The key that HKDF derives. -/
def Crypto.derive (crypto : Crypto) (derivation : Derivation) : SizedBytes 32 :=
  crypto.hkdfSha256 derivation.salt derivation.secret derivation.info

section Derivations

variable (crypto : Crypto)

/-- The derivation of `kdf::derive_key`. -/
def keyDerivation (sharedSecret kemCt context : Bytes) : Derivation :=
  ⟨none, sharedSecret, protocolId ++ utf8 "|aes|" ++ (ctHash crypto kemCt).1 ++ context⟩

/-- The derivation of version 2 envelopes. -/
def WireV2.keyDerivation (sharedSecret transcript : Bytes) : Derivation :=
  ⟨some (crypto.sha256 extractSaltLabel).1, sharedSecret, transcript⟩

/-- The derivation that `decrypt` makes for a byte string. -/
def openingDerivation (key : SecretKey crypto) (ciphertext context : Bytes) :
    Except DecryptionError Derivation :=
  if WireV2.magic.isPrefixOf ciphertext then do
    let parts ← WireV2.decode ciphertext
    let sharedSecret ← decapsulate crypto key parts.kemCiphertext
    let transcript ← (WireV2.kdfTranscript parts.header parts.kemCiphertext context).mapError
      EncodingError.toDecryptionError
    .ok (WireV2.keyDerivation crypto sharedSecret transcript)
  else do
    let parts ← decodeWire ciphertext
    let sharedSecret ← decapsulate crypto key parts.kemCiphertext.1
    .ok (keyDerivation crypto sharedSecret parts.kemCiphertext.1 context)

end Derivations

/-- The context from which a version 3 stream derives its key. -/
def streamContext (streamId : SizedBytes 16) (context : Context) : Bytes :=
  utf8 "v3:" ++ streamId.1 ++ utf8 "|" ++ context.inner

/-! ### What was sealed to a public key -/

section Productions

variable (crypto : Crypto) (key : PublicKey)

/-- A version 1 envelope. -/
structure SealedV1 where
  coins : SealCoins EncapsulationCoins
  plaintext : Bytes
  aad : Bytes
  context : Bytes
  envelope : Bytes
  returned : encryptV1Compat crypto (hybridX25519MlKem768Provider crypto) coins key plaintext aad
    context = .ok envelope

/-- A version 2 envelope. -/
structure SealedV2 where
  coins : SealCoins EncapsulationCoins
  plaintext : Bytes
  aad : Bytes
  context : Bytes
  envelope : Bytes
  returned : encrypt crypto (hybridX25519MlKem768Provider crypto) coins key plaintext aad context =
    .ok envelope

/-- The states of a version 2 encryptor. -/
inductive StreamV2.Reached (first : StreamEncryptor) : StreamEncryptor → Prop where
  | start : Reached first first
  | chunk {encryptor next : StreamEncryptor} {nonce : Option (SizedBytes 12)} {plaintext : Bytes}
      {isFinal : Bool} {aad : Aad} {frame : Bytes} (prior : Reached first encryptor)
      (returned : encryptor.encryptChunk crypto nonce plaintext isFinal aad = .ok (frame, next)) :
      Reached first next

/-- A chunk of a version 2 stream. -/
structure StreamV2.Chunk where
  coins : EncapsulationCoins
  streamAad : Aad
  context : Context
  first : StreamEncryptor
  started : StreamEncryptor.new crypto coins key streamAad context = .ok first
  encryptor : StreamEncryptor
  reached : StreamV2.Reached crypto first encryptor
  nonce : Option (SizedBytes 12)
  plaintext : Bytes
  isFinal : Bool
  aad : Aad
  frame : Bytes
  next : StreamEncryptor
  returned : encryptor.encryptChunk crypto nonce plaintext isFinal aad = .ok (frame, next)

/-- A version 3 stream that was started. -/
structure StreamV3.Started where
  coins : StreamCoins
  streamAad : Aad
  context : Context
  first : StreamV3Encryptor
  started : StreamV3Encryptor.new crypto coins key streamAad context = .ok first

/-- The states of a version 3 encryptor. -/
inductive StreamV3.Reached (first : StreamV3Encryptor) : StreamV3Encryptor → Prop where
  | start : Reached first first
  | chunk {encryptor next : StreamV3Encryptor} {plaintext : Bytes} {isFinal : Bool} {aad : Aad}
      {frame : Bytes} (prior : Reached first encryptor)
      (returned : encryptor.encryptChunk crypto plaintext isFinal aad = .ok (frame, next)) :
      Reached first next

/-- A chunk of a version 3 stream. -/
structure StreamV3.Chunk extends StreamV3.Started crypto key where
  encryptor : StreamV3Encryptor
  reached : StreamV3.Reached crypto first encryptor
  plaintext : Bytes
  isFinal : Bool
  aad : Aad
  frame : Bytes
  next : StreamV3Encryptor
  returned : encryptor.encryptChunk crypto plaintext isFinal aad = .ok (frame, next)

/-- Everything that was sealed to a public key. -/
structure Log where
  envelopesV1 : Set (SealedV1 crypto key)
  envelopesV2 : Set (SealedV2 crypto key)
  chunksV2 : Set (StreamV2.Chunk crypto key)
  streamsV3 : Set (StreamV3.Started crypto key)
  chunksV3 : Set (StreamV3.Chunk crypto key)

end Productions

namespace Log

variable {crypto : Crypto} {key : PublicKey}

/-- The tuples that the cipher sealed, each with the derivation of its key. -/
inductive Seals (log : Log crypto key) : Derivation → AeadTuple → Prop where
  | envelopeV1 {sealing : SealedV1 crypto key} (logged : sealing ∈ log.envelopesV1)
      {sharedSecret kemCt ciphertext : Bytes} {nonce : SizedBytes 12}
      (agreed : encapsulate crypto sealing.coins.encapsulation key = .ok (sharedSecret, kemCt))
      (drawn : sealing.coins.nonce = some nonce)
      (encrypted : crypto.aesGcmEncrypt (deriveKey crypto sharedSecret (ctHash crypto kemCt)
        sealing.context) nonce sealing.plaintext sealing.aad = some ciphertext) :
      Seals log (keyDerivation crypto sharedSecret kemCt sealing.context)
        ⟨deriveKey crypto sharedSecret (ctHash crypto kemCt) sealing.context, nonce, sealing.aad,
          ciphertext⟩
  | envelopeV2 {sealing : SealedV2 crypto key} (logged : sealing ∈ log.envelopesV2)
      {sharedSecret kemCt header transcript : Bytes} {tuple : AeadTuple}
      (agreed : encapsulate crypto sealing.coins.encapsulation key = .ok (sharedSecret, kemCt))
      (encoded : WireV2.encodeHeader (hybridX25519MlKem768Provider crypto) sealing.plaintext.length
        (WireV2.publicKeyHash crypto (hybridX25519MlKem768Provider crypto) key)
        (WireV2.contextHash crypto sealing.context) (SizedBytes.zeros 12) = .ok header)
      (transcribed : WireV2.kdfTranscript header kemCt sealing.context = .ok transcript)
      (produced : WireV2.sealedTuple crypto (hybridX25519MlKem768Provider crypto) sealing.coins key
        sealing.plaintext sealing.aad sealing.context = .ok tuple) :
      Seals log (WireV2.keyDerivation crypto sharedSecret transcript) tuple
  | chunkV2 {chunk : StreamV2.Chunk crypto key} (logged : chunk ∈ log.chunksV2)
      {nonce : SizedBytes 12} {ciphertext : Bytes} (drawn : chunk.nonce = some nonce)
      (encrypted : crypto.aesGcmEncrypt (StreamV2.deriveChunkKey crypto chunk.encryptor.streamKey
        chunk.encryptor.nextIndex chunk.isFinal) nonce chunk.plaintext
        (StreamV2.makeChunkAad chunk.aad chunk.encryptor.nextIndex chunk.isFinal) =
          some ciphertext) :
      Seals log ⟨none, chunk.encryptor.streamKey.1,
          StreamV2.chunkKeyInfo chunk.encryptor.nextIndex chunk.isFinal⟩
        ⟨StreamV2.deriveChunkKey crypto chunk.encryptor.streamKey chunk.encryptor.nextIndex
          chunk.isFinal, nonce,
          StreamV2.makeChunkAad chunk.aad chunk.encryptor.nextIndex chunk.isFinal, ciphertext⟩
  | headerV3 {stream : StreamV3.Started crypto key} (logged : stream ∈ log.streamsV3)
      {sharedSecret kemCt tag : Bytes}
      (agreed : encapsulate crypto stream.coins.encapsulation key = .ok (sharedSecret, kemCt))
      (encrypted : crypto.aesGcmEncrypt (StreamV3.deriveHeaderKey crypto stream.first.streamKey)
        (.zeros 12) [] (StreamV3.preHeader stream.first.streamId kemCt) = some tag) :
      Seals log ⟨none, stream.first.streamKey.1, utf8 "citadel-v3-header-key"⟩
        ⟨StreamV3.deriveHeaderKey crypto stream.first.streamKey, .zeros 12,
          StreamV3.preHeader stream.first.streamId kemCt, tag⟩
  | chunkV3 {chunk : StreamV3.Chunk crypto key} (logged : chunk ∈ log.chunksV3)
      {sharedSecret kemCt ciphertext : Bytes}
      (agreed : encapsulate crypto chunk.coins.encapsulation key = .ok (sharedSecret, kemCt))
      (encrypted : StreamV3.Seals crypto chunk.encryptor.streamKey chunk.encryptor.streamId chunk.aad
        chunk.encryptor.nextSeq chunk.isFinal ciphertext chunk.plaintext) :
      Seals log (keyDerivation crypto sharedSecret kemCt
          (streamContext chunk.coins.streamId chunk.context))
        ⟨chunk.encryptor.streamKey,
          StreamV3.deriveChunkNonce crypto chunk.encryptor.streamKey chunk.encryptor.nextSeq,
          StreamV3.makeChunkAad chunk.encryptor.streamId chunk.encryptor.nextSeq chunk.isFinal
            chunk.aad, ciphertext⟩

/-- The byte string is an envelope that was sealed with this data and context. -/
def Produced (log : Log crypto key) (data aad context : Bytes) : Prop :=
  (∃ sealing ∈ log.envelopesV1, sealing.envelope = data ∧ sealing.aad = aad ∧
      sealing.context = context) ∨
    ∃ sealing ∈ log.envelopesV2, sealing.envelope = data ∧ sealing.aad = aad ∧
      sealing.context = context

/-- The byte string is a chunk of a version 3 stream in the frame of a version 1 envelope:
the KEM ciphertext of the stream, the nonce of the chunk and its ciphertext. The data is that
of the chunk and the context is the one the stream derives its key from. -/
def Reframed (log : Log crypto key) (data aad context : Bytes) : Prop :=
  ∃ chunk ∈ log.chunksV3, ∃ sharedSecret kemCt ciphertext,
    encapsulate crypto chunk.coins.encapsulation key = .ok (sharedSecret, kemCt) ∧
    chunk.frame = StreamV3.frameBytes chunk.encryptor.nextSeq chunk.isFinal ciphertext ∧
    data = wireBytes kemCt
      (StreamV3.deriveChunkNonce crypto chunk.encryptor.streamKey chunk.encryptor.nextSeq).1
      ciphertext ∧
    aad = StreamV3.makeChunkAad chunk.encryptor.streamId chunk.encryptor.nextSeq chunk.isFinal
      chunk.aad ∧
    context = streamContext chunk.encryptor.streamId chunk.context

/-- The KEM ciphertexts of the version 1 envelopes. -/
def envelopeKems (log : Log crypto key) : Set Bytes :=
  {kemCt | ∃ sealing ∈ log.envelopesV1, ∃ sharedSecret,
    encapsulate crypto sealing.coins.encapsulation key = .ok (sharedSecret, kemCt)}

/-- The KEM ciphertexts of the version 3 streams. -/
def streamKems (log : Log crypto key) : Set Bytes :=
  {kemCt | ∃ chunk ∈ log.chunksV3, ∃ sharedSecret,
    encapsulate crypto chunk.coins.encapsulation key = .ok (sharedSecret, kemCt)}

end Log

/-! ### Derivations of different formats -/

section Apart

variable {crypto : Crypto} {sharedSecret sharedSecret' kemCt kemCt' context context' : Bytes}

/-- A derivation of version 1 names its secret, its KEM ciphertext and its context. -/
theorem keyDerivation_inj
    (same : keyDerivation crypto sharedSecret kemCt context =
      keyDerivation crypto sharedSecret' kemCt' context') :
    sharedSecret = sharedSecret' ∧ crypto.sha3_256 kemCt = crypto.sha3_256 kemCt' ∧
      context = context' := by
  simp only [keyDerivation, Derivation.mk.injEq, true_and, List.append_assoc,
    List.append_cancel_left_eq] at same
  obtain ⟨secrets, infos⟩ := same
  obtain ⟨hashes, contexts⟩ := List.append_inj infos (by simp)
  exact ⟨secrets, Subtype.ext hashes, contexts⟩

theorem protocolId_eq : protocolId = [99, 105, 116, 97, 100, 101, 108, 45, 101] ++
    protocolId.drop 9 := by
  decide +kernel

/-- The info of version 1 is none that a stream expands. -/
theorem keyDerivation_info_ne {salt : Option Bytes} {secret info : Bytes}
    (different : byteAt info 8 ≠ 101) :
    keyDerivation crypto sharedSecret kemCt context ≠ ⟨salt, secret, info⟩ := by
  intro same
  simp only [keyDerivation, Derivation.mk.injEq] at same
  apply different
  rw [← same.2.2, protocolId_eq]
  rfl

theorem byteAt_chunkKeyInfo (index : Nat) (isFinal : Bool) :
    byteAt (StreamV2.chunkKeyInfo index isFinal) 8 ≠ 101 := by
  have label : utf8 "citadel-stream-chunk-v2|" = [99, 105, 116, 97, 100, 101, 108, 45, 115] ++
      (utf8 "citadel-stream-chunk-v2|").drop 9 := by
    decide +kernel
  rw [StreamV2.chunkKeyInfo, label]
  exact (by decide : (115 : UInt8) ≠ 101)

theorem byteAt_headerKeyInfo : byteAt (utf8 "citadel-v3-header-key") 8 ≠ 101 := by
  decide +kernel

end Apart

/-! ### The keys of a stream -/

namespace StreamV3

variable {crypto : Crypto} {key : PublicKey}

/-- The key and the identifier of a stream stay. -/
theorem Reached.keeps {first encryptor : StreamV3Encryptor}
    (reached : Reached crypto first encryptor) :
    encryptor.streamKey = first.streamKey ∧ encryptor.streamId = first.streamId := by
  induction reached with
  | start => exact ⟨rfl, rfl⟩
  | chunk prior returned ih =>
      obtain ⟨ciphertext, -, -, -, rfl⟩ := encryptChunk_eq_ok returned
      exact ih

/-- A chunk is sealed under the key that its stream derived first. -/
theorem Chunk.streamKey_eq (chunk : Chunk crypto key) {sharedSecret kemCt : Bytes}
    (agreed : encapsulate crypto chunk.coins.encapsulation key = .ok (sharedSecret, kemCt)) :
    chunk.encryptor.streamKey = deriveKey crypto sharedSecret (ctHash crypto kemCt)
        (streamContext chunk.coins.streamId chunk.context) ∧
      chunk.encryptor.streamId = chunk.coins.streamId := by
  obtain ⟨sameKey, sameId⟩ := chunk.reached.keeps
  obtain ⟨secret, ciphertext, tag, encapsulated, -, built⟩ := new_eq_ok chunk.started
  cases agreed.symm.trans encapsulated
  rw [sameKey, sameId, built]
  exact ⟨rfl, rfl⟩

end StreamV3

/-! ### Opening -/

namespace Log

variable {crypto : Crypto} {key : PublicKey} {log : Log crypto key}

/-- The key of a sealed tuple is the derived one. -/
theorem Seals.key_eq {derivation : Derivation} {tuple : AeadTuple}
    (seals : log.Seals derivation tuple) : tuple.key = crypto.derive derivation := by
  cases seals with
  | envelopeV1 logged agreed drawn encrypted => rfl
  | envelopeV2 logged agreed encoded transcribed produced =>
      obtain ⟨⟨secret, ciphertext⟩, encapsulated, produced⟩ := Except.of_bind_eq_ok produced
      cases agreed.symm.trans encapsulated
      obtain ⟨draft, drafted, produced⟩ := Except.of_bind_eq_ok produced
      cases encoded.symm.trans drafted
      obtain ⟨text, written, produced⟩ := Except.of_bind_eq_ok produced
      cases transcribed.symm.trans written
      obtain ⟨associated, -, produced⟩ := Except.of_bind_eq_ok produced
      obtain ⟨⟨nonce, sealed⟩, -, produced⟩ := Except.of_bind_eq_ok produced
      cases produced
      rfl
  | chunkV2 logged drawn encrypted => rfl
  | headerV3 logged agreed encrypted => rfl
  | @chunkV3 chunk logged sharedSecret kemCt ciphertext agreed encrypted =>
      exact (chunk.streamKey_eq agreed).1

end Log

/-- What `decrypt` did with a byte string that is no version 2 envelope. -/
theorem decrypt_v1_eq_ok {crypto : Crypto} {secretKey : SecretKey crypto}
    {data aad context plaintext : Bytes} (plain : WireV2.magic.isPrefixOf data = false) :
    decrypt crypto (hybridX25519MlKem768Provider crypto) secretKey data aad context =
        .ok plaintext ↔
      ∃ parts sharedSecret, decodeWire data = .ok parts ∧
        decapsulate crypto secretKey parts.kemCiphertext.1 = .ok sharedSecret ∧
        crypto.aesGcmDecrypt (deriveKey crypto sharedSecret (ctHash crypto parts.kemCiphertext.1)
          context) parts.nonce parts.aeadCiphertext aad = some plaintext := by
  simp only [decrypt, plain, Bool.false_eq_true, if_false]
  constructor
  · intro opened
    obtain ⟨parts, decoded, opened⟩ := Except.of_bind_eq_ok opened
    obtain ⟨sharedSecret, agreed, opened⟩ := Except.of_bind_eq_ok opened
    exact ⟨parts, sharedSecret, decoded, agreed, aeadOpen_eq_ok opened⟩
  · rintro ⟨parts, sharedSecret, decoded, agreed, opened⟩
    rw [decoded]
    simp only [hybridX25519MlKem768Provider, bind, Except.bind, agreed, aeadOpen, opened]

section Result

variable {crypto : Crypto} {secretKey : SecretKey crypto} {log : Log crypto secretKey.publicKey}
  {data aad context plaintext : Bytes}

/-- A version 2 envelope that opens was sealed as one. -/
theorem produced_of_open_v2
    (ideal : crypto.OpensOnly {tuple | ∃ derivation, log.Seals derivation tuple})
    (derivations : Set.InjOn crypto.derive ({derivation | ∃ tuple, log.Seals derivation tuple} ∪
      {derivation | openingDerivation crypto secretKey data context = .ok derivation}))
    (magic : WireV2.magic.isPrefixOf data = true)
    (opened : decrypt crypto (hybridX25519MlKem768Provider crypto) secretKey data aad context =
      .ok plaintext) : log.Produced data aad context := by
  simp only [decrypt, magic, if_true] at opened
  obtain ⟨parts, sharedSecret, transcript, associated, decoded, -, agreed, transcribed, bound,
    decrypted, -⟩ := WireV2.open_eq_ok opened
  have made : openingDerivation crypto secretKey data context =
      .ok (WireV2.keyDerivation crypto sharedSecret transcript) := by
    have agreed : decapsulate crypto secretKey parts.kemCiphertext = .ok sharedSecret := agreed
    simp only [openingDerivation, magic, if_true, decoded, bind, Except.bind, agreed, transcribed,
      Except.mapError_ok]
  obtain ⟨derivation, seals⟩ := ideal _ _ _ _ _ decrypted
  have same : derivation = WireV2.keyDerivation crypto sharedSecret transcript :=
    derivations (.inl ⟨_, seals⟩) (.inr made) seals.key_eq.symm
  generalize named : AeadTuple.mk _ _ _ _ = tuple at seals
  cases seals with
  | @envelopeV2 sealing logged _ _ _ _ _ agreed encoded transcribed produced =>
      rw [← named] at produced
      obtain ⟨-, -, sameContext, sameAad, sameEnvelope⟩ :=
        WireV2.eq_of_tuple (WireV2.decode_eq_ok decoded) bound sealing.returned produced
      exact .inr ⟨sealing, logged, sameEnvelope, sameAad, sameContext⟩
  -- every other derivation is made without a salt
  | envelopeV1 => cases congrArg Derivation.salt same
  | chunkV2 => cases congrArg Derivation.salt same
  | headerV3 => cases congrArg Derivation.salt same
  | chunkV3 => cases congrArg Derivation.salt same

/-- A version 1 envelope that opens was sealed as one, or is a chunk of a version 3 stream. -/
theorem produced_of_open_v1
    (ideal : crypto.OpensOnly {tuple | ∃ derivation, log.Seals derivation tuple})
    (derivations : Set.InjOn crypto.derive ({derivation | ∃ tuple, log.Seals derivation tuple} ∪
      {derivation | openingDerivation crypto secretKey data context = .ok derivation}))
    (hashes : Set.InjOn crypto.sha3_256 (log.envelopeKems ∪ log.streamKems ∪
      {kemCt | ∃ parts, decodeWire data = .ok parts ∧ parts.kemCiphertext.1 = kemCt}))
    (plain : WireV2.magic.isPrefixOf data = false)
    (opened : decrypt crypto (hybridX25519MlKem768Provider crypto) secretKey data aad context =
      .ok plaintext) : log.Produced data aad context ∨ log.Reframed data aad context := by
  obtain ⟨parts, sharedSecret, decoded, agreed, decrypted⟩ := (decrypt_v1_eq_ok plain).mp opened
  have made : openingDerivation crypto secretKey data context =
      .ok (keyDerivation crypto sharedSecret parts.kemCiphertext.1 context) := by
    simp only [openingDerivation, plain, Bool.false_eq_true, if_false, decoded, bind, Except.bind,
      agreed]
  obtain ⟨derivation, seals⟩ := ideal _ _ _ _ _ decrypted
  have same : derivation = keyDerivation crypto sharedSecret parts.kemCiphertext.1 context :=
    derivations (.inl ⟨_, seals⟩) (.inr made) seals.key_eq.symm
  have own : parts.kemCiphertext.1 ∈ log.envelopeKems ∪ log.streamKems ∪
      {kemCt | ∃ parts, decodeWire data = .ok parts ∧ parts.kemCiphertext.1 = kemCt} :=
    .inr ⟨parts, decoded, rfl⟩
  have whole := (eq_wireBytes_of_decodeWire decoded).1
  generalize named : AeadTuple.mk _ _ _ _ = tuple at seals
  cases seals with
  | @envelopeV1 sealing logged secret kemCt ciphertext nonce encapsulated drawn encrypted =>
      obtain ⟨-, sameHash, sameContext⟩ := keyDerivation_inj same
      have sameKem := hashes (.inl (.inl ⟨sealing, logged, secret, encapsulated⟩)) own sameHash
      simp only [AeadTuple.mk.injEq] at named
      obtain ⟨-, sameNonce, sameAad, sameCiphertext⟩ := named
      obtain ⟨secret', kemCt', nonce', ciphertext', encapsulated', drawn', encrypted', built⟩ :=
        encryptV1Compat_eq_ok sealing.returned
      cases encapsulated.symm.trans encapsulated'
      cases drawn.symm.trans drawn'
      cases encrypted.symm.trans encrypted'
      refine .inl (.inl ⟨sealing, logged, ?_, sameAad.symm, sameContext⟩)
      rw [built, whole, sameKem, sameNonce, sameCiphertext]
  | envelopeV2 => cases congrArg Derivation.salt same
  | chunkV2 => exact absurd same.symm (keyDerivation_info_ne (byteAt_chunkKeyInfo _ _))
  | headerV3 => exact absurd same.symm (keyDerivation_info_ne byteAt_headerKeyInfo)
  | @chunkV3 chunk logged secret kemCt ciphertext encapsulated encrypted =>
      obtain ⟨-, sameHash, sameContext⟩ := keyDerivation_inj same
      have sameKem := hashes (.inl (.inr ⟨chunk, logged, secret, encapsulated⟩)) own sameHash
      simp only [AeadTuple.mk.injEq] at named
      obtain ⟨-, sameNonce, sameAad, sameCiphertext⟩ := named
      obtain ⟨ciphertext', -, encrypted', framed, -⟩ := StreamV3.encryptChunk_eq_ok chunk.returned
      cases encrypted.symm.trans encrypted'
      refine .inr ⟨chunk, logged, secret, kemCt, ciphertext, encapsulated, framed, ?_, sameAad, ?_⟩
      · rw [whole, sameKem, sameNonce, sameCiphertext]
      · rw [(chunk.streamKey_eq encapsulated).2, sameContext]

/-- No version 1 frame is taken for a version 2 envelope. -/
theorem isPrefixOf_wireBytes (kemCt nonce ciphertext : Bytes) :
    WireV2.magic.isPrefixOf (wireBytes kemCt nonce ciphertext) = false := rfl

/-- The recipient agrees on the secret of the sender. -/
theorem decapsulate_of_agreed (lawful : crypto.Lawful) {coins : EncapsulationCoins}
    {sharedSecret kemCt : Bytes}
    (agreed : encapsulate crypto coins secretKey.publicKey = .ok (sharedSecret, kemCt)) :
    decapsulate crypto secretKey kemCt = .ok sharedSecret :=
  (hybridX25519MlKem768Provider_lawful lawful).decapsulate_encapsulate _ _ _ _ agreed

/-- A chunk of a version 3 stream opens in a version 1 frame. -/
theorem opens_of_reframed (lawful : crypto.Lawful) (reframed : log.Reframed data aad context) :
    ∃ plaintext, decrypt crypto (hybridX25519MlKem768Provider crypto) secretKey data aad context =
      .ok plaintext := by
  obtain ⟨chunk, logged, sharedSecret, kemCt, ciphertext, agreed, framed, rfl, rfl, rfl⟩ := reframed
  have kem := hybridX25519MlKem768Provider_lawful lawful
  obtain ⟨sameKey, sameId⟩ := chunk.streamKey_eq agreed
  obtain ⟨sealed, -, encrypted, framed', -⟩ := StreamV3.encryptChunk_eq_ok chunk.returned
  have sameCiphertext : sealed = ciphertext := List.append_cancel_left (framed'.symm.trans framed)
  subst sameCiphertext
  have kemLength : kemCt.length = 1120 := kem.encapsulate_length _ _ _ _ agreed
  have tagged : aeadTagBytes ≤ sealed.length := by
    rw [lawful.aesGcmEncrypt_length _ _ _ _ _ encrypted]
    exact Nat.le_add_left _ _
  refine ⟨chunk.plaintext, (decrypt_v1_eq_ok (isPrefixOf_wireBytes _ _ _)).mpr ⟨_, sharedSecret,
    decodeWire_wireBytes ⟨kemCt, kemLength⟩ _ sealed tagged, ?_, ?_⟩⟩
  · exact decapsulate_of_agreed lawful agreed
  · rw [sameId, ← sameKey, ← sameId]
    exact lawful.aesGcmDecrypt_encrypt _ _ _ _ _ encrypted

/-- A version 1 frame around the KEM ciphertext of a stream was not sealed as an envelope. -/
theorem not_produced_of_reframed (fresh : Disjoint log.envelopeKems log.streamKems)
    (lawful : crypto.Lawful) (reframed : log.Reframed data aad context) :
    ¬ log.Produced data aad context := by
  obtain ⟨chunk, logged, sharedSecret, kemCt, ciphertext, agreed, framed, rfl, rfl, rfl⟩ := reframed
  have kem := hybridX25519MlKem768Provider_lawful lawful
  rintro (⟨sealing, sealedV1, sameEnvelope, -, -⟩ | ⟨sealing, sealedV2, sameEnvelope, -, -⟩)
  · obtain ⟨secret, kemCt', nonce, sealed, encapsulated, -, -, built⟩ :=
      encryptV1Compat_eq_ok sealing.returned
    rw [sameEnvelope] at built
    have sameLength : kemCt.length = kemCt'.length :=
      (kem.encapsulate_length _ _ _ _ agreed).trans
        (kem.encapsulate_length _ _ _ _ encapsulated).symm
    simp only [wireBytes, List.append_assoc, List.append_cancel_left_eq] at built
    obtain ⟨sameKem, -⟩ := List.append_inj built sameLength
    subst sameKem
    exact Set.disjoint_left.mp fresh ⟨sealing, sealedV1, secret, encapsulated⟩
      ⟨chunk, logged, sharedSecret, agreed⟩
  · have magic := List.isPrefixOf_iff_prefix.mpr (WireV2.seal_magic sealing.returned)
    rw [sameEnvelope, isPrefixOf_wireBytes] at magic
    cases magic

/-- Whatever envelopes and streams were sealed to a public key, what `decrypt` accepts under
its secret key was sealed as an envelope with the same data and context, exactly if it is no
chunk of a version 3 stream in a version 1 frame. -/
theorem opens_only_envelopes_iff (crypto : Crypto) (lawful : crypto.Lawful)
    (secretKey : SecretKey crypto) (log : Log crypto secretKey.publicKey)
    (ideal : crypto.OpensOnly {tuple | ∃ derivation, log.Seals derivation tuple})
    (fresh : Disjoint log.envelopeKems log.streamKems) (data aad context : Bytes)
    (derivations : Set.InjOn crypto.derive ({derivation | ∃ tuple, log.Seals derivation tuple} ∪
      {derivation | openingDerivation crypto secretKey data context = .ok derivation}))
    (hashes : Set.InjOn crypto.sha3_256 (log.envelopeKems ∪ log.streamKems ∪
      {kemCt | ∃ parts, decodeWire data = .ok parts ∧ parts.kemCiphertext.1 = kemCt})) :
    (∀ plaintext, decrypt crypto (hybridX25519MlKem768Provider crypto) secretKey data aad context =
        .ok plaintext → log.Produced data aad context) ↔
      ¬ log.Reframed data aad context := by
  constructor
  · intro separate reframed
    obtain ⟨plaintext, opened⟩ := opens_of_reframed lawful reframed
    exact not_produced_of_reframed fresh lawful reframed (separate plaintext opened)
  · intro framed plaintext opened
    cases magic : WireV2.magic.isPrefixOf data with
    | true => exact produced_of_open_v2 ideal derivations magic opened
    | false =>
        rcases produced_of_open_v1 ideal derivations hashes magic opened with produced | reframed
        · exact produced
        · exact absurd reframed framed

end Result

/-! ### One stream, and its chunk as an envelope -/

section Reframing

open StreamV3

/-- The associated data of its chunk. -/
def reframedAad : Bytes := makeChunkAad (.zeros 16) 0 true ⟨[]⟩

/-- What the backend of the stream takes: its header and one chunk. -/
def reframedEntries : List (SizedBytes 32 × SizedBytes 12 × Bytes × Bytes) :=
  [(.zeros 32, .zeros 12, [], zeroFront), (filled 32 1, .zeros 12, [7], reframedAad)]

/-- Its keys tell the secrets of an encapsulation from the keys of a stream. -/
def reframedCrypto : Crypto :=
  { registry reframedEntries with
    hkdfSha256 := fun _ secret _ => if secret.length = 64 then filled 32 1 else .zeros 32 }

theorem reframedCrypto_lawful : reframedCrypto.Lawful :=
  { registry_lawful reframedEntries with }

def reframedKey : SecretKey reframedCrypto := ⟨.zeros 32, SizedBytes.zeros 2400⟩

def reframedSecret : Bytes := (filled 32 1).1 ++ (SizedBytes.zeros 32).1

def reframedKem : SizedBytes 1120 :=
  ⟨(SizedBytes.zeros 32).1 ++ (SizedBytes.zeros 1088).1, by simp⟩

theorem reframed_agreed :
    encapsulate reframedCrypto ⟨.zeros 32, .zeros 32⟩ reframedKey.publicKey =
      .ok (reframedSecret, reframedKem.1) := rfl

/-- The encryptor of the stream. -/
def reframedEncryptor : StreamV3Encryptor :=
  ⟨filled 32 1, .zeros 32, .zeros 16, zeroFront ++ List.replicate 16 0, 0, false⟩

theorem reframed_encrypts {key : SizedBytes 32} {nonce : SizedBytes 12} {message associated : Bytes}
    (entered : (key, nonce, message, associated) ∈ reframedEntries) :
    reframedCrypto.aesGcmEncrypt key nonce message associated =
      some (message ++ List.replicate 16 0) :=
  registry_encrypts entered

theorem reframed_decrypts {key : SizedBytes 32} {nonce : SizedBytes 12}
    {message associated ciphertext : Bytes}
    (decrypted : reframedCrypto.aesGcmDecrypt key nonce ciphertext associated = some message) :
    (key, nonce, message, associated) ∈ reframedEntries ∧
      ciphertext = message ++ List.replicate 16 0 :=
  registry_decrypt decrypted

theorem reframed_header :
    reframedCrypto.aesGcmEncrypt (.zeros 32) (.zeros 12) [] zeroFront =
      some ([] ++ List.replicate 16 0) := by
  apply reframed_encrypts
  rw [reframedEntries]
  exact List.mem_cons_self

theorem reframed_chunk :
    reframedCrypto.aesGcmEncrypt (filled 32 1) (.zeros 12) [7] reframedAad =
      some ([7] ++ List.replicate 16 0) := by
  apply reframed_encrypts
  rw [reframedEntries]
  exact List.mem_cons_of_mem _ List.mem_cons_self

theorem reframed_streamKey :
    deriveStreamKey reframedCrypto reframedSecret reframedKem.1 (.zeros 16) ⟨[]⟩ = filled 32 1 := rfl

theorem reframed_started :
    StreamV3Encryptor.new reframedCrypto ⟨⟨.zeros 32, .zeros 32⟩, .zeros 16⟩ reframedKey.publicKey
      ⟨[]⟩ ⟨[]⟩ = .ok reframedEncryptor := by
  have headerKey : deriveHeaderKey reframedCrypto (filled 32 1) = .zeros 32 := rfl
  have finalKey : deriveFinalKey reframedCrypto (filled 32 1) = .zeros 32 := rfl
  have sealed : aeadSealWith reframedCrypto (.zeros 32) (.zeros 12) []
      (preHeader (.zeros 16) reframedKem.1) = .ok (List.replicate 16 0) := by
    rw [aeadSealWith, show preHeader (.zeros 16) reframedKem.1 = zeroFront from rfl,
      reframed_header]
    rfl
  simp only [StreamV3Encryptor.new, reframed_agreed, bind, Except.bind, reframed_streamKey,
    headerKey, finalKey, sealed]
  rfl

theorem reframed_returned :
    reframedEncryptor.encryptChunk reframedCrypto [7] true ⟨[]⟩ =
      .ok (frameBytes 0 true (7 :: List.replicate 16 0),
        { reframedEncryptor with nextSeq := 1, finalized := true }) := by
  have sealed : aeadSealWith reframedCrypto (filled 32 1) (.zeros 12) [7] reframedAad =
      .ok (7 :: List.replicate 16 0) := by
    rw [aeadSealWith, reframed_chunk]
    rfl
  change (aeadSealWith reframedCrypto (filled 32 1) (.zeros 12) [7] reframedAad >>= _) = _
  rw [sealed]
  rfl

/-- The chunk of the stream. -/
def reframedChunk : Chunk reframedCrypto reframedKey.publicKey where
  coins := ⟨⟨.zeros 32, .zeros 32⟩, .zeros 16⟩
  streamAad := ⟨[]⟩
  context := ⟨[]⟩
  first := reframedEncryptor
  started := reframed_started
  encryptor := reframedEncryptor
  reached := .start
  plaintext := [7]
  isFinal := true
  aad := ⟨[]⟩
  frame := frameBytes 0 true (7 :: List.replicate 16 0)
  next := { reframedEncryptor with nextSeq := 1, finalized := true }
  returned := reframed_returned

/-- The stream is all that was sealed. -/
def reframedLog : Log reframedCrypto reframedKey.publicKey :=
  ⟨∅, ∅, ∅, {reframedChunk.toStarted}, {reframedChunk}⟩

/-- The chunk in the frame of an envelope. -/
def reframedData : Bytes :=
  wireBytes reframedKem.1 (SizedBytes.zeros 12).1 (7 :: List.replicate 16 0)

theorem reframedLog_reframed :
    reframedLog.Reframed reframedData reframedAad (streamContext (.zeros 16) ⟨[]⟩) :=
  ⟨reframedChunk, rfl, reframedSecret, reframedKem.1, 7 :: List.replicate 16 0, reframed_agreed, rfl,
    rfl, rfl, rfl⟩

theorem reframedLog_fresh : Disjoint reframedLog.envelopeKems reframedLog.streamKems := by
  rw [Set.disjoint_left]
  rintro kemCt ⟨sealing, none, -⟩
  cases none

theorem reframedLog_ideal :
    reframedCrypto.OpensOnly {tuple | ∃ derivation, reframedLog.Seals derivation tuple} := by
  intro key nonce ciphertext associated plaintext decrypted
  obtain ⟨entered, rfl⟩ := reframed_decrypts decrypted
  simp only [reframedEntries, List.mem_cons, List.not_mem_nil, or_false, Prod.mk.injEq] at entered
  rcases entered with ⟨rfl, rfl, rfl, rfl⟩ | ⟨rfl, rfl, rfl, rfl⟩
  · have stream : reframedChunk.toStarted ∈ reframedLog.streamsV3 := rfl
    exact ⟨_, .headerV3 stream reframed_agreed reframed_header⟩
  · have chunk : reframedChunk ∈ reframedLog.chunksV3 := rfl
    exact ⟨_, .chunkV3 chunk reframed_agreed reframed_chunk⟩

/-- The two derivations of the stream; the one that opens the chunk is the second. -/
theorem reframed_derivation {derivation : Derivation}
    (made : (∃ tuple, reframedLog.Seals derivation tuple) ∨
      openingDerivation reframedCrypto reframedKey reframedData (streamContext (.zeros 16) ⟨[]⟩) =
        .ok derivation) :
    derivation = ⟨none, (filled 32 1).1, utf8 "citadel-v3-header-key"⟩ ∨
      derivation = keyDerivation reframedCrypto reframedSecret reframedKem.1
        (streamContext (.zeros 16) ⟨[]⟩) := by
  rcases made with ⟨tuple, seals⟩ | opening
  · cases seals with
    | envelopeV1 logged => cases logged
    | envelopeV2 logged => cases logged
    | chunkV2 logged => cases logged
    | headerV3 logged agreed encrypted =>
        cases logged
        exact .inl rfl
    | chunkV3 logged agreed encrypted =>
        cases logged
        cases agreed.symm.trans reframed_agreed
        exact .inr rfl
  · have agreed : decapsulate reframedCrypto reframedKey reframedKem.1 = .ok reframedSecret :=
      decapsulate_of_agreed reframedCrypto_lawful reframed_agreed
    have tagged : aeadTagBytes ≤ (7 :: List.replicate 16 0 : Bytes).length := by decide
    have decoded := decodeWire_wireBytes reframedKem (.zeros 12) _ tagged
    rw [reframedData, openingDerivation, isPrefixOf_wireBytes, decoded] at opening
    simp only [Bool.false_eq_true, if_false, bind, Except.bind, agreed] at opening
    cases opening
    exact .inr rfl

theorem reframedLog_derivations :
    Set.InjOn reframedCrypto.derive ({derivation | ∃ tuple, reframedLog.Seals derivation tuple} ∪
      {derivation | openingDerivation reframedCrypto reframedKey reframedData
        (streamContext (.zeros 16) ⟨[]⟩) = .ok derivation}) := by
  have apart : reframedCrypto.derive ⟨none, (filled 32 1).1, utf8 "citadel-v3-header-key"⟩ ≠
      reframedCrypto.derive (keyDerivation reframedCrypto reframedSecret reframedKem.1
        (streamContext (.zeros 16) ⟨[]⟩)) := by
    intro same
    cases (congrArg (fun key : SizedBytes 32 => byteAt key.1 0) same : (0 : UInt8) = 1)
  intro left leftMade right rightMade same
  rcases reframed_derivation leftMade with rfl | rfl <;>
    rcases reframed_derivation rightMade with rfl | rfl
  · rfl
  · exact absurd same apart
  · exact absurd same.symm apart
  · rfl

theorem reframedLog_hashes :
    Set.InjOn reframedCrypto.sha3_256 (reframedLog.envelopeKems ∪ reframedLog.streamKems ∪
      {kemCt | ∃ parts, decodeWire reframedData = .ok parts ∧ parts.kemCiphertext.1 = kemCt}) := by
  have one : ∀ kemCt ∈ reframedLog.envelopeKems ∪ reframedLog.streamKems ∪
      {kemCt | ∃ parts, decodeWire reframedData = .ok parts ∧ parts.kemCiphertext.1 = kemCt},
      kemCt = reframedKem.1 := by
    rintro kemCt ((⟨sealing, none, -⟩ | ⟨chunk, logged, secret, agreed⟩) | ⟨parts, decoded, rfl⟩)
    · cases none
    · cases logged
      cases agreed.symm.trans reframed_agreed
      rfl
    · have tagged : aeadTagBytes ≤ (7 :: List.replicate 16 0 : Bytes).length := by decide
      cases decoded.symm.trans (decodeWire_wireBytes reframedKem (.zeros 12) _ tagged)
      rfl
  intro left leftIn right rightIn _
  rw [one left leftIn, one right rightIn]

/-- With one stream sealed and no envelope, its chunk opens in a version 1 frame. -/
theorem chunk_opens_as_envelope :
    reframedCrypto.Lawful ∧
    reframedCrypto.OpensOnly {tuple | ∃ derivation, reframedLog.Seals derivation tuple} ∧
    Set.InjOn reframedCrypto.derive ({derivation | ∃ tuple, reframedLog.Seals derivation tuple} ∪
      {derivation | openingDerivation reframedCrypto reframedKey reframedData
        (streamContext (.zeros 16) ⟨[]⟩) = .ok derivation}) ∧
    Set.InjOn reframedCrypto.sha3_256 (reframedLog.envelopeKems ∪ reframedLog.streamKems ∪
      {kemCt | ∃ parts, decodeWire reframedData = .ok parts ∧ parts.kemCiphertext.1 = kemCt}) ∧
    (∃ plaintext, decrypt reframedCrypto (hybridX25519MlKem768Provider reframedCrypto) reframedKey
      reframedData reframedAad (streamContext (.zeros 16) ⟨[]⟩) = .ok plaintext) ∧
    ¬ reframedLog.Produced reframedData reframedAad (streamContext (.zeros 16) ⟨[]⟩) :=
  ⟨reframedCrypto_lawful, reframedLog_ideal, reframedLog_derivations, reframedLog_hashes,
    opens_of_reframed reframedCrypto_lawful reframedLog_reframed,
    not_produced_of_reframed reframedLog_fresh reframedCrypto_lawful reframedLog_reframed⟩

/-- The assumptions hold for this stream, and the chunk is not told apart. -/
theorem chunk_not_told_apart :
    ¬ ∀ plaintext, decrypt reframedCrypto (hybridX25519MlKem768Provider reframedCrypto) reframedKey
      reframedData reframedAad (streamContext (.zeros 16) ⟨[]⟩) = .ok plaintext →
        reframedLog.Produced reframedData reframedAad (streamContext (.zeros 16) ⟨[]⟩) := by
  intro separate
  exact (opens_only_envelopes_iff reframedCrypto reframedCrypto_lawful reframedKey reframedLog
    reframedLog_ideal reframedLog_fresh reframedData reframedAad (streamContext (.zeros 16) ⟨[]⟩)
    reframedLog_derivations reframedLog_hashes).mp separate reframedLog_reframed

end Reframing

end Citadel.Envelope
