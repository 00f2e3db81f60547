import Citadel.Envelope.Binding
import Citadel.Envelope.StreamV3

/-!
# Telling the formats apart

Four decoders read byte strings of this library: the two envelope versions and the headers
of the two stream versions. Nothing but the bytes says which of them to use. The nonce
extractor and `inspect` recompute the offsets of the two envelope versions from the same
bytes, so what they report has to be what decryption used.
-/

namespace Citadel.Envelope

def streamVersion : UInt8 := 0x02
def flagsStream : UInt8 := 0x01

/-- `STREAM_HEADER_BYTES`, 1126. -/
def streamHeaderBytes : Nat := headerBytes + kemCiphertextBytes

/-- A parsed stream header (`StreamHeader`). -/
structure StreamHeader where
  version : UInt8
  suiteKem : UInt8
  suiteAead : UInt8
  flags : UInt8
  kemCiphertext : SizedBytes 1120

/-- `decode_stream_header`. -/
def decodeStreamHeader (data : Bytes) : Except DecryptionError StreamHeader :=
  if data.length < streamHeaderBytes then .error ⟨⟩
  else
    let version := byteAt data 0
    let suiteKem := byteAt data 1
    let suiteAead := byteAt data 2
    let flags := byteAt data 3
    let kemCtLen := beNat (slice data 4 6)
    if version ≠ streamVersion then .error ⟨⟩
    else if suiteKem ≠ suiteKemHybridX25519Mlkem768 ∨ suiteAead ≠ suiteAeadAes256Gcm then
      .error ⟨⟩
    else if flags ≠ flagsStream then .error ⟨⟩
    else if kemCtLen ≠ kemCiphertextBytes then .error ⟨⟩
    else do
      let kemCiphertext ← toSized 1120 (slice data headerBytes streamHeaderBytes)
      .ok ⟨version, suiteKem, suiteAead, flags, kemCiphertext⟩

/-- `CiphertextInfo`. -/
structure CiphertextInfo where
  version : UInt8
  kemSuite : String
  aeadSuite : String
  totalBytes : Nat
  plaintextBytes : Nat
  streaming : Bool
  deriving DecidableEq, Repr

/-- The name of a KEM suite in a version 2 envelope. -/
def kemSuiteName (suiteKem : UInt8) : String :=
  if suiteKem = suiteKemHybridX25519Mlkem768 then "X25519+ML-KEM-768"
  else if suiteKem = suiteKemHybridP384Mlkem1024 then "P-384+ML-KEM-1024"
  else "unknown"

/-- The name of a KEM suite in the older formats, which know one. -/
def legacyKemSuiteName (suiteKem : UInt8) : String :=
  if suiteKem = suiteKemHybridX25519Mlkem768 then "X25519+ML-KEM-768" else "unknown"

/-- The name of a cipher in the older formats. -/
def legacyAeadSuiteName (suiteAead : UInt8) : String :=
  if suiteAead = suiteAeadAes256Gcm then "AES-256-GCM" else "unknown"

/-- `inspect`: what a ciphertext says about itself. -/
def inspect (ciphertext : Bytes) : Except DecryptionError CiphertextInfo :=
  if WireV2.magic.isPrefixOf ciphertext then do
    let parts ← WireV2.decode ciphertext
    .ok ⟨WireV2.version, kemSuiteName parts.suite.suiteKem, "AES-256-GCM", ciphertext.length,
      parts.plaintextLen, false⟩
  else
    match ciphertext with
    | [] => .error ⟨⟩
    | versionByte :: _ =>
        if versionByte = streamVersion then do
          let header ← decodeStreamHeader ciphertext
          .ok ⟨header.version, legacyKemSuiteName header.suiteKem,
            legacyAeadSuiteName header.suiteAead, ciphertext.length, 0, true⟩
        else do
          let parts ← decodeWireRaw ciphertext
          checkV1Suites parts
          .ok ⟨parts.version, legacyKemSuiteName parts.suiteKem,
            legacyAeadSuiteName parts.suiteAead, ciphertext.length,
            ciphertext.length - minCiphertextBytes, false⟩

/-- The formats a decoder of this library reads. -/
inductive Format where
  | envelopeV1
  | envelopeV2
  | streamV2
  | streamV3
  deriving DecidableEq, Repr

/-- The decoder of a format accepts a byte string. The header of a version 3 stream is
parsed with a key and authenticated on the way. -/
def Format.Accepts (crypto : Crypto) (data : Bytes) : Format → Prop
  | .envelopeV1 => ∃ components, decodeWire data = .ok components
  | .envelopeV2 => ∃ parts, WireV2.decode data = .ok parts
  | .streamV2 => ∃ header, decodeStreamHeader data = .ok header
  | .streamV3 => ∃ key aad context parsed,
      StreamV3.StreamV3Decryptor.fromHeader crypto key data aad context = .ok parsed

/-- The first and the fourth byte of a format: its version and flags, or two letters of its
magic. -/
def Format.lead : Format → UInt8 × UInt8
  | .envelopeV1 => (protocolVersion, flagsV1)
  | .envelopeV2 => (0x43, 0x32)
  | .streamV2 => (streamVersion, flagsStream)
  | .streamV3 => (0x43, 0x4C)

theorem Format.lead_injective : Function.Injective Format.lead := by
  intro left right
  cases left <;> cases right <;> decide

/-- Two bytes of a string that starts with four known ones. -/
private theorem lead_of_take {data : Bytes} {first second third fourth : UInt8}
    (starts : data.take 4 = [first, second, third, fourth]) :
    (byteAt data 0, byteAt data 3) = (first, fourth) := by
  rw [← List.take_append_drop 4 data, starts]
  rfl

/-- Everything the version 1 decoder checked, and where it found the cipher's part. -/
theorem decodeWire_eq_ok {data : Bytes} {components : WireComponents}
    (decoded : decodeWire data = .ok components) :
    (minCiphertextBytes ≤ data.length ∧ byteAt data 0 = protocolVersion ∧
      byteAt data 3 = flagsV1) ∧
    decodeWireRaw data = .ok components ∧ checkV1Suites components = .ok () ∧
    components.aeadCiphertext.length = data.length - (minCiphertextBytes - aeadTagBytes) := by
  obtain ⟨raw, structural, decoded⟩ := Except.of_bind_eq_ok decoded
  obtain ⟨⟨⟩, checked, decoded⟩ := Except.of_bind_eq_ok decoded
  cases decoded
  refine ⟨?_, structural, checked, ?_⟩
  all_goals
    obtain ⟨long, read⟩ := Except.of_guard_eq_ok structural
    obtain ⟨version, read⟩ := Except.of_guard_eq_ok read
    obtain ⟨flags, read⟩ := Except.of_guard_eq_ok read
    obtain ⟨-, read⟩ := Except.of_guard_eq_ok read
    obtain ⟨kemCiphertext, -, read⟩ := Except.of_bind_eq_ok read
    obtain ⟨nonce, -, read⟩ := Except.of_bind_eq_ok read
    obtain ⟨-, read⟩ := Except.of_guard_eq_ok read
  · exact ⟨not_lt.mp long, not_not.mp version, not_not.mp flags⟩
  · cases read
    exact List.length_drop

/-- What a decoder accepts begins as its format does. -/
theorem Format.Accepts.lead {crypto : Crypto} {data : Bytes} {format : Format}
    (accepted : format.Accepts crypto data) : (byteAt data 0, byteAt data 3) = format.lead := by
  cases format with
  | envelopeV1 =>
      obtain ⟨components, decoded⟩ := accepted
      obtain ⟨⟨-, version, flags⟩, -⟩ := decodeWire_eq_ok decoded
      rw [version, flags]
      rfl
  | envelopeV2 =>
      obtain ⟨parts, decoded⟩ := accepted
      obtain ⟨-, decoded⟩ := Except.of_guard_eq_ok decoded
      obtain ⟨fields, -⟩ := Except.of_guard_eq_ok decoded
      simp only [not_or, not_not] at fields
      have starts := fields.1
      rw [List.take_take] at starts
      exact lead_of_take starts
  | streamV2 =>
      obtain ⟨header, decoded⟩ := accepted
      obtain ⟨-, decoded⟩ := Except.of_guard_eq_ok decoded
      obtain ⟨version, decoded⟩ := Except.of_guard_eq_ok decoded
      obtain ⟨-, decoded⟩ := Except.of_guard_eq_ok decoded
      obtain ⟨flags, -⟩ := Except.of_guard_eq_ok decoded
      rw [not_not.mp version, not_not.mp flags]
      rfl
  | streamV3 =>
      obtain ⟨key, aad, context, parsed, decoded⟩ := accepted
      obtain ⟨-, decoded⟩ := Except.of_guard_eq_ok decoded
      obtain ⟨starts, -⟩ := Except.of_guard_eq_ok decoded
      have letters : StreamV3.streamV3Magic = [0x43, 0x54, 0x44, 0x4C] := by decide
      rw [not_not, letters] at starts
      exact lead_of_take starts

/-- The backend, with a cipher that opens under one nonce only. -/
def Crypto.underNonce (crypto : Crypto) (nonce : SizedBytes 12) : Crypto :=
  { crypto with
    aesGcmDecrypt := fun key used ciphertext associated =>
      if used = nonce then crypto.aesGcmDecrypt key used ciphertext associated else none }

section

variable (crypto : Crypto) (nonce : SizedBytes 12)

/-! Only the cipher differs between the two backends. -/

theorem Crypto.underNonce_contextHash (context : Bytes) :
    WireV2.contextHash (crypto.underNonce nonce) context = WireV2.contextHash crypto context := rfl

theorem Crypto.underNonce_publicKeyHash (provider : KemProvider) (key : provider.PublicKey) :
    WireV2.publicKeyHash (crypto.underNonce nonce) provider key =
      WireV2.publicKeyHash crypto provider key := rfl

theorem Crypto.underNonce_keyV2 (sharedSecret transcript : Bytes) :
    WireV2.deriveKey (crypto.underNonce nonce) sharedSecret transcript =
      WireV2.deriveKey crypto sharedSecret transcript := rfl

theorem Crypto.underNonce_ctHash (kemCt : Bytes) :
    ctHash (crypto.underNonce nonce) kemCt = ctHash crypto kemCt := rfl

theorem Crypto.underNonce_keyV1 (sharedSecret : Bytes) (hash : SizedBytes 32) (context : Bytes) :
    deriveKey (crypto.underNonce nonce) sharedSecret hash context =
      deriveKey crypto sharedSecret hash context := rfl

end

/-- A ciphertext of the cipher is 16 bytes longer than its plaintext. -/
def Crypto.Tagged (crypto : Crypto) : Prop :=
  ∀ key nonce ciphertext associated plaintext,
    crypto.aesGcmDecrypt key nonce ciphertext associated = some plaintext →
      ciphertext.length = plaintext.length + 16

section Opening

variable {crypto : Crypto} {provider : KemProvider} {key : provider.SecretKey}
  {data aad context plaintext : Bytes}

/-- A successful opening, repeated with a cipher for one nonce. -/
theorem aeadOpen_underNonce {aesKey : SizedBytes 32} {used : SizedBytes 12}
    {ciphertext associated : Bytes}
    (opened : aeadOpen crypto aesKey used ciphertext associated = .ok plaintext)
    (nonce : SizedBytes 12) :
    aeadOpen (crypto.underNonce nonce) aesKey used ciphertext associated =
      if nonce = used then .ok plaintext else .error ⟨⟩ := by
  have decrypted := aeadOpen_eq_ok opened
  by_cases same : nonce = used
  · subst same
    simp only [aeadOpen, Crypto.underNonce, if_true, decrypted]
  · simp only [aeadOpen, Crypto.underNonce, if_neg same, if_neg (Ne.symm same)]

/-- A version 2 envelope opens under the nonce of its header and no other. -/
theorem WireV2.open_nonce
    (opened : WireV2.open crypto provider key data aad context = .ok plaintext) :
    ∃ parts, WireV2.decode data = .ok parts ∧ plaintext.length = parts.plaintextLen ∧
      ∀ nonce, WireV2.open (crypto.underNonce nonce) provider key data aad context =
        if nonce = parts.nonce then .ok plaintext else .error ⟨⟩ := by
  obtain ⟨bounded, opened⟩ := Except.of_guard_eq_ok opened
  obtain ⟨parts, decoded, opened⟩ := Except.of_bind_eq_ok opened
  obtain ⟨suite, opened⟩ := Except.of_guard_eq_ok opened
  obtain ⟨supplied, read, opened⟩ := Except.of_bind_eq_ok opened
  obtain ⟨sameContext, opened⟩ := Except.of_guard_eq_ok opened
  obtain ⟨sharedSecret, decapsulated, opened⟩ := Except.of_bind_eq_ok opened
  obtain ⟨transcript, transcribed, opened⟩ := Except.of_bind_eq_ok opened
  obtain ⟨associated, bound, opened⟩ := Except.of_bind_eq_ok opened
  obtain ⟨message, decrypted, opened⟩ := Except.of_bind_eq_ok opened
  obtain ⟨measured, opened⟩ := Except.of_guard_eq_ok opened
  obtain ⟨recipient, opened⟩ := Except.of_guard_eq_ok opened
  cases opened
  refine ⟨parts, decoded, not_not.mp measured, fun nonce => ?_⟩
  have again := aeadOpen_underNonce decrypted nonce
  change (if _ then _ else _) = _
  rw [if_neg bounded]
  simp only [bind, Except.bind, decoded, if_neg suite, read, decapsulated, transcribed, bound,
    Crypto.underNonce_contextHash, Crypto.underNonce_publicKeyHash, Crypto.underNonce_keyV2,
    if_neg sameContext, again]
  by_cases same : nonce = parts.nonce
  · simp only [if_pos same]
    exact (if_neg measured).trans (if_neg recipient)
  · simp only [if_neg same]

/-- A version 1 envelope opens under its nonce field and no other. -/
theorem decryptV1_nonce (notV2 : ¬ WireV2.magic.isPrefixOf data)
    (opened : decrypt crypto provider key data aad context = .ok plaintext) :
    ∃ components aesKey, decodeWire data = .ok components ∧
      crypto.aesGcmDecrypt aesKey components.nonce components.aeadCiphertext aad =
        some plaintext ∧
      ∀ nonce, decrypt (crypto.underNonce nonce) provider key data aad context =
        if nonce = components.nonce then .ok plaintext else .error ⟨⟩ := by
  rw [decrypt, if_neg notV2] at opened
  obtain ⟨components, decoded, opened⟩ := Except.of_bind_eq_ok opened
  obtain ⟨sharedSecret, decapsulated, opened⟩ := Except.of_bind_eq_ok opened
  refine ⟨components, _, decoded, aeadOpen_eq_ok opened, fun nonce => ?_⟩
  rw [decrypt, if_neg notV2]
  simp only [bind, Except.bind, decoded, decapsulated, Crypto.underNonce_ctHash,
    Crypto.underNonce_keyV1]
  exact aeadOpen_underNonce opened nonce

/-- Whatever opens was opened under the nonce that `envelope_nonce` reads, and `inspect`
tells the length of what came out. -/
theorem decrypt_reported (tagged : crypto.Tagged)
    (opened : decrypt crypto provider key data aad context = .ok plaintext) :
    (∃ nonce, envelopeNonce data = .ok nonce ∧
      ∀ other, decrypt (crypto.underNonce other) provider key data aad context =
        if other = nonce then .ok plaintext else .error ⟨⟩) ∧
    ∃ info, inspect data = .ok info ∧ info.plaintextBytes = plaintext.length ∧
      info.streaming = false := by
  by_cases isV2 : WireV2.magic.isPrefixOf data
  · have openedV2 := opened
    rw [decrypt, if_pos isV2] at openedV2
    obtain ⟨parts, decoded, measured, nonce⟩ := WireV2.open_nonce openedV2
    constructor
    · refine ⟨parts.nonce, ?_, fun other => ?_⟩
      · rw [envelopeNonce, if_pos isV2, decoded]
        rfl
      · rw [decrypt, if_pos isV2]
        exact nonce other
    · refine ⟨⟨WireV2.version, kemSuiteName parts.suite.suiteKem, "AES-256-GCM", data.length,
        parts.plaintextLen, false⟩, ?_, measured.symm, rfl⟩
      rw [inspect.eq_def, if_pos isV2, decoded]
      rfl
  · obtain ⟨components, aesKey, decoded, decrypted, nonce⟩ := decryptV1_nonce isV2 opened
    obtain ⟨⟨long, version, -⟩, structural, checked, remaining⟩ := decodeWire_eq_ok decoded
    constructor
    · refine ⟨components.nonce, ?_, nonce⟩
      rw [envelopeNonce, if_neg isV2, decoded]
      rfl
    · have lengths := tagged _ _ _ _ _ decrypted
      have measured : data.length - minCiphertextBytes = plaintext.length := by
        rw [lengths] at remaining
        simp only [minCiphertextBytes, aeadTagBytes] at remaining long ⊢
        omega
      refine ⟨⟨components.version, legacyKemSuiteName components.suiteKem,
        legacyAeadSuiteName components.suiteAead, data.length, data.length - minCiphertextBytes,
        false⟩, ?_, measured, rfl⟩
      rw [inspect.eq_def, if_neg isV2]
      cases data with
      | nil =>
          simp only [minCiphertextBytes, aeadTagBytes, List.length_nil] at long
          omega
      | cons versionByte rest =>
          have notStream : versionByte ≠ streamVersion := by
            rw [show versionByte = protocolVersion from version]
            decide
          simp only [if_neg notStream, structural, checked, bind, Except.bind]

end Opening

/-- No byte string is accepted by two decoders. Whatever decryption opens, it opened under
exactly the nonce that `envelope_nonce` returns, and `inspect` reports exactly the length of
the plaintext. -/
theorem formats_consistent (crypto : Crypto) (tagged : crypto.Tagged) :
    (∀ data (left right : Format),
      left.Accepts crypto data → right.Accepts crypto data → left = right) ∧
    ∀ (provider : KemProvider) (key : provider.SecretKey) (data aad context plaintext : Bytes),
      decrypt crypto provider key data aad context = .ok plaintext →
        (∃ nonce, envelopeNonce data = .ok nonce ∧
          ∀ other, decrypt (crypto.underNonce other) provider key data aad context =
            if other = nonce then .ok plaintext else .error ⟨⟩) ∧
        ∃ info, inspect data = .ok info ∧ info.plaintextBytes = plaintext.length ∧
          info.streaming = false := by
  refine ⟨fun data left right first second => ?_, ?_⟩
  · exact Format.lead_injective (first.lead.symm.trans second.lead)
  · intro provider key data aad context plaintext opened
    exact decrypt_reported tagged opened

/-- A one-byte message opens and is reported as one byte. -/
theorem formats_consistent_lone :
    ∃ envelope, decrypt lone (hybridX25519MlKem768Provider lone) loneKey envelope [] [] = .ok [7] ∧
      (∃ nonce, envelopeNonce envelope = .ok nonce) ∧
      ∃ info, inspect envelope = .ok info ∧ info.plaintextBytes = 1 := by
  have tagged : lone.Tagged := by
    intro key nonce ciphertext associated plaintext decrypted
    obtain ⟨-, rfl⟩ := registry_decrypt decrypted
    exact List.length_append
  obtain ⟨envelope, sealed⟩ := lone_sealed
  have opened : decrypt lone (hybridX25519MlKem768Provider lone) loneKey envelope [] [] =
      .ok [7] := by
    unfold decrypt
    rw [if_pos (List.isPrefixOf_iff_prefix.mpr (WireV2.seal_magic sealed))]
    exact WireV2.open_seal lone_lawful (hybridX25519MlKem768Provider_lawful lone_lawful) sealed
  obtain ⟨⟨nonce, read, -⟩, info, inspected, measured, -⟩ :=
    (formats_consistent lone tagged).2 _ loneKey envelope [] [] [7] opened
  exact ⟨envelope, opened, ⟨nonce, read⟩, info, inspected, measured⟩

end Citadel.Envelope
