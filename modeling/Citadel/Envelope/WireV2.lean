import Citadel.Data.Framing
import Citadel.Data.Outcome
import Citadel.Envelope.Wire

/-!
# The version 2 envelope

`seal` encapsulates to the recipient, derives a key from the transcript and
encrypts; `open` strictly parses, rebuilds the same transcript and associated data
and decrypts. Both bind the header without its nonce: the nonce is drawn by the
cipher, after the key exists.
-/

namespace Citadel.Envelope.WireV2

/-- `MAGIC`, the bytes of `CTD2`. -/
def magic : Bytes := [0x43, 0x54, 0x44, 0x32]

def version : UInt8 := 2
def flags : UInt8 := 0
def suiteKdf : UInt8 := 0xC1
def suiteAead : UInt8 := 0xB1
def headerLen : Nat := 98
def tagLen : Nat := 16
def nonceLen : Nat := 12

/-- `HEADER_BOUND_LEN`: the header up to its nonce. -/
def headerBoundLen : Nat := headerLen - nonceLen

/-- `MIN_ENVELOPE_LEN_ANY_SUITE`. -/
def minEnvelopeLenAnySuite : Nat := headerLen + minKemCiphertextBytes + tagLen

def maxPlaintextLen : Nat := 64 * 1024 * 1024
def maxAadLen : Nat := 64 * 1024
def maxContextLen : Nat := 4 * 1024

def kdfLabel : Bytes := utf8 "citadel-envelope-v2/kdf\x00"
def aadLabel : Bytes := utf8 "citadel-envelope-v2/aad\x00"
def extractSaltLabel : Bytes := utf8 "citadel-envelope-v2/extract-salt"

/-- A parsed envelope (`Parts`). -/
structure Parts where
  header : Bytes
  kemCiphertext : Bytes
  nonce : SizedBytes 12
  aeadCiphertext : Bytes
  recipientKeyHash : SizedBytes 32
  plaintextLen : Nat
  suite : SuiteParams

/-- A length as a big-endian integer of `width` bytes, refused when it does not
fit (`push_u16`, `push_u32`). -/
def lengthBytes (width value : Nat) : Except EncodingError Bytes :=
  if value < 256 ^ width then .ok (beBytes width value) else .error ⟨⟩

/-- The header bytes: twelve fields without the nonce, then the nonce. -/
def headerFields (suiteKem : UInt8) (kemCtLen plaintextLen : Nat)
    (recipientHash contextHash : SizedBytes 32) : Bytes :=
  magic ++ [version, flags, suiteKem, suiteKdf, suiteAead, 0] ++ beBytes 2 headerLen ++
    beBytes 2 kemCtLen ++ beBytes 8 plaintextLen ++ recipientHash.1 ++ contextHash.1

/-- The part of a header that the key and the associated data bind. -/
def boundHeader (header : Bytes) : Except EncodingError Bytes :=
  if headerBoundLen ≤ header.length then .ok (header.take headerBoundLen) else .error ⟨⟩

/-- `kdf_transcript`. -/
def kdfTranscript (header kemCt context : Bytes) : Except EncodingError Bytes := do
  let bound ← boundHeader header
  let boundLen ← lengthBytes 2 bound.length
  let kemCtLen ← lengthBytes 2 kemCt.length
  let contextLen ← lengthBytes 4 context.length
  return kdfLabel ++ boundLen ++ bound ++ kemCtLen ++ kemCt ++ contextLen ++ context

/-- `associated_data`. -/
def associatedData (header kemCt context callerAad : Bytes) : Except EncodingError Bytes := do
  let bound ← boundHeader header
  let boundLen ← lengthBytes 2 bound.length
  let kemCtLen ← lengthBytes 2 kemCt.length
  let contextLen ← lengthBytes 4 context.length
  let aadLen ← lengthBytes 4 callerAad.length
  return aadLabel ++ boundLen ++ bound ++ kemCtLen ++ kemCt ++ contextLen ++ context ++
    aadLen ++ callerAad

section Codec

variable (crypto : Crypto) (provider : KemProvider)

/-- `public_key_hash`. -/
def publicKeyHash (key : provider.PublicKey) : SizedBytes 32 :=
  crypto.sha3_256 (provider.publicKeyBytes key)

/-- `context_hash`. -/
def contextHash (context : Bytes) : SizedBytes 32 := crypto.sha3_256 context

/-- `encode_header`: a provider that disagrees with the suite table is refused. -/
def encodeHeader (plaintextLen : Nat) (recipientHash contextHash : SizedBytes 32)
    (nonce : SizedBytes 12) : Except EncodingError Bytes :=
  if maxPlaintextLen < plaintextLen then .error ⟨⟩
  else
    match suiteParams provider.suiteKem with
    | none => .error ⟨⟩
    | some suite =>
        if suite.kemCiphertextBytes ≠ provider.kemCiphertextBytes then .error ⟨⟩
        else if 2 ^ 16 ≤ provider.kemCiphertextBytes then .error ⟨⟩
        else
          .ok (headerFields provider.suiteKem provider.kemCiphertextBytes plaintextLen
            recipientHash contextHash ++ nonce.1)

/-- `derive_key`. -/
def deriveKey (sharedSecret transcript : Bytes) : SizedBytes 32 :=
  crypto.hkdfSha256 (some (crypto.sha256 extractSaltLabel).1) sharedSecret transcript

/-- `encode`. -/
def encode (header kemCt aeadCt : Bytes) : Except EncodingError Bytes :=
  if kemCt.length ≠ provider.kemCiphertextBytes ∨ aeadCt.length < tagLen then .error ⟨⟩
  else .ok (header ++ kemCt ++ aeadCt)

/-- `decode`: strictly parse an envelope of any supported suite. -/
def decode (data : Bytes) : Except DecryptionError Parts :=
  if data.length < minEnvelopeLenAnySuite then .error ⟨⟩
  else
    let header := data.take headerLen
    if header.take 4 ≠ magic ∨ byteAt header 4 ≠ version ∨ byteAt header 5 ≠ flags ∨
        byteAt header 7 ≠ suiteKdf ∨ byteAt header 8 ≠ suiteAead ∨ byteAt header 9 ≠ 0 ∨
        beNat (slice header 10 12) ≠ headerLen then .error ⟨⟩
    else
      match suiteParams (byteAt header 6) with
      | none => .error ⟨⟩
      | some suite =>
          let plaintextLen := beNat (slice header 14 22)
          if beNat (slice header 12 14) ≠ suite.kemCiphertextBytes then .error ⟨⟩
          else if maxPlaintextLen < plaintextLen then .error ⟨⟩
          else if data.length ≠ headerLen + suite.kemCiphertextBytes + tagLen + plaintextLen then
            .error ⟨⟩
          else do
            let kemEnd := headerLen + suite.kemCiphertextBytes
            let nonce ← toSized 12 (slice header 86 98)
            let recipientKeyHash ← toSized 32 (slice header 22 54)
            .ok ⟨header, slice data headerLen kemEnd, nonce, data.drop kemEnd, recipientKeyHash,
              plaintextLen, suite⟩

/-- `seal`. -/
def «seal» (coins : SealCoins provider.Coins) (key : provider.PublicKey)
    (plaintext aad context : Bytes) : Except EncodingError Bytes :=
  if maxPlaintextLen < plaintext.length ∨ maxAadLen < aad.length ∨
      maxContextLen < context.length then .error ⟨⟩
  else do
    let (sharedSecret, kemCt) ← provider.encapsulate coins.encapsulation key
    let header ← encodeHeader provider plaintext.length (publicKeyHash crypto provider key)
      (contextHash crypto context) (SizedBytes.zeros 12)
    let transcript ← kdfTranscript header kemCt context
    let aesKey := deriveKey crypto sharedSecret transcript
    let boundAad ← associatedData header kemCt context aad
    let (nonce, aeadCt) ← aeadSeal crypto coins.nonce aesKey plaintext boundAad
    encode provider (header.take headerBoundLen ++ nonce.1) kemCt aeadCt

/-- `open`. -/
def «open» (key : provider.SecretKey) (ciphertext aad context : Bytes) :
    Except DecryptionError Bytes :=
  if maxAadLen < aad.length ∨ maxContextLen < context.length then .error ⟨⟩
  else do
    let parts ← decode ciphertext
    if parts.suite.suiteKem ≠ provider.suiteKem then .error ⟨⟩
    else
      let suppliedContextHash ← toSized 32 (slice parts.header 54 86)
      if suppliedContextHash ≠ contextHash crypto context then .error ⟨⟩
      else
        let sharedSecret ← provider.decapsulate key parts.kemCiphertext
        let transcript ← (kdfTranscript parts.header parts.kemCiphertext context).mapError
          EncodingError.toDecryptionError
        let aesKey := deriveKey crypto sharedSecret transcript
        let boundAad ← (associatedData parts.header parts.kemCiphertext context aad).mapError
          EncodingError.toDecryptionError
        let plaintext ← aeadOpen crypto aesKey parts.nonce parts.aeadCiphertext boundAad
        if plaintext.length ≠ parts.plaintextLen then .error ⟨⟩
        else
          let expectedRecipient := publicKeyHash crypto provider (provider.publicKeyOf key)
          if parts.recipientKeyHash ≠ expectedRecipient then .error ⟨⟩
          else .ok plaintext

end Codec

/-! ### Decoding what was encoded -/

@[simp] theorem headerFields_length (suiteKem : UInt8) (kemCtLen plaintextLen : Nat)
    (recipientHash contextHash : SizedBytes 32) :
    (headerFields suiteKem kemCtLen plaintextLen recipientHash contextHash).length =
      headerBoundLen := by
  simp [headerFields, magic, headerBoundLen, headerLen, nonceLen]

/-- What the fixed offsets of a well-formed header hold. -/
structure HeaderReads (header : Bytes) (suiteKem : UInt8) (kemCtLen plaintextLen : Nat)
    (recipientHash contextHash : SizedBytes 32) (nonce : SizedBytes 12) : Prop where
  magicField : header.take 4 = magic
  versionField : byteAt header 4 = version
  flagsField : byteAt header 5 = flags
  suiteKemField : byteAt header 6 = suiteKem
  suiteKdfField : byteAt header 7 = suiteKdf
  suiteAeadField : byteAt header 8 = suiteAead
  reservedField : byteAt header 9 = 0
  headerLenField : slice header 10 12 = beBytes 2 headerLen
  kemCtLenField : slice header 12 14 = beBytes 2 kemCtLen
  plaintextLenField : slice header 14 22 = beBytes 8 plaintextLen
  recipientHashField : slice header 22 54 = recipientHash.1
  contextHashField : slice header 54 86 = contextHash.1
  nonceField : slice header 86 98 = nonce.1
  boundField : header.take headerBoundLen =
    headerFields suiteKem kemCtLen plaintextLen recipientHash contextHash
  lengthField : header.length = headerLen

/-- Every field of an encoded header stands at its offset. -/
theorem headerReads (suiteKem : UInt8) (kemCtLen plaintextLen : Nat)
    (recipientHash contextHash : SizedBytes 32) (nonce : SizedBytes 12) :
    HeaderReads (headerFields suiteKem kemCtLen plaintextLen recipientHash contextHash ++ nonce.1)
      suiteKem kemCtLen plaintextLen recipientHash contextHash nonce := by
  have shape : headerFields suiteKem kemCtLen plaintextLen recipientHash contextHash ++ nonce.1 =
      magic ++ ([version, flags, suiteKem, suiteKdf, suiteAead, 0] ++ (beBytes 2 headerLen ++
        (beBytes 2 kemCtLen ++ (beBytes 8 plaintextLen ++ (recipientHash.1 ++
          (contextHash.1 ++ (nonce.1 ++ []))))))) := by
    simp [headerFields]
  have field : ∀ front part back start stop,
      magic ++ ([version, flags, suiteKem, suiteKdf, suiteAead, 0] ++ (beBytes 2 headerLen ++
        (beBytes 2 kemCtLen ++ (beBytes 8 plaintextLen ++ (recipientHash.1 ++
          (contextHash.1 ++ (nonce.1 ++ []))))))) = front ++ (part ++ back) →
      front.length = start → start + part.length = stop →
      slice (headerFields suiteKem kemCtLen plaintextLen recipientHash contextHash ++ nonce.1)
        start stop = part := by
    intro front part back start stop cut starts stops
    rw [shape, cut]
    exact slice_append starts stops
  let fixed : Bytes := magic ++ [version, flags, suiteKem, suiteKdf, suiteAead, 0]
  let lengths : Bytes := fixed ++ beBytes 2 headerLen ++ beBytes 2 kemCtLen
  refine
    { magicField := by rw [shape]; rfl
      versionField := by rw [shape]; rfl
      flagsField := by rw [shape]; rfl
      suiteKemField := by rw [shape]; rfl
      suiteKdfField := by rw [shape]; rfl
      suiteAeadField := by rw [shape]; rfl
      reservedField := by rw [shape]; rfl
      headerLenField := field fixed _
        (beBytes 2 kemCtLen ++ (beBytes 8 plaintextLen ++ (recipientHash.1 ++
          (contextHash.1 ++ (nonce.1 ++ []))))) 10 12 rfl rfl (by simp)
      kemCtLenField := field (fixed ++ beBytes 2 headerLen) _
        (beBytes 8 plaintextLen ++ (recipientHash.1 ++ (contextHash.1 ++ (nonce.1 ++ []))))
        12 14 rfl rfl (by simp)
      plaintextLenField := field lengths _ (recipientHash.1 ++ (contextHash.1 ++ (nonce.1 ++ [])))
        14 22 (by simp [lengths, fixed]) (by simp [lengths, fixed, magic]) (by simp)
      recipientHashField := field (lengths ++ beBytes 8 plaintextLen) _
        (contextHash.1 ++ (nonce.1 ++ [])) 22 54 (by simp [lengths, fixed])
        (by simp [lengths, fixed, magic]) (by simp)
      contextHashField := field (lengths ++ beBytes 8 plaintextLen ++ recipientHash.1) _
        (nonce.1 ++ []) 54 86 (by simp [lengths, fixed])
        (by simp [lengths, fixed, magic]) (by simp)
      nonceField := field (lengths ++ beBytes 8 plaintextLen ++ recipientHash.1 ++ contextHash.1) _ []
        86 98 (by simp [lengths, fixed]) (by simp [lengths, fixed, magic]) (by simp)
      boundField := List.take_left' (headerFields_length _ _ _ _ _)
      lengthField := by simp [headerBoundLen, headerLen, nonceLen] }

/-- Decoding an envelope put together from its parts gives the parts back. -/
theorem decode_append {suiteKem : UInt8} {suite : SuiteParams} {plaintextLen : Nat}
    {recipientHash contextHash : SizedBytes 32} {nonce : SizedBytes 12}
    {header kemCt aeadCt : Bytes} (supported : suiteParams suiteKem = some suite)
    (small : suite.kemCiphertextBytes < 2 ^ 16)
    (reads : HeaderReads header suiteKem suite.kemCiphertextBytes plaintextLen recipientHash
      contextHash nonce)
    (kemLength : kemCt.length = suite.kemCiphertextBytes)
    (bounded : plaintextLen ≤ maxPlaintextLen)
    (aeadLength : aeadCt.length = plaintextLen + tagLen) :
    decode (header ++ kemCt ++ aeadCt) =
      .ok ⟨header, kemCt, nonce, aeadCt, recipientHash, plaintextLen, suite⟩ := by
  have least := minKemCiphertextBytes_le supported
  have limit : maxPlaintextLen < 256 ^ 8 := by decide
  have total : (header ++ kemCt ++ aeadCt).length =
      headerLen + suite.kemCiphertextBytes + tagLen + plaintextLen := by
    rw [List.length_append, List.length_append, reads.lengthField, kemLength, aeadLength]
    omega
  have front : (header ++ kemCt ++ aeadCt).take headerLen = header := by
    rw [List.append_assoc]
    exact List.take_left' reads.lengthField
  have middle : slice (header ++ kemCt ++ aeadCt) headerLen (headerLen + suite.kemCiphertextBytes) =
      kemCt := by
    rw [List.append_assoc]
    exact slice_append reads.lengthField (by rw [kemLength])
  have back : (header ++ kemCt ++ aeadCt).drop (headerLen + suite.kemCiphertextBytes) = aeadCt := by
    refine List.drop_left' ?_
    rw [List.length_append, reads.lengthField, kemLength]
  have kemLen : beNat (beBytes 2 suite.kemCiphertextBytes) = suite.kemCiphertextBytes :=
    beNat_beBytes_of_lt small
  have plainLen : beNat (beBytes 8 plaintextLen) = plaintextLen :=
    beNat_beBytes_of_lt (lt_of_le_of_lt bounded limit)
  have fixedLen : beNat (beBytes 2 headerLen) = headerLen := rfl
  have enough : ¬ (header ++ kemCt ++ aeadCt).length < minEnvelopeLenAnySuite := by
    rw [total, minEnvelopeLenAnySuite]
    omega
  unfold decode
  rw [if_neg enough]
  simp only [front, reads.magicField, reads.versionField, reads.flagsField, reads.suiteKdfField,
    reads.suiteAeadField,
    reads.reservedField, reads.headerLenField, fixedLen, ne_eq, not_true_eq_false, or_self, if_false,
    reads.suiteKemField, supported, reads.kemCtLenField, kemLen, reads.plaintextLenField, plainLen,
    Nat.not_lt.mpr bounded, total, reads.nonceField, reads.recipientHashField, toSized_val, middle, back]
  rfl

/-! ### Transcript and associated data -/

/-- What a header keeps when its nonce is cut off. -/
theorem boundHeader_eq_ok {header bound : Bytes} (cut : boundHeader header = .ok bound) :
    headerBoundLen ≤ header.length ∧ bound = header.take headerBoundLen := by
  unfold boundHeader at cut
  split at cut
  · rename_i long
    exact ⟨long, (Except.ok.inj cut).symm⟩
  · cases cut

/-- A length within its field is written. -/
theorem lengthBytes_of_lt {width value : Nat} (fits : value < 256 ^ width) :
    lengthBytes width value = .ok (beBytes width value) := if_pos fits

/-- A length that was written fits. -/
theorem lengthBytes_eq_ok {width value : Nat} {bytes : Bytes}
    (written : lengthBytes width value = .ok bytes) :
    value < 256 ^ width ∧ bytes = beBytes width value := by
  unfold lengthBytes at written
  split at written
  · rename_i fits
    exact ⟨fits, (Except.ok.inj written).symm⟩
  · cases written

/-- Everything associated data holds: four fields behind the label. -/
theorem associatedData_eq_ok {header kemCt context aad associated : Bytes}
    (bound : associatedData header kemCt context aad = .ok associated) :
    headerBoundLen ≤ header.length ∧ kemCt.length < 256 ^ 2 ∧ context.length < 256 ^ 4 ∧
      aad.length < 256 ^ 4 ∧
      associated = aadLabel ++ (framed 2 (header.take headerBoundLen) ++
        (framed 2 kemCt ++ (framed 4 context ++ framed 4 aad))) := by
  obtain ⟨front, bounded, bound⟩ := Except.of_bind_eq_ok bound
  obtain ⟨boundLen, boundWritten, bound⟩ := Except.of_bind_eq_ok bound
  obtain ⟨kemCtLen, kemCtWritten, bound⟩ := Except.of_bind_eq_ok bound
  obtain ⟨contextLen, contextWritten, bound⟩ := Except.of_bind_eq_ok bound
  obtain ⟨aadLen, aadWritten, bound⟩ := Except.of_bind_eq_ok bound
  obtain ⟨long, rfl⟩ := boundHeader_eq_ok bounded
  obtain ⟨-, rfl⟩ := lengthBytes_eq_ok boundWritten
  obtain ⟨kemFits, rfl⟩ := lengthBytes_eq_ok kemCtWritten
  obtain ⟨contextFits, rfl⟩ := lengthBytes_eq_ok contextWritten
  obtain ⟨aadFits, rfl⟩ := lengthBytes_eq_ok aadWritten
  refine ⟨long, kemFits, contextFits, aadFits, ?_⟩
  cases bound
  simp [framed]

/-- Associated data can be written for every input within the limits. -/
theorem associatedData_of_fits {header kemCt context aad : Bytes}
    (long : headerBoundLen ≤ header.length) (kemFits : kemCt.length < 256 ^ 2)
    (contextFits : context.length < 256 ^ 4) (aadFits : aad.length < 256 ^ 4) :
    ∃ associated, associatedData header kemCt context aad = .ok associated := by
  have boundLength : (header.take headerBoundLen).length < 256 ^ 2 := by
    rw [List.length_take, Nat.min_eq_left long]
    decide
  simp only [associatedData, boundHeader, if_pos long, bind, Except.bind,
    lengthBytes_of_lt boundLength, lengthBytes_of_lt kemFits, lengthBytes_of_lt contextFits,
    lengthBytes_of_lt aadFits]
  exact ⟨_, rfl⟩

/-- A transcript can be written for every input within the limits. -/
theorem kdfTranscript_of_fits {header kemCt context : Bytes}
    (long : headerBoundLen ≤ header.length) (kemFits : kemCt.length < 256 ^ 2)
    (contextFits : context.length < 256 ^ 4) :
    ∃ transcript, kdfTranscript header kemCt context = .ok transcript := by
  have boundLength : (header.take headerBoundLen).length < 256 ^ 2 := by
    rw [List.length_take, Nat.min_eq_left long]
    decide
  simp only [kdfTranscript, boundHeader, if_pos long, bind, Except.bind,
    lengthBytes_of_lt boundLength, lengthBytes_of_lt kemFits, lengthBytes_of_lt contextFits]
  exact ⟨_, rfl⟩

/-- The bound header, the KEM ciphertext, the context and the caller's data are determined
by the associated data: no two fields can trade bytes. -/
theorem associatedData_inj {header header' kemCt kemCt' context context' aad aad' : Bytes}
    {associated : Bytes} (left : associatedData header kemCt context aad = .ok associated)
    (right : associatedData header' kemCt' context' aad' = .ok associated) :
    header.take headerBoundLen = header'.take headerBoundLen ∧ kemCt = kemCt' ∧
      context = context' ∧ aad = aad' := by
  obtain ⟨long, kemFits, contextFits, aadFits, rfl⟩ := associatedData_eq_ok left
  obtain ⟨long', kemFits', contextFits', aadFits', same⟩ := associatedData_eq_ok right
  have boundFits : ∀ {bytes : Bytes}, headerBoundLen ≤ bytes.length →
      (bytes.take headerBoundLen).length < 256 ^ 2 := by
    intro bytes enough
    rw [List.length_take, Nat.min_eq_left enough]
    decide
  have fields := List.append_cancel_left same
  obtain ⟨headers, fields⟩ := framed_append_inj (boundFits long) (boundFits long') fields
  obtain ⟨kemCts, fields⟩ := framed_append_inj kemFits kemFits' fields
  obtain ⟨contexts, fields⟩ := framed_append_inj contextFits contextFits' fields
  have last : framed 4 aad ++ [] = framed 4 aad' ++ [] := by rw [fields]
  obtain ⟨aads, -⟩ := framed_append_inj aadFits aadFits' last
  exact ⟨headers, kemCts, contexts, aads⟩

/-! ### Opening what was sealed -/

section RoundTrip

variable {crypto : Crypto} {provider : KemProvider}

/-- The transcript does not depend on the nonce of the header. -/
theorem kdfTranscript_congr {left right kemCt context : Bytes}
    (same : left.take headerBoundLen = right.take headerBoundLen)
    (lengths : left.length = right.length) :
    kdfTranscript left kemCt context = kdfTranscript right kemCt context := by
  simp only [kdfTranscript, boundHeader, same, lengths]

/-- The associated data does not depend on the nonce of the header. -/
theorem associatedData_congr {left right kemCt context aad : Bytes}
    (same : left.take headerBoundLen = right.take headerBoundLen)
    (lengths : left.length = right.length) :
    associatedData left kemCt context aad = associatedData right kemCt context aad := by
  simp only [associatedData, boundHeader, same, lengths]

/-- A header that was encoded holds the fields of its suite. -/
theorem encodeHeader_eq_ok {plaintextLen : Nat} {recipientHash contextHash : SizedBytes 32}
    {nonce : SizedBytes 12} {header : Bytes}
    (encoded : encodeHeader provider plaintextLen recipientHash contextHash nonce = .ok header) :
    (∃ suite, suiteParams provider.suiteKem = some suite ∧
      suite.kemCiphertextBytes = provider.kemCiphertextBytes ∧
      provider.kemCiphertextBytes < 2 ^ 16) ∧
    header = headerFields provider.suiteKem provider.kemCiphertextBytes plaintextLen recipientHash
      contextHash ++ nonce.1 := by
  obtain ⟨-, encoded⟩ := Except.of_guard_eq_ok encoded
  split at encoded
  · cases encoded
  · rename_i suite supported
    obtain ⟨agrees, encoded⟩ := Except.of_guard_eq_ok encoded
    obtain ⟨small, encoded⟩ := Except.of_guard_eq_ok encoded
    exact ⟨⟨suite, supported, not_not.mp agrees, Nat.not_le.mp small⟩,
      (Except.ok.inj encoded).symm⟩

/-- The header that carries the drawn nonce binds what the draft bound. -/
theorem patched_header {draft : Bytes} (nonce : SizedBytes 12) (long : draft.length = headerLen) :
    draft.take headerBoundLen = (draft.take headerBoundLen ++ nonce.1).take headerBoundLen ∧
      draft.length = (draft.take headerBoundLen ++ nonce.1).length := by
  have bound : (draft.take headerBoundLen).length = headerBoundLen := by
    rw [List.length_take, long]
    rfl
  constructor
  · rw [List.take_left' bound]
  · rw [List.length_append, bound, nonce.2, long]
    rfl

/-- Everything a successful `seal` did: the final header carries the drawn nonce,
and key and associated data are those of that header. -/
theorem seal_eq_ok {coins : SealCoins provider.Coins} {key : provider.PublicKey}
    {plaintext aad context envelope : Bytes}
    (sealed : WireV2.seal crypto provider coins key plaintext aad context = .ok envelope) :
    ∃ suite secret kemCt header nonce aeadCt transcript boundAad,
      (plaintext.length ≤ maxPlaintextLen ∧ aad.length ≤ maxAadLen ∧
        context.length ≤ maxContextLen) ∧
      (suiteParams provider.suiteKem = some suite ∧
        suite.kemCiphertextBytes = provider.kemCiphertextBytes ∧
        provider.kemCiphertextBytes < 2 ^ 16) ∧
      provider.encapsulate coins.encapsulation key = .ok (secret, kemCt) ∧
      HeaderReads header provider.suiteKem provider.kemCiphertextBytes plaintext.length
        (publicKeyHash crypto provider key) (contextHash crypto context) nonce ∧
      kdfTranscript header kemCt context = .ok transcript ∧
      associatedData header kemCt context aad = .ok boundAad ∧
      crypto.aesGcmEncrypt (deriveKey crypto secret transcript) nonce plaintext boundAad =
        some aeadCt ∧
      envelope = header ++ kemCt ++ aeadCt := by
  obtain ⟨sizes, sealed⟩ := Except.of_guard_eq_ok sealed
  obtain ⟨⟨secret, kemCt⟩, encapsulated, sealed⟩ := Except.of_bind_eq_ok sealed
  obtain ⟨draft, encoded, sealed⟩ := Except.of_bind_eq_ok sealed
  obtain ⟨transcript, transcribed, sealed⟩ := Except.of_bind_eq_ok sealed
  obtain ⟨boundAad, associated, sealed⟩ := Except.of_bind_eq_ok sealed
  obtain ⟨⟨nonce, aeadCt⟩, encrypted, sealed⟩ := Except.of_bind_eq_ok sealed
  obtain ⟨-, sealed⟩ := Except.of_guard_eq_ok sealed
  obtain ⟨-, ciphertext⟩ := aeadSeal_eq_ok encrypted
  obtain ⟨⟨suite, supported, agrees, small⟩, draftFields⟩ := encodeHeader_eq_ok encoded
  -- the draft header holds a zero nonce; the final one keeps its bound part
  have draftReads := headerReads provider.suiteKem provider.kemCiphertextBytes plaintext.length
    (publicKeyHash crypto provider key) (contextHash crypto context) (SizedBytes.zeros 12)
  rw [← draftFields] at draftReads
  have reads := headerReads provider.suiteKem provider.kemCiphertextBytes plaintext.length
    (publicKeyHash crypto provider key) (contextHash crypto context) nonce
  rw [← draftReads.boundField] at reads
  obtain ⟨same, lengths⟩ := patched_header nonce draftReads.lengthField
  refine ⟨suite, secret, kemCt, draft.take headerBoundLen ++ nonce.1, nonce, aeadCt, transcript,
    boundAad, ?_, ⟨supported, agrees, small⟩, encapsulated, reads, ?_, ?_, ciphertext,
    (Except.ok.inj sealed).symm⟩
  · omega
  · rw [← kdfTranscript_congr same lengths]
    exact transcribed
  · rw [← associatedData_congr same lengths]
    exact associated

/-- Opening undoes sealing, for a provider and a cipher that are correct. -/
theorem open_seal (lawful : crypto.Lawful) (suite : provider.Lawful)
    {coins : SealCoins provider.Coins} {secretKey : provider.SecretKey}
    {plaintext aad context envelope : Bytes}
    (sealed : WireV2.seal crypto provider coins (provider.publicKeyOf secretKey) plaintext aad
      context = .ok envelope) :
    WireV2.open crypto provider secretKey envelope aad context = .ok plaintext := by
  obtain ⟨row, secret, kemCt, header, nonce, aeadCt, transcript, boundAad,
    ⟨plaintextBound, aadBound, contextBound⟩, ⟨supported, agrees, small⟩, encapsulated, reads,
    transcribed, associated, encrypted, rfl⟩ := seal_eq_ok sealed
  have kemLength := suite.encapsulate_length _ _ _ _ encapsulated
  have aeadLength := lawful.aesGcmEncrypt_length _ _ _ _ _ encrypted
  rw [← agrees] at reads small kemLength
  have decoded := decode_append supported small reads kemLength plaintextBound aeadLength
  have decapsulated := suite.decapsulate_encapsulate _ _ _ _ encapsulated
  have decrypted := lawful.aesGcmDecrypt_encrypt _ _ _ _ _ encrypted
  have identifier := suiteParams_suiteKem supported
  have sizes : ¬ (maxAadLen < aad.length ∨ maxContextLen < context.length) := by omega
  simp only [WireV2.open, if_neg sizes, decoded, bind, Except.bind, identifier, ne_eq,
    not_true_eq_false, if_false, reads.contextHashField, toSized_val, decapsulated, transcribed,
    associated, Except.mapError_ok, aeadOpen, decrypted]

/-- An envelope starts with the magic bytes of its version. -/
theorem seal_magic {coins : SealCoins provider.Coins} {key : provider.PublicKey}
    {plaintext aad context envelope : Bytes}
    (sealed : WireV2.seal crypto provider coins key plaintext aad context = .ok envelope) :
    magic <+: envelope := by
  obtain ⟨_, _, kemCt, header, _, aeadCt, _, _, -, -, -, reads, -, -, -, rfl⟩ := seal_eq_ok sealed
  rw [← reads.magicField, List.append_assoc]
  exact (List.take_prefix 4 header).trans (List.prefix_append header (kemCt ++ aeadCt))

/-- What decoding a sealed envelope finds. -/
theorem decode_seal (lawful : crypto.Lawful) (suite : provider.Lawful)
    {coins : SealCoins provider.Coins} {key : provider.PublicKey}
    {plaintext aad context envelope : Bytes}
    (sealed : WireV2.seal crypto provider coins key plaintext aad context = .ok envelope) :
    ∃ parts, decode envelope = .ok parts ∧ tagLen ≤ envelope.length := by
  obtain ⟨row, secret, kemCt, header, nonce, aeadCt, transcript, boundAad,
    ⟨plaintextBound, -, -⟩, ⟨supported, agrees, small⟩, encapsulated, reads, -, -, encrypted, rfl⟩ :=
      seal_eq_ok sealed
  have kemLength := suite.encapsulate_length _ _ _ _ encapsulated
  have aeadLength := lawful.aesGcmEncrypt_length _ _ _ _ _ encrypted
  rw [← agrees] at reads small kemLength
  refine ⟨_, decode_append supported small reads kemLength plaintextBound aeadLength, ?_⟩
  rw [List.length_append, aeadLength, tagLen]
  omega

/-- The header `seal` starts from: the nonce is not drawn yet. -/
def draftHeader (crypto : Crypto) (provider : KemProvider) (key : provider.PublicKey)
    (plaintext context : Bytes) : Bytes :=
  headerFields provider.suiteKem provider.kemCiphertextBytes plaintext.length
    (publicKeyHash crypto provider key) (contextHash crypto context) ++ (SizedBytes.zeros 12).1

/-- The draft has the length of a header. -/
theorem draftHeader_length (key : provider.PublicKey) (plaintext context : Bytes) :
    (draftHeader crypto provider key plaintext context).length = headerLen :=
  (headerReads _ _ _ _ _ _).lengthField

/-- Data within the limits is sealed whenever the encapsulation succeeds, a nonce is drawn
and the cipher takes the message. -/
theorem seal_succeeds (lawful : crypto.Lawful) (correct : provider.Lawful) {row : SuiteParams}
    (supported : suiteParams provider.suiteKem = some row)
    (agrees : row.kemCiphertextBytes = provider.kemCiphertextBytes)
    (small : provider.kemCiphertextBytes < 2 ^ 16) {coins : SealCoins provider.Coins}
    {key : provider.PublicKey} {plaintext aad context secret kemCt : Bytes}
    {nonce : SizedBytes 12} (plaintextFits : plaintext.length ≤ maxPlaintextLen)
    (aadFits : aad.length ≤ maxAadLen) (contextFits : context.length ≤ maxContextLen)
    (encapsulated : provider.encapsulate coins.encapsulation key = .ok (secret, kemCt))
    (drawn : coins.nonce = some nonce)
    (encrypts : ∀ transcript associated,
      associatedData (draftHeader crypto provider key plaintext context) kemCt context aad =
        .ok associated →
      ∃ ciphertext, crypto.aesGcmEncrypt (deriveKey crypto secret transcript) nonce plaintext
        associated = some ciphertext) :
    ∃ envelope, WireV2.seal crypto provider coins key plaintext aad context = .ok envelope := by
  have kemLength := correct.encapsulate_length _ _ _ _ encapsulated
  have kemFits : kemCt.length < 256 ^ 2 := by omega
  have contextSmall : context.length < 256 ^ 4 := lt_of_le_of_lt contextFits (by decide)
  have aadSmall : aad.length < 256 ^ 4 := lt_of_le_of_lt aadFits (by decide)
  have sizes : ¬ (maxPlaintextLen < plaintext.length ∨ maxAadLen < aad.length ∨
      maxContextLen < context.length) := by omega
  have encoded : encodeHeader provider plaintext.length (publicKeyHash crypto provider key)
      (contextHash crypto context) (SizedBytes.zeros 12) =
        .ok (draftHeader crypto provider key plaintext context) := by
    simp only [encodeHeader, if_neg (Nat.not_lt.mpr plaintextFits), supported, agrees, ne_eq,
      not_true_eq_false, if_false, if_neg (Nat.not_le.mpr small), draftHeader]
  have long : headerBoundLen ≤ (draftHeader crypto provider key plaintext context).length := by
    rw [draftHeader_length]
    decide
  obtain ⟨transcript, transcribed⟩ := kdfTranscript_of_fits long kemFits contextSmall
  obtain ⟨associated, bound⟩ := associatedData_of_fits long kemFits contextSmall aadSmall
  obtain ⟨ciphertext, encrypted⟩ := encrypts transcript associated bound
  have ciphertextLength := lawful.aesGcmEncrypt_length _ _ _ _ _ encrypted
  have room : ¬ (kemCt.length ≠ provider.kemCiphertextBytes ∨ ciphertext.length < tagLen) := by
    rw [kemLength, ciphertextLength, tagLen]
    omega
  refine ⟨(draftHeader crypto provider key plaintext context).take headerBoundLen ++ nonce.1 ++
    kemCt ++ ciphertext, ?_⟩
  simp only [WireV2.seal, if_neg sizes, bind, Except.bind, encapsulated, encoded, transcribed,
    bound, aeadSeal, drawn, encrypted, encode, if_neg room]

end RoundTrip

end Citadel.Envelope.WireV2
