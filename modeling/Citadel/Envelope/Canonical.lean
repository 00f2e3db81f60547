import Citadel.Envelope.Binding
import Citadel.Envelope.Legacy
import Citadel.Program.Basic

/-!
# Canonical envelopes

The strict decoder of version 2 accepts what the encoder writes and nothing else, so an
envelope has one encoding. The decoder indexes and slices its input; here every index is
checked, and none of them ever fails.
-/

namespace Citadel.Envelope.WireV2

/-! ### Every index in range -/

/-- `data[index]`. -/
def index (data : Bytes) (position : Nat) : Except Abort UInt8 :=
  match data[position]? with
  | some byte => .ok byte
  | none => .error (.panic "index out of bounds")

/-- `data[start..stop]`. -/
def range (data : Bytes) (start stop : Nat) : Except Abort Bytes :=
  if start ≤ stop ∧ stop ≤ data.length then .ok (slice data start stop)
  else .error (.panic "range out of bounds")

/-- `data[start..]`. -/
def rangeFrom (data : Bytes) (start : Nat) : Except Abort Bytes :=
  if start ≤ data.length then .ok (data.drop start)
  else .error (.panic "range out of bounds")

theorem index_of_lt {data : Bytes} {position : Nat} (inside : position < data.length) :
    index data position = .ok (byteAt data position) := by
  rw [index, List.getElem?_eq_getElem inside, byteAt, List.getD_eq_getElem?_getD,
    List.getElem?_eq_getElem inside, Option.getD_some]

theorem range_of_le {data : Bytes} {start stop : Nat} (ordered : start ≤ stop)
    (inside : stop ≤ data.length) : range data start stop = .ok (slice data start stop) :=
  if_pos ⟨ordered, inside⟩

theorem rangeFrom_of_le {data : Bytes} {start : Nat} (inside : start ≤ data.length) :
    rangeFrom data start = .ok (data.drop start) :=
  if_pos inside

/-- `decode`, with a panic for every index that is out of range. -/
def decodeIndexed (data : Bytes) : Except Abort (Except DecryptionError Parts) := do
  if data.length < minEnvelopeLenAnySuite then return .error ⟨⟩
  -- `data.get(..HEADER_LEN).ok_or(DecryptionError)`
  if data.length < headerLen then return .error ⟨⟩
  let header := data.take headerLen
  if (← range header 0 4) ≠ magic then return .error ⟨⟩
  if (← index header 4) ≠ version then return .error ⟨⟩
  if (← index header 5) ≠ flags then return .error ⟨⟩
  if (← index header 7) ≠ suiteKdf then return .error ⟨⟩
  if (← index header 8) ≠ suiteAead then return .error ⟨⟩
  if (← index header 9) ≠ 0 then return .error ⟨⟩
  if beNat [← index header 10, ← index header 11] ≠ headerLen then return .error ⟨⟩
  match suiteParams (← index header 6) with
  | none => return .error ⟨⟩
  | some suite =>
      if beNat [← index header 12, ← index header 13] ≠ suite.kemCiphertextBytes then
        return .error ⟨⟩
      match toSized 8 (← range header 14 22) with
      | .error error => return .error error
      | .ok encodedLen =>
          let plaintextLen := beNat encodedLen.1
          if maxPlaintextLen < plaintextLen then return .error ⟨⟩
          if data.length ≠ headerLen + suite.kemCiphertextBytes + tagLen + plaintextLen then
            return .error ⟨⟩
          let kemEnd := headerLen + suite.kemCiphertextBytes
          match toSized 12 (← range header 86 98) with
          | .error error => return .error error
          | .ok nonce =>
              match toSized 32 (← range header 22 54) with
              | .error error => return .error error
              | .ok recipientKeyHash =>
                  let kemCiphertext ← range data headerLen kemEnd
                  let aeadCiphertext ← rangeFrom data kemEnd
                  return .ok ⟨header, kemCiphertext, nonce, aeadCiphertext, recipientKeyHash,
                    plaintextLen, suite⟩

/-- A slice is its first byte and the rest. -/
theorem slice_cons {data : Bytes} {start stop : Nat} (nonempty : start < stop)
    (inside : start < data.length) :
    slice data start stop = byteAt data start :: slice data (start + 1) stop := by
  have first : data.drop start = byteAt data start :: data.drop (start + 1) := by
    rw [List.drop_eq_getElem_cons inside, byteAt, List.getD_eq_getElem?_getD,
      List.getElem?_eq_getElem inside, Option.getD_some]
  have size : stop - start = (stop - (start + 1)) + 1 := by omega
  rw [slice, first, size, List.take_succ_cons, slice]

theorem slice_self (data : Bytes) (start : Nat) : slice data start start = [] := by
  rw [slice, Nat.sub_self, List.take_zero]

/-- Two bytes of a string are its slice. -/
theorem slice_two {data : Bytes} {position : Nat} (inside : position + 2 ≤ data.length) :
    slice data position (position + 2) = [byteAt data position, byteAt data (position + 1)] := by
  rw [slice_cons (by omega) (by omega), slice_cons (by omega) (by omega), slice_self]

theorem toSized_of_length {count : Nat} {bytes : Bytes} (exact : bytes.length = count) :
    toSized count bytes = .ok ⟨bytes, exact⟩ := dif_pos exact

theorem slice_length {data : Bytes} {start stop : Nat} (inside : stop ≤ data.length) :
    (slice data start stop).length = stop - start := by
  rw [slice, List.length_take, List.length_drop]
  omega

/-- No index is out of range. -/
theorem decodeIndexed_eq (data : Bytes) : decodeIndexed data = .ok (decode data) := by
  by_cases short : data.length < minEnvelopeLenAnySuite
  · rw [decodeIndexed, decode, if_pos short, if_pos short]
    rfl
  have enough : headerLen + tagLen ≤ data.length := by
    rw [minEnvelopeLenAnySuite] at short
    omega
  have headerLength : (data.take headerLen).length = 98 := by
    rw [List.length_take, headerLen]
    exact Nat.min_eq_left (le_trans (by decide) enough)
  rw [decodeIndexed, decode, if_neg short, if_neg short,
    if_neg (show ¬ data.length < headerLen by omega)]
  generalize data.take headerLen = header at headerLength
  have byteRead : ∀ position, position < 98 →
      index header position = .ok (byteAt header position) :=
    fun position inside => index_of_lt (inside.trans_eq headerLength.symm)
  have fieldRead : ∀ start stop, start ≤ stop → stop ≤ 98 →
      range header start stop = .ok (slice header start stop) :=
    fun start stop ordered inside => range_of_le ordered (inside.trans_eq headerLength.symm)
  have pair : ∀ position, position + 2 ≤ 98 →
      [byteAt header position, byteAt header (position + 1)] = slice header position (position + 2) :=
    fun position inside => (slice_two (inside.trans_eq headerLength.symm)).symm
  have magicRead : range header 0 4 = .ok (header.take 4) :=
    fieldRead 0 4 (by decide) (by decide)
  simp only [magicRead, byteRead 4 (by decide), byteRead 5 (by decide), byteRead 6 (by decide),
    byteRead 7 (by decide), byteRead 8 (by decide), byteRead 9 (by decide),
    byteRead 10 (by decide), byteRead 11 (by decide), pair 10 (by decide), bind, Except.bind, pure,
    Except.pure, ite_or, apply_ite Except.ok]
  cases suiteParams (byteAt header 6) with
  | none => rfl
  | some suite =>
      have sized : ∀ start stop, stop ≤ 98 → (slice header start stop).length = stop - start :=
        fun start stop inside => slice_length (inside.trans_eq headerLength.symm)
      simp only [byteRead 12 (by decide), byteRead 13 (by decide), pair 12 (by decide),
        fieldRead 14 22 (by decide) (by decide), fieldRead 22 54 (by decide) (by decide),
        fieldRead 86 98 (by decide) (by decide), toSized_of_length (sized 14 22 (by decide)),
        toSized_of_length (sized 22 54 (by decide)), toSized_of_length (sized 86 98 (by decide))]
      by_cases total : data.length =
          headerLen + suite.kemCiphertextBytes + tagLen + beNat (slice header 14 22)
      · -- the exact length is what makes the two slices of the input safe
        have kemRead : range data headerLen (headerLen + suite.kemCiphertextBytes) =
            .ok (slice data headerLen (headerLen + suite.kemCiphertextBytes)) :=
          range_of_le (by omega) (by omega)
        have restRead : rangeFrom data (headerLen + suite.kemCiphertextBytes) =
            .ok (data.drop (headerLen + suite.kemCiphertextBytes)) := rangeFrom_of_le (by omega)
        simp only [kemRead, restRead, apply_ite Except.ok]
      · simp only [if_pos total, apply_ite Except.ok]

/-! ### One encoding -/

/-- The bytes of a header, field by field. -/
theorem header_eq_fields {header : Bytes} {kemCtLen plaintextLen : Nat}
    {recipientHash contextHash : SizedBytes 32} {nonce : SizedBytes 12}
    (size : header.length = headerLen) (magicField : header.take 4 = magic)
    (versionField : byteAt header 4 = version) (flagsField : byteAt header 5 = flags)
    (suiteKdfField : byteAt header 7 = suiteKdf) (suiteAeadField : byteAt header 8 = suiteAead)
    (reservedField : byteAt header 9 = 0) (headerLenField : beNat (slice header 10 12) = headerLen)
    (kemCtLenField : beNat (slice header 12 14) = kemCtLen)
    (plaintextLenField : beNat (slice header 14 22) = plaintextLen)
    (recipientHashField : slice header 22 54 = recipientHash.1)
    (contextHashField : slice header 54 86 = contextHash.1)
    (nonceField : slice header 86 98 = nonce.1) :
    header = headerFields (byteAt header 6) kemCtLen plaintextLen recipientHash contextHash ++
      nonce.1 := by
  have written : ∀ start stop value, stop ≤ 98 → beNat (slice header start stop) = value →
      slice header start stop = beBytes (stop - start) value := by
    intro start stop value inside read
    have length : (slice header start stop).length = stop - start :=
      slice_length (inside.trans_eq size.symm)
    rw [← read, ← length, beBytes_beNat]
  have fixed : slice header 4 10 =
      [version, flags, byteAt header 6, suiteKdf, suiteAead, 0] := by
    have long : header.length = 98 := size
    rw [slice_cons (by decide) (by omega), slice_cons (by decide) (by omega),
      slice_cons (by decide) (by omega), slice_cons (by decide) (by omega),
      slice_cons (by decide) (by omega), slice_cons (by decide) (by omega), slice_self,
      versionField, flagsField, suiteKdfField, suiteAeadField, reservedField]
  have rest : header.drop 98 = [] := List.drop_eq_nil_of_le size.le
  calc header = header.take 4 ++ header.drop 4 := (List.take_append_drop 4 header).symm
    _ = header.take 4 ++ (slice header 4 10 ++ (slice header 10 12 ++ (slice header 12 14 ++
          (slice header 14 22 ++ (slice header 22 54 ++ (slice header 54 86 ++
            (slice header 86 98 ++ []))))))) := by
        rw [drop_eq_slice_append header (show 4 ≤ 10 by decide),
          drop_eq_slice_append header (show 10 ≤ 12 by decide),
          drop_eq_slice_append header (show 12 ≤ 14 by decide),
          drop_eq_slice_append header (show 14 ≤ 22 by decide),
          drop_eq_slice_append header (show 22 ≤ 54 by decide),
          drop_eq_slice_append header (show 54 ≤ 86 by decide),
          drop_eq_slice_append header (show 86 ≤ 98 by decide), rest]
    _ = headerFields (byteAt header 6) kemCtLen plaintextLen recipientHash contextHash ++
          nonce.1 := by
        rw [magicField, fixed, written 10 12 _ (by decide) headerLenField,
          written 12 14 _ (by decide) kemCtLenField, written 14 22 _ (by decide) plaintextLenField,
          recipientHashField, contextHashField, nonceField, headerFields]
        simp only [List.append_assoc, List.append_nil]

/-- What the decoder accepts is what the encoder of its suite writes. -/
structure Canonical (data : Bytes) (parts : Parts) (contextHash : SizedBytes 32) : Prop where
  supported : suiteParams parts.suite.suiteKem = some parts.suite
  bounded : parts.plaintextLen ≤ maxPlaintextLen
  header : parts.header = headerFields parts.suite.suiteKem parts.suite.kemCiphertextBytes
    parts.plaintextLen parts.recipientKeyHash contextHash ++ parts.nonce.1
  kemLength : parts.kemCiphertext.length = parts.suite.kemCiphertextBytes
  aeadLength : parts.aeadCiphertext.length = parts.plaintextLen + tagLen
  whole : data = parts.header ++ parts.kemCiphertext ++ parts.aeadCiphertext

theorem decode_canonical {data : Bytes} {parts : Parts} (decoded : decode data = .ok parts) :
    ∃ contextHash, Canonical data parts contextHash := by
  have parsed := decode_eq_ok decoded
  obtain ⟨long, decoded⟩ := Except.of_guard_eq_ok decoded
  obtain ⟨fields, decoded⟩ := Except.of_guard_eq_ok decoded
  simp only [not_or, not_not] at fields
  obtain ⟨magicField, versionField, flagsField, suiteKdfField, suiteAeadField, reservedField,
    headerLenField⟩ := fields
  split at decoded
  · cases decoded
  · rename_i suite supported
    obtain ⟨kemCtLenField, decoded⟩ := Except.of_guard_eq_ok decoded
    obtain ⟨bounded, decoded⟩ := Except.of_guard_eq_ok decoded
    obtain ⟨total, decoded⟩ := Except.of_guard_eq_ok decoded
    obtain ⟨nonce, nonceRead, decoded⟩ := Except.of_bind_eq_ok decoded
    obtain ⟨recipient, recipientRead, decoded⟩ := Except.of_bind_eq_ok decoded
    cases decoded
    have identifier := suiteParams_suiteKem supported
    have size : (data.take headerLen).length = headerLen := parsed.headerLength
    have context : (slice (data.take headerLen) 54 86).length = 32 :=
      slice_length (le_of_le_of_eq (by decide) size.symm)
    refine ⟨⟨slice (data.take headerLen) 54 86, context⟩, ?_⟩
    have header := header_eq_fields size magicField versionField flagsField suiteKdfField
      suiteAeadField reservedField headerLenField (not_not.mp kemCtLenField) rfl
      (toSized_eq_ok recipientRead)
      (show slice (data.take headerLen) 54 86 = (⟨_, context⟩ : SizedBytes 32).1 from rfl)
      (toSized_eq_ok nonceRead)
    have exact := not_not.mp total
    refine ⟨?_, not_lt.mp bounded, ?_, ?_, ?_, parsed.whole⟩
    · rw [identifier]
      exact supported
    · rw [identifier]
      exact header
    · change (slice data _ _).length = _
      rw [slice_length (by omega), Nat.add_sub_cancel_left]
    · change (data.drop _).length = beNat (slice (data.take headerLen) 14 22) + tagLen
      rw [List.length_drop, exact]
      omega

variable (crypto : Crypto) (nist : NistCrypto)

/-- Whatever the encoder of any provider writes within the limits is decoded. -/
theorem decode_encode {provider : KemProvider} {plaintextLen : Nat}
    {recipientHash contextHash : SizedBytes 32} {nonce : SizedBytes 12}
    {header kemCt aeadCt data : Bytes}
    (encoded : encodeHeader provider plaintextLen recipientHash contextHash nonce = .ok header)
    (bounded : plaintextLen ≤ maxPlaintextLen) (aeadLength : aeadCt.length = plaintextLen + tagLen)
    (assembled : encode provider header kemCt aeadCt = .ok data) :
    ∃ parts, decode data = .ok parts := by
  obtain ⟨⟨suite, supported, agrees, small⟩, rfl⟩ := encodeHeader_eq_ok encoded
  obtain ⟨lengths, assembled⟩ := Except.of_guard_eq_ok assembled
  cases assembled
  obtain ⟨kemLength, -⟩ := not_or.mp lengths
  rw [← agrees] at small kemLength ⊢
  exact ⟨_, decode_append supported small (headerReads _ _ _ _ _ _) (not_not.mp kemLength) bounded
    aeadLength⟩

/-- A canonical envelope is written by the encoder of its suite. -/
theorem Canonical.encodes {data : Bytes} {parts : Parts} {contextHash : SizedBytes 32}
    (canonical : Canonical data parts contextHash) :
    ∃ suite : Suite, (suite.provider crypto nist).suiteKem = parts.suite.suiteKem ∧
      (suite.provider crypto nist).kemCiphertextBytes = parts.suite.kemCiphertextBytes ∧
      encodeHeader (suite.provider crypto nist) parts.plaintextLen parts.recipientKeyHash
        contextHash parts.nonce = .ok parts.header ∧
      encode (suite.provider crypto nist) parts.header parts.kemCiphertext
        parts.aeadCiphertext = .ok data := by
  have present : (suiteParams parts.suite.suiteKem).isSome := by rw [canonical.supported]; rfl
  obtain ⟨suite, identifier⟩ := Suite.supported_iff.mp present
  obtain ⟨row, found, agrees, small⟩ := suite.row crypto nist
  have same : some row = some parts.suite := by
    rw [← found, identifier, canonical.supported]
  cases same
  have fits : ¬ 2 ^ 16 ≤ (suite.provider crypto nist).kemCiphertextBytes := by omega
  refine ⟨suite, identifier, agrees.symm, ?_, ?_⟩
  · rw [encodeHeader, if_neg (not_lt.mpr canonical.bounded), found]
    simp only [agrees, ne_eq, not_true_eq_false, if_false, if_neg fits, canonical.header]
    rw [identifier]
  · have lengths : ¬ (parts.kemCiphertext.length ≠
        (suite.provider crypto nist).kemCiphertextBytes ∨ parts.aeadCiphertext.length < tagLen) := by
      have kemLength := canonical.kemLength
      have aeadLength := canonical.aeadLength
      omega
    rw [encode, if_neg lengths, canonical.whole]

/-- The decoder accepts exactly what the encoder of a supported suite writes within the
limits; the parts it returns are written back to the same bytes; no index is out of range. -/
theorem envelopes_are_canonical :
    (∀ data, (∃ parts, decode data = .ok parts) ↔
      ∃ (suite : Suite) (plaintextLen : Nat) (recipientHash contextHash : SizedBytes 32)
        (nonce : SizedBytes 12) (header kemCt aeadCt : Bytes),
        plaintextLen ≤ maxPlaintextLen ∧
        kemCt.length = (suite.provider crypto nist).kemCiphertextBytes ∧
        aeadCt.length = plaintextLen + tagLen ∧
        encodeHeader (suite.provider crypto nist) plaintextLen recipientHash contextHash nonce =
          .ok header ∧
        encode (suite.provider crypto nist) header kemCt aeadCt = .ok data) ∧
    (∀ data parts, decode data = .ok parts → ∃ (suite : Suite) (contextHash : SizedBytes 32),
      (suite.provider crypto nist).suiteKem = parts.suite.suiteKem ∧
      encodeHeader (suite.provider crypto nist) parts.plaintextLen parts.recipientKeyHash
        contextHash parts.nonce = .ok parts.header ∧
      encode (suite.provider crypto nist) parts.header parts.kemCiphertext
        parts.aeadCiphertext = .ok data) ∧
    ∀ data, decodeIndexed data = .ok (decode data) := by
  refine ⟨?_, ?_, decodeIndexed_eq⟩
  · intro data
    constructor
    · rintro ⟨parts, decoded⟩
      obtain ⟨contextHash, canonical⟩ := decode_canonical decoded
      obtain ⟨suite, -, size, header, whole⟩ := canonical.encodes crypto nist
      exact ⟨suite, parts.plaintextLen, parts.recipientKeyHash, contextHash, parts.nonce,
        parts.header, parts.kemCiphertext, parts.aeadCiphertext, canonical.bounded,
        canonical.kemLength.trans size.symm, canonical.aeadLength, header, whole⟩
    · rintro ⟨suite, plaintextLen, recipientHash, contextHash, nonce, header, kemCt, aeadCt, bounded,
        -, aeadLength, encoded, assembled⟩
      exact decode_encode encoded bounded aeadLength assembled
  · intro data parts decoded
    obtain ⟨contextHash, canonical⟩ := decode_canonical decoded
    obtain ⟨suite, identifier, -, header, whole⟩ := canonical.encodes crypto nist
    exact ⟨suite, contextHash, identifier, header, whole⟩

end Citadel.Envelope.WireV2
