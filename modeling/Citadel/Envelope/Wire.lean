import Citadel.Envelope.Kem

/-!
# Suites and the version 1 wire format

The suite table is the definition of "supported": an identifier without a row is
rejected. Version 1 envelopes are still opened, never produced, so only their
decoder is here.
-/

namespace Citadel.Envelope

/-- The bytes of a slice `data[start..stop]`. -/
def slice (data : Bytes) (start stop : Nat) : Bytes :=
  (data.drop start).take (stop - start)

/-- One byte of a string known to be long enough (`data[index]`). -/
def byteAt (data : Bytes) (index : Nat) : UInt8 := data.getD index 0

/-- A slice of exactly the wanted size (`try_into`). -/
def toSized (count : Nat) (bytes : Bytes) : Except DecryptionError (SizedBytes count) :=
  if exact : bytes.length = count then .ok ⟨bytes, exact⟩ else .error ⟨⟩

/-- A slice that starts and ends where one part of a concatenation does. -/
theorem slice_append {front part back : Bytes} {start stop : Nat}
    (starts : front.length = start) (stops : start + part.length = stop) :
    slice (front ++ (part ++ back)) start stop = part := by
  have dropped : (front ++ (part ++ back)).drop start = part ++ back := List.drop_left' starts
  rw [slice, dropped]
  exact List.take_left' (by omega)

/-- A slice and what comes after it. -/
theorem slice_append_drop (data : Bytes) {start stop : Nat} (ordered : start ≤ stop) :
    slice data start stop ++ data.drop stop = data.drop start := by
  have rest : (data.drop start).drop (stop - start) = data.drop stop := by
    rw [List.drop_drop, Nat.add_sub_cancel' ordered]
  rw [slice, ← rest, List.take_append_drop]

/-- The byte right after the first part of a concatenation. -/
theorem byteAt_append {front back : Bytes} {byte : UInt8} {index : Nat}
    (starts : front.length = index) : byteAt (front ++ (byte :: back)) index = byte := by
  subst starts
  simp [byteAt]

@[simp] theorem toSized_val {count : Nat} (bytes : SizedBytes count) :
    toSized count bytes.1 = .ok bytes := by
  simp [toSized]

/-- The lengths of one suite (`SuiteParams`). -/
structure SuiteParams where
  suiteKem : UInt8
  kemCiphertextBytes : Nat
  kemPublicKeyBytes : Nat
  kemSecretKeyBytes : Nat
  deriving DecidableEq, Repr

def suiteKemHybridP384Mlkem1024 : UInt8 := 0xA4

/-- `SUITE_TABLE`. -/
def suiteTable : List SuiteParams := [
  ⟨suiteKemHybridX25519Mlkem768, kemCiphertextBytes, kemPublicKeyBytes, kemSecretKeyBytes⟩,
  ⟨suiteKemHybridP384Mlkem1024, 1665, 1665, 112⟩]

/-- `suite_params`: the row of a suite identifier. -/
def suiteParams (suiteKem : UInt8) : Option SuiteParams :=
  suiteTable.find? fun row => row.suiteKem = suiteKem

/-- `MIN_KEM_CIPHERTEXT_BYTES`: the smallest ciphertext of the table. -/
def minKemCiphertextBytes : Nat :=
  suiteTable.foldl (fun least row => min least row.kemCiphertextBytes) (2 ^ 64 - 1)

/-- A suite found in the table goes by the identifier it was looked up with. -/
theorem suiteParams_suiteKem {suiteKem : UInt8} {row : SuiteParams}
    (found : suiteParams suiteKem = some row) : row.suiteKem = suiteKem := by
  simpa using List.find?_some found

/-- No supported suite has a shorter ciphertext than the table's minimum. -/
theorem minKemCiphertextBytes_le {suiteKem : UInt8} {row : SuiteParams}
    (found : suiteParams suiteKem = some row) : minKemCiphertextBytes ≤ row.kemCiphertextBytes := by
  have least : ∀ row ∈ suiteTable, minKemCiphertextBytes ≤ row.kemCiphertextBytes := by decide
  exact least row (List.mem_of_find?_eq_some found)

def protocolId : Bytes := utf8 "citadel-env-v1"
def protocolVersion : UInt8 := 0x01
def suiteAeadAes256Gcm : UInt8 := 0xB1
def flagsV1 : UInt8 := 0x00
def nonceBytes : Nat := 12
def aeadTagBytes : Nat := 16
def headerBytes : Nat := 1 + 1 + 1 + 1 + 2

/-- `MIN_CIPHERTEXT_BYTES`, 1154. -/
def minCiphertextBytes : Nat := headerBytes + kemCiphertextBytes + nonceBytes + aeadTagBytes

/-- A parsed version 1 envelope (`WireComponents`). -/
structure WireComponents where
  version : UInt8
  suiteKem : UInt8
  suiteAead : UInt8
  flags : UInt8
  kemCtLen : Nat
  kemCiphertext : SizedBytes 1120
  nonce : SizedBytes 12
  aeadCiphertext : Bytes

/-- `check_v1_suites`. -/
def checkV1Suites (components : WireComponents) : Except DecryptionError Unit :=
  if components.suiteKem ≠ suiteKemHybridX25519Mlkem768 ∨
      components.suiteAead ≠ suiteAeadAes256Gcm then .error ⟨⟩
  else .ok ()

/-- `decode_wire_raw`: the structural checks of version 1. -/
def decodeWireRaw (data : Bytes) : Except DecryptionError WireComponents :=
  if data.length < minCiphertextBytes then .error ⟨⟩
  else
    let version := byteAt data 0
    let flags := byteAt data 3
    let kemCtLen := beNat (slice data 4 6)
    if version ≠ protocolVersion then .error ⟨⟩
    else if flags ≠ flagsV1 then .error ⟨⟩
    else if kemCtLen ≠ kemCiphertextBytes then .error ⟨⟩
    else do
      let kemEnd := headerBytes + kemCiphertextBytes
      let nonceEnd := kemEnd + nonceBytes
      let kemCiphertext ← toSized 1120 (slice data headerBytes kemEnd)
      let nonce ← toSized 12 (slice data kemEnd nonceEnd)
      let aeadCiphertext := data.drop nonceEnd
      if aeadCiphertext.length < aeadTagBytes then .error ⟨⟩
      else
        .ok ⟨version, byteAt data 1, byteAt data 2, flags, kemCtLen, kemCiphertext, nonce,
          aeadCiphertext⟩

/-- `decode_wire`: the structural checks, then the only supported suites. -/
def decodeWire (data : Bytes) : Except DecryptionError WireComponents := do
  let components ← decodeWireRaw data
  checkV1Suites components
  .ok components

end Citadel.Envelope
