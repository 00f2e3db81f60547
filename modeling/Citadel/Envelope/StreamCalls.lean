import Citadel.Data.Numbering
import Citadel.Data.Stateful
import Citadel.Envelope.Legacy
import Citadel.Envelope.StreamIntegrity

/-!
# Calls on a stream

`encrypt_chunk` and `decrypt_chunk` change the stream they are called on. Here they are
written with that state, statement by statement, so that an early return leaves whatever was
assigned before it. Every failure comes before the first assignment: a call that fails leaves
the stream, and a call that succeeds moves it to the next number.
-/

namespace Citadel.Envelope

/-- `checked_add(1)`, of an integer below the limit. -/
def checkedSucc (limit value : Nat) : Option Nat :=
  if value + 1 < limit then some (value + 1) else none

/-- The number after the one a stream stands at, unless the counter is at its end. -/
theorem checkedSucc_of_le {limit value : Nat} (full : limit ≤ value + 1) :
    checkedSucc limit value = none := if_neg (Nat.not_lt.mpr full)

theorem checkedSucc_of_lt {limit value : Nat} (room : value + 1 < limit) :
    checkedSucc limit value = some (value + 1) := if_pos room

/-- The number on a frame and whether it is the last one. A frame starts with its number in
`width` bytes and the flag. -/
def frameNumber (width : Nat) : Except EncodingError Bytes → Option (Nat × Bool)
  | .ok frame => some (beNat (frame.take width), byteAt frame width = 0x01)
  | .error _ => none

theorem frameNumber_ok {width index : Nat} {isFinal : Bool} {rest : Bytes}
    (fits : index < 256 ^ width) :
    frameNumber width (.ok (beBytes width index ++ [StreamV3.finalByte isFinal] ++ rest)) =
      some (index, isFinal) := by
  have front : (beBytes width index ++ ([StreamV3.finalByte isFinal] ++ rest)).take width =
      beBytes width index := List.take_left' (beBytes_length width index)
  have flag : byteAt (beBytes width index ++ ([StreamV3.finalByte isFinal] ++ rest)) width =
      StreamV3.finalByte isFinal := byteAt_append (beBytes_length width index)
  rw [frameNumber, List.append_assoc, front, flag, beNat_beBytes_of_lt fits]
  cases isFinal <;> rfl

/-- What a call of `encrypt_chunk` is given. The nonce is drawn by version 2 only. -/
structure EncryptCall where
  nonce : Option (SizedBytes 12)
  plaintext : Bytes
  isFinal : Bool
  aad : Aad

/-- What a call of `decrypt_chunk` is given. -/
structure DecryptCall where
  chunkData : Bytes
  aad : Aad

namespace StreamV2

/-- `StreamDecryptor`. -/
structure StreamDecryptor where
  streamKey : SizedBytes 32
  expectedIndex : Nat
  done : Bool

/-- `STREAM_MIN_CHUNK_BYTES`, 33. -/
def streamMinChunkBytes : Nat := 4 + 1 + nonceBytes + aeadTagBytes

section Code

variable (crypto : Crypto)

/-- `StreamDecryptor::from_header`. -/
def StreamDecryptor.fromHeader (key : SecretKey crypto) (header : Bytes) (_aad : Aad)
    (context : Context) : Except DecryptionError StreamDecryptor := do
  let parts ← decodeStreamHeader header
  let sharedSecret ← decapsulate crypto key parts.kemCiphertext.1
  let streamKey := deriveKey crypto sharedSecret (ctHash crypto parts.kemCiphertext.1)
    context.inner
  .ok ⟨streamKey, 1, false⟩

/-- `StreamEncryptor::encrypt_chunk`, with the state of the stream. -/
def encryptChunkIn (nonce : Option (SizedBytes 12)) (plaintext : Bytes) (isFinal : Bool)
    (aad : Aad) : Method StreamEncryptor EncodingError Bytes := do
  if (← get).finalized then throw ⟨⟩
  let index := (← get).nextIndex
  let chunkKey := deriveChunkKey crypto (← get).streamKey index isFinal
  let some nonce := nonce | throw ⟨⟩
  let chunkAad := makeChunkAad aad index isFinal
  let ciphertext ← ofExcept (aeadSealWith crypto chunkKey nonce plaintext chunkAad)
  let some nextIndex := checkedSucc (2 ^ 32) (← get).nextIndex | throw ⟨⟩
  modify fun encryptor => { encryptor with nextIndex }
  if isFinal then modify fun encryptor => { encryptor with finalized := true }
  return chunkBytes index isFinal nonce ciphertext

/-- `StreamDecryptor::decrypt_chunk`, with the state of the stream. -/
def decryptChunkIn (chunkData : Bytes) (aad : Aad) :
    Method StreamDecryptor DecryptionError (Bytes × Bool) := do
  if (← get).done then throw ⟨⟩
  if chunkData.length < streamMinChunkBytes then throw ⟨⟩
  let chunkIndex := beNat (chunkData.take 4)
  let isFinal ← ofExcept (StreamV3.readFinal (byteAt chunkData 4))
  let nonce ← ofExcept (toSized 12 (slice chunkData 5 17))
  let aeadCt := chunkData.drop 17
  if chunkIndex ≠ (← get).expectedIndex then throw ⟨⟩
  let chunkKey := deriveChunkKey crypto (← get).streamKey chunkIndex isFinal
  let chunkAad := makeChunkAad aad chunkIndex isFinal
  let plaintext ← ofExcept (aeadOpen crypto chunkKey nonce aeadCt chunkAad)
  let some expectedIndex := checkedSucc (2 ^ 32) (← get).expectedIndex | throw ⟨⟩
  modify fun decryptor => { decryptor with expectedIndex }
  if isFinal then modify fun decryptor => { decryptor with done := true }
  return (plaintext, isFinal)

/-- `StreamDecryptor::decrypt_chunk`, from one stream to the next. -/
def StreamDecryptor.decryptChunk (decryptor : StreamDecryptor) (chunkData : Bytes) (aad : Aad) :
    Except DecryptionError ((Bytes × Bool) × StreamDecryptor) :=
  if decryptor.done then .error ⟨⟩
  else if chunkData.length < streamMinChunkBytes then .error ⟨⟩
  else do
    let chunkIndex := beNat (chunkData.take 4)
    let isFinal ← StreamV3.readFinal (byteAt chunkData 4)
    let nonce ← toSized 12 (slice chunkData 5 17)
    if chunkIndex ≠ decryptor.expectedIndex then .error ⟨⟩
    else
      let plaintext ← aeadOpen crypto (deriveChunkKey crypto decryptor.streamKey chunkIndex isFinal)
        nonce (chunkData.drop 17) (makeChunkAad aad chunkIndex isFinal)
      if 2 ^ 32 ≤ decryptor.expectedIndex + 1 then .error ⟨⟩
      else
        .ok ((plaintext, isFinal),
          { decryptor with expectedIndex := decryptor.expectedIndex + 1, done := isFinal })

theorem aeadSeal_some (nonce : SizedBytes 12) (key : SizedBytes 32) (plaintext aad : Bytes) :
    aeadSeal crypto (some nonce) key plaintext aad =
      (aeadSealWith crypto key nonce plaintext aad).map fun ciphertext => (nonce, ciphertext) := by
  rw [aeadSeal, aeadSealWith]
  cases crypto.aesGcmEncrypt key nonce plaintext aad <;> rfl

/-- The state that a call of `encrypt_chunk` leaves. -/
theorem encryptChunkIn_play (call : EncryptCall) (encryptor : StreamEncryptor) :
    (encryptChunkIn crypto call.nonce call.plaintext call.isFinal call.aad).play encryptor =
      onState (fun state => state.encryptChunk crypto call.nonce call.plaintext call.isFinal
        call.aad) encryptor := by
  obtain ⟨nonce, plaintext, isFinal, aad⟩ := call
  rw [onState, StreamEncryptor.encryptChunk, encryptChunkIn, Method.play_get_bind]
  cases finalized : encryptor.finalized with
  | true => rfl
  | false =>
      cases nonce with
      | none => rfl
      | some nonce =>
          simp only [Bool.false_eq_true, if_false, Method.play_get_bind, aeadSeal_some]
          generalize aeadSealWith crypto _ nonce plaintext _ = sealed
          cases sealed with
          | error error => rfl
          | ok ciphertext =>
              by_cases full : 2 ^ 32 ≤ encryptor.nextIndex + 1
              · simp only [Method.play_ofExcept_ok_bind, Method.play_get_bind,
                  checkedSucc_of_le full, Method.play_throw, Except.map, ok_bind, if_pos full]
              · simp only [Method.play_ofExcept_ok_bind, Method.play_get_bind,
                  checkedSucc_of_lt (Nat.not_le.mp full), Method.play_modify_bind, Except.map,
                  ok_bind, if_neg full]
                cases isFinal
                · simp only [finalized]
                  rfl
                · rfl

/-- The state that a call of `decrypt_chunk` leaves. -/
theorem decryptChunkIn_play (call : DecryptCall) (decryptor : StreamDecryptor) :
    (decryptChunkIn crypto call.chunkData call.aad).play decryptor =
      onState (fun state => state.decryptChunk crypto call.chunkData call.aad) decryptor := by
  obtain ⟨chunkData, aad⟩ := call
  rw [onState, StreamDecryptor.decryptChunk, decryptChunkIn, Method.play_get_bind]
  cases pending : decryptor.done with
  | true => rfl
  | false =>
      by_cases short : chunkData.length < streamMinChunkBytes
      · simp only [Bool.false_eq_true, if_false, if_pos short]
        rfl
      simp only [Bool.false_eq_true, if_false, if_neg short]
      generalize StreamV3.readFinal (byteAt chunkData 4) = flag
      generalize toSized 12 (slice chunkData 5 17) = drawn
      cases flag with
      | error error => rfl
      | ok isFinal =>
          cases drawn with
          | error error => rfl
          | ok nonce =>
              simp only [Method.play_ofExcept_ok_bind, Method.play_get_bind]
              simp only [ok_bind]
              by_cases turn : beNat (chunkData.take 4) ≠ decryptor.expectedIndex
              · simp only [if_pos turn, Method.play_throw_bind]
              simp only [if_neg turn, Method.play_get_bind]
              generalize aeadOpen crypto _ nonce (chunkData.drop 17) _ = opened
              cases opened with
              | error error => rfl
              | ok plaintext =>
                  by_cases full : 2 ^ 32 ≤ decryptor.expectedIndex + 1
                  · simp only [Method.play_ofExcept_ok_bind, Method.play_get_bind, ok_bind,
                      checkedSucc_of_le full, Method.play_throw, if_pos full]
                  · simp only [Method.play_ofExcept_ok_bind, Method.play_get_bind, ok_bind,
                      checkedSucc_of_lt (Nat.not_le.mp full), Method.play_modify_bind, if_neg full]
                    cases isFinal
                    · simp only [pending]
                      rfl
                    · rfl

/-- What one call of `encrypt_chunk` does. -/
theorem encryptChunk_eq_ok {encryptor next : StreamEncryptor} {nonce : Option (SizedBytes 12)}
    {plaintext frame : Bytes} {isFinal : Bool} {aad : Aad}
    (encrypted : encryptor.encryptChunk crypto nonce plaintext isFinal aad = .ok (frame, next)) :
    encryptor.finalized = false ∧ encryptor.nextIndex + 1 < 2 ^ 32 ∧
      next = { encryptor with nextIndex := encryptor.nextIndex + 1, finalized := isFinal } ∧
      ∃ drawn ciphertext,
        crypto.aesGcmEncrypt (deriveChunkKey crypto encryptor.streamKey encryptor.nextIndex isFinal)
          drawn plaintext (makeChunkAad aad encryptor.nextIndex isFinal) = some ciphertext ∧
        frame = chunkBytes encryptor.nextIndex isFinal drawn ciphertext := by
  obtain ⟨pending, encrypted⟩ := Except.of_guard_eq_ok encrypted
  obtain ⟨⟨drawn, ciphertext⟩, sealed, encrypted⟩ := Except.of_bind_eq_ok encrypted
  obtain ⟨room, encrypted⟩ := Except.of_guard_eq_ok encrypted
  cases encrypted
  obtain ⟨-, ciphertext⟩ := aeadSeal_eq_ok sealed
  exact ⟨Bool.eq_false_iff.mpr pending, Nat.not_le.mp room, rfl, _, _, ciphertext, rfl⟩

/-- The counter of an encryptor. -/
def StreamEncryptor.counter (encryptor : StreamEncryptor) : Counter :=
  ⟨encryptor.nextIndex, encryptor.finalized⟩

/-- A call moves the counter on by the frame that it returns. -/
theorem encryptChunkIn_step (call : EncryptCall) (encryptor : StreamEncryptor) :
    Counter.Step (2 ^ 32) encryptor.counter
      (frameNumber 4 ((encryptChunkIn crypto call.nonce call.plaintext call.isFinal
        call.aad).play encryptor).1)
      ((encryptChunkIn crypto call.nonce call.plaintext call.isFinal
        call.aad).play encryptor).2.counter := by
  rw [encryptChunkIn_play, onState]
  match found : encryptor.encryptChunk crypto call.nonce call.plaintext call.isFinal call.aad with
  | .error error => exact .refuse
  | .ok (frame, next) =>
      obtain ⟨pending, room, rfl, drawn, ciphertext, -, rfl⟩ := encryptChunk_eq_ok crypto found
      have fits : encryptor.nextIndex < 256 ^ 4 := Nat.lt_of_succ_lt room
      simp only [chunkBytes, List.append_assoc]
      rw [← List.append_assoc, frameNumber_ok fits]
      exact .issue pending room

/-- A frame in its turn is accepted. -/
theorem decryptChunk_of_encrypted (lawful : crypto.Lawful) {encryptor next : StreamEncryptor}
    {decryptor : StreamDecryptor} {nonce : Option (SizedBytes 12)} {plaintext frame : Bytes}
    {isFinal : Bool} {aad : Aad}
    (encrypted : encryptor.encryptChunk crypto nonce plaintext isFinal aad = .ok (frame, next))
    (sameKey : decryptor.streamKey = encryptor.streamKey)
    (turn : decryptor.expectedIndex = encryptor.nextIndex) (pending : decryptor.done = false) :
    decryptor.decryptChunk crypto frame aad = .ok ((plaintext, isFinal),
      { decryptor with expectedIndex := decryptor.expectedIndex + 1, done := isFinal }) := by
  obtain ⟨-, room, -, drawn, ciphertext, sealed, rfl⟩ := encryptChunk_eq_ok crypto encrypted
  have fits : encryptor.nextIndex < 256 ^ 4 := Nat.lt_of_succ_lt room
  have tagged := lawful.aesGcmEncrypt_length _ _ _ _ _ sealed
  have long : ¬ (chunkBytes encryptor.nextIndex isFinal drawn ciphertext).length <
      streamMinChunkBytes := by
    simp only [chunkBytes, List.length_append, beBytes_length, List.length_singleton, drawn.2, tagged,
      streamMinChunkBytes, nonceBytes, aeadTagBytes]
    omega
  have number : (chunkBytes encryptor.nextIndex isFinal drawn ciphertext).take 4 =
      beBytes 4 encryptor.nextIndex := by
    rw [chunkBytes, List.append_assoc, List.append_assoc]
    exact List.take_left' (beBytes_length 4 _)
  have flag : byteAt (chunkBytes encryptor.nextIndex isFinal drawn ciphertext) 4 =
      StreamV3.finalByte isFinal := by
    rw [chunkBytes, List.append_assoc, List.append_assoc]
    exact byteAt_append (beBytes_length 4 _)
  have front : (beBytes 4 encryptor.nextIndex ++ [StreamV3.finalByte isFinal]).length = 5 := by
    rw [List.length_append, beBytes_length, List.length_singleton]
  have nonceRead : slice (chunkBytes encryptor.nextIndex isFinal drawn ciphertext) 5 17 =
      drawn.1 := by
    rw [chunkBytes, List.append_assoc]
    exact slice_append front (by rw [drawn.2])
  have rest : (chunkBytes encryptor.nextIndex isFinal drawn ciphertext).drop 17 = ciphertext := by
    apply List.drop_left'
    rw [List.length_append, front, drawn.2]
  have opened := lawful.aesGcmDecrypt_encrypt _ _ _ _ _ sealed
  have full : ¬ 2 ^ 32 ≤ encryptor.nextIndex + 1 := Nat.not_le.mpr room
  simp only [StreamDecryptor.decryptChunk, pending, Bool.false_eq_true, if_false, if_neg long, number,
    flag, StreamV3.readFinal_finalByte, nonceRead, toSized_val, rest, ok_bind, turn, sameKey,
    beNat_beBytes_of_lt fits, ne_eq, not_true_eq_false, aeadOpen, opened, if_neg full]

end Code

end StreamV2

namespace StreamV3

section Code

variable (crypto : Crypto)

/-- `StreamV3Encryptor::encrypt_chunk`, with the state of the stream. -/
def encryptChunkIn (plaintext : Bytes) (isFinal : Bool) (aad : Aad) :
    Method StreamV3Encryptor EncodingError Bytes := do
  if (← get).finalized then throw ⟨⟩
  let seq := (← get).nextSeq
  let nonce := deriveChunkNonce crypto (← get).streamKey seq
  let chunkAad := makeChunkAad (← get).streamId seq isFinal aad
  let ciphertext ← ofExcept (aeadSealWith crypto (← get).streamKey nonce plaintext chunkAad)
  let some nextSeq := checkedSucc (2 ^ 64) (← get).nextSeq | throw ⟨⟩
  modify fun encryptor => { encryptor with nextSeq }
  if isFinal then modify fun encryptor => { encryptor with finalized := true }
  return frameBytes seq isFinal ciphertext

/-- `StreamV3Decryptor::decrypt_chunk`, with the state of the stream. -/
def decryptChunkIn (chunkData : Bytes) (aad : Aad) :
    Method StreamV3Decryptor DecryptionError (Bytes × Bool) := do
  if (← get).done then throw ⟨⟩
  if chunkData.length < streamV3ChunkMinBytes then throw ⟨⟩
  let seq := beNat (chunkData.take 8)
  let isFinal ← ofExcept (readFinal (byteAt chunkData 8))
  let ciphertext := chunkData.drop 9
  if seq ≠ (← get).expectedSeq then throw ⟨⟩
  let nonce := deriveChunkNonce crypto (← get).streamKey seq
  let chunkAad := makeChunkAad (← get).streamId seq isFinal aad
  let plaintext ← ofExcept (aeadOpen crypto (← get).streamKey nonce ciphertext chunkAad)
  let some expectedSeq := checkedSucc (2 ^ 64) (← get).expectedSeq | throw ⟨⟩
  modify fun decryptor => { decryptor with expectedSeq }
  if isFinal then modify fun decryptor => { decryptor with done := true }
  return (plaintext, isFinal)

/-- The state that a call of `encrypt_chunk` leaves. -/
theorem encryptChunkIn_play (call : EncryptCall) (encryptor : StreamV3Encryptor) :
    (encryptChunkIn crypto call.plaintext call.isFinal call.aad).play encryptor =
      onState (fun state => state.encryptChunk crypto call.plaintext call.isFinal call.aad)
        encryptor := by
  obtain ⟨-, plaintext, isFinal, aad⟩ := call
  rw [onState, StreamV3Encryptor.encryptChunk, encryptChunkIn, Method.play_get_bind]
  cases finalized : encryptor.finalized with
  | true => rfl
  | false =>
      simp only [Bool.false_eq_true, if_false, Method.play_get_bind]
      generalize aeadSealWith crypto encryptor.streamKey _ plaintext _ = sealed
      cases sealed with
      | error error => rfl
      | ok ciphertext =>
          by_cases full : 2 ^ 64 ≤ encryptor.nextSeq + 1
          · simp only [Method.play_ofExcept_ok_bind, Method.play_get_bind, checkedSucc_of_le full,
              Method.play_throw, ok_bind, if_pos full]
          · simp only [Method.play_ofExcept_ok_bind, Method.play_get_bind,
              checkedSucc_of_lt (Nat.not_le.mp full), Method.play_modify_bind, ok_bind, if_neg full]
            cases isFinal
            · simp only [finalized]
              rfl
            · rfl

/-- The state that a call of `decrypt_chunk` leaves. -/
theorem decryptChunkIn_play (call : DecryptCall) (decryptor : StreamV3Decryptor) :
    (decryptChunkIn crypto call.chunkData call.aad).play decryptor =
      onState (fun state => state.decryptChunk crypto call.chunkData call.aad) decryptor := by
  obtain ⟨chunkData, aad⟩ := call
  rw [onState, StreamV3Decryptor.decryptChunk, decryptChunkIn, Method.play_get_bind]
  cases pending : decryptor.done with
  | true => rfl
  | false =>
      by_cases short : chunkData.length < streamV3ChunkMinBytes
      · simp only [Bool.false_eq_true, if_false, if_pos short]
        rfl
      simp only [Bool.false_eq_true, if_false, if_neg short]
      generalize readFinal (byteAt chunkData 8) = flag
      cases flag with
      | error error => rfl
      | ok isFinal =>
          simp only [Method.play_ofExcept_ok_bind, Method.play_get_bind, ok_bind]
          by_cases turn : beNat (chunkData.take 8) ≠ decryptor.expectedSeq
          · simp only [if_pos turn, Method.play_throw_bind]
          simp only [if_neg turn, Method.play_get_bind]
          generalize aeadOpen crypto decryptor.streamKey _ (chunkData.drop 9) _ = opened
          cases opened with
          | error error => rfl
          | ok plaintext =>
              by_cases full : 2 ^ 64 ≤ decryptor.expectedSeq + 1
              · simp only [Method.play_ofExcept_ok_bind, Method.play_get_bind, ok_bind,
                  checkedSucc_of_le full, Method.play_throw, if_pos full]
              · simp only [Method.play_ofExcept_ok_bind, Method.play_get_bind, ok_bind,
                  checkedSucc_of_lt (Nat.not_le.mp full), Method.play_modify_bind, if_neg full]
                cases isFinal
                · simp only [pending]
                  rfl
                · rfl

/-- The counter of an encryptor. -/
def StreamV3Encryptor.counter (encryptor : StreamV3Encryptor) : Counter :=
  ⟨encryptor.nextSeq, encryptor.finalized⟩

/-- A call moves the counter on by the frame that it returns. -/
theorem encryptChunkIn_step (call : EncryptCall) (encryptor : StreamV3Encryptor) :
    Counter.Step (2 ^ 64) encryptor.counter
      (frameNumber 8 ((encryptChunkIn crypto call.plaintext call.isFinal call.aad).play
        encryptor).1)
      ((encryptChunkIn crypto call.plaintext call.isFinal call.aad).play encryptor).2.counter := by
  rw [encryptChunkIn_play, onState]
  match found : encryptor.encryptChunk crypto call.plaintext call.isFinal call.aad with
  | .error error => exact .refuse
  | .ok (frame, next) =>
      obtain ⟨pending, -⟩ := Except.of_guard_eq_ok found
      obtain ⟨ciphertext, room, -, rfl, rfl⟩ := encryptChunk_eq_ok found
      have fits : encryptor.nextSeq < 256 ^ 8 := Nat.lt_of_succ_lt room
      simp only [frameBytes]
      rw [frameNumber_ok fits]
      exact .issue (Bool.eq_false_iff.mpr pending) room

/-- A frame in its turn is accepted. -/
theorem decryptChunk_of_encrypted (lawful : crypto.Lawful) {encryptor next : StreamV3Encryptor}
    {decryptor : StreamV3Decryptor} {plaintext frame : Bytes} {isFinal : Bool} {aad : Aad}
    (encrypted : encryptor.encryptChunk crypto plaintext isFinal aad = .ok (frame, next))
    (sameKey : decryptor.streamKey = encryptor.streamKey)
    (sameStream : decryptor.streamId = encryptor.streamId)
    (turn : decryptor.expectedSeq = encryptor.nextSeq) (pending : decryptor.done = false) :
    decryptor.decryptChunk crypto frame aad = .ok ((plaintext, isFinal),
      { decryptor with expectedSeq := decryptor.expectedSeq + 1, done := isFinal }) := by
  obtain ⟨ciphertext, room, sealed, rfl, -⟩ := encryptChunk_eq_ok encrypted
  have opened := sealed.opens lawful
  rw [← sameKey, ← sameStream, ← turn] at opened
  rw [← turn] at room ⊢
  exact decryptChunk_of_opens pending room opened

end Code

end StreamV3

/-! ### Any sequence of calls -/

section Sequences

variable (crypto : Crypto)

/-- What holds of every sequence of calls on a version 2 stream. -/
structure StreamV2.CallsKeepPlace : Prop where
  /-- The returned frames are numbered from one on, the last one ends them. -/
  numbered : ∀ coins key aad context encryptor (calls : List EncryptCall),
    StreamEncryptor.new crypto coins key aad context = .ok encryptor →
    Counter.Numbered 1 (2 ^ 32)
      ((playCalls (fun call : EncryptCall => (encryptChunkIn crypto call.nonce call.plaintext
        call.isFinal call.aad).play) calls encryptor).1.map (frameNumber 4))
  /-- A call that fails leaves the decryptor. -/
  keeps : ∀ chunkData aad (decryptor : StreamDecryptor) error,
    ((decryptChunkIn crypto chunkData aad).play decryptor).1 = .error error →
    ((decryptChunkIn crypto chunkData aad).play decryptor).2 = decryptor
  /-- After any number of failing calls the frame in its turn is accepted. -/
  resumes : ∀ (encryptor next : StreamEncryptor) (decryptor : StreamDecryptor) nonce plaintext
      isFinal aad frame (calls : List DecryptCall),
    encryptor.encryptChunk crypto nonce plaintext isFinal aad = .ok (frame, next) →
    decryptor.streamKey = encryptor.streamKey → decryptor.expectedIndex = encryptor.nextIndex →
    decryptor.done = false →
    (∀ result ∈ (playCalls (fun call : DecryptCall =>
      (decryptChunkIn crypto call.chunkData call.aad).play) calls decryptor).1,
        ∃ error, result = .error error) →
    ((decryptChunkIn crypto frame aad).play (playCalls (fun call : DecryptCall =>
      (decryptChunkIn crypto call.chunkData call.aad).play) calls decryptor).2).1 =
        .ok (plaintext, isFinal)

/-- What holds of every sequence of calls on a version 3 stream. -/
structure StreamV3.CallsKeepPlace : Prop where
  /-- The returned frames are numbered from zero on, the last one ends them. -/
  numbered : ∀ coins key aad context encryptor (calls : List EncryptCall),
    StreamV3Encryptor.new crypto coins key aad context = .ok encryptor →
    Counter.Numbered 0 (2 ^ 64)
      ((playCalls (fun call : EncryptCall => (encryptChunkIn crypto call.plaintext call.isFinal
        call.aad).play) calls encryptor).1.map (frameNumber 8))
  /-- A call that fails leaves the decryptor. -/
  keeps : ∀ chunkData aad (decryptor : StreamV3Decryptor) error,
    ((decryptChunkIn crypto chunkData aad).play decryptor).1 = .error error →
    ((decryptChunkIn crypto chunkData aad).play decryptor).2 = decryptor
  /-- After any number of failing calls the frame in its turn is accepted. -/
  resumes : ∀ (encryptor next : StreamV3Encryptor) (decryptor : StreamV3Decryptor) plaintext
      isFinal aad frame (calls : List DecryptCall),
    encryptor.encryptChunk crypto plaintext isFinal aad = .ok (frame, next) →
    decryptor.streamKey = encryptor.streamKey → decryptor.streamId = encryptor.streamId →
    decryptor.expectedSeq = encryptor.nextSeq → decryptor.done = false →
    (∀ result ∈ (playCalls (fun call : DecryptCall =>
      (decryptChunkIn crypto call.chunkData call.aad).play) calls decryptor).1,
        ∃ error, result = .error error) →
    ((decryptChunkIn crypto frame aad).play (playCalls (fun call : DecryptCall =>
      (decryptChunkIn crypto call.chunkData call.aad).play) calls decryptor).2).1 =
        .ok (plaintext, isFinal)

theorem StreamV2.callsKeepPlace (lawful : crypto.Lawful) : StreamV2.CallsKeepPlace crypto where
  numbered := by
    intro coins key aad context encryptor calls started
    obtain ⟨⟨secret, kemCt⟩, -, started⟩ := Except.of_bind_eq_ok started
    obtain ⟨header, -, started⟩ := Except.of_bind_eq_ok started
    have first : encryptor.counter.next = 1 := by
      cases started
      rfl
    have run := (Counter.run_playCalls (encryptChunkIn_step crypto) calls encryptor).numbered
    rw [first] at run
    exact run
  keeps := by
    intro chunkData aad decryptor error
    rw [decryptChunkIn_play crypto ⟨chunkData, aad⟩]
    exact onState_of_error
  resumes := by
    intro encryptor next decryptor nonce plaintext isFinal aad frame calls encrypted sameKey turn
      pending failed
    have kept := playCalls_of_failed (fun (call : DecryptCall) state => by
      rintro ⟨error, failed⟩
      rw [decryptChunkIn_play crypto call] at failed ⊢
      exact onState_of_error failed) failed
    rw [kept, decryptChunkIn_play crypto ⟨frame, aad⟩, onState,
      decryptChunk_of_encrypted crypto lawful encrypted sameKey turn pending]

theorem StreamV3.callsKeepPlace (lawful : crypto.Lawful) : StreamV3.CallsKeepPlace crypto where
  numbered := by
    intro coins key aad context encryptor calls started
    obtain ⟨secret, kemCt, tag, -, -, shape⟩ := new_eq_ok started
    have run := (Counter.run_playCalls (encryptChunkIn_step crypto) calls encryptor).numbered
    have first : encryptor.counter.next = 0 := by rw [shape]; rfl
    rw [first] at run
    exact run
  keeps := by
    intro chunkData aad decryptor error
    rw [decryptChunkIn_play crypto ⟨chunkData, aad⟩]
    exact onState_of_error
  resumes := by
    intro encryptor next decryptor plaintext isFinal aad frame calls encrypted sameKey sameStream turn
      pending failed
    have kept := playCalls_of_failed (fun (call : DecryptCall) state => by
      rintro ⟨error, failed⟩
      rw [decryptChunkIn_play crypto call] at failed ⊢
      exact onState_of_error failed) failed
    rw [kept, decryptChunkIn_play crypto ⟨frame, aad⟩, onState,
      decryptChunk_of_encrypted crypto lawful encrypted sameKey sameStream turn pending]

/-- The frames that a stream returns are numbered without a gap and without a repetition, up
to the one final frame, whichever calls fail in between; and a decryptor on which calls fail
still accepts the frame that is next. -/
theorem chunk_calls_keep_place (lawful : crypto.Lawful) :
    StreamV2.CallsKeepPlace crypto ∧ StreamV3.CallsKeepPlace crypto :=
  ⟨StreamV2.callsKeepPlace crypto lawful, StreamV3.callsKeepPlace crypto lawful⟩

end Sequences

namespace StreamV3

/-- The decryptor at the start of the stream of two chunks. -/
def pairDecryptor : StreamV3Decryptor := ⟨.zeros 32, .zeros 32, .zeros 16, 0, false⟩

/-- Two calls fail, with nothing and with the second frame, and then the first chunk is
decrypted. -/
theorem first_chunk_resumed :
    ((decryptChunkIn pairCrypto (frameBytes 0 false ([7, 8] ++ List.replicate 16 0))
        ⟨[1, 2]⟩).play
      (playCalls (fun call : DecryptCall =>
        (decryptChunkIn pairCrypto call.chunkData call.aad).play)
        [⟨[], ⟨[]⟩⟩, ⟨frameBytes 1 true ([9] ++ List.replicate 16 0), ⟨[1, 2]⟩⟩]
        pairDecryptor).2).1 = .ok ([7, 8], false) := by
  have lawful : pairCrypto.Lawful := registry_lawful _
  have encrypted := pair_encrypted (by decide) (.tail _ (.head _) :
    (_, _, [7, 8], pairChunkAad 0 false) ∈ pairEntries)
  apply (chunk_calls_keep_place pairCrypto lawful).2.resumes _ _ pairDecryptor [7, 8] false ⟨[1, 2]⟩
    _ _ encrypted rfl rfl rfl rfl
  intro result member
  simp only [playCalls, List.mem_cons, List.not_mem_nil, or_false] at member
  rcases member with rfl | rfl
  · exact ⟨⟨⟩, rfl⟩
  · exact ⟨⟨⟩, rfl⟩

end StreamV3

end Citadel.Envelope
