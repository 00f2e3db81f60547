import Citadel.Envelope.Binding
import Citadel.Envelope.StreamV3

/-!
# The frames of a stream

Encrypting and decrypting walk over the same sequence: a frame holds its number, whether
it is the last one, and a ciphertext. `Framed` is that sequence, for whatever relates the
ciphertext of a frame to its chunk; each loop of the code is described by it.
-/

namespace Citadel.Envelope.StreamV3

/-- Frames numbered from `seq` on, the last one flagged, with the chunks they carry. -/
inductive Framed (carries : Nat → Bool → Bytes → Bytes → Prop) :
    Nat → List Bytes → List Bytes → Prop where
  | nil (seq : Nat) : Framed carries seq [] []
  | cons {seq : Nat} {ciphertext chunk : Bytes} {frames chunks : List Bytes}
      (bounded : seq + 1 < 2 ^ 64) (carried : carries seq frames.isEmpty ciphertext chunk)
      (rest : Framed carries (seq + 1) frames chunks) :
      Framed carries seq (frameBytes seq frames.isEmpty ciphertext :: frames) (chunk :: chunks)

namespace Framed

variable {carries : Nat → Bool → Bytes → Bytes → Prop} {seq : Nat} {frames chunks : List Bytes}

theorem length_eq (framed : Framed carries seq frames chunks) : frames.length = chunks.length := by
  induction framed with
  | nil => rfl
  | cons _ _ _ ih => simp [ih]

/-- The frame at an index holds its number, its flag and a ciphertext of its chunk. -/
theorem at_index (framed : Framed carries seq frames chunks) {index : Nat} {frame : Bytes}
    (found : frames[index]? = some frame) :
    seq + index + 1 < 2 ^ 64 ∧ ∃ ciphertext chunk, chunks[index]? = some chunk ∧
      frame = frameBytes (seq + index) (decide (index + 1 = frames.length)) ciphertext ∧
      carries (seq + index) (decide (index + 1 = frames.length)) ciphertext chunk := by
  induction framed generalizing index with
  | nil => simp at found
  | @cons seq ciphertext chunk frames chunks bounded carried rest ih =>
      cases index with
      | zero =>
          have last : frames.isEmpty = decide (0 + 1 = frames.length + 1) := by
            cases frames <;> simp
          simp only [List.getElem?_cons_zero, Option.some.injEq] at found
          refine ⟨bounded, ciphertext, chunk, rfl, ?_⟩
          rw [List.length_cons, ← last, ← found]
          exact ⟨rfl, carried⟩
      | succ index =>
          obtain ⟨fits, ciphertext, chunk, here, shape, carried⟩ := ih found
          have last : decide (index + 1 + 1 = frames.length + 1) =
              decide (index + 1 = frames.length) := by simp
          have number : seq + (index + 1) = seq + 1 + index := by omega
          rw [List.length_cons, last, number]
          exact ⟨fits, ciphertext, chunk, here, shape, carried⟩

/-- What is carried can be replaced by what follows from it. -/
theorem imp {carries' : Nat → Bool → Bytes → Bytes → Prop}
    (framed : Framed carries seq frames chunks)
    (weaker : ∀ seq isFinal ciphertext chunk, carries seq isFinal ciphertext chunk →
      carries' seq isFinal ciphertext chunk) : Framed carries' seq frames chunks := by
  induction framed with
  | nil seq => exact .nil seq
  | cons bounded carried _ ih => exact .cons bounded (weaker _ _ _ _ carried) ih

end Framed

/-- A ciphertext is what the cipher makes of the chunk. -/
def Seals (crypto : Crypto) (streamKey : SizedBytes 32) (streamId : SizedBytes 16) (aad : Aad)
    (seq : Nat) (isFinal : Bool) (ciphertext chunk : Bytes) : Prop :=
  crypto.aesGcmEncrypt streamKey (deriveChunkNonce crypto streamKey seq) chunk
    (makeChunkAad streamId seq isFinal aad) = some ciphertext

/-- The cipher gives the chunk for the ciphertext. -/
def Opens (crypto : Crypto) (streamKey : SizedBytes 32) (streamId : SizedBytes 16) (aad : Aad)
    (seq : Nat) (isFinal : Bool) (ciphertext chunk : Bytes) : Prop :=
  16 ≤ ciphertext.length ∧
    crypto.aesGcmDecrypt streamKey (deriveChunkNonce crypto streamKey seq) ciphertext
      (makeChunkAad streamId seq isFinal aad) = some chunk

/-- What is sealed opens. -/
theorem Seals.opens {crypto : Crypto} (lawful : crypto.Lawful) {streamKey : SizedBytes 32}
    {streamId : SizedBytes 16} {aad : Aad} {seq : Nat} {isFinal : Bool} {ciphertext chunk : Bytes}
    (sealed : Seals crypto streamKey streamId aad seq isFinal ciphertext chunk) :
    Opens crypto streamKey streamId aad seq isFinal ciphertext chunk := by
  have length := lawful.aesGcmEncrypt_length _ _ _ _ _ sealed
  exact ⟨by omega, lawful.aesGcmDecrypt_encrypt _ _ _ _ _ sealed⟩

section

variable {crypto : Crypto} {hmacSha256 : SizedBytes 32 → Bytes → SizedBytes 32} {aad : Aad}

/-- What one call of `encrypt_chunk` does. -/
theorem encryptChunk_eq_ok {encryptor next : StreamV3Encryptor} {plaintext frame : Bytes}
    {isFinal : Bool}
    (encrypted : encryptor.encryptChunk crypto plaintext isFinal aad = .ok (frame, next)) :
    ∃ ciphertext, encryptor.nextSeq + 1 < 2 ^ 64 ∧
      Seals crypto encryptor.streamKey encryptor.streamId aad encryptor.nextSeq isFinal ciphertext
        plaintext ∧
      frame = frameBytes encryptor.nextSeq isFinal ciphertext ∧
      next = { encryptor with nextSeq := encryptor.nextSeq + 1, finalized := isFinal } := by
  obtain ⟨-, encrypted⟩ := Except.of_guard_eq_ok encrypted
  obtain ⟨ciphertext, sealed, encrypted⟩ := Except.of_bind_eq_ok encrypted
  obtain ⟨bounded, encrypted⟩ := Except.of_guard_eq_ok encrypted
  cases encrypted
  exact ⟨ciphertext, Nat.not_le.mp bounded, aeadSealWith_eq_ok sealed, rfl, rfl⟩

/-- What the loop of `encrypt_stream_v3` does: it frames the chunks. -/
theorem encryptChunks_eq_ok {encryptor next : StreamV3Encryptor} {chunks frames : List Bytes}
    (encrypted : encryptor.encryptChunks crypto aad chunks = .ok (frames, next)) :
    Framed (Seals crypto encryptor.streamKey encryptor.streamId aad) encryptor.nextSeq frames
        chunks ∧
      next.finalKey = encryptor.finalKey ∧ next.streamId = encryptor.streamId ∧
      next.nextSeq = encryptor.nextSeq + frames.length := by
  induction chunks generalizing encryptor frames with
  | nil =>
      cases encrypted
      exact ⟨.nil _, rfl, rfl, rfl⟩
  | cons chunk rest ih =>
      obtain ⟨⟨frame, middle⟩, first, encrypted⟩ := Except.of_bind_eq_ok encrypted
      obtain ⟨⟨frames', last⟩, others, encrypted⟩ := Except.of_bind_eq_ok encrypted
      cases encrypted
      obtain ⟨ciphertext, bounded, sealed, rfl, rfl⟩ := encryptChunk_eq_ok first
      obtain ⟨framed, finalKey, streamId, nextSeq⟩ := ih others
      have same : rest.isEmpty = frames'.isEmpty := by
        have lengths := framed.length_eq
        cases rest <;> cases frames' <;> simp_all
      rw [same] at sealed ⊢
      refine ⟨.cons bounded sealed framed, finalKey, streamId, ?_⟩
      simp only [nextSeq, List.length_cons]
      omega

/-- The flag byte says which flag it is. -/
theorem readFinal_eq_ok {byte : UInt8} {isFinal : Bool} (flag : readFinal byte = .ok isFinal) :
    byte = finalByte isFinal := by
  unfold readFinal at flag
  split at flag
  · cases flag
    assumption
  · split at flag
    · cases flag
      assumption
    · cases flag

@[simp] theorem readFinal_finalByte (isFinal : Bool) :
    readFinal (finalByte isFinal) = .ok isFinal := by
  cases isFinal <;> rfl

/-- A frame that is long enough is its number, its flag byte and the rest. -/
theorem frame_parts {frame : Bytes} (long : 9 ≤ frame.length) :
    frame = beBytes 8 (beNat (frame.take 8)) ++ [byteAt frame 8] ++ frame.drop 9 := by
  have number : beBytes 8 (beNat (frame.take 8)) = frame.take 8 := by
    have front : (frame.take 8).length = 8 := by
      rw [List.length_take]
      omega
    have written := beBytes_beNat (frame.take 8)
    rwa [front] at written
  have flag : [byteAt frame 8] ++ frame.drop 9 = frame.drop 8 := by
    have inside : 8 < frame.length := by omega
    rw [List.drop_eq_getElem_cons inside]
    simp [byteAt, inside]
  rw [number, List.append_assoc, flag, List.take_append_drop]

/-- What one call of `decrypt_chunk` does. -/
theorem decryptChunk_eq_ok {decryptor next : StreamV3Decryptor} {frame plaintext : Bytes}
    {isFinal : Bool}
    (decrypted : decryptor.decryptChunk crypto frame aad = .ok ((plaintext, isFinal), next)) :
    ∃ ciphertext, decryptor.expectedSeq + 1 < 2 ^ 64 ∧
      Opens crypto decryptor.streamKey decryptor.streamId aad decryptor.expectedSeq isFinal
        ciphertext plaintext ∧
      frame = frameBytes decryptor.expectedSeq isFinal ciphertext ∧
      next = { decryptor with expectedSeq := decryptor.expectedSeq + 1, done := isFinal } := by
  obtain ⟨-, decrypted⟩ := Except.of_guard_eq_ok decrypted
  obtain ⟨long, decrypted⟩ := Except.of_guard_eq_ok decrypted
  obtain ⟨flag, read, decrypted⟩ := Except.of_bind_eq_ok decrypted
  obtain ⟨number, decrypted⟩ := Except.of_guard_eq_ok decrypted
  obtain ⟨message, opened, decrypted⟩ := Except.of_bind_eq_ok decrypted
  obtain ⟨bounded, decrypted⟩ := Except.of_guard_eq_ok decrypted
  cases decrypted
  simp only [streamV3ChunkMinBytes, streamV3ChunkHeaderBytes, not_lt] at long
  rw [not_not.mp number] at opened
  refine ⟨frame.drop 9, Nat.not_le.mp bounded, ⟨?_, aeadOpen_eq_ok opened⟩, ?_, rfl⟩
  · rw [List.length_drop]
    omega
  · have parts := frame_parts (show 9 ≤ frame.length by omega)
    rw [readFinal_eq_ok read, not_not.mp number] at parts
    exact parts

/-- A frame in its turn is accepted. -/
theorem decryptChunk_of_opens {decryptor : StreamV3Decryptor} {ciphertext plaintext : Bytes}
    {isFinal : Bool} (pending : decryptor.done = false)
    (bounded : decryptor.expectedSeq + 1 < 2 ^ 64)
    (opened : Opens crypto decryptor.streamKey decryptor.streamId aad decryptor.expectedSeq isFinal
      ciphertext plaintext) :
    decryptor.decryptChunk crypto (frameBytes decryptor.expectedSeq isFinal ciphertext) aad =
      .ok ((plaintext, isFinal),
        { decryptor with expectedSeq := decryptor.expectedSeq + 1, done := isFinal }) := by
  obtain ⟨long, decrypted⟩ := opened
  have enough : ¬ (frameBytes decryptor.expectedSeq isFinal ciphertext).length <
      streamV3ChunkMinBytes := by
    simp only [frameBytes, streamV3ChunkMinBytes, streamV3ChunkHeaderBytes, List.length_append,
      beBytes_length, List.length_singleton]
    omega
  have number : beNat ((frameBytes decryptor.expectedSeq isFinal ciphertext).take 8) =
      decryptor.expectedSeq := by
    rw [frameBytes, List.append_assoc, List.take_left' (by simp)]
    exact beNat_beBytes_of_lt (by omega)
  have flag : byteAt (frameBytes decryptor.expectedSeq isFinal ciphertext) 8 = finalByte isFinal := by
    rw [frameBytes, List.append_assoc, List.singleton_append]
    exact byteAt_append (by simp)
  have rest : (frameBytes decryptor.expectedSeq isFinal ciphertext).drop 9 = ciphertext :=
    List.drop_left' (by simp)
  simp only [StreamV3Decryptor.decryptChunk, pending, Bool.false_eq_true, if_false, if_neg enough,
    flag, readFinal_finalByte, bind, Except.bind, number, ne_eq, not_true_eq_false, rest, aeadOpen,
    decrypted, if_neg (Nat.not_le.mpr bounded)]

/-- What the loop of `decrypt_stream_v3` does: it takes frames with the chunks it returns. -/
theorem decryptChunks_eq_ok {decryptor next : StreamV3Decryptor} {frames : List Bytes}
    {out result : Bytes}
    (decrypted : decryptor.decryptChunks crypto aad out frames = .ok (result, next)) :
    ∃ chunks, Framed (Opens crypto decryptor.streamKey decryptor.streamId aad)
        decryptor.expectedSeq frames chunks ∧ result = out ++ chunks.flatten ∧
      next.finalKey = decryptor.finalKey ∧ next.streamId = decryptor.streamId ∧
      next.expectedSeq = decryptor.expectedSeq + frames.length := by
  induction frames generalizing decryptor out with
  | nil =>
      cases decrypted
      exact ⟨[], .nil _, by simp, rfl, rfl, rfl⟩
  | cons frame rest ih =>
      obtain ⟨⟨⟨plaintext, isFinal⟩, middle⟩, first, decrypted⟩ := Except.of_bind_eq_ok decrypted
      obtain ⟨last, decrypted⟩ := Except.of_guard_eq_ok decrypted
      obtain ⟨ciphertext, bounded, opened, rfl, rfl⟩ := decryptChunk_eq_ok first
      obtain ⟨chunks, framed, rfl, finalKey, streamId, expectedSeq⟩ := ih decrypted
      rw [not_not.mp last] at opened ⊢
      refine ⟨plaintext :: chunks, .cons bounded opened framed, ?_, finalKey, streamId, ?_⟩
      · simp
      · simp only [expectedSeq, List.length_cons]
        omega

/-- Frames that open are accepted, and the last of them ends the stream. -/
theorem decryptChunks_of_framed {decryptor : StreamV3Decryptor} {frames chunks : List Bytes}
    (pending : decryptor.done = false)
    (framed : Framed (Opens crypto decryptor.streamKey decryptor.streamId aad)
      decryptor.expectedSeq frames chunks) (out : Bytes) :
    decryptor.decryptChunks crypto aad out frames = .ok (out ++ chunks.flatten,
      { decryptor with expectedSeq := decryptor.expectedSeq + frames.length,
                       done := !frames.isEmpty }) := by
  induction frames generalizing decryptor chunks out with
  | nil =>
      cases framed
      simp [StreamV3Decryptor.decryptChunks, ← pending]
  | cons frame rest ih =>
      cases framed with
      | cons bounded opened others =>
          rename_i ciphertext chunk chunks
          have first := decryptChunk_of_opens pending bounded opened
          simp only [StreamV3Decryptor.decryptChunks, first, bind, Except.bind, ne_eq,
            not_true_eq_false, if_false]
          cases rest with
          | nil =>
              cases others
              simp [StreamV3Decryptor.decryptChunks]
          | cons second rest =>
              rw [ih rfl others]
              simp only [List.isEmpty_cons, List.length_cons, List.flatten_cons, List.append_assoc,
                Bool.not_false]
              congr 3
              omega

end

end Citadel.Envelope.StreamV3
