import Citadel.Envelope.Separation

/-!
# Which message an envelope opens

An envelope carries one AEAD ciphertext, and the caller's data decides under which associated
data it is opened. So where the cipher opens a ciphertext only as it was sealed, no envelope
around that ciphertext opens for other data, whatever its header, its key and its context are.
-/

namespace Citadel.Envelope

/-- The AEAD ciphertext of a version 1 or version 2 envelope. -/
def aeadPart (data : Bytes) : Except DecryptionError Bytes :=
  if WireV2.magic.isPrefixOf data then (WireV2.decode data).map WireV2.Parts.aeadCiphertext
  else (decodeWire data).map WireComponents.aeadCiphertext

/-- The cipher opens the ciphertext of a tuple only under the key and the associated data of
the tuple. -/
def Crypto.OpensAsSealed (crypto : Crypto) (tuple : AeadTuple) : Prop :=
  ∀ key nonce associated plaintext,
    crypto.aesGcmDecrypt key nonce tuple.ciphertext associated = some plaintext →
      key = tuple.key ∧ associated = tuple.associated

section

variable {crypto : Crypto} {secretKey : SecretKey crypto} {data envelope plaintext : Bytes}
  {aad : Aad} {context : Context}

/-- What the cipher did in a successful `open`. A version 1 envelope hands it the data of the
caller as they are. -/
theorem cipher_of_open
    (opened : Envelope.open crypto secretKey data aad context = .ok plaintext) :
    ∃ key nonce part associated, aeadPart data = .ok part ∧
      crypto.aesGcmDecrypt key nonce part associated = some plaintext ∧
      ((∃ header kemCt,
          WireV2.associatedData header kemCt context.inner aad.inner = .ok associated) ∨
        associated = aad.inner) := by
  by_cases magic : WireV2.magic.isPrefixOf data = true
  · simp only [Envelope.open, decrypt, magic, if_true] at opened
    obtain ⟨parts, sharedSecret, transcript, associated, decoded, -, -, -, bound, decrypted, -⟩ :=
      WireV2.open_eq_ok opened
    refine ⟨_, _, parts.aeadCiphertext, associated, ?_, decrypted, Or.inl ⟨_, _, bound⟩⟩
    simp only [aeadPart, magic, if_true, decoded]
    rfl
  · have plain : WireV2.magic.isPrefixOf data = false := Bool.eq_false_iff.mpr magic
    obtain ⟨parts, sharedSecret, decoded, -, decrypted⟩ := (decrypt_v1_eq_ok plain).mp opened
    refine ⟨_, _, parts.aeadCiphertext, aad.inner, ?_, decrypted, Or.inr rfl⟩
    simp only [aeadPart, magic, decoded]
    rfl

variable {coins : SealCoins EncapsulationCoins} {publicKey : PublicKey} {tuple : AeadTuple}

/-- The decoder finds the ciphertext of the tuple in the envelope of the tuple. -/
theorem WireV2.decode_of_tuple {provider : KemProvider} {coins : SealCoins provider.Coins}
    {key : provider.PublicKey} {aad context : Bytes} {tuple : AeadTuple} (lawful : crypto.Lawful)
    (correct : provider.Lawful)
    (sealed : WireV2.seal crypto provider coins key plaintext aad context = .ok envelope)
    (produced : sealedTuple crypto provider coins key plaintext aad context = .ok tuple) :
    ∃ parts, decode envelope = .ok parts ∧ parts.aeadCiphertext = tuple.ciphertext := by
  obtain ⟨row, secret, encapsulatedCt, draft, nonce, aeadCt, transcript, bound,
    ⟨plaintextBound, -, -⟩, ⟨supported, agrees, small⟩, encapsulated, draftReads, -, -, drafted,
    whole⟩ := seal_eq_ok sealed
  obtain ⟨header, kemCt, reads, -, encrypted, -, assembled⟩ := seal_of_tuple sealed produced
  have aeadLength := lawful.aesGcmEncrypt_length _ _ _ _ _ encrypted
  have kemLength : kemCt.length = row.kemCiphertextBytes := by
    -- both ways of cutting the envelope have a header and a ciphertext of the same lengths
    have draftLength := lawful.aesGcmEncrypt_length _ _ _ _ _ drafted
    have encapsulatedLength := correct.encapsulate_length _ _ _ _ encapsulated
    have same := congrArg List.length (assembled.symm.trans whole)
    simp only [List.length_append, reads.lengthField, draftReads.lengthField] at same
    omega
  rw [← agrees] at reads small
  rw [assembled]
  exact ⟨_, decode_append supported small reads kemLength plaintextBound aeadLength, rfl⟩

variable {coins : SealCoins EncapsulationCoins} {publicKey : PublicKey} {tuple : AeadTuple}

/-- A sealed envelope carries the ciphertext that the cipher produced. -/
theorem aeadPart_of_seal (lawful : crypto.Lawful)
    (sealed : Envelope.seal crypto coins publicKey plaintext aad context = .ok envelope)
    (produced : WireV2.sealedTuple crypto (hybridX25519MlKem768Provider crypto) coins publicKey
      plaintext aad.inner context.inner = .ok tuple) : aeadPart envelope = .ok tuple.ciphertext := by
  have magic := List.isPrefixOf_iff_prefix.mpr (WireV2.seal_magic sealed)
  obtain ⟨parts, decoded, carried⟩ := WireV2.decode_of_tuple lawful
    (hybridX25519MlKem768Provider_lawful lawful) sealed produced
  rw [aeadPart, if_pos magic, decoded, ← carried]
  rfl

/-- The associated data of a version 2 envelope begin with their label. -/
theorem aadLabel_prefix {header kemCt aad context associated : Bytes}
    (bound : WireV2.associatedData header kemCt context aad = .ok associated) :
    WireV2.aadLabel <+: associated := by
  obtain ⟨-, -, -, -, rfl⟩ := WireV2.associatedData_eq_ok bound
  exact List.prefix_append _ _

/-- No envelope around the ciphertext of a sealed one opens for other data, unless the data
begin with the label of version 2. -/
theorem not_opens_for_other_data {other : Aad} {otherContext : Context} {stolen : Bytes}
    (asSealed : crypto.OpensAsSealed tuple)
    (sealed : Envelope.seal crypto coins publicKey plaintext aad context = .ok envelope)
    (produced : WireV2.sealedTuple crypto (hybridX25519MlKem768Provider crypto) coins publicKey
      plaintext aad.inner context.inner = .ok tuple)
    (different : other ≠ aad) (unlabelled : ¬ WireV2.aadLabel <+: other.inner)
    (carries : aeadPart data = .ok tuple.ciphertext) :
    Envelope.open crypto secretKey data other otherContext ≠ .ok stolen := by
  intro opened
  obtain ⟨header, kemCt, -, bound, -⟩ := WireV2.seal_of_tuple sealed produced
  obtain ⟨key, nonce, part, associated, found, decrypted, built⟩ := cipher_of_open opened
  obtain rfl : part = tuple.ciphertext := Except.ok.inj (found.symm.trans carries)
  obtain ⟨-, same⟩ := asSealed key nonce associated stolen decrypted
  rcases built with ⟨header', kemCt', bound'⟩ | legacy
  · -- version 2 binds the data of the caller
    rw [same] at bound'
    obtain ⟨-, -, -, sameData⟩ := WireV2.associatedData_inj bound' bound
    exact different (congrArg Aad.mk sameData)
  · -- version 1 hands over the data alone, which would have to be those of version 2
    apply unlabelled
    rw [← legacy, same]
    exact aadLabel_prefix bound

end

section Marking

/-- The place of a key and its associated data in a list, as a tag. -/
def mark (entries : List (SizedBytes 32 × Bytes)) (key : SizedBytes 32) (associated : Bytes) :
    Bytes :=
  List.replicate 16 (UInt8.ofNat (entries.idxOf (key, associated)))

/-- A backend whose cipher appends the mark of the key and the associated data and opens only
ciphertexts that end in it. -/
def marking (entries : List (SizedBytes 32 × Bytes)) : Crypto :=
  { transparent with
    x25519PublicKey := fun _ => .zeros 32
    aesGcmEncrypt := fun key _ message associated => some (message ++ mark entries key associated)
    aesGcmDecrypt := fun key _ ciphertext associated =>
      let message := ciphertext.take (ciphertext.length - 16)
      if ciphertext = message ++ mark entries key associated then some message else none }

/-- The associated data of a message that is sealed over such a backend. -/
def markedAssociated (length : Nat) (context aad : Bytes) : Bytes :=
  WireV2.aadLabel ++ (framed 2 (WireV2.headerFields suiteKemHybridX25519Mlkem768 kemCiphertextBytes
    length (.zeros 32) (.zeros 32)) ++ (framed 2 (List.replicate 1120 0) ++
      (framed 4 context ++ framed 4 aad)))

variable {entries : List (SizedBytes 32 × Bytes)}

theorem marking_lawful (entries : List (SizedBytes 32 × Bytes)) : (marking entries).Lawful where
  diffieHellman_comm _ _ := rfl
  mlkemAccepts_encapsulationKey _ := rfl
  mlkemDecapsulate_encapsulate _ _ := rfl
  mlkemFromExpandedBytes_toExpandedBytes _ := rfl
  aesGcmDecrypt_encrypt := by
    rintro key nonce message associated ciphertext ⟨⟩
    simp [marking, mark]
  aesGcmEncrypt_length := by
    rintro key nonce message associated ciphertext ⟨⟩
    simp [mark]

theorem marking_seals (entries : List (SizedBytes 32 × Bytes)) : (marking entries).Seals := by
  apply Crypto.seals_of_total (marking_lawful entries)
  · intro mine yours
    rfl
  · intro key nonce message associated
    exact ⟨_, rfl⟩

/-- What such a backend seals. -/
theorem marking_tuple {coins : SealCoins EncapsulationCoins} {key : PublicKey}
    {plaintext aad context : Bytes} {tuple : AeadTuple}
    (produced : WireV2.sealedTuple (marking entries)
      (hybridX25519MlKem768Provider (marking entries)) coins key plaintext aad context =
        .ok tuple) :
    tuple.key = .zeros 32 ∧ tuple.associated = markedAssociated plaintext.length context aad ∧
      tuple.ciphertext = plaintext ++ mark entries tuple.key tuple.associated := by
  obtain ⟨⟨secret, kemCt⟩, encapsulated, produced⟩ := Except.of_bind_eq_ok produced
  obtain ⟨draft, encoded, produced⟩ := Except.of_bind_eq_ok produced
  obtain ⟨transcript, -, produced⟩ := Except.of_bind_eq_ok produced
  obtain ⟨associated, bound, produced⟩ := Except.of_bind_eq_ok produced
  obtain ⟨⟨nonce, aeadCt⟩, encrypted, produced⟩ := Except.of_bind_eq_ok produced
  cases produced
  obtain ⟨-, ciphertext⟩ := aeadSeal_eq_ok encrypted
  obtain ⟨-, -, -, -, rfl⟩ := WireV2.associatedData_eq_ok bound
  obtain ⟨-, rfl⟩ := WireV2.encodeHeader_eq_ok encoded
  have header := (WireV2.headerReads suiteKemHybridX25519Mlkem768 kemCiphertextBytes
    plaintext.length (.zeros 32) (.zeros 32) (.zeros 12)).boundField
  have kem : kemCt = List.replicate 1120 0 := by
    cases encapsulated
    exact List.replicate_append_replicate
  refine ⟨rfl, ?_, (Option.some.inj ciphertext).symm⟩
  rw [markedAssociated, ← header, kem]
  rfl

/-- A listed message opens only as it was sealed. -/
theorem marking_opensAsSealed {tuple : AeadTuple} {plaintext : Bytes}
    (listed : (tuple.key, tuple.associated) ∈ entries) (short : entries.length < 256)
    (marked : tuple.ciphertext = plaintext ++ mark entries tuple.key tuple.associated) :
    (marking entries).OpensAsSealed tuple := by
  intro key nonce associated message opened
  simp only [marking] at opened
  split at opened
  · rename_i ends
    rw [marked] at ends
    have tags : mark entries tuple.key tuple.associated = mark entries key associated :=
      (List.append_inj' ends (by simp [mark])).2
    have places := (List.replicate_inj.mp tags).2.resolve_left (by decide)
    have bound : ∀ pair, entries.idxOf pair < 256 := fun pair =>
      List.idxOf_le_length.trans_lt short
    have same : entries.idxOf (tuple.key, tuple.associated) = entries.idxOf (key, associated) := by
      have numbers := congrArg UInt8.toNat places
      rwa [UInt8.toNat_ofNat_of_lt' (bound _), UInt8.toNat_ofNat_of_lt' (bound _)] at numbers
    have pairs := (List.idxOf_inj listed).mp same
    cases pairs
    exact ⟨rfl, rfl⟩
  · cases opened

end Marking

end Citadel.Envelope
