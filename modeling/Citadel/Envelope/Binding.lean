import Citadel.Envelope.Suites

/-!
# What an envelope binds

The cipher authenticates its key, nonce, associated data and ciphertext. The associated
data holds the header without its nonce, the KEM ciphertext, the context and the caller's
data, each behind its length, and the decoder leaves no byte of an envelope unread. So a
cipher that opens only what was sealed makes `open` accept only envelopes that `seal`
returned, for the same recipient, context and data.
-/

namespace Citadel.Envelope

/-- What the cipher authenticates. -/
structure AeadTuple where
  key : SizedBytes 32
  nonce : SizedBytes 12
  associated : Bytes
  ciphertext : Bytes
  deriving DecidableEq

/-- The cipher opens none but the given tuples. -/
def Crypto.OpensOnly (crypto : Crypto) (tuples : Set AeadTuple) : Prop :=
  ∀ key nonce ciphertext associated plaintext,
    crypto.aesGcmDecrypt key nonce ciphertext associated = some plaintext →
      ⟨key, nonce, associated, ciphertext⟩ ∈ tuples

/-- A slice that converts to an array is the bytes of that array. -/
theorem toSized_eq_ok {count : Nat} {bytes : Bytes} {sized : SizedBytes count}
    (converted : toSized count bytes = .ok sized) : bytes = sized.1 := by
  unfold toSized at converted
  split at converted
  · cases converted
    rfl
  · cases converted

/-- What a successful `aeadOpen` did. -/
theorem aeadOpen_eq_ok {crypto : Crypto} {key : SizedBytes 32} {nonce : SizedBytes 12}
    {ciphertext aad plaintext : Bytes}
    (opened : aeadOpen crypto key nonce ciphertext aad = .ok plaintext) :
    crypto.aesGcmDecrypt key nonce ciphertext aad = some plaintext := by
  unfold aeadOpen at opened
  split at opened
  · cases opened
  · rename_i found
    cases opened
    exact found

/-- Cutting a byte string in two places loses nothing. -/
theorem take_slice_drop (data : Bytes) {start stop : Nat} (ordered : start ≤ stop) :
    data.take start ++ slice data start stop ++ data.drop stop = data := by
  rw [List.append_assoc, slice_append_drop data ordered, List.take_append_drop]

/-- Encoded public keys of one suite are told apart by their bytes. -/
theorem Suite.publicKeyBytes_injective {crypto : Crypto} {nist : NistCrypto}
    (nistLawful : nist.Lawful) (suite : Suite) :
    Function.Injective (suite.provider crypto nist).publicKeyBytes := by
  cases suite with
  | hybridX25519MlKem768 =>
      rintro ⟨x25519, mlkem⟩ ⟨x25519', mlkem'⟩ same
      obtain ⟨exchange, encapsulation⟩ := List.append_inj same (by simp)
      obtain rfl := Subtype.ext exchange
      obtain rfl := Subtype.ext encapsulation
      rfl
  | hybridP384MlKem1024 =>
      rintro ⟨p384, mlkem⟩ ⟨p384', mlkem'⟩ same
      obtain ⟨exchange, encapsulation⟩ := List.append_inj same (by simp)
      have point : some p384 = some p384' := by
        rw [← nistLawful.fromSec1_toSec1 p384, exchange, nistLawful.fromSec1_toSec1 p384']
      obtain rfl := Option.some.inj point
      obtain rfl := nistLawful.mlkemToBytes_injective (Subtype.ext encapsulation)
      rfl

namespace WireV2

/-- The tuple that the cipher produces inside one `seal`. -/
def sealedTuple (crypto : Crypto) (provider : KemProvider) (coins : SealCoins provider.Coins)
    (key : provider.PublicKey) (plaintext aad context : Bytes) :
    Except EncodingError AeadTuple := do
  let (sharedSecret, kemCt) ← provider.encapsulate coins.encapsulation key
  let header ← encodeHeader provider plaintext.length (publicKeyHash crypto provider key)
    (contextHash crypto context) (SizedBytes.zeros 12)
  let transcript ← kdfTranscript header kemCt context
  let aesKey := deriveKey crypto sharedSecret transcript
  let boundAad ← associatedData header kemCt context aad
  let (nonce, aeadCt) ← aeadSeal crypto coins.nonce aesKey plaintext boundAad
  .ok ⟨aesKey, nonce, boundAad, aeadCt⟩

/-- A call of `seal` that returned an envelope. -/
structure Sealing (crypto : Crypto) (nist : NistCrypto) where
  suite : Suite
  coins : SealCoins (suite.provider crypto nist).Coins
  key : (suite.provider crypto nist).PublicKey
  plaintext : Bytes
  aad : Bytes
  context : Bytes
  envelope : Bytes
  returned : WireV2.seal crypto (suite.provider crypto nist) coins key plaintext aad context =
    .ok envelope

namespace Sealing

variable {crypto : Crypto} {nist : NistCrypto}

/-- The tuple of a call. -/
def tuple (sealing : Sealing crypto nist) : Except EncodingError AeadTuple :=
  sealedTuple crypto (sealing.suite.provider crypto nist) sealing.coins sealing.key
    sealing.plaintext sealing.aad sealing.context

/-- The encoded recipient of a call. -/
def keyBytes (sealing : Sealing crypto nist) : Bytes :=
  (sealing.suite.provider crypto nist).publicKeyBytes sealing.key

end Sealing

section

variable {crypto : Crypto} {provider : KemProvider}

/-- How the envelope of a call is put together from its tuple. -/
theorem seal_of_tuple {coins : SealCoins provider.Coins} {key : provider.PublicKey}
    {plaintext aad context envelope : Bytes} {tuple : AeadTuple}
    (sealed : WireV2.seal crypto provider coins key plaintext aad context = .ok envelope)
    (produced : sealedTuple crypto provider coins key plaintext aad context = .ok tuple) :
    ∃ header kemCt,
      HeaderReads header provider.suiteKem provider.kemCiphertextBytes plaintext.length
        (publicKeyHash crypto provider key) (contextHash crypto context) tuple.nonce ∧
      associatedData header kemCt context aad = .ok tuple.associated ∧
      crypto.aesGcmEncrypt tuple.key tuple.nonce plaintext tuple.associated =
        some tuple.ciphertext ∧
      header = header.take headerBoundLen ++ tuple.nonce.1 ∧
      envelope = header ++ kemCt ++ tuple.ciphertext := by
  obtain ⟨⟨secret, kemCt⟩, encapsulated, produced⟩ := Except.of_bind_eq_ok produced
  obtain ⟨draft, encoded, produced⟩ := Except.of_bind_eq_ok produced
  obtain ⟨transcript, transcribed, produced⟩ := Except.of_bind_eq_ok produced
  obtain ⟨associated, bound, produced⟩ := Except.of_bind_eq_ok produced
  obtain ⟨⟨nonce, aeadCt⟩, encrypted, produced⟩ := Except.of_bind_eq_ok produced
  cases produced
  obtain ⟨-, draftFields⟩ := encodeHeader_eq_ok encoded
  obtain ⟨-, ciphertext⟩ := aeadSeal_eq_ok encrypted
  have draftReads := headerReads provider.suiteKem provider.kemCiphertextBytes plaintext.length
    (publicKeyHash crypto provider key) (contextHash crypto context) (SizedBytes.zeros 12)
  rw [← draftFields] at draftReads
  have reads := headerReads provider.suiteKem provider.kemCiphertextBytes plaintext.length
    (publicKeyHash crypto provider key) (contextHash crypto context) nonce
  rw [← draftReads.boundField] at reads
  obtain ⟨same, lengths⟩ := patched_header nonce draftReads.lengthField
  refine ⟨draft.take headerBoundLen ++ nonce.1, kemCt, reads, ?_, ciphertext, ?_, ?_⟩
  · rw [← associatedData_congr same lengths]
    exact bound
  · rw [← same]
  · obtain ⟨-, sealed⟩ := Except.of_guard_eq_ok sealed
    simp only [bind, Except.bind, encapsulated, encoded, transcribed, bound, encrypted] at sealed
    obtain ⟨-, assembled⟩ := Except.of_guard_eq_ok sealed
    exact (Except.ok.inj assembled).symm

/-- Every call that returned an envelope has a tuple. -/
theorem tuple_of_seal {coins : SealCoins provider.Coins} {key : provider.PublicKey}
    {plaintext aad context envelope : Bytes}
    (sealed : WireV2.seal crypto provider coins key plaintext aad context = .ok envelope) :
    ∃ tuple, sealedTuple crypto provider coins key plaintext aad context = .ok tuple := by
  obtain ⟨-, sealed⟩ := Except.of_guard_eq_ok sealed
  obtain ⟨⟨secret, kemCt⟩, encapsulated, sealed⟩ := Except.of_bind_eq_ok sealed
  obtain ⟨draft, encoded, sealed⟩ := Except.of_bind_eq_ok sealed
  obtain ⟨transcript, transcribed, sealed⟩ := Except.of_bind_eq_ok sealed
  obtain ⟨associated, bound, sealed⟩ := Except.of_bind_eq_ok sealed
  obtain ⟨⟨nonce, aeadCt⟩, encrypted, -⟩ := Except.of_bind_eq_ok sealed
  simp only [sealedTuple, bind, Except.bind, encapsulated, encoded, transcribed, bound, encrypted]
  exact ⟨_, rfl⟩

/-- Where the bytes of a decoded envelope went: every one of them is in a part. -/
structure Decoded (data : Bytes) (parts : Parts) : Prop where
  whole : data = parts.header ++ parts.kemCiphertext ++ parts.aeadCiphertext
  header : parts.header = parts.header.take headerBoundLen ++ parts.nonce.1
  headerLength : parts.header.length = headerLen
  suite : byteAt parts.header 6 = parts.suite.suiteKem
  recipient : slice parts.header 22 54 = parts.recipientKeyHash.1

/-- The decoder leaves nothing out. -/
theorem decode_eq_ok {data : Bytes} {parts : Parts} (decoded : decode data = .ok parts) :
    Decoded data parts := by
  obtain ⟨long, decoded⟩ := Except.of_guard_eq_ok decoded
  obtain ⟨-, decoded⟩ := Except.of_guard_eq_ok decoded
  split at decoded
  · cases decoded
  · rename_i suite supported
    obtain ⟨-, decoded⟩ := Except.of_guard_eq_ok decoded
    obtain ⟨-, decoded⟩ := Except.of_guard_eq_ok decoded
    obtain ⟨-, decoded⟩ := Except.of_guard_eq_ok decoded
    obtain ⟨nonce, nonceRead, decoded⟩ := Except.of_bind_eq_ok decoded
    obtain ⟨recipient, recipientRead, decoded⟩ := Except.of_bind_eq_ok decoded
    cases decoded
    have headerLength : (data.take headerLen).length = headerLen := by
      simp only [minEnvelopeLenAnySuite] at long
      rw [List.length_take, Nat.min_eq_left (by omega)]
    refine ⟨(take_slice_drop data (Nat.le_add_right _ _)).symm, ?_, headerLength,
      (suiteParams_suiteKem supported).symm, toSized_eq_ok recipientRead⟩
    -- the nonce is what the header holds behind its bound part
    have rest : (data.take headerLen).drop headerLen = [] :=
      List.drop_eq_nil_of_le headerLength.le
    have cut := take_slice_drop (data.take headerLen) (show headerBoundLen ≤ headerLen by decide)
    rw [rest, List.append_nil] at cut
    rw [← toSized_eq_ok nonceRead]
    exact cut.symm

/-- Everything a successful `open` checked. -/
theorem open_eq_ok {key : provider.SecretKey} {envelope aad context plaintext : Bytes}
    (opened : WireV2.open crypto provider key envelope aad context = .ok plaintext) :
    ∃ parts sharedSecret transcript associated, decode envelope = .ok parts ∧
      parts.suite.suiteKem = provider.suiteKem ∧
      provider.decapsulate key parts.kemCiphertext = .ok sharedSecret ∧
      kdfTranscript parts.header parts.kemCiphertext context = .ok transcript ∧
      associatedData parts.header parts.kemCiphertext context aad = .ok associated ∧
      crypto.aesGcmDecrypt (deriveKey crypto sharedSecret transcript) parts.nonce
        parts.aeadCiphertext associated = some plaintext ∧
      parts.recipientKeyHash = publicKeyHash crypto provider (provider.publicKeyOf key) := by
  obtain ⟨-, opened⟩ := Except.of_guard_eq_ok opened
  obtain ⟨parts, decoded, opened⟩ := Except.of_bind_eq_ok opened
  obtain ⟨suite, opened⟩ := Except.of_guard_eq_ok opened
  obtain ⟨suppliedContextHash, -, opened⟩ := Except.of_bind_eq_ok opened
  obtain ⟨-, opened⟩ := Except.of_guard_eq_ok opened
  obtain ⟨sharedSecret, agreed, opened⟩ := Except.of_bind_eq_ok opened
  obtain ⟨transcript, transcribed, opened⟩ := Except.of_bind_eq_ok opened
  obtain ⟨associated, bound, opened⟩ := Except.of_bind_eq_ok opened
  obtain ⟨message, decrypted, opened⟩ := Except.of_bind_eq_ok opened
  obtain ⟨-, opened⟩ := Except.of_guard_eq_ok opened
  obtain ⟨recipient, opened⟩ := Except.of_guard_eq_ok opened
  cases opened
  exact ⟨parts, sharedSecret, transcript, associated, decoded, not_not.mp suite, agreed,
    Except.of_mapError_eq_ok transcribed, Except.of_mapError_eq_ok bound,
    aeadOpen_eq_ok decrypted, not_not.mp recipient⟩

/-- An envelope whose parts make up the tuple of a call is what the call returned. -/
theorem eq_of_tuple {data : Bytes} {parts : Parts} (parsed : Decoded data parts)
    {aad context associated : Bytes}
    (bound : associatedData parts.header parts.kemCiphertext context aad = .ok associated)
    {coins : SealCoins provider.Coins} {key : provider.PublicKey} {aesKey : SizedBytes 32}
    {plaintext aad' context' envelope : Bytes}
    (returned : WireV2.seal crypto provider coins key plaintext aad' context' = .ok envelope)
    (produced : sealedTuple crypto provider coins key plaintext aad' context' =
      .ok ⟨aesKey, parts.nonce, associated, parts.aeadCiphertext⟩) :
    HeaderReads parts.header provider.suiteKem provider.kemCiphertextBytes plaintext.length
        (publicKeyHash crypto provider key) (contextHash crypto context') parts.nonce ∧
      crypto.aesGcmEncrypt aesKey parts.nonce plaintext associated = some parts.aeadCiphertext ∧
      context' = context ∧ aad' = aad ∧ envelope = data := by
  obtain ⟨header, kemCt, reads, sealedBound, encrypted, patched, assembled⟩ :=
    seal_of_tuple returned produced
  -- equal associated data: the same bound header, KEM ciphertext, context and caller data
  obtain ⟨headers, rfl, rfl, rfl⟩ := associatedData_inj bound sealedBound
  have sameHeader : parts.header = header := by rw [parsed.header, patched, headers]
  refine ⟨sameHeader ▸ reads, encrypted, rfl, rfl, ?_⟩
  rw [parsed.whole, assembled, sameHeader]

end

/-- An envelope that opens was returned by a `seal` to the opener's own public key, of the
same suite, with the same caller data, context and plaintext. The recipient is known by the
hash of its key, so the keys that were sealed to are told apart by their hashes. -/
theorem open_only_sealed (crypto : Crypto) (nist : NistCrypto) (lawful : crypto.Lawful)
    (nistLawful : nist.Lawful) (log : Set (Sealing crypto nist))
    (ideal : crypto.OpensOnly {tuple | ∃ sealing ∈ log, sealing.tuple = .ok tuple})
    (suite : Suite) (secretKey : (suite.provider crypto nist).SecretKey)
    (collisionFree : ∀ sealing ∈ log,
      crypto.sha3_256 sealing.keyBytes = publicKeyHash crypto (suite.provider crypto nist)
        ((suite.provider crypto nist).publicKeyOf secretKey) →
      sealing.keyBytes = (suite.provider crypto nist).publicKeyBytes
        ((suite.provider crypto nist).publicKeyOf secretKey))
    (envelope aad context plaintext : Bytes)
    (opened : WireV2.open crypto (suite.provider crypto nist) secretKey envelope aad context =
      .ok plaintext) :
    ∃ coins returned,
      (⟨suite, coins, (suite.provider crypto nist).publicKeyOf secretKey, plaintext, aad, context,
        envelope, returned⟩ : Sealing crypto nist) ∈ log := by
  obtain ⟨parts, sharedSecret, transcript, associated, decoded, identifier, -, -, bound, decrypted,
    recipient⟩ := open_eq_ok opened
  obtain ⟨⟨suite', coins, key, plaintext', aad', context', envelope', returned⟩, logged, produced⟩ :=
    ideal _ _ _ _ _ decrypted
  have parsed := decode_eq_ok decoded
  obtain ⟨reads, encrypted, rfl, rfl, rfl⟩ := eq_of_tuple parsed bound returned produced
  -- the header names the suite and the recipient
  have sameSuite : (suite.provider crypto nist).suiteKem =
      (suite'.provider crypto nist).suiteKem := by
    rw [← identifier, ← parsed.suite, reads.suiteKemField]
  obtain rfl := Suite.suiteKem_injective sameSuite
  have sameHash : publicKeyHash crypto (suite.provider crypto nist) key =
      publicKeyHash crypto (suite.provider crypto nist)
        ((suite.provider crypto nist).publicKeyOf secretKey) := by
    apply Subtype.ext
    rw [← reads.recipientHashField, ← recipient, ← parsed.recipient]
  have sameKey := suite.publicKeyBytes_injective nistLawful (collisionFree _ logged sameHash)
  have samePlaintext : plaintext' = plaintext := by
    have undone := lawful.aesGcmDecrypt_encrypt _ _ _ _ _ encrypted
    exact Option.some.inj (undone.symm.trans decrypted)
  subst samePlaintext sameKey
  exact ⟨coins, returned, logged⟩

end WireV2

/-! ### One sealed message -/

/-- The associated data of a one-byte message to the transparent recipient. -/
def loneAssociated : Bytes :=
  WireV2.aadLabel ++ (framed 2 (WireV2.headerFields suiteKemHybridX25519Mlkem768 kemCiphertextBytes
    1 (.zeros 32) (.zeros 32)) ++ (framed 2 (List.replicate 1120 0) ++ (framed 4 [] ++ framed 4 [])))

/-- A backend whose cipher takes the given messages, each with its key, nonce and associated
data, and opens only these. -/
def registry (entries : List (SizedBytes 32 × SizedBytes 12 × Bytes × Bytes)) : Crypto :=
  { transparent with
    aesGcmEncrypt := fun key nonce message associated =>
      if (key, nonce, message, associated) ∈ entries then some (message ++ List.replicate 16 0)
      else none
    aesGcmDecrypt := fun key nonce ciphertext associated =>
      let message := ciphertext.take (ciphertext.length - 16)
      if (key, nonce, message, associated) ∈ entries ∧
          ciphertext = message ++ List.replicate 16 0 then some message
      else none }

section Registry

variable {entries : List (SizedBytes 32 × SizedBytes 12 × Bytes × Bytes)} {key : SizedBytes 32}
  {nonce : SizedBytes 12} {message associated ciphertext : Bytes}

theorem registry_encrypts (entered : (key, nonce, message, associated) ∈ entries) :
    (registry entries).aesGcmEncrypt key nonce message associated =
      some (message ++ List.replicate 16 0) := if_pos entered

theorem registry_encrypt
    (encrypted : (registry entries).aesGcmEncrypt key nonce message associated = some ciphertext) :
    (key, nonce, message, associated) ∈ entries ∧ ciphertext = message ++ List.replicate 16 0 := by
  simp only [registry] at encrypted
  split at encrypted
  · rename_i entered
    exact ⟨entered, (Option.some.inj encrypted).symm⟩
  · cases encrypted

theorem registry_decrypt
    (decrypted : (registry entries).aesGcmDecrypt key nonce ciphertext associated = some message) :
    (key, nonce, message, associated) ∈ entries ∧ ciphertext = message ++ List.replicate 16 0 := by
  simp only [registry] at decrypted
  split at decrypted
  · rename_i holds
    rw [Option.some.inj decrypted] at holds
    exact holds
  · cases decrypted

theorem registry_lawful (entries : List (SizedBytes 32 × SizedBytes 12 × Bytes × Bytes)) :
    (registry entries).Lawful where
  diffieHellman_comm _ _ := rfl
  mlkemAccepts_encapsulationKey _ := rfl
  mlkemDecapsulate_encapsulate _ _ := rfl
  mlkemFromExpandedBytes_toExpandedBytes _ := rfl
  aesGcmDecrypt_encrypt := by
    intro key nonce message associated ciphertext encrypted
    obtain ⟨entered, rfl⟩ := registry_encrypt encrypted
    simp [registry, entered]
  aesGcmEncrypt_length := by
    intro key nonce message associated ciphertext encrypted
    obtain ⟨-, rfl⟩ := registry_encrypt encrypted
    simp

end Registry

/-- The backend that takes one message. -/
def lone : Crypto := registry [(.zeros 32, .zeros 12, [7], loneAssociated)]

theorem lone_lawful : lone.Lawful := registry_lawful _

/-- The recipient of the message. -/
def loneKey : SecretKey lone := ⟨.zeros 32, SizedBytes.zeros 2400⟩

/-- The message is sealed. -/
theorem lone_sealed :
    ∃ envelope, WireV2.seal lone (hybridX25519MlKem768Provider lone)
      ⟨⟨.zeros 32, .zeros 32⟩, some (.zeros 12)⟩ loneKey.publicKey [7] [] [] = .ok envelope := by
  have small : (hybridX25519MlKem768Provider lone).kemCiphertextBytes < 2 ^ 16 :=
    show kemCiphertextBytes < 2 ^ 16 by decide
  have encapsulated : (hybridX25519MlKem768Provider lone).encapsulate ⟨.zeros 32, .zeros 32⟩
      loneKey.publicKey = .ok ((filled 32 1).1 ++ (SizedBytes.zeros 32).1,
        (SizedBytes.zeros 32).1 ++ (SizedBytes.zeros 1088).1) := rfl
  apply WireV2.seal_succeeds lone_lawful (hybridX25519MlKem768Provider_lawful lone_lawful) rfl rfl
    small (by decide) (by decide) (by decide) encapsulated rfl
  intro transcript associated bound
  obtain ⟨-, -, -, -, rfl⟩ := WireV2.associatedData_eq_ok bound
  have header : (WireV2.draftHeader lone (hybridX25519MlKem768Provider lone) loneKey.publicKey [7]
      []).take WireV2.headerBoundLen = WireV2.headerFields suiteKemHybridX25519Mlkem768
        kemCiphertextBytes 1 (.zeros 32) (.zeros 32) := (WireV2.headerReads _ _ _ _ _ _).boundField
  have kemCt : (SizedBytes.zeros 32).1 ++ (SizedBytes.zeros 1088).1 =
      List.replicate 1120 (0 : UInt8) := List.replicate_append_replicate
  rw [header, kemCt]
  exact ⟨_, registry_encrypts List.mem_cons_self⟩

/-- The message opens, and its call is in the log. -/
theorem WireV2.lone_open_sealed :
    ∃ sealing : Sealing lone transparentNist,
      WireV2.open lone (hybridX25519MlKem768Provider lone) loneKey sealing.envelope [] [] =
        .ok [7] ∧
      ∃ coins returned, (⟨.hybridX25519MlKem768, coins, loneKey.publicKey, [7], [], [],
        sealing.envelope, returned⟩ : Sealing lone transparentNist) ∈
          ({sealing} : Set (Sealing lone transparentNist)) := by
  obtain ⟨envelope, sealed⟩ := lone_sealed
  have opened := open_seal lone_lawful (hybridX25519MlKem768Provider_lawful lone_lawful) sealed
  refine ⟨⟨.hybridX25519MlKem768, _, _, _, _, _, envelope, sealed⟩, opened, ?_⟩
  apply open_only_sealed lone transparentNist lone_lawful transparentNist_lawful _ ?_
    .hybridX25519MlKem768 loneKey ?_ envelope [] [] [7] opened
  · intro key nonce ciphertext associated plaintext decrypted
    obtain ⟨⟨key', nonce', associated', ciphertext'⟩, produced⟩ := tuple_of_seal sealed
    obtain ⟨-, -, -, -, encrypted, -, -⟩ := seal_of_tuple sealed produced
    obtain ⟨entered, rfl⟩ := registry_encrypt encrypted
    obtain ⟨held, rfl⟩ := registry_decrypt decrypted
    simp only [List.mem_singleton, Prod.mk.injEq] at entered held
    obtain ⟨rfl, rfl, -, rfl⟩ := entered
    obtain ⟨rfl, rfl, rfl, rfl⟩ := held
    exact ⟨_, rfl, produced⟩
  · rintro sealing rfl -
    rfl

end Citadel.Envelope
