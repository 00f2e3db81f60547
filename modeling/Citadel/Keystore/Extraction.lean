import Citadel.Data.Delimited
import Citadel.Envelope.Opening
import Citadel.Keystore.KeyFile
import Citadel.Keystore.RoundTrip

/-!
# Wrapped keys cannot be decrypted as user data

A child key is sealed to the same parent key pair as user data, and `decrypt` does not look at
the type of a key. What keeps the two apart is what they are sealed with: the associated data
of user data begin with the identifier of a domain and contain a colon, those of a wrapped key
are one fixed text. So over a cipher that opens a ciphertext only as it was sealed, nothing
that `decrypt` returns comes out of the ciphertext of a wrapped key.
-/

namespace Citadel

open Envelope Program Keystore

/-- User data are never sealed with the associated data of wrapped keys. -/
theorem domainBoundAad_ne_hierarchyWrapAad (domainId : KeyId) (aad : Aad) :
    domainBoundAad domainId aad ≠ hierarchyWrapAad := by
  intro same
  have colon : (58 : UInt8) ∈ (domainBoundAad domainId aad).inner :=
    List.mem_append_left _ (List.mem_append_right _ (by decide))
  rw [same] at colon
  exact absurd colon (by decide)

theorem KeyId.generate_toList_length (random : SizedBytes 16) :
    (KeyId.generate random).text.toList.length = 32 := by
  simp [KeyId.generate, hexEncode]

/-- The context of a wrapped key names the child, its version and the parent. -/
theorem hierarchyWrapContext_inj {random random' : SizedBytes 16} {version version' : Nat}
    {parentId parentId' : String}
    (same : hierarchyWrapContext (.generate random) version parentId =
      hierarchyWrapContext (.generate random') version' parentId') :
    KeyId.generate random = KeyId.generate random' ∧ version = version' ∧ parentId = parentId' := by
  have texts := congrArg String.toList (utf8_injective (congrArg Context.inner same))
  simp only [String.toList_append, List.append_assoc, toString] at texts
  have rest := List.append_cancel_left (List.append_cancel_left texts)
  -- both identifiers are 32 digits, and a number contains no bar
  obtain ⟨ids, rest⟩ := List.append_inj rest (by simp only [KeyId.generate_toList_length])
  obtain ⟨numbers, parents⟩ := separated_inj (bar_not_mem_decimal version)
    (bar_not_mem_decimal version') (List.append_cancel_left rest)
  exact ⟨congrArg KeyId.mk (String.toList_injective ids), decimal_text_inj numbers,
    String.toList_injective parents⟩

/-- The label of version 2 is not how an identifier begins. -/
theorem aadLabel_ne_front (random : SizedBytes 16) (aad : Aad) :
    ¬ WireV2.aadLabel <+: (domainBoundAad (.generate random) aad).inner := by
  rintro ⟨rest, same⟩
  have front : utf8 (KeyId.generate random).text = hexBytes random.1 := utf8_hexEncode _
  have long : 2 ≤ (hexBytes random.1).length := by simp
  have letters := congrArg (List.take 2) same
  simp only [domainBoundAad, Aad.raw, front, List.append_assoc] at letters
  rw [List.take_append_of_le_length (by decide), List.take_append_of_le_length long] at letters
  have member : (105 : UInt8) ∈ hexBytes random.1 :=
    List.mem_of_mem_take (letters ▸ (by decide : (105 : UInt8) ∈ WireV2.aadLabel.take 2))
  obtain ⟨value, small, digit⟩ := mem_hexBytes member
  exact absurd digit (by revert value; decide)

namespace Keystore

/-- The domain that a key resolves to is stored. -/
theorem ResolvesTo.found {keys : Keys} {left : Nat} {current domainId : KeyId}
    (resolves : ResolvesTo keys left current domainId) :
    ∃ domain, keys.find? domainId = some domain := by
  induction resolves with
  | domain found isDomain => exact ⟨_, found⟩
  | parent found below notRoot child resolves ih => exact ih

/-- A stored version that is sealed to its parent, with the secret, the envelope and what the
cipher produced for it. -/
inductive SealedIn (ks : Keystore) (keys : Keys) (id : KeyId) (version : KeyVersion)
    (secret envelope : Bytes) (tuple : AeadTuple) : Prop where
  | intro {record : KeyMetadata} {parentId : KeyId} {coins : SealCoins EncapsulationCoins}
      {key : PublicKey} (found : keys.find? id = some record)
      (member : version ∈ record.versions)
      (material : version.secretKeyMaterial = .citadelWrapped ("ckw:" ++ hexEncode envelope))
      (wrappedBy : version.wrappingKeyId = some parentId.text)
      (sealed : Envelope.seal ks.crypto coins key secret hierarchyWrapAad
        (hierarchyWrapContext id version.version parentId.text) = .ok envelope)
      (produced : WireV2.sealedTuple ks.crypto (hybridX25519MlKem768Provider ks.crypto) coins key
        secret hierarchyWrapAad.inner
        (hierarchyWrapContext id version.version parentId.text).inner = .ok tuple)

variable {ks : Keystore} {keys : Keys} {id : KeyId} {version : KeyVersion}
  {secret envelope : Bytes} {tuple : AeadTuple}

/-- The secret that a sealed version holds is in its envelope. -/
theorem Holds.sealedIn (holds : Holds ks keys id version secret) {record : KeyMetadata}
    {text : String} (found : keys.find? id = some record) (member : version ∈ record.versions)
    (material : version.secretKeyMaterial = .citadelWrapped text) :
    ∃ envelope tuple, SealedIn ks keys id version secret envelope tuple := by
  cases holds with
  | master wrappedBy wraps =>
      rw [material] at wraps
      cases wraps
  | sealed wrappedBy wrappedAt parentFound sealing lookup stores seals =>
      obtain ⟨coins, envelope, sealed, wrapped⟩ := seals
      obtain ⟨tuple, produced⟩ := WireV2.tuple_of_seal sealed
      exact ⟨envelope, tuple, .intro found member wrapped wrappedBy sealed produced⟩

/-- All secrets that seal to one stored envelope have one length. -/
theorem SealedIn.length_eq (lawful : ks.crypto.Lawful) {other otherEnvelope : Bytes}
    {otherTuple : AeadTuple} (left : SealedIn ks keys id version secret envelope tuple)
    (right : SealedIn ks keys id version other otherEnvelope otherTuple) :
    secret.length = other.length := by
  obtain ⟨-, -, leftMaterial, -, leftSealed, leftProduced⟩ := left
  obtain ⟨-, -, rightMaterial, -, rightSealed, rightProduced⟩ := right
  obtain rfl : envelope = otherEnvelope := by
    have texts := SecretKeyMaterial.citadelWrapped.inj (leftMaterial.symm.trans rightMaterial)
    have digits : hexBytes envelope = hexBytes otherEnvelope := by
      have bytes := congrArg utf8 texts
      simpa using bytes
    have decoded := congrArg hexDecode digits
    simpa only [hexDecode_hexBytes, Except.ok.injEq] using decoded
  have leftPart := aeadPart_of_seal lawful leftSealed leftProduced
  have rightPart := aeadPart_of_seal lawful rightSealed rightProduced
  have same : tuple.ciphertext = otherTuple.ciphertext :=
    Except.ok.inj (leftPart.symm.trans rightPart)
  obtain ⟨-, -, -, -, leftEncrypted, -, -⟩ := WireV2.seal_of_tuple leftSealed leftProduced
  obtain ⟨-, -, -, -, rightEncrypted, -, -⟩ := WireV2.seal_of_tuple rightSealed rightProduced
  have leftLength := lawful.aesGcmEncrypt_length _ _ _ _ _ leftEncrypted
  have rightLength := lawful.aesGcmEncrypt_length _ _ _ _ _ rightEncrypted
  rw [same] at leftLength
  omega

/-- What a decryption returns comes out of another ciphertext. -/
theorem SealedIn.not_decrypts (sealedIn : SealedIn ks keys id version secret envelope tuple)
    (asSealed : ks.crypto.OpensAsSealed tuple) {world : World} (all : AllStorable world.keys)
    {env : Env} {blob : EncryptedBlob} {aad : Aad} {context : Context} {plaintext : Bytes}
    (decrypts : Decrypts ks env world blob aad context plaintext) :
    ∃ ciphertext part domainId secretKey, hexDecode (utf8 blob.ciphertextHex) = .ok ciphertext ∧
      aeadPart ciphertext = .ok part ∧ part ≠ tuple.ciphertext ∧
      Envelope.open ks.crypto secretKey ciphertext (domainBoundAad domainId aad) context =
        .ok plaintext := by
  obtain ⟨-, -, -, -, decodes, -, resolves, -, -, -, opens⟩ := decrypts
  rename_i ciphertext domainId nonce skBytes key
  obtain ⟨-, -, -, -, sealed, produced⟩ := sealedIn
  obtain ⟨-, -, part, -, carries, -, -⟩ := cipher_of_open opens
  refine ⟨ciphertext, part, domainId, key, decodes, carries, ?_, opens⟩
  rintro rfl
  -- the domain of a key is a stored key, so its identifier is hexadecimal
  obtain ⟨domain, found⟩ := resolves.found
  obtain ⟨random, generated⟩ := (all _ _ found).generated
  obtain rfl : domainId = .generate random := (Table.key_of_find? found).symm.trans generated
  exact not_opens_for_other_data asSealed sealed produced
    (domainBoundAad_ne_hierarchyWrapAad _ aad) (aadLabel_ne_front random aad) carries opens

/-- No blob opens the ciphertext that holds a wrapped child key. The associated data of user
data are never those of a wrapped key, the context of a wrapped key names the child, its
version and the parent, and whatever a decryption returns, now or in any later state, comes
out of a ciphertext that wraps no key. -/
theorem wrapped_key_not_extracted (ks : Keystore) (lawful : ks.crypto.Lawful) (world : World)
    (reachable : Reachable ks anyStep world)
    (asSealed : ∀ id version secret envelope tuple,
      SealedIn ks world.keys id version secret envelope tuple → ks.crypto.OpensAsSealed tuple) :
    (∀ domainId aad, domainBoundAad domainId aad ≠ hierarchyWrapAad) ∧
      (∀ random random' version version' parentId parentId',
        hierarchyWrapContext (.generate random) version parentId =
            hierarchyWrapContext (.generate random') version' parentId' →
          KeyId.generate random = KeyId.generate random' ∧ version = version' ∧
            parentId = parentId') ∧
      ∀ id record version text, world.keys.find? id = some record → version ∈ record.versions →
        version.secretKeyMaterial = .citadelWrapped text →
        ∃ secret envelope tuple, Holds ks world.keys id version secret ∧
          SealedIn ks world.keys id version secret envelope tuple ∧
          aeadPart envelope = .ok tuple.ciphertext ∧
          ∀ later, Reaches ks anyStep world later → ∀ now env blob aad context plaintext after,
            (ks.decrypt blob aad context).run (handle env) { later with now := now } =
                (.ok plaintext, after) →
            ∃ ciphertext part domainId secretKey,
              hexDecode (utf8 blob.ciphertextHex) = .ok ciphertext ∧
              aeadPart ciphertext = .ok part ∧ part ≠ tuple.ciphertext ∧
              Envelope.open ks.crypto secretKey ciphertext (domainBoundAad domainId aad) context =
                .ok plaintext := by
  refine ⟨domainBoundAad_ne_hierarchyWrapAad, ?_, ?_⟩
  · intro random random' version version' parentId parentId' same
    exact hierarchyWrapContext_inj same
  · intro id record version text found member material
    obtain ⟨sound, emptied⟩ := reachable.sound lawful
    have live : record.state ≠ .destroyed := by
      intro destroyed
      have gone := emptied id record found destroyed version member
      rw [material] at gone
      cases gone
    obtain ⟨secret, holds, -⟩ := sound id record found live version member
    obtain ⟨envelope, tuple, sealedIn⟩ := holds.sealedIn found member material
    have opens := asSealed id version secret envelope tuple sealedIn
    refine ⟨secret, envelope, tuple, holds, sealedIn, ?_, ?_⟩
    · obtain ⟨-, -, -, -, sealed, produced⟩ := sealedIn
      exact aeadPart_of_seal lawful sealed produced
    · intro later reaches now env blob aad context plaintext after ran
      have all : AllStorable later.keys := by
        apply reaches.keys_invariant AllStorable ?_ reachable.allStorable
        intro step seen keys written _ _ stored mayWrite
        exact mayWrite.allStorable stored
      have did : Decrypts ks env { later with now := now } blob aad context plaintext :=
        decrypts_of_run ran
      apply sealedIn.not_decrypts opens ?_ did
      exact all

end Keystore

/-! ### A line of keys over a marking cipher -/

section Marking

variable {keys : Keys} {id : KeyId} {version : KeyVersion} {secret envelope : Bytes}
  {tuple : AeadTuple}

/-- What the cipher authenticates when the key with a number is sealed to its parent. -/
def wrapEntry (child parent : Nat) : SizedBytes 32 × Bytes :=
  (.zeros 32, markedAssociated kemSecretKeyBytes
    (hierarchyWrapContext (keyNumbered child) 1 (keyNumbered parent).text).inner
    hierarchyWrapAad.inner)

/-- The keystore whose cipher tells the two sealed keys of a line from everything else. -/
def markingKeystore : Keystore := ⟨marking [wrapEntry 2 1, wrapEntry 3 2], none, fun _ => none⟩

theorem markingKeystore_growable : Growable markingKeystore where
  lawful := marking_lawful _
  seals := marking_seals _
  unset := rfl

/-- What the cipher authenticated for a planted key pair is known from the plan. -/
theorem Keystore.SealedIn.wrapEntry (sound : Sound markingKeystore keys) {n m : Nat} {entry : Planting}
    {record : KeyMetadata} {planted : KeyVersion} (holds : Planted n entry record planted)
    (found : keys.find? (keyNumbered n) = some record) (live : entry.state ≠ .destroyed)
    (kem : entry.keyType ≠ .signing) (sealer : entry.sealer = some m)
    (sealedIn : SealedIn markingKeystore keys (keyNumbered n) version secret envelope tuple) :
    (tuple.key, tuple.associated) = Citadel.wrapEntry n m := by
  have whole := sealedIn
  obtain ⟨stored, member, material, wrappedBy, sealed, produced⟩ := sealedIn
  obtain rfl := Option.some.inj (found.symm.trans stored)
  obtain rfl : version = planted := by simpa [holds.versions] using member
  have length : secret.length = kemSecretKeyBytes := by
    obtain ⟨other, held, pair⟩ := sound _ record found (holds.state ▸ live) version member
    obtain ⟨key, rfl, -⟩ := pair (holds.keyType ▸ kem)
    obtain ⟨otherEnvelope, otherTuple, also⟩ := held.sealedIn found member material
    rw [whole.length_eq markingKeystore_growable.lawful also, SecretKey.toBytes_length]
  have parent := holds.wrappedBy.symm.trans wrappedBy
  rw [sealer] at parent
  obtain ⟨zeroKey, associated, -⟩ := marking_tuple produced
  rw [zeroKey, associated, length, holds.number, ← Option.some.inj parent]
  rfl

/-- The sealed keys of a line are the two below its domain. -/
theorem Grove.wrapEntry_mem (sound : Sound markingKeystore keys)
    (grove : Grove keys (line .active .active .active .active))
    (sealedIn : SealedIn markingKeystore keys id version secret envelope tuple) :
    (tuple.key, tuple.associated) ∈ [wrapEntry 2 1, wrapEntry 3 2] := by
  obtain ⟨record, found⟩ : ∃ record, keys.find? id = some record := by
    obtain ⟨found, -, -, -, -, -⟩ := sealedIn
    exact ⟨_, found⟩
  obtain ⟨n, within, rfl⟩ := grove.named id record found
  have unsealed : ∀ entry planted, Planted n entry record planted → entry.sealer ≠ none := by
    intro entry planted holds noSealer
    obtain ⟨stored, member, -, wrappedBy, -, -⟩ := sealedIn
    obtain rfl := Option.some.inj (found.symm.trans stored)
    obtain rfl : version = planted := by simpa [holds.versions] using member
    rw [holds.wrappedBy, noSealer] at wrappedBy
    cases wrappedBy
  obtain ⟨entry, place⟩ : ∃ entry, (line .active .active .active .active)[n]? = some entry :=
    ⟨_, List.getElem?_eq_getElem within⟩
  obtain ⟨planted, first, present, holds⟩ := grove.planted n entry place
  obtain rfl : planted = record := Option.some.inj (present.symm.trans found)
  obtain rfl | rfl | rfl | rfl : n = 0 ∨ n = 1 ∨ n = 2 ∨ n = 3 := by
    have four : n < 4 := within
    omega
  · obtain rfl := Option.some.inj place
    exact absurd rfl (unsealed _ _ holds)
  · obtain rfl := Option.some.inj place
    exact absurd rfl (unsealed _ _ holds)
  · obtain rfl := Option.some.inj place
    rw [sealedIn.wrapEntry sound holds found KeyState.noConfusion KeyType.noConfusion rfl]
    exact List.mem_cons_self
  · obtain rfl := Option.some.inj place
    rw [sealedIn.wrapEntry sound holds found KeyState.noConfusion KeyType.noConfusion rfl]
    exact List.mem_cons_of_mem _ List.mem_cons_self

/-- The sealed keys of a line open only as they were sealed. -/
theorem Grove.opensAsSealed (sound : Sound markingKeystore keys)
    (grove : Grove keys (line .active .active .active .active))
    (sealedIn : SealedIn markingKeystore keys id version secret envelope tuple) :
    markingKeystore.crypto.OpensAsSealed tuple := by
  have listed := grove.wrapEntry_mem sound sealedIn
  obtain ⟨-, -, -, -, sealed, produced⟩ := sealedIn
  obtain ⟨-, -, marked⟩ := marking_tuple produced
  exact marking_opensAsSealed listed (by decide) marked

/-- The key-encrypting key of a line is sealed to the domain. -/
theorem Grove.sealedKek (sound : Sound markingKeystore keys)
    (grove : Grove keys (line .active .active .active .active)) :
    ∃ record version secret text, keys.find? (keyNumbered 2) = some record ∧
      version ∈ record.versions ∧ version.secretKeyMaterial = .citadelWrapped text ∧
      Holds markingKeystore keys (keyNumbered 2) version secret ∧
      secret.length ≤ WireV2.maxPlaintextLen := by
  obtain ⟨record, version, found, planted⟩ := grove.planted 2 _ rfl
  obtain ⟨secret, holds, fits⟩ :=
    planted.secret sound found KeyState.noConfusion KeyType.noConfusion
  have held := holds
  cases holds with
  | master wrappedBy wraps =>
      rw [planted.wrappedBy] at wrappedBy
      cases wrappedBy
  | sealed wrappedBy wrappedAt parentFound sealing lookup stores seals =>
      obtain ⟨coins, envelope, sealed, wrapped⟩ := seals
      exact ⟨record, version, secret, _, found, by simp [planted.versions], wrapped, held, fits⟩

/-- The envelope of a key-encrypting key is refused as a blob. -/
theorem sealed_kek_refused :
    ∃ world record version envelope, Reachable markingKeystore anyStep world ∧
      world.keys.find? (keyNumbered 2) = some record ∧ version ∈ record.versions ∧
      version.secretKeyMaterial = .citadelWrapped ("ckw:" ++ hexEncode envelope) ∧
      ∀ now env blob aad context plaintext after,
        hexDecode (utf8 blob.ciphertextHex) = .ok envelope →
          (markingKeystore.decrypt blob aad context).run (handle env) { world with now := now } ≠
            (.ok plaintext, after) := by
  obtain ⟨world, reachable, grove, -⟩ := exists_line markingKeystore_growable anyStep
    (.memory ⟨1, []⟩) .active .active .active .active (by decide) (fun _ _ _ _ _ _ _ => trivial)
  obtain ⟨sound, -⟩ := reachable.sound markingKeystore_growable.lawful
  obtain ⟨record, version, secret, text, found, member, material, -, -⟩ := grove.sealedKek sound
  obtain ⟨-, -, extracts⟩ := wrapped_key_not_extracted markingKeystore
    markingKeystore_growable.lawful world reachable
    (fun _ _ _ _ _ sealedIn => grove.opensAsSealed sound sealedIn)
  obtain ⟨held, envelope, tuple, -, sealedIn, carries, refuses⟩ :=
    extracts _ record version text found member material
  obtain ⟨-, -, wrapped, -, -, -⟩ := sealedIn
  refine ⟨world, record, version, envelope, reachable, found, member, wrapped, ?_⟩
  intro now env blob aad context plaintext after submitted ran
  obtain ⟨ciphertext, part, domainId, secretKey, decodes, also, different, -⟩ :=
    refuses world .refl now env blob aad context plaintext after ran
  obtain rfl := Except.ok.inj (submitted.symm.trans decodes)
  exact different (Except.ok.inj (also.symm.trans carries))

/-- The secret of a wrapped key that a caller has encrypted under a data key is decrypted for
them like any other plaintext. -/
theorem encrypted_secret_returned :
    ∃ world record version secret text blob after, Reachable markingKeystore anyStep world ∧
      (∀ id version secret envelope tuple,
        SealedIn markingKeystore world.keys id version secret envelope tuple →
          markingKeystore.crypto.OpensAsSealed tuple) ∧
      world.keys.find? (keyNumbered 2) = some record ∧ version ∈ record.versions ∧
      version.secretKeyMaterial = .citadelWrapped text ∧
      Holds markingKeystore world.keys (keyNumbered 2) version secret ∧
      (Call.encrypt (keyNumbered 3) secret ⟨[]⟩ ⟨[]⟩).run markingKeystore (quietEnv 4)
        { world with now := 0 } = (.ok (.blob blob), after) ∧
      ((Call.decrypt blob ⟨[]⟩ ⟨[]⟩).run markingKeystore (quietEnv 4) after).1 =
        .ok (.plaintext secret) := by
  obtain ⟨world, reachable, grove, unused⟩ := exists_line markingKeystore_growable anyStep
    (.memory ⟨1, []⟩) .active .active .active .active (by decide) (fun _ _ _ _ _ _ _ => trivial)
  obtain ⟨sound, emptied⟩ := reachable.sound markingKeystore_growable.lawful
  obtain ⟨kek, kekVersion, secret, text, kekFound, member, material, holds, fits⟩ :=
    grove.sealedKek sound
  obtain ⟨record, version, key, found, planted, stores⟩ :=
    grove.dataKey markingKeystore_growable sound
  obtain ⟨blob, first, resumes⟩ := planted.encrypt markingKeystore_growable stores
    { world with now := 0 } grove.resolves 4 secret ⟨[]⟩ ⟨[]⟩ fits (by decide) (by decide)
  have ran := resumes.run rfl found
  have encrypted : (Call.encrypt (keyNumbered 3) secret ⟨[]⟩ ⟨[]⟩).run markingKeystore (quietEnv 4)
      { world with now := 0 } = (.ok (.blob blob),
        { world with now := 0, keys := world.keys.insert (usedRecord record 0) }) := by
    rw [Call.run, Call.prog, run_bind, ran]
    rfl
  refine ⟨world, kek, kekVersion, secret, text, blob, _, reachable, ?_, kekFound, member, material,
    holds, encrypted, ?_⟩
  · intro id version secret envelope tuple sealedIn
    exact grove.opensAsSealed sound sealedIn
  · obtain ⟨stored, current, present, isCurrent, reads⟩ :=
      (Call.encrypts_of_run encrypted).decrypts_after_iff markingKeystore_growable.lawful sound
        emptied rfl (quietEnv_reliable 4) (slotFree_of_empty (by rw [unused]; rfl) blob)
    have own : (usedRecord record 0).id = keyNumbered 3 := planted.id
    rw [find?_insert_own own] at present
    cases present
    obtain rfl : version = current := Option.some.inj (planted.current.symm.trans isCurrent)
    rw [reads]
    apply grove.recoverable ?_ planted
    intro n above
    exact find?_insert_numbered own (by omega) (by decide) (by omega)

end Marking

end Citadel
