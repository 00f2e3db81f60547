import Citadel.Keystore.Signing
import Citadel.Keystore.Placement

/-!
# Signatures over rotations

A signature names the version that made it, and no later call changes the public key of a
version that is not destroyed. The version that signs is the first one of its key: every
rotation appends a key pair for encryption.
-/

namespace Citadel

open Envelope Program Keystore

variable {ks : Keystore} {keys : Keys} {world : World} {env : Env} {id : KeyId}
  {record : KeyMetadata} {version : KeyVersion} {message : Bytes}

/-- The public keys that a record stores after its first. -/
def laterKeys (record : KeyMetadata) : List String :=
  (record.versions.map KeyVersion.publicKeyHex).tail

/-- Every version but the first stores a public key for encryption. -/
def AppendsKem (keys : Keys) : Prop :=
  ∀ id record, keys.find? id = some record → record.state ≠ .destroyed →
    ∀ publicKeyHex ∈ laterKeys record, ∃ key : PublicKey, publicKeyHex = hexEncode key.toBytes

theorem publicKeys_updateVersion {number : Nat} {change : KeyVersion → KeyVersion}
    (keeps : ∀ version, (change version).publicKeyHex = version.publicKeyHex)
    (versions : List KeyVersion) :
    (updateVersion number change versions).map KeyVersion.publicKeyHex =
      versions.map KeyVersion.publicKeyHex := by
  induction versions with
  | nil => rfl
  | cons version rest ih =>
      rw [updateVersion]
      split
      · simp [keeps]
      · simp [ih]

/-- A rewrap keeps the public keys. -/
theorem laterKeys_rewrappedRecord (record : KeyMetadata) (now : Nat) (wrapped : Wrapped) :
    laterKeys (rewrappedRecord record now wrapped) = laterKeys record := by
  have keeps : ∀ version, (rewrappedVersion wrapped version).publicKeyHex = version.publicKeyHex :=
    fun _ => rfl
  exact congrArg List.tail (publicKeys_updateVersion keeps record.versions)

/-- A rotation appends one public key. -/
theorem mem_laterKeys_rotatedRecord {publicKeyHex : String} {now : Nat} {added : KeyVersion}
    (member : publicKeyHex ∈ laterKeys (rotatedRecord record now added)) :
    publicKeyHex ∈ laterKeys record ∨ publicKeyHex = added.publicKeyHex := by
  rw [laterKeys, rotatedRecord] at member
  simp only [List.map_append, List.map_cons, List.map_nil] at member
  rw [laterKeys]
  cases stored : record.versions.map KeyVersion.publicKeyHex with
  | nil => simp [stored] at member
  | cons first rest => simpa [stored] using member

/-- Every public key that a call appends is one for encryption. -/
theorem Change.appendsKem {call : Call} (change : Change ks env keys call record)
    (appends : AppendsKem keys) (live : record.state ≠ .destroyed) :
    ∀ publicKeyHex ∈ laterKeys record, ∃ key : PublicKey,
      publicKeyHex = hexEncode key.toBytes := by
  intro publicKeyHex member
  cases change with
  | generated kem placed wraps => cases member
  | signingGenerated placed wraps => cases member
  | activated found edge =>
      refine appends _ _ found ?_ publicKeyHex member
      intro destroyed
      rw [destroyed] at edge
      cases edge
  | rotated found active wraps =>
      rcases mem_laterKeys_rotatedRecord member with old | rfl
      · exact appends _ _ found (by simp [active]) publicKeyHex old
      · exact ⟨_, rfl⟩
  | rewrapped found current unwraps wraps =>
      rw [laterKeys_rewrappedRecord] at member
      exact appends _ _ found live publicKeyHex member
  | revoked found active => exact appends _ _ found (by simp [active]) publicKeyHex member
  | cascadeRevoked found active => exact appends _ _ found (by simp [active]) publicKeyHex member
  | suspended found edge =>
      refine appends _ _ found ?_ publicKeyHex member
      intro destroyed
      rw [destroyed] at edge
      cases edge
  | expired found usable =>
      refine appends _ _ found ?_ publicKeyHex member
      intro destroyed
      rw [destroyed] at usable
      cases usable
  | dueExpired found usable =>
      refine appends _ _ found ?_ publicKeyHex member
      intro destroyed
      rw [destroyed] at usable
      cases usable
  | destroyed found edge => exact absurd rfl live
  | used found active data => exact appends _ _ found (by simp [active]) publicKeyHex member

/-- In every run every version but the first stores a key for encryption. -/
theorem Reaches.appendsKem {allowed : Step → World → Prop} {later : World}
    (appends : AppendsKem world.keys) (reaches : Reaches ks allowed world later) :
    AppendsKem later.keys := by
  apply reaches.keys_invariant AppendsKem ?_ appends
  intro step world keys record _ _ appends mayWrite id found stored live
  rw [Table.find?_insert] at stored
  split at stored
  · cases stored
    exact mayWrite.change.appendsKem appends live
  · exact appends id found stored live

theorem Reachable.appendsKem {allowed : Step → World → Prop}
    (reachable : Reachable ks allowed world) : AppendsKem world.keys := by
  obtain ⟨now, replay, reaches⟩ := reachable
  apply reaches.appendsKem
  intro id record found
  cases found

/-- A verifying key is stored by the first version only. -/
theorem AppendsKem.first (appends : AppendsKem keys) (found : keys.find? id = some record)
    (live : record.state ≠ .destroyed) (member : version ∈ record.versions) {vkBytes : Bytes}
    (stores : hexDecode (utf8 version.publicKeyHex) = .ok vkBytes)
    (verifying : vkBytes.length = 1952) : record.versions.head? = some version := by
  cases stored : record.versions with
  | nil => simp [stored] at member
  | cons first rest =>
      rw [stored, List.mem_cons] at member
      rcases member with rfl | later
      · rfl
      · have among : version.publicKeyHex ∈ laterKeys record := by
          rw [laterKeys, stored]
          exact List.mem_map_of_mem later
        obtain ⟨key, isKem⟩ := appends id record found live _ among
        rw [isKem, utf8_hexEncode, hexDecode_hexBytes] at stores
        cases stores
        rw [PublicKey.toBytes_length] at verifying
        cases verifying

/-- The version with this number of a key verifies a signature. -/
def VerifiedBy (ks : Keystore) (record : KeyMetadata) (number : Nat) (message : Bytes)
    (signatureHex : String) : Prop :=
  ∃ version vkBytes signature, record.getVersion number = some version ∧
    version.publicKeyHex = hexEncode vkBytes ∧ signatureHex = hexEncode signature ∧
    ks.verifyMessage vkBytes message signature = .ok true

/-- Only a verifying key verifies. -/
theorem length_of_verifyMessage {vkBytes signature : Bytes} {valid : Bool}
    (verified : ks.verifyMessage vkBytes message signature = .ok valid) :
    vkBytes.length = 1952 := by
  unfold verifyMessage at verified
  split at verified
  · assumption
  · cases verified

/-- Whatever signs holds a signing pair. -/
theorem isSigningPair_of_signs {secret signature : Bytes} {publicKeyHex : String}
    {keyType : KeyType} (pair : IsAnyPair ks keyType secret publicKeyHex)
    (signed : ks.signMessage secret message = .ok signature) :
    IsSigningPair ks secret publicKeyHex := by
  rcases pair with signing | ⟨key, rfl, -⟩
  · exact signing
  · have short := length_of_signMessage signed
    rw [SecretKey.toBytes_length] at short
    cases short

/-- Whatever a key signs is verified by its current version. -/
theorem Reachable.signed (lawful : ks.crypto.Lawful) (signs : ks.crypto.Signs)
    (reachable : Reachable ks anyStep world) {entered after : World} {payload : SignedPayload}
    (same : entered.keys = world.keys)
    (ran : (ks.sign id message).run (handle env) entered = (.ok payload, after)) :
    after.keys = world.keys ∧ ∃ record, world.keys.find? id = some record ∧
      record.keyType = .signing ∧ record.currentVersion = payload.keyVersion ∧
      VerifiedBy ks record payload.keyVersion message payload.signatureHex := by
  obtain ⟨rfl, record, version, seed, signature, found, signing, active, current, unwraps, signed,
    rfl⟩ := signed_of_run ran
  rw [same] at found unwraps
  obtain ⟨sound, emptied⟩ := reachable.sound lawful
  have live : record.state ≠ .destroyed := by simp [active]
  have member := KeyMetadata.mem_of_getVersion current
  obtain ⟨secret, holds, pair⟩ :=
    Reachable.holdAnyPairs lawful reachable id record found live version member
  obtain rfl : seed = secret := unwraps.eq_of_holds lawful sound emptied holds
  obtain ⟨vkBytes, made, stores, remade, verified⟩ :=
    (isSigningPair_of_signs pair signed).signs signs message
  obtain rfl : signature = made := Except.ok.inj (signed.symm.trans remade)
  have numbered := KeyMetadata.version_of_getVersion current
  refine ⟨same, record, found, signing, numbered.symm, version, vkBytes, signature, ?_, stores,
    rfl, verified⟩
  simp only [numbered]
  exact current

/-- The version that made a signature still verifies it when its key has outlived any calls. -/
theorem VerifiedBy.outlives {later : KeyMetadata} {number : Nat} {signatureHex : String}
    (verified : VerifiedBy ks record number message signatureHex) (outlives : Outlives record later)
    (live : later.state ≠ .destroyed) : VerifiedBy ks later number message signatureHex := by
  obtain ⟨version, vkBytes, signature, lookup, stores, carries, verifies⟩ := verified
  obtain ⟨kept, present, same⟩ := outlives.publicKeys number version lookup
  exact ⟨kept, vkBytes, signature, present, (same live).trans stores, carries, verifies⟩

/-- No other version than the one that made a signature can be asked to verify it. -/
theorem VerifiedBy.other {number : Nat} {signatureHex : String} (appends : AppendsKem keys)
    (found : keys.find? id = some record) (live : record.state ≠ .destroyed)
    (verified : VerifiedBy ks record number message signatureHex)
    (member : version ∈ record.versions) (differs : version.version ≠ number) {vkBytes : Bytes}
    (stores : hexDecode (utf8 version.publicKeyHex) = .ok vkBytes) (signature : Bytes) :
    ∃ error, ks.verifyMessage vkBytes message signature = .error error := by
  obtain ⟨signer, vkOther, _, lookup, storesOther, -, verifies⟩ := verified
  have readOther : hexDecode (utf8 signer.publicKeyHex) = .ok vkOther := by
    rw [storesOther, utf8_hexEncode, hexDecode_hexBytes]
  rw [verifyMessage, dif_neg]
  · exact ⟨_, rfl⟩
  · intro verifying
    have first := appends.first found live member stores verifying
    have made := appends.first found live (KeyMetadata.mem_of_getVersion lookup) readOther
      (length_of_verifyMessage verifies)
    obtain rfl := Option.some.inj (first.symm.trans made)
    exact differs (KeyMetadata.version_of_getVersion lookup)

/-- `verify_signature` accepts what the named version verifies. -/
theorem verifySignature_accepts {payload : SignedPayload} (answers : env.getFault id = none)
    (found : world.keys.find? id = some record) (signing : record.keyType = .signing)
    (active : record.state = .active)
    (verified : VerifiedBy ks record payload.keyVersion message payload.signatureHex) :
    ((ks.verifySignature id message payload).run (handle env) world).1 = .ok true := by
  obtain ⟨version, vkBytes, signature, lookup, stores, carries, verifies⟩ := verified
  rw [verifySignature_run answers found signing active lookup stores carries verifies]

/-- Whatever a key signs is verified in every later state in which it is active. -/
theorem signature_verified_later (lawful : ks.crypto.Lawful) (signs : ks.crypto.Signs)
    (reachable : Reachable ks anyStep world) {now : Nat} {payload : SignedPayload} {signed : World}
    (ran : (ks.sign id message).run (handle env) { world with now := now } =
      (.ok payload, signed)) {later : World} (reaches : Reaches ks anyStep signed later)
    (found : later.keys.find? id = some record) (active : record.state = .active)
    {verifier : Env} (answers : verifier.getFault id = none) (moment : Nat) :
    ((ks.verifySignature id message payload).run (handle verifier)
      { later with now := moment }).1 = .ok true := by
  have entered : ({ world with now := now } : World).keys = world.keys := rfl
  obtain ⟨same, old, stored, signing, -, verified⟩ :=
    Reachable.signed lawful signs reachable entered ran
  have emptied : Emptied signed.keys := same ▸ (reachable.sound lawful).2
  rw [← same] at stored
  obtain ⟨kept, present, outlives⟩ := reaches.extends emptied id old stored
  obtain rfl := Option.some.inj (found.symm.trans present)
  have live : record.state ≠ .destroyed := by simp [active]
  exact verifySignature_accepts answers found (outlives.keyType.trans signing) active
    (verified.outlives outlives live)

/-- The step does not rotate the key. -/
def Keeps (id : KeyId) (step : Step) (_ : World) : Prop := step.call ≠ .rotate id

/-- Only a rotation changes which version is current. -/
theorem Change.currentVersion {call : Call} (change : Change ks env keys call record) :
    (record.id = .generate env.randomness.keyId ∧ call.writesOnce = true) ∨
      call = .rotate record.id ∨ ∃ before, keys.find? record.id = some before ∧
        record.currentVersion = before.currentVersion := by
  have edited : ∀ {target : KeyId} {before : KeyMetadata}, keys.find? target = some before →
      record.id = before.id → record.currentVersion = before.currentVersion →
      ∃ before, keys.find? record.id = some before ∧
        record.currentVersion = before.currentVersion := by
    intro target before found own same
    refine ⟨before, ?_, same⟩
    rw [own, Table.key_of_find? found]
    exact found
  cases change with
  | generated kem placed wraps => exact .inl ⟨rfl, rfl⟩
  | signingGenerated placed wraps => exact .inl ⟨rfl, rfl⟩
  | @rotated id before now wrapped found active wraps =>
      have own : before.id = id := Table.key_of_find? found
      exact .inr (.inl (congrArg Call.rotate own.symm))
  | activated found edge => exact .inr (.inr (edited found rfl rfl))
  | rewrapped found current unwraps wraps => exact .inr (.inr (edited found rfl rfl))
  | revoked found active => exact .inr (.inr (edited found rfl rfl))
  | cascadeRevoked found active => exact .inr (.inr (edited found rfl rfl))
  | suspended found edge => exact .inr (.inr (edited found rfl rfl))
  | expired found usable => exact .inr (.inr (edited found rfl rfl))
  | dueExpired found usable => exact .inr (.inr (edited found rfl rfl))
  | destroyed found edge => exact .inr (.inr (edited found rfl rfl))
  | used found active data => exact .inr (.inr (edited found rfl rfl))

/-- The key is stored and its current version has this number. -/
def CurrentIs (id : KeyId) (number : Nat) (keys : Keys) : Prop :=
  ∃ record, keys.find? id = some record ∧ record.currentVersion = number

/-- A run that does not rotate a key keeps its current version. -/
theorem Reaches.currentIs {later : World} {number : Nat} (current : CurrentIs id number world.keys)
    (reaches : Reaches ks (Keeps id) world later) : CurrentIs id number later.keys := by
  apply reaches.keys_invariant (CurrentIs id number) ?_ current
  rintro step middle keys written keeps fresh ⟨record, found, same⟩ mayWrite
  by_cases own : written.id = id
  · refine ⟨written, find?_insert_own own, ?_⟩
    rcases mayWrite.change.currentVersion with
      ⟨created, once⟩ | rotated | ⟨before, present, unchanged⟩
    · rw [mayWrite.once once, ← own, created, fresh] at found
      cases found
    · exact absurd (own ▸ rotated) keeps
    · rw [own, found] at present
      cases present
      exact unchanged.trans same
  · refine ⟨record, ?_, same⟩
    rw [Table.find?_insert, if_neg (Ne.symm own)]
    exact found

end Citadel
