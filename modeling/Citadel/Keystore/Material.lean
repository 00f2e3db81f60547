import Citadel.Keystore.Evolution

/-!
# What the stored material holds

`Holds` says which secret a stored version holds and for which parent. It looks only
one level up, at the parent's public key, so it survives every write, also one that
closes a cycle. `Sound` asks it of every version that is not destroyed, and it holds
in every reachable state. On top of it unwrapping is a question of the chain of
parents alone (`Recoverable`).
-/

namespace Citadel

open Envelope Program

namespace Keystore

variable {ks : Keystore} {keys : Keys} {id : KeyId} {version : KeyVersion} {secret : Bytes}

/-! ### The secret in one version -/

/-- The secret is a secret key and the stored public key is its own. -/
def IsKeyPair (ks : Keystore) (secret : Bytes) (publicKeyHex : String) : Prop :=
  ∃ key : SecretKey ks.crypto, secret = key.toBytes ∧
    publicKeyHex = hexEncode key.publicKey.toBytes

/-- The secret that a stored version holds. A sealed version names the version of
its parent whose public key it is sealed to, unless the parent is destroyed. -/
inductive Holds (ks : Keystore) (keys : Keys) (id : KeyId) (version : KeyVersion)
    (secret : Bytes) : Prop where
  | master (wrappedBy : version.wrappingKeyId = none)
      (wraps : MasterWraps ks id version.version secret version.secretKeyMaterial)
  | sealed {parentId : KeyId} {number : Nat} {parent : KeyMetadata} {parentVersion : KeyVersion}
      {key : PublicKey} (wrappedBy : version.wrappingKeyId = some parentId.text)
      (wrappedAt : version.wrappingKeyVersion = some number)
      (found : keys.find? parentId = some parent) (sealing : wrapsChildren parent.keyType = true)
      (lookup : parent.getVersion number = some parentVersion)
      (stores : parent.state ≠ .destroyed → StoresPublicKey ks parentVersion.publicKeyHex key)
      (seals : SealsTo ks id version.version parentId.text key secret version.secretKeyMaterial)

/-- A wrapped secret is held by the version it is put into. -/
theorem Wraps.holds {number : Nat} {parentId : Option KeyId} {wrapped : Wrapped}
    (wraps : Wraps ks keys id number secret parentId wrapped)
    (same : version.version = number) (material : version.secretKeyMaterial = wrapped.material)
    (wrappedBy : version.wrappingKeyId = wrapped.wrappingKeyId)
    (wrappedAt : version.wrappingKeyVersion = wrapped.wrappingKeyVersion) :
    Holds ks keys id version secret := by
  subst same
  cases wraps with
  | master unsealed wraps => exact .master wrappedBy (material ▸ wraps)
  | sealed found sealing current stores seals =>
      refine .sealed wrappedBy wrappedAt found sealing ?_ (fun _ => stores) (material ▸ seals)
      rw [KeyMetadata.version_of_getVersion current]
      exact current

/-- Every version that is not destroyed holds a secret, and keys for encryption hold
key pairs. -/
def Sound (ks : Keystore) (keys : Keys) : Prop :=
  ∀ id record, keys.find? id = some record → record.state ≠ .destroyed →
    ∀ version ∈ record.versions, ∃ secret, Holds ks keys id version secret ∧
      (record.keyType ≠ .signing → IsKeyPair ks secret version.publicKeyHex)

/-- The public key of a pair is read back as itself. -/
theorem IsKeyPair.storesPublicKey (lawful : ks.crypto.Lawful) {publicKeyHex : String}
    (pair : IsKeyPair ks secret publicKeyHex) :
    ∃ key : SecretKey ks.crypto, secret = key.toBytes ∧
      ∀ stored, StoresPublicKey ks publicKeyHex stored ↔ stored = key.publicKey := by
  obtain ⟨key, rfl, rfl⟩ := pair
  refine ⟨key, rfl, fun stored => ⟨?_, ?_⟩⟩
  · rintro ⟨bytes, decoded, parsed⟩
    rw [utf8_hexEncode, hexDecode_hexBytes] at decoded
    cases decoded
    rw [PublicKey.fromBytes_toBytes lawful key] at parsed
    cases parsed
    rfl
  · rintro rfl
    refine ⟨_, ?_, PublicKey.fromBytes_toBytes lawful key⟩
    rw [utf8_hexEncode, hexDecode_hexBytes]

/-! ### Opening what was wrapped -/

/-- Prefixed hexadecimal text as bytes. -/
theorem utf8_append_drop (front : String) (rest : String) :
    (utf8 (front ++ rest)).drop (utf8 front).length = utf8 rest := by
  rw [utf8_append, List.drop_left]

theorem isPrefixOf_utf8_append (front rest : String) :
    (utf8 front).isPrefixOf (utf8 (front ++ rest)) = true := by
  rw [utf8_append, List.isPrefixOf_iff_prefix]
  exact List.prefix_append _ _

theorem unwrapEncrypted_masterWraps (lawful : ks.crypto.Lawful) {number : Nat}
    {masterKey : SizedBytes 32} {nonce : SizedBytes 12} {ciphertext : Bytes}
    (set : ks.masterKey = some masterKey)
    (encrypts : ks.crypto.aesGcmEncrypt (ks.masterWrapKey masterKey id number) nonce secret [] =
      some ciphertext) :
    ks.unwrapEncrypted id number ("enc:" ++ hexEncode nonce.1 ++ hexEncode ciphertext) =
      .ret secret := by
  have text : "enc:" ++ hexEncode nonce.1 ++ hexEncode ciphertext =
      "enc:" ++ (hexEncode nonce.1 ++ hexEncode ciphertext) := String.append_assoc ..
  have payload : (utf8 ("enc:" ++ (hexEncode nonce.1 ++ hexEncode ciphertext))).drop 4 =
      hexBytes nonce.1 ++ hexBytes ciphertext := by
    have dropped := utf8_append_drop "enc:" (hexEncode nonce.1 ++ hexEncode ciphertext)
    rw [show (utf8 "enc:").length = 4 from rfl] at dropped
    rw [dropped, utf8_append, utf8_hexEncode, utf8_hexEncode]
  have nonceLength : (hexBytes nonce.1).length = 24 := by simp
  have front : (hexBytes nonce.1 ++ hexBytes ciphertext).take 24 = hexBytes nonce.1 :=
    List.take_left' nonceLength
  have back : (hexBytes nonce.1 ++ hexBytes ciphertext).drop 24 = hexBytes ciphertext :=
    List.drop_left' nonceLength
  have long : ¬ (hexBytes nonce.1 ++ hexBytes ciphertext).length < 24 := by
    rw [List.length_append, nonceLength]
    omega
  have boundary : isCharBoundary (hexBytes nonce.1 ++ hexBytes ciphertext) 24 = true := by
    rw [isCharBoundary, List.getElem?_append_right (by omega), nonceLength]
    cases digits : (hexBytes ciphertext)[24 - 24]? with
    | none =>
        have short := List.getElem?_eq_none_iff.mp digits
        rw [List.length_append, nonceLength]
        simp at short
        simp [short]
    | some byte =>
        have ascii := hexBytes_ascii (List.mem_of_getElem? digits)
        simp [ascii]
  have decrypts := lawful.aesGcmDecrypt_encrypt _ _ _ _ _ encrypts
  rw [unwrapEncrypted, set]
  simp only [text, isPrefixOf_utf8_append, payload, long, boundary, front, back, decodeHex,
    hexDecode_hexBytes, Program.ofExcept, Program.ofOption, toSized, if_true, if_false, ret_bind,
    SizedBytes.length, dite_true, decrypts]

theorem unwrapSealed_sealsTo (lawful : ks.crypto.Lawful) {number : Nat} {parentId text : String}
    {key : SecretKey ks.crypto}
    (seals : SealsTo ks id number parentId key.publicKey secret (.citadelWrapped text)) :
    ks.unwrapSealed id number parentId key.toBytes text = .ret secret := by
  obtain ⟨coins, envelope, sealed, same⟩ := seals
  cases same
  have payload : (utf8 ("ckw:" ++ hexEncode envelope)).drop 4 = hexBytes envelope := by
    have dropped := utf8_append_drop "ckw:" (hexEncode envelope)
    rw [show (utf8 "ckw:").length = 4 from rfl] at dropped
    rw [dropped, utf8_hexEncode]
  have opened := open_seal lawful sealed
  rw [unwrapSealed]
  simp only [SecretKey.fromBytes_toBytes lawful, isPrefixOf_utf8_append, payload, decodeHex,
    hexDecode_hexBytes, Program.ofExcept, if_true, ret_bind, opened]

/-- The parents whose public keys seal have key pairs. -/
theorem ne_signing_of_wrapsChildren {keyType : KeyType} (sealing : wrapsChildren keyType = true) :
    keyType ≠ .signing := by
  rintro rfl
  cases sealing

/-- What a sealed version needs from its parent to be opened. -/
theorem unwrapSealed_of_parent (lawful : ks.crypto.Lawful) {parentId text : String}
    {publicKeyHex : String} {key : PublicKey} {parentSecret : Bytes}
    (pair : IsKeyPair ks parentSecret publicKeyHex) (stores : StoresPublicKey ks publicKeyHex key)
    (seals : SealsTo ks id version.version parentId key secret (.citadelWrapped text)) :
    ks.unwrapSealed id version.version parentId parentSecret text = .ret secret := by
  obtain ⟨parentKey, rfl, reads⟩ := pair.storesPublicKey lawful
  obtain rfl := (reads key).mp stores
  exact unwrapSealed_sealsTo lawful seals

/-- A version that is not sealed is wrapped by the master key. -/
theorem Holds.masterWraps (holds : Holds ks keys id version secret)
    (unsealed : ∀ text, version.secretKeyMaterial ≠ .citadelWrapped text) :
    version.wrappingKeyId = none ∧
      MasterWraps ks id version.version secret version.secretKeyMaterial := by
  cases holds with
  | master wrappedBy wraps => exact ⟨wrappedBy, wraps⟩
  | sealed wrappedBy wrappedAt found sealing lookup stores seals =>
      obtain ⟨coins, envelope, -, same⟩ := seals
      exact absurd same (unsealed _)

/-- A sealed version, seen from the parent it names. -/
theorem Holds.sealsTo (holds : Holds ks keys id version secret) {parentId : String} {number : Nat}
    {parent : KeyMetadata} {parentVersion : KeyVersion}
    (wrappedBy : version.wrappingKeyId = some parentId)
    (wrappedAt : version.wrappingKeyVersion = some number)
    (found : keys.find? ⟨parentId⟩ = some parent)
    (lookup : parent.getVersion number = some parentVersion) :
    wrapsChildren parent.keyType = true ∧ ∃ key,
      (parent.state ≠ .destroyed → StoresPublicKey ks parentVersion.publicKeyHex key) ∧
      SealsTo ks id version.version parentId key secret version.secretKeyMaterial := by
  cases holds with
  | master unwrapped wraps =>
      rw [unwrapped] at wrappedBy
      cases wrappedBy
  | sealed wrappedBy' wrappedAt' found' sealing lookup' stores seals =>
      rw [wrappedBy'] at wrappedBy
      cases wrappedBy
      rw [found] at found'
      cases found'
      rw [wrappedAt] at wrappedAt'
      cases wrappedAt'
      rw [lookup] at lookup'
      cases lookup'
      exact ⟨sealing, _, stores, seals⟩

/-- A version that can be unwrapped belongs to a record that is not destroyed. -/
theorem Unwraps.live (emptied : Emptied keys) {skip : Bool} {levels number : Nat}
    {parent : KeyMetadata} (unwraps : Unwraps ks keys skip levels id version secret)
    (found : keys.find? id = some parent) (lookup : parent.getVersion number = some version) :
    parent.state ≠ .destroyed := by
  intro destroyed
  have member := KeyMetadata.mem_of_getVersion lookup
  exact not_unwraps_of_destroyed (emptied _ _ found destroyed _ member) unwraps

/-- Unwrapping yields nothing but the secret that is held. -/
theorem Unwraps.eq_of_holds (lawful : ks.crypto.Lawful) (sound : Sound ks keys)
    (emptied : Emptied keys) {skip : Bool} {levels : Nat} {other : Bytes}
    (unwraps : Unwraps ks keys skip levels id version other)
    (holds : Holds ks keys id version secret) : other = secret := by
  induction unwraps generalizing secret with
  | @plaintext levels id version text other material decodes =>
      obtain ⟨-, wraps⟩ := holds.masterWraps (by simp [material])
      rw [material] at wraps
      cases wraps
      rw [utf8_hexEncode, hexDecode_hexBytes] at decodes
      cases decodes
      rfl
  | @encrypted levels id version text other material opens =>
      obtain ⟨-, wraps⟩ := holds.masterWraps (by simp [material])
      rw [material] at wraps
      cases wraps with
      | encrypted set encrypts =>
          rw [unwrapEncrypted_masterWraps lawful set encrypts] at opens
          cases opens
          rfl
  | sealed material wrappedBy found readable wrappedAt lookup unwraps opens ih =>
      obtain ⟨sealing, key, stores, seals⟩ := holds.sealsTo wrappedBy wrappedAt found lookup
      have live := unwraps.live emptied found lookup
      obtain ⟨held, parentHolds, pair⟩ :=
        sound _ _ found live _ (KeyMetadata.mem_of_getVersion lookup)
      cases ih parentHolds
      rw [material] at seals
      have opened := unwrapSealed_of_parent lawful (pair (ne_signing_of_wrapsChildren sealing))
        (stores live) seals
      rw [opened] at opens
      cases opens
      rfl

/-! ### The chain of parents -/

/-- The chain of parents of a version ends in the master key within `levels`
records, the version's own included. No parent on it is destroyed, and unless
`skip` is set every parent may decrypt. -/
inductive Recoverable (keys : Keys) (skip : Bool) : Nat → KeyVersion → Prop where
  | master {levels : Nat} {version : KeyVersion} (wrappedBy : version.wrappingKeyId = none) :
      Recoverable keys skip (levels + 1) version
  | sealed {levels : Nat} {version : KeyVersion} {parentId : String} {number : Nat}
      {parent : KeyMetadata} {parentVersion : KeyVersion}
      (wrappedBy : version.wrappingKeyId = some parentId)
      (wrappedAt : version.wrappingKeyVersion = some number)
      (found : keys.find? ⟨parentId⟩ = some parent) (live : parent.state ≠ .destroyed)
      (readable : skip = true ∨ parent.state.canDecrypt = true)
      (lookup : parent.getVersion number = some parentVersion)
      (recoverable : Recoverable keys skip levels parentVersion) :
      Recoverable keys skip (levels + 1) version

theorem Unwraps.recoverable (lawful : ks.crypto.Lawful) (sound : Sound ks keys)
    (emptied : Emptied keys) {skip : Bool} {levels : Nat}
    (unwraps : Unwraps ks keys skip levels id version secret)
    (holds : Holds ks keys id version secret) : Recoverable keys skip levels version := by
  induction unwraps with
  | plaintext material decodes => exact .master (holds.masterWraps (by simp [material])).1
  | encrypted material opens => exact .master (holds.masterWraps (by simp [material])).1
  | sealed material wrappedBy found readable wrappedAt lookup unwraps opens ih =>
      have live := unwraps.live emptied found lookup
      obtain ⟨held, parentHolds, -⟩ :=
        sound _ _ found live _ (KeyMetadata.mem_of_getVersion lookup)
      cases unwraps.eq_of_holds lawful sound emptied parentHolds
      exact .sealed wrappedBy wrappedAt found live readable lookup (ih parentHolds)

theorem Recoverable.unwraps (lawful : ks.crypto.Lawful) (sound : Sound ks keys) {skip : Bool}
    {levels : Nat} (recoverable : Recoverable keys skip levels version)
    (holds : Holds ks keys id version secret) : Unwraps ks keys skip levels id version secret := by
  induction recoverable generalizing id secret with
  | @master levels version wrappedBy =>
      cases holds with
      | master unwrapped wraps =>
          generalize material : version.secretKeyMaterial = stored at wraps
          cases wraps with
          | plaintext unset =>
              refine .plaintext material ?_
              rw [utf8_hexEncode, hexDecode_hexBytes]
          | encrypted set encrypts =>
              exact .encrypted material (unwrapEncrypted_masterWraps lawful set encrypts)
      | sealed wrapped =>
          rw [wrappedBy] at wrapped
          cases wrapped
  | sealed wrappedBy wrappedAt found live readable lookup recoverable ih =>
      obtain ⟨sealing, key, stores, coins, envelope, sealed, material⟩ :=
        holds.sealsTo wrappedBy wrappedAt found lookup
      obtain ⟨held, parentHolds, pair⟩ :=
        sound _ _ found live _ (KeyMetadata.mem_of_getVersion lookup)
      refine .sealed material wrappedBy found readable wrappedAt lookup (ih parentHolds) ?_
      exact unwrapSealed_of_parent lawful (pair (ne_signing_of_wrapsChildren sealing))
        (stores live) ⟨coins, envelope, sealed, rfl⟩

/-- A held secret is unwrapped exactly when its chain of parents allows it. -/
theorem unwraps_iff_recoverable (lawful : ks.crypto.Lawful) (sound : Sound ks keys)
    (emptied : Emptied keys) {skip : Bool} {levels : Nat}
    (holds : Holds ks keys id version secret) :
    Unwraps ks keys skip levels id version secret ↔ Recoverable keys skip levels version :=
  ⟨fun unwraps => unwraps.recoverable lawful sound emptied holds,
    fun recoverable => recoverable.unwraps lawful sound holds⟩

/-! ### The invariant -/

/-- A held secret stays held while its parent outlives every write. -/
theorem Holds.extends {later : Keys} (kept : Extends keys later)
    (holds : Holds ks keys id version secret) : Holds ks later id version secret := by
  cases holds with
  | master wrappedBy wraps => exact .master wrappedBy wraps
  | @sealed parentId number parent parentVersion key wrappedBy wrappedAt found sealing lookup
      stores seals =>
      obtain ⟨grown, present, outlives⟩ := kept _ _ found
      obtain ⟨still, lookupStill, publicKey⟩ := outlives.publicKeys _ _ lookup
      refine .sealed wrappedBy wrappedAt present ?_ lookupStill ?_ seals
      · rw [outlives.keyType]
        exact sealing
      · intro live
        rw [publicKey live]
        refine stores ?_
        intro destroyed
        exact live (outlives.destroyed destroyed ▸ destroyed)

/-- The version holds a secret that its public key and the type of its key agree with. -/
def HoldsPair (ks : Keystore) (keys : Keys) (pair : KeyType → Bytes → String → Prop)
    (record : KeyMetadata) (version : KeyVersion) : Prop :=
  ∃ secret, Holds ks keys record.id version secret ∧
    pair record.keyType secret version.publicKeyHex

theorem HoldsPair.extends {later : Keys} {pair : KeyType → Bytes → String → Prop}
    {record : KeyMetadata} (kept : Extends keys later)
    (holdsPair : HoldsPair ks keys pair record version) :
    HoldsPair ks later pair record version := by
  obtain ⟨secret, holds, fits⟩ := holdsPair
  exact ⟨secret, holds.extends kept, fits⟩

/-- Every version that is not destroyed holds a secret that agrees with its public key
and the type of its key. -/
def HoldPairs (ks : Keystore) (keys : Keys) (pair : KeyType → Bytes → String → Prop) : Prop :=
  ∀ id record, keys.find? id = some record → record.state ≠ .destroyed →
    ∀ version ∈ record.versions, ∃ secret, Holds ks keys id version secret ∧
      pair record.keyType secret version.publicKeyHex

/-- The pair that key generation puts into a version. -/
theorem isKeyPair_kemKeyPair (random : Randomness) :
    IsKeyPair ks (ks.kemKeyPair random).2 (hexEncode (ks.kemKeyPair random).1) :=
  ⟨(keygen ks.crypto random.keypair).2, rfl, rfl⟩

/-- An updated version is the change of a version that was there, or another one. -/
theorem mem_updateVersion {number : Nat} {change : KeyVersion → KeyVersion}
    {versions : List KeyVersion} {found : KeyVersion}
    (member : found ∈ updateVersion number change versions) :
    found ∈ versions ∨ ∃ old, versions.find? (fun version => version.version = number) = some old ∧
      found = change old := by
  induction versions with
  | nil => cases member
  | cons version rest ih =>
      unfold updateVersion at member
      by_cases first : version.version = number
      · rw [if_pos first] at member
        rcases List.mem_cons.mp member with rfl | later
        · exact Or.inr ⟨version, by simp [first], rfl⟩
        · exact Or.inl (List.mem_cons_of_mem _ later)
      · rw [if_neg first] at member
        rcases List.mem_cons.mp member with rfl | later
        · exact Or.inl List.mem_cons_self
        · rcases ih later with kept | ⟨old, lookup, changed⟩
          · exact Or.inl (List.mem_cons_of_mem _ kept)
          · exact Or.inr ⟨old, by simpa [first] using lookup, changed⟩

end Keystore

open Keystore

section Change

variable {ks : Keystore} {keys : Keys} {record : KeyMetadata}

/-- Every version of a record that a call writes holds a pair over the keys it found, if
the fresh pairs of the call agree with the types of their keys. -/
theorem Change.holdsPair {env : Env} {call : Call} {pair : KeyType → Bytes → String → Prop}
    (lawful : ks.crypto.Lawful) (sound : Sound ks keys) (emptied : Emptied keys)
    (hold : HoldPairs ks keys pair)
    (kemFits : ∀ keyType, keyType ≠ .signing → pair keyType (ks.kemKeyPair env.randomness).2
      (hexEncode (ks.kemKeyPair env.randomness).1))
    (signingFits : pair .signing (ks.signingKeyPair env.randomness).2
      (hexEncode (ks.signingKeyPair env.randomness).1))
    (rotates : ∀ id old, call = .rotate id → keys.find? id = some old → old.state = .active →
      pair old.keyType (ks.kemKeyPair env.randomness).2
        (hexEncode (ks.kemKeyPair env.randomness).1))
    (change : Change ks env keys call record) (live : record.state ≠ .destroyed) :
    ∀ version ∈ record.versions, HoldsPair ks keys pair record version := by
  -- the versions that the record had before hold pairs by assumption
  have before : ∀ {id old}, keys.find? id = some old → old.state ≠ .destroyed →
      ∀ version ∈ old.versions, HoldsPair ks keys pair old version := by
    intro id old found live version member
    have sameId := Table.key_of_find? found
    subst sameId
    exact hold _ _ found live version member
  have unchanged : ∀ {id old}, keys.find? id = some old → old.state ≠ .destroyed →
      record.id = old.id → record.keyType = old.keyType → record.versions = old.versions →
      ∀ version ∈ record.versions, HoldsPair ks keys pair record version := by
    intro id old found live sameId sameType sameVersions version member
    unfold HoldsPair
    rw [sameId, sameType]
    exact before found live version (sameVersions ▸ member)
  cases change with
  | generated kem placed wraps =>
      intro version member
      obtain rfl := List.mem_singleton.mp member
      exact ⟨_, wraps.holds rfl rfl rfl rfl, kemFits _ kem⟩
  | signingGenerated placed wraps =>
      intro version member
      obtain rfl := List.mem_singleton.mp member
      exact ⟨_, wraps.holds rfl rfl rfl rfl, signingFits⟩
  | activated found edge =>
      refine unchanged found ?_ rfl rfl rfl
      intro destroyed
      rw [destroyed] at edge
      cases edge
  | @rotated id old now wrapped found active wraps =>
      intro version member
      rcases List.mem_append.mp member with kept | added
      · exact before found (by simp [active]) version kept
      · obtain rfl := List.mem_singleton.mp added
        have sameId := Table.key_of_find? found
        subst sameId
        exact ⟨_, wraps.holds rfl rfl rfl rfl, rotates _ old rfl found active⟩
  | @rewrapped id newParentId old current secret now wrapped found lookup unwraps wraps =>
      have lived : old.state ≠ .destroyed := live
      intro version member
      rcases mem_updateVersion member with kept | ⟨replaced, lookup', rfl⟩
      · exact before found lived version kept
      · obtain rfl : replaced = current := by
          rw [show old.versions.find? (fun version => version.version = old.currentVersion) =
            some current from lookup] at lookup'
          cases lookup'
          rfl
        obtain ⟨held, holds, pair⟩ :=
          before found lived replaced (KeyMetadata.mem_of_getVersion lookup)
        have sameId := Table.key_of_find? found
        subst sameId
        cases unwraps.eq_of_holds lawful sound emptied holds
        exact ⟨secret, wraps.holds rfl rfl rfl rfl, pair⟩
  | revoked found active => exact unchanged found (by simp [active]) rfl rfl rfl
  | cascadeRevoked found active => exact unchanged found (by simp [active]) rfl rfl rfl
  | suspended found edge =>
      refine unchanged found ?_ rfl rfl rfl
      intro destroyed
      rw [destroyed] at edge
      cases edge
  | expired found usable =>
      refine unchanged found ?_ rfl rfl rfl
      intro destroyed
      rw [destroyed] at usable
      cases usable
  | dueExpired found usable =>
      refine unchanged found ?_ rfl rfl rfl
      intro destroyed
      rw [destroyed] at usable
      cases usable
  | destroyed found edge => exact absurd rfl live
  | used found active data => exact unchanged found (by simp [active]) rfl rfl rfl

/-- A write that keeps every key and whose versions hold pairs keeps the pairs. -/
theorem Keystore.HoldPairs.insert {pair : KeyType → Bytes → String → Prop}
    (hold : HoldPairs ks keys pair) (kept : Extends keys (keys.insert record))
    (written : record.state ≠ .destroyed →
      ∀ version ∈ record.versions, HoldsPair ks keys pair record version) :
    HoldPairs ks (keys.insert record) pair := by
  intro id stored found live version member
  have sameId := Table.key_of_find? found
  subst sameId
  rw [Table.find?_insert] at found
  split at found
  · cases found
    exact (written live version member).extends kept
  · have unchanged : HoldsPair ks keys pair stored version := hold _ _ found live version member
    exact unchanged.extends kept

/-- A write that keeps every key keeps the keys sound. -/
theorem Change.sound {env : Env} {call : Call} (lawful : ks.crypto.Lawful) (sound : Sound ks keys)
    (emptied : Emptied keys) (kept : Extends keys (keys.insert record))
    (change : Change ks env keys call record) : Sound ks (keys.insert record) := by
  have pairs : HoldPairs ks keys fun keyType secret publicKeyHex =>
      keyType ≠ .signing → IsKeyPair ks secret publicKeyHex := sound
  refine pairs.insert kept fun live => ?_
  exact change.holdsPair lawful sound emptied pairs (fun _ _ _ => isKeyPair_kemKeyPair _)
    (fun kem => absurd rfl kem) (fun _ _ _ _ _ _ => isKeyPair_kemKeyPair _) live

end Change

/-- In every reachable state the stored material is sound. -/
theorem Reachable.sound {ks : Keystore} {allowed : Step → World → Prop} {world : World}
    (lawful : ks.crypto.Lawful) (reachable : Reachable ks allowed world) :
    Sound ks world.keys ∧ Emptied world.keys := by
  obtain ⟨now, replay, reaches⟩ := reachable
  refine reaches.keys_invariant (fun keys => Sound ks keys ∧ Emptied keys) ?_ ⟨?_, ?_⟩
  · rintro step world keys record _ fresh ⟨sound, emptied⟩ mayWrite
    have kept := mayWrite.extends fresh emptied
    exact ⟨mayWrite.change.sound lawful sound emptied kept, mayWrite.emptied fresh emptied⟩
  · intro id record found
    cases found
  · intro id record found
    cases found

end Citadel
