import Citadel.Keystore.Growth

/-!
# Reading back what was encrypted

A blob can be read as long as its key may decrypt, its policy verdict is not
`Expired`, and the chain of parents that wraps the key's version may be read. The
first part of this module proves it for any later state of the keystore. In runs
that keep to the hierarchy the chain is never too long, so only the states of the
parents on it matter.
-/

namespace Citadel

open Envelope Program Keystore

variable {ks : Keystore} {env : Env} {world after : World}

/-! ### Calls and their operations -/

theorem Call.decrypt_eq_ok_iff {blob : EncryptedBlob} {aad : Aad} {context : Context}
    {plaintext : Bytes} :
    ((Call.decrypt blob aad context).run ks env world).1 = .ok (.plaintext plaintext) ↔
      ((ks.decrypt blob aad context).run (handle env) world).1 = .ok plaintext := by
  rw [Call.run, Call.prog, run_bind]
  cases (ks.decrypt blob aad context).run (handle env) world with
  | mk outcome later =>
      cases outcome with
      | ok found => simp
      | err error => simp
      | aborted why => simp

theorem Call.encrypts_of_run {id : KeyId} {plaintext : Bytes} {aad : Aad} {context : Context}
    {blob : EncryptedBlob}
    (ran : (Call.encrypt id plaintext aad context).run ks env world = (.ok (.blob blob), after)) :
    Encrypts ks env world id plaintext aad context blob after := by
  obtain ⟨found, middle, encrypted, done⟩ := of_run_bind_eq_ok ran
  cases done
  exact Keystore.encrypts_of_run encrypted

namespace Keystore

/-! ### Any later state -/

/-- The key of a blob, seen later. -/
theorem Encrypts.later {origin : World} {originEnv : Env} {id : KeyId} {plaintext : Bytes}
    {aad : Aad} {context : Context} {blob : EncryptedBlob}
    (encrypted : Encrypts ks originEnv origin id plaintext aad context blob after)
    (kept : Extends origin.keys world.keys) :
    blob.keyId = id.text ∧ ∃ record version, world.keys.find? id = some record ∧
      record.getVersion blob.keyVersion = some version := by
  obtain ⟨found, -, -, -, -, current, -, -, -⟩ := encrypted
  obtain ⟨record, present, outlives⟩ := kept _ _ found
  obtain ⟨version, lookup, -⟩ := outlives.publicKeys _ _ current
  exact ⟨rfl, record, version, present, lookup⟩

/-- In any later state a blob is read back exactly when its key may decrypt, is not
expired, and the chain that wraps its version can be followed. -/
theorem Encrypts.decrypts_iff (lawful : ks.crypto.Lawful) {origin : World} {originEnv : Env}
    {id : KeyId} {plaintext : Bytes} {aad : Aad} {context : Context} {blob : EncryptedBlob}
    {record : KeyMetadata} {version : KeyVersion}
    (encrypted : Encrypts ks originEnv origin id plaintext aad context blob after)
    (kept : Extends origin.keys world.keys) (sound : Sound ks world.keys)
    (emptied : Emptied world.keys) (found : world.keys.find? id = some record)
    (lookup : record.getVersion blob.keyVersion = some version) :
    Decrypts ks env world blob aad context plaintext ↔
      record.state.canDecrypt = true ∧ NotExpired ks env.level world.now record ∧
        Recoverable world.keys false (maxUnwrapDepth + 1) version := by
  have liveOf : record.state.canDecrypt = true → record.state ≠ .destroyed := by
    rintro usable destroyed
    rw [destroyed] at usable
    cases usable
  have member := KeyMetadata.mem_of_getVersion lookup
  obtain ⟨foundThen, -, data, -, -, current, stores, resolves, sealed⟩ := encrypted
  constructor
  · rintro ⟨found', usable, notExpired, lookup', -, -, -, -, unwraps, -, -⟩
    rw [show world.keys.find? ⟨id.text⟩ = some record from found] at found'
    cases found'
    rw [lookup] at lookup'
    cases lookup'
    obtain ⟨secret, holds, -⟩ := sound _ _ found (liveOf usable) _ member
    cases unwraps.eq_of_holds lawful sound emptied holds
    exact ⟨usable, notExpired, unwraps.recoverable lawful sound emptied holds⟩
  · rintro ⟨usable, notExpired, recoverable⟩
    have live := liveOf usable
    obtain ⟨secret, holds, pair⟩ := sound _ _ found live _ member
    obtain ⟨grown, present, outlives⟩ := kept _ _ foundThen
    rw [found] at present
    cases present
    obtain ⟨still, lookup', publicKey⟩ := outlives.publicKeys _ _ current
    rw [lookup] at lookup'
    cases lookup'
    -- the stored public key is still the one the blob was sealed to
    have kem : record.keyType ≠ .signing := by
      rw [outlives.keyType]
      rintro signing
      rw [signing] at data
      cases data
    obtain ⟨key, rfl, reads⟩ := (pair kem).storesPublicKey lawful
    rw [← publicKey live] at stores
    obtain rfl := (reads _).mp stores
    obtain ⟨long, nonce, carries⟩ := envelopeNonce_seal lawful sealed
    refine .intro found usable notExpired lookup ?_ long (resolves.extends kept) carries
      (recoverable.unwraps lawful sound holds) (SecretKey.fromBytes_toBytes lawful key)
      (open_seal lawful sealed)
    rw [utf8_hexEncode, hexDecode_hexBytes]

/-- One more use of a key does not expire it. -/
theorem notExpired_usedRecord {record : KeyMetadata} {verdict : Option PolicyVerdict}
    {level : ThreatLevel} {now used : Nat}
    (evaluated : ks.verdictAt level now record = .ok verdict)
    (unblocked : verdict.bind encryptionBlock = none) :
    NotExpired ks level now (usedRecord record used) := by
  unfold NotExpired verdictAt at *
  have samePolicy : ks.effectivePolicyFor (usedRecord record used) level =
      ks.effectivePolicyFor record level := rfl
  rw [samePolicy]
  cases policy : ks.effectivePolicyFor record level with
  | none => exact ⟨none, rfl, rfl⟩
  | some policy' =>
      rw [policy] at evaluated
      simp only at evaluated ⊢
      cases outcome : evaluate policy' record now with
      | error why =>
          rw [outcome] at evaluated
          cases evaluated
      | ok found =>
          rw [outcome] at evaluated
          cases evaluated
          have allowed : found.isExpired = false := by
            cases found with
            | expired ageDays limitDays => cases unblocked
            | _ => rfl
          obtain ⟨later, evaluatedLater, allowedLater⟩ :
              ∃ later, evaluate policy' (usedRecord record used) now = .ok later ∧
                later.isExpired = false :=
            isExpired_evaluate_congr outcome allowed rfl rfl
          rw [evaluatedLater]
          exact ⟨some later, rfl, allowedLater⟩

section Encrypts

variable {id : KeyId} {plaintext : Bytes} {aad : Aad} {context : Context} {blob : EncryptedBlob}

/-- The write of an encryption. -/
theorem Encrypts.change (encrypted : Encrypts ks env world id plaintext aad context blob after) :
    ∃ record, world.keys.find? id = some record ∧ record.state = .active ∧
      after.keys = world.keys.insert (usedRecord record world.now) ∧
      Change ks env world.keys (.encrypt id plaintext aad context)
        (usedRecord record world.now) := by
  obtain ⟨found, active, data, -, -, -, -, -, -⟩ := encrypted
  exact ⟨_, found, active, rfl, .used found active data⟩

theorem Encrypts.extends (encrypted : Encrypts ks env world id plaintext aad context blob after) :
    Extends world.keys after.keys := by
  obtain ⟨record, found, active, written, -⟩ := encrypted.change
  have own := Table.key_of_find? found
  rw [written]
  have stored : world.keys.find? (usedRecord record world.now).id = some record := by
    rw [show (usedRecord record world.now).id = id from own]
    exact found
  refine Extends.insert stored ⟨rfl, rfl, rfl, ?_, ?_⟩
  · intro destroyed
    rw [active] at destroyed
    cases destroyed
  · intro number version lookup
    exact ⟨version, lookup, fun _ => rfl⟩

/-- The material stays sound over an encryption. -/
theorem Encrypts.sound (encrypted : Encrypts ks env world id plaintext aad context blob after)
    (lawful : ks.crypto.Lawful) (sound : Sound ks world.keys) (emptied : Emptied world.keys) :
    Sound ks after.keys ∧ Emptied after.keys := by
  have kept := encrypted.extends
  obtain ⟨record, found, active, written, change⟩ := encrypted.change
  rw [written] at kept ⊢
  refine ⟨change.sound lawful sound emptied kept, ?_⟩
  intro other stored present destroyed
  rw [Table.find?_insert] at present
  split at present
  · cases present
    rw [show (usedRecord record world.now).state = record.state from rfl, active] at destroyed
    cases destroyed
  · exact emptied other stored present destroyed

end Encrypts

/-- Right after an encryption, the chain that wraps the key's current version decides. -/
theorem Encrypts.decrypts_after_iff {world : World} {now : Nat} {encryptEnv decryptEnv : Env}
    {id : KeyId} {plaintext : Bytes} {aad : Aad} {context : Context} {blob : EncryptedBlob}
    (did : Encrypts ks encryptEnv { world with now := now } id plaintext aad context blob after)
    (lawful : ks.crypto.Lawful) (sound : Sound ks world.keys) (emptied : Emptied world.keys)
    (sameLevel : decryptEnv.level = encryptEnv.level) (reliable : decryptEnv.Reliable)
    (free : SlotFree ks after blob) :
    ∃ record version, after.keys.find? id = some record ∧
      record.currentKeyVersion = some version ∧
      (((Call.decrypt blob aad context).run ks decryptEnv after).1 = .ok (.plaintext plaintext) ↔
        Recoverable after.keys false (maxUnwrapDepth + 1) version) := by
  obtain ⟨soundAfter, emptiedAfter⟩ := did.sound lawful sound emptied
  have reads : ∀ record version, after.keys.find? id = some record →
      record.getVersion blob.keyVersion = some version →
      (Decrypts ks decryptEnv after blob aad context plaintext ↔ _) :=
    fun record version => did.decrypts_iff lawful did.extends soundAfter emptiedAfter
  rw [Call.decrypt_eq_ok_iff, decrypt_eq_ok_iff reliable free]
  obtain ⟨found, active, data, evaluated, unblocked, current, stores, resolves, sealed⟩ := did
  rename_i record verdict version key domainId ciphertext
  have own := Table.key_of_find? found
  have stored : (Table.insert world.keys (usedRecord record now)).find? id =
      some (usedRecord record now) := by
    have self := Table.find?_insert_self world.keys (usedRecord record now)
    rwa [show (usedRecord record now).id = id from own] at self
  refine ⟨usedRecord record now, version, stored, current, ?_⟩
  rw [reads _ _ stored current]
  constructor
  · rintro ⟨-, -, recoverable⟩
    exact recoverable
  · intro recoverable
    refine ⟨?_, ?_, recoverable⟩
    · rw [show (usedRecord record now).state = record.state from rfl, active]
      rfl
    · rw [sameLevel]
      exact notExpired_usedRecord evaluated unblocked

/-- Right after an encryption, at the same instant and threat level, its blob is read
back exactly when the chain that wraps the key's current version ends within the
depth limit and every key on it is active or rotated. -/
theorem decrypt_after_encrypt_iff (lawful : ks.crypto.Lawful)
    (reachable : Reachable ks anyStep world) (now : Nat) {encryptEnv decryptEnv : Env} {id : KeyId}
    {plaintext : Bytes} {aad : Aad} {context : Context} {blob : EncryptedBlob}
    (encrypted : (Call.encrypt id plaintext aad context).run ks encryptEnv
      { world with now := now } = (.ok (.blob blob), after))
    (sameLevel : decryptEnv.level = encryptEnv.level) (reliable : decryptEnv.Reliable)
    (free : SlotFree ks after blob) :
    ∃ record version, after.keys.find? id = some record ∧
      record.currentKeyVersion = some version ∧
      (((Call.decrypt blob aad context).run ks decryptEnv after).1 = .ok (.plaintext plaintext) ↔
        Recoverable after.keys false (maxUnwrapDepth + 1) version) := by
  obtain ⟨sound, emptied⟩ := reachable.sound lawful
  exact (Call.encrypts_of_run encrypted).decrypts_after_iff lawful sound emptied sameLevel reliable
    free

/-- A store that holds no claim has every slot free. -/
theorem slotFree_of_empty (empty : world.replay.entries = []) (blob : EncryptedBlob) :
    SlotFree ks world blob := by
  intro domainId ciphertext nonce _ _ _
  simp [ReplayStore.liveEntries, empty, Claims.contains]

/-- An encryption under the data key of a line, with what it leaves behind. -/
theorem exists_encrypted (allowed : Step → World → Prop) (replay : ReplayStore) (kek : KeyState)
    (young : kek = .pending ∨ kek = .active)
    (allows : ∀ n call world plan, Call.Grows call → Grows plan → Grove world.keys plan →
      allowed ⟨0, quietEnv n, call⟩ world) :
    ∃ world after blob record version, blob.keyVersion = 1 ∧
      Reachable plainKeystore allowed world ∧
      Grove world.keys (line .active .active kek .active) ∧
      (Call.encrypt (keyNumbered 3) [1] ⟨[]⟩ ⟨[]⟩).run plainKeystore (quietEnv 4)
        { world with now := 0 } = (.ok (.blob blob), after) ∧
      after.replay = replay ∧
      Planted 3 ⟨.dataEncrypting, some 2, .active⟩ record version ∧
      after.keys = world.keys.insert (usedRecord record 0) := by
  obtain ⟨world, reachable, grove, kept⟩ := exists_line plainKeystore_growable allowed replay
    .active .active kek .active
    (by rcases young with rfl | rfl <;> decide) allows
  obtain ⟨sound, -⟩ := reachable.sound transparent_lawful
  obtain ⟨record, version, key, found, planted, stores⟩ :=
    grove.dataKey plainKeystore_growable sound
  obtain ⟨blob, first, resumes⟩ := planted.encrypt plainKeystore_growable stores
    { world with now := 0 } grove.resolves 4 [1] ⟨[]⟩ ⟨[]⟩ (by decide) (by decide) (by decide)
  have ran := resumes.run rfl found
  refine ⟨world, { world with now := 0, keys := world.keys.insert (usedRecord record 0) }, blob,
    record, version, first, reachable, grove, ?_, kept, planted, rfl⟩
  rw [Call.run, Call.prog, run_bind, ran]
  rfl

/-- A pending key-encrypting key does not stop an encryption below it, but its blob
cannot be read. -/
theorem blob_under_pending_kek_refused :
    ∃ world after blob, Reachable plainKeystore anyStep world ∧
      Grove world.keys (line .active .active .pending .active) ∧
      (Call.encrypt (keyNumbered 3) [1] ⟨[]⟩ ⟨[]⟩).run plainKeystore (quietEnv 4)
        { world with now := 0 } = (.ok (.blob blob), after) ∧
      SlotFree plainKeystore after blob ∧
      ((Call.decrypt blob ⟨[]⟩ ⟨[]⟩).run plainKeystore (quietEnv 4) after).1 ≠
        .ok (.plaintext [1]) := by
  obtain ⟨world, after, blob, record, version, first, reachable, grove, encrypted, kept, planted,
    written⟩ := exists_encrypted anyStep (.memory ⟨1, []⟩) .pending (.inl rfl)
      (fun _ _ _ _ _ _ _ => trivial)
  have free : SlotFree plainKeystore after blob := slotFree_of_empty (by rw [kept]; rfl) blob
  refine ⟨world, after, blob, reachable, grove, encrypted, free, ?_⟩
  rw [Ne, Call.decrypt_eq_ok_iff, decrypt_eq_ok_iff (quietEnv_reliable 4) free]
  have did := Call.encrypts_of_run encrypted
  obtain ⟨sound, emptied⟩ := reachable.sound transparent_lawful
  obtain ⟨soundAfter, emptiedAfter⟩ := did.sound transparent_lawful sound emptied
  obtain ⟨kekRecord, kekVersion, kekFound, kekPlanted⟩ := grove.planted 2 _ rfl
  have stored : after.keys.find? (keyNumbered 3) = some (usedRecord record 0) := by
    rw [written]
    exact find?_insert_own planted.id
  have kekStored : after.keys.find? (keyNumbered 2) = some kekRecord := by
    rw [written, ← kekFound]
    exact find?_insert_numbered planted.id (by decide) (by decide) (by decide)
  have numbered : (usedRecord record 0).getVersion blob.keyVersion = some version := by
    rw [first]
    exact planted.getVersion
  rw [did.decrypts_iff transparent_lawful did.extends soundAfter emptiedAfter stored numbered]
  rintro ⟨-, -, recoverable⟩
  cases recoverable with
  | master wrappedBy => simp [planted.wrappedBy, Planting.sealer] at wrappedBy
  | sealed wrappedBy wrappedAt found live readable lookup chain =>
      obtain rfl := Option.some.inj (planted.wrappedBy.symm.trans wrappedBy)
      obtain rfl := Option.some.inj (kekStored.symm.trans found)
      simp [kekPlanted.state, KeyState.canDecrypt] at readable

/-- With the keys above it active the blob is read back. -/
theorem blob_under_active_keys_read :
    ∃ world after blob, Reachable plainKeystore anyStep world ∧
      (Call.encrypt (keyNumbered 3) [1] ⟨[]⟩ ⟨[]⟩).run plainKeystore (quietEnv 4)
        { world with now := 0 } = (.ok (.blob blob), after) ∧
      ((Call.decrypt blob ⟨[]⟩ ⟨[]⟩).run plainKeystore (quietEnv 4) after).1 =
        .ok (.plaintext [1]) := by
  obtain ⟨world, after, blob, record, version, first, reachable, grove, encrypted, kept, planted,
    written⟩ := exists_encrypted anyStep (.memory ⟨1, []⟩) .active (.inr rfl)
      (fun _ _ _ _ _ _ _ => trivial)
  refine ⟨world, after, blob, reachable, encrypted, ?_⟩
  obtain ⟨found, current, stored, isCurrent, reads⟩ := decrypt_after_encrypt_iff transparent_lawful
    reachable 0 encrypted rfl (quietEnv_reliable 4)
    (slotFree_of_empty (by rw [kept]; rfl) blob)
  have own : (usedRecord record 0).id = keyNumbered 3 := planted.id
  rw [written, find?_insert_own own] at stored
  cases stored
  obtain rfl : version = current := Option.some.inj (planted.current.symm.trans isCurrent)
  rw [reads, written]
  exact grove.recoverable (fun n above => find?_insert_numbered own (by omega) (by decide)
    (by omega)) planted

end Keystore

end Citadel
