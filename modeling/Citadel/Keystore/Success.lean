import Citadel.Envelope.Transparent
import Citadel.Keystore.Decryption

/-!
# When calls succeed

The other half of the inversion lemmas: with a backend that answers, each operation
whose checks pass returns `Ok` and leaves the record that it says. For the wrapping of
secrets this needs a backend that seals what the envelope admits.
-/

namespace Citadel

open Envelope Program

namespace Keystore

variable {ks : Keystore} {env : Env} {world : World} {id : KeyId} {record : KeyMetadata}

/-- A program that reads a key first and, once it has read this record, ends like this,
whatever is stored by then. -/
def Resumes {ε α : Type} (env : Env) (world : World) (program : Prog ε α) (id : KeyId)
    (record : KeyMetadata) (result : Outcome ε α × World) : Prop :=
  ∃ next, program = .perform (.get id) next ∧
    (next (.ok (some record))).run (handle env) world = result

theorem resumes_get {α : Type} {continuation : KeyMetadata → Prog KeystoreError α} :
    Resumes env world (get id >>= continuation) id record
      ((continuation record).run (handle env) world) :=
  ⟨_, rfl, rfl⟩

theorem resumes_get_mapErr {ε α : Type} {translate : KeystoreError → ε}
    {continuation : KeyMetadata → Prog ε α} :
    Resumes env world ((get id).mapErr translate >>= continuation) id record
      ((continuation record).run (handle env) world) :=
  ⟨_, rfl, rfl⟩

theorem Resumes.mapErr {ε δ α : Type} {program : Prog ε α} {translate : ε → δ}
    {result : Outcome ε α × World} (resumes : Resumes env world program id record result) :
    Resumes env world (program.mapErr translate) id record
      (result.1.mapErr translate, result.2) := by
  obtain ⟨next, rfl, ran⟩ := resumes
  refine ⟨_, rfl, ?_⟩
  rw [run_mapErr, ran]

theorem Resumes.bind {ε α β : Type} {program : Prog ε α} {continuation : α → Prog ε β}
    {result : Outcome ε α × World} (resumes : Resumes env world program id record result) :
    Resumes env world (program >>= continuation) id record
      (andThen (handle env) continuation result) := by
  obtain ⟨next, rfl, ran⟩ := resumes
  refine ⟨_, rfl, ?_⟩
  rw [← ran, ← run_bind]
  rfl

/-- Played alone, a program reads the stored record. -/
theorem Resumes.run {ε α : Type} {program : Prog ε α} {result : Outcome ε α × World}
    (resumes : Resumes env world program id record result) (answers : env.getFault id = none)
    (found : world.keys.find? id = some record) : program.run (handle env) world = result := by
  obtain ⟨next, rfl, ran⟩ := resumes
  simp only [run_perform, handle, answers, found, faulty]
  exact ran

/-- An activation that has read a record writes it back as active. -/
theorem activate_resumes (reliable : env.Reliable)
    (edge : record.state.canTransitionTo .active = true) :
    Resumes env world (activate id) id record (.ok (), { world with
      keys := world.keys.insert (activatedRecord record world.now world.now) }) := by
  have resumes : Resumes env world (activate id) id record _ := resumes_get.mapErr
  simpa [transition, edge, handle, handlePut, reliable.put, Program.ofExcept, Outcome.mapErr,
    activatedRecord] using resumes

theorem activate_run (reliable : env.Reliable) (found : world.keys.find? id = some record)
    (edge : record.state.canTransitionTo .active = true) :
    (activate id).run (handle env) world =
      (.ok (), { world with
        keys := world.keys.insert (activatedRecord record world.now world.now) }) :=
  (activate_resumes reliable edge).run (reliable.get id) found

theorem revoke_run (reliable : env.Reliable) (found : world.keys.find? id = some record)
    (active : record.state = .active) :
    (revoke id).run (handle env) world =
      (.ok (), { world with
        keys := world.keys.insert (revokedRecord record world.now world.now) }) := by
  rw [revoke, run_mapErr, run_bind, get_run (reliable.get id) found, andThen_ok]
  simp [active, handle, handlePut, reliable.put, Program.ofExcept, Outcome.mapErr]

theorem destroy_run (reliable : env.Reliable) (found : world.keys.find? id = some record)
    (edge : record.state.canTransitionTo .destroyed = true) :
    (destroy id).run (handle env) world =
      (.ok (), { world with
        keys := world.keys.insert (destroyedRecord record world.now world.now) }) := by
  rw [destroy, run_mapErr, run_bind, get_run (reliable.get id) found, andThen_ok]
  simp [edge, handle, handlePut, faulty, reliable.put, reliable.overwrite, Program.ofExcept,
    Outcome.mapErr]

/-- The whole call of a destruction. -/
theorem destroy_prog_run {fuel : Nat} (reliable : env.Reliable)
    (found : world.keys.find? id = some record)
    (edge : record.state.canTransitionTo .destroyed = true) :
    ((Call.destroy id).prog ks fuel).run (handle env) world =
      (.ok .done, { world with
        keys := world.keys.insert (destroyedRecord record world.now world.now) }) := by
  rw [Call.prog, run_bind, destroy_run reliable found edge]
  rfl

/-- A keystore that can wrap secrets in this process: its backend seals what the
envelope admits, and without a master key plaintext storage is allowed. -/
structure CanWrap (ks : Keystore) (env : Env) : Prop where
  reliable : env.Reliable
  unset : ks.masterKey = none
  devMode : env.process.devMode = true
  seals : ks.crypto.Seals
  nonce : ∃ nonce, env.randomness.sealing.nonce = some nonce

theorem requireMasterKey_run (can : CanWrap ks env) :
    ks.requireMasterKey.run (handle env) world = (.ok (), world) := by
  simp only [requireMasterKey, can.unset, processEnv, call_bind, run_perform, handle, can.devMode,
    if_true, run_ret]

theorem wrapWithMasterKey_run (unset : ks.masterKey = none) (version : Nat) (secret : Bytes) :
    (ks.wrapWithMasterKey id version secret).run (handle env) world =
      (.ok (.plaintext (hexEncode secret)), world) := by
  simp [wrapWithMasterKey, unset]

/-- The context of a sealed key fits when the identifiers do. -/
theorem wrapWithCitadelKey_run (can : CanWrap ks env) {version : Nat} {parentId : KeyId}
    {publicKeyHex : String} {key : PublicKey} {secret : Bytes}
    (stores : StoresPublicKey ks publicKeyHex key)
    (secretFits : secret.length ≤ WireV2.maxPlaintextLen)
    (contextFits : (hierarchyWrapContext id version parentId.text).inner.length ≤
      WireV2.maxContextLen) :
    ∃ text, (ks.wrapWithCitadelKey id version parentId publicKeyHex secret).run (handle env) world =
      (.ok (.citadelWrapped text), world) := by
  obtain ⟨bytes, decoded, parsed⟩ := stores
  obtain ⟨nonce, drawn⟩ := can.nonce
  obtain ⟨envelope, sealed⟩ := can.seals env.randomness.sealing.encapsulation nonce key secret
    hierarchyWrapAad (hierarchyWrapContext id version parentId.text) secretFits (by decide) contextFits
  have coins : env.randomness.sealing = ⟨env.randomness.sealing.encapsulation, some nonce⟩ := by
    rw [← drawn]
  refine ⟨"ckw:" ++ hexEncode envelope, ?_⟩
  simp only [wrapWithCitadelKey, decodeHex, decoded, Program.ofExcept, ret_bind, parsed, osRng,
    call_bind, run_perform, handle]
  rw [coins, sealed]
  rfl

/-- The secret of a key can be wrapped for this parent. -/
inductive Sealable (ks : Keystore) (keys : Keys) (id : KeyId) (version : Nat) :
    Option KeyId → Prop where
  | master {parentId : Option KeyId}
      (unsealed : ∀ parent, parentId = some parent →
        ∃ record, keys.find? parent = some record ∧ wrapsChildren record.keyType = false) :
      Sealable ks keys id version parentId
  | sealed {parentId : KeyId} {parent : KeyMetadata} {parentVersion : KeyVersion} {key : PublicKey}
      (found : keys.find? parentId = some parent)
      (sealing : wrapsChildren parent.keyType = true)
      (current : parent.currentKeyVersion = some parentVersion)
      (stores : StoresPublicKey ks parentVersion.publicKeyHex key)
      (contextFits : (hierarchyWrapContext id version parentId.text).inner.length ≤
        WireV2.maxContextLen) : Sealable ks keys id version (some parentId)

/-- Whether a secret can be wrapped is up to its parent. -/
theorem Sealable.keeps {keys later : Keys} {version : Nat} {parentId : Option KeyId}
    (sealable : Sealable ks keys id version parentId)
    (kept : ∀ parent, parentId = some parent → later.find? parent = keys.find? parent) :
    Sealable ks later id version parentId := by
  cases sealable with
  | master unsealed =>
      refine .master fun parent same => ?_
      rw [kept parent same]
      exact unsealed parent same
  | @sealed parentId parent parentVersion key found sealing current stores contextFits =>
      exact .sealed ((kept parentId rfl).trans found) sealing current stores contextFits

theorem wrapSecretKeyFor_run (can : CanWrap ks env) {version : Nat} {parentId : Option KeyId}
    {secret : Bytes} (sealable : Sealable ks world.keys id version parentId)
    (secretFits : secret.length ≤ WireV2.maxPlaintextLen) :
    ∃ wrapped, (ks.wrapSecretKeyFor id version parentId secret).run (handle env) world =
        (.ok wrapped, world) ∧
      Wraps ks world.keys id version secret parentId wrapped := by
  suffices runs : ∃ wrapped, (ks.wrapSecretKeyFor id version parentId secret).run (handle env)
      world = (.ok wrapped, world) by
    obtain ⟨wrapped, ran⟩ := runs
    exact ⟨wrapped, ran, wraps_of_run ran⟩
  cases sealable with
  | master unsealed =>
      cases parentId with
      | none =>
          refine ⟨⟨.plaintext (hexEncode secret), none, none⟩, ?_⟩
          rw [wrapSecretKeyFor, run_bind, wrapWithMasterKey_run can.unset]
          rfl
      | some parentId =>
          obtain ⟨parent, found, sealing⟩ := unsealed parentId rfl
          refine ⟨⟨.plaintext (hexEncode secret), none, none⟩, ?_⟩
          simp [wrapSecretKeyFor, handle, faulty, can.reliable.get, found, Program.ofExcept,
            Program.ofOption, sealing, run_bind, wrapWithMasterKey_run can.unset]
  | @sealed parentId parent parentVersion key found sealing current stores contextFits =>
      obtain ⟨text, wrapped⟩ : ∃ text, (ks.wrapWithCitadelKey id version parentId
          parentVersion.publicKeyHex secret).run (handle env) world =
            (.ok (.citadelWrapped text), world) :=
        wrapWithCitadelKey_run can stores secretFits contextFits
      refine ⟨⟨.citadelWrapped text, some parentId.text, some parentVersion.version⟩, ?_⟩
      simp [wrapSecretKeyFor, handle, faulty, can.reliable.get, found, Program.ofExcept,
        Program.ofOption, sealing, current, run_bind, wrapped]

theorem kemKeyPair_fits (random : Randomness) :
    (ks.kemKeyPair random).2.length ≤ WireV2.maxPlaintextLen := by
  have length : (ks.kemKeyPair random).2.length = kemSecretKeyBytes :=
    SecretKey.toBytes_length (keygen ks.crypto random.keypair).2
  rw [length]
  decide

theorem createKey_run (can : CanWrap ks env) {name : String} {keyType : KeyType}
    {policyId : Option PolicyId} {parentId : Option KeyId}
    {keyPair : Randomness → Bytes × Bytes}
    (sealable : Sealable ks world.keys (.generate env.randomness.keyId) 1 parentId)
    (secretFits : (keyPair env.randomness).2.length ≤ WireV2.maxPlaintextLen) :
    ∃ wrapped, (ks.createKey name keyType policyId parentId keyPair).run (handle env) world =
        (.ok (.generate env.randomness.keyId), { world with
          keys := world.keys.insert (newRecord (.generate env.randomness.keyId) name keyType
            policyId parentId world.now (firstVersion world.now
              (hexEncode (keyPair env.randomness).1) wrapped)) }) ∧
      Wraps ks world.keys (.generate env.randomness.keyId) 1 (keyPair env.randomness).2 parentId
        wrapped := by
  obtain ⟨wrapped, wraps, holds⟩ := wrapSecretKeyFor_run can sealable secretFits
  refine ⟨wrapped, ?_, holds⟩
  simp only [createKey, osRng, utcNow, call_bind, run_perform, handle, run_bind, run_mapErr, wraps,
    Outcome.mapErr, andThen_ok]
  simp [handlePut, can.reliable.put, Program.ofExcept]

/-- A record that is stored is loaded. -/
theorem loaded_run {ε δ : Type} {translate : KeystoreError → ε} {error : ε}
    {continuation : KeyMetadata → Prog ε δ} (reliable : env.Reliable)
    (found : world.keys.find? id = some record) :
    (storageGet id >>= fun loaded => Program.ofExcept translate loaded >>= fun found =>
      Program.ofOption error found >>= continuation).run (handle env) world =
        (continuation record).run (handle env) world := by
  simp [handle, faulty, reliable.get, found, Program.ofExcept, Program.ofOption]

theorem checkHierarchy_run (reliable : env.Reliable) {keyType : KeyType} {parentId : Option KeyId}
    (placed : Placed world.keys env.process.flatOverride keyType parentId) :
    (checkHierarchy keyType parentId).run (handle env) world = (.ok (), world) := by
  rw [checkHierarchy, processEnv, call_bind, run_perform]
  cases placed with
  | root admitted =>
      have passes : ¬ (keyType ≠ .root ∧ env.process.flatOverride = false) := by
        rcases admitted with isRoot | flat
        · simp [isRoot]
        · simp [flat]
      exact congrArg (fun program : Prog KeystoreError Unit => program.run (handle env) world)
        (if_neg passes)
  | @child parentId parent found admitted =>
      have passes : ¬ (parent.keyType.role.canWrap keyType.role = false ∧
          env.process.flatOverride = false) := by
        rcases admitted with wraps | flat
        · simp [wraps]
        · simp [flat]
      refine (loaded_run reliable found).trans ?_
      exact congrArg (fun program : Prog KeystoreError Unit => program.run (handle env) world)
        (if_neg passes)

theorem generate_run (can : CanWrap ks env) {name : String} {keyType : KeyType}
    {policyId : Option PolicyId} {parentId : Option KeyId} (kem : keyType ≠ .signing)
    (placed : Placed world.keys env.process.flatOverride keyType parentId)
    (sealable : Sealable ks world.keys (.generate env.randomness.keyId) 1 parentId) :
    ∃ wrapped, (ks.generate name keyType policyId parentId).run (handle env) world =
        (.ok (.generate env.randomness.keyId), { world with
          keys := world.keys.insert (newRecord (.generate env.randomness.keyId) name keyType
            policyId parentId world.now (firstVersion world.now
              (hexEncode (ks.kemKeyPair env.randomness).1) wrapped)) }) ∧
      Wraps ks world.keys (.generate env.randomness.keyId) 1 (ks.kemKeyPair env.randomness).2
        parentId wrapped := by
  obtain ⟨wrapped, created, holds⟩ : ∃ wrapped, (ks.createKey name keyType policyId parentId
      ks.kemKeyPair).run (handle env) world = _ ∧ _ :=
    createKey_run can sealable (kemKeyPair_fits env.randomness)
  refine ⟨wrapped, ?_, holds⟩
  rw [generate, run_mapErr, if_neg kem, run_bind, requireMasterKey_run can, andThen_ok, run_bind,
    checkHierarchy_run can.reliable placed, andThen_ok, created]
  rfl

theorem generateSigningKey_run (can : CanWrap ks env) {name : String} {policyId : Option PolicyId}
    {parentId : KeyId} {parent : KeyMetadata} (found : world.keys.find? parentId = some parent)
    (rule : parent.keyType.role.canWrap .signingKey = true)
    (sealable : Sealable ks world.keys (.generate env.randomness.keyId) 1 (some parentId)) :
    ∃ wrapped, (ks.generateSigningKey name policyId parentId).run (handle env) world =
        (.ok (.generate env.randomness.keyId), { world with
          keys := world.keys.insert (newRecord (.generate env.randomness.keyId) name .signing
            policyId (some parentId) world.now (firstVersion world.now
              (hexEncode (ks.signingKeyPair env.randomness).1) wrapped)) }) ∧
      Wraps ks world.keys (.generate env.randomness.keyId) 1 (ks.signingKeyPair env.randomness).2
        (some parentId) wrapped := by
  have fits : (ks.signingKeyPair env.randomness).2.length ≤ WireV2.maxPlaintextLen := by
    rw [signingKeyPair, SizedBytes.length]
    decide
  obtain ⟨wrapped, created, holds⟩ : ∃ wrapped, (ks.createKey name .signing policyId
      (some parentId) ks.signingKeyPair).run (handle env) world = _ ∧ _ :=
    createKey_run can sealable fits
  refine ⟨wrapped, ?_, holds⟩
  have passes : ¬ (parent.keyType.role.canWrap .signingKey = false ∧
      env.process.flatOverride = false) := by simp [rule]
  rw [generateSigningKey, run_mapErr, run_bind, requireMasterKey_run can, andThen_ok,
    loaded_run can.reliable found, processEnv, call_bind, run_perform]
  refine Eq.trans (congrArg (fun program : Prog KeystoreError KeyId =>
    ((program.run (handle env) world).1.mapErr _, (program.run (handle env) world).2))
      (if_neg passes)) ?_
  rw [created]
  rfl

theorem rotate_run (can : CanWrap ks env) (found : world.keys.find? id = some record)
    (active : record.state = .active)
    (sealable : Sealable ks world.keys id ((record.currentVersion + 1) % 2 ^ 32) record.parentId) :
    ∃ wrapped, (ks.rotate id).run (handle env) world = (.ok id, { world with
        keys := world.keys.insert (rotatedRecord record world.now
          (ks.nextVersion env record world.now wrapped)) }) ∧
      Wraps ks world.keys id ((record.currentVersion + 1) % 2 ^ 32)
        (ks.kemKeyPair env.randomness).2 record.parentId wrapped := by
  obtain ⟨wrapped, wraps, holds⟩ : ∃ wrapped, (ks.wrapSecretKeyFor id
      ((record.currentVersion + 1) % 2 ^ 32) record.parentId (ks.kemKeyPair env.randomness).2).run
        (handle env) world = (.ok wrapped, world) ∧ _ :=
    wrapSecretKeyFor_run can sealable (kemKeyPair_fits env.randomness)
  refine ⟨wrapped, ?_, holds⟩
  rw [rotate, run_mapErr, run_bind, get_run (can.reliable.get id) found, andThen_ok,
    if_neg (not_not.mpr active), run_bind, requireMasterKey_run can, andThen_ok]
  simp only [osRng, utcNow, call_bind, run_perform, handle, run_bind, run_mapErr, wraps,
    Outcome.mapErr, andThen_ok]
  simp [handlePut, can.reliable.put, Program.ofExcept, nextVersion]

theorem rewrap_run (can : CanWrap ks env) {newParentId : Option KeyId} {version : KeyVersion}
    {secret : Bytes} (found : world.keys.find? id = some record)
    (current : record.currentKeyVersion = some version)
    (unwraps : Unwraps ks world.keys true (maxUnwrapDepth + 1) id version secret)
    (sealable : Sealable ks world.keys id version.version newParentId)
    (secretFits : secret.length ≤ WireV2.maxPlaintextLen) :
    ∃ wrapped, (ks.rewrap id newParentId).run (handle env) world = (.ok (), { world with
        keys := world.keys.insert (rewrappedRecord record world.now wrapped) }) ∧
      Wraps ks world.keys id version.version secret newParentId wrapped := by
  obtain ⟨wrapped, wraps, holds⟩ := wrapSecretKeyFor_run can sealable secretFits
  refine ⟨wrapped, ?_, holds⟩
  rw [rewrap, run_mapErr, run_bind, run_mapErr, get_run (can.reliable.get id) found]
  simp only [Outcome.mapErr, andThen_ok, current, Program.ofOption, ret_bind, run_bind, run_mapErr,
    unwrapKeyVersionForRewrap, run_of_unwraps can.reliable.get unwraps, wraps, utcNow, call_bind,
    run_perform, handle]
  simp [handlePut, can.reliable.put, Program.ofExcept]

theorem parsePublicKey_run {publicKeyHex : String} {key : PublicKey}
    (stores : StoresPublicKey ks publicKeyHex key) :
    (ks.parsePublicKey publicKeyHex).run (handle env) world = (.ok key, world) := by
  obtain ⟨bytes, decoded, parsed⟩ := stores
  simp [parsePublicKey, decodeHex, decoded, parsed, Program.ofExcept]

/-- What an encryption needs of the record that it read. -/
structure Encryptable (ks : Keystore) (env : Env) (world : World) (record : KeyMetadata)
    (version : KeyVersion) (key : PublicKey) : Prop where
  active : record.state = .active
  data : encryptsUserData record.keyType = true
  unblocked : ∃ verdict, ks.verdictAt env.level world.now record = .ok verdict ∧
    verdict.bind encryptionBlock = none
  current : record.currentKeyVersion = some version
  stores : StoresPublicKey ks version.publicKeyHex key

/-- An encryption that has read a record seals to its current version and writes the
record back. -/
theorem encrypt_resumes (reliable : env.Reliable) {plaintext : Bytes} {aad : Aad}
    {context : Context} {version : KeyVersion} {key : PublicKey} {domainId : KeyId}
    {ciphertext : Bytes} (encryptable : Encryptable ks env world record version key)
    (resolves : ResolvesTo world.keys 10 id domainId)
    (sealed : Envelope.seal ks.crypto env.randomness.sealing key plaintext
      (domainBoundAad domainId aad) context = .ok ciphertext) :
    Resumes env world (ks.encrypt id plaintext aad context) id record
      (.ok ⟨id.text, record.currentVersion, hexEncode ciphertext, world.now⟩,
        { world with keys := world.keys.insert (usedRecord record world.now) }) := by
  obtain ⟨active, data, ⟨verdict, evaluated, unblocked⟩, current, stores⟩ := encryptable
  have resumes : Resumes env world (ks.encrypt id plaintext aad context) id record _ :=
    resumes_get_mapErr.mapErr
  simpa only [Outcome.mapErr, andThen_ok, active, KeyState.canEncrypt, data, Bool.true_eq_false,
    if_false, run_bind, evaluateEffective_run, evaluated, unblocked, current, Program.ofOption,
    run_ret, parsePublicKey_run stores, resolveDomainForKey, run_mapErr,
    run_of_resolvesTo reliable.get resolves, osRng, utcNow, call, run_perform, handle, sealed,
    Program.ofExcept, storagePut, handlePut, reliable.put] using resumes

end Keystore

end Citadel
