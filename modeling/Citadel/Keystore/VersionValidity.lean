import Citadel.Keystore.Growth
import Citadel.Keystore.KeyFile

/-!
# Consistent versions

`KeyVersion::validate` ties the fields of a version to the kind of its material. Wrapping sets all
of them at once, so what generation, rotation and rewrapping store is consistent. Destruction
replaces the material and leaves the nonce of a master-key wrapping behind.
-/

namespace Citadel

open Envelope Program Keystore

/-- `is_encrypted`. -/
def SecretKeyMaterial.isEncrypted : SecretKeyMaterial → Bool
  | .encrypted _ => true
  | _ => false

namespace KeyVersion

/-- `is_aes_wrapped`. -/
def isAesWrapped (version : KeyVersion) : Bool := version.secretKeyMaterial.isEncrypted

/-- `validate`. -/
def validate (version : KeyVersion) : Except String Unit :=
  match version.secretKeyMaterial with
  | .encrypted _ =>
      if version.wrapNonceHex.isNone then
        .error s!"key version {version.version} is AES-wrapped but wrap_nonce_hex is missing"
      else if version.wrappingKeyId.isSome then
        .error (s!"key version {version.version} is AES-wrapped but has a wrapping_key_id " ++
          "(should be None)")
      else .ok ()
  | .citadelWrapped _ =>
      if version.wrappingKeyId.isNone then
        .error s!"key version {version.version} is CitadelWrapped but wrapping_key_id is missing"
      else if version.wrappingKeyVersion.isNone then
        .error (s!"key version {version.version} is CitadelWrapped but wrapping_key_version " ++
          "is missing")
      else if version.wrapNonceHex.isSome then
        .error (s!"key version {version.version} is CitadelWrapped but wrap_nonce_hex " ++
          "should be None")
      else .ok ()
  | .plaintext _ | .destroyed =>
      if version.wrapNonceHex.isSome then
        .error s!"key version {version.version} is not AES-wrapped but wrap_nonce_hex is present"
      else .ok ()

variable {version : KeyVersion}

/-- A consistent version has a nonce exactly if the master key wraps it, and names its wrapping
key exactly as its kind asks. -/
theorem validate_eq_ok_iff : version.validate = .ok () ↔
    version.wrapNonceHex.isSome = version.isAesWrapped ∧
    (∀ text, version.secretKeyMaterial = .encrypted text → version.wrappingKeyId = none) ∧
    ∀ text, version.secretKeyMaterial = .citadelWrapped text →
      version.wrappingKeyId ≠ none ∧ version.wrappingKeyVersion ≠ none := by
  unfold validate isAesWrapped SecretKeyMaterial.isEncrypted
  cases version.secretKeyMaterial with
  | encrypted text =>
      cases version.wrapNonceHex <;> cases version.wrappingKeyId <;> simp
  | citadelWrapped text =>
      cases version.wrapNonceHex <;> cases version.wrappingKeyId <;>
        cases version.wrappingKeyVersion <;> simp
  | plaintext text => cases version.wrapNonceHex <;> simp
  | destroyed => cases version.wrapNonceHex <;> simp

/-- The fields that a wrapping sets are consistent. -/
theorem validate_of_wraps {ks : Keystore} (lawful : ks.crypto.Lawful) {keys : Keys} {id : KeyId}
    {number : Nat} {secret : Bytes} {parentId : Option KeyId} {wrapped : Wrapped}
    (wraps : Wraps ks keys id number secret parentId wrapped)
    (material : version.secretKeyMaterial = wrapped.material)
    (wrappedBy : version.wrappingKeyId = wrapped.wrappingKeyId)
    (wrappedAt : version.wrappingKeyVersion = wrapped.wrappingKeyVersion)
    (extracted : version.wrapNonceHex = extractWrapNonce wrapped.material) :
    version.validate = .ok () := by
  rw [validate_eq_ok_iff, isAesWrapped, material, wrappedBy, wrappedAt, extracted]
  cases wraps with
  | master unsealed wraps =>
      cases wraps with
      | plaintext unset => simp [extractWrapNonce, SecretKeyMaterial.isEncrypted]
      | @encrypted masterKey nonce ciphertext set encrypts =>
          -- the tag alone makes the ciphertext longer than nothing
          have tagged := lawful.aesGcmEncrypt_length _ _ _ _ _ encrypts
          have long : 28 < (utf8 ("enc:" ++ hexEncode nonce.1 ++ hexEncode ciphertext)).length := by
            have label : (utf8 "enc:").length = 4 := rfl
            simp only [utf8_append, List.length_append, label, utf8_hexEncode, hexBytes_length,
              nonce.2, tagged]
            omega
          rw [extractWrapNonce, if_pos long]
          simp [SecretKeyMaterial.isEncrypted]
  | sealed found sealing current stores seals =>
      obtain ⟨coins, envelope, -, rfl⟩ := seals
      simp [extractWrapNonce, SecretKeyMaterial.isEncrypted]

/-- A destroyed version is consistent if the master key did not wrap it. -/
theorem validate_destroyedVersion_iff :
    (destroyedVersion version).validate = .ok () ↔ version.wrapNonceHex = none := by
  rw [validate_eq_ok_iff]
  simp [destroyedVersion, isAesWrapped, SecretKeyMaterial.isEncrypted]

end KeyVersion

/-! ### Runs -/

variable {ks : Keystore} {env : Env} {keys : Keys} {world : World} {step : Step}
  {record : KeyMetadata} {id : KeyId}

/-- Every version of every key passes `KeyVersion::validate`. -/
def AllValid (keys : Keys) : Prop :=
  ∀ id record, keys.find? id = some record → ∀ version ∈ record.versions,
    version.validate = .ok ()

/-- The step is a destruction that comes to store its record. -/
structure Destroys (step : Step) (world : World) (id : KeyId) (record : KeyMetadata) : Prop where
  call : step.call = .destroy id
  found : world.keys.find? id = some record
  edge : record.state.canTransitionTo .destroyed = true
  reads : step.env.getFault id = none
  overwrites : step.env.overwriteFault id = none
  stores : ∀ error, step.env.putOutcome id ≠ .refused error

/-- The step destroys no key of which the master key wraps a version. -/
def SparesAesWrapped (step : Step) (world : World) : Prop :=
  ∀ id record, Destroys step world id record →
    ∀ version ∈ record.versions, version.isAesWrapped = false

/-- Every record that a call other than a destruction writes is valid. -/
theorem Change.versions_valid {call : Call} (lawful : ks.crypto.Lawful)
    (change : Change ks env keys call record) (all : AllValid keys)
    (other : ∀ id, call ≠ .destroy id) :
    ∀ version ∈ record.versions, version.validate = .ok () := by
  cases change with
  | generated kem placed wraps =>
      intro version member
      obtain rfl := List.mem_singleton.mp member
      exact KeyVersion.validate_of_wraps lawful wraps rfl rfl rfl rfl
  | signingGenerated placed wraps =>
      intro version member
      obtain rfl := List.mem_singleton.mp member
      exact KeyVersion.validate_of_wraps lawful wraps rfl rfl rfl rfl
  | activated found edge =>
      exact fun version member => all _ _ found version member
  | rotated found active wraps =>
      intro version member
      rcases List.mem_append.mp member with old | added
      · exact all _ _ found version old
      · obtain rfl := List.mem_singleton.mp added
        exact KeyVersion.validate_of_wraps lawful wraps rfl rfl rfl rfl
  | rewrapped found current unwraps wraps =>
      intro version member
      rcases mem_updateVersion member with old | ⟨old, -, rfl⟩
      · exact all _ _ found version old
      · exact KeyVersion.validate_of_wraps lawful wraps rfl rfl rfl rfl
  | revoked found active =>
      exact fun version member => all _ _ found version member
  | cascadeRevoked found active =>
      exact fun version member => all _ _ found version member
  | suspended found edge =>
      exact fun version member => all _ _ found version member
  | expired found usable =>
      exact fun version member => all _ _ found version member
  | dueExpired found usable =>
      exact fun version member => all _ _ found version member
  | destroyed found edge => exact absurd rfl (other _)
  | used found active data =>
      exact fun version member => all _ _ found version member

theorem AllValid.insert (all : AllValid keys)
    (valid : ∀ version ∈ record.versions, version.validate = .ok ()) :
    AllValid (keys.insert record) := by
  intro id stored found
  rw [Table.find?_insert] at found
  split at found
  · obtain rfl := Option.some.inj found
    exact valid
  · exact all id stored found

/-- What a destruction leaves: the keys as they were, or the destroyed record among them. -/
theorem destroy_keys (ks : Keystore) (isDestroy : step.call = .destroy id) :
    ((∀ record, ¬ Destroys step world id record) ∧
        (step.run ks world).2.keys = world.keys) ∨
      ∃ record, Destroys step world id record ∧ (step.run ks world).2.keys =
        world.keys.insert (destroyedRecord record step.now step.now) := by
  have ran : (step.run ks world).2.keys =
      ((destroy id).run (handle step.env) (step.enter world)).2.keys := by
    rw [Step.run, isDestroy, Call.run, Call.prog, run_bind]
    cases ((destroy id).run (handle step.env) (step.enter world)) with
    | mk outcome after => cases outcome <;> rfl
  rw [ran, destroy, run_mapErr, run_bind]
  cases fault : step.env.getFault id with
  | some error =>
      have failed : (Keystore.get id).run (handle step.env) (step.enter world) =
          (.err error, step.enter world) := by
        simp [Keystore.get, handle, faulty, fault, Program.ofExcept]
      refine Or.inl ⟨fun record destroys => ?_, ?_⟩
      · cases fault.symm.trans destroys.reads
      · rw [failed]
        rfl
  | none =>
      cases found : world.keys.find? id with
      | none =>
          have failed : (Keystore.get id).run (handle step.env) (step.enter world) =
              (.err (.keyNotFound id), step.enter world) := by
            simp [Keystore.get, handle, faulty, fault, Program.ofExcept, Program.ofOption, found,
              Step.enter]
          refine Or.inl ⟨fun record destroys => ?_, ?_⟩
          · cases found.symm.trans destroys.found
          · rw [failed]
            rfl
      | some record =>
          have own : record.id = id := Table.key_of_find? found
          have got : (Keystore.get id).run (handle step.env) (step.enter world) =
              (.ok record, step.enter world) := get_run fault found
          rw [got, andThen_ok]
          by_cases edge : record.state.canTransitionTo .destroyed = true
          · cases overwrite : step.env.overwriteFault id with
            | some error =>
                refine Or.inl ⟨fun record destroys => ?_, ?_⟩
                · cases overwrite.symm.trans destroys.overwrites
                · simp [edge, handle, faulty, overwrite, Program.ofExcept, Step.enter]
            | none =>
                cases outcome : step.env.putOutcome id with
                | refused error =>
                    refine Or.inl ⟨fun record destroys => ?_, ?_⟩
                    · exact destroys.stores error outcome
                    · simp [edge, handle, handlePut, destroyedRecord, own, faulty, overwrite,
                        outcome, Program.ofExcept, Step.enter]
                | stored =>
                    refine Or.inr ⟨record, ⟨isDestroy, found, edge, fault, overwrite, ?_⟩, ?_⟩
                    · intro error refused
                      cases outcome.symm.trans refused
                    · simp [edge, handle, handlePut, destroyedRecord, own, faulty, overwrite,
                        outcome, Program.ofExcept, Step.enter]
                | storedThenFailed error =>
                    refine Or.inr ⟨record, ⟨isDestroy, found, edge, fault, overwrite, ?_⟩, ?_⟩
                    · intro error refused
                      cases outcome.symm.trans refused
                    · simp [edge, handle, handlePut, destroyedRecord, own, faulty, overwrite,
                        outcome, Program.ofExcept, Step.enter]
          · refine Or.inl ⟨fun other destroys => ?_, ?_⟩
            · obtain rfl := Option.some.inj (found.symm.trans destroys.found)
              exact edge destroys.edge
            · simp [edge, Step.enter]

/-- A step keeps the versions valid exactly if it destroys no key of which the master key wraps
a version. -/
theorem AllValid.step_iff (lawful : ks.crypto.Lawful) (all : AllValid world.keys) :
    AllValid (step.run ks world).2.keys ↔ SparesAesWrapped step world := by
  by_cases isDestroy : ∃ id, step.call = .destroy id
  · obtain ⟨id, isDestroy⟩ := isDestroy
    have target : ∀ {other record}, Destroys step world other record → other = id := by
      intro other record destroys
      exact Call.destroy.inj (destroys.call.symm.trans isDestroy)
    rcases destroy_keys ks isDestroy with ⟨idle, keys⟩ | ⟨record, destroys, keys⟩
    · rw [keys]
      refine iff_of_true all ?_
      intro other record destroys
      obtain rfl := target destroys
      exact absurd destroys (idle record)
    · rw [keys]
      have own : record.id = id := Table.key_of_find? destroys.found
      constructor
      · intro valid other found destroysOther version member
        obtain rfl := target destroysOther
        obtain rfl := Option.some.inj (destroys.found.symm.trans destroysOther.found)
        have stored : (world.keys.insert (destroyedRecord record step.now step.now)).find? record.id =
            some (destroyedRecord record step.now step.now) := Table.find?_insert_self _ _
        have nonce := KeyVersion.validate_destroyedVersion_iff.mp
          (valid _ _ stored _ (List.mem_map_of_mem member))
        have same := (KeyVersion.validate_eq_ok_iff.mp (all _ _ destroys.found version member)).1
        rw [← same, nonce, Option.isSome_none]
      · intro spares
        apply all.insert
        intro version member
        obtain ⟨old, isOld, rfl⟩ := List.mem_map.mp member
        have same := (KeyVersion.validate_eq_ok_iff.mp (all _ _ destroys.found old isOld)).1
        rw [spares id record destroys old isOld, Option.isSome_eq_false_iff,
          Option.isNone_iff_eq_none] at same
        exact KeyVersion.validate_destroyedVersion_iff.mpr same
  · refine iff_of_true ?_ ?_
    · refine step.keys_invariant AllValid ?_ all
      intro keys record held mayWrite
      apply held.insert
      apply mayWrite.change.versions_valid lawful held
      exact fun id same => isDestroy ⟨id, same⟩
    · exact fun id record destroys => absurd ⟨id, destroys.call⟩ isDestroy

/-- In a run that destroys no key of which the master key wraps a version, the versions stay
valid. -/
theorem Reachable.allValid (lawful : ks.crypto.Lawful)
    (reachable : Reachable ks SparesAesWrapped world) : AllValid world.keys := by
  obtain ⟨now, replay, reaches⟩ := reachable
  induction reaches with
  | refl =>
      intro id record found
      cases found
  | step step prior fresh spares ih => exact (ih.step_iff lawful).mpr spares

/-- The versions of all keys are valid as long as no step destroys a key of which the master key
wraps a version, and the first such step leaves an invalid one. -/
theorem versions_valid_iff (ks : Keystore) (lawful : ks.crypto.Lawful) (world : World)
    (reachable : Reachable ks SparesAesWrapped world) :
    AllValid world.keys ∧
      ∀ step, AllValid (step.run ks world).2.keys ↔ SparesAesWrapped step world := by
  have all := reachable.allValid lawful
  exact ⟨all, fun step => all.step_iff lawful⟩

/-! ### A destroyed root -/

/-- The keystore with a master key, over the transparent backend. -/
def masterKeystore : Keystore := ⟨transparent, some (.zeros 32), fun _ => none⟩

/-- A root is generated. -/
def rootGenerated : Step := ⟨0, quietEnv 0, .generate "root" .root none none⟩

/-- The root is destroyed. -/
def rootDestroyed : Step := ⟨1, quietEnv 1, .destroy (keyNumbered 0)⟩

/-- The keystore with one root. -/
def rootOnly : World := (rootGenerated.run masterKeystore (.initial 0 (.memory ⟨1, []⟩))).2

theorem rootOnly_keys : ∃ record version, rootOnly.keys = Table.empty.insert record ∧
    record.id = keyNumbered 0 ∧ record.state = .pending ∧ record.versions = [version] ∧
      version.isAesWrapped = true :=
  ⟨_, _, rfl, rfl, rfl, rfl, rfl⟩

theorem rootGenerated_spares : SparesAesWrapped rootGenerated (.initial 0 (.memory ⟨1, []⟩)) := by
  intro id record destroys
  cases destroys.call

theorem rootOnly_reachable : Reachable masterKeystore SparesAesWrapped rootOnly :=
  ⟨0, .memory ⟨1, []⟩, .step rootGenerated .refl rfl rootGenerated_spares⟩

/-- A generated root is valid, and stays so unless it is destroyed. -/
theorem rootOnly_valid : AllValid rootOnly.keys ∧
    ∀ step, AllValid (step.run masterKeystore rootOnly).2.keys ↔ SparesAesWrapped step rootOnly :=
  versions_valid_iff masterKeystore transparent_lawful rootOnly rootOnly_reachable

/-- The destroyed root keeps its nonce. -/
theorem destroyed_root_invalid :
    masterKeystore.crypto.Lawful ∧
      Reachable masterKeystore anyStep (rootDestroyed.run masterKeystore rootOnly).2 ∧
      ¬ AllValid (rootDestroyed.run masterKeystore rootOnly).2.keys := by
  obtain ⟨record, version, keys, own, pending, versions, wrapped⟩ := rootOnly_keys
  have found : rootOnly.keys.find? (keyNumbered 0) = some record := by
    rw [keys]
    exact find?_insert_own own
  have fresh : rootDestroyed.Fresh rootOnly := by
    have absent : rootOnly.keys.find? (keyNumbered 1) = none := by
      rw [keys, find?_insert_numbered own (by decide) (by decide) (by decide)]
      rfl
    exact absent
  refine ⟨transparent_lawful, ?_, ?_⟩
  · exact ⟨0, .memory ⟨1, []⟩, .step rootDestroyed (.step rootGenerated .refl rfl trivial)
      fresh trivial⟩
  · have valid := rootOnly_reachable.allValid transparent_lawful
    rw [valid.step_iff transparent_lawful]
    intro spares
    have destroys : Destroys rootDestroyed rootOnly (keyNumbered 0) record :=
      ⟨rfl, found, by rw [pending]; rfl, rfl, rfl, fun error => PutOutcome.noConfusion⟩
    have unwrapped := spares _ _ destroys version (versions ▸ List.mem_cons_self)
    rw [wrapped] at unwrapped
    cases unwrapped

end Citadel
