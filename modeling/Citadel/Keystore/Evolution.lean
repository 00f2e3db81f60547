import Citadel.Keystore.Change

/-!
# How records evolve

A write either creates a pending record or edits the stored one. An edit keeps the
identity of the key and its public keys, follows the lifecycle table and never
touches a destroyed record. The results about whole runs follow from that and from
the rule for runs.
-/

namespace Citadel

open Envelope Program Keystore

/-! ### Looking up versions of an edited record -/

/-- Changing the first version with a number is seen at that number only. -/
theorem find?_updateVersion {number wanted : Nat} {change : KeyVersion → KeyVersion}
    (keeps : ∀ version, (change version).version = version.version) (versions : List KeyVersion) :
    (updateVersion number change versions).find? (fun version => version.version = wanted) =
      if wanted = number then
        (versions.find? fun version => version.version = wanted).map change
      else versions.find? fun version => version.version = wanted := by
  induction versions with
  | nil => simp [updateVersion]
  | cons version rest ih =>
      unfold updateVersion
      by_cases first : version.version = number
      · by_cases same : wanted = number
        · simp [first, same, keeps]
        · have different : version.version ≠ wanted := fun equal => same (equal ▸ first)
          have unchanged : (change version).version ≠ wanted := by rwa [keeps]
          rw [if_pos first, if_neg same, List.find?_cons_of_neg (by simpa using unchanged),
            List.find?_cons_of_neg (by simpa using different)]
      · by_cases same : wanted = number
        · subst same
          simpa [first] using ih
        · by_cases hit : version.version = wanted
          · simp [same, hit]
          · simpa [first, same, hit] using ih

theorem getVersion_rewrappedRecord (record : KeyMetadata) (now number : Nat) (wrapped : Wrapped) :
    (rewrappedRecord record now wrapped).getVersion number =
      if number = record.currentVersion then
        (record.getVersion number).map (rewrappedVersion wrapped)
      else record.getVersion number := by
  have keeps : ∀ version, (rewrappedVersion wrapped version).version = version.version :=
    fun _ => rfl
  exact find?_updateVersion keeps record.versions

/-- A version that was found is still found after another was appended. -/
theorem getVersion_rotatedRecord {record : KeyMetadata} {number : Nat} {found : KeyVersion}
    (lookup : record.getVersion number = some found) (now : Nat) (added : KeyVersion) :
    (rotatedRecord record now added).getVersion number = some found := by
  unfold KeyMetadata.getVersion rotatedRecord at *
  rw [List.find?_append, lookup]
  rfl

/-- Destroying versions keeps their numbers. -/
theorem getVersion_destroyedRecord (record : KeyMetadata) (destroyed updated number : Nat) :
    (destroyedRecord record destroyed updated).getVersion number =
      (record.getVersion number).map destroyedVersion := by
  unfold KeyMetadata.getVersion destroyedRecord
  rw [List.find?_map]
  rfl

/-! ### Edits -/

/-- How one write may change a stored record. -/
structure Edits (before after : KeyMetadata) : Prop where
  id : after.id = before.id
  keyType : after.keyType = before.keyType
  policyId : after.policyId = before.policyId
  parentId : after.parentId = before.parentId
  live : before.state ≠ .destroyed
  edge : after.state = before.state ∨ before.state.canTransitionTo after.state = true
  publicKeys : ∀ number version, before.getVersion number = some version →
    ∃ kept, after.getVersion number = some kept ∧
      (after.state ≠ .destroyed → kept.publicKeyHex = version.publicKeyHex)
  emptied : after.state = .destroyed →
    ∀ version ∈ after.versions, version.secretKeyMaterial = .destroyed

/-- An edit that leaves the versions alone. -/
theorem Edits.ofVersions {before after : KeyMetadata} (id : after.id = before.id)
    (keyType : after.keyType = before.keyType) (policyId : after.policyId = before.policyId)
    (parentId : after.parentId = before.parentId) (versions : after.versions = before.versions)
    (live : before.state ≠ .destroyed) (lives : after.state ≠ .destroyed)
    (edge : after.state = before.state ∨ before.state.canTransitionTo after.state = true) :
    Edits before after where
  id := id
  keyType := keyType
  policyId := policyId
  parentId := parentId
  live := live
  edge := edge
  publicKeys number version found := by
    refine ⟨version, ?_, fun _ => rfl⟩
    rw [KeyMetadata.getVersion, versions]
    exact found
  emptied destroyed := absurd destroyed lives

theorem edits_revokedRecord {before : KeyMetadata} (active : before.state = .active)
    (revoked updated : Nat) : Edits before (revokedRecord before revoked updated) := by
  refine .ofVersions rfl rfl rfl rfl rfl ?_ nofun ?_
  · simp [active]
  · rw [active]
    exact Or.inr rfl

theorem edits_expiredRecord {before : KeyMetadata} (usable : before.state.canDecrypt = true)
    (now : Nat) : Edits before (expiredRecord before now) := by
  rcases KeyState.canDecrypt_iff.mp usable with active | rotated
  · refine .ofVersions rfl rfl rfl rfl rfl (by simp [active]) nofun ?_
    rw [active]
    exact Or.inr rfl
  · refine .ofVersions rfl rfl rfl rfl rfl (by simp [rotated]) nofun ?_
    rw [rotated]
    exact Or.inr rfl

theorem edits_destroyedRecord {before : KeyMetadata}
    (edge : before.state.canTransitionTo .destroyed = true) (destroyed updated : Nat) :
    Edits before (destroyedRecord before destroyed updated) := by
  refine ⟨rfl, rfl, rfl, rfl, ?_, Or.inr edge, ?_, ?_⟩
  · intro already
    rw [already] at edge
    cases edge
  · intro number version lookup
    refine ⟨destroyedVersion version, ?_, fun lives => absurd rfl lives⟩
    rw [getVersion_destroyedRecord, lookup]
    rfl
  · intro _ version member
    obtain ⟨old, -, rfl⟩ := List.mem_map.mp member
    rfl

theorem edits_rewrappedRecord {before : KeyMetadata} (live : before.state ≠ .destroyed)
    (now : Nat) (wrapped : Wrapped) : Edits before (rewrappedRecord before now wrapped) := by
  refine ⟨rfl, rfl, rfl, rfl, live, Or.inl rfl, ?_, fun destroyed => absurd destroyed live⟩
  intro number version lookup
  rw [getVersion_rewrappedRecord, lookup]
  split
  · exact ⟨_, rfl, fun _ => rfl⟩
  · exact ⟨_, rfl, fun _ => rfl⟩

/-- A destroyed record holds no secret. -/
def Emptied (keys : Keys) : Prop :=
  ∀ id record, keys.find? id = some record → record.state = .destroyed →
    ∀ version ∈ record.versions, version.secretKeyMaterial = .destroyed

theorem Emptied.empty : Emptied Table.empty := by
  intro id record found
  cases found

/-- Nothing is unwrapped from destroyed material. -/
theorem not_unwraps_of_destroyed {ks : Keystore} {keys : Keys} {skip : Bool} {levels : Nat}
    {id : KeyId} {version : KeyVersion} {secret : Bytes}
    (destroyed : version.secretKeyMaterial = .destroyed) :
    ¬ Unwraps ks keys skip levels id version secret := by
  intro unwraps
  cases unwraps with
  | plaintext material => simp [destroyed] at material
  | encrypted material => simp [destroyed] at material
  | sealed material => simp [destroyed] at material

/-- How one write may add a record. -/
structure Creates (keys : Keys) (record : KeyMetadata) : Prop where
  absent : keys.find? record.id = none
  pending : record.state = .pending
  parent : ∀ parentId, record.parentId = some parentId →
    ∃ parent, keys.find? parentId = some parent

/-- A placed key has the parent it names. -/
theorem Keystore.Placed.parent {keys : Keys} {flat : Bool} {keyType : KeyType}
    {named : Option KeyId} (placed : Placed keys flat keyType named) :
    ∀ parentId, named = some parentId → ∃ parent, keys.find? parentId = some parent := by
  rintro parentId rfl
  cases placed with
  | child found admitted => exact ⟨_, found⟩

section MayWrite

variable {ks : Keystore} {step : Step} {world : World} {keys : Keys} {record : KeyMetadata}

/-- A write creates a pending record or edits the stored one. -/
theorem Call.MayWrite.created_or_edits (fresh : step.Fresh world) (emptied : Emptied keys)
    (mayWrite : step.call.MayWrite ks step.env world.keys keys record) :
    Creates keys record ∨
      ∃ before, keys.find? record.id = some before ∧ Edits before record := by
  obtain ⟨change, once⟩ := mayWrite
  generalize step.call = call at change once
  have identity : ∀ {id before}, keys.find? id = some before → keys.find? before.id = some before :=
    fun found => (Table.key_of_find? found).symm ▸ found
  cases change with
  | generated kem placed wraps =>
      cases once rfl
      exact Or.inl ⟨fresh, rfl, placed.parent⟩
  | signingGenerated placed wraps =>
      cases once rfl
      exact Or.inl ⟨fresh, rfl, placed.parent⟩
  | @activated id before updated now found edge =>
      refine Or.inr ⟨before, identity found, .ofVersions rfl rfl rfl rfl rfl ?_ nofun (Or.inr edge)⟩
      intro destroyed
      rw [destroyed] at edge
      cases edge
  | @rotated id before now wrapped found active wraps =>
      refine Or.inr ⟨before, identity found, rfl, rfl, rfl, rfl, ?_, Or.inl active.symm, ?_, nofun⟩
      · simp [active]
      · intro number version lookup
        exact ⟨version, getVersion_rotatedRecord lookup _ _, fun _ => rfl⟩
  | @rewrapped id newParentId before version secret now wrapped found current unwraps wraps =>
      refine Or.inr ⟨before, identity found, edits_rewrappedRecord ?_ _ _⟩
      intro destroyed
      have empty := emptied id before found destroyed version
        (KeyMetadata.mem_of_getVersion current)
      exact not_unwraps_of_destroyed empty unwraps
  | @revoked id before revoked updated found active =>
      exact Or.inr ⟨before, identity found, edits_revokedRecord active _ _⟩
  | @cascadeRevoked id before revoked updated found active =>
      exact Or.inr ⟨before, identity found, edits_revokedRecord active _ _⟩
  | @suspended root before now found edge =>
      refine Or.inr ⟨before, found, .ofVersions rfl rfl rfl rfl rfl ?_ nofun (Or.inr edge)⟩
      intro destroyed
      rw [destroyed] at edge
      cases edge
  | @expired id before now found usable =>
      exact Or.inr ⟨before, identity found, edits_expiredRecord usable _⟩
  | @dueExpired id before now found usable =>
      exact Or.inr ⟨before, identity found, edits_expiredRecord usable _⟩
  | @destroyed id before destroyed updated found edge =>
      exact Or.inr ⟨before, identity found, edits_destroyedRecord edge _ _⟩
  | @used id plaintext aad context before now found active data =>
      refine Or.inr ⟨before, identity found, .ofVersions rfl rfl rfl rfl rfl ?_ ?_ (Or.inl rfl)⟩
      · simp [active]
      · simp [usedRecord, active]

/-- A write keeps destroyed records empty. -/
theorem Call.MayWrite.emptied (fresh : step.Fresh world) (emptied : Emptied keys)
    (mayWrite : step.call.MayWrite ks step.env world.keys keys record) :
    Emptied (keys.insert record) := by
  intro id stored found destroyed
  rw [Table.find?_insert] at found
  split at found
  · cases found
    rcases mayWrite.created_or_edits fresh emptied with created | ⟨before, -, edits⟩
    · rw [created.pending] at destroyed
      cases destroyed
    · exact edits.emptied destroyed
  · exact emptied id stored found destroyed

/-- A write leaves a destroyed record alone. -/
theorem Call.MayWrite.keeps_destroyed {id : KeyId} {old : KeyMetadata} (fresh : step.Fresh world)
    (emptied : Emptied keys)
    (mayWrite : step.call.MayWrite ks step.env world.keys keys record)
    (found : keys.find? id = some old) (destroyed : old.state = .destroyed) :
    (keys.insert record).find? id = some old := by
  rw [Table.find?_insert_of_ne _ ?_]
  · exact found
  · rintro rfl
    rcases mayWrite.created_or_edits fresh emptied with created | ⟨before, stored, edits⟩
    · rw [created.absent] at found
      cases found
    · rw [found] at stored
      cases stored
      exact edits.live destroyed

end MayWrite

/-! ### What survives -/

/-- What a later record of a key has in common with an earlier one. -/
structure Outlives (before after : KeyMetadata) : Prop where
  keyType : after.keyType = before.keyType
  policyId : after.policyId = before.policyId
  parentId : after.parentId = before.parentId
  destroyed : before.state = .destroyed → after = before
  publicKeys : ∀ number version, before.getVersion number = some version →
    ∃ kept, after.getVersion number = some kept ∧
      (after.state ≠ .destroyed → kept.publicKeyHex = version.publicKeyHex)

theorem Outlives.refl (record : KeyMetadata) : Outlives record record :=
  ⟨rfl, rfl, rfl, fun _ => rfl, fun _ version found => ⟨version, found, fun _ => rfl⟩⟩

theorem Outlives.trans {first second third : KeyMetadata} (left : Outlives first second)
    (right : Outlives second third) : Outlives first third where
  keyType := right.keyType.trans left.keyType
  policyId := right.policyId.trans left.policyId
  parentId := right.parentId.trans left.parentId
  destroyed := by
    intro destroyed
    have same := left.destroyed destroyed
    subst same
    exact right.destroyed destroyed
  publicKeys := by
    intro number version found
    obtain ⟨middle, foundMiddle, keptMiddle⟩ := left.publicKeys number version found
    obtain ⟨last, foundLast, keptLast⟩ := right.publicKeys number middle foundMiddle
    refine ⟨last, foundLast, fun lives => (keptLast lives).trans (keptMiddle ?_)⟩
    intro destroyed
    exact lives (right.destroyed destroyed ▸ destroyed)

theorem Edits.outlives {before after : KeyMetadata} (edits : Edits before after) :
    Outlives before after :=
  ⟨edits.keyType, edits.policyId, edits.parentId, fun destroyed => absurd destroyed edits.live,
    edits.publicKeys⟩

/-- Every key of one table is still in the other. -/
def Extends (keys later : Keys) : Prop :=
  ∀ id record, keys.find? id = some record →
    ∃ kept, later.find? id = some kept ∧ Outlives record kept

theorem Extends.refl (keys : Keys) : Extends keys keys :=
  fun _ record found => ⟨record, found, Outlives.refl record⟩

theorem Extends.trans {first second third : Keys} (left : Extends first second)
    (right : Extends second third) : Extends first third := by
  intro id record found
  obtain ⟨middle, foundMiddle, outlives⟩ := left id record found
  obtain ⟨last, foundLast, further⟩ := right id middle foundMiddle
  exact ⟨last, foundLast, outlives.trans further⟩

/-- Replacing a record by one that outlives it keeps every key. -/
theorem Extends.insert {keys : Keys} {before record : KeyMetadata}
    (found : keys.find? record.id = some before) (outlives : Outlives before record) :
    Extends keys (keys.insert record) := by
  intro id stored present
  by_cases same : id = record.id
  · subst same
    rw [found] at present
    cases present
    exact ⟨record, Table.find?_insert_self _ _, outlives⟩
  · refine ⟨stored, ?_, Outlives.refl stored⟩
    rw [Table.find?_insert_of_ne _ same]
    exact present

/-- A write keeps every key. -/
theorem Call.MayWrite.extends {ks : Keystore} {step : Step} {world : World} {keys : Keys}
    {record : KeyMetadata} (fresh : step.Fresh world) (emptied : Emptied keys)
    (mayWrite : step.call.MayWrite ks step.env world.keys keys record) :
    Extends keys (keys.insert record) := by
  rcases mayWrite.created_or_edits fresh emptied with created | ⟨before, present, edits⟩
  · intro id stored found
    refine ⟨stored, ?_, Outlives.refl stored⟩
    rw [Table.find?_insert_of_ne]
    · exact found
    · rintro rfl
      rw [created.absent] at found
      cases found
  · exact Extends.insert present edits.outlives

/-- A written record has a current version if the stored one had. -/
theorem Change.hasCurrent {ks : Keystore} {env : Env} {keys : Keys} {call : Call}
    {record : KeyMetadata} (change : Change ks env keys call record)
    (had : ∀ id before, keys.find? id = some before →
      ∃ version, before.currentKeyVersion = some version) :
    ∃ version, record.currentKeyVersion = some version := by
  have unchanged : ∀ {id before}, keys.find? id = some before →
      record.currentKeyVersion = before.currentKeyVersion →
      ∃ version, record.currentKeyVersion = some version := by
    intro id before found same
    rw [same]
    exact had id before found
  cases change with
  | generated kem placed wraps => exact ⟨_, rfl⟩
  | signingGenerated placed wraps => exact ⟨_, rfl⟩
  | activated found edge => exact unchanged found rfl
  | rotated found active wraps =>
      apply Option.isSome_iff_exists.mp
      simp [KeyMetadata.currentKeyVersion, KeyMetadata.getVersion, rotatedRecord]
  | @rewrapped id newParentId before current secret now wrapped found lookup unwraps wraps =>
      have updated := getVersion_rewrappedRecord before now before.currentVersion wrapped
      rw [if_pos rfl, show before.getVersion before.currentVersion = some current from lookup]
        at updated
      exact ⟨_, updated⟩
  | revoked found active => exact unchanged found rfl
  | cascadeRevoked found active => exact unchanged found rfl
  | suspended found edge => exact unchanged found rfl
  | expired found usable => exact unchanged found rfl
  | dueExpired found usable => exact unchanged found rfl
  | @destroyed id before destroyed updated found edge =>
      obtain ⟨version, current⟩ := had _ _ found
      have emptied := getVersion_destroyedRecord before destroyed updated before.currentVersion
      rw [show before.getVersion before.currentVersion = some version from current] at emptied
      exact ⟨_, emptied⟩
  | used found active data => exact unchanged found rfl

/-- In every reachable state every key has a current version. -/
theorem Reachable.hasCurrent {ks : Keystore} {allowed : Step → World → Prop} {world : World}
    (reachable : Reachable ks allowed world) {id : KeyId} {record : KeyMetadata}
    (found : world.keys.find? id = some record) :
    ∃ version, record.currentKeyVersion = some version := by
  obtain ⟨now, replay, reaches⟩ := reachable
  have all := reaches.keys_invariant (fun keys => ∀ id record, keys.find? id = some record →
    ∃ version, record.currentKeyVersion = some version) ?_ ?_
  · exact all id record found
  · intro step world keys record _ _ had mayWrite id stored present
    rw [Table.find?_insert] at present
    split at present
    · cases present
      exact mayWrite.change.hasCurrent had
    · exact had id stored present
  · intro id record found
    cases found

end Citadel
