import Citadel.Keystore.Types

/-!
# Planning a migration

`planMigration` looks at a listing of keys and says which keys of the hierarchy have to
be created and which data keys have to be wrapped anew. It changes nothing.
-/

namespace Citadel

/-- `MigrationOptions`. -/
structure MigrationOptions where
  rootName : String
  domainName : String
  kekName : String
  skipAlreadyWrapped : Bool
  skipDestroyed : Bool
  deriving DecidableEq, Repr

/-- `MigrationOptions::default`. -/
def MigrationOptions.default : MigrationOptions where
  rootName := "default-root"
  domainName := "default-domain"
  kekName := "default-kek"
  skipAlreadyWrapped := true
  skipDestroyed := true

/-- `KeyToCreate`. The type is its text, as the plan prints it. -/
structure KeyToCreate where
  name : String
  keyType : String
  parentName : Option String
  reason : String
  deriving DecidableEq, Repr

/-- `KeyToRewrap`. -/
structure KeyToRewrap where
  keyId : String
  keyName : String
  currentWrapping : String
  targetParentName : String
  deriving DecidableEq, Repr

/-- `KeySkipped`. -/
structure KeySkipped where
  keyId : String
  keyName : String
  reason : String
  deriving DecidableEq, Repr

/-- `MigrationPlan`. -/
structure MigrationPlan where
  keysToCreate : List KeyToCreate
  keysToRewrap : List KeyToRewrap
  keysSkipped : List KeySkipped
  generatedAt : Nat
  deriving DecidableEq, Repr

/-- `MigrationPlan::is_empty`. -/
def MigrationPlan.isEmpty (plan : MigrationPlan) : Bool :=
  plan.keysToCreate.isEmpty && plan.keysToRewrap.isEmpty

/-- `Display for WrapAlgorithm`. -/
def WrapAlgorithm.display : WrapAlgorithm → String
  | .aes256GcmHkdfSha256 => "AES-256-GCM+HKDF-SHA256"
  | .citadelHybridV2 => "X25519+ML-KEM-768+AES-256-GCM"

namespace WrappingMode

/-- `WrappingMode::from_legacy`. -/
def fromLegacy (wrappingKeyId : Option String) (wrappingKeyVersion : Option Nat)
    (isCitadelWrapped : Bool) : WrappingMode :=
  match wrappingKeyId, wrappingKeyVersion, isCitadelWrapped with
  | some parentKeyId, some parentVersion, true =>
      .wrappedByKey parentKeyId parentVersion .citadelHybridV2
  | _, _, _ => .externalMaster

/-- `WrappingMode::summary`. Identifiers are hexadecimal, so their first bytes are their
first characters. -/
def summary : WrappingMode → String
  | .externalMaster => "external-master-key"
  | .wrappedByKey parentKeyId parentVersion algorithm =>
      s!"key:{String.ofList (parentKeyId.toList.take 8)}@v{parentVersion}({algorithm.display})"
  | .hsmBacked provider keyRef => s!"hsm:{provider}/{keyRef}"

end WrappingMode

/-- `is_citadel_wrapped`. -/
def SecretKeyMaterial.isCitadelWrapped : SecretKeyMaterial → Bool
  | .citadelWrapped _ => true
  | _ => false

/-- `effective_wrapping_mode`. -/
def KeyVersion.effectiveWrappingMode (version : KeyVersion) : WrappingMode :=
  version.wrappingMode.getD (.fromLegacy version.wrappingKeyId version.wrappingKeyVersion
    version.secretKeyMaterial.isCitadelWrapped)

/-! ### The plan -/

/-- An active key of that type and name. -/
def isNamed (keyType : KeyType) (name : String) (key : KeyMetadata) : Bool :=
  key.keyType = keyType && key.state = .active && key.name = name

/-- The keys of the hierarchy that are not there. -/
def planCreation (keys : List KeyMetadata) (opts : MigrationOptions) : List KeyToCreate :=
  let root := if keys.any (isNamed .root opts.rootName) then []
    else [⟨opts.rootName, "Root", none, "No active Root key exists"⟩]
  let domain := if keys.any (isNamed .domain opts.domainName) then []
    else [⟨opts.domainName, "Domain", some opts.rootName, "No active Domain KEK exists"⟩]
  let kek := if keys.any (isNamed .keyEncrypting opts.kekName) then []
    else [⟨opts.kekName, "KeyEncrypting", some opts.domainName,
      "No active KEK exists for DEK wrapping"⟩]
  root ++ domain ++ kek

/-- How the current version is wrapped, in words. -/
def currentWrapping (key : KeyMetadata) : String :=
  (key.currentKeyVersion.map fun version => version.effectiveWrappingMode.summary).getD "unknown"

/-- The current version names a key that wraps it. -/
def alreadyWrapped (key : KeyMetadata) : Bool :=
  (key.currentKeyVersion.bind KeyVersion.wrappingKeyId).isSome

/-- What is planned for one key: to pass over it, for a reason, or to wrap it anew. -/
def planKey (opts : MigrationOptions) (key : KeyMetadata) : Except KeySkipped KeyToRewrap :=
  if opts.skipDestroyed = true ∧ key.state = .destroyed then
    .error ⟨key.id.text, key.name, "Destroyed — no key material to rewrap"⟩
  else if key.keyType ≠ .dataEncrypting then
    .error ⟨key.id.text, key.name, s!"Not a DEK (type: {key.keyType.display})"⟩
  else if opts.skipAlreadyWrapped = true ∧ alreadyWrapped key = true then
    .error ⟨key.id.text, key.name, s!"Already wrapped by KEK ({currentWrapping key})"⟩
  else if key.state ≠ .active ∧ key.state ≠ .rotated then
    .error ⟨key.id.text, key.name, s!"State {key.state.display} — not rewrapping inactive key"⟩
  else .ok ⟨key.id.text, key.name, currentWrapping key, opts.kekName⟩

/-- `plan_migration`. -/
def planMigration (keys : List KeyMetadata) (opts : MigrationOptions) (now : Nat) :
    MigrationPlan where
  keysToCreate := planCreation keys opts
  keysToRewrap := keys.filterMap fun key => (planKey opts key).toOption
  keysSkipped := keys.filterMap fun key =>
    match planKey opts key with
    | .error skipped => some skipped
    | .ok _ => none
  generatedAt := now

/-- A data key that is in use and whose current version no other key wraps. -/
structure KeyMetadata.Flat (key : KeyMetadata) : Prop where
  data : key.keyType = .dataEncrypting
  used : key.state = .active ∨ key.state = .rotated
  unwrapped : alreadyWrapped key = false

section Plan

variable {keys : List KeyMetadata} {opts : MigrationOptions} {now : Nat}

/-- With the options of the command, exactly the flat data keys are wrapped anew. -/
theorem planKey_eq_ok {key : KeyMetadata} {spec : KeyToRewrap}
    (skips : opts.skipAlreadyWrapped = true) :
    planKey opts key = .ok spec ↔
      key.Flat ∧ spec = ⟨key.id.text, key.name, currentWrapping key, opts.kekName⟩ := by
  constructor
  · intro planned
    rw [planKey] at planned
    split at planned
    · cases planned
    split at planned
    · cases planned
    rename_i data
    split at planned
    · cases planned
    rename_i unwrapped
    split at planned
    · cases planned
    rename_i used
    cases planned
    refine ⟨⟨not_not.mp data, ?_, ?_⟩, rfl⟩
    · exact or_iff_not_imp_left.mpr fun inactive => by
        by_contra unrotated
        exact used ⟨inactive, unrotated⟩
    · simpa [skips] using unwrapped
  · rintro ⟨⟨data, used, unwrapped⟩, rfl⟩
    have live : ¬ (opts.skipDestroyed = true ∧ key.state = .destroyed) := by
      rintro ⟨-, destroyed⟩
      rcases used with active | rotated
      · simp [active] at destroyed
      · simp [rotated] at destroyed
    have wraps : ¬ (opts.skipAlreadyWrapped = true ∧ alreadyWrapped key = true) := by
      simp [unwrapped]
    have inUse : ¬ (key.state ≠ .active ∧ key.state ≠ .rotated) := by
      rintro ⟨inactive, unrotated⟩
      exact used.elim inactive unrotated
    rw [planKey, if_neg live, if_neg (not_not.mpr data), if_neg wraps, if_neg inUse]

theorem mem_keysToRewrap {spec : KeyToRewrap} (skips : opts.skipAlreadyWrapped = true) :
    spec ∈ (planMigration keys opts now).keysToRewrap ↔
      ∃ key ∈ keys, key.Flat ∧
        spec = ⟨key.id.text, key.name, currentWrapping key, opts.kekName⟩ := by
  simp only [planMigration, List.mem_filterMap]
  refine exists_congr fun key => and_congr_right fun _ => ?_
  rw [← planKey_eq_ok skips]
  cases planKey opts key with
  | error skipped => simp [Except.toOption]
  | ok planned => simp [Except.toOption]

/-- A plan is empty when the hierarchy is there and no data key is flat. -/
theorem isEmpty_planMigration (skips : opts.skipAlreadyWrapped = true) :
    (planMigration keys opts now).isEmpty = true ↔
      (∃ key ∈ keys, isNamed .root opts.rootName key = true) ∧
      (∃ key ∈ keys, isNamed .domain opts.domainName key = true) ∧
      (∃ key ∈ keys, isNamed .keyEncrypting opts.kekName key = true) ∧
      ∀ key ∈ keys, ¬ key.Flat := by
  have rewraps : (planMigration keys opts now).keysToRewrap = [] ↔ ∀ key ∈ keys, ¬ key.Flat := by
    rw [List.eq_nil_iff_forall_not_mem]
    constructor
    · intro none key member flat
      exact none _ ((mem_keysToRewrap skips).mpr ⟨key, member, flat, rfl⟩)
    · intro none spec planned
      obtain ⟨key, member, flat, -⟩ := (mem_keysToRewrap skips).mp planned
      exact none key member flat
  have creates : (planMigration keys opts now).keysToCreate = [] ↔
      keys.any (isNamed .root opts.rootName) = true ∧
      keys.any (isNamed .domain opts.domainName) = true ∧
      keys.any (isNamed .keyEncrypting opts.kekName) = true := by
    simp only [planMigration, planCreation]
    split <;> split <;> split <;> simp_all
  rw [MigrationPlan.isEmpty, Bool.and_eq_true, List.isEmpty_iff, List.isEmpty_iff, rewraps, creates]
  simp only [List.any_eq_true, and_assoc]

end Plan

end Citadel
