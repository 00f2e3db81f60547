import Citadel.Keystore.RoundTrip

/-!
# Runs that keep to the hierarchy

Without the flat-hierarchy override every key is placed under a parent whose role can
wrap it. If `rewrap` keeps to that rule too, a version is only ever sealed to a
parent of a higher role (`Ranked`), so every wrapping chain is short and whether a
blob can be read is a question of lifecycle states alone.
-/

namespace Citadel

open Envelope Program

namespace Keystore

variable {ks : Keystore} {keys : Keys}

/-! ### The rule -/

/-- The parent may wrap the child. -/
def MayWrap (parent child : KeyMetadata) : Prop :=
  parent.keyType.role.canWrap child.keyType.role = true

/-- A step without the override, that rewraps only under the master key or under a
parent whose role can wrap the key. -/
def Orderly (step : Step) (world : World) : Prop :=
  step.env.process.flatOverride = false ∧
    ∀ id parentId child parent, step.call = .rewrap id (some parentId) →
      world.keys.find? id = some child → world.keys.find? parentId = some parent →
      MayWrap parent child

/-- A wrapped secret that keeps to the rule. -/
def RankedWrap (keys : Keys) (record : KeyMetadata) (wrappingKeyId : Option String) : Prop :=
  ∀ parentId, wrappingKeyId = some parentId →
    ∃ parent, keys.find? ⟨parentId⟩ = some parent ∧ wrapsChildren parent.keyType = true ∧
      MayWrap parent record

theorem Wraps.ranked {id : KeyId} {number : Nat} {secret : Bytes} {parentId : Option KeyId}
    {wrapped : Wrapped} {record : KeyMetadata}
    (wraps : Wraps ks keys id number secret parentId wrapped)
    (rule : ∀ parent stored, parentId = some parent → keys.find? parent = some stored →
      MayWrap stored record) : RankedWrap keys record wrapped.wrappingKeyId := by
  intro named wrappedBy
  cases wraps with
  | master unsealed wraps => cases wrappedBy
  | sealed found sealing current stores seals =>
      cases wrappedBy
      exact ⟨_, found, sealing, rule _ _ rfl found⟩

/-- The parent of a record, and every key that its versions are sealed to, is of a
role that can wrap the record's. -/
structure RankedRecord (keys : Keys) (record : KeyMetadata) : Prop where
  parent : ∀ parentId, record.parentId = some parentId →
    ∃ parent, keys.find? parentId = some parent ∧ MayWrap parent record
  versions : ∀ version ∈ record.versions, RankedWrap keys record version.wrappingKeyId

theorem RankedRecord.extends {later : Keys} {record : KeyMetadata} (kept : Extends keys later)
    (ranked : RankedRecord keys record) : RankedRecord later record := by
  constructor
  · intro parentId child
    obtain ⟨parent, found, wraps⟩ := ranked.parent parentId child
    obtain ⟨grown, present, outlives⟩ := kept _ _ found
    refine ⟨grown, present, ?_⟩
    rw [MayWrap, outlives.keyType]
    exact wraps
  · intro version member parentId wrappedBy
    obtain ⟨parent, found, sealing, wraps⟩ := ranked.versions version member parentId wrappedBy
    obtain ⟨grown, present, outlives⟩ := kept _ _ found
    refine ⟨grown, present, ?_, ?_⟩
    · rw [outlives.keyType]
      exact sealing
    · rw [MayWrap, outlives.keyType]
      exact wraps

/-- Every record keeps to the rule. -/
def Ranked (keys : Keys) : Prop :=
  ∀ id record, keys.find? id = some record → RankedRecord keys record

theorem Ranked.insert {record : KeyMetadata} (ranked : Ranked keys)
    (kept : Extends keys (keys.insert record)) (written : RankedRecord keys record) :
    Ranked (keys.insert record) := by
  intro id stored found
  rw [Table.find?_insert] at found
  split at found
  · cases found
    exact written.extends kept
  · exact (ranked id stored found).extends kept

/-- An edit of the state alone keeps a record ranked. -/
theorem RankedRecord.congr {before after : KeyMetadata} (ranked : RankedRecord keys before)
    (sameType : after.keyType = before.keyType) (sameParent : after.parentId = before.parentId)
    (versions : ∀ version ∈ after.versions,
      RankedWrap keys before version.wrappingKeyId) : RankedRecord keys after := by
  constructor
  · intro parentId child
    rw [sameParent] at child
    obtain ⟨parent, found, wraps⟩ := ranked.parent parentId child
    refine ⟨parent, found, ?_⟩
    rw [MayWrap, sameType]
    exact wraps
  · intro version member parentId wrappedBy
    obtain ⟨parent, found, sealing, wraps⟩ := versions version member parentId wrappedBy
    refine ⟨parent, found, sealing, ?_⟩
    rw [MayWrap, sameType]
    exact wraps

end Keystore

open Keystore

variable {ks : Keystore} {keys : Keys}

/-- A record that an orderly step writes keeps to the rule. -/
theorem Call.MayWrite.ranked {step : Step} {world : World} {record : KeyMetadata}
    (orderly : Orderly step world) (ranked : Ranked keys)
    (mayWrite : step.call.MayWrite ks step.env world.keys keys record) :
    RankedRecord keys record := by
  obtain ⟨change, once⟩ := mayWrite
  obtain ⟨noOverride, rewraps⟩ := orderly
  generalize step.call = call at change once rewraps
  have placedRule : ∀ {keyType parentId}, Placed keys step.env.process.flatOverride keyType
      (some parentId) → ∃ parent, keys.find? parentId = some parent ∧
        parent.keyType.role.canWrap keyType.role = true := by
    intro keyType parentId placed
    cases placed with
    | child found admitted =>
        rcases admitted with wraps | flat
        · exact ⟨_, found, wraps⟩
        · rw [noOverride] at flat
          cases flat
  have unchanged : ∀ {id before}, keys.find? id = some before →
      record.keyType = before.keyType → record.parentId = before.parentId →
      record.versions = before.versions → RankedRecord keys record := by
    intro id before found sameType sameParent sameVersions
    have old := ranked _ _ found
    exact old.congr sameType sameParent (sameVersions ▸ old.versions)
  cases change with
  | @generated name keyType policyId parentId now wrapped kem placed wraps =>
      constructor
      · rintro parentId child
        obtain rfl := child
        exact placedRule placed
      · intro version member
        obtain rfl := List.mem_singleton.mp member
        refine wraps.ranked ?_
        rintro parent stored rfl found
        obtain ⟨parent, found', rule⟩ := placedRule placed
        rw [found] at found'
        cases found'
        exact rule
  | @signingGenerated name policyId parentId now wrapped placed wraps =>
      constructor
      · rintro parentId child
        cases child
        exact placedRule placed
      · intro version member
        obtain rfl := List.mem_singleton.mp member
        refine wraps.ranked ?_
        rintro parent stored same found
        cases same
        obtain ⟨parent, found', rule⟩ := placedRule placed
        rw [found] at found'
        cases found'
        exact rule
  | activated found edge => exact unchanged found rfl rfl rfl
  | @rotated id before now wrapped found active wraps =>
      have old := ranked _ _ found
      refine old.congr rfl rfl ?_
      intro version member
      rcases List.mem_append.mp member with kept | added
      · exact old.versions version kept
      · obtain rfl := List.mem_singleton.mp added
        refine wraps.ranked ?_
        intro parent stored child found
        obtain ⟨parent, found', rule⟩ := old.parent _ child
        rw [found] at found'
        cases found'
        exact rule
  | @rewrapped id newParentId before current secret now wrapped found lookup unwraps wraps =>
      cases once rfl
      have old := ranked _ _ found
      refine old.congr rfl rfl ?_
      intro version member
      rcases mem_updateVersion member with kept | ⟨replaced, -, rfl⟩
      · exact old.versions version kept
      · refine wraps.ranked ?_
        rintro parent stored rfl present
        exact rewraps id parent before stored rfl found present
  | revoked found active => exact unchanged found rfl rfl rfl
  | cascadeRevoked found active => exact unchanged found rfl rfl rfl
  | suspended found edge => exact unchanged found rfl rfl rfl
  | expired found usable => exact unchanged found rfl rfl rfl
  | dueExpired found usable => exact unchanged found rfl rfl rfl
  | @destroyed id before destroyed updated found edge =>
      have old := ranked _ _ found
      refine old.congr rfl rfl ?_
      intro version member
      obtain ⟨kept, present, rfl⟩ := List.mem_map.mp member
      exact old.versions kept present
  | used found active data => exact unchanged found rfl rfl rfl

namespace Keystore

/-! ### Short chains -/

/-- The keys on the recorded wrapping chain of a version. -/
inductive OnChain (keys : Keys) : KeyVersion → KeyId → Prop where
  | parent {version : KeyVersion} {parentId : String}
      (wrappedBy : version.wrappingKeyId = some parentId) : OnChain keys version ⟨parentId⟩
  | above {version : KeyVersion} {parentId : String} {number : Nat} {parent : KeyMetadata}
      {parentVersion : KeyVersion} {ancestor : KeyId}
      (wrappedBy : version.wrappingKeyId = some parentId)
      (wrappedAt : version.wrappingKeyVersion = some number)
      (found : keys.find? ⟨parentId⟩ = some parent)
      (lookup : parent.getVersion number = some parentVersion)
      (chain : OnChain keys parentVersion ancestor) : OnChain keys version ancestor

/-- Above a version under the master key there is nothing. -/
theorem not_onChain {version : KeyVersion} {ancestor : KeyId}
    (unwrapped : version.wrappingKeyId = none) : ¬ OnChain keys version ancestor := by
  intro chain
  cases chain with
  | parent wrappedBy =>
      rw [unwrapped] at wrappedBy
      cases wrappedBy
  | above wrappedBy =>
      rw [unwrapped] at wrappedBy
      cases wrappedBy

/-- Above a sealed version are its parent and what is above the parent's version. -/
theorem OnChain.eq_or_above {version parentVersion : KeyVersion} {ancestor : KeyId}
    {parentId : String} {number : Nat} {parent : KeyMetadata}
    (chain : OnChain keys version ancestor) (wrappedBy : version.wrappingKeyId = some parentId)
    (wrappedAt : version.wrappingKeyVersion = some number)
    (found : keys.find? ⟨parentId⟩ = some parent)
    (lookup : parent.getVersion number = some parentVersion) :
    ancestor = ⟨parentId⟩ ∨ OnChain keys parentVersion ancestor := by
  cases chain with
  | parent wrappedBy' =>
      rw [wrappedBy] at wrappedBy'
      cases wrappedBy'
      exact .inl rfl
  | above wrappedBy' wrappedAt' found' lookup' chain =>
      rw [wrappedBy] at wrappedBy'
      cases wrappedBy'
      rw [wrappedAt] at wrappedAt'
      cases wrappedAt'
      rw [found] at found'
      cases found'
      rw [lookup] at lookup'
      cases lookup'
      exact .inr chain

/-- Every key on the wrapping chain of a version is active or rotated. -/
def ChainUsable (keys : Keys) (version : KeyVersion) : Prop :=
  ∀ ancestor, OnChain keys version ancestor → ∃ record, keys.find? ancestor = some record ∧
    (record.state = .active ∨ record.state = .rotated)

theorem Recoverable.chainUsable {levels : Nat} {version : KeyVersion}
    (recoverable : Recoverable keys false levels version) : ChainUsable keys version := by
  induction recoverable with
  | master unwrapped =>
      intro ancestor chain
      exact absurd chain (not_onChain unwrapped)
  | sealed wrappedBy wrappedAt found live readable lookup recoverable ih =>
      intro ancestor chain
      rcases chain.eq_or_above wrappedBy wrappedAt found lookup with rfl | above
      · exact ⟨_, found, KeyState.canDecrypt_iff.mp (readable.resolve_left nofun)⟩
      · exact ih ancestor above

/-- How many links a chain under a key of this type can have. -/
def chainBound : KeyType → Nat
  | .root => 0
  | .domain => 0
  | .keyEncrypting => 1
  | .dataEncrypting => 2
  | .hybridIdentity => 2
  | .signing => 2

/-- A key that seals is closer to the root than what it wraps. -/
theorem chainBound_lt {parent child : KeyType} (sealing : wrapsChildren parent = true)
    (rule : parent.role.canWrap child.role = true) : chainBound parent < chainBound child := by
  revert sealing rule
  cases parent <;> cases child <;> decide

/-- In a ranked table a usable chain is short enough to be followed. -/
theorem ChainUsable.recoverable (ranked : Ranked keys) (sound : Sound ks keys) {bound : Nat}
    {id : KeyId} {record : KeyMetadata} {version : KeyVersion}
    (found : keys.find? id = some record) (live : record.state ≠ .destroyed)
    (member : version ∈ record.versions) (usable : ChainUsable keys version)
    (short : chainBound record.keyType ≤ bound) :
    Recoverable keys false (bound + 1) version := by
  induction bound generalizing id record version with
  | zero =>
      refine .master ?_
      cases wrapped : version.wrappingKeyId with
      | none => rfl
      | some parentId =>
          obtain ⟨parent, -, sealing, rule⟩ :=
            (ranked _ _ found).versions version member parentId wrapped
          have closer := chainBound_lt sealing rule
          omega
  | succ bound ih =>
      obtain ⟨secret, holds, -⟩ := sound _ _ found live version member
      cases holds with
      | master wrappedBy wraps => exact .master wrappedBy
      | @sealed parentId number parent parentVersion key wrappedBy wrappedAt present sealing lookup
          stores seals =>
          obtain ⟨stored, present', rule⟩ := usable parentId (.parent wrappedBy)
          rw [present] at present'
          cases present'
          have readable := KeyState.canDecrypt_iff.mpr rule
          have liveParent : parent.state ≠ .destroyed := by
            rcases rule with active | rotated
            · simp [active]
            · simp [rotated]
          obtain ⟨same, samePresent, sealing', mayWrap⟩ :=
            (ranked _ _ found).versions version member parentId.text wrappedBy
          rw [show keys.find? ⟨parentId.text⟩ = some parent from present] at samePresent
          cases samePresent
          have closer := chainBound_lt sealing mayWrap
          refine .sealed wrappedBy wrappedAt present liveParent (Or.inr readable) lookup ?_
          refine ih present liveParent (KeyMetadata.mem_of_getVersion lookup) ?_ (by omega)
          intro ancestor chain
          exact usable ancestor (.above wrappedBy wrappedAt present lookup chain)

/-! ### Old blobs -/

/-- What an orderly run keeps. -/
structure Orderliness (ks : Keystore) (keys : Keys) : Prop where
  ranked : Ranked keys
  sound : Sound ks keys
  emptied : Emptied keys

theorem Orderliness.write {step : Step} {world : World} {record : KeyMetadata}
    (lawful : ks.crypto.Lawful) (orderly : Orderly step world) (fresh : step.Fresh world)
    (holds : Orderliness ks keys)
    (mayWrite : step.call.MayWrite ks step.env world.keys keys record) :
    Orderliness ks (keys.insert record) := by
  have kept := mayWrite.extends fresh holds.emptied
  exact ⟨holds.ranked.insert kept (mayWrite.ranked orderly holds.ranked),
    mayWrite.change.sound lawful holds.sound holds.emptied kept,
    mayWrite.emptied fresh holds.emptied⟩

theorem Orderliness.ofReachable (lawful : ks.crypto.Lawful) {world : World}
    (reachable : Reachable ks Orderly world) : Orderliness ks world.keys := by
  obtain ⟨now, replay, reaches⟩ := reachable
  refine reaches.keys_invariant (Orderliness ks) ?_ ⟨?_, ?_, ?_⟩
  · intro step world keys record orderly fresh holds mayWrite
    exact holds.write lawful orderly fresh mayWrite
  · intro id record found
    cases found
  · intro id record found
    cases found
  · intro id record found
    cases found

/-- Over an orderly run the keys stay orderly and none is lost. -/
theorem Orderliness.ofReaches (lawful : ks.crypto.Lawful) {start world : World}
    (holds : Orderliness ks start.keys) (reaches : Reaches ks Orderly start world) :
    Orderliness ks world.keys ∧ Extends start.keys world.keys := by
  refine reaches.keys_invariant
    (fun keys => Orderliness ks keys ∧ Extends start.keys keys) ?_ ⟨holds, Extends.refl _⟩
  rintro step world keys record orderly fresh ⟨holds, kept⟩ mayWrite
  exact ⟨holds.write lawful orderly fresh mayWrite,
    kept.trans (mayWrite.extends fresh holds.emptied)⟩

theorem Encrypts.orderliness {env : Env} {world after : World} {id : KeyId} {plaintext : Bytes}
    {aad : Aad} {context : Context} {blob : EncryptedBlob}
    (encrypted : Encrypts ks env world id plaintext aad context blob after)
    (lawful : ks.crypto.Lawful) (holds : Orderliness ks world.keys) :
    Orderliness ks after.keys := by
  have kept := encrypted.extends
  obtain ⟨sound, emptied⟩ := encrypted.sound lawful holds.sound holds.emptied
  obtain ⟨record, found, -, written, -⟩ := encrypted.change
  refine ⟨?_, sound, emptied⟩
  rw [written] at kept ⊢
  have old := holds.ranked _ _ found
  exact holds.ranked.insert kept (old.congr rfl rfl old.versions)

/-- In runs that keep to the hierarchy, a blob that was ever encrypted is read back,
by a `decrypt` with a free replay slot, exactly when its key is active or rotated,
the key's adapted policy verdict is not `Expired`, and every key on the recorded
wrapping chain of the blob's version is active or rotated. -/
theorem decrypt_of_orderly_run_iff (lawful : ks.crypto.Lawful) {origin after world : World}
    (reachable : Reachable ks Orderly origin) (encryptedAt decryptedAt : Nat)
    {encryptEnv decryptEnv : Env} {id : KeyId} {plaintext : Bytes} {aad : Aad} {context : Context}
    {blob : EncryptedBlob}
    (encrypted : (Call.encrypt id plaintext aad context).run ks encryptEnv
      { origin with now := encryptedAt } = (.ok (.blob blob), after))
    (reaches : Reaches ks Orderly after world) (reliable : decryptEnv.Reliable)
    (free : SlotFree ks { world with now := decryptedAt } blob) :
    ∃ record version, world.keys.find? id = some record ∧
      record.getVersion blob.keyVersion = some version ∧
      (((Call.decrypt blob aad context).run ks decryptEnv { world with now := decryptedAt }).1 =
          .ok (.plaintext plaintext) ↔
        (record.state = .active ∨ record.state = .rotated) ∧
        NotExpired ks decryptEnv.level decryptedAt record ∧ ChainUsable world.keys version) := by
  have did := Call.encrypts_of_run encrypted
  have orderlyThen := Orderliness.ofReachable lawful reachable
  have orderlyAfter := did.orderliness lawful orderlyThen
  obtain ⟨orderly, keptAfter⟩ := orderlyAfter.ofReaches lawful reaches
  have kept := did.extends.trans keptAfter
  obtain ⟨-, record, version, found, lookup⟩ := did.later kept
  refine ⟨record, version, found, lookup, ?_⟩
  have reads : Decrypts ks decryptEnv { world with now := decryptedAt } blob aad context
      plaintext ↔ _ :=
    did.decrypts_iff lawful kept orderly.sound orderly.emptied found lookup
  rw [Call.decrypt_eq_ok_iff, decrypt_eq_ok_iff reliable free, reads, KeyState.canDecrypt_iff]
  have bounded : chainBound record.keyType ≤ maxUnwrapDepth := by
    cases record.keyType <;> decide
  constructor
  · rintro ⟨usable, notExpired, recoverable⟩
    exact ⟨usable, notExpired, recoverable.chainUsable⟩
  · rintro ⟨usable, notExpired, chain⟩
    refine ⟨usable, notExpired, chain.recoverable orderly.ranked orderly.sound found ?_
      (KeyMetadata.mem_of_getVersion lookup) bounded⟩
    rcases usable with active | rotated
    · simp [active]
    · simp [rotated]

/-- The calls that grow a hierarchy keep to it. -/
theorem orderly_of_grows {n : Nat} {call : Call} {world : World} (grows : Call.Grows call) :
    Orderly ⟨0, quietEnv n, call⟩ world := by
  refine ⟨rfl, ?_⟩
  rintro id parentId child parent ⟨⟩
  cases grows

/-- A key with one version, below a parent that is as it was planted, can be rotated in an orderly
run. -/
theorem exists_rotation_later (growable : Growable ks) {origin start world : World}
    {plan : List Planting} (sound : Sound ks origin.keys) (grove : Grove origin.keys plan)
    (grows : Grows plan) (reaches : Reaches ks Orderly start world) {id : KeyId} {m k : Nat}
    {parent : Planting} {record : KeyMetadata} (place : plan[m]? = some parent)
    (kem : parent.keyType ≠ .signing) (named : ∃ random, id = .generate random)
    (found : world.keys.find? id = some record) (active : record.state = .active)
    (single : record.currentVersion = 1) (under : record.parentId = some (keyNumbered m))
    (above : world.keys.find? (keyNumbered m) = origin.keys.find? (keyNumbered m))
    (absent : world.keys.find? (keyNumbered k) = none) :
    ∃ second, Reaches ks Orderly start
      { world with keys := world.keys.insert (rotatedRecord record world.now second) } := by
  obtain ⟨random, rfl⟩ := named
  have sealable : Sealable ks world.keys (.generate random)
      ((record.currentVersion + 1) % 2 ^ 32) record.parentId := by
    rw [single, under]
    refine (grove.sealable growable.lawful sound grows place kem random (by decide)).keeps ?_
    intro other same
    obtain rfl := Option.some.inj same
    exact above
  obtain ⟨wrapped, rotates, -⟩ := rotate_run (growable.canWrap k) found active sealable
  have orderly : Orderly (Step.mk world.now (quietEnv k) (.rotate (.generate random))) world :=
    ⟨rfl, fun _ _ _ _ same => nomatch same⟩
  have stepped := reaches.step _ (fresh_of_absent absent) orderly
  rw [Step.run_of_prog (fun fuel => by
    rw [Call.prog, run_bind, rotates, andThen_ok, pure_eq_ret, run_ret])] at stepped
  exact ⟨_, stepped⟩

/-- The data key of a line and the key above it are rotated after an encryption. The chain of the
first version is the one before the rotations. -/
theorem exists_rotated_later {origin : World} {record : KeyMetadata} {version : KeyVersion}
    (reachable : Reachable plainKeystore Orderly origin)
    (grove : Grove origin.keys (line .active .active .active .active))
    (planted : Planted 3 ⟨.dataEncrypting, some 2, .active⟩ record version) {after : World}
    (written : after.keys = origin.keys.insert (usedRecord record 0)) :
    ∃ last second third kek, Reaches plainKeystore Orderly after last ∧
      last.replay = after.replay ∧
      last.keys.find? (keyNumbered 3) =
        some (rotatedRecord (usedRecord record 0) after.now second) ∧
      last.keys.find? (keyNumbered 2) = some (rotatedRecord kek after.now third) ∧
      kek.versions.length = 1 ∧ ChainUsable last.keys version := by
  obtain ⟨sound, -⟩ := reachable.sound transparent_lawful
  obtain ⟨kek, kekVersion, kekFound, kekPlanted⟩ := grove.planted 2 _ rfl
  obtain ⟨domain, domainVersion, domainFound, domainPlanted⟩ := grove.planted 1 _ rfl
  have own : (usedRecord record 0).id = keyNumbered 3 := planted.id
  have others : ∀ n, n < 6 → n ≠ 3 →
      after.keys.find? (keyNumbered n) = origin.keys.find? (keyNumbered n) := by
    intro n small different
    rw [written]
    exact find?_insert_numbered own different (by decide) (by omega)
  have stored : after.keys.find? (keyNumbered 3) = some (usedRecord record 0) := by
    rw [written]
    exact find?_insert_own own
  have kekPlace : (line .active .active .active .active)[2]? =
      some ⟨.keyEncrypting, some 1, .active⟩ := rfl
  have domainPlace : (line .active .active .active .active)[1]? =
      some ⟨.domain, some 0, .active⟩ := rfl
  have absent : origin.keys.find? (keyNumbered 5) = none := grove.absent (by decide) (by decide)
  obtain ⟨second, once⟩ := exists_rotation_later plainKeystore_growable sound grove
    (line_grows (by decide)) .refl kekPlace (by decide) ⟨_, rfl⟩ stored planted.state
    planted.currentVersion planted.parentId (others 2 (by decide) (by decide))
    ((others 5 (by decide) (by decide)).trans absent)
  let rotated := rotatedRecord (usedRecord record 0) after.now second
  let middle : World := { after with keys := after.keys.insert rotated }
  have rotatedOwn : rotated.id = keyNumbered 3 := planted.id
  have apart : ∀ n, n < 6 → n ≠ 3 →
      middle.keys.find? (keyNumbered n) = origin.keys.find? (keyNumbered n) := by
    intro n small different
    exact (find?_insert_numbered rotatedOwn different (by decide) (by omega)).trans
      (others n small different)
  obtain ⟨third, twice⟩ := exists_rotation_later plainKeystore_growable sound grove
    (line_grows (by decide)) once domainPlace (by decide) ⟨_, rfl⟩
    ((apart 2 (by decide) (by decide)).trans kekFound) kekPlanted.state kekPlanted.currentVersion
    kekPlanted.parentId (apart 1 (by decide) (by decide))
    ((apart 5 (by decide) (by decide)).trans absent)
  let above := rotatedRecord kek after.now third
  have aboveOwn : above.id = keyNumbered 2 := kekPlanted.id
  have aboveStored : (middle.keys.insert above).find? (keyNumbered 2) = some above :=
    find?_insert_own aboveOwn
  have domainStored : (middle.keys.insert above).find? (keyNumbered 1) = some domain :=
    (find?_insert_numbered aboveOwn (by decide) (by decide) (by decide)).trans
      ((apart 1 (by decide) (by decide)).trans domainFound)
  have recoverable : Recoverable (middle.keys.insert above) false (maxUnwrapDepth + 1) version :=
    .sealed planted.wrappedBy planted.wrappedAt aboveStored (by simp [above, rotatedRecord])
      (.inr (by simp [above, rotatedRecord, KeyState.canDecrypt]))
      (getVersion_rotatedRecord kekPlanted.getVersion _ _)
      (.sealed kekPlanted.wrappedBy kekPlanted.wrappedAt domainStored
        (by simp [domainPlanted.state])
        (.inr (by simp [domainPlanted.state, KeyState.canDecrypt])) domainPlanted.getVersion
        (.master domainPlanted.wrappedBy))
  refine ⟨_, second, third, kek, twice, rfl, ?_, aboveStored, by simp [kekPlanted.versions],
    recoverable.chainUsable⟩
  exact (find?_insert_numbered aboveOwn (by decide) (by decide) (by decide)).trans
    (find?_insert_own rotatedOwn)

/-- A blob under active keys is read back after its key and the one above were rotated. -/
theorem old_blob_read :
    ∃ origin after last blob record kek, Reachable plainKeystore Orderly origin ∧
      (Call.encrypt (keyNumbered 3) [1] ⟨[]⟩ ⟨[]⟩).run plainKeystore (quietEnv 4)
        { origin with now := 0 } = (.ok (.blob blob), after) ∧
      Reaches plainKeystore Orderly after last ∧
      last.keys.find? (keyNumbered 3) = some record ∧ record.versions.length = 2 ∧
      last.keys.find? (keyNumbered 2) = some kek ∧ kek.versions.length = 2 ∧
      ((Call.decrypt blob ⟨[]⟩ ⟨[]⟩).run plainKeystore (quietEnv 4) { last with now := 7 }).1 =
        .ok (.plaintext [1]) := by
  obtain ⟨origin, after, blob, record, version, first, reachable, grove, encrypted, kept, planted,
    written⟩ := exists_encrypted Orderly (.memory ⟨1, []⟩) .active (.inr rfl)
      (fun _ _ _ _ grows _ _ => orderly_of_grows grows)
  obtain ⟨last, second, third, kek, reaches, same, stored, kekStored, single, usable⟩ :=
    exists_rotated_later reachable grove planted written
  refine ⟨origin, after, last, blob, _, _, reachable, encrypted, reaches, stored, ?_, kekStored, ?_,
    ?_⟩
  · simp [rotatedRecord, usedRecord, planted.versions]
  · simp [rotatedRecord, single]
  · have free : SlotFree plainKeystore { last with now := 7 } blob :=
      slotFree_of_empty (by rw [same, kept]; rfl) blob
    obtain ⟨found, current, present, lookup, reads⟩ := decrypt_of_orderly_run_iff transparent_lawful
      reachable 0 7 encrypted reaches (quietEnv_reliable 4) free
    obtain rfl := Option.some.inj (stored.symm.trans present)
    have old : (usedRecord record 0).getVersion 1 = some version := planted.getVersion
    rw [first, getVersion_rotatedRecord old] at lookup
    obtain rfl : version = current := Option.some.inj lookup
    rw [reads]
    refine ⟨.inl rfl, ⟨none, ?_, rfl⟩, usable⟩
    have unbound : (rotatedRecord (usedRecord record 0) after.now second).policyId = none :=
      planted.policyId
    simp [verdictAt, effectivePolicyFor, unbound]

end Keystore

end Citadel
