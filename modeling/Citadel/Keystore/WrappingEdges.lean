import Citadel.Keystore.GraphValidation
import Citadel.Keystore.Placement
import Citadel.Keystore.Hierarchy

/-!
# Wrapping edges

Every version names the key that it is sealed to, and every record names its parent.
`generate` and `rotate` seal a version to the record's parent, so the two agree;
`rewrap` seals the current version to any domain or key-encrypting key and leaves the
record's parent alone. What follows depends on the rewraps of a run alone.
-/

namespace Citadel

open Envelope Program Keystore

variable {ks : Keystore} {keys : Keys} {world : World} {record : KeyMetadata}

/-! ### Where a version comes from -/

/-- Where a version of a written record comes from. -/
inductive Origin (ks : Keystore) (keys : Keys) (call : Call) (record : KeyMetadata)
    (version : KeyVersion) : Prop where
  | kept {before : KeyMetadata} (found : keys.find? record.id = some before)
      (sameType : record.keyType = before.keyType) (sameParent : record.parentId = before.parentId)
      (member : version ∈ before.versions)
  | destroyed {id : KeyId} {before : KeyMetadata} {old : KeyVersion} (isDestroy : call = .destroy id)
      (found : keys.find? record.id = some before) (sameType : record.keyType = before.keyType)
      (sameParent : record.parentId = before.parentId) (member : old ∈ before.versions)
      (same : version = destroyedVersion old)
  | created {number : Nat} {secret : Bytes} {wrapped : Wrapped}
      (wraps : Wraps ks keys record.id number secret record.parentId wrapped)
      (edge : version.wrappingKeyId = wrapped.wrappingKeyId)
      (material : version.secretKeyMaterial = wrapped.material)
  | rewrapped {before : KeyMetadata} {newParentId : Option KeyId} {number : Nat} {secret : Bytes}
      {wrapped : Wrapped} (isRewrap : call = .rewrap record.id newParentId)
      (found : keys.find? record.id = some before) (sameType : record.keyType = before.keyType)
      (sameParent : record.parentId = before.parentId)
      (wraps : Wraps ks keys record.id number secret newParentId wrapped)
      (edge : version.wrappingKeyId = wrapped.wrappingKeyId)
      (material : version.secretKeyMaterial = wrapped.material)

/-- A written record has its old versions, and at most one that was wrapped by this
write. -/
theorem Change.origin {env : Env} {call : Call} (change : Change ks env keys call record) :
    ∀ version ∈ record.versions, Origin ks keys call record version := by
  have unchanged : ∀ {id before}, keys.find? id = some before → record.id = before.id →
      record.keyType = before.keyType → record.parentId = before.parentId →
      record.versions = before.versions →
      ∀ version ∈ record.versions, Origin ks keys call record version := by
    intro id before found sameId sameType sameParent sameVersions version member
    rw [← Table.key_of_find? found, ← sameId] at found
    exact .kept found sameType sameParent (sameVersions ▸ member)
  cases change with
  | generated kem placed wraps =>
      intro version member
      obtain rfl := List.mem_singleton.mp member
      exact .created wraps rfl rfl
  | signingGenerated placed wraps =>
      intro version member
      obtain rfl := List.mem_singleton.mp member
      exact .created wraps rfl rfl
  | activated found edge => exact unchanged found rfl rfl rfl rfl
  | @rotated id before now wrapped found active wraps =>
      have sameId := Table.key_of_find? found
      subst sameId
      intro version member
      rcases List.mem_append.mp member with kept | added
      · exact .kept found rfl rfl kept
      · obtain rfl := List.mem_singleton.mp added
        exact .created wraps rfl rfl
  | @rewrapped id newParentId before current secret now wrapped found lookup unwraps wraps =>
      have sameId := Table.key_of_find? found
      subst sameId
      intro version member
      rcases mem_updateVersion member with kept | ⟨replaced, -, rfl⟩
      · exact .kept found rfl rfl kept
      · exact .rewrapped rfl found rfl rfl wraps rfl rfl
  | revoked found active => exact unchanged found rfl rfl rfl rfl
  | cascadeRevoked found active => exact unchanged found rfl rfl rfl rfl
  | suspended found edge => exact unchanged found rfl rfl rfl rfl
  | expired found usable => exact unchanged found rfl rfl rfl rfl
  | dueExpired found usable => exact unchanged found rfl rfl rfl rfl
  | @destroyed id before destroyed updated found edge =>
      have sameId := Table.key_of_find? found
      subst sameId
      intro version member
      obtain ⟨old, present, rfl⟩ := List.mem_map.mp member
      exact .destroyed rfl found rfl rfl present rfl
  | used found active data => exact unchanged found rfl rfl rfl rfl

/-- The stored parent that a secret is sealed to, if there is one: any other secret goes
to the master key. -/
def sealer (keys : Keys) (parentId : Option KeyId) : Option KeyMetadata :=
  (parentId.bind keys.find?).filter fun parent => wrapsChildren parent.keyType

theorem sealer_of_find? {parentId : KeyId} {parent : KeyMetadata}
    (found : keys.find? parentId = some parent) :
    sealer keys (some parentId) =
      if wrapsChildren parent.keyType = true then some parent else none := by
  rw [sealer, Option.bind_some, found]
  rfl

/-- A wrapped secret names its sealer. -/
theorem Keystore.Wraps.names {id : KeyId} {number : Nat} {secret : Bytes} {parentId : Option KeyId}
    {wrapped : Wrapped} (wraps : Wraps ks keys id number secret parentId wrapped) :
    (∃ named parent, parentId = some named ∧ keys.find? named = some parent ∧
      sealer keys parentId = some parent ∧ wrapped.wrappingKeyId = some named.text) ∨
    (sealer keys parentId = none ∧ wrapped.wrappingKeyId = none ∧
      ∀ text, wrapped.material ≠ .citadelWrapped text) := by
  cases wraps with
  | master unsealed wraps =>
      refine .inr ⟨?_, rfl, ?_⟩
      · cases parentId with
        | none => rfl
        | some parent =>
            obtain ⟨stored, found, notSealing⟩ := unsealed parent rfl
            simp [sealer_of_find? found, notSealing]
      · cases wraps with
        | plaintext unset => nofun
        | encrypted set encrypts => nofun
  | sealed found sealing current stores seals =>
      exact .inl ⟨_, _, rfl, found, by simp [sealer_of_find? found, sealing], rfl⟩

/-! ### Edges along the parents -/

/-- A sealed version names the parent of its record. -/
def FollowsParent (record : KeyMetadata) : Prop :=
  ∀ version ∈ record.versions, ∀ text, version.secretKeyMaterial = .citadelWrapped text →
    version.wrappingKeyId = record.parentId.map KeyId.text

/-- A step that rewraps a key only under its own parent or with the master key. -/
def InPlace (step : Step) (world : World) : Prop :=
  ∀ id newParentId child, step.call = .rewrap id newParentId → world.keys.find? id = some child →
    sealer world.keys newParentId ≠ none → newParentId = child.parentId

theorem followsParent_of_wraps {number : Nat} {secret : Bytes} {wrapped : Wrapped}
    {version : KeyVersion} {text : String} {id : KeyId} {parentId : Option KeyId}
    (wraps : Wraps ks keys id number secret parentId wrapped)
    (edge : version.wrappingKeyId = wrapped.wrappingKeyId)
    (material : version.secretKeyMaterial = wrapped.material)
    (isSealed : version.secretKeyMaterial = .citadelWrapped text) :
    sealer keys parentId ≠ none ∧ version.wrappingKeyId = parentId.map KeyId.text := by
  rcases wraps.names with ⟨named, parent, rfl, -, sealing, names⟩ | ⟨-, -, unsealed⟩
  · refine ⟨by rw [sealing]; nofun, ?_⟩
    rw [edge, names]
    rfl
  · exact absurd (material.symm.trans isSealed) (unsealed text)

theorem Call.MayWrite.followsParent {step : Step} (inPlace : InPlace step world)
    (follows : ∀ id record, keys.find? id = some record → FollowsParent record)
    (mayWrite : step.call.MayWrite ks step.env world.keys keys record) : FollowsParent record := by
  intro version member text isSealed
  cases mayWrite.change.origin version member with
  | kept found sameType sameParent member =>
      rw [sameParent]
      exact follows _ _ found version member text isSealed
  | destroyed isDestroy found sameType sameParent member same =>
      rw [same] at isSealed
      cases isSealed
  | created wraps edge material =>
      exact (followsParent_of_wraps wraps edge material isSealed).2
  | rewrapped isRewrap found sameType sameParent wraps edge material =>
      obtain ⟨sealing, names⟩ := followsParent_of_wraps wraps edge material isSealed
      have began : keys = world.keys := mayWrite.once (by rw [isRewrap]; rfl)
      rw [began] at found sealing
      rw [names, sameParent, inPlace _ _ _ isRewrap found sealing]

/-- While keys are rewrapped in place, every sealed current version names the parent of
its record. -/
theorem wrappingKeyId_eq_parentId_of_inPlace (reachable : Reachable ks InPlace world) {id : KeyId}
    {record : KeyMetadata} {version : KeyVersion} {text : String}
    (found : world.keys.find? id = some record) (current : record.currentKeyVersion = some version)
    (isSealed : version.secretKeyMaterial = .citadelWrapped text) :
    version.wrappingKeyId = record.parentId.map KeyId.text := by
  obtain ⟨now, replay, reaches⟩ := reachable
  have follows := reaches.keys_invariant
    (fun keys => ∀ id record, keys.find? id = some record → FollowsParent record) ?_ ?_
  · exact follows id record found version (KeyMetadata.mem_of_getVersion current) text isSealed
  · intro step world keys record inPlace fresh follows mayWrite other stored found
    rw [Table.find?_insert] at found
    split at found
    · cases found
      exact mayWrite.followsParent inPlace follows
    · exact follows other stored found
  · intro id record found
    cases found

/-- Growing a hierarchy rewraps nothing. -/
theorem inPlace_of_grows {step : Step} (grows : step.call.Grows) : InPlace step world := by
  intro id newParentId child isRewrap
  rw [isRewrap] at grows
  cases grows

/-- The data key of a line, rewrapped under the domain of the line. -/
theorem exists_dek_under_domain (allowed : Step → World → Prop)
    (allows : ∀ step world, Strict step world → allowed step world) :
    ∃ world dek domain version text, Reachable plainKeystore allowed world ∧
      world.keys.find? (keyNumbered 3) = some dek ∧ dek.keyType = .dataEncrypting ∧
      dek.parentId = some (keyNumbered 2) ∧ dek.currentKeyVersion = some version ∧
      version.secretKeyMaterial = .citadelWrapped text ∧
      version.wrappingKeyId = some (keyNumbered 1).text ∧
      world.keys.find? (keyNumbered 1) = some domain ∧ domain.keyType = .domain := by
  obtain ⟨world, reachable, grove, -⟩ := exists_line plainKeystore_growable allowed
    (.memory ⟨1, []⟩) .active .active .active .active (by decide)
    (fun _ _ _ _ _ _ _ => allows _ _ rfl)
  obtain ⟨sound, -⟩ := reachable.sound transparent_lawful
  obtain ⟨record, version, found, planted⟩ := grove.planted 3 _ rfl
  obtain ⟨domain, domainVersion, domainFound, domainPlanted⟩ := grove.planted 1 _ rfl
  obtain ⟨secret, holds, fits⟩ := planted.secret sound found (by decide) (by decide)
  have chain : Recoverable world.keys true (maxUnwrapDepth + 1) version :=
    grove.recoverable (fun _ _ => rfl) planted
  have unwraps := chain.unwraps transparent_lawful sound holds
  have sealable : Sealable plainKeystore world.keys (keyNumbered 3) version.version
      (some (keyNumbered 1)) := by
    rw [planted.number]
    exact grove.sealable transparent_lawful sound (line_grows (by decide)) rfl (by decide) _
      (by decide)
  obtain ⟨wrapped, ran, wraps⟩ := rewrap_run (plainKeystore_growable.canWrap 4) found
    planted.current unwraps sealable fits
  have step := reachable.step (Step.mk world.now (quietEnv 4)
    (.rewrap (keyNumbered 3) (some (keyNumbered 1)))) (grove.fresh (by decide) (by decide))
    (allows _ _ rfl)
  have after : (Step.mk world.now (quietEnv 4) (.rewrap (keyNumbered 3)
      (some (keyNumbered 1)))).run plainKeystore world = (.ok .done, { world with
        keys := world.keys.insert (rewrappedRecord record world.now wrapped) }) := by
    refine Step.run_of_prog fun fuel => ?_
    rw [Call.prog, run_bind, ran]
    rfl
  rw [after] at step
  have own : (rewrappedRecord record world.now wrapped).id = keyNumbered 3 := planted.id
  have current : (rewrappedRecord record world.now wrapped).currentKeyVersion =
      some (rewrappedVersion wrapped version) := by
    have lookup := getVersion_rewrappedRecord record world.now record.currentVersion wrapped
    rw [if_pos rfl, planted.currentVersion, planted.getVersion] at lookup
    rw [KeyMetadata.currentKeyVersion, show (rewrappedRecord record world.now wrapped).currentVersion
      = 1 from planted.currentVersion]
    exact lookup
  have sealing : wrapsChildren domain.keyType = true := by
    rw [domainPlanted.keyType]
    rfl
  cases wraps with
  | master unsealed wraps =>
      obtain ⟨stored, present, notSealing⟩ := unsealed _ rfl
      rw [domainFound] at present
      cases present
      rw [sealing] at notSealing
      cases notSealing
  | sealed present sealing lookup stores seals =>
      obtain ⟨coins, envelope, -, rfl⟩ := seals
      refine ⟨_, _, domain, _, _, step, find?_insert_own own, planted.keyType, planted.parentId,
        current, rfl, rfl, ?_, domainPlanted.keyType⟩
      exact (find?_insert_numbered own (by decide) (by decide) (by decide)).trans domainFound

/-- A rewrap under the domain leaves the recorded parent behind. -/
theorem rewrapped_dek_off_parent :
    ∃ world record version text, Reachable plainKeystore anyStep world ∧
      world.keys.find? (keyNumbered 3) = some record ∧ record.currentKeyVersion = some version ∧
      version.secretKeyMaterial = .citadelWrapped text ∧
      version.wrappingKeyId ≠ record.parentId.map KeyId.text := by
  obtain ⟨world, dek, domain, version, text, reachable, found, -, child, current, isSealed, names,
    -, -⟩ := exists_dek_under_domain anyStep fun _ _ _ => trivial
  refine ⟨world, dek, version, text, reachable, found, current, isSealed, ?_⟩
  rw [names, child]
  intro same
  have moved : keyNumbered 1 = keyNumbered 2 := congrArg KeyId.mk (Option.some.inj same)
  rw [keyNumbered_inj (by decide) (by decide)] at moved
  cases moved

/-- The data key of a line is sealed to its parent. -/
theorem dek_sealed_to_parent :
    ∃ world record version text, Reachable plainKeystore InPlace world ∧
      world.keys.find? (keyNumbered 3) = some record ∧ record.currentKeyVersion = some version ∧
      version.secretKeyMaterial = .citadelWrapped text ∧
      version.wrappingKeyId = record.parentId.map KeyId.text := by
  obtain ⟨world, reachable, grove, -⟩ := exists_line plainKeystore_growable InPlace
    (.memory ⟨1, []⟩) .active .active .active .active (by decide)
    (fun _ _ _ _ grows _ _ => inPlace_of_grows grows)
  obtain ⟨sound, -⟩ := reachable.sound transparent_lawful
  obtain ⟨record, version, found, planted⟩ := grove.planted 3 _ rfl
  obtain ⟨secret, holds, -⟩ := planted.secret sound found (by decide) (by decide)
  obtain ⟨text, isSealed⟩ : ∃ text, version.secretKeyMaterial = .citadelWrapped text := by
    cases holds with
    | master wrappedBy wraps =>
        rw [planted.wrappedBy] at wrappedBy
        cases wrappedBy
    | sealed wrappedBy wrappedAt found sealing lookup stores seals =>
        obtain ⟨coins, envelope, -, material⟩ := seals
        exact ⟨_, material⟩
  exact ⟨world, record, version, text, reachable, found, planted.current, isSealed,
    wrappingKeyId_eq_parentId_of_inPlace reachable found planted.current isSealed⟩

/-! ### Edges along the roles -/

/-- What is sealed for a parent may be: its sealer is of a role that can wrap the key,
and only roots and domains go to the master key. -/
def MaySeal (keys : Keys) (parentId : Option KeyId) (record : KeyMetadata) : Prop :=
  match sealer keys parentId with
  | some parent => MayWrap parent record
  | none => record.keyType.role.allowExternalMaster = true

/-- The edge of a version is one that the hierarchy allows for its record. -/
def RegularEdge (keys : Keys) (record : KeyMetadata) : Option String → Prop
  | some parentId => ∃ parent, keys.find? ⟨parentId⟩ = some parent ∧ MayWrap parent record
  | none => record.keyType.role.allowExternalMaster = true

/-- A step without the override that rewraps within the hierarchy. -/
def Regular (step : Step) (world : World) : Prop :=
  Strict step world ∧ ∀ id newParentId child, step.call = .rewrap id newParentId →
    world.keys.find? id = some child → MaySeal world.keys newParentId child

theorem Keystore.Wraps.regularEdge {id : KeyId} {number : Nat} {secret : Bytes}
    {parentId : Option KeyId} {wrapped : Wrapped}
    (wraps : Wraps ks keys id number secret parentId wrapped)
    (maySeal : MaySeal keys parentId record) :
    RegularEdge keys record wrapped.wrappingKeyId := by
  rw [MaySeal] at maySeal
  rcases wraps.names with ⟨named, parent, -, found, sealing, names⟩ | ⟨unsealed, names, -⟩
  · rw [sealing] at maySeal
    rw [names]
    exact ⟨parent, found, maySeal⟩
  · rw [unsealed] at maySeal
    rw [names]
    exact maySeal

/-- The place that `generate` checks is one in which a key may be sealed. -/
theorem Keystore.Placed.maySeal {parentId : Option KeyId}
    (placed : Placed keys false record.keyType parentId) : MaySeal keys parentId record := by
  cases placed with
  | root admitted =>
      rcases admitted with root | flat
      · simp [MaySeal, sealer, root, KeyType.role, KeyRole.allowExternalMaster]
      · cases flat
  | @child parentId parent found admitted =>
      rcases admitted with wraps | flat
      · by_cases sealing : wrapsChildren parent.keyType = true
        · simpa [MaySeal, sealer_of_find? found, sealing, MayWrap] using wraps
        · have domain : record.keyType = .domain := by
            revert wraps sealing
            cases parent.keyType <;> cases record.keyType <;> decide
          simp [MaySeal, sealer_of_find? found, sealing, domain, KeyType.role,
            KeyRole.allowExternalMaster]
      · cases flat

/-- A key has a current version, and all its edges are allowed. -/
structure RegularRecord (keys : Keys) (record : KeyMetadata) : Prop where
  current : ∃ version, record.currentKeyVersion = some version
  edges : ∀ version ∈ record.versions, RegularEdge keys record version.wrappingKeyId

theorem RegularEdge.extends {later : Keys} {wrappedBy : Option String}
    (kept : Extends keys later) (regular : RegularEdge keys record wrappedBy) :
    RegularEdge later record wrappedBy := by
  cases wrappedBy with
  | none => exact regular
  | some parentId =>
      obtain ⟨parent, found, wraps⟩ := regular
      obtain ⟨grown, present, outlives⟩ := kept _ _ found
      refine ⟨grown, present, ?_⟩
      rw [MayWrap, outlives.keyType]
      exact wraps

theorem RegularEdge.congr {before : KeyMetadata} {wrappedBy : Option String}
    (sameType : record.keyType = before.keyType) (regular : RegularEdge keys before wrappedBy) :
    RegularEdge keys record wrappedBy := by
  cases wrappedBy with
  | none =>
      rw [RegularEdge, sameType]
      exact regular
  | some parentId =>
      obtain ⟨parent, found, wraps⟩ := regular
      refine ⟨parent, found, ?_⟩
      rw [MayWrap, sameType]
      exact wraps

/-- What a run of regular steps keeps. -/
structure Regularity (keys : Keys) : Prop where
  records : ∀ id record, keys.find? id = some record → RegularRecord keys record
  placed : AllPlaced keys
  emptied : Emptied keys

theorem Regularity.regularRecord {step : Step} (regular : Regular step world)
    (holds : Regularity keys)
    (mayWrite : step.call.MayWrite ks step.env world.keys keys record) :
    RegularRecord keys record := by
  have place := mayWrite.placed regular.1 holds.placed
  constructor
  · apply mayWrite.change.hasCurrent
    intro id before found
    exact (holds.records id before found).current
  · intro version member
    cases mayWrite.change.origin version member with
    | kept found sameType sameParent member =>
        exact ((holds.records _ _ found).edges version member).congr sameType
    | destroyed isDestroy found sameType sameParent member same =>
        rw [same]
        exact ((holds.records _ _ found).edges _ member).congr sameType
    | created wraps edge material =>
        rw [edge]
        exact wraps.regularEdge place.maySeal
    | rewrapped isRewrap found sameType sameParent wraps edge material =>
        have began : keys = world.keys := mayWrite.once (by rw [isRewrap]; rfl)
        subst began
        rw [edge]
        apply RegularEdge.congr sameType
        exact wraps.regularEdge (regular.2 _ _ _ isRewrap found)

theorem Regularity.write {step : Step} (regular : Regular step world) (fresh : step.Fresh world)
    (holds : Regularity keys)
    (mayWrite : step.call.MayWrite ks step.env world.keys keys record) :
    Regularity (keys.insert record) := by
  have kept := mayWrite.extends fresh holds.emptied
  refine ⟨?_, holds.placed.insert kept (mayWrite.placed regular.1 holds.placed),
    mayWrite.emptied fresh holds.emptied⟩
  have grows : ∀ other, RegularRecord keys other → RegularRecord (keys.insert record) other := by
    intro other regular
    exact ⟨regular.current, fun version member => (regular.edges version member).extends kept⟩
  intro id stored found
  rw [Table.find?_insert] at found
  split at found
  · cases found
    exact grows _ (holds.regularRecord regular mayWrite)
  · exact grows _ (holds.records id stored found)

theorem Reachable.regularity (reachable : Reachable ks Regular world) : Regularity world.keys := by
  obtain ⟨now, replay, reaches⟩ := reachable
  apply reaches.keys_invariant Regularity
  · intro step world keys record regular fresh holds mayWrite
    exact holds.write regular fresh mayWrite
  · refine ⟨?_, ?_, .empty⟩
    · intro id record found
      cases found
    · intro id record found
      cases found

/-! ### What the validation reports -/

/-- The lookup table of a listing is the store. -/
theorem byId_eq_some_iff {listed : List KeyMetadata} (all : listed.Perm keys.entries) {id : String}
    {key : KeyMetadata} : byId listed id = some key ↔ keys.find? ⟨id⟩ = some key := by
  have stored : ∀ {other : KeyMetadata}, other ∈ listed ↔ keys.find? other.id = some other := by
    intro other
    rw [all.mem_iff, Table.mem_entries_iff]
  constructor
  · intro found
    have member : key ∈ listed := List.mem_reverse.mp (List.mem_of_find?_eq_some found)
    have named : key.id.text = id := by simpa using List.find?_some found
    rw [← named]
    exact stored.mp member
  · intro found
    have own : key.id = ⟨id⟩ := Table.key_of_find? found
    have member : key ∈ listed.reverse := by
      rw [List.mem_reverse, stored, own]
      exact found
    obtain ⟨other, present⟩ : ∃ other, byId listed id = some other := by
      apply Option.isSome_iff_exists.mp
      rw [byId, List.find?_isSome]
      exact ⟨key, member, by simp [own]⟩
    have otherNamed : other.id = ⟨id⟩ := by
      have named : other.id.text = id := by simpa using List.find?_some present
      rw [← named]
    have otherMember : other ∈ listed :=
      List.mem_reverse.mp (List.mem_of_find?_eq_some present)
    rw [stored, otherNamed, found] at otherMember
    cases otherMember
    exact present

/-- How far a role is from the root. -/
def roleDepth : KeyRole → Nat
  | .root => 0
  | .domainKek => 1
  | .kek => 2
  | _ => 3

theorem roleDepth_lt {parent child : KeyRole} (wraps : parent.canWrap child = true) :
    roleDepth parent < roleDepth child := by
  revert wraps
  cases parent <;> cases child <;> decide

variable {listed : List KeyMetadata}

theorem Regularity.edge (holds : Regularity keys) {id : KeyId} (found : keys.find? id = some record) :
    RegularEdge keys record record.wrappingParent := by
  obtain ⟨⟨version, current⟩, edges⟩ := holds.records id record found
  rw [KeyMetadata.wrappingParent, current]
  exact edges version (KeyMetadata.mem_of_getVersion current)

theorem Regularity.descends (holds : Regularity keys) (all : listed.Perm keys.entries) :
    Descends listed fun key => roleDepth key.keyType.role := by
  intro id key parentId parent found wrapped present
  rw [byId_eq_some_iff all] at found present
  have edge := holds.edge found
  rw [wrapped] at edge
  obtain ⟨stored, storedFound, wraps⟩ := edge
  rw [present] at storedFound
  cases storedFound
  exact roleDepth_lt wraps

/-- The check of one key never finds the wrong direction or a missing parent. -/
theorem Regularity.keyViolations (holds : Regularity keys) (all : listed.Perm keys.entries)
    {key : KeyMetadata} (member : key ∈ listed) {violation : GraphViolation}
    (reported : violation ∈ keyViolations listed key) : violation.kind = .inactiveParent := by
  rw [all.mem_iff, Table.mem_entries_iff] at member
  have edge := holds.edge member
  unfold Citadel.keyViolations at reported
  cases wrapped : key.wrappingParent with
  | none =>
      rw [wrapped] at edge reported
      have allowed : key.keyType.role.allowExternalMaster = true := edge
      simp [allowed] at reported
  | some parentId =>
      rw [wrapped] at edge reported
      obtain ⟨parent, found, wraps⟩ := edge
      have present := (byId_eq_some_iff all).mpr found
      have direction : parent.keyType.role.canWrap key.keyType.role = true := wraps
      simp only [present, direction, Bool.true_eq_false, if_false, List.nil_append] at reported
      split at reported
      · cases reported
      · rw [List.mem_singleton.mp reported]

/-! ### Edges of a run -/

/-- A step creates the edge from a key to a version that it seals. -/
structure CreatesEdge (ks : Keystore) (step : Step) (world : World) (record : KeyMetadata)
    (version : KeyVersion) (parentId : String) : Prop where
  stored : (step.run ks world).2.keys.find? record.id = some record
  member : version ∈ record.versions
  added : ∀ old, world.keys.find? record.id = some old → version ∉ old.versions
  wrappedBy : version.wrappingKeyId = some parentId

/-- The calls that wrap a secret. -/
inductive Call.Wraps : Call → Prop where
  | generate {name : String} {keyType : KeyType} {policyId : Option PolicyId}
      {parentId : Option KeyId} : Call.Wraps (.generate name keyType policyId parentId)
  | generateSigningKey {name : String} {policyId : Option PolicyId} {parentId : KeyId} :
      Call.Wraps (.generateSigningKey name policyId parentId)
  | rotate {id : KeyId} : Call.Wraps (.rotate id)
  | rewrap {id : KeyId} {newParentId : Option KeyId} : Call.Wraps (.rewrap id newParentId)

/-- The parent of an edge that a step may create: of a role that can wrap the key, unless
the step is a rewrap. -/
def EdgeFrom (step : Step) (world : World) (record : KeyMetadata) (parentId : String) : Prop :=
  ∃ parent, world.keys.find? ⟨parentId⟩ = some parent ∧ wrapsChildren parent.keyType = true ∧
    ((∀ id newParentId, step.call ≠ .rewrap id newParentId) → MayWrap parent record)

theorem edgeFrom_of_wraps {step : Step} {id : KeyId} {number : Nat} {secret : Bytes}
    {parentId : Option KeyId} {wrapped : Wrapped} {named : String}
    (wraps : Keystore.Wraps ks world.keys id number secret parentId wrapped)
    (maySeal : (∀ id newParentId, step.call ≠ .rewrap id newParentId) →
      MaySeal world.keys parentId record)
    (names : wrapped.wrappingKeyId = some named) : EdgeFrom step world record named := by
  rcases wraps.names with ⟨own, parent, rfl, found, sealing, same⟩ | ⟨-, none, -⟩
  · rw [same] at names
    cases names
    refine ⟨parent, found, ?_, fun notRewrap => ?_⟩
    · rw [sealer_of_find? found] at sealing
      split at sealing
      · assumption
      · cases sealing
    · have seals := maySeal notRewrap
      rw [MaySeal, sealing] at seals
      exact seals
  · rw [none] at names
    cases names

theorem Call.Wraps.writesOnce {call : Call} (wraps : call.Wraps) : call.writesOnce = true := by
  cases wraps <;> rfl

theorem Call.Wraps.ne_destroy {call : Call} (wraps : call.Wraps) (id : KeyId) :
    call ≠ .destroy id := by
  rintro rfl
  cases wraps

/-- Every version was there when the step began or hangs on an edge that it may create. -/
def EdgesFrom (step : Step) (world : World) (keys : Keys) : Prop :=
  ∀ record version parentId, keys.find? record.id = some record → version ∈ record.versions →
    version.wrappingKeyId = some parentId →
    (∃ old, world.keys.find? record.id = some old ∧ version ∈ old.versions) ∨
      EdgeFrom step world record parentId

/-- A write of a wrapping call adds at most one edge, for a key in its place. -/
theorem EdgesFrom.write {step : Step} (strict : Strict step world) (placed : AllPlaced world.keys)
    (wrapping : step.call.Wraps) (edges : EdgesFrom step world keys)
    (mayWrite : step.call.MayWrite ks step.env world.keys keys record) :
    EdgesFrom step world (keys.insert record) := by
  obtain rfl : keys = world.keys := mayWrite.once wrapping.writesOnce
  intro stored version parentId found member wrappedBy
  rw [Table.find?_insert] at found
  split at found
  · cases found
    cases mayWrite.change.origin version member with
    | kept present sameType sameParent old => exact .inl ⟨_, present, old⟩
    | destroyed isDestroy present sameType sameParent old same =>
        exact absurd isDestroy (wrapping.ne_destroy _)
    | created wraps edge material =>
        right
        apply edgeFrom_of_wraps wraps
        · intro _
          exact (mayWrite.placed strict placed).maySeal
        · rw [← edge, wrappedBy]
    | rewrapped isRewrap present sameType sameParent wraps edge material =>
        right
        apply edgeFrom_of_wraps wraps
        · intro notRewrap
          exact absurd isRewrap (notRewrap _ _)
        · rw [← edge, wrappedBy]
  · exact edges stored version parentId found member wrappedBy

theorem Step.edgeFrom {step : Step} (strict : Strict step world) (placed : AllPlaced world.keys)
    (wrapping : step.call.Wraps) {version : KeyVersion} {parentId : String}
    (creates : CreatesEdge ks step world record version parentId) :
    EdgeFrom step world record parentId := by
  have edges : EdgesFrom step world (step.run ks world).2.keys := by
    apply Step.keys_invariant (EdgesFrom step world)
    · intro keys written held mayWrite
      exact held.write strict placed wrapping mayWrite
    · intro record version parentId found member _
      exact .inl ⟨record, found, member⟩
  rcases edges record version parentId creates.stored creates.member creates.wrappedBy with
    ⟨old, found, member⟩ | edge
  · exact absurd member (creates.added old found)
  · exact edge

/-- The edges that `generate` and `rotate` create go from parents whose role can wrap the
key, those of `rewrap` from domains and key-encrypting keys. If the rewraps of a run
keep to the roles, the validation finds nothing but parents that are out of use. -/
theorem wrapping_follows_roles :
    (∀ (ks : Keystore) world step record version parentId, Reachable ks Strict world →
      Strict step world → step.call.Wraps →
      CreatesEdge ks step world record version parentId →
      EdgeFrom step world record parentId) ∧
    (∀ (ks : Keystore) world listed violation, Reachable ks Regular world →
      listed.Perm world.keys.entries → violation ∈ validateWrappingGraph listed →
      violation.kind = .inactiveParent) := by
  constructor
  · intro ks world step record version parentId reachable strict wrapping creates
    obtain ⟨placed, -⟩ := reachable.placed fun _ _ strict => strict
    exact Step.edgeFrom strict placed wrapping creates
  · intro ks world listed violation reachable all reported
    have holds := reachable.regularity
    rw [validateWrappingGraph_of_descends (holds.descends all), List.mem_flatMap] at reported
    obtain ⟨key, member, found⟩ := reported
    exact holds.keyViolations all member found

theorem regular_of_grows {step : Step} (grows : step.call.Grows) (strict : Strict step world) :
    Regular step world := by
  refine ⟨strict, ?_⟩
  intro id newParentId child isRewrap
  rw [isRewrap] at grows
  cases grows

/-- A key-encrypting key is generated under a domain. -/
theorem exists_kek_edge (domain : KeyState) (young : domain = .pending ∨ domain = .active) :
    ∃ world step record version parent, Reachable plainKeystore Strict world ∧
      step.Fresh world ∧ Strict step world ∧ step.call.Wraps ∧
      CreatesEdge plainKeystore step world record version (keyNumbered 1).text ∧
      world.keys.find? (keyNumbered 1) = some parent ∧ parent.state = domain := by
  have planned : Grows [⟨.root, none, .active⟩, ⟨.domain, some 0, domain⟩] := by
    have rooted : Grows ([] ++ [⟨.root, none, .active⟩]) :=
      .snoc .nil (.root (.inr rfl)) (by decide)
    exact .snoc rooted (.child rfl rfl young) (by decide)
  have strict : ∀ n call (world : World) plan, Call.Grows call → Grows plan →
      Grove world.keys plan → Strict ⟨0, quietEnv n, call⟩ world := fun _ _ _ _ _ _ _ => rfl
  obtain ⟨world, reachable, grove, -⟩ := exists_grove plainKeystore_growable 0
    (.memory ⟨1, []⟩) strict planned
  obtain ⟨sound, -⟩ := reachable.sound transparent_lawful
  obtain ⟨call, grows, notActivate, grown, -⟩ := grove.generate plainKeystore_growable sound planned
    (.child rfl rfl (.inl rfl) : Fits _ ⟨.keyEncrypting, some 1, .pending⟩) (show 2 < 256 ^ 16 by decide)
    0
  obtain ⟨record, version, found, planted⟩ := grown.planted 2 _ rfl
  obtain ⟨parent, parentVersion, parentFound, parentPlanted⟩ := grove.planted 1 _ rfl
  have wrapping : call.Wraps := by
    cases grows with
    | generate => exact .generate
    | generateSigningKey => exact .generateSigningKey
    | activate => exact absurd rfl (notActivate _)
  refine ⟨world, ⟨0, quietEnv 2, call⟩, record, version, parent, reachable,
    grove.fresh le_rfl (show 2 < 256 ^ 16 by decide), rfl, wrapping,
    ⟨?_, ?_, ?_, planted.wrappedBy⟩,
    parentFound, parentPlanted.state⟩
  · rw [planted.id]
    exact found
  · simp [planted.versions]
  · intro old before
    have absent : world.keys.find? (keyNumbered 2) = none := grove.absent le_rfl (by decide)
    rw [planted.id, absent] at before
    cases before

/-- A key can be sealed to a pending parent, and a rewrap to one whose role cannot wrap
it, which the validation reports. -/
theorem edges_off_roles :
    (∃ world step record version parent, Reachable plainKeystore Strict world ∧
      step.Fresh world ∧ Strict step world ∧ step.call.Wraps ∧
      CreatesEdge plainKeystore step world record version (keyNumbered 1).text ∧
      world.keys.find? (keyNumbered 1) = some parent ∧ parent.state = .pending) ∧
    (∃ world violation, Reachable plainKeystore Strict world ∧
      violation ∈ validateWrappingGraph world.keys.entries ∧
      violation.kind = .invalidDirection) := by
  refine ⟨exists_kek_edge .pending (.inl rfl), ?_⟩
  obtain ⟨world, dek, domain, version, text, reachable, found, isData, -, current, -, names,
    domainFound, isDomain⟩ := exists_dek_under_domain Strict fun _ _ strict => strict
  have wrapped : dek.wrappingParent = some (keyNumbered 1).text := by
    rw [KeyMetadata.wrappingParent, current]
    exact names
  have present : byId world.keys.entries (keyNumbered 1).text = some domain :=
    (byId_eq_some_iff (.refl _)).mpr domainFound
  have member : dek ∈ world.keys.entries := by
    rw [Table.mem_entries_iff, Table.key_of_find? found]
    exact found
  have direction : domain.keyType.role.canWrap dek.keyType.role = false := by
    rw [isDomain, isData]
    rfl
  obtain ⟨violation, reported, kind⟩ : ∃ violation ∈ keyViolations world.keys.entries dek,
      violation.kind = .invalidDirection := by
    simp only [keyViolations, wrapped, present, direction, if_true]
    exact ⟨_, List.mem_append_left _ (List.mem_singleton_self _), rfl⟩
  exact ⟨world, violation, reachable, mem_validateWrappingGraph member reported, kind⟩

/-- An edge and the validation of a line that keeps to the roles. -/
theorem line_follows_roles :
    (∃ world step record version, Reachable plainKeystore Strict world ∧
      CreatesEdge plainKeystore step world record version (keyNumbered 1).text ∧
      EdgeFrom step world record (keyNumbered 1).text) ∧
    (∃ world, Reachable plainKeystore Regular world ∧
      Grove world.keys (line .active .active .active .active) ∧
      ∀ violation ∈ validateWrappingGraph world.keys.entries,
        violation.kind = .inactiveParent) := by
  constructor
  · obtain ⟨world, step, record, version, parent, reachable, -, strict, wrapping, creates, -, -⟩ :=
      exists_kek_edge .active (.inr rfl)
    exact ⟨world, step, record, version, reachable, creates,
      wrapping_follows_roles.1 _ _ _ _ _ _ reachable strict wrapping creates⟩
  · obtain ⟨world, reachable, grove, -⟩ := exists_line plainKeystore_growable Regular
      (.memory ⟨1, []⟩) .active .active .active .active (by decide)
      (fun _ _ _ _ grows _ _ => regular_of_grows grows rfl)
    exact ⟨world, reachable, grove, fun violation reported =>
      wrapping_follows_roles.2 _ _ _ violation reachable (.refl _) reported⟩

end Citadel
