import Citadel.Keystore.Growth

/-!
# A key under a policy

A grove has no policies. This adds one more key to it, active and under a policy, for
what the policies do to such a key.
-/

namespace Citadel

open Envelope Program Keystore

/-- The record of an active key under a policy, new at time zero and sealed to the first
version of its parent. -/
structure Governed (n parent : Nat) (keyType : KeyType) (policyId : PolicyId)
    (record : KeyMetadata) (version : KeyVersion) : Prop where
  id : record.id = keyNumbered n
  keyType : record.keyType = keyType
  active : record.state = .active
  parentId : record.parentId = some (keyNumbered parent)
  policyId : record.policyId = some policyId
  usageCount : record.usageCount = 0
  activatedAt : record.activatedAt = some 0
  currentVersion : record.currentVersion = 1
  versions : record.versions = [version]
  number : version.version = 1
  wrappedBy : version.wrappingKeyId = some (keyNumbered parent).text
  wrappedAt : version.wrappingKeyVersion = some 1

section Governed

variable {ks : Keystore} {n parent : Nat} {keyType : KeyType} {policyId : PolicyId}
  {record : KeyMetadata} {version : KeyVersion}

theorem Governed.getVersion (governed : Governed n parent keyType policyId record version) :
    record.getVersion 1 = some version := by
  simp [KeyMetadata.getVersion, governed.versions, governed.number]

theorem Governed.current (governed : Governed n parent keyType policyId record version) :
    record.currentKeyVersion = some version := by
  rw [KeyMetadata.currentKeyVersion, governed.currentVersion, governed.getVersion]

/-- The record of a new key that is activated at once. -/
theorem governed_newRecord {name publicKeyHex : String} {keys : Keys} {secret : Bytes}
    {wrapped : Wrapped} {entry : Planting} {plan : List Planting} (grove : Grove keys plan)
    (place : plan[parent]? = some entry) (sealing : wrapsChildren entry.keyType = true)
    (wraps : Wraps ks keys (keyNumbered n) 1 secret (some (keyNumbered parent)) wrapped) :
    Governed n parent keyType policyId
      (activatedRecord (newRecord (keyNumbered n) name keyType (some policyId)
        (some (keyNumbered parent)) 0 (firstVersion 0 publicKeyHex wrapped)) 0 0)
      (firstVersion 0 publicKeyHex wrapped) := by
  obtain ⟨above, aboveVersion, found, planted⟩ := grove.planted parent entry place
  have names : wrapped.wrappingKeyId = some (keyNumbered parent).text ∧
      wrapped.wrappingKeyVersion = some 1 := by
    generalize named : some (keyNumbered parent) = parentId at wraps
    cases wraps with
    | master unsealed holds =>
        obtain ⟨other, also, unable⟩ := unsealed _ named.symm
        obtain rfl : above = other := Option.some.inj (found.symm.trans also)
        rw [planted.keyType, sealing] at unable
        cases unable
    | @sealed parentId other otherVersion key material also _ current stores seals =>
        obtain rfl : keyNumbered parent = parentId := Option.some.inj named
        obtain rfl : above = other := Option.some.inj (found.symm.trans also)
        obtain rfl : aboveVersion = otherVersion :=
          Option.some.inj (planted.current.symm.trans current)
        exact ⟨rfl, congrArg some planted.number⟩
  exact ⟨rfl, rfl, rfl, rfl, rfl, rfl, rfl, rfl, rfl, rfl, names.1, names.2⟩

/-- What a step of growth and an activation leave of a grove. -/
structure Adds (before after : World) (n : Nat) (record : KeyMetadata) : Prop where
  stored : after.keys.find? (keyNumbered n) = some record
  others : ∀ id, id ≠ keyNumbered n → after.keys.find? id = before.keys.find? id
  replay : after.replay = before.replay

/-- A key that was created is activated. -/
theorem Reachable.activateNew {allowed : Step → World → Prop} {world : World} {plan : List Planting}
    (grove : Grove world.keys plan) (small : plan.length + 1 < 256 ^ 16) {call : Call}
    {created : KeyMetadata} {value : CallValue} (reachable : Reachable ks allowed world)
    (ran : (Step.mk 0 (quietEnv plan.length) call).run ks world =
      (.ok value, ⟨0, world.keys.insert created, world.replay⟩))
    (pending : created.state = .pending) (own : created.id = keyNumbered plan.length)
    (grows : call.Grows) (allows : ∀ step world, step.call.Grows → allowed step world) :
    ∃ after, Reachable ks allowed after ∧
      Adds world after plan.length (activatedRecord created 0 0) := by
  have first := reachable.step ⟨0, quietEnv plan.length, call⟩ (grove.fresh (le_refl _) (by omega))
    (allows _ _ grows)
  rw [ran] at first
  have stored : (world.keys.insert created).find? (keyNumbered plan.length) = some created :=
    find?_insert_own own
  have edge : created.state.canTransitionTo .active = true := by
    rw [pending]
    rfl
  have activates : (Step.mk 0 (quietEnv (plan.length + 1))
      (.activate (keyNumbered plan.length))).run ks ⟨0, world.keys.insert created, world.replay⟩ =
        (.ok .done, ⟨0, (world.keys.insert created).insert (activatedRecord created 0 0),
          world.replay⟩) := by
    have activated : (Keystore.activate (keyNumbered plan.length)).run
        (handle (quietEnv (plan.length + 1))) ⟨0, world.keys.insert created, world.replay⟩ = _ :=
      activate_run (quietEnv_reliable _) stored edge
    refine Step.run_of_prog fun fuel => ?_
    rw [Call.prog, run_bind, activated]
    rfl
  have absent : (world.keys.insert created).find? (keyNumbered (plan.length + 1)) = none := by
    rw [find?_insert_numbered own (by omega) (by omega) small]
    exact grove.absent (by omega) small
  have second := first.step ⟨0, quietEnv (plan.length + 1), .activate (keyNumbered plan.length)⟩
    (fresh_of_absent absent) (allows _ _ .activate)
  rw [activates] at second
  refine ⟨_, second, find?_insert_own own, fun id different => ?_, rfl⟩
  have other : id ≠ created.id := own ▸ different
  have activated : id ≠ (activatedRecord created 0 0).id := other
  exact (Table.find?_insert_of_ne _ activated).trans (Table.find?_insert_of_ne _ other)

/-- Under an active key-encrypting key of a grove one more key can be had, under a policy. -/
theorem Grove.govern {allowed : Step → World → Prop} {world : World} {plan : List Planting}
    {domain : Nat} (growable : Growable ks) (grove : Grove world.keys plan) (grows : Grows plan)
    (small : plan.length + 1 < 256 ^ 16)
    (place : plan[parent]? = some ⟨.keyEncrypting, some domain, .active⟩)
    (leaf : keyType = .signing ∨ keyType = .dataEncrypting) (policyId : PolicyId)
    (reachable : Reachable ks allowed world)
    (allows : ∀ step world, step.call.Grows → allowed step world) :
    ∃ after record version, Reachable ks allowed after ∧ Adds world after plan.length record ∧
      Governed plan.length parent keyType policyId record version := by
  have can := growable.canWrap plan.length
  have sound := (reachable.sound growable.lawful).1
  have sealable : Sealable ks world.keys (keyNumbered plan.length) 1 (some (keyNumbered parent)) :=
    grove.sealable growable.lawful sound grows place (by simp) _ (by decide)
  obtain ⟨above, aboveVersion, found, planted⟩ := grove.planted parent _ place
  rcases leaf with rfl | rfl
  · have rule : above.keyType.role.canWrap .signingKey = true := by
      rw [planted.keyType]
      rfl
    obtain ⟨wrapped, ran, wraps⟩ : ∃ wrapped, (ks.generateSigningKey "" (some policyId)
        (keyNumbered parent)).run (handle (quietEnv plan.length)) ⟨0, world.keys, world.replay⟩ =
          _ ∧ _ := generateSigningKey_run can found rule sealable
    have stepped : (Step.mk 0 (quietEnv plan.length)
        (.generateSigningKey "" (some policyId) (keyNumbered parent))).run ks world = _ :=
      Step.run_of_prog fun fuel => by
        rw [Call.prog, run_bind, ran, andThen_ok, pure_eq_ret, run_ret]
    obtain ⟨after, reached, adds⟩ := Reachable.activateNew grove small reachable stepped rfl rfl
      .generateSigningKey allows
    exact ⟨after, _, _, reached, adds, governed_newRecord grove place rfl wraps⟩
  · have placed : Placed world.keys (quietEnv plan.length).process.flatOverride .dataEncrypting
        (some (keyNumbered parent)) := by
      refine .child found (.inl ?_)
      rw [planted.keyType]
      rfl
    obtain ⟨wrapped, ran, wraps⟩ : ∃ wrapped, (ks.generate "" .dataEncrypting (some policyId)
        (some (keyNumbered parent))).run (handle (quietEnv plan.length))
          ⟨0, world.keys, world.replay⟩ = _ ∧ _ := generate_run can (by simp) placed sealable
    have stepped : (Step.mk 0 (quietEnv plan.length)
        (.generate "" .dataEncrypting (some policyId) (some (keyNumbered parent)))).run ks world =
          _ :=
      Step.run_of_prog fun fuel => by
        rw [Call.prog, run_bind, ran, andThen_ok, pure_eq_ret, run_ret]
    obtain ⟨after, reached, adds⟩ := Reachable.activateNew grove small reachable stepped rfl rfl
      .generate allows
    exact ⟨after, _, _, reached, adds, governed_newRecord grove place rfl wraps⟩

/-- Such a key belongs to the domain above its parent. -/
theorem Governed.resolves {before after : World} {plan : List Planting} {domain root : Nat}
    (governed : Governed plan.length parent keyType policyId record version)
    (grove : Grove before.keys plan) (adds : Adds before after plan.length record)
    (small : plan.length < 256 ^ 16)
    (place : plan[parent]? = some ⟨.keyEncrypting, some domain, .active⟩)
    (above : plan[domain]? = some ⟨.domain, some root, .active⟩)
    (leaf : keyType = .signing ∨ keyType = .dataEncrypting) :
    ResolvesTo after.keys 10 (keyNumbered plan.length) (keyNumbered domain) := by
  obtain ⟨kek, kekVersion, kekFound, kekPlanted⟩ := grove.planted parent _ place
  obtain ⟨top, topVersion, topFound, topPlanted⟩ := grove.planted domain _ above
  have other : ∀ {n}, n < plan.length → keyNumbered n ≠ keyNumbered plan.length := by
    intro n within same
    have := (keyNumbered_inj (by omega) small).mp same
    omega
  rw [← adds.others _ (other (List.getElem?_eq_some_iff.mp place).1)] at kekFound
  rw [← adds.others _ (other (List.getElem?_eq_some_iff.mp above).1)] at topFound
  refine .parent adds.stored ?_ ?_ governed.parentId ?_
  · rw [governed.keyType]
    rcases leaf with rfl | rfl <;> nofun
  · rw [governed.keyType]
    rcases leaf with rfl | rfl <;> nofun
  · refine .parent kekFound ?_ ?_ kekPlanted.parentId (.domain topFound topPlanted.keyType)
    · rw [kekPlanted.keyType]
      nofun
    · rw [kekPlanted.keyType]
      nofun

/-- The chain of such a key is active up to the master key. -/
theorem Governed.chain {before after : World} {plan : List Planting} {domain root : Nat}
    (governed : Governed plan.length parent keyType policyId record version)
    (grove : Grove before.keys plan) (adds : Adds before after plan.length record)
    (small : plan.length < 256 ^ 16)
    (place : plan[parent]? = some ⟨.keyEncrypting, some domain, .active⟩)
    (above : plan[domain]? = some ⟨.domain, some root, .active⟩) (skip : Bool) :
    Recoverable after.keys skip (maxUnwrapDepth + 1) version := by
  obtain ⟨kek, kekVersion, kekFound, kekPlanted⟩ := grove.planted parent _ place
  obtain ⟨top, topVersion, topFound, topPlanted⟩ := grove.planted domain _ above
  have other : ∀ {n}, n < plan.length → keyNumbered n ≠ keyNumbered plan.length := by
    intro n within same
    have := (keyNumbered_inj (by omega) small).mp same
    omega
  rw [← adds.others _ (other (List.getElem?_eq_some_iff.mp place).1)] at kekFound
  rw [← adds.others _ (other (List.getElem?_eq_some_iff.mp above).1)] at topFound
  refine .sealed governed.wrappedBy governed.wrappedAt kekFound ?_ ?_ kekPlanted.getVersion ?_
  · simp [kekPlanted.state]
  · simp [kekPlanted.state, KeyState.canDecrypt]
  · refine .sealed kekPlanted.wrappedBy kekPlanted.wrappedAt topFound ?_ ?_ topPlanted.getVersion ?_
    · simp [topPlanted.state]
    · simp [topPlanted.state, KeyState.canDecrypt]
    · exact .master topPlanted.wrappedBy

end Governed

section Rotation

variable {ks : Keystore}

/-- A planted key-encrypting key can wrap the versions of a numbered key. -/
theorem Planted.sealable {keys : Keys} {n m domain number : Nat} {kek : KeyMetadata}
    {kekVersion : KeyVersion}
    (planted : Planted n ⟨.keyEncrypting, some domain, .active⟩ kek kekVersion)
    (lawful : ks.crypto.Lawful) (sound : Sound ks keys)
    (found : keys.find? (keyNumbered n) = some kek)
    (short : (utf8 (toString number)).length ≤ 10) :
    Sealable ks keys (keyNumbered m) number (some (keyNumbered n)) := by
  obtain ⟨key, stores⟩ := Grove.storesPublicKey lawful sound found (by simp [planted.state])
    (by simp [planted.keyType]) (by simp [planted.versions] : kekVersion ∈ kek.versions)
  refine .sealed found ?_ planted.current stores
    (hierarchyWrapContext_fits (keyNumbered_length m) (keyNumbered_length n) short)
  rw [planted.keyType]
  rfl

/-- The keys after the key at place 3, under the key-encrypting key at place 2, was rotated
once. -/
structure RotatedOnce (ks : Keystore) (before after : World) (n : Nat) (record : KeyMetadata)
    (second : KeyVersion) : Prop where
  stored : after.keys.find? (keyNumbered 3) = some (rotatedRecord record before.now second)
  others : ∀ id, id ≠ keyNumbered 3 → after.keys.find? id = before.keys.find? id
  replay : after.replay = before.replay
  number : second.version = 2
  wrappedBy : second.wrappingKeyId = some (keyNumbered 2).text
  wrappedAt : second.wrappingKeyVersion = some 1
  holds : Holds ks after.keys (keyNumbered 3) second (ks.kemKeyPair (quietEnv n).randomness).2

/-- What a wrapping for a planted key-encrypting key names. -/
theorem Planted.names {keys : Keys} {n domain number : Nat} {kek : KeyMetadata}
    {kekVersion : KeyVersion} {id : KeyId} {secret : Bytes} {wrapped : Wrapped}
    (planted : Planted n ⟨.keyEncrypting, some domain, .active⟩ kek kekVersion)
    (found : keys.find? (keyNumbered n) = some kek)
    (wraps : Wraps ks keys id number secret (some (keyNumbered n)) wrapped) :
    wrapped.wrappingKeyId = some (keyNumbered n).text ∧ wrapped.wrappingKeyVersion = some 1 := by
  generalize named : some (keyNumbered n) = parentId at wraps
  cases wraps with
  | master unsealed holds =>
      obtain ⟨other, present, unable⟩ := unsealed _ named.symm
      obtain rfl : kek = other := Option.some.inj (found.symm.trans present)
      rw [planted.keyType] at unable
      cases unable
  | @sealed parentId other otherVersion key material present sealing current stores seals =>
      obtain rfl : keyNumbered n = parentId := Option.some.inj named
      obtain rfl : kek = other := Option.some.inj (found.symm.trans present)
      obtain rfl : kekVersion = otherVersion :=
        Option.some.inj (planted.current.symm.trans current)
      exact ⟨rfl, congrArg some planted.number⟩

/-- A key under a planted key-encrypting key can be rotated for the first time. -/
theorem Planted.rotate {world : World} {domain n : Nat} {kek record : KeyMetadata}
    {kekVersion : KeyVersion} (growable : Growable ks) (reachable : Reachable ks anyStep world)
    (planted : Planted 2 ⟨.keyEncrypting, some domain, .active⟩ kek kekVersion)
    (kekFound : world.keys.find? (keyNumbered 2) = some kek)
    (found : world.keys.find? (keyNumbered 3) = some record) (active : record.state = .active)
    (single : record.currentVersion = 1) (under : record.parentId = some (keyNumbered 2))
    (absent : world.keys.find? (keyNumbered n) = none) :
    ∃ after second, Reachable ks anyStep after ∧ RotatedOnce ks world after n record second := by
  obtain ⟨sound, emptied⟩ := reachable.sound growable.lawful
  have next : (record.currentVersion + 1) % 2 ^ 32 = 2 := by
    rw [single]
    rfl
  have sealable : Sealable ks world.keys (keyNumbered 3) ((record.currentVersion + 1) % 2 ^ 32)
      record.parentId := by
    rw [next, under]
    exact planted.sealable growable.lawful sound kekFound (by decide)
  obtain ⟨wrapped, ran, wraps⟩ := rotate_run (growable.canWrap n) found active sealable
  have fresh : (Step.mk world.now (quietEnv n) (.rotate (keyNumbered 3))).Fresh world :=
    fresh_of_absent absent
  have stepped : (Step.mk world.now (quietEnv n) (.rotate (keyNumbered 3))).run ks world = _ :=
    Step.run_of_prog fun fuel => by
      rw [Call.prog, run_bind, ran, andThen_ok, pure_eq_ret, run_ret]
  have step := reachable.step _ fresh trivial
  rw [stepped] at step
  have mayWrite : (Call.rotate (keyNumbered 3)).MayWrite ks (quietEnv n) world.keys world.keys
      (rotatedRecord record world.now (ks.nextVersion (quietEnv n) record world.now wrapped)) :=
    ⟨.rotated found active wraps, fun _ => rfl⟩
  have own : (rotatedRecord record world.now
      (ks.nextVersion (quietEnv n) record world.now wrapped)).id = keyNumbered 3 :=
    (Table.key_of_find? found : record.id = keyNumbered 3)
  have held := (wraps.holds rfl rfl rfl rfl : Holds ks world.keys (keyNumbered 3)
    (ks.nextVersion (quietEnv n) record world.now wrapped) _).extends
      (Call.MayWrite.extends fresh emptied mayWrite)
  rw [under] at wraps
  obtain ⟨wrappedBy, wrappedAt⟩ := planted.names kekFound wraps
  refine ⟨_, _, step, find?_insert_own own, fun id other => ?_, rfl, next, wrappedBy, wrappedAt,
    held⟩
  exact Table.find?_insert_of_ne _ (own ▸ other)

end Rotation

/-- One key of each level down to a key-encrypting key, all active. -/
def trunk : List Planting :=
  [⟨.root, none, .active⟩, ⟨.domain, some 0, .active⟩, ⟨.keyEncrypting, some 1, .active⟩]

theorem trunk_grows : Grows trunk := by
  have first : Grows [⟨.root, none, .active⟩] := Grows.nil.snoc (.root (.inr rfl)) (by simp)
  have second := first.snoc (.child rfl rfl (.inr rfl) : Fits _ ⟨.domain, some 0, .active⟩) (by simp)
  exact second.snoc (.child rfl rfl (.inr rfl)) (by simp)

/-- The keys of a line whose last key is under a policy. -/
structure GovernedLine (keys : Keys) (keyType : KeyType) (policyId : PolicyId)
    (record : KeyMetadata) (version : KeyVersion) : Prop where
  found : keys.find? (keyNumbered 3) = some record
  governed : Governed 3 2 keyType policyId record version
  resolves : ResolvesTo keys 10 (keyNumbered 3) (keyNumbered 1)
  chain : ∀ skip, Recoverable keys skip (maxUnwrapDepth + 1) version
  kek : ∃ kek kekVersion, keys.find? (keyNumbered 2) = some kek ∧
    Planted 2 ⟨.keyEncrypting, some 1, .active⟩ kek kekVersion
  absent : ∀ n, 3 < n → n < 256 ^ 16 → keys.find? (keyNumbered n) = none

theorem exists_governedLine {ks : Keystore} (growable : Growable ks)
    {allowed : Step → World → Prop} {keyType : KeyType}
    (leaf : keyType = .signing ∨ keyType = .dataEncrypting) (policyId : PolicyId)
    (replay : ReplayStore) (allows : ∀ step world, step.call.Grows → allowed step world) :
    ∃ world record version, Reachable ks allowed world ∧ world.replay = replay ∧
      GovernedLine world.keys keyType policyId record version := by
  obtain ⟨before, reached, grove, kept⟩ := exists_grove growable 0 replay
    (fun _ _ _ _ grows _ _ => allows _ _ grows) trunk_grows
  obtain ⟨world, record, version, reachable, adds, governed⟩ := grove.govern growable trunk_grows
    (by decide) (rfl : trunk[2]? = some ⟨.keyEncrypting, some 1, .active⟩) leaf policyId reached
    allows
  have resolves := governed.resolves grove adds (by decide) rfl rfl leaf
  have chain := governed.chain grove adds (by decide) rfl rfl
  obtain ⟨kek, kekVersion, kekFound, planted⟩ := grove.planted 2 _ rfl
  have other : ∀ n, n ≠ 3 → n < 256 ^ 16 → keyNumbered n ≠ keyNumbered 3 :=
    fun n different small same => different ((keyNumbered_inj small (by decide)).mp same)
  refine ⟨world, record, version, reachable, adds.replay.trans kept, adds.stored, governed,
    resolves, chain, ⟨kek, kekVersion, ?_, planted⟩, fun n beyond small => ?_⟩
  · exact (adds.others _ (other 2 (by decide) (by decide))).trans kekFound
  · rw [adds.others _ (other n (by omega) small)]
    exact grove.absent (Nat.le_of_lt beyond) small

section Line

variable {ks : Keystore} {keys : Keys} {keyType : KeyType} {policyId : PolicyId}
  {record : KeyMetadata} {version : KeyVersion}

/-- The key is sealed to in an encryption. -/
theorem GovernedLine.storesPublicKey (line : GovernedLine keys keyType policyId record version)
    (lawful : ks.crypto.Lawful) (sound : Sound ks keys) (kem : keyType ≠ .signing) :
    ∃ key, StoresPublicKey ks version.publicKeyHex key := by
  refine Grove.storesPublicKey lawful sound line.found (by simp [line.governed.active]) ?_
    (by simp [line.governed.versions] : version ∈ record.versions)
  rw [line.governed.keyType]
  exact kem

end Line

/-- Two domains under one root, with a key-encrypting key in each, all active. -/
def twoTenants : List Planting :=
  trunk ++ [⟨.domain, some 0, .active⟩, ⟨.keyEncrypting, some 3, .active⟩]

theorem twoTenants_grows : Grows twoTenants := by
  have third := trunk_grows.snoc (.child rfl rfl (.inr rfl) : Fits _ ⟨.domain, some 0, .active⟩)
    (by simp [trunk])
  have fourth := third.snoc
    (.child rfl rfl (.inr rfl) : Fits _ ⟨.keyEncrypting, some 3, .active⟩) (by simp [trunk])
  rwa [List.append_assoc] at fourth

theorem exists_twoTenants {ks : Keystore} (growable : Growable ks)
    {allowed : Step → World → Prop} (replay : ReplayStore)
    (allows : ∀ step world, step.call.Grows → allowed step world) :
    ∃ world, Reachable ks allowed world ∧ Grove world.keys twoTenants ∧ world.replay = replay :=
  exists_grove growable 0 replay (fun _ _ _ _ grows _ _ => allows _ _ grows) twoTenants_grows

end Citadel
