import Citadel.Keystore.Hierarchy
import Citadel.Keystore.Growth

/-!
# Signing keys

A signing key keeps the seed and the verifying key of an ML-DSA pair where every other
key keeps a key pair for encryption. Each operation but one either draws a pair of the
right kind or keeps the pair that is there: `rotate` draws a key pair for encryption,
whatever the type of the key. As long as it spares the signing keys, every version
holds a pair of its kind, and what a signing key signs is verified.
-/

namespace Citadel

open Envelope Program

/-- `VerifyError`. -/
structure VerifyError where
  message : String
  deriving DecidableEq, Repr

/-- The text of a `VerifyError`. -/
def VerifyError.display (error : VerifyError) : String := s!"VerifyError: {error.message}"

namespace Keystore

section Verify

variable (ks : Keystore)

/-- `citadel_signer::dsa::verify_message`. -/
def verifyMessage (verifyingKey message signature : Bytes) : Except VerifyError Bool :=
  if keyExact : verifyingKey.length = 1952 then
    if signatureExact : signature.length = 3309 then
      match ks.crypto.mldsaVerify ⟨verifyingKey, keyExact⟩ message ⟨signature, signatureExact⟩ with
      | some valid => .ok valid
      | none => .error ⟨"signature malformed"⟩
    else .error ⟨s!"signature must be 3309 bytes, got {signature.length}"⟩
  else .error ⟨s!"verifying key must be 1952 bytes, got {verifyingKey.length}"⟩

/-- `verify_signature`. -/
def verifySignature (keyId : KeyId) (message : Bytes) (signedPayload : SignedPayload) :
    Prog VerifyError Bool :=
  Program.mapErr .mk do
    let record ← (get keyId).mapErr KeystoreError.display
    if record.keyType ≠ .signing then
      .fail (s!"key {keyId.text} is type {record.keyType.display} — " ++
        "verify_signature() requires KeyType::Signing")
    else if ¬ (record.state = .active ∨ record.state = .rotated) then
      .fail (s!"key {keyId.text} is {record.state.display} — " ++
        "cannot verify (Revoked/Expired/Destroyed keys are terminal)")
    else
      let version ← Program.ofOption
        s!"key {keyId.text} version {signedPayload.keyVersion} not found"
        (record.getVersion signedPayload.keyVersion)
      let vkBytes ← decodeHex "decode verifying key hex" (utf8 version.publicKeyHex)
      let sigBytes ← decodeHex "decode signature hex" (utf8 signedPayload.signatureHex)
      Program.ofExcept (fun error : VerifyError => s!"ML-DSA verify failed: {error.display}")
        (ks.verifyMessage vkBytes message sigBytes)

end Verify

variable {ks : Keystore} {keys : Keys} {world : World} {env : Env} {id : KeyId}
  {record : KeyMetadata} {version : KeyVersion} {message : Bytes}

/-! ### Pairs of the right kind -/

/-- The secret is a seed and the stored key is its verifying key. -/
def IsSigningPair (ks : Keystore) (secret : Bytes) (publicKeyHex : String) : Prop :=
  ∃ seed : SizedBytes 32, secret = seed.1 ∧
    publicKeyHex = hexEncode (ks.crypto.mldsaVerifyingKey seed).1

/-- The pair that a key of this type keeps. -/
def IsPairOf (ks : Keystore) : KeyType → Bytes → String → Prop
  | .signing => IsSigningPair ks
  | _ => IsKeyPair ks

theorem isPairOf_of_kem {keyType : KeyType} {secret : Bytes} {publicKeyHex : String}
    (kem : keyType ≠ .signing) :
    IsPairOf ks keyType secret publicKeyHex ↔ IsKeyPair ks secret publicKeyHex := by
  cases keyType with
  | signing => exact absurd rfl kem
  | _ => exact Iff.rfl

theorem isSigningPair_signingKeyPair (random : Randomness) :
    IsSigningPair ks (ks.signingKeyPair random).2 (hexEncode (ks.signingKeyPair random).1) :=
  ⟨random.signingSeed, rfl, rfl⟩

/-- A signing pair or a key pair. -/
def IsAnyPair (ks : Keystore) (_ : KeyType) (secret : Bytes) (publicKeyHex : String) : Prop :=
  IsSigningPair ks secret publicKeyHex ∨ IsKeyPair ks secret publicKeyHex

/-- Every version that is not destroyed holds a pair, when the fresh pairs are ones for
the types of their keys. -/
theorem Reachable.holdPairs_of {pair : KeyType → Bytes → String → Prop}
    {allowed : Step → World → Prop} (lawful : ks.crypto.Lawful)
    (kemFits : ∀ (random : Randomness) keyType, keyType ≠ .signing →
      pair keyType (ks.kemKeyPair random).2 (hexEncode (ks.kemKeyPair random).1))
    (signingFits : ∀ random : Randomness,
      pair .signing (ks.signingKeyPair random).2 (hexEncode (ks.signingKeyPair random).1))
    (rotates : ∀ step world id old, allowed step world → step.call = .rotate id →
      world.keys.find? id = some old → old.state = .active →
      pair old.keyType (ks.kemKeyPair step.env.randomness).2
        (hexEncode (ks.kemKeyPair step.env.randomness).1))
    (reachable : Reachable ks allowed world) : HoldPairs ks world.keys pair := by
  obtain ⟨now, replay, reaches⟩ := reachable
  suffices invariant : (Sound ks world.keys ∧ Emptied world.keys) ∧ HoldPairs ks world.keys pair from
    invariant.2
  refine reaches.keys_invariant
    (fun keys => (Sound ks keys ∧ Emptied keys) ∧ HoldPairs ks keys pair) ?_ ?_
  · rintro step world keys record allows fresh ⟨⟨sound, emptied⟩, hold⟩ mayWrite
    have kept := mayWrite.extends fresh emptied
    refine ⟨⟨mayWrite.change.sound lawful sound emptied kept, mayWrite.emptied fresh emptied⟩, ?_⟩
    refine hold.insert kept fun live => ?_
    refine mayWrite.change.holdsPair lawful sound emptied hold (kemFits _) (signingFits _) ?_ live
    intro id old rotated found active
    have same : keys = world.keys := mayWrite.once (by rw [rotated]; rfl)
    subst same
    exact rotates step world id old allows rotated found active
  · refine ⟨⟨?_, ?_⟩, ?_⟩
    all_goals
      intro id record found
      cases found

/-- In every run every version that is not destroyed holds a pair of some kind. -/
theorem Reachable.holdAnyPairs {allowed : Step → World → Prop} (lawful : ks.crypto.Lawful)
    (reachable : Reachable ks allowed world) : HoldPairs ks world.keys (IsAnyPair ks) := by
  apply Reachable.holdPairs_of lawful ?_ ?_ ?_ reachable
  · intro random keyType _
    exact .inr (isKeyPair_kemKeyPair random)
  · intro random
    exact .inl (isSigningPair_signingKeyPair random)
  · intro step world id old _ _ _ _
    exact .inr (isKeyPair_kemKeyPair _)

/-- A step that rotates no active signing key. -/
def SparesSigning (step : Step) (world : World) : Prop :=
  ∀ id record, step.call = .rotate id → world.keys.find? id = some record →
    record.keyType = .signing → record.state ≠ .active

/-- While the signing keys are spared, every version that is not destroyed holds a pair
of the kind of its key. -/
theorem Reachable.holdPairs (lawful : ks.crypto.Lawful)
    (reachable : Reachable ks SparesSigning world) : HoldPairs ks world.keys (IsPairOf ks) := by
  apply Reachable.holdPairs_of lawful ?_ isSigningPair_signingKeyPair ?_ reachable
  · intro random keyType kem
    exact (isPairOf_of_kem kem).mpr (isKeyPair_kemKeyPair random)
  · intro step world id old spares rotates found active
    have kem : old.keyType ≠ .signing := fun signing => spares id old rotates found signing active
    exact (isPairOf_of_kem kem).mpr (isKeyPair_kemKeyPair _)

/-! ### Signing and verifying -/

theorem sign_run (answers : ∀ id, env.getFault id = none) {secret signature : Bytes}
    (found : world.keys.find? id = some record) (signing : record.keyType = .signing)
    (active : record.state = .active) (current : record.currentKeyVersion = some version)
    (unwraps : Unwraps ks world.keys false (maxUnwrapDepth + 1) id version secret)
    (signs : ks.signMessage secret message = .ok signature) :
    (ks.sign id message).run (handle env) world =
      (.ok ⟨id.text, version.version, hexEncode signature, world.now⟩, world) := by
  have unwrapped := run_of_unwraps answers unwraps
  rw [sign, run_mapErr, run_bind, run_mapErr, get_run (answers id) found]
  simp only [Outcome.mapErr, andThen_ok, signing, active, ne_eq, not_true_eq_false, if_false,
    current, Program.ofOption, ret_bind, run_bind, run_mapErr, unwrapKeyVersion, unwrapped, signs,
    Program.ofExcept, utcNow, call_bind, run_perform, run_ret, handle]

/-- What a signature says of the key that made it. -/
theorem signed_of_run {payload : SignedPayload} {after : World}
    (ran : (ks.sign id message).run (handle env) world = (.ok payload, after)) :
    after = world ∧ ∃ record version seed signature, world.keys.find? id = some record ∧
      record.keyType = .signing ∧ record.state = .active ∧
      record.currentKeyVersion = some version ∧
      Unwraps ks world.keys false (maxUnwrapDepth + 1) id version seed ∧
      ks.signMessage seed message = .ok signature ∧
      payload = ⟨id.text, version.version, hexEncode signature, world.now⟩ := by
  have neutral : ∀ op, Op.Reads op → ∀ world, (handle env op world).2 = world :=
    fun op reads => handle_of_reads reads
  have body := of_run_mapErr_eq_ok ran
  obtain ⟨record, got, rest⟩ := (get_reads id).mapErr.of_run_bind_eq_ok neutral body
  have found := find?_of_get (of_run_mapErr_eq_ok got)
  obtain ⟨signing, rest⟩ := of_run_guard_eq_ok rest
  obtain ⟨active, rest⟩ := of_run_guard_eq_ok rest
  obtain ⟨version, current, rest⟩ := of_run_ofOption_bind_eq_ok rest
  obtain ⟨seed, unwrapped, rest⟩ :=
    (unwrapKeyVersionInner_reads _ _ _ _).mapErr.of_run_bind_eq_ok neutral rest
  have unwraps := unwraps_of_run (of_run_mapErr_eq_ok unwrapped)
  obtain ⟨signature, signed, rest⟩ := of_run_ofExcept_bind_eq_ok rest
  cases rest
  exact ⟨rfl, record, version, seed, signature, found, not_not.mp signing, not_not.mp active,
    current, unwraps, signed, rfl⟩

/-- Only a seed signs. -/
theorem length_of_signMessage {seed signature : Bytes}
    (signed : ks.signMessage seed message = .ok signature) : seed.length = 32 := by
  unfold signMessage at signed
  split at signed
  · assumption
  · cases signed

theorem verifySignature_run (answers : env.getFault id = none) {vkBytes sigBytes : Bytes}
    {payload : SignedPayload} {valid : Bool} (found : world.keys.find? id = some record)
    (signing : record.keyType = .signing) (active : record.state = .active)
    (lookup : record.getVersion payload.keyVersion = some version)
    (storesKey : version.publicKeyHex = hexEncode vkBytes)
    (carries : payload.signatureHex = hexEncode sigBytes)
    (verifies : ks.verifyMessage vkBytes message sigBytes = .ok valid) :
    (ks.verifySignature id message payload).run (handle env) world = (.ok valid, world) := by
  rw [verifySignature, run_mapErr, run_bind, run_mapErr, get_run answers found]
  simp only [Outcome.mapErr, andThen_ok, signing, active, ne_eq, not_true_eq_false, if_false,
    true_or, lookup, Program.ofOption, ret_bind, storesKey, carries, decodeHex, utf8_hexEncode,
    hexDecode_hexBytes, Program.ofExcept, verifies, run_ret]

/-- A signature made with the seed of a pair verifies under its stored key. -/
theorem IsSigningPair.signs (signs : ks.crypto.Signs) {secret : Bytes} {publicKeyHex : String}
    (pair : IsSigningPair ks secret publicKeyHex) (message : Bytes) :
    ∃ vkBytes signature, publicKeyHex = hexEncode vkBytes ∧
      ks.signMessage secret message = .ok signature ∧
      ks.verifyMessage vkBytes message signature = .ok true := by
  obtain ⟨seed, rfl, rfl⟩ := pair
  obtain ⟨signature, signed, verified⟩ := signs seed message
  refine ⟨_, signature.1, rfl, ?_, ?_⟩
  · simp [signMessage, signed]
  · simp [verifyMessage, verified]

/-- Every key on the wrapping chain of a version is active. -/
def ChainActive (keys : Keys) (version : KeyVersion) : Prop :=
  ∀ ancestor, OnChain keys version ancestor →
    ∃ record, keys.find? ancestor = some record ∧ record.state = .active

theorem ChainActive.chainUsable (active : ChainActive keys version) : ChainUsable keys version := by
  intro ancestor chain
  obtain ⟨record, found, isActive⟩ := active ancestor chain
  exact ⟨record, found, .inl isActive⟩

/-- A chain that ends in the master key is followed while its keys are active. -/
theorem ChainActive.recoverable {levels : Nat} (active : ChainActive keys version)
    (ends : Recoverable keys true levels version) : Recoverable keys false levels version := by
  induction ends with
  | master wrappedBy => exact .master wrappedBy
  | sealed wrappedBy wrappedAt found live readable lookup recoverable ih =>
      obtain ⟨stored, present, isActive⟩ := active _ (.parent wrappedBy)
      rw [found] at present
      cases present
      refine .sealed wrappedBy wrappedAt found live (.inr ?_) lookup (ih ?_)
      · rw [isActive]
        rfl
      · intro ancestor chain
        exact active ancestor (.above wrappedBy wrappedAt found lookup chain)

/-- A key that signs, and whose signatures are verified. -/
def SignsVerifiably (ks : Keystore) (world : World) (id : KeyId) : Prop :=
  ∀ env now message, (∀ id, env.getFault id = none) →
    ∃ payload, ((ks.sign id message).run (handle env) { world with now := now }).1 = .ok payload ∧
      ∀ verifier later, (∀ id, verifier.getFault id = none) →
        ((ks.verifySignature id message payload).run (handle verifier)
          { world with now := later }).1 = .ok true

/-- An active signing key that holds a signing pair signs when its chain can be followed. -/
theorem signsVerifiably_of_holds (lawful : ks.crypto.Lawful) (signs : ks.crypto.Signs)
    (sound : Sound ks world.keys) (found : world.keys.find? id = some record)
    (signing : record.keyType = .signing) (active : record.state = .active)
    (current : record.currentKeyVersion = some version) {secret : Bytes}
    (holds : Holds ks world.keys id version secret)
    (pair : IsSigningPair ks secret version.publicKeyHex)
    (recoverable : Recoverable world.keys false (maxUnwrapDepth + 1) version) :
    SignsVerifiably ks world id := by
  intro env now message answers
  obtain ⟨vkBytes, signature, stores, signed, verified⟩ := pair.signs signs message
  have unwraps := recoverable.unwraps lawful sound holds
  have ran : (ks.sign id message).run (handle env) { world with now := now } =
      (.ok ⟨id.text, version.version, hexEncode signature, now⟩, { world with now := now }) :=
    sign_run answers found signing active current unwraps signed
  refine ⟨_, congrArg Prod.fst ran, ?_⟩
  intro verifier later responds
  have lookup : record.getVersion version.version = some version := by
    rw [KeyMetadata.version_of_getVersion current]
    exact current
  have checked : (ks.verifySignature id message
      ⟨id.text, version.version, hexEncode signature, now⟩).run (handle verifier)
        { world with now := later } = (.ok true, { world with now := later }) :=
    verifySignature_run (responds id) found signing active lookup stores rfl verified
  exact congrArg Prod.fst checked

/-- While no active signing key is rotated, every version holds a pair of the kind of its
key or is destroyed, and an active signing key signs verifiably under active keys, if
its chain ends in the master key within the limit or every rewrap kept to the roles. -/
theorem material_agrees_of_sparesSigning (lawful : ks.crypto.Lawful) (signs : ks.crypto.Signs)
    (reachable : Reachable ks SparesSigning world) :
    HoldPairs ks world.keys (IsPairOf ks) ∧ Emptied world.keys ∧
    ∀ id record, world.keys.find? id = some record →
      ∃ version, record.currentKeyVersion = some version ∧
        (record.keyType = .signing → record.state = .active → ChainActive world.keys version →
          Recoverable world.keys true (maxUnwrapDepth + 1) version ∨ Reachable ks Orderly world →
          SignsVerifiably ks world id) := by
  obtain ⟨sound, emptied⟩ := reachable.sound lawful
  have hold := Reachable.holdPairs lawful reachable
  refine ⟨hold, emptied, ?_⟩
  intro id record found
  obtain ⟨version, current⟩ := reachable.hasCurrent found
  refine ⟨version, current, ?_⟩
  intro signing active chain short
  have live : record.state ≠ .destroyed := by simp [active]
  have member := KeyMetadata.mem_of_getVersion current
  obtain ⟨secret, holds, pair⟩ := hold id record found live version member
  rw [signing] at pair
  have recoverable : Recoverable world.keys false (maxUnwrapDepth + 1) version := by
    rcases short with ends | orderly
    · exact chain.recoverable ends
    · have ranked := (Orderliness.ofReachable lawful orderly).ranked
      refine chain.chainUsable.recoverable ranked sound found live member ?_
      rw [signing]
      decide
  exact signsVerifiably_of_holds lawful signs sound found signing active current holds pair
    recoverable

/-! ### A rotated signing key -/

/-- One key of each level, from a root down to a signing key, all active. -/
def signingLine : List Planting :=
  [⟨.root, none, .active⟩, ⟨.domain, some 0, .active⟩, ⟨.keyEncrypting, some 1, .active⟩,
    ⟨.signing, some 2, .active⟩]

theorem signingLine_grows : Grows signingLine := by
  have first : Grows [⟨.root, none, .active⟩] := Grows.nil.snoc (.root (.inr rfl)) (by simp)
  have second := first.snoc (.child rfl rfl (.inr rfl) : Fits _ ⟨.domain, some 0, .active⟩) (by simp)
  have third := second.snoc
    (.child rfl rfl (.inr rfl) : Fits _ ⟨.keyEncrypting, some 1, .active⟩) (by simp)
  exact third.snoc (.child rfl rfl (.inr rfl)) (by simp)

theorem sparesSigning_of_grows {step : Step} (grows : step.call.Grows) :
    SparesSigning step world := by
  intro id record rotates
  rw [rotates] at grows
  cases grows

theorem chainActive_of_master (unwrapped : version.wrappingKeyId = none) :
    ChainActive keys version :=
  fun _ chain => absurd chain (not_onChain unwrapped)

theorem ChainActive.seal {parentId : String} {number : Nat} {parent : KeyMetadata}
    {parentVersion : KeyVersion} (wrappedBy : version.wrappingKeyId = some parentId)
    (wrappedAt : version.wrappingKeyVersion = some number)
    (found : keys.find? ⟨parentId⟩ = some parent) (active : parent.state = .active)
    (lookup : parent.getVersion number = some parentVersion)
    (chain : ChainActive keys parentVersion) : ChainActive keys version := by
  intro ancestor onChain
  rcases onChain.eq_or_above wrappedBy wrappedAt found lookup with rfl | above
  · exact ⟨parent, found, active⟩
  · exact chain ancestor above

end Keystore

open Keystore

/-- The chain of a version under the key-encrypting key of a line is active as long as
the keys above it stay as they are. -/
theorem Grove.chainActive {plan : List Planting} {keys later : Keys} {version : KeyVersion}
    (grove : Grove keys plan) (domainPlace : plan[1]? = some ⟨.domain, some 0, .active⟩)
    (kekPlace : plan[2]? = some ⟨.keyEncrypting, some 1, .active⟩)
    (above : ∀ n, n < 3 → later.find? (keyNumbered n) = keys.find? (keyNumbered n))
    (wrappedBy : version.wrappingKeyId = some (keyNumbered 2).text)
    (wrappedAt : version.wrappingKeyVersion = some 1) : ChainActive later version := by
  obtain ⟨kek, kekVersion, kekFound, kekPlanted⟩ := grove.planted 2 _ kekPlace
  obtain ⟨domain, domainVersion, domainFound, domainPlanted⟩ := grove.planted 1 _ domainPlace
  rw [← above 2 (by decide)] at kekFound
  rw [← above 1 (by decide)] at domainFound
  refine .seal wrappedBy wrappedAt kekFound kekPlanted.state kekPlanted.getVersion ?_
  refine .seal kekPlanted.wrappedBy kekPlanted.wrappedAt domainFound domainPlanted.state
    domainPlanted.getVersion ?_
  exact chainActive_of_master domainPlanted.wrappedBy

/-- The signing key of a line can be rotated. -/
theorem Grove.rotate_signing {world : World} (grove : Grove world.keys signingLine)
    (sound : Sound plainKeystore world.keys) :
    ∃ record first wrapped, world.keys.find? (keyNumbered 3) = some record ∧
      Planted 3 ⟨.signing, some 2, .active⟩ record first ∧
      Wraps plainKeystore world.keys (keyNumbered 3) ((record.currentVersion + 1) % 2 ^ 32)
        (plainKeystore.kemKeyPair (quietEnv 4).randomness).2 record.parentId wrapped ∧
      (Step.mk world.now (quietEnv 4) (.rotate (keyNumbered 3))).run plainKeystore world =
        (.ok (.key (keyNumbered 3)), { world with
          keys := world.keys.insert (rotatedRecord record world.now
            (plainKeystore.nextVersion (quietEnv 4) record world.now wrapped)) }) := by
  obtain ⟨record, first, found, planted⟩ := grove.planted 3 _ rfl
  have next : (record.currentVersion + 1) % 2 ^ 32 = 2 := by
    rw [planted.currentVersion]
    rfl
  have sealable : Sealable plainKeystore world.keys (keyNumbered 3)
      ((record.currentVersion + 1) % 2 ^ 32) record.parentId := by
    rw [next, planted.parentId]
    exact grove.sealable transparent_lawful sound signingLine_grows rfl (by decide) _ (by decide)
  obtain ⟨wrapped, ran, wraps⟩ :=
    rotate_run (plainKeystore_growable.canWrap 4) found planted.state sealable
  refine ⟨record, first, wrapped, found, planted, wraps, ?_⟩
  refine Step.run_of_prog fun fuel => ?_
  rw [Call.prog, run_bind, ran]
  rfl

/-- The signing key of a line, rotated. -/
theorem exists_rotated_signing :
    ∃ world record version, Reachable plainKeystore anyStep world ∧
      world.keys.find? (keyNumbered 3) = some record ∧ record.keyType = .signing ∧
      record.state = .active ∧ record.currentKeyVersion = some version ∧
      ChainActive world.keys version ∧
      (∀ skip, Recoverable world.keys skip (maxUnwrapDepth + 1) version) ∧
      Holds plainKeystore world.keys (keyNumbered 3) version
        (plainKeystore.kemKeyPair (quietEnv 4).randomness).2 := by
  obtain ⟨world, reachable, grove, -⟩ : ∃ world, Reachable plainKeystore anyStep world ∧
      Grove world.keys signingLine ∧ world.replay = .memory ⟨1, []⟩ :=
    exists_grove plainKeystore_growable 0 _ (fun _ _ _ _ _ _ _ => trivial) signingLine_grows
  obtain ⟨sound, emptied⟩ := reachable.sound transparent_lawful
  obtain ⟨record, first, wrapped, found, planted, wraps, after⟩ := grove.rotate_signing sound
  have fresh : (Step.mk world.now (quietEnv 4) (.rotate (keyNumbered 3))).Fresh world :=
    grove.fresh (by decide) (by decide)
  have step := reachable.step _ fresh trivial
  rw [after] at step
  have mayWrite : (Call.rotate (keyNumbered 3)).MayWrite plainKeystore (quietEnv 4) world.keys
      world.keys (rotatedRecord record world.now
        (plainKeystore.nextVersion (quietEnv 4) record world.now wrapped)) :=
    ⟨.rotated found planted.state wraps, fun _ => rfl⟩
  have kept := Call.MayWrite.extends fresh emptied mayWrite
  have own : (rotatedRecord record world.now
      (plainKeystore.nextVersion (quietEnv 4) record world.now wrapped)).id = keyNumbered 3 :=
    planted.id
  have above : ∀ n, n < 3 → (world.keys.insert (rotatedRecord record world.now
      (plainKeystore.nextVersion (quietEnv 4) record world.now wrapped))).find? (keyNumbered n) =
        world.keys.find? (keyNumbered n) :=
    fun n small => find?_insert_numbered own (by omega) (by decide) (by omega)
  have current : (rotatedRecord record world.now (plainKeystore.nextVersion (quietEnv 4) record
      world.now wrapped)).currentKeyVersion =
        some (plainKeystore.nextVersion (quietEnv 4) record world.now wrapped) := by
    simp [KeyMetadata.currentKeyVersion, KeyMetadata.getVersion, rotatedRecord, nextVersion,
      planted.currentVersion, planted.versions, planted.number]
  have held := (wraps.holds rfl rfl rfl rfl : Holds plainKeystore world.keys (keyNumbered 3)
    (plainKeystore.nextVersion (quietEnv 4) record world.now wrapped) _).extends kept
  rw [planted.parentId] at wraps
  obtain ⟨wrappedBy, wrappedAt⟩ := grove.names_sealer
    (.child rfl rfl (.inr rfl) : Fits signingLine ⟨.signing, some 2, .active⟩) wraps
  exact ⟨_, _, _, step, find?_insert_own own, planted.keyType, rfl, current,
    grove.chainActive rfl rfl above wrappedBy wrappedAt,
    fun _ => grove.recoverable_under_kek rfl rfl above wrappedBy wrappedAt, held⟩

/-- A rotated signing key holds a key pair for encryption and does not sign. -/
theorem rotated_signing_key_cannot_sign :
    ∃ world record version, Reachable plainKeystore anyStep world ∧
      world.keys.find? (keyNumbered 3) = some record ∧ record.keyType = .signing ∧
      record.state = .active ∧ record.currentKeyVersion = some version ∧
      ChainActive world.keys version ∧
      Recoverable world.keys true (maxUnwrapDepth + 1) version ∧
      (∀ secret, Holds plainKeystore world.keys (keyNumbered 3) version secret →
        ¬ IsPairOf plainKeystore .signing secret version.publicKeyHex) ∧
      ((plainKeystore.sign (keyNumbered 3) []).run (handle (quietEnv 4)) world).1 =
        .err (.sign "ML-DSA sign failed: SignError: seed must be 32 bytes, got 2432") := by
  obtain ⟨world, record, version, reachable, found, signing, active, current, chain, recoverable,
    holds⟩ := exists_rotated_signing
  obtain ⟨sound, emptied⟩ := reachable.sound transparent_lawful
  have unwraps := (recoverable false).unwraps transparent_lawful sound holds
  have long : (plainKeystore.kemKeyPair (quietEnv 4).randomness).2.length = 2432 :=
    SecretKey.toBytes_length _
  refine ⟨world, record, version, reachable, found, signing, active, current, chain,
    recoverable true, ?_, ?_⟩
  · rintro secret other ⟨seed, rfl, -⟩
    have same := unwraps.eq_of_holds transparent_lawful sound emptied other
    rw [same, seed.2] at long
    cases long
  · have refused : plainKeystore.signMessage (plainKeystore.kemKeyPair (quietEnv 4).randomness).2
        [] = .error "SignError: seed must be 32 bytes, got 2432" := by
      rw [signMessage, dif_neg (by rw [long]; decide), long]
      rfl
    have unwrapped := run_of_unwraps (quietEnv_reliable 4).get unwraps
    rw [sign, run_mapErr, run_bind, run_mapErr, get_run ((quietEnv_reliable 4).get _) found]
    simp only [Outcome.mapErr, andThen_ok, signing, active, ne_eq, not_true_eq_false, if_false,
      current, Program.ofOption, ret_bind, run_bind, run_mapErr, unwrapKeyVersion, unwrapped,
      refused, Program.ofExcept, run_fail]
    rfl

/-- The signing key of a line signs. -/
theorem line_signs :
    ∃ world, Reachable plainKeystore SparesSigning world ∧ Grove world.keys signingLine ∧
      SignsVerifiably plainKeystore world (keyNumbered 3) := by
  obtain ⟨world, reachable, grove, -⟩ : ∃ world, Reachable plainKeystore SparesSigning world ∧
      Grove world.keys signingLine ∧ world.replay = .memory ⟨1, []⟩ :=
    exists_grove plainKeystore_growable 0 _ (fun _ _ _ _ grows _ _ => sparesSigning_of_grows grows)
      signingLine_grows
  obtain ⟨record, first, found, planted⟩ := grove.planted 3 _ rfl
  obtain ⟨-, -, signsAll⟩ :=
    material_agrees_of_sparesSigning transparent_lawful transparent_signs reachable
  obtain ⟨version, current, signs⟩ := signsAll _ _ found
  obtain rfl : first = version := Option.some.inj (planted.current.symm.trans current)
  refine ⟨world, reachable, grove, signs planted.keyType planted.state ?_ (.inl ?_)⟩
  · exact grove.chainActive rfl rfl (fun _ _ => rfl) planted.wrappedBy planted.wrappedAt
  · exact grove.recoverable_under_kek rfl rfl (fun _ _ => rfl) planted.wrappedBy planted.wrappedAt

end Citadel
