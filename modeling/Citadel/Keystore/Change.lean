import Citadel.Keystore.Unwrapping

/-!
# What a call may write

`Change` lists, for every call, the records that it may write over a table of keys,
with everything the code has checked by then. `Call.meets_writes` proves it of the
code once; the invariants of the keystore are then case analyses of `Change`.
-/

namespace Citadel

open Envelope Program

/-- The record after its activation. -/
def activatedRecord (record : KeyMetadata) (updated activated : Nat) : KeyMetadata :=
  { record with state := .active, updatedAt := updated, activatedAt := some activated }

namespace Keystore

/-- The version that a rotation adds to a record. -/
def nextVersion (ks : Keystore) (env : Env) (record : KeyMetadata) (now : Nat)
    (wrapped : Wrapped) : KeyVersion :=
  { firstVersion now (hexEncode (ks.kemKeyPair env.randomness).1) wrapped with
    version := (record.currentVersion + 1) % 2 ^ 32 }

end Keystore

open Keystore

/-- The records that a call may write over `keys`. -/
inductive Change (ks : Keystore) (env : Env) (keys : Keys) : Call → KeyMetadata → Prop where
  | generated {name : String} {keyType : KeyType} {policyId : Option PolicyId}
      {parentId : Option KeyId} {now : Nat} {wrapped : Wrapped} (kem : keyType ≠ .signing)
      (placed : Placed keys env.process.flatOverride keyType parentId)
      (wraps : Wraps ks keys (.generate env.randomness.keyId) 1
        (ks.kemKeyPair env.randomness).2 parentId wrapped) :
      Change ks env keys (.generate name keyType policyId parentId)
        (newRecord (.generate env.randomness.keyId) name keyType policyId parentId now
          (firstVersion now (hexEncode (ks.kemKeyPair env.randomness).1) wrapped))
  | signingGenerated {name : String} {policyId : Option PolicyId} {parentId : KeyId} {now : Nat}
      {wrapped : Wrapped} (placed : Placed keys env.process.flatOverride .signing (some parentId))
      (wraps : Wraps ks keys (.generate env.randomness.keyId) 1
        (ks.signingKeyPair env.randomness).2 (some parentId) wrapped) :
      Change ks env keys (.generateSigningKey name policyId parentId)
        (newRecord (.generate env.randomness.keyId) name .signing policyId (some parentId) now
          (firstVersion now (hexEncode (ks.signingKeyPair env.randomness).1) wrapped))
  | activated {id : KeyId} {before : KeyMetadata} {updated now : Nat}
      (found : keys.find? id = some before) (edge : before.state.canTransitionTo .active = true) :
      Change ks env keys (.activate id) (activatedRecord before updated now)
  | rotated {id : KeyId} {before : KeyMetadata} {now : Nat} {wrapped : Wrapped}
      (found : keys.find? id = some before) (active : before.state = .active)
      (wraps : Wraps ks keys id ((before.currentVersion + 1) % 2 ^ 32)
        (ks.kemKeyPair env.randomness).2 before.parentId wrapped) :
      Change ks env keys (.rotate id)
        (rotatedRecord before now (ks.nextVersion env before now wrapped))
  | rewrapped {id : KeyId} {newParentId : Option KeyId} {before : KeyMetadata}
      {version : KeyVersion} {secret : Bytes} {now : Nat} {wrapped : Wrapped}
      (found : keys.find? id = some before) (current : before.currentKeyVersion = some version)
      (unwraps : Unwraps ks keys true (maxUnwrapDepth + 1) id version secret)
      (wraps : Wraps ks keys id version.version secret newParentId wrapped) :
      Change ks env keys (.rewrap id newParentId) (rewrappedRecord before now wrapped)
  | revoked {id : KeyId} {before : KeyMetadata} {revoked updated : Nat}
      (found : keys.find? id = some before) (active : before.state = .active) :
      Change ks env keys (.revoke id) (revokedRecord before revoked updated)
  | cascadeRevoked {id : KeyId} {before : KeyMetadata} {revoked updated : Nat}
      (found : keys.find? id = some before) (active : before.state = .active) :
      Change ks env keys (.revokeCascade id) (revokedRecord before revoked updated)
  | suspended {root : KeyId} {before : KeyMetadata} {now : Nat}
      (found : keys.find? before.id = some before)
      (edge : before.state.canTransitionTo .suspended = true) :
      Change ks env keys (.revokeCascade root) (suspendedRecord before now)
  | expired {id : KeyId} {before : KeyMetadata} {now : Nat} (found : keys.find? id = some before)
      (usable : before.state.canDecrypt = true) :
      Change ks env keys (.expire id) (expiredRecord before now)
  | dueExpired {id : KeyId} {before : KeyMetadata} {now : Nat}
      (found : keys.find? id = some before) (usable : before.state.canDecrypt = true) :
      Change ks env keys .expireDueKeys (expiredRecord before now)
  | destroyed {id : KeyId} {before : KeyMetadata} {destroyed updated : Nat}
      (found : keys.find? id = some before)
      (edge : before.state.canTransitionTo .destroyed = true) :
      Change ks env keys (.destroy id) (destroyedRecord before destroyed updated)
  | used {id : KeyId} {plaintext : Bytes} {aad : Aad} {context : Context} {before : KeyMetadata}
      {now : Nat} (found : keys.find? id = some before) (active : before.state = .active)
      (data : encryptsUserData before.keyType = true) :
      Change ks env keys (.encrypt id plaintext aad context) (usedRecord before now)

/-- The operations of a program that writes only allowed records. -/
def writes (allowed : Keys → KeyMetadata → Prop) (world : World) : Op → Prop
  | .put record => allowed world.keys record
  | _ => True

section Writes

variable {ks : Keystore} {env : Env} {world : World} {allowed : Keys → KeyMetadata → Prop}
  {ε α β : Type}

/-- The contract of a program that writes only allowed records, played alone. -/
abbrev writing (env : Env) (allowed : Keys → KeyMetadata → Prop) : Contract Op Op.Ret :=
  alone (handle env) (writes allowed)

/-- The program writes only allowed records. -/
abbrev Writes (env : Env) (allowed : Keys → KeyMetadata → Prop) (world : World)
    (program : Prog ε α) : Prop :=
  program.Meets (writing env allowed) world fun _ _ => True

/-- Reading parts write nothing. -/
theorem neutral_of_reads (op : Op) (reads : op.Reads) (world : World) :
    writes allowed world op ∧ (handle env op world).2 = world := by
  refine ⟨?_, handle_of_reads reads world⟩
  cases op with
  | put record => exact reads.elim
  | _ => trivial

/-- The rule for a reading first part. -/
theorem Writes.reading {program : Prog ε α} {continuation : α → Prog ε β}
    (reads : program.Uses Op.Reads)
    (rest : ∀ value, program.run (handle env) world = (.ok value, world) →
      Writes env allowed world (continuation value)) :
    Writes env allowed world (program >>= continuation) :=
  Meets.bindUses reads neutral_of_reads rest (fun _ _ => trivial) (fun _ _ => trivial)

/-- The rule for a sequence whose first part may write. -/
theorem Writes.bind {program : Prog ε α} {continuation : α → Prog ε β}
    (first : Writes env allowed world program)
    (rest : ∀ value later, Writes env allowed later (continuation value)) :
    Writes env allowed world (program >>= continuation) := by
  refine Meets.bind (first.mono ?_)
  intro later outcome _
  cases outcome with
  | ok value => exact rest value later
  | err error => trivial
  | aborted why => trivial

/-- A program that only reads writes nothing. -/
theorem Writes.ofReads {program : Prog ε α} (reads : program.Uses Op.Reads) :
    Writes env allowed world program := by
  induction program with
  | ret value => trivial
  | fail error => trivial
  | abort why => trivial
  | perform op next ih =>
      obtain ⟨permitted, unchanged⟩ :
          writes allowed world op ∧ (handle env op world).2 = world :=
        neutral_of_reads op reads.1 world
      refine Meets.performAlone permitted ?_
      rw [unchanged]
      exact ih _ (reads.2 _)

/-- The rule for one reading operation. -/
theorem Writes.call {op : Op} {continuation : op.Ret → Prog ε α} (reads : op.Reads)
    (rest : Writes env allowed world (continuation (handle env op world).1)) :
    Writes env allowed world (Program.call op >>= continuation) := by
  obtain ⟨permitted, unchanged⟩ :
      writes allowed world op ∧ (handle env op world).2 = world :=
    neutral_of_reads op reads world
  refine Meets.performAlone permitted ?_
  rw [unchanged]
  exact rest

/-- The rule for any operation, whatever its answer. -/
theorem Writes.perform {op : Op} {continuation : op.Ret → Prog ε α}
    (permitted : writes allowed world op)
    (rest : ∀ answer, Writes env allowed (handle env op world).2 (continuation answer)) :
    Writes env allowed world (Program.call op >>= continuation) :=
  Meets.performAlone permitted (rest _)

/-- The rule for a write whose answer is then only reported. -/
theorem Writes.put {record : KeyMetadata} {continuation : Except KeystoreError Unit → Prog ε α}
    (permitted : allowed world.keys record)
    (reads : ∀ answer, (continuation answer).Uses Op.Reads) :
    Writes env allowed world (storagePut record >>= continuation) :=
  Meets.performAlone permitted (Writes.ofReads (reads _))

/-! ### The operations, one by one

Each rule asks for the records of its own operation only, so that a call made of
several operations can use it. -/

theorem createKey_writes {name : String} {keyType : KeyType} {policyId : Option PolicyId}
    {parentId : Option KeyId} {keyPair : Randomness → Bytes × Bytes}
    (permitted : ∀ now wrapped,
      Wraps ks world.keys (.generate env.randomness.keyId) 1 (keyPair env.randomness).2 parentId
        wrapped →
      allowed world.keys (newRecord (.generate env.randomness.keyId) name keyType policyId
        parentId now (firstVersion now (hexEncode (keyPair env.randomness).1) wrapped))) :
    Writes env allowed world (ks.createKey name keyType policyId parentId keyPair) := by
  refine Writes.call trivial (Writes.call trivial ?_)
  refine Writes.reading (wrapSecretKeyFor_reads _ _ _ _).mapErr fun wrapped wrapping => ?_
  refine Writes.put ?_ fun answer => Uses.bind uses_ofExcept fun _ => trivial
  exact permitted _ _ (wraps_of_run (of_run_mapErr_eq_ok wrapping))

theorem generate_writes {name : String} {keyType : KeyType} {policyId : Option PolicyId}
    {parentId : Option KeyId}
    (permitted : ∀ now wrapped, keyType ≠ .signing →
      Placed world.keys env.process.flatOverride keyType parentId →
      Wraps ks world.keys (.generate env.randomness.keyId) 1 (ks.kemKeyPair env.randomness).2
        parentId wrapped →
      allowed world.keys (newRecord (.generate env.randomness.keyId) name keyType policyId
        parentId now (firstVersion now (hexEncode (ks.kemKeyPair env.randomness).1) wrapped))) :
    Writes env allowed world (ks.generate name keyType policyId parentId) := by
  refine Meets.mapErr ?_
  split
  · trivial
  · rename_i kem
    refine Writes.reading requireMasterKey_reads fun _ _ => ?_
    refine Writes.reading (checkHierarchy_reads _ _) fun _ checked => ?_
    refine createKey_writes fun now wrapped wraps => ?_
    exact permitted now wrapped kem (placed_of_checkHierarchy checked) wraps

theorem generateSigningKey_writes {name : String} {policyId : Option PolicyId} {parentId : KeyId}
    (permitted : ∀ now wrapped,
      Placed world.keys env.process.flatOverride .signing (some parentId) →
      Wraps ks world.keys (.generate env.randomness.keyId) 1
        (ks.signingKeyPair env.randomness).2 (some parentId) wrapped →
      allowed world.keys (newRecord (.generate env.randomness.keyId) name .signing policyId
        (some parentId) now
        (firstVersion now (hexEncode (ks.signingKeyPair env.randomness).1) wrapped))) :
    Writes env allowed world (ks.generateSigningKey name policyId parentId) := by
  refine Meets.mapErr ?_
  refine Writes.reading requireMasterKey_reads fun _ _ => ?_
  refine Writes.call trivial ?_
  refine Writes.reading uses_ofExcept fun found answered => ?_
  refine Writes.reading uses_ofOption fun parent present => ?_
  refine Writes.call trivial ?_
  split
  · trivial
  · rename_i admitted
    refine createKey_writes fun now wrapped wraps => permitted now wrapped ?_ wraps
    have stored : found = world.keys.find? parentId :=
      eq_of_faulty_eq_ok (of_run_ofExcept_eq_ok answered)
    refine .child (stored ▸ of_run_ofOption_eq_ok present) ?_
    by_cases wrapping : parent.keyType.role.canWrap .signingKey = true
    · exact Or.inl wrapping
    · exact Or.inr (by simpa [wrapping, handle] using admitted)

theorem activate_writes {id : KeyId}
    (permitted : ∀ before updated now, world.keys.find? id = some before →
      before.state.canTransitionTo .active = true →
      allowed world.keys (activatedRecord before updated now)) :
    Writes env allowed world (activate id) := by
  refine Meets.mapErr ?_
  refine Writes.reading (get_reads id) fun before found => ?_
  refine Writes.reading (transition_reads _ _) fun moved moves => ?_
  refine Writes.call trivial ?_
  refine Writes.put ?_ fun answer => uses_ofExcept
  obtain ⟨edge, rfl⟩ := of_transition moves
  exact permitted before _ _ (find?_of_get found) edge

theorem rotate_writes {id : KeyId}
    (permitted : ∀ before now wrapped, world.keys.find? id = some before →
      before.state = .active →
      Wraps ks world.keys id ((before.currentVersion + 1) % 2 ^ 32)
        (ks.kemKeyPair env.randomness).2 before.parentId wrapped →
      allowed world.keys (rotatedRecord before now (ks.nextVersion env before now wrapped))) :
    Writes env allowed world (ks.rotate id) := by
  refine Meets.mapErr ?_
  refine Writes.reading (get_reads id) fun before found => ?_
  split
  · trivial
  · rename_i active
    refine Writes.reading requireMasterKey_reads fun _ _ => ?_
    refine Writes.call trivial (Writes.call trivial ?_)
    refine Writes.reading (wrapSecretKeyFor_reads _ _ _ _).mapErr fun wrapped wrapping => ?_
    refine Writes.put ?_ fun answer => Uses.bind uses_ofExcept fun _ => trivial
    exact permitted before _ wrapped (find?_of_get found) (not_not.mp active)
      (wraps_of_run (of_run_mapErr_eq_ok wrapping))

theorem rewrap_writes {id : KeyId} {newParentId : Option KeyId}
    (permitted : ∀ before version secret now wrapped, world.keys.find? id = some before →
      before.currentKeyVersion = some version →
      Unwraps ks world.keys true (maxUnwrapDepth + 1) id version secret →
      Wraps ks world.keys id version.version secret newParentId wrapped →
      allowed world.keys (rewrappedRecord before now wrapped)) :
    Writes env allowed world (ks.rewrap id newParentId) := by
  refine Meets.mapErr ?_
  refine Writes.reading (get_reads id).mapErr fun before found => ?_
  refine Writes.reading uses_ofOption fun version current => ?_
  refine Writes.reading (unwrapKeyVersionInner_reads _ _ _ _).mapErr fun secret unwrapping => ?_
  refine Writes.reading (wrapSecretKeyFor_reads _ _ _ _).mapErr fun wrapped wrapping => ?_
  refine Writes.call trivial ?_
  refine Writes.put ?_ fun answer => uses_ofExcept
  exact permitted before version secret _ wrapped (find?_of_get (of_run_mapErr_eq_ok found))
    (of_run_ofOption_eq_ok current) (unwraps_of_run (of_run_mapErr_eq_ok unwrapping))
    (wraps_of_run (of_run_mapErr_eq_ok wrapping))

theorem revoke_writes {id : KeyId}
    (permitted : ∀ before revoked updated, world.keys.find? id = some before →
      before.state = .active → allowed world.keys (revokedRecord before revoked updated)) :
    Writes env allowed world (revoke id) := by
  refine Meets.mapErr ?_
  refine Writes.reading (get_reads id) fun before found => ?_
  split
  · trivial
  · rename_i active
    refine Writes.call trivial (Writes.call trivial ?_)
    refine Writes.put ?_ fun answer => uses_ofExcept
    exact permitted before _ _ (find?_of_get found) (not_not.mp active)

theorem destroy_writes {id : KeyId}
    (permitted : ∀ before destroyed updated, world.keys.find? id = some before →
      before.state.canTransitionTo .destroyed = true →
      allowed world.keys (destroyedRecord before destroyed updated)) :
    Writes env allowed world (destroy id) := by
  refine Meets.mapErr ?_
  refine Writes.reading (get_reads id) fun before found => ?_
  split
  · trivial
  · rename_i edge
    refine Writes.call trivial (Writes.call trivial (Writes.call trivial ?_))
    refine Writes.reading uses_ofExcept fun _ _ => ?_
    refine Writes.put ?_ fun answer => uses_ofExcept
    exact permitted before _ _ (find?_of_get found) (by simpa using edge)

theorem expire_writes {id : KeyId}
    (permitted : ∀ before now, world.keys.find? id = some before →
      before.state.canDecrypt = true → allowed world.keys (expiredRecord before now)) :
    Writes env allowed world (ks.expire id) := by
  refine Meets.mapErr ?_
  refine Writes.reading (get_reads id) fun before found => ?_
  refine Writes.reading (checkExpiration_reads before) fun decision decided => ?_
  cases decision with
  | required reason source =>
      refine Writes.call trivial ?_
      refine Writes.put ?_ fun answer => Uses.bind uses_ofExcept fun _ => trivial
      exact permitted before _ (find?_of_get found) (canDecrypt_of_checkExpiration decided)
  | warning reason remaining source => trivial
  | notNeeded => trivial

theorem expireListed_writes {records : List KeyMetadata} {report : ExpirationReport}
    (permitted : ∀ keys id before now, keys.find? id = some before →
      before.state.canDecrypt = true → allowed keys (expiredRecord before now)) :
    Writes env allowed world (ks.expireListed records report) := by
  induction records generalizing world report with
  | nil => trivial
  | cons record rest ih =>
      refine Writes.reading (checkExpiration_reads record) fun decision _ => ?_
      cases decision with
      | required reason source =>
          refine Writes.bind (Meets.attempt (expire_writes (permitted _ _))) fun expired later => ?_
          cases expired with
          | ok source => exact ih
          | error error => exact ih
      | warning reason remaining source => exact ih
      | notNeeded => exact ih

theorem expireDueKeys_writes
    (permitted : ∀ keys id before now, keys.find? id = some before →
      before.state.canDecrypt = true → allowed keys (expiredRecord before now)) :
    Writes env allowed world ks.expireDueKeys := by
  refine Writes.call trivial ?_
  refine Writes.reading uses_ofExcept fun rotated _ => ?_
  refine Writes.bind (expireListed_writes permitted) fun report later => ?_
  refine Writes.call trivial ?_
  exact Writes.reading uses_ofExcept fun active _ => expireListed_writes permitted

/-- The children that are still to come are as they were listed: each is written at
most once. -/
theorem suspendChildren_writes {children : List KeyMetadata} {cascade : Cascade}
    (permitted : ∀ keys before now, keys.find? before.id = some before →
      before.state.canTransitionTo .suspended = true →
      allowed keys (suspendedRecord before now))
    (distinct : (children.map KeyMetadata.id).Nodup)
    (stored : ∀ child ∈ children, world.keys.find? child.id = some child) :
    Writes env allowed world (suspendChildren children cascade) := by
  induction children generalizing world cascade with
  | nil => trivial
  | cons child rest ih =>
      rw [List.map_cons, List.nodup_cons] at distinct
      have listed : ∀ other ∈ rest, world.keys.find? other.id = some other :=
        fun other member => stored other (List.mem_cons_of_mem _ member)
      unfold suspendChildren
      split
      · exact ih distinct.2 listed
      · split
        · exact ih distinct.2 listed
        · rename_i edge
          refine Writes.call trivial ?_
          have found := stored child List.mem_cons_self
          have kept : ∀ other ∈ rest,
              (handlePut (env.putOutcome child.id) (suspendedRecord child world.now)
                world).2.keys.find? other.id = some other := by
            intro other member
            rw [find?_handlePut_of_ne]
            · exact listed other member
            · intro same
              exact distinct.1 (same ▸ List.mem_map_of_mem member)
          refine Writes.perform (permitted _ child _ found (by simpa using edge)) fun answer => ?_
          cases answer with
          | ok done => exact ih distinct.2 kept
          | error error => exact ih distinct.2 kept

theorem cascadeLoop_writes {fuel : Nat} {cascade : Cascade}
    (permitted : ∀ keys before now, keys.find? before.id = some before →
      before.state.canTransitionTo .suspended = true →
      allowed keys (suspendedRecord before now)) :
    Writes env allowed world (cascadeLoop fuel cascade) := by
  induction fuel generalizing world cascade with
  | zero =>
      unfold cascadeLoop
      split
      · trivial
      · trivial
  | succ fuel ih =>
      unfold cascadeLoop
      split
      · trivial
      · refine Writes.call trivial ?_
        refine Writes.reading uses_ofExcept fun children answered => ?_
        obtain ⟨distinct, members⟩ := listing_spec (of_run_ofExcept_eq_ok answered)
        refine Writes.bind (suspendChildren_writes permitted distinct ?_) fun next later => ih
        intro child member
        exact ((members child).mp member).1

theorem revokeCascade_writes {fuel : Nat} {id : KeyId}
    (revoked : ∀ before revoked updated, world.keys.find? id = some before →
      before.state = .active → allowed world.keys (revokedRecord before revoked updated))
    (suspended : ∀ keys before now, keys.find? before.id = some before →
      before.state.canTransitionTo .suspended = true →
      allowed keys (suspendedRecord before now)) :
    Writes env allowed world (revokeCascade fuel id) := by
  refine Writes.bind (Meets.mapErr (revoke_writes revoked)) fun _ later => ?_
  exact Writes.bind (cascadeLoop_writes suspended) fun cascade last => trivial

theorem encrypt_writes {id : KeyId} {plaintext : Bytes} {aad : Aad} {context : Context}
    (permitted : ∀ before now, world.keys.find? id = some before → before.state = .active →
      encryptsUserData before.keyType = true → allowed world.keys (usedRecord before now)) :
    Writes env allowed world (ks.encrypt id plaintext aad context) := by
  refine Meets.mapErr ?_
  refine Writes.reading (get_reads id).mapErr fun before found => ?_
  split
  · trivial
  · rename_i active
    split
    · trivial
    · rename_i data
      refine Writes.reading (evaluateEffective_reads before) fun verdict _ => ?_
      split
      · trivial
      · refine Writes.reading uses_ofOption fun version _ => ?_
        refine Writes.reading (parsePublicKey_reads _) fun pk _ => ?_
        refine Writes.reading (resolveDomainForKey_reads id).mapErr fun domainId _ => ?_
        refine Writes.call trivial ?_
        refine Writes.reading uses_ofExcept fun ciphertext _ => ?_
        refine Writes.call trivial ?_
        refine Writes.put ?_ fun answer => ?_
        · refine permitted before _ (find?_of_get (of_run_mapErr_eq_ok found)) ?_
            (by simpa using data)
          cases state : before.state with
          | active => rfl
          | _ => simp [state, KeyState.canEncrypt] at active
        · refine Uses.bind uses_ofExcept fun _ => ?_
          exact Uses.bind ⟨trivial, fun _ => trivial⟩ fun encryptedAt => trivial

theorem releaseAndFail_writes {cacheKey : Bytes} :
    Writes env allowed world (releaseAndFail cacheKey : Prog String α) :=
  Meets.performAlone trivial trivial

theorem openClaimed_writes {id domainId : KeyId} {version : KeyVersion}
    {ciphertext cacheKey : Bytes} {aad : Aad} {context : Context} :
    Writes env allowed world
      (ks.openClaimed id version domainId ciphertext cacheKey aad context) := by
  refine Writes.reading (unwrapKeyVersionInner_reads _ _ _ _).attempt fun unwrapped _ => ?_
  cases unwrapped with
  | error error => exact releaseAndFail_writes
  | ok skBytes =>
      simp only
      split
      · exact releaseAndFail_writes
      · split
        · exact releaseAndFail_writes
        · trivial

theorem decrypt_writes {blob : EncryptedBlob} {aad : Aad} {context : Context} :
    Writes env allowed world (ks.decrypt blob aad context) := by
  refine Meets.mapErr ?_
  refine Writes.reading (get_reads _).mapErr fun record _ => ?_
  split
  · trivial
  · refine Writes.reading (evaluateEffective_reads record) fun verdict _ => ?_
    split
    · trivial
    · refine Writes.reading uses_ofOption fun version _ => ?_
      refine Writes.reading uses_ofExcept fun ciphertext _ => ?_
      split
      · trivial
      · refine Writes.reading (resolveDomainForKey_reads _).mapErr fun domainId _ => ?_
        refine Writes.reading uses_ofExcept fun nonce _ => ?_
        refine Writes.perform trivial fun claimed => ?_
        split
        · exact openClaimed_writes
        · trivial
        · trivial

theorem sign_reads {id : KeyId} {message : Bytes} : (ks.sign id message).Uses Op.Reads := by
  refine Uses.mapErr ?_
  refine Uses.bind (get_reads id).mapErr fun record => ?_
  split
  · trivial
  · split
    · trivial
    · refine Uses.bind uses_ofOption fun version => ?_
      refine Uses.bind (unwrapKeyVersionInner_reads _ _ _ _).mapErr fun seedBytes => ?_
      refine Uses.bind uses_ofExcept fun signature => ?_
      exact Uses.bind ⟨trivial, fun _ => trivial⟩ fun signedAt => trivial

end Writes

/-- The calls that write at most one record. -/
def Call.writesOnce : Call → Bool
  | .revokeCascade _ => false
  | .expireDueKeys => false
  | _ => true

/-- A record that a call may write over `keys` when it began over `start`. -/
structure Call.MayWrite (ks : Keystore) (env : Env) (start : Keys) (call : Call) (keys : Keys)
    (record : KeyMetadata) : Prop where
  change : Change ks env keys call record
  once : call.writesOnce = true → keys = start

/-- Every record a call writes is one of its changes. -/
theorem Call.meets_writes (ks : Keystore) (env : Env) (fuel : Nat) (call : Call) (world : World) :
    Writes env (call.MayWrite ks env world.keys) world (call.prog ks fuel) := by
  cases call with
  | generate name keyType policyId parentId =>
      refine Writes.bind (generate_writes ?_) fun _ _ => trivial
      intro now wrapped kem placed wraps
      exact ⟨.generated kem placed wraps, fun _ => rfl⟩
  | generateSigningKey name policyId parentId =>
      refine Writes.bind (generateSigningKey_writes ?_) fun _ _ => trivial
      intro now wrapped placed wraps
      exact ⟨.signingGenerated placed wraps, fun _ => rfl⟩
  | activate id =>
      refine Writes.bind (activate_writes ?_) fun _ _ => trivial
      intro before updated now found edge
      exact ⟨.activated found edge, fun _ => rfl⟩
  | rotate id =>
      refine Writes.bind (rotate_writes ?_) fun _ _ => trivial
      intro before now wrapped found active wraps
      exact ⟨.rotated found active wraps, fun _ => rfl⟩
  | rewrap id newParentId =>
      refine Writes.bind (rewrap_writes ?_) fun _ _ => trivial
      intro before version secret now wrapped found current unwraps wraps
      exact ⟨.rewrapped found current unwraps wraps, fun _ => rfl⟩
  | revoke id =>
      refine Writes.bind (revoke_writes ?_) fun _ _ => trivial
      intro before revoked updated found active
      exact ⟨.revoked found active, fun _ => rfl⟩
  | revokeCascade id =>
      refine Writes.bind (revokeCascade_writes ?_ ?_) fun _ _ => trivial
      · intro before revoked updated found active
        exact ⟨.cascadeRevoked found active, nofun⟩
      · intro keys before now found edge
        exact ⟨.suspended found edge, nofun⟩
  | expire id =>
      refine Writes.bind (expire_writes ?_) fun _ _ => trivial
      intro before now found usable
      exact ⟨.expired found usable, fun _ => rfl⟩
  | expireDueKeys =>
      refine Writes.bind (expireDueKeys_writes ?_) fun _ _ => trivial
      intro keys id before now found usable
      exact ⟨.dueExpired found usable, nofun⟩
  | destroy id =>
      refine Writes.bind (destroy_writes ?_) fun _ _ => trivial
      intro before destroyed updated found edge
      exact ⟨.destroyed found edge, fun _ => rfl⟩
  | encrypt id plaintext aad context =>
      refine Writes.bind (encrypt_writes ?_) fun _ _ => trivial
      intro before now found active data
      exact ⟨.used found active data, fun _ => rfl⟩
  | decrypt blob aad context => exact Writes.bind decrypt_writes fun _ _ => trivial
  | sign id message => exact Writes.bind (Writes.ofReads sign_reads) fun _ _ => trivial

/-! ### From single writes to whole runs -/

section Runs

variable {ks : Keystore} (invariant : Keys → Prop)

/-- An operation of a call that may write leaves the keys alone or writes. -/
theorem keys_handle {env : Env} {allowed : Keys → KeyMetadata → Prop} {world : World} {op : Op}
    (permitted : writes allowed world op) :
    (handle env op world).2.keys = world.keys ∨
      ∃ record, allowed world.keys record ∧
        (handle env op world).2.keys = world.keys.insert record := by
  cases op with
  | put record =>
      simp only [handle]
      cases env.putOutcome record.id with
      | stored => exact Or.inr ⟨record, permitted, rfl⟩
      | refused error => exact Or.inl rfl
      | storedThenFailed error => exact Or.inr ⟨record, permitted, rfl⟩
  | _ => exact Or.inl rfl

/-- An operation of a call keeps what its writes keep. -/
private theorem keys_invariant_handle {step : Step} {world middle : World} {op : Op}
    (preserves : ∀ keys record, invariant keys →
      step.call.MayWrite ks step.env world.keys keys record → invariant (keys.insert record))
    (held : invariant middle.keys)
    (permitted : writes (step.call.MayWrite ks step.env world.keys) middle op) :
    invariant (handle step.env op middle).2.keys := by
  rcases keys_handle permitted with unchanged | ⟨record, allowed, written⟩
  · rw [unchanged]
    exact held
  · rw [written]
    exact preserves _ _ held allowed

/-- The invariant rule for one step. -/
theorem Step.keys_invariant {step : Step} {world : World}
    (preserves : ∀ keys record, invariant keys →
      step.call.MayWrite ks step.env world.keys keys record → invariant (keys.insert record))
    (holds : invariant world.keys) : invariant (step.run ks world).2.keys := by
  refine Meets.invariantAlone (fun world : World => invariant world.keys) ?_
    (Call.meets_writes ks step.env _ step.call (step.enter world)) holds
  intro middle op held permitted
  exact keys_invariant_handle invariant preserves held permitted

/-- The invariant holds before and after every operation of a step, and the operation is
one that the call is allowed. -/
theorem Step.keys_during {step : Step} {world before after : World}
    (preserves : ∀ keys record, invariant keys →
      step.call.MayWrite ks step.env world.keys keys record → invariant (keys.insert record))
    (holds : invariant world.keys) (member : (before, after) ∈ step.transitions ks world) :
    invariant before.keys ∧ invariant after.keys ∧ ∃ op,
      writes (step.call.MayWrite ks step.env world.keys) before op ∧
        after = (handle step.env op before).2 := by
  have meets := Call.meets_writes ks step.env (world.keys.entries.length + 1) step.call
    (step.enter world)
  have kept : ∀ (middle : World) op, invariant middle.keys →
      writes (step.call.MayWrite ks step.env world.keys) middle op →
      invariant (handle step.env op middle).2.keys :=
    fun _ _ held permitted => keys_invariant_handle invariant preserves held permitted
  obtain ⟨held, op, permitted, rfl⟩ :=
    Meets.transitionsAlone (fun world : World => invariant world.keys) kept meets holds member
  exact ⟨held, kept before op held permitted, op, permitted, rfl⟩

/-- Every transition of a step leaves the keys alone or writes one record over keys
that satisfy the invariant. -/
theorem Step.keys_transition {step : Step} {world before after : World}
    (preserves : ∀ keys record, invariant keys →
      step.call.MayWrite ks step.env world.keys keys record → invariant (keys.insert record))
    (holds : invariant world.keys) (member : (before, after) ∈ step.transitions ks world) :
    after.keys = before.keys ∨ ∃ record, invariant before.keys ∧
      step.call.MayWrite ks step.env world.keys before.keys record ∧
      after.keys = before.keys.insert record := by
  obtain ⟨held, -, op, permitted, rfl⟩ := Step.keys_during invariant preserves holds member
  rcases keys_handle permitted with unchanged | ⟨record, allowed, written⟩
  · exact Or.inl unchanged
  · exact Or.inr ⟨record, held, allowed, written⟩

/-- The invariant rule for runs. -/
theorem Reaches.keys_invariant {allowed : Step → World → Prop} {start world : World}
    (preserves : ∀ (step : Step) (world : World) keys record, allowed step world →
      step.Fresh world → invariant keys →
      step.call.MayWrite ks step.env world.keys keys record → invariant (keys.insert record))
    (holds : invariant start.keys) (reaches : Reaches ks allowed start world) :
    invariant world.keys := by
  induction reaches with
  | refl => exact holds
  | step step prior fresh allows ih =>
      refine Step.keys_invariant invariant ?_ ih
      intro keys record held mayWrite
      exact preserves step _ keys record allows fresh held mayWrite

end Runs

end Citadel
