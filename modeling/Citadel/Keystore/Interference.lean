import Citadel.Keystore.Blocking
import Citadel.Keystore.Enforcement
import Citadel.Keystore.Monitoring

/-!
# What one tenant's decryptions do to another

Two runs of a monitored keystore make the same steps, except that each may make further
decryptions on keys of one domain. An encryption reads the stored records, the clock and
the threat level, so the runs treat it alike as long as they have the same records and
the same assessor. A decryption writes no record, but it reaches the assessor in two
ways: it refreshes a level that is out of date, and it records an event when the
envelope does not open.
-/

namespace Citadel

open Envelope Program Keystore

/-! ### Calls that leave the claims alone -/

/-- Every operation but those on the replay store. -/
def Op.Unclaiming : Op → Prop
  | .claim _ => False
  | .release _ => False
  | _ => True

theorem Op.Reads.unclaiming {op : Op} (reads : op.Reads) : op.Unclaiming := by
  cases op with
  | claim key => exact reads
  | release key => exact reads
  | _ => trivial

section Unclaiming

variable {ks : Keystore} {ε α β : Type}

/-- The rule for a reading part. -/
theorem unclaiming_reading {program : Prog ε α} {continuation : α → Prog ε β}
    (reads : program.Uses Op.Reads) (rest : ∀ value, (continuation value).Uses Op.Unclaiming) :
    (program >>= continuation).Uses Op.Unclaiming :=
  (reads.mono fun _ => Op.Reads.unclaiming).bind rest

/-- The rule for one operation. -/
theorem unclaiming_call {op : Op} {continuation : op.Ret → Prog ε α} (permitted : op.Unclaiming)
    (rest : ∀ answer, (continuation answer).Uses Op.Unclaiming) :
    (Program.call op >>= continuation).Uses Op.Unclaiming :=
  ⟨permitted, rest⟩

theorem createKey_unclaiming {name : String} {keyType : KeyType} {policyId : Option PolicyId}
    {parentId : Option KeyId} {keyPair : Randomness → Bytes × Bytes} :
    (ks.createKey name keyType policyId parentId keyPair).Uses Op.Unclaiming := by
  refine unclaiming_call trivial fun random => ?_
  refine unclaiming_call trivial fun now => ?_
  apply unclaiming_reading (wrapSecretKeyFor_reads _ _ _ _).mapErr
  intro wrapped
  refine unclaiming_call trivial fun stored => ?_
  exact Uses.bind uses_ofExcept fun _ => trivial

theorem generate_unclaiming {name : String} {keyType : KeyType} {policyId : Option PolicyId}
    {parentId : Option KeyId} :
    (ks.generate name keyType policyId parentId).Uses Op.Unclaiming := by
  apply Uses.mapErr
  split
  · trivial
  apply unclaiming_reading requireMasterKey_reads
  intro _
  exact unclaiming_reading (checkHierarchy_reads _ _) fun _ => createKey_unclaiming

theorem generateSigningKey_unclaiming {name : String} {policyId : Option PolicyId}
    {parentId : KeyId} :
    (ks.generateSigningKey name policyId parentId).Uses Op.Unclaiming := by
  apply Uses.mapErr
  apply unclaiming_reading requireMasterKey_reads
  intro _
  refine unclaiming_call trivial fun loaded => ?_
  apply Uses.bind uses_ofExcept
  intro found
  apply Uses.bind uses_ofOption
  intro parent
  refine unclaiming_call trivial fun process => ?_
  split
  · trivial
  · exact createKey_unclaiming

theorem activate_unclaiming {id : KeyId} : (activate id).Uses Op.Unclaiming := by
  apply Uses.mapErr
  apply unclaiming_reading (get_reads id)
  intro record
  apply unclaiming_reading (transition_reads _ _)
  intro record
  refine unclaiming_call trivial fun now => ?_
  exact unclaiming_call trivial fun _ => uses_ofExcept

theorem rotate_unclaiming {id : KeyId} : (ks.rotate id).Uses Op.Unclaiming := by
  apply Uses.mapErr
  apply unclaiming_reading (get_reads id)
  intro record
  split
  · trivial
  apply unclaiming_reading requireMasterKey_reads
  intro _
  refine unclaiming_call trivial fun random => ?_
  refine unclaiming_call trivial fun now => ?_
  apply unclaiming_reading (wrapSecretKeyFor_reads _ _ _ _).mapErr
  intro wrapped
  refine unclaiming_call trivial fun stored => ?_
  exact Uses.bind uses_ofExcept fun _ => trivial

theorem rewrap_unclaiming {id : KeyId} {newParentId : Option KeyId} :
    (ks.rewrap id newParentId).Uses Op.Unclaiming := by
  apply Uses.mapErr
  apply unclaiming_reading (get_reads id).mapErr
  intro record
  apply Uses.bind uses_ofOption
  intro version
  apply unclaiming_reading (unwrapKeyVersionInner_reads _ _ _ _).mapErr
  intro skBytes
  apply unclaiming_reading (wrapSecretKeyFor_reads _ _ _ _).mapErr
  intro wrapped
  refine unclaiming_call trivial fun now => ?_
  exact unclaiming_call trivial fun _ => uses_ofExcept

theorem revoke_unclaiming {id : KeyId} : (revoke id).Uses Op.Unclaiming := by
  apply Uses.mapErr
  apply unclaiming_reading (get_reads id)
  intro record
  split
  · trivial
  refine unclaiming_call trivial fun revoked => ?_
  refine unclaiming_call trivial fun updated => ?_
  exact unclaiming_call trivial fun _ => uses_ofExcept

theorem destroy_unclaiming {id : KeyId} : (destroy id).Uses Op.Unclaiming := by
  apply Uses.mapErr
  apply unclaiming_reading (get_reads id)
  intro record
  split
  · trivial
  refine unclaiming_call trivial fun destroyed => ?_
  refine unclaiming_call trivial fun updated => ?_
  refine unclaiming_call trivial fun overwritten => ?_
  apply Uses.bind uses_ofExcept
  intro _
  exact unclaiming_call trivial fun _ => uses_ofExcept

theorem expire_unclaiming {id : KeyId} : (ks.expire id).Uses Op.Unclaiming := by
  apply Uses.mapErr
  apply unclaiming_reading (get_reads id)
  intro record
  apply unclaiming_reading (checkExpiration_reads record)
  intro decision
  cases decision with
  | required reason source =>
      refine unclaiming_call trivial fun now => ?_
      refine unclaiming_call trivial fun stored => ?_
      exact Uses.bind uses_ofExcept fun _ => trivial
  | warning reason remaining source => trivial
  | notNeeded => trivial

theorem expireListed_unclaiming (records : List KeyMetadata) (report : ExpirationReport) :
    (ks.expireListed records report).Uses Op.Unclaiming := by
  induction records generalizing report with
  | nil => trivial
  | cons record rest ih =>
      apply unclaiming_reading (checkExpiration_reads record)
      intro decision
      cases decision with
      | required reason source =>
          apply Uses.bind expire_unclaiming.attempt
          intro expired
          cases expired with
          | ok source => exact ih _
          | error problem => exact ih _
      | warning reason remaining source => exact ih _
      | notNeeded => exact ih _

theorem expireDueKeys_unclaiming : ks.expireDueKeys.Uses Op.Unclaiming := by
  refine unclaiming_call trivial fun listed => ?_
  apply Uses.bind uses_ofExcept
  intro rotated
  apply Uses.bind (expireListed_unclaiming _ _)
  intro report
  refine unclaiming_call trivial fun listed => ?_
  exact Uses.bind uses_ofExcept fun active => expireListed_unclaiming _ _

theorem suspendChildren_unclaiming (children : List KeyMetadata) (cascade : Cascade) :
    (suspendChildren children cascade).Uses Op.Unclaiming := by
  induction children generalizing cascade with
  | nil => trivial
  | cons child rest ih =>
      rw [suspendChildren]
      split
      · exact ih _
      split
      · exact ih _
      refine unclaiming_call trivial fun now => ?_
      refine unclaiming_call trivial fun stored => ?_
      cases stored with
      | ok _ => exact ih _
      | error problem => exact ih _

theorem cascadeLoop_unclaiming (fuel : Nat) (cascade : Cascade) :
    (cascadeLoop fuel cascade).Uses Op.Unclaiming := by
  induction fuel generalizing cascade with
  | zero =>
      rw [cascadeLoop]
      split <;> trivial
  | succ fuel ih =>
      rw [cascadeLoop]
      split
      · trivial
      refine unclaiming_call trivial fun listed => ?_
      apply Uses.bind uses_ofExcept
      intro children
      exact Uses.bind (suspendChildren_unclaiming _ _) fun cascade => ih cascade

theorem encrypt_unclaiming {id : KeyId} {plaintext : Bytes} {aad : Aad} {context : Context} :
    (ks.encrypt id plaintext aad context).Uses Op.Unclaiming := by
  apply Uses.mapErr
  apply unclaiming_reading (get_reads id).mapErr
  intro record
  split
  · trivial
  split
  · trivial
  apply unclaiming_reading (evaluateEffective_reads record)
  intro verdict
  split
  · trivial
  apply Uses.bind uses_ofOption
  intro version
  apply unclaiming_reading (parsePublicKey_reads _)
  intro key
  apply unclaiming_reading (resolveDomainForKey_reads id).mapErr
  intro domainId
  refine unclaiming_call trivial fun random => ?_
  apply Uses.bind uses_ofExcept
  intro ciphertext
  refine unclaiming_call trivial fun now => ?_
  refine unclaiming_call trivial fun stored => ?_
  apply Uses.bind uses_ofExcept
  intro _
  exact unclaiming_call trivial fun _ => trivial

/-- No call but `decrypt` goes to the replay store. -/
theorem Call.unclaiming {call : Call} (fuel : Nat)
    (other : ∀ blob aad context, call ≠ .decrypt blob aad context) :
    (call.prog ks fuel).Uses Op.Unclaiming := by
  cases call with
  | generate name keyType policyId parentId => exact generate_unclaiming.bind fun _ => trivial
  | generateSigningKey name policyId parentId =>
      exact generateSigningKey_unclaiming.bind fun _ => trivial
  | activate id => exact activate_unclaiming.bind fun _ => trivial
  | rotate id => exact rotate_unclaiming.bind fun _ => trivial
  | rewrap id newParentId => exact rewrap_unclaiming.bind fun _ => trivial
  | revoke id => exact revoke_unclaiming.bind fun _ => trivial
  | revokeCascade id =>
      refine Uses.bind ?_ fun _ => trivial
      apply Uses.bind revoke_unclaiming.mapErr
      intro _
      exact (cascadeLoop_unclaiming _ _).bind fun _ => trivial
  | expire id => exact expire_unclaiming.bind fun _ => trivial
  | expireDueKeys => exact expireDueKeys_unclaiming.bind fun _ => trivial
  | destroy id => exact destroy_unclaiming.bind fun _ => trivial
  | encrypt keyId plaintext aad context => exact encrypt_unclaiming.bind fun _ => trivial
  | decrypt blob aad context => exact absurd rfl (other blob aad context)
  | sign keyId message =>
      exact (sign_reads.mono fun _ => Op.Reads.unclaiming).bind fun _ => trivial

end Unclaiming

/-! ### States that only the replay store tells apart -/

/-- Whether a store writes its claims to disk. -/
def ReplayStore.isFile : ReplayStore → Bool
  | .memory _ => false
  | .file _ => true

/-- How a release is answered is up to the disk. -/
theorem ReplayStore.release_answer {left right : ReplayStore} (same : left.isFile = right.isFile)
    (key : Bytes) (now : Nat) (flushed : Except ReplayError Unit) :
    (left.release key now flushed).1 = (right.release key now flushed).1 := by
  cases left with
  | memory left =>
      cases right with
      | memory right => rfl
      | file right => cases same
  | file left =>
      cases right with
      | memory right => cases same
      | file right => cases flushed <;> rfl

/-- A store stays what it is. -/
theorem isFile_handle (env : Env) (op : Op) (world : World) :
    (handle env op world).2.replay.isFile = world.replay.isFile := by
  cases op with
  | put record =>
      simp only [handle, handlePut]
      split <;> rfl
  | claim key =>
      simp only [handle]
      cases world.replay <;> rfl
  | release key =>
      simp only [handle]
      cases world.replay <;> rfl
  | _ => rfl

theorem isFile_run {ε α : Type} (env : Env) (program : Prog ε α) (world : World) :
    (program.run (handle env) world).2.replay.isFile = world.replay.isFile :=
  (uses_any program).invariant (fun later => later.replay.isFile = world.replay.isFile)
    (fun op later _ same => (isFile_handle env op later).trans same) rfl

section Alike

variable {double : DoubleArithmetic} {ks : Keystore} {env : Env} {ε α : Type}
  {left right : Monitored double}

/-- The states have the same records and the same assessor. -/
structure Alike (left right : Monitored double) : Prop where
  keys : left.world.keys = right.world.keys
  threat : left.threat = right.threat
  store : left.world.replay.isFile = right.world.replay.isFile

/-- They also show the same time. -/
structure AlikeNow (left right : Monitored double) : Prop extends Alike left right where
  now : left.world.now = right.world.now

theorem Alike.at (alike : Alike left right) (now : Nat) : AlikeNow (left.at now) (right.at now) :=
  ⟨⟨alike.keys, alike.threat, alike.store⟩, rfl⟩

/-- An operation that does not go to the replay store cannot tell them apart. -/
theorem AlikeNow.handle (alike : AlikeNow left right) (env : Env) (op : Op)
    (unclaiming : op.Unclaiming) :
    (handleMonitored env op left).1 = (handleMonitored env op right).1 ∧
      AlikeNow (handleMonitored env op left).2 (handleMonitored env op right).2 := by
  obtain ⟨⟨now, keys, leftReplay⟩, threat⟩ := left
  obtain ⟨⟨rightNow, rightKeys, rightReplay⟩, rightThreat⟩ := right
  obtain ⟨⟨rfl, rfl, store⟩, rfl⟩ := alike
  cases op with
  | put record =>
      simp only [handleMonitored, Citadel.handle, handlePut]
      split
      · exact ⟨rfl, ⟨rfl, rfl, store⟩, rfl⟩
      · exact ⟨rfl, ⟨rfl, rfl, store⟩, rfl⟩
      · exact ⟨rfl, ⟨rfl, rfl, store⟩, rfl⟩
  | claim key => exact unclaiming.elim
  | release key => exact unclaiming.elim
  | _ => exact ⟨rfl, ⟨rfl, rfl, store⟩, rfl⟩

theorem world_of_reads {op : Op} (reads : op.Reads) (env : Env) (state : Monitored double) :
    (handleMonitored env op state).2.world = state.world := by
  cases op with
  | currentThreatLevel => rfl
  | _ => exact (handle_of_reads reads state.world : (handle env _ state.world).2 = state.world)

/-- Nor can a program made of such operations. -/
theorem AlikeNow.run (alike : AlikeNow left right) (env : Env) {program : Prog ε α}
    (unclaiming : program.Uses Op.Unclaiming) :
    (program.run (handleMonitored env) left).1 = (program.run (handleMonitored env) right).1 ∧
      AlikeNow (program.run (handleMonitored env) left).2
        (program.run (handleMonitored env) right).2 :=
  unclaiming.runBoth (fun op _ _ permitted alike => alike.handle env op permitted) alike

/-- The stores answer a claim on the replay key of a blob alike. -/
def SameClaims (ks : Keystore) (env : Env) (blob : EncryptedBlob) (left right : Monitored double) :
    Prop :=
  ∀ key, ReplayKey ks left.world.keys blob key →
    (left.world.replay.claim key left.world.now env.flushed).1 =
      (right.world.replay.claim key right.world.now env.flushed).1

/-- What a decryption cannot tell apart while its slot is as it is. -/
structure AlikeAt (env : Env) (table : Keys) (isKey : Bytes → Prop) (slot : Slot)
    (left right : Monitored double) : Prop extends AlikeNow left right where
  stored : left.world.keys = table
  claims : slot = .unclaimed → ∀ key, isKey key →
    (left.world.replay.claim key left.world.now env.flushed).1 =
      (right.world.replay.claim key right.world.now env.flushed).1

/-- An answered claim is not open any more. -/
theorem Slot.see_claim_ne {slot : Slot} {key : Bytes} (answer : Except ReplayError Bool) :
    slot.see (.claim key) answer ≠ .unclaimed := by
  rcases answer with problem | _ | _ <;> nofun

/-- A reading operation leaves the slot and the stores alone. -/
theorem AlikeAt.reads {keys : Keys} {isKey : Bytes → Prop} {slot : Slot}
    (alike : AlikeAt env keys isKey slot left right) (op : Op) (reads : op.Reads)
    (same : ∀ answer, slot.see op answer = slot)
    (expected : op.ReadsFrom keys (handleMonitored env op left).1) :
    (handleMonitored env op left).1 = (handleMonitored env op right).1 ∧
      op.ReadsFrom keys (handleMonitored env op left).1 ∧
      AlikeAt env keys isKey (slot.see op (handleMonitored env op left).1)
        (handleMonitored env op left).2 (handleMonitored env op right).2 := by
  obtain ⟨answers, kept⟩ := alike.toAlikeNow.handle env op reads.unclaiming
  have leftWorld := world_of_reads reads env left
  have rightWorld := world_of_reads reads env right
  rw [same]
  refine ⟨answers, expected, kept, ?_, ?_⟩
  · rw [leftWorld]
    exact alike.stored
  · rw [leftWorld, rightWorld]
    exact alike.claims

theorem AlikeAt.handle {keys : Keys} {isKey : Bytes → Prop} {slot : Slot}
    (alike : AlikeAt env keys isKey slot left right) {op : Op} (allows : slot.Allows isKey op) :
    (handleMonitored env op left).1 = (handleMonitored env op right).1 ∧
      op.ReadsFrom keys (handleMonitored env op left).1 ∧
      AlikeAt env keys isKey (slot.see op (handleMonitored env op left).1)
        (handleMonitored env op left).2 (handleMonitored env op right).2 := by
  cases op with
  | put record => exact allows.elim
  | claim key =>
      have same := alike.claims allows.1 key allows.2
      refine ⟨same, trivial, ⟨⟨alike.keys, alike.threat, ?_⟩, alike.now⟩, alike.stored, ?_⟩
      · exact ((isFile_handle env _ _).trans alike.store).trans (isFile_handle env _ _).symm
      · intro unclaimed
        exact absurd unclaimed (Slot.see_claim_ne _)
  | release key =>
      refine ⟨?_, trivial, ⟨⟨alike.keys, alike.threat, ?_⟩, alike.now⟩, alike.stored, nofun⟩
      · simp only [handleMonitored, Citadel.handle]
        rw [ReplayStore.release_answer alike.store, alike.now]
      · exact ((isFile_handle env _ _).trans alike.store).trans (isFile_handle env _ _).symm
  | get id =>
      refine alike.reads (.get id) trivial (fun _ => rfl) fun found answered => ?_
      rw [eq_of_faulty_eq_ok answered, alike.stored]
  | overwriteKeyFile id => exact alike.reads (.overwriteKeyFile id) trivial (fun _ => rfl) trivial
  | listByState state => exact alike.reads (.listByState state) trivial (fun _ => rfl) trivial
  | listByParent parentId => exact alike.reads (.listByParent parentId) trivial (fun _ => rfl) trivial
  | utcNow => exact alike.reads .utcNow trivial (fun _ => rfl) trivial
  | currentThreatLevel => exact alike.reads .currentThreatLevel trivial (fun _ => rfl) trivial
  | processEnv => exact alike.reads .processEnv trivial (fun _ => rfl) trivial
  | osRng => exact alike.reads .osRng trivial (fun _ => rfl) trivial

/-- A decryption whose claim is answered alike cannot tell them apart, and it writes no
record. -/
theorem AlikeNow.decryptReporting (alike : AlikeNow left right) {blob : EncryptedBlob} (aad : Aad)
    (context : Context) (claims : SameClaims ks env blob left right) :
    ((ks.decryptReporting blob aad context).run (handleMonitored env) left).1 =
        ((ks.decryptReporting blob aad context).run (handleMonitored env) right).1 ∧
      AlikeNow ((ks.decryptReporting blob aad context).run (handleMonitored env) left).2
        ((ks.decryptReporting blob aad context).run (handleMonitored env) right).2 ∧
      ((ks.decryptReporting blob aad context).run (handleMonitored env) left).2.world.keys =
        left.world.keys := by
  have settles : (ks.decrypt blob aad context).Meets
      (claiming left.world.keys (ReplayKey ks left.world.keys blob)) .unclaimed
      (Settled ks left.world.keys blob) := decrypt_settles blob aad context
  rw [decrypt_eq] at settles
  have meets := settles.of_mapErr.of_bind
  have start : AlikeAt env left.world.keys (ReplayKey ks left.world.keys blob) .unclaimed left
      right := ⟨alike, rfl, fun _ => claims⟩
  let slots := claiming left.world.keys (ReplayKey ks left.world.keys blob)
  let related : Slot → Monitored double → Monitored double → Prop :=
    AlikeAt env left.world.keys (ReplayKey ks left.world.keys blob)
  have step : ∀ slot first second op, related slot first second → slots.Allows slot op →
      (handleMonitored env op first).1 = (handleMonitored env op second).1 ∧
        slots.Expects slot op (handleMonitored env op first).1 ∧
        related (slots.after slot op (handleMonitored env op first).1)
          (handleMonitored env op first).2 (handleMonitored env op second).2 :=
    fun _ _ _ _ alike allows => AlikeAt.handle alike allows
  obtain ⟨same, slot, ends⟩ := Meets.runBoth step meets start
  exact ⟨same, ends.toAlikeNow, ends.stored⟩

end Alike

/-! ### A decryption that does not reach the assessor -/

namespace Keystore

section Unopened

variable {ks : Keystore} {env : Env} {world after : World} {blob : EncryptedBlob} {aad : Aad}
  {context : Context}

/-- A decryption gets as far as the envelope, which does not open. -/
inductive Unopened (ks : Keystore) (env : Env) (world : World) (blob : EncryptedBlob) (aad : Aad)
    (context : Context) : Prop where
  | intro {record : KeyMetadata} {version : KeyVersion} {ciphertext : Bytes} {domainId : KeyId}
      {nonce : SizedBytes 12} {skBytes : Bytes} {key : SecretKey ks.crypto}
      {problem : DecryptionError}
      (found : world.keys.find? ⟨blob.keyId⟩ = some record)
      (usable : record.state.canDecrypt = true)
      (notExpired : NotExpired ks env.level world.now record)
      (lookup : record.getVersion blob.keyVersion = some version)
      (decodes : hexDecode (utf8 blob.ciphertextHex) = .ok ciphertext)
      (long : aeadTagBytes ≤ ciphertext.length)
      (resolves : ResolvesTo world.keys 10 ⟨blob.keyId⟩ domainId)
      (carries : envelopeNonce ciphertext = .ok nonce)
      (claimed : (world.replay.claim (deriveReplayKey ks.crypto domainId.text blob.keyId
        blob.keyVersion nonce (aeadTag ciphertext)) world.now env.flushed).1 = .ok true)
      (unwraps : Unwraps ks world.keys false (maxUnwrapDepth + 1) ⟨blob.keyId⟩ version skBytes)
      (parses : SecretKey.fromBytes ks.crypto skBytes = .ok key)
      (unopened : Envelope.open ks.crypto key ciphertext (domainBoundAad domainId aad) context =
        .error problem)

theorem of_openReporting {id domainId : KeyId} {version : KeyVersion} {ciphertext cacheKey : Bytes}
    (ran : (ks.openReporting id version domainId ciphertext cacheKey aad context).run (handle env)
      world = (.ok none, after)) :
    ∃ skBytes key problem, Unwraps ks world.keys false (maxUnwrapDepth + 1) id version skBytes ∧
      SecretKey.fromBytes ks.crypto skBytes = .ok key ∧
      Envelope.open ks.crypto key ciphertext (domainBoundAad domainId aad) context =
        .error problem := by
  obtain ⟨unwrapped, attempted, rest⟩ := (unwrapKeyVersionInner_reads _ _ _ _).attempt
    |>.of_run_bind_eq_ok (fun op reads => handle_of_reads reads) ran
  cases unwrapped with
  | error problem => exact absurd rest not_releaseAndFail_run
  | ok skBytes =>
      have unwraps := unwraps_of_run (run_attempt_eq_ok attempted)
      cases parses : SecretKey.fromBytes ks.crypto skBytes with
      | error problem =>
          simp only [parses] at rest
          exact absurd rest not_releaseAndFail_run
      | ok key =>
          simp only [parses] at rest
          cases opens : Envelope.open ks.crypto key ciphertext (domainBoundAad domainId aad)
              context with
          | error problem => exact ⟨skBytes, key, problem, unwraps, parses, opens⟩
          | ok plaintext =>
              simp only [opens] at rest
              cases rest

theorem unopened_of_run
    (ran : (ks.decryptReporting blob aad context).run (handle env) world = (.ok none, after)) :
    Unopened ks env world blob aad context := by
  have neutral : ∀ op, Op.Reads op → ∀ world, (handle env op world).2 = world :=
    fun op reads => handle_of_reads reads
  obtain ⟨record, got, rest⟩ := (get_reads _).mapErr.of_run_bind_eq_ok neutral ran
  obtain ⟨usable, rest⟩ := of_run_guard_eq_ok rest
  obtain ⟨verdict, evaluated, rest⟩ :=
    (evaluateEffective_reads record).of_run_bind_eq_ok neutral rest
  obtain ⟨unexpired, rest⟩ := of_run_guard_eq_ok rest
  obtain ⟨version, lookup, rest⟩ := of_run_ofOption_bind_eq_ok rest
  obtain ⟨ciphertext, decodes, rest⟩ := of_run_ofExcept_bind_eq_ok rest
  obtain ⟨long, rest⟩ := of_run_guard_eq_ok rest
  obtain ⟨domainId, resolved, rest⟩ :=
    (resolveDomainForKey_reads _).mapErr.of_run_bind_eq_ok neutral rest
  obtain ⟨nonce, carries, rest⟩ := of_run_ofExcept_bind_eq_ok rest
  simp only [replayClaim, call_bind, run_perform] at rest
  split at rest
  · rename_i claimed
    obtain ⟨skBytes, key, problem, unwraps, parses, unopened⟩ := of_openReporting rest
    exact .intro (find?_of_get (of_run_mapErr_eq_ok got)) (by simpa using usable)
      ⟨verdict, verdictAt_of_run evaluated, by simpa using unexpired⟩ lookup decodes
      (Nat.not_lt.mp long) (resolvesTo_of_run (of_run_mapErr_eq_ok resolved)) carries claimed
      unwraps parses unopened
  · cases rest
  · cases rest

end Unopened

end Keystore

section Runs

variable {double : DoubleArithmetic} {ks : Keystore} {env : Env} {state : Monitored double}
  {blob : EncryptedBlob} {aad : Aad} {context : Context}

/-- A decryption that stops before it reads the threat level: there is no such key, or its
state does not permit decryption. -/
def Barred (keys : Keys) (blob : EncryptedBlob) : Prop :=
  ∀ record, keys.find? ⟨blob.keyId⟩ = some record → record.state.canDecrypt = false

/-- What keeps a decryption from reaching the assessor: it stops early, or the stored level
is up to date and the envelope is not one that is tried and does not open. -/
def Quiet (ks : Keystore) (env : Env) (blob : EncryptedBlob) (aad : Aad) (context : Context)
    (state : Monitored double) : Prop :=
  Barred state.world.keys blob ∨
    (state.threat.UpToDate state.world.now ∧
      ¬ Unopened ks (state.env env) state.world blob aad context)

theorem Barred.run (barred : Barred state.world.keys blob) (ks : Keystore) (env : Env) (aad : Aad)
    (context : Context) :
    ∃ error, (ks.decryptReporting blob aad context).run (handleMonitored env) state =
      (.err error, state) := by
  simp only [decryptReporting, Keystore.get, call_bind, perform_bind, mapErr, run_perform]
  simp only [handleMonitored, handle, faulty]
  cases env.getFault ⟨blob.keyId⟩ with
  | some problem => exact ⟨_, rfl⟩
  | none =>
      cases found : state.world.keys.find? ⟨blob.keyId⟩ with
      | none => exact ⟨_, rfl⟩
      | some record =>
          have refused := barred record found
          simp only [Program.ofExcept, Program.ofOption, ret_bind, mapErr, refused, if_true]
          exact ⟨_, rfl⟩

/-- A quiet decryption leaves the records and the assessor as they were. -/
theorem Quiet.run (quiet : Quiet ks env blob aad context state) :
    Alike ((Call.decrypt blob aad context).runMonitored ks env state).2 state := by
  rcases quiet with barred | ⟨upToDate, opens⟩
  · obtain ⟨error, ran⟩ := barred.run ks env aad context
    simp only [Call.runMonitored, ran]
    exact ⟨rfl, rfl, rfl⟩
  · have itself : AlikeNow state state := ⟨⟨rfl, rfl, rfl⟩, rfl⟩
    have sameClaims : SameClaims ks env blob state state := fun _ _ => rfl
    have keys := (itself.decryptReporting aad context sameClaims).2.2
    have store := isFile_run (state.env env) (ks.decryptReporting blob aad context) state.world
    rw [run_monitored upToDate] at keys
    simp only [Call.runMonitored, run_monitored upToDate]
    cases ran : (ks.decryptReporting blob aad context).run (handle (state.env env)) state.world with
    | mk outcome after =>
        rw [ran] at keys store
        cases outcome with
        | ok report =>
            cases report with
            | none => exact absurd (unopened_of_run ran) opens
            | some plaintext => exact ⟨keys, rfl, store⟩
        | err error => exact ⟨keys, rfl, store⟩
        | aborted why => exact ⟨keys, rfl, store⟩

/-! ### Two runs -/

/-- The step is a decryption under a key of the domain. -/
inductive DecryptsIn (domain : KeyId) (state : Monitored double) : MonitoredStep double → Prop where
  | intro {now : Nat} {env : Env} {blob : EncryptedBlob} {aad : Aad} {context : Context}
      (resolves : ResolvesTo state.world.keys 10 ⟨blob.keyId⟩ domain) :
      DecryptsIn domain state ⟨now, env, .call (.decrypt blob aad context)⟩

/-- The states of two runs that differ in decryptions under keys of one domain only. `extra`
is asked of the steps that one run has for itself, `common` of those they share. -/
inductive TwoRuns (ks : Keystore) (domain : KeyId)
    (extra : MonitoredStep double → Monitored double → Prop)
    (common : MonitoredStep double → Monitored double → Monitored double → Prop)
    (start : Monitored double) : Monitored double → Monitored double → Prop where
  | start : TwoRuns ks domain extra common start start start
  | left {left right : Monitored double} (step : MonitoredStep double)
      (prior : TwoRuns ks domain extra common start left right)
      (within : DecryptsIn domain left step) (admitted : extra step left) :
      TwoRuns ks domain extra common start (step.play ks left) right
  | right {left right : Monitored double} (step : MonitoredStep double)
      (prior : TwoRuns ks domain extra common start left right)
      (within : DecryptsIn domain right step) (admitted : extra step right) :
      TwoRuns ks domain extra common start left (step.play ks right)
  | both {left right : Monitored double} (step : MonitoredStep double)
      (prior : TwoRuns ks domain extra common start left right)
      (admitted : common step left right) :
      TwoRuns ks domain extra common start (step.play ks left) (step.play ks right)

/-- A decryption of one run only does not reach the assessor. -/
def QuietStep (ks : Keystore) (step : MonitoredStep double) (state : Monitored double) : Prop :=
  ∀ blob aad context, step.action = .call (.decrypt blob aad context) →
    Quiet ks step.env blob aad context (state.at step.now)

/-- The replay stores of both runs answer the claim of a shared decryption alike. -/
def SameAnswers (ks : Keystore) (step : MonitoredStep double) (left right : Monitored double) :
    Prop :=
  ∀ blob aad context, step.action = .call (.decrypt blob aad context) →
    SameClaims ks step.env blob (left.at step.now) (right.at step.now)

section Steps

variable {left right : Monitored double}

theorem Alike.trans {third : Monitored double} (first : Alike left right)
    (second : Alike right third) : Alike left third :=
  ⟨first.keys.trans second.keys, first.threat.trans second.threat, first.store.trans second.store⟩

theorem Alike.symm (alike : Alike left right) : Alike right left :=
  ⟨alike.keys.symm, alike.threat.symm, alike.store.symm⟩

/-- A quiet decryption keeps the runs alike. -/
theorem DecryptsIn.alike {domain : KeyId} {step : MonitoredStep double}
    (within : DecryptsIn domain state step) (quiet : QuietStep ks step state) :
    Alike (step.play ks state) state := by
  cases within with
  | intro resolves =>
      have kept := (quiet _ _ _ rfl).run
      exact ⟨kept.keys, kept.threat, kept.store⟩

/-- What a report is settled to is alike. -/
theorem AlikeNow.settleReport {left right : Outcome String (Option Bytes) × Monitored double}
    (same : left.1 = right.1) (alike : AlikeNow left.2 right.2) :
    (settleReport left).1 = (settleReport right).1 ∧
      Alike (settleReport left).2 (settleReport right).2 := by
  obtain ⟨outcome, leftState⟩ := left
  obtain ⟨_, rightState⟩ := right
  cases same
  rcases outcome with (_ | plaintext) | error | why
  · refine ⟨rfl, alike.keys, ?_, alike.store⟩
    simp only [Citadel.settleReport, Monitored.recordThreatEvent]
    rw [alike.threat, alike.now]
  · exact ⟨rfl, alike.toAlike⟩
  · exact ⟨rfl, alike.toAlike⟩
  · exact ⟨rfl, alike.toAlike⟩

/-- A call is answered alike. -/
theorem AlikeNow.runMonitored (alike : AlikeNow left right) (call : Call)
    (claims : ∀ blob aad context, call = .decrypt blob aad context →
      SameClaims ks env blob left right) :
    (call.runMonitored ks env left).1 = (call.runMonitored ks env right).1 ∧
      Alike (call.runMonitored ks env left).2 (call.runMonitored ks env right).2 := by
  by_cases decrypts : ∃ blob aad context, call = .decrypt blob aad context
  · obtain ⟨blob, aad, context, rfl⟩ := decrypts
    obtain ⟨same, kept, -⟩ := alike.decryptReporting aad context (claims _ _ _ rfl)
    exact AlikeNow.settleReport same kept
  · have other : ∀ blob aad context, call ≠ .decrypt blob aad context :=
      fun blob aad context same => decrypts ⟨blob, aad, context, same⟩
    have played : ∀ state : Monitored double, call.runMonitored ks env state =
        (call.prog ks (state.world.keys.entries.length + 1)).run (handleMonitored env) state := by
      intro state
      cases call with
      | decrypt blob aad context => exact absurd rfl (other blob aad context)
      | _ => rfl
    have unclaiming : (call.prog ks (left.world.keys.entries.length + 1)).Uses Op.Unclaiming :=
      Call.unclaiming _ other
    obtain ⟨same, kept⟩ := alike.run env unclaiming
    rw [played, played, ← alike.keys]
    exact ⟨same, kept.toAlike⟩

/-- A shared step keeps the runs alike. -/
theorem Alike.play (alike : Alike left right) (step : MonitoredStep double)
    (answers : SameAnswers ks step left right) :
    Alike (step.play ks left) (step.play ks right) := by
  have entered := alike.at step.now
  obtain ⟨now, env, action⟩ := step
  cases action with
  | call call =>
      exact (entered.runMonitored call fun blob aad context same =>
        answers blob aad context (congrArg Action.call same)).2
  | threatLevel =>
      refine ⟨alike.keys, ?_, alike.store⟩
      exact congrArg (fun threat => (ThreatAssessor.readLevel threat now).2) alike.threat
  | recordThreatEvent kind severity =>
      refine ⟨alike.keys, ?_, alike.store⟩
      exact congrArg (fun threat => ThreatAssessor.recordEvent threat (.new kind severity now) now)
        alike.threat
  | recordThreatEvents events =>
      refine ⟨alike.keys, ?_, alike.store⟩
      exact congrArg (fun threat => ThreatAssessor.recordEvents threat events now) alike.threat
  | resetThreatState =>
      exact ⟨alike.keys, congrArg ThreatAssessor.reset alike.threat, alike.store⟩

end Steps

theorem TwoRuns.alike {domain : KeyId} {start left right : Monitored double}
    (runs : TwoRuns ks domain (QuietStep ks) (SameAnswers ks) start left right) :
    Alike left right := by
  induction runs with
  | start => exact ⟨rfl, rfl, rfl⟩
  | left step prior within admitted ih => exact (within.alike admitted).trans ih
  | right step prior within admitted ih => exact ih.trans (within.alike admitted).symm
  | both step prior admitted ih => exact ih.play step admitted

/-- Two runs differ in decryptions under keys of one domain. If none of these reaches the
assessor and the shared decryptions are answered alike by the replay stores, then every
encryption, whatever the domain of its key, ends in the same way in both. -/
theorem encryption_alike_in_two_runs (ks : Keystore) (domain : KeyId)
    (start left right : Monitored double)
    (runs : TwoRuns ks domain (QuietStep ks) (SameAnswers ks) start left right)
    (now : Nat) (env : Env) (keyId : KeyId) (plaintext : Bytes) (aad : Aad) (context : Context) :
    ((Call.encrypt keyId plaintext aad context).runMonitored ks env (left.at now)).1 =
      ((Call.encrypt keyId plaintext aad context).runMonitored ks env (right.at now)).1 := by
  have entered := runs.alike.at now
  refine (entered.runMonitored _ ?_).1
  intro _ _ _ same
  cases same

end Runs

/-! ### A failure that is recorded -/

section Failure

variable {double : DoubleArithmetic} {ks : Keystore} {env : Env} {world : World}
  {state : Monitored double} {blob : EncryptedBlob} {aad : Aad} {context : Context}

theorem Monitored.env_reliable (state : Monitored double) (reliable : env.Reliable) :
    (state.env env).Reliable :=
  ⟨reliable.get, reliable.put, reliable.overwrite, reliable.list, reliable.flush⟩

theorem Keystore.openReporting_run (answers : ∀ id, env.getFault id = none) {id domainId : KeyId}
    {version : KeyVersion} {ciphertext cacheKey skBytes : Bytes} {key : SecretKey ks.crypto}
    {problem : DecryptionError} {keys : Keys} (stored : world.keys = keys)
    (unwraps : Unwraps ks keys false (maxUnwrapDepth + 1) id version skBytes)
    (parses : SecretKey.fromBytes ks.crypto skBytes = .ok key)
    (unopened : Envelope.open ks.crypto key ciphertext (domainBoundAad domainId aad) context =
      .error problem) :
    ((ks.openReporting id version domainId ciphertext cacheKey aad context).run (handle env)
      world).1 = .ok none := by
  subst stored
  rw [openReporting, run_bind, run_attempt, unwrapKeyVersion, run_of_unwraps answers unwraps]
  simp only [Outcome.attempt, andThen_ok, parses, unopened, replayRelease, call_bind, run_perform,
    run_ret]

theorem Keystore.run_of_unopened (reliable : env.Reliable)
    (unopened : Unopened ks env world blob aad context) :
    ((ks.decryptReporting blob aad context).run (handle env) world).1 = .ok none := by
  obtain ⟨found, usable, ⟨verdict, evaluated, unexpired⟩, lookup, decodes, long, resolves, carries,
    claimed, unwraps, parses, refused⟩ := unopened
  rw [reliable.flush] at claimed
  rw [decryptReporting, run_bind, run_mapErr, get_run (reliable.get _) found]
  simp only [Outcome.mapErr, andThen_ok, usable, Bool.true_eq_false, if_false, run_bind,
    evaluateEffective_run, evaluated, unexpired, Bool.false_eq_true, lookup, decodes,
    Program.ofOption, Program.ofExcept, run_ret, Nat.not_lt.mpr long, run_mapErr,
    resolveDomainForKey, run_of_resolvesTo reliable.get resolves, carries, replayClaim, call,
    run_perform, handle, reliable.flush, claimed]
  exact openReporting_run reliable.get rfl unwraps parses refused

/-- What a decryption leaves whose envelope did not open. -/
structure Recorded (state after : Monitored double) : Prop where
  keys : after.world.keys = state.world.keys
  now : after.world.now = state.world.now
  claims : after.world.replay.liveEntries state.world.now =
    state.world.replay.liveEntries state.world.now
  threat : after.threat = state.threat.recordEvent
    (.new .decryptionFailure (double.nearest 3) state.world.now) state.world.now

/-- The event is recorded and nothing else is left behind. -/
theorem recorded_of_unopened (reliable : env.Reliable)
    (upToDate : state.threat.UpToDate state.world.now)
    (unopened : Unopened ks (state.env env) state.world blob aad context) :
    Recorded state ((Call.decrypt blob aad context).runMonitored ks env state).2 := by
  have failed := run_of_unopened (state.env_reliable reliable) unopened
  have did : Decrypted ks state.world blob
      ((ks.decryptReporting blob aad context).run (handle (state.env env)) state.world).2
      (.err (CallError.decrypt "operation failed") : Outcome CallError Bytes) := by
    have ran : (ks.decrypt blob aad context).run (handle (state.env env)) state.world =
        (.err (.decrypt "operation failed"),
          ((ks.decryptReporting blob aad context).run (handle (state.env env)) state.world).2) := by
      rw [decrypt_eq, run_mapErr, run_bind]
      cases played : (ks.decryptReporting blob aad context).run (handle (state.env env))
          state.world with
      | mk outcome after =>
          rw [played] at failed
          cases failed
          rfl
    exact decrypted_of_run ran
  simp only [Call.runMonitored, run_monitored upToDate, failed]
  refine ⟨did.keys, did.now, did.claims, ?_⟩
  simp only [settleReport, Monitored.recordThreatEvent]
  rw [did.now]

end Failure

/-! ### Two tenants -/

/-- A data key in the domain at place 3 and, under a policy, one in the domain at place 1. -/
structure Tenants (keys : Keys) (policyId : PolicyId) (dek : KeyMetadata) (dekVersion : KeyVersion)
    (record : KeyMetadata) (version : KeyVersion) : Prop where
  found : keys.find? (keyNumbered 5) = some dek
  planted : Planted 5 ⟨.dataEncrypting, some 4, .active⟩ dek dekVersion
  resolves : ResolvesTo keys 10 (keyNumbered 5) (keyNumbered 3)
  chain : Recoverable keys false (maxUnwrapDepth + 1) dekVersion
  boundFound : keys.find? (keyNumbered 6) = some record
  bound : Governed 6 2 .dataEncrypting policyId record version
  boundResolves : ResolvesTo keys 10 (keyNumbered 6) (keyNumbered 1)

theorem exists_tenants {ks : Keystore} (growable : Growable ks) (policyId : PolicyId)
    (replay : ReplayStore) :
    ∃ world dek dekVersion record version, Reachable ks anyStep world ∧ world.replay = replay ∧
      Tenants world.keys policyId dek dekVersion record version := by
  let plan := twoTenants ++ [⟨.dataEncrypting, some 4, .active⟩]
  have grows : Grows plan := twoTenants_grows.snoc (.child rfl rfl (.inr rfl)) (by decide)
  have allows : ∀ n call world plan, Call.Grows call → Grows plan → Grove world.keys plan →
      anyStep ⟨0, quietEnv n, call⟩ world := fun _ _ _ _ _ _ _ => trivial
  obtain ⟨before, reached, grove, kept⟩ := exists_grove growable 0 replay allows grows
  obtain ⟨world, record, version, reachable, adds, governed⟩ := grove.govern growable grows
    (by decide) (rfl : plan[2]? = some ⟨.keyEncrypting, some 1, .active⟩) (.inr rfl) policyId reached
    (fun _ _ _ => trivial)
  have resolves := governed.resolves grove adds (by decide) rfl
    (rfl : plan[1]? = some ⟨.domain, some 0, .active⟩) (.inr rfl)
  obtain ⟨domain, domainVersion, domainFound, domainPlanted⟩ :=
    grove.planted 3 ⟨.domain, some 0, .active⟩ rfl
  obtain ⟨kek, kekVersion, kekFound, kekPlanted⟩ :=
    grove.planted 4 ⟨.keyEncrypting, some 3, .active⟩ rfl
  obtain ⟨dek, dekVersion, dekFound, dekPlanted⟩ :=
    grove.planted 5 ⟨.dataEncrypting, some 4, .active⟩ rfl
  have other : ∀ n, n < 6 → keyNumbered n ≠ keyNumbered 6 := by
    intro n within same
    have := (keyNumbered_inj (by omega) (by decide)).mp same
    omega
  rw [← adds.others _ (other 3 (by decide))] at domainFound
  rw [← adds.others _ (other 4 (by decide))] at kekFound
  rw [← adds.others _ (other 5 (by decide))] at dekFound
  refine ⟨world, dek, dekVersion, record, version, reachable, adds.replay.trans kept, dekFound,
    dekPlanted, ?_, ?_, adds.stored, governed, resolves⟩
  · refine .parent dekFound (by simp [dekPlanted.keyType]) (by simp [dekPlanted.keyType])
      dekPlanted.parentId ?_
    refine .parent kekFound (by simp [kekPlanted.keyType]) (by simp [kekPlanted.keyType])
      kekPlanted.parentId ?_
    exact .domain domainFound domainPlanted.keyType
  · refine .sealed dekPlanted.wrappedBy dekPlanted.wrappedAt kekFound (by simp [kekPlanted.state])
      (by simp [kekPlanted.state, KeyState.canDecrypt]) kekPlanted.getVersion ?_
    refine .sealed kekPlanted.wrappedBy kekPlanted.wrappedAt domainFound
      (by simp [domainPlanted.state]) (by simp [domainPlanted.state, KeyState.canDecrypt])
      domainPlanted.getVersion ?_
    exact .master domainPlanted.wrappedBy

/-- A policy that asks for a rotation after two days. -/
def twoDays : KeyPolicy :=
  { dayLong with
    id := ⟨"two-days"⟩
    rotationTriggers := [.age (fromSecs 172800)]
    maxLifetime := none
    enforceCryptoperiod := false }

/-- More than one and a half days, less than two. -/
def laterMoment : Nat := fromSecs 138240

/-- The event of a decryption that fails at that time. -/
def laterFailure : ThreatEvent exactArithmetic :=
  .new .decryptionFailure (exactArithmetic.nearest 3) laterMoment

theorem freshAssessor_upToDate : freshAssessor.UpToDate laterMoment :=
  ThreatAssessor.upToDate_iff.mpr (by decide +kernel)

/-- One failure is not enough. -/
theorem one_failure : (freshAssessor.recordEvent laterFailure laterMoment).UpToDate laterMoment ∧
    (freshAssessor.recordEvent laterFailure laterMoment).storedLevel = .low := by
  constructor
  · exact ThreatAssessor.upToDate_iff.mpr (by decide +kernel)
  · decide +kernel

/-- Two are. -/
theorem two_failures :
    ((freshAssessor.recordEvent laterFailure laterMoment).recordEvent laterFailure
        laterMoment).UpToDate laterMoment ∧
      ((freshAssessor.recordEvent laterFailure laterMoment).recordEvent laterFailure
        laterMoment).storedLevel = .guarded := by
  constructor
  · exact ThreatAssessor.upToDate_iff.mpr (by decide +kernel)
  · decide +kernel

/-- One byte more than a context can have. -/
def longContext : Context := ⟨List.replicate 4097 0⟩

section Tenants

variable {ks : Keystore} {policyId : PolicyId} {dek record : KeyMetadata}
  {dekVersion version : KeyVersion}

/-- The blob that holds an envelope for the data key at place 5. -/
def blobFor (ciphertext : Bytes) : EncryptedBlob := ⟨(keyNumbered 5).text, 1, hexEncode ciphertext, 0⟩

/-- Every envelope is claimed and tried under the longer context, and does not open. -/
theorem Tenants.unopened {world : World}
    (tenants : Tenants world.keys policyId dek dekVersion record version)
    (lawful : ks.crypto.Lawful) (sound : Sound ks world.keys) {env : Env} (reliable : env.Reliable)
    (unclaimed : world.replay.liveEntries world.now = []) {key : PublicKey}
    {coins : SealCoins EncapsulationCoins} {plaintext ciphertext : Bytes} {aad : Aad}
    {context : Context}
    (sealed : Envelope.seal ks.crypto coins key plaintext aad context = .ok ciphertext) :
    Unopened ks env world (blobFor ciphertext) ⟨[]⟩ longContext := by
  obtain ⟨long, nonce, carries⟩ := envelopeNonce_seal lawful sealed
  have longer : WireV2.maxContextLen < longContext.inner.length := by
    rw [show longContext.inner = List.replicate 4097 0 from rfl, List.length_replicate]
    decide
  obtain ⟨secret, holds, pair⟩ := sound _ dek tenants.found (by simp [tenants.planted.state])
    dekVersion (by simp [tenants.planted.versions])
  obtain ⟨secretKey, rfl, -⟩ := pair (by simp [tenants.planted.keyType])
  have decodes : hexDecode (utf8 (blobFor ciphertext).ciphertextHex) = .ok ciphertext := by
    simp [blobFor]
  refine .intro tenants.found ?_ ?_ tenants.planted.getVersion decodes long tenants.resolves carries
    ?_ (tenants.chain.unwraps lawful sound holds) (SecretKey.fromBytes_toBytes lawful secretKey)
    (open_of_long_context (WireV2.seal_magic sealed) longer)
  · rw [tenants.planted.state]
    rfl
  · refine ⟨none, ?_, rfl⟩
    simp [verdictAt, effectivePolicyFor, tenants.planted.policyId]
  · rw [reliable.flush]
    apply ReplayStore.claim_eq_true
    rw [unclaimed]
    rfl

/-- The step that asks for an envelope under the longer context. -/
def failingStep (ciphertext : Bytes) : MonitoredStep exactArithmetic :=
  ⟨laterMoment, quietEnv 7, .call (.decrypt (blobFor ciphertext) ⟨[]⟩ longContext)⟩

theorem Tenants.failure {state : Monitored exactArithmetic}
    (tenants : Tenants state.world.keys policyId dek dekVersion record version)
    (lawful : ks.crypto.Lawful) (sound : Sound ks state.world.keys)
    (upToDate : state.threat.UpToDate laterMoment)
    (unclaimed : state.world.replay.liveEntries laterMoment = []) {key : PublicKey}
    {coins : SealCoins EncapsulationCoins} {plaintext ciphertext : Bytes} {aad : Aad}
    {context : Context}
    (sealed : Envelope.seal ks.crypto coins key plaintext aad context = .ok ciphertext) :
    Recorded (state.at laterMoment) ((failingStep ciphertext).play ks state) := by
  have reliable := (state.at laterMoment).env_reliable (quietEnv_reliable 7)
  have present : Tenants (state.at laterMoment).world.keys policyId dek dekVersion record version :=
    tenants
  exact recorded_of_unopened (quietEnv_reliable 7) upToDate
    (present.unopened lawful sound reliable unclaimed sealed)

/-- After two failures the records are the same and the level is one up. -/
structure FailedTwice (ks : Keystore) (world : World) (failing : Monitored exactArithmetic) :
    Prop where
  runs : TwoRuns ks (keyNumbered 3) (fun _ _ => True) (fun _ _ _ => True) ⟨world, freshAssessor⟩
    ⟨world, freshAssessor⟩ failing
  keys : failing.world.keys = world.keys
  threat : failing.threat =
    (freshAssessor.recordEvent laterFailure laterMoment).recordEvent laterFailure laterMoment

theorem Tenants.failedTwice {world : World}
    (tenants : Tenants world.keys policyId dek dekVersion record version)
    (lawful : ks.crypto.Lawful) (sound : Sound ks world.keys)
    (unclaimed : world.replay.liveEntries laterMoment = []) {key : PublicKey}
    {coins : SealCoins EncapsulationCoins} {plaintext ciphertext : Bytes} {aad : Aad}
    {context : Context}
    (sealed : Envelope.seal ks.crypto coins key plaintext aad context = .ok ciphertext) :
    ∃ failing, FailedTwice ks world failing := by
  let start : Monitored exactArithmetic := ⟨world, freshAssessor⟩
  obtain ⟨once, played⟩ : ∃ once, once = (failingStep ciphertext).play ks start := ⟨_, rfl⟩
  have first : Recorded (start.at laterMoment) once := by
    rw [played]
    exact tenants.failure lawful sound freshAssessor_upToDate unclaimed sealed
  have keys : once.world.keys = world.keys := first.keys
  have threat : once.threat = freshAssessor.recordEvent laterFailure laterMoment := first.threat
  have second : Recorded (once.at laterMoment) ((failingStep ciphertext).play ks once) := by
    refine Tenants.failure (keys ▸ tenants) lawful (keys ▸ sound) ?_ ?_ sealed
    · rw [threat]
      exact one_failure.1
    · exact first.claims.trans unclaimed
  have within : DecryptsIn (keyNumbered 3) start (failingStep ciphertext) := .intro tenants.resolves
  have withinAgain : DecryptsIn (keyNumbered 3) once (failingStep ciphertext) := by
    refine .intro ?_
    rw [keys]
    exact tenants.resolves
  refine ⟨(failingStep ciphertext).play ks once, ?_, second.keys.trans keys, ?_⟩
  · refine .right _ ?_ withinAgain trivial
    rw [played]
    exact .right _ .start within trivial
  · rw [← threat]
    exact second.threat

/-- At the lowest level the key under the policy of two days may encrypt. -/
theorem Governed.encryptable {world : World} {n : Nat} {key : PublicKey}
    (bound : Governed 6 2 .dataEncrypting ⟨"two-days"⟩ record version)
    (stores : StoresPublicKey (keystoreUnder twoDays) version.publicKeyHex key)
    (moment : world.now = laterMoment) :
    Encryptable (keystoreUnder twoDays) (quietEnv n) world record version key where
  active := bound.active
  data := by
    rw [bound.keyType]
    rfl
  unblocked := by
    have effective : (keystoreUnder twoDays).effectivePolicyFor record .low =
        some (adapt twoDays .low) := by
      rw [effectivePolicyFor, bound.policyId]
      rfl
    have triggers : (adapt twoDays .low).rotationTriggers = [.age (fromSecs 172800)] := by
      decide +kernel
    have young : (adapt twoDays .low).Young ((laterMoment : Int) - (0 : Nat)) := by
      constructor
      · intro limit member
        rw [triggers] at member
        cases List.mem_singleton.mp member
        decide
      · intro enforced
        cases enforced
    have logs : (adapt twoDays .low).LogsPercentage := by
      intro enforced
      cases enforced
    have below : (adapt twoDays .low).BelowUsage record.usageCount := by
      intro limit limited
      cases limited
    obtain ⟨verdict, evaluated, passes⟩ :=
      evaluate_of_young bound.active bound.activatedAt young logs below
    refine ⟨some verdict, ?_, passes⟩
    have low : (quietEnv n).level = .low := rfl
    rw [verdictAt, low, effective, moment]
    exact congrArg (Except.map some) evaluated
  current := bound.current
  stores := stores

/-- One level up it is refused. -/
theorem Governed.refused {world : World} {env : Env}
    (bound : Governed 6 2 .dataEncrypting ⟨"two-days"⟩ record version)
    (found : world.keys.find? (keyNumbered 6) = some record)
    (answers : env.getFault (keyNumbered 6) = none) (guarded : env.level = .guarded)
    (moment : world.now = laterMoment) :
    RefusedByPolicy (keystoreUnder twoDays) env world (keyNumbered 6) record
      "policy violation: age 1d exceeds max 1d. Rotate key before encrypting." where
  found := found
  answers := answers
  active := bound.active
  data := by
    rw [bound.keyType]
    rfl
  blocks := by
    refine ⟨.rotationNeeded "age 1d exceeds max 1d", ?_, by decide⟩
    have effective : (keystoreUnder twoDays).effectivePolicyFor record .guarded =
        some (adapt twoDays .guarded) := by
      rw [effectivePolicyFor, bound.policyId]
      rfl
    have triggers : (adapt twoDays .guarded).rotationTriggers = [.age (fromSecs 129600)] := by
      decide +kernel
    have unlimited : usageVerdict (adapt twoDays .guarded) record = none := rfl
    have aged : ageVerdict [.age (fromSecs 129600)] ((laterMoment : Int) - (0 : Nat)) =
        .rotationNeeded "age 1d exceeds max 1d" := by decide +kernel
    simp only [verdictAt, guarded, effective, evaluate, bound.active, ne_eq, not_true_eq_false,
      if_false, unlimited, bound.activatedAt, triggers, moment, aged]
    rfl

/-- An encryption on a monitored keystore whose level is up to date. -/
theorem encrypt_runMonitored {double : DoubleArithmetic} {env : Env} {state : Monitored double}
    (upToDate : state.threat.UpToDate state.world.now) {keyId : KeyId} {plaintext : Bytes}
    {aad : Aad} {context : Context} {outcome : Outcome CallError EncryptedBlob} {after : World}
    (ran : (ks.encrypt keyId plaintext aad context).run (handle (state.env env)) state.world =
      (outcome, after)) :
    ((Call.encrypt keyId plaintext aad context).runMonitored ks env state).1 =
      (andThen (handle (state.env env)) (fun blob => .ret (.blob blob)) (outcome, after)).1 := by
  simp only [Call.runMonitored, run_monitored upToDate, Call.prog, pure_eq_ret, run_bind, ran]

/-- Without failures the key under the policy encrypts. -/
theorem Tenants.accepted {world : World}
    (tenants : Tenants world.keys ⟨"two-days"⟩ dek dekVersion record version) {key : PublicKey}
    (stores : StoresPublicKey (keystoreUnder twoDays) version.publicKeyHex key)
    {plaintext ciphertext : Bytes} {aad : Aad} {context : Context}
    (sealed : Envelope.seal transparent (quietEnv 7).randomness.sealing key plaintext
      (domainBoundAad (keyNumbered 1) aad) context = .ok ciphertext) :
    ∃ blob, ((Call.encrypt (keyNumbered 6) plaintext aad context).runMonitored
      (keystoreUnder twoDays) (quietEnv 7) (Monitored.at ⟨world, freshAssessor⟩ laterMoment)).1 =
        .ok (.blob blob) := by
  let state : Monitored exactArithmetic := Monitored.at ⟨world, freshAssessor⟩ laterMoment
  have low : state.env (quietEnv 7) = quietEnv 7 := rfl
  have found : state.world.keys.find? (keyNumbered 6) = some record := tenants.boundFound
  have resolves : ResolvesTo state.world.keys 10 (keyNumbered 6) (keyNumbered 1) :=
    tenants.boundResolves
  obtain ⟨blob, after, ran⟩ : ∃ blob after, ((keystoreUnder twoDays).encrypt (keyNumbered 6) plaintext
      aad context).run (handle (quietEnv 7)) state.world = (.ok blob, after) :=
    ⟨_, _, (encrypt_resumes (quietEnv_reliable 7) (tenants.bound.encryptable stores rfl) resolves
      sealed).run rfl found⟩
  rw [← low] at ran
  exact ⟨blob, encrypt_runMonitored freshAssessor_upToDate ran⟩

/-- After two failures it is refused. -/
theorem Tenants.refused {world : World}
    (tenants : Tenants world.keys ⟨"two-days"⟩ dek dekVersion record version)
    {failing : Monitored exactArithmetic} (failed : FailedTwice (keystoreUnder twoDays) world failing)
    (plaintext : Bytes) (aad : Aad) (context : Context) :
    ((Call.encrypt (keyNumbered 6) plaintext aad context).runMonitored (keystoreUnder twoDays)
      (quietEnv 7) (failing.at laterMoment)).1 = .err (.encrypt
        "policy violation: age 1d exceeds max 1d. Rotate key before encrypting.") := by
  have found : failing.world.keys.find? (keyNumbered 6) = some record := by
    rw [failed.keys]
    exact tenants.boundFound
  have guarded : ((failing.at laterMoment).env (quietEnv 7)).level = .guarded := by
    change failing.threat.storedLevel = .guarded
    rw [failed.threat]
    exact two_failures.2
  have upToDate : (failing.at laterMoment).threat.UpToDate laterMoment := by
    change failing.threat.UpToDate laterMoment
    rw [failed.threat]
    exact two_failures.1
  have refused : RefusedByPolicy (keystoreUnder twoDays) ((failing.at laterMoment).env (quietEnv 7))
      (failing.at laterMoment).world (keyNumbered 6) record _ :=
    tenants.bound.refused found rfl guarded rfl
  exact encrypt_runMonitored upToDate (refused.encrypt_run plaintext aad context)

end Tenants

/-- Two failed decryptions in one domain, and a key of another is refused that could
encrypt without them. -/
theorem failures_refuse_another_tenant :
    ∃ (world : World) (failing : Monitored exactArithmetic) (blob : EncryptedBlob),
      Reachable (keystoreUnder twoDays) anyStep world ∧
      TwoRuns (keystoreUnder twoDays) (keyNumbered 3) (fun _ _ => True) (fun _ _ _ => True)
        ⟨world, freshAssessor⟩ ⟨world, freshAssessor⟩ failing ∧
      ResolvesTo world.keys 10 (keyNumbered 6) (keyNumbered 1) ∧ keyNumbered 1 ≠ keyNumbered 3 ∧
      ((Call.encrypt (keyNumbered 6) [1] ⟨[]⟩ ⟨[]⟩).runMonitored (keystoreUnder twoDays)
        (quietEnv 7) (Monitored.at ⟨world, freshAssessor⟩ laterMoment)).1 = .ok (.blob blob) ∧
      ((Call.encrypt (keyNumbered 6) [1] ⟨[]⟩ ⟨[]⟩).runMonitored (keystoreUnder twoDays)
        (quietEnv 7) (failing.at laterMoment)).1 = .err (.encrypt
          "policy violation: age 1d exceeds max 1d. Rotate key before encrypting.") := by
  have growable := keystoreUnder_growable twoDays
  obtain ⟨world, dek, dekVersion, record, version, reachable, replay, tenants⟩ :=
    exists_tenants growable ⟨"two-days"⟩ (.memory ⟨1, []⟩)
  have sound := (reachable.sound transparent_lawful).1
  have unclaimed : world.replay.liveEntries laterMoment = [] := by
    simp [replay, ReplayStore.liveEntries, ReplayStore.entries]
  obtain ⟨key, stores⟩ := Grove.storesPublicKey transparent_lawful sound tenants.boundFound
    (by simp [tenants.bound.active]) (by simp [tenants.bound.keyType])
    (by simp [tenants.bound.versions] : version ∈ record.versions)
  obtain ⟨ciphertext, sealed⟩ := growable.sealed 7 1 key
    (by decide : ([1] : Bytes).length ≤ WireV2.maxPlaintextLen)
    (by decide : (⟨[]⟩ : Aad).inner.length ≤ 1024)
    (by decide : (⟨[]⟩ : Context).inner.length ≤ WireV2.maxContextLen)
  obtain ⟨failing, failed⟩ := tenants.failedTwice transparent_lawful sound unclaimed sealed
  obtain ⟨blob, accepted⟩ := tenants.accepted stores sealed
  refine ⟨world, failing, blob, reachable, failed.runs, tenants.boundResolves, ?_, accepted,
    tenants.refused failed [1] ⟨[]⟩ ⟨[]⟩⟩
  intro same
  have numbers := (keyNumbered_inj (by decide) (by decide)).mp same
  omega

/-- A request for a version that the data key at place 5 does not have. -/
def missingVersion : MonitoredStep exactArithmetic :=
  ⟨laterMoment, quietEnv 7, .call (.decrypt ⟨(keyNumbered 5).text, 2, "", 0⟩ ⟨[]⟩ ⟨[]⟩)⟩

/-- An encryption of the other tenant. -/
def otherUse : MonitoredStep exactArithmetic :=
  ⟨laterMoment, quietEnv 7, .call (.encrypt (keyNumbered 6) [2, 3] ⟨[]⟩ ⟨[]⟩)⟩

/-- A decryption that fails before the envelope is tried is not felt by the other tenant, who
encrypts twice. -/
theorem missing_version_not_felt :
    ∃ world, Reachable (keystoreUnder twoDays) anyStep world ∧
      ResolvesTo world.keys 10 (keyNumbered 5) (keyNumbered 3) ∧
      ((Call.encrypt (keyNumbered 6) [1] ⟨[]⟩ ⟨[]⟩).runMonitored (keystoreUnder twoDays)
          (quietEnv 7) (Monitored.at (otherUse.play (keystoreUnder twoDays)
            (missingVersion.play (keystoreUnder twoDays) ⟨world, freshAssessor⟩)) laterMoment)).1 =
        ((Call.encrypt (keyNumbered 6) [1] ⟨[]⟩ ⟨[]⟩).runMonitored (keystoreUnder twoDays)
          (quietEnv 7) (Monitored.at (otherUse.play (keystoreUnder twoDays)
            ⟨world, freshAssessor⟩) laterMoment)).1 := by
  obtain ⟨world, dek, dekVersion, record, version, reachable, -, tenants⟩ :=
    exists_tenants (keystoreUnder_growable twoDays) ⟨"two-days"⟩ (.memory ⟨1, []⟩)
  have absent : dek.getVersion 2 = none := by
    simp [KeyMetadata.getVersion, tenants.planted.versions, tenants.planted.number]
  have quiet : QuietStep (keystoreUnder twoDays) missingVersion ⟨world, freshAssessor⟩ := by
    rintro blob aad context requested
    cases requested
    refine .inr ⟨freshAssessor_upToDate, ?_⟩
    rintro ⟨found, -, -, lookup, -, -, -, -, -, -, -, -⟩
    cases tenants.found.symm.trans found
    rw [absent] at lookup
    cases lookup
  have first : TwoRuns (keystoreUnder twoDays) (keyNumbered 3) (QuietStep (keystoreUnder twoDays))
      (SameAnswers (keystoreUnder twoDays)) ⟨world, freshAssessor⟩
      (missingVersion.play (keystoreUnder twoDays) ⟨world, freshAssessor⟩)
      ⟨world, freshAssessor⟩ := .left _ .start (.intro tenants.resolves) quiet
  have runs := first.both otherUse (by rintro blob aad context ⟨⟩)
  exact ⟨world, reachable, tenants.resolves, encryption_alike_in_two_runs (keystoreUnder twoDays)
    (keyNumbered 3) _ _ _ runs laterMoment (quietEnv 7) (keyNumbered 6) [1] ⟨[]⟩ ⟨[]⟩⟩

end Citadel
