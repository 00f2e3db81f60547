import Citadel.Keystore.RedisClaims

/-!
# Who blocks a decryption

A decryption is refused as a replay when its replay key is claimed. The replay key of a blob
does not depend on all of its bytes, nor on the caller's data and context, so a call that
fails in the end may hold the claim of a genuine blob while it runs. When claims on one key
are asked for in turn, each after the calls that hold it have returned, only calls that did
not fail stand behind a refusal. With Redis this also takes replies that do not mislead a
server about its claim.
-/

namespace Citadel

open Envelope Program Keystore

variable {ι : Type} [DecidableEq ι] {ks : Keystore} {blobs : ι → EncryptedBlob}
  {admits : Env → Prop} {start pool : KeyPool ι} {trace : KeyTrace ι} {world after : World}

/-- A claim on a key is asked for only after every other call that holds it has returned.
The slots say where each caller stands. -/
def ClaimsInTurn {σ : Type} (slots : List (Entry σ ι Op Op.Ret CallError CallValue) → ι → Slot)
    (trace : List (Entry σ ι Op Op.Ret CallError CallValue)) : Prop :=
  EveryStep (fun past entry => ∀ caller key answer,
    entry.event = .performed caller (.claim key) answer → ∀ other, other ≠ caller →
      slots past other = .held key → ∃ outcome, Returned past other outcome) trace

/-- Whenever a call is refused as a replay, its key had been claimed before the calls began
or another call holds it, and no call that holds it ends in an error. -/
def RefusedByNoFailure (start : KeyPool ι) (trace : KeyTrace ι) : Prop :=
  EveryStep (fun past entry => ∀ caller key,
    entry.event = .performed caller (.claim key) (.ok false) →
      (start.shared.replay.entries.contains key = true ∨ ∃ other, slots past other = .held key) ∧
      ∀ other error, slots past other = .held key → ¬ Returned trace other (.err error)) trace

/-- The same at Redis. -/
def RefusedByNoFailureAtRedis (store : RedisReplayStore) (start : ClusterPool ι)
    (trace : ClusterTrace ι) : Prop :=
  EveryStep (fun past entry => ∀ caller key,
    entry.event = .performed caller (.claim key) (.ok false) →
      (start.shared.redis.expiry.Taken entry.before.redis.now (store.redisKey key) ∨
        ∃ other, clusterSlots past other = .held key) ∧
      ∀ other error, clusterSlots past other = .held key →
        ¬ Returned trace other (.err error)) trace

/-- Whatever the replay store holds was there at the beginning or is held by a call. -/
def Accounted (start : ReplayStore) (slots : ι → Slot) (replay : ReplayStore) : Prop :=
  ∀ key, replay.entries.contains key = true →
    start.entries.contains key = true ∨ ∃ caller, slots caller = .held key

omit [DecidableEq ι] in
/-- Evicting claims keeps the rest accounted for. -/
theorem Accounted.contains_live {before : ι → Slot} {store replay : ReplayStore} {now : Nat}
    {key : Bytes} (accounted : Accounted store before replay)
    (live : (replay.liveEntries now).contains key = true) :
    store.entries.contains key = true ∨ ∃ caller, before caller = .held key := by
  obtain ⟨stamp, member⟩ := Claims.contains_iff.mp live
  exact accounted key (Claims.contains_iff.mpr ⟨stamp, (List.mem_filter.mp member).1⟩)

/-- A caller without a claim may end up in any slot without losing a holder. -/
theorem held_update {before : ι → Slot} {actor : ι} {slot : Slot} {key : Bytes}
    (free : before actor = .unclaimed) (holds : ∃ caller, before caller = .held key) :
    ∃ caller, Function.update before actor slot caller = .held key := by
  obtain ⟨caller, held⟩ := holds
  refine ⟨caller, ?_⟩
  rw [Function.update_of_ne, held]
  rintro rfl
  rw [free] at held
  cases held

/-- One operation keeps the store accounted for. -/
theorem Accounted.perform {store : ReplayStore} {before : ι → Slot} {actor : ι} {op : Op}
    {answer : op.Ret} {isKey : Bytes → Prop} (accounted : Accounted store before world.replay)
    (allowed : Slot.Allows isKey (before actor) op)
    (answers : (sharedWorld admits).Answers world op answer after) :
    Accounted store (Function.update before actor ((before actor).see op answer))
      after.replay := by
  obtain ⟨env, -, answered⟩ := answers
  intro key claimed
  cases op with
  | put record => exact allowed.elim
  | claim wanted =>
      obtain ⟨-, spec⟩ := world.replay.claim_spec wanted world.now env.flushed
      obtain ⟨given, rfl⟩ := Prod.mk.inj answered
      rw [given] at spec
      have old : (world.replay.liveEntries world.now).contains key = true →
          store.entries.contains key = true ∨
            ∃ caller, Function.update before actor ((before actor).see (.claim wanted) answer)
              caller = .held key := by
        intro live
        exact (accounted.contains_live live).imp id (held_update allowed.1)
      match answer with
      | .ok true =>
          obtain ⟨stamp, member⟩ := Claims.contains_iff.mp claimed
          change (key, stamp) ∈
            (world.replay.claim wanted world.now env.flushed).2.entries at member
          rw [spec.2] at member
          rcases List.mem_cons.mp member with same | live
          · cases same
            exact .inr ⟨actor, Function.update_self _ _ _⟩
          · exact old (Claims.contains_iff.mpr ⟨stamp, live⟩)
      | .ok false => exact old (by rw [← spec.2]; exact claimed)
      | .error error => exact old (by rw [← spec.2]; exact claimed)
  | release given =>
      obtain ⟨-, removed⟩ := world.replay.release_spec given world.now env.flushed
      obtain ⟨-, rfl⟩ := Prod.mk.inj answered
      obtain ⟨stamp, member⟩ := Claims.contains_iff.mp claimed
      change (key, stamp) ∈ (world.replay.release given world.now env.flushed).2.entries at member
      rw [removed] at member
      obtain ⟨member, different⟩ := Claims.mem_remove.mp member
      refine (accounted key (Claims.contains_iff.mpr ⟨stamp, member⟩)).imp id ?_
      rintro ⟨caller, holds⟩
      refine ⟨caller, ?_⟩
      rw [Function.update_of_ne, holds]
      -- the caller that releases holds the released key and no other
      rintro rfl
      have mine : before caller = .held given := allowed
      rw [mine] at holds
      cases holds
      exact different rfl
  | _ =>
      obtain ⟨-, rfl⟩ := Prod.mk.inj answered
      simpa [Slot.see] using accounted key claimed

/-! ### Whole runs -/

omit [DecidableEq ι] in
theorem Decryptors.settling {keys : Keys} (decryptors : Decryptors ks blobs start) (caller : ι) :
    Pool.ThreadMeets (claiming keys (ReplayKey ks keys (blobs caller))) .unclaimed
      (Settled ks keys (blobs caller)) (start.thread caller) := by
  obtain ⟨aad, context, fuel, begun⟩ := decryptors caller
  rw [begun]
  refine Meets.bind ((decrypt_settles (blobs caller) aad context).mono ?_)
  rintro slot (plaintext | error | why) settled
  · exact ⟨fun _ => settled.1 rfl, nofun⟩
  · exact .refused rfl (settled.2 error rfl)
  · exact .aborted

/-- In every interleaving of decryptions the store is accounted for and every call settles
its claim. -/
theorem Decryptors.accounted (decryptors : Decryptors ks blobs start)
    (runs : Pool.Runs (sharedWorld admits) start trace pool) :
    Accounted start.shared.replay (slots trace) pool.shared.replay ∧
      ∀ caller, Pool.ThreadMeets
        (claiming start.shared.keys (ReplayKey ks start.shared.keys (blobs caller)))
        (slots trace caller) (Settled ks start.shared.keys (blobs caller))
        (pool.thread caller) := by
  refine And.imp_left And.right (Pool.Runs.rely (fun past (world : World) =>
    world.keys = start.shared.keys ∧ Accounted start.shared.replay (slots past) world.replay)
    ?_ decryptors.settling ?_ ?_ ?_ ?_ runs)
  · rintro past world caller slot op answer after ⟨same, -⟩ answers
    have reads := readsFrom_of_answers answers
    rwa [same] at reads
  · exact ⟨rfl, fun key claimed => .inl claimed⟩
  · rintro past world caller op answer after ⟨same, accounted⟩ allowed answers
    refine ⟨(keys_of_claiming allowed answers).trans same, ?_⟩
    rw [slots_performed]
    exact accounted.perform allowed answers
  · rintro past world caller outcome ⟨same, accounted⟩ -
    rw [slots_returned]
    exact ⟨same, accounted⟩
  · rintro past world after ⟨same, accounted⟩ ⟨later, -, rfl⟩
    rw [slots_drifted]
    exact ⟨same, accounted⟩

/-- What stands behind a refusal: a claim from the beginning or another call, and no call
that has returned an error. -/
theorem Decryptors.refusal (decryptors : Decryptors ks blobs start)
    (runs : Pool.Runs (sharedWorld admits) start trace pool) :
    EveryStep (fun past entry => ∀ caller key,
      entry.event = .performed caller (.claim key) (.ok false) →
        slots past caller = .unclaimed ∧
        (start.shared.replay.entries.contains key = true ∨ ∃ other, slots past other = .held key) ∧
        ∀ other error, slots past other = .held key → ¬ Returned past other (.err error))
      trace := by
  refine Pool.Runs.everyStep ?_ runs
  rintro past pool event next runs - step caller key rfl
  obtain ⟨accounted, meets⟩ := decryptors.accounted runs
  cases step with
  | perform waiting answers =>
      have allowed := meets caller
      rw [waiting] at allowed
      obtain ⟨env, -, answered⟩ := answers
      obtain ⟨-, spec⟩ := World.replay pool.shared |>.claim_spec key pool.shared.now env.flushed
      obtain ⟨given, rfl⟩ := Prod.mk.inj answered
      rw [given] at spec
      refine ⟨allowed.1.1, accounted.contains_live spec.1, ?_⟩
      intro other error holds returned
      have settled := meets other
      rw [runs.finished_of_returned returned] at settled
      exact settled.2 error rfl key holds

omit [DecidableEq ι] in
/-- When claims on one key are asked for in turn, a call that holds the key of a refused one
has returned before, and so will not fail. -/
theorem ClaimsInTurn.unfailed {shared : SharedWorld Op Op.Ret} [DecidableEq ι]
    {start pool : Pool ι shared.State Op Op.Ret CallError CallValue}
    {trace : List (Entry shared.State ι Op Op.Ret CallError CallValue)}
    {slots : List (Entry shared.State ι Op Op.Ret CallError CallValue) → ι → Slot}
    (inTurn : ClaimsInTurn slots trace) (runs : Pool.Runs shared start trace pool)
    {past rest : List (Entry shared.State ι Op Op.Ret CallError CallValue)}
    {entry : Entry shared.State ι Op Op.Ret CallError CallValue} {caller : ι} {key : Bytes}
    (split : trace = past ++ entry :: rest)
    (refused : entry.event = .performed caller (.claim key) (.ok false))
    (unclaimed : slots past caller = .unclaimed)
    (unfailed : ∀ other error, slots past other = .held key → ¬ Returned past other (.err error))
    (other : ι) (error : CallError) (holds : slots past other = .held key) :
    ¬ Returned trace other (.err error) := by
  intro failed
  have different : other ≠ caller := by
    rintro rfl
    rw [unclaimed] at holds
    cases holds
  obtain ⟨outcome, returned⟩ := inTurn past entry rest split caller key _ refused other different
    holds
  have again : Returned trace other outcome := by
    rw [split]
    exact returned.append _
  have same := (runs.finished_of_returned again).symm.trans (runs.finished_of_returned failed)
  obtain rfl := Thread.finished.inj same
  exact unfailed other error holds returned

/-- When claims on one key are asked for in turn, no call is refused because of a call that
fails: with a store of its own, whatever the backend answers, and with Redis, as long as no
reply is misleading. -/
theorem refused_by_no_failure (ks : Keystore) (blobs : ι → EncryptedBlob) :
    (∀ (admits : Env → Prop) (start pool : KeyPool ι) (trace : KeyTrace ι),
      Decryptors ks blobs start → Pool.Runs (sharedWorld admits) start trace pool →
        ClaimsInTurn slots trace → RefusedByNoFailure start trace) ∧
    ∀ (store : RedisReplayStore) (start pool : ClusterPool ι) (trace : ClusterTrace ι),
      ClusterDecryptors ks blobs start → Pool.Runs (heardWorld store) start trace pool →
        ClaimsInTurn clusterSlots trace → RefusedByNoFailureAtRedis store start trace := by
  constructor
  · intro admits start pool trace decryptors runs inTurn past entry rest split caller key refused
    obtain ⟨unclaimed, cause, unfailed⟩ :=
      decryptors.refusal runs past entry rest split caller key refused
    exact ⟨cause, inTurn.unfailed runs split refused unclaimed unfailed⟩
  · intro store start pool trace decryptors runs inTurn past entry rest split caller key refused
    obtain ⟨unclaimed, cause, unfailed⟩ :=
      decryptors.refusal runs past entry rest split caller key refused
    exact ⟨cause, inTurn.unfailed runs split refused unclaimed unfailed⟩

/-! ### A wrong context in the way -/

/-- A key that is held is not claimed again. -/
theorem ReplayStore.claim_eq_false {store : ReplayStore} {key : Bytes} {now : Nat}
    {flushed : Except ReplayError Unit} (present : (store.liveEntries now).contains key = true) :
    (store.claim key now flushed).1 = .ok false := by
  have spec := (store.claim_spec key now flushed).2
  generalize (store.claim key now flushed).1 = answer at spec
  match answer with
  | .ok true => simp [ReplayStore.ClaimSpec, present] at spec
  | .ok false => rfl
  | .error error => simp [ReplayStore.ClaimSpec, present] at spec

/-- A claim of this instant is live, unless claims live no time at all. -/
theorem ReplayStore.contains_claimed {store after : ReplayStore} {key : Bytes} {now : Nat}
    (clock : after.SameClock store) (claimed : (key, store.stamp now) ∈ after.entries)
    (lasts : 0 < store.ttl) : (after.liveEntries now).contains key = true := by
  apply Claims.contains_iff.mpr
  refine ⟨store.stamp now, List.mem_filter.mpr ⟨claimed, ?_⟩⟩
  rw [clock.live]
  exact ReplayStore.live_stamp_of_lt le_rfl (by omega)

/-- What a decryption has found when it asks for its claim. -/
structure Presents (ks : Keystore) (env : Env) (world : World) (blob : EncryptedBlob)
    (record : KeyMetadata) (version : KeyVersion) (ciphertext : Bytes) (domainId : KeyId)
    (nonce : SizedBytes 12) : Prop where
  found : world.keys.find? ⟨blob.keyId⟩ = some record
  usable : record.state.canDecrypt = true
  fresh : NotExpired ks env.level world.now record
  lookup : record.getVersion blob.keyVersion = some version
  decodes : hexDecode (utf8 blob.ciphertextHex) = .ok ciphertext
  long : aeadTagBytes ≤ ciphertext.length
  resolves : ResolvesTo world.keys 10 ⟨blob.keyId⟩ domainId
  carries : envelopeNonce ciphertext = .ok nonce

/-- What `decrypt` does with the answer to its claim. -/
def Keystore.afterClaim (ks : Keystore) (keyId : KeyId) (version : KeyVersion) (domainId : KeyId)
    (ciphertext cacheKey : Bytes) (aad : Aad) (context : Context) :
    Except ReplayError Bool → Prog String Bytes
  | .ok true => ks.openClaimed keyId version domainId ciphertext cacheKey aad context
  | .ok false => .fail "operation failed"
  | .error _ => .fail "operation failed"

/-- What can be decrypted is presented, with a secret key that can be recovered. -/
theorem Keystore.Decrypts.presents {env : Env} {blob : EncryptedBlob} {aad : Aad}
    {context : Context} {plaintext : Bytes}
    (decrypts : Decrypts ks env world blob aad context plaintext) :
    ∃ record version ciphertext domainId nonce skBytes key,
      Presents ks env world blob record version ciphertext domainId nonce ∧
      Unwraps ks world.keys false (maxUnwrapDepth + 1) ⟨blob.keyId⟩ version skBytes ∧
      SecretKey.fromBytes ks.crypto skBytes = .ok key := by
  obtain ⟨found, usable, fresh, lookup, decodes, long, resolves, carries, unwraps, parses, -⟩ :=
    decrypts
  exact ⟨_, _, _, _, _, _, _, ⟨found, usable, fresh, lookup, decodes, long, resolves, carries⟩,
    unwraps, parses⟩

section Presents

variable {env : Env} {blob : EncryptedBlob} {record : KeyMetadata} {version : KeyVersion}
  {ciphertext : Bytes} {domainId : KeyId} {nonce : SizedBytes 12}

/-- The replay key of what is presented. -/
def presentedKey (ks : Keystore) (blob : EncryptedBlob) (ciphertext : Bytes) (domainId : KeyId)
    (nonce : SizedBytes 12) : Bytes :=
  deriveReplayKey ks.crypto domainId.text blob.keyId blob.keyVersion nonce (aeadTag ciphertext)

/-- A decryption that finds its key and can read its blob's framing gets to its claim. -/
theorem Presents.reaches
    (presents : Presents ks env world blob record version ciphertext domainId nonce)
    (reliable : env.Reliable) (aad : Aad) (context : Context) (fuel : Nat) :
    Program.Reaches (handle env) ((Call.decrypt blob aad context).prog ks fuel) world
      (.perform (.claim (presentedKey ks blob ciphertext domainId nonce)) fun answer =>
        (ks.afterClaim ⟨blob.keyId⟩ version domainId ciphertext
          (presentedKey ks blob ciphertext domainId nonce) aad context answer).mapErr
            CallError.decrypt >>= fun plaintext => .ret (.plaintext plaintext)) world := by
  obtain ⟨found, usable, ⟨verdict, evaluated, unexpired⟩, lookup, decodes, long, resolves,
    carries⟩ := presents
  have inner : Program.Reaches (handle env) (ks.decrypt blob aad context) world
      ((Program.perform (Op.claim (presentedKey ks blob ciphertext domainId nonce))
        (ks.afterClaim ⟨blob.keyId⟩ version domainId ciphertext
          (presentedKey ks blob ciphertext domainId nonce) aad context)).mapErr CallError.decrypt)
      world := by
    refine Program.Reaches.mapErr ?_ _
    have got : ((get ⟨blob.keyId⟩).mapErr fun _ => "operation failed" :
        Prog String KeyMetadata).run (handle env) world = (.ok record, world) := by
      rw [run_mapErr, get_run (reliable.get _) found]
      rfl
    have judged : (ks.evaluateEffective record : Prog String (Option PolicyVerdict)).run
        (handle env) world = (.ok verdict, world) := by
      rw [evaluateEffective_run, evaluated]
    have resolved : ((resolveDomainForKey ⟨blob.keyId⟩).mapErr fun _ => "operation failed" :
        Prog String KeyId).run (handle env) world = (.ok domainId, world) := by
      rw [run_mapErr, resolveDomainForKey, run_of_resolvesTo reliable.get resolves]
      rfl
    refine (Program.Reaches.past got).trans ?_
    rw [usable]
    refine (Program.Reaches.past judged).trans ?_
    simp only [unexpired, Bool.false_eq_true, if_false, lookup, Program.ofOption, ret_bind, decodes,
      Program.ofExcept, Nat.not_lt.mpr long]
    refine (Program.Reaches.past resolved).trans ?_
    rw [carries]
    exact .refl
  exact inner.bind fun plaintext => .ret (CallValue.plaintext plaintext)

end Presents

omit [DecidableEq ι] in
/-- The condition on a step that others follow. -/
theorem EveryStep.in_middle {condition : KeyTrace ι → Entry World ι Op Op.Ret CallError CallValue →
      Prop} {past first second third : KeyTrace ι}
    {entry : Entry World ι Op Op.Ret CallError CallValue}
    (every : EveryStep condition (past ++ [entry] ++ first ++ second ++ third)) :
    condition past entry := by
  apply every past entry (first ++ second ++ third)
  simp

omit [DecidableEq ι] in
theorem returned_last {before : World} {caller : ι} {outcome : Outcome CallError CallValue} :
    Returned (trace ++ [⟨before, .returned caller outcome⟩]) caller outcome :=
  ⟨before, by simp⟩

/-- A context longer than any that `seal` accepts does not open an envelope. -/
theorem open_of_long_context {crypto : Crypto} {key : SecretKey crypto} {ciphertext : Bytes}
    {aad : Aad} {context : Context} (current : WireV2.magic <+: ciphertext)
    (long : WireV2.maxContextLen < context.inner.length) :
    Envelope.open crypto key ciphertext aad context = .error ⟨⟩ := by
  have isCurrent : WireV2.magic.isPrefixOf ciphertext = true :=
    List.isPrefixOf_iff_prefix.mpr current
  simp only [Envelope.open, Envelope.decrypt, isCurrent, if_true, WireV2.open, long, or_true]

/-- The ciphertext of an encryption is an envelope of the current version. -/
theorem Keystore.Encrypts.magic {env : Env} {id : KeyId} {plaintext ciphertext : Bytes} {aad : Aad}
    {context : Context} {blob : EncryptedBlob}
    (encrypted : Encrypts ks env world id plaintext aad context blob after)
    (decodes : hexDecode (utf8 blob.ciphertextHex) = .ok ciphertext) :
    WireV2.magic <+: ciphertext := by
  cases encrypted with
  | intro _ _ _ _ _ _ _ _ sealed =>
      rw [utf8_hexEncode, hexDecode_hexBytes] at decodes
      cases decodes
      exact WireV2.seal_magic sealed

/-- Opening fails after the claim: the claim is given back and the call fails. -/
theorem openClaimed_run_error {env : Env} (answers : ∀ id, env.getFault id = none)
    {id domainId : KeyId} {version : KeyVersion} {ciphertext cacheKey skBytes : Bytes}
    {key : SecretKey ks.crypto} {aad : Aad} {context : Context} {keys : Keys}
    {problem : DecryptionError} (stored : world.keys = keys)
    (unwraps : Unwraps ks keys false (maxUnwrapDepth + 1) id version skBytes)
    (parses : SecretKey.fromBytes ks.crypto skBytes = .ok key)
    (fails : Envelope.open ks.crypto key ciphertext (domainBoundAad domainId aad) context =
      .error problem) :
    ((ks.openClaimed id version domainId ciphertext cacheKey aad context).run (handle env)
      world).1 = .err "operation failed" := by
  subst stored
  rw [openClaimed, run_bind, run_attempt, unwrapKeyVersion, run_of_unwraps answers unwraps]
  simp only [Outcome.attempt, andThen_ok, parses, fails]
  rfl

/-- A call whose envelope does not open fails once it has its claim. -/
theorem afterClaim_run_error {env : Env} (answers : ∀ id, env.getFault id = none)
    {id domainId : KeyId} {version : KeyVersion} {ciphertext cacheKey skBytes : Bytes}
    {key : SecretKey ks.crypto} {aad : Aad} {context : Context} {keys : Keys}
    {problem : DecryptionError} (stored : world.keys = keys)
    (unwraps : Unwraps ks keys false (maxUnwrapDepth + 1) id version skBytes)
    (parses : SecretKey.fromBytes ks.crypto skBytes = .ok key)
    (fails : Envelope.open ks.crypto key ciphertext (domainBoundAad domainId aad) context =
      .error problem) :
    (((ks.afterClaim id version domainId ciphertext cacheKey aad context (.ok true)).mapErr
      CallError.decrypt >>= fun plaintext => .ret (CallValue.plaintext plaintext)).run (handle env)
        world).1 = .err (.decrypt "operation failed") := by
  rw [run_bind, run_mapErr, afterClaim,
    openClaimed_run_error answers stored unwraps parses fails]
  rfl

/-- A genuine blob that nobody has decrypted is refused as a replay: a call with the wrong
context holds its claim, and fails a moment later. -/
theorem wrong_context_blocks :
    ∃ (world : World) (blob : EncryptedBlob) (wrong : Context) (trace : KeyTrace Bool)
        (pool : KeyPool Bool) (first second : CallError),
      Reachable plainKeystore anyStep world ∧ world.replay.entries = [] ∧
      (∃ origin, Encrypts plainKeystore (quietEnv 4) origin ⟨blob.keyId⟩ [1] ⟨[]⟩ ⟨[]⟩ blob world) ∧
      Pool.Runs (sharedWorld Env.Reliable) (waitingPool plainKeystore world fun genuine =>
        .decrypt blob ⟨[]⟩ (if genuine then ⟨[]⟩ else wrong)) trace pool ∧
      Returned trace true (.err first) ∧ Returned trace false (.err second) ∧
      ¬ RefusedByNoFailure (waitingPool plainKeystore world fun genuine =>
        .decrypt blob ⟨[]⟩ (if genuine then ⟨[]⟩ else wrong)) trace := by
  obtain ⟨world, blob, -, reachable, zero, kept, -, -, -, -, ⟨origin, encrypted⟩, reads⟩ :=
    exists_readable (.memory ⟨10, []⟩)
  obtain ⟨record, version, ciphertext, domainId, nonce, skBytes, secretKey, presents, unwraps,
    parses⟩ := (reads world rfl).presents
  let wrong : Context := ⟨List.replicate 5000 0⟩
  let start : KeyPool Bool := waitingPool plainKeystore world fun genuine =>
    .decrypt blob ⟨[]⟩ (if genuine then ⟨[]⟩ else wrong)
  let key := presentedKey plainKeystore blob ciphertext domainId nonce
  have reliable := quietEnv_reliable 4
  have answers : ∀ op state, (sharedWorld Env.Reliable).Answers state op
      (handle (quietEnv 4) op state).1 (handle (quietEnv 4) op state).2 :=
    fun op state => ⟨quietEnv 4, reliable, rfl⟩
  -- the call with the wrong context claims the key and stops there
  have begins : Pool.Runs (sharedWorld Env.Reliable) start [] start := .refl
  have waits : start.thread false =
      .running ((Call.decrypt blob ⟨[]⟩ wrong).prog plainKeystore 0) := rfl
  obtain ⟨opening, stopped, -⟩ :=
    begins.reach answers false waits (presents.reaches reliable ⟨[]⟩ wrong 0)
  have free : (world.replay.claim key world.now (quietEnv 4).flushed).1 = .ok true := by
    apply ReplayStore.claim_eq_true
    rw [kept]
    rfl
  have claims : (sharedWorld Env.Reliable).Answers world (.claim key) (.ok true)
      (handle (quietEnv 4) (.claim key) world).2 := ⟨quietEnv 4, reliable, Prod.ext free rfl⟩
  have claimed := stopped.step (.perform (Function.update_self _ _ _) claims)
  -- the genuine call runs into the claim
  let held := (handle (quietEnv 4) (.claim key) world).2
  obtain ⟨clock, spec⟩ := world.replay.claim_spec key world.now (quietEnv 4).flushed
  rw [free] at spec
  have present : (held.replay.liveEntries held.now).contains key = true := by
    refine ReplayStore.contains_claimed clock ?_ (by rw [kept]; decide)
    exact spec.2 ▸ List.mem_cons_self
  have later : Presents plainKeystore (quietEnv 4) held blob record version ciphertext domainId
      nonce := { presents with }
  obtain ⟨blocked, arrived, mine⟩ := claimed.reach answers true rfl
    (later.reaches reliable ⟨[]⟩ ⟨[]⟩ 0)
  have taken : (held.replay.claim key held.now (quietEnv 4).flushed).1 = .ok false :=
    ReplayStore.claim_eq_false present
  have refuses : (sharedWorld Env.Reliable).Answers held (.claim key) (.ok false)
      (handle (quietEnv 4) (.claim key) held).2 := ⟨quietEnv 4, reliable, Prod.ext taken rfl⟩
  have refused := arrived.step (.perform (Function.update_self _ _ _) refuses)
  have turned := refused.step (.return (Function.update_self _ _ _) rfl)
  -- the other call goes on and fails
  obtain ⟨ending, ended, -⟩ := turned.reach answers false rfl .ended
  have tooLong : WireV2.maxContextLen < wrong.inner.length := by
    change _ < (List.replicate 5000 (0 : UInt8)).length
    rw [List.length_replicate]
    decide
  have fails : Envelope.open plainKeystore.crypto secretKey ciphertext
      (domainBoundAad domainId ⟨[]⟩) wrong = .error ⟨⟩ :=
    open_of_long_context (encrypted.magic presents.decodes) tooLong
  have stays : (handle (quietEnv 4) (.claim key) held).2.keys = world.keys := rfl
  change Pool.Runs _ _ _ ⟨_, Function.update _ false (.running (.ended (((plainKeystore.afterClaim
    ⟨blob.keyId⟩ version domainId ciphertext key ⟨[]⟩ wrong (.ok true)).mapErr CallError.decrypt >>=
      fun plaintext => .ret (CallValue.plaintext plaintext)).run (handle (quietEnv 4))
        (handle (quietEnv 4) (.claim key) held).2).1))⟩ at ended
  rw [afterClaim_run_error reliable.get stays unwraps parses fails] at ended
  have failed := ended.step (.return (Function.update_self _ _ _) rfl)
  refine ⟨world, blob, wrong, _, _, .decrypt "operation failed", .decrypt "operation failed",
    reachable, by rw [kept]; rfl, ⟨origin, encrypted⟩, failed,
    (returned_last.append ending).append _, returned_last, ?_⟩
  intro safe
  have holds : slots ([] ++ opening ++ [⟨world, .performed false (.claim key) (.ok true)⟩] ++
      blocked) false = .held key := by
    refine (Contract.ghostOf_of_others ?_).trans ?_
    · intro entry member
      rw [mine entry member]
      decide
    · exact Contract.ghostOf_performed_self
  exact (safe.in_middle true key rfl).2 false (.decrypt "operation failed") holds
    returned_last

/-! ### A replay after a success -/

section Turns

variable {σ : Type} {slots : List (Entry σ ι Op Op.Ret CallError CallValue) → ι → Slot}
  {trace more : List (Entry σ ι Op Op.Ret CallError CallValue)}

omit [DecidableEq ι] in
/-- Nothing has happened out of turn at the beginning. -/
theorem ClaimsInTurn.nil : ClaimsInTurn slots [] := by
  intro past entry rest split
  simp at split

variable (unmoved : ∀ {past more caller}, (∀ entry ∈ more, entry.event.caller? ≠ some caller) →
  slots (past ++ more) caller = slots past caller)

include unmoved

omit [DecidableEq ι] in
/-- One caller goes on alone when the others hold nothing or have returned. -/
theorem ClaimsInTurn.append (inTurn : ClaimsInTurn slots trace) (actor : ι)
    (others : ∀ other key, other ≠ actor → slots trace other = .held key →
      ∃ outcome, Returned trace other outcome)
    (alone : ∀ entry ∈ more, entry.event.caller? = some actor) :
    ClaimsInTurn slots (trace ++ more) := by
  induction more using List.reverseRecOn with
  | nil => rwa [List.append_nil]
  | append_singleton front last ih =>
      have mine : ∀ entry ∈ front, entry.event.caller? = some actor := fun entry member =>
        alone entry (List.mem_append_left _ member)
      have acts := alone last (by simp)
      rw [← List.append_assoc, ClaimsInTurn, everyStep_snoc]
      refine ⟨ih mine, ?_⟩
      intro caller key answer performed other different holds
      rw [performed] at acts
      obtain rfl : caller = actor := Option.some.inj acts
      rw [unmoved fun entry member => by
        rw [mine entry member]
        exact fun same => different (Option.some.inj same).symm] at holds
      obtain ⟨outcome, returned⟩ := others other key different holds
      exact ⟨outcome, returned.append front⟩

/-- Two callers claim in turn when one begins after the other has returned. -/
theorem ClaimsInTurn.of_two (left right : ι) {outcome : Outcome CallError CallValue}
    (unclaimed : ∀ caller, slots [] caller = .unclaimed)
    (first : ∀ entry ∈ trace, entry.event.caller? = some left)
    (returned : Returned trace left outcome)
    (second : ∀ entry ∈ more, entry.event.caller? = some right) :
    ClaimsInTurn slots (trace ++ more) := by
  have alone : ClaimsInTurn slots ([] ++ trace) := by
    refine ClaimsInTurn.nil.append unmoved left ?_ first
    intro other key _ holds
    rw [unclaimed] at holds
    cases holds
  rw [← List.nil_append trace]
  refine ClaimsInTurn.append unmoved alone right ?_ second
  intro other key _ holds
  by_cases own : other = left
  · exact own ▸ ⟨outcome, returned⟩
  · have still : slots ([] ++ trace) other = slots [] other := by
      apply unmoved
      intro entry member same
      rw [first entry member] at same
      exact own (Option.some.inj same).symm
    rw [still, unclaimed] at holds
    cases holds

end Turns

section Served

variable {cluster : Cluster} {blob : EncryptedBlob} {aad : Aad} {context : Context}
  {store : RedisReplayStore} {isKey : Bytes → Prop} {keys : Keys} {op : Op}

/-- What Redis answers about a key is read from the table. -/
theorem serve_readsFrom (op : Op) (cluster : Cluster) :
    op.ReadsFrom cluster.keys (cluster.serve store op).1 :=
  reads_of_answers (answers_serve op cluster)

theorem heard_serve (op : Op) (cluster : Cluster) :
    cluster.Heard store op (cluster.serve store op).1 (cluster.serve store op).2 := by
  cases op with
  | claim key =>
      by_cases taken : cluster.redis.expiry.Taken cluster.redis.now (store.redisKey key)
      · rw [serve_taken taken]
        trivial
      · rw [serve_free taken]
        trivial
  | _ => trivial

/-- What a served call holds is taken at Redis. -/
def TakenAtRedis (store : RedisReplayStore) (keys : Keys) (slot : Slot) (cluster : Cluster) :
    Prop :=
  cluster.keys = keys ∧ ∀ key, slot = .held key →
    cluster.redis.expiry.Taken cluster.redis.now (store.redisKey key)

theorem TakenAtRedis.step {slot : Slot} (taken : TakenAtRedis store keys slot cluster)
    (allows : slot.Allows isKey op) :
    TakenAtRedis store keys (slot.see op (cluster.serve store op).1)
      (cluster.serve store op).2 := by
  cases op with
  | put record => exact allows.elim
  | claim key =>
      by_cases occupied : cluster.redis.expiry.Taken cluster.redis.now (store.redisKey key)
      · rw [serve_taken occupied]
        exact ⟨taken.1, nofun⟩
      · rw [serve_free occupied]
        refine ⟨taken.1, ?_⟩
        rintro _ ⟨rfl⟩
        have ends : cluster.redis.expiry.take (store.redisKey key)
            (cluster.redis.now + claimTtl) (store.redisKey key) = cluster.redis.now + claimTtl :=
          Function.update_self _ _ _
        exact (Nat.lt_add_of_pos_right (by decide)).trans_eq ends.symm
  | release key => exact ⟨taken.1, nofun⟩
  | _ => exact taken

/-- A blob that was decrypted is claimed at Redis. -/
theorem served_claims (served : ((ks.decrypt blob aad context).run (Cluster.serve store)
      cluster).1.isOk = true) :
    ∃ key, ReplayKey ks cluster.keys blob key ∧
      ((ks.decrypt blob aad context).run (Cluster.serve store) cluster).2.redis.expiry.Taken
        ((ks.decrypt blob aad context).run (Cluster.serve store) cluster).2.redis.now
        (store.redisKey key) := by
  have step : ∀ (slot : Slot) (now : Cluster) (op : Op), True →
      TakenAtRedis store cluster.keys slot now →
      slot.Allows (ReplayKey ks cluster.keys blob) op →
        op.ReadsFrom cluster.keys (now.serve store op).1 ∧
        TakenAtRedis store cluster.keys (slot.see op (now.serve store op).1)
          (now.serve store op).2 := by
    intro slot now op _ taken allows
    exact ⟨taken.1 ▸ serve_readsFrom op now, taken.step allows⟩
  obtain ⟨slot, taken, claimed⟩ := Meets.run step (decrypt_claiming blob aad context)
    ⟨rfl, nofun⟩ (fun _ _ => trivial)
  obtain ⟨key, rfl, isKey⟩ := claimed served
  exact ⟨key, isKey, taken.2 key rfl⟩

/-- A blob whose claim is taken at Redis is not decrypted. -/
theorem served_refused {key : Bytes} (isKey : ReplayKey ks cluster.keys blob key)
    (taken : cluster.redis.expiry.Taken cluster.redis.now (store.redisKey key)) :
    ((ks.decrypt blob aad context).run (Cluster.serve store) cluster).1.isOk = false := by
  have step : ∀ (slot : Slot) (now : Cluster) (op : Op), True →
      (now = cluster ∧ ∀ other, slot ≠ .held other) →
      slot.Allows (ReplayKey ks cluster.keys blob) op →
        op.ReadsFrom cluster.keys (now.serve store op).1 ∧
        ((now.serve store op).2 = cluster ∧
          ∀ other, slot.see op (now.serve store op).1 ≠ .held other) := by
    rintro slot _ op - ⟨rfl, free⟩ allows
    refine ⟨serve_readsFrom op _, ?_⟩
    cases op with
    | put record => exact allows.elim
    | claim wanted =>
        obtain rfl := ReplayKey.unique rfl rfl rfl allows.2 isKey
        rw [serve_taken taken]
        exact ⟨rfl, fun _ => Slot.noConfusion⟩
    | release given => exact absurd allows (free given)
    | _ => exact ⟨rfl, free⟩
  obtain ⟨slot, ⟨-, free⟩, claimed⟩ := Meets.run step (decrypt_claiming blob aad context)
    ⟨rfl, fun _ => Slot.noConfusion⟩ (fun _ _ => trivial)
  by_contra answered
  obtain ⟨key, holds, -⟩ := claimed (Bool.eq_true_of_not_eq_false answered)
  exact free key holds

end Served

/-- A served call ends as its decryption does. -/
theorem served_call {cluster : Cluster} {blob : EncryptedBlob} {aad : Aad} {context : Context}
    {store : RedisReplayStore} :
    (((Call.decrypt blob aad context).prog ks 0).run (Cluster.serve store) cluster).2 =
        ((ks.decrypt blob aad context).run (Cluster.serve store) cluster).2 ∧
      (((Call.decrypt blob aad context).prog ks 0).run (Cluster.serve store) cluster).1.isOk =
        ((ks.decrypt blob aad context).run (Cluster.serve store) cluster).1.isOk := by
  rw [Call.prog, run_bind]
  rcases (ks.decrypt blob aad context).run (Cluster.serve store) cluster with
    ⟨plaintext | error | why, after⟩
  · exact ⟨rfl, rfl⟩
  · exact ⟨rfl, rfl⟩
  · exact ⟨rfl, rfl⟩

/-- Two servers take turns with one blob, and Redis answers all that it is asked: the first
decrypts it and the second does not. -/
theorem exists_turns_at_redis (store : RedisReplayStore) :
    ∃ (blob : EncryptedBlob) (cluster : Cluster) (trace : ClusterTrace Bool)
        (pool : ClusterPool Bool) (outcome : Outcome CallError CallValue),
      Pool.Runs (heardWorld store) (waitingCluster blob cluster) trace pool ∧
      ClaimsInTurn clusterSlots trace ∧ Returned trace false (.ok (.plaintext [1])) ∧
      Returned trace true outcome ∧ outcome.isOk = false := by
  obtain ⟨world, blob, -, -, -, -, -, -, -, -, -, reads⟩ := exists_readable (.memory ⟨10, []⟩)
  let cluster : Cluster := ⟨world.keys, 0, fun _ => 0⟩
  have answers : ∀ op state, (heardWorld store).Answers state op (state.serve store op).1
      (state.serve store op).2 := fun op state => ⟨answers_serve op state, heard_serve op state⟩
  have begins : Pool.Runs (heardWorld store) (waitingCluster blob cluster : ClusterPool Bool) []
    _ := .refl
  have waits : ∀ caller : Bool, (waitingCluster blob cluster).thread caller =
      .running ((Call.decrypt blob ⟨[]⟩ ⟨[]⟩).prog plainKeystore 0) := fun _ => rfl
  have decrypts : ((plainKeystore.decrypt blob ⟨[]⟩ ⟨[]⟩).run (Cluster.serve store) cluster).1 =
      .ok [1] := serve_decrypts (fun _ => Nat.le_refl 0) (reads _ rfl)
  have whole : (((Call.decrypt blob ⟨[]⟩ ⟨[]⟩).prog plainKeystore 0).run (Cluster.serve store)
      cluster).1 = .ok (.plaintext [1]) := run_bind_ret_eq_ok _ decrypts
  have begun : cluster.At world.keys 0 := ⟨rfl, rfl, fun _ => Nat.zero_le _⟩
  have keys : (((Call.decrypt blob ⟨[]⟩ ⟨[]⟩).prog plainKeystore 0).run (Cluster.serve store)
      cluster).2.keys = world.keys :=
    ((Program.uses_any _).invariant (Cluster.At world.keys 0) (fun op state _ => serve_at op state)
      begun).1
  obtain ⟨key, isKey, taken⟩ := served_claims (by rw [decrypts]; rfl)
  rw [← served_call.1] at taken
  -- the second server finds the claim of the first
  obtain ⟨firstSteps, first, answered, firstMine⟩ :=
    begins.finish answers (waits false)
  obtain ⟨secondSteps, second, answeredToo, secondMine⟩ :=
    first.finish answers ((Function.update_of_ne (by decide) _ _).trans (waits true))
  rw [List.nil_append] at answered
  refine ⟨blob, cluster, _, _, _, second, ?_, ?_, answeredToo, ?_⟩
  · rw [List.nil_append]
    exact ClaimsInTurn.of_two Contract.ghostOf_of_others false true (fun _ => rfl) firstMine
      answered secondMine
  · rw [← whole]
    exact answered.append secondSteps
  · rw [served_call.2]
    refine served_refused ?_ taken
    rw [show (waitingCluster blob cluster : ClusterPool Bool).shared = cluster from rfl, keys]
    exact isKey

/-- Two callers of one server take turns with a blob: the first decrypts it, and the second is
refused the claim. -/
theorem exists_turns :
    ∃ (world : World) (blob : EncryptedBlob) (trace : KeyTrace Bool) (pool : KeyPool Bool)
        (found : World) (key : Bytes), Reachable plainKeystore anyStep world ∧
      Pool.Runs (sharedWorld Env.Reliable)
        (waitingPool plainKeystore world fun _ : Bool => .decrypt blob ⟨[]⟩ ⟨[]⟩) trace pool ∧
      Returned trace false (.ok (.plaintext [1])) ∧
      ⟨found, .performed true (.claim key) (.ok false)⟩ ∈ trace ∧ ClaimsInTurn slots trace := by
  obtain ⟨world, blob, -, reachable, zero, kept, -, -, -, -, -, reads⟩ :=
    exists_readable (.memory ⟨10, []⟩)
  let start : KeyPool Bool := waitingPool plainKeystore world fun _ => .decrypt blob ⟨[]⟩ ⟨[]⟩
  have reliable := quietEnv_reliable 4
  have answers : ∀ op state, (sharedWorld Env.Reliable).Answers state op
      (handle (quietEnv 4) op state).1 (handle (quietEnv 4) op state).2 :=
    fun op state => ⟨quietEnv 4, reliable, rfl⟩
  have begins : Pool.Runs (sharedWorld Env.Reliable) start [] start := .refl
  obtain ⟨firstSteps, first, played, claimed, firstMine⟩ := exists_played false begins rfl
    (slotFree_of_empty (by rw [show start.shared = world from rfl, kept]; rfl) blob) (reads _ rfl)
  have answered := played.step (.return (Function.update_self _ _ _) rfl)
  -- the second call finds the claim of the first
  obtain ⟨record, version, ciphertext, domainId, nonce, -, -, presents, -⟩ :=
    (reads first claimed.keys).presents
  obtain ⟨secondSteps, arrived, secondMine⟩ := answered.reach answers true rfl
    (presents.reaches reliable ⟨[]⟩ ⟨[]⟩ 0)
  have present : (first.replay.liveEntries first.now).contains
      (presentedKey plainKeystore blob ciphertext domainId nonce) = true := by
    obtain ⟨key, isKey, -, entries⟩ := claimed.claims
    have isPresented : ReplayKey plainKeystore start.shared.keys blob
        (presentedKey plainKeystore blob ciphertext domainId nonce) := by
      have resolves := presents.resolves
      rw [claimed.keys] at resolves
      exact ⟨domainId, ciphertext, nonce, resolves, presents.decodes, presents.carries, rfl⟩
    obtain rfl := isKey.unique rfl rfl rfl isPresented
    rw [claimed.now]
    refine ReplayStore.contains_claimed claimed.clock ?_
      (by rw [show start.shared = world from rfl, kept]; decide)
    rw [entries]
    exact List.mem_cons_self
  have refuses : (sharedWorld Env.Reliable).Answers first
      (.claim (presentedKey plainKeystore blob ciphertext domainId nonce)) (.ok false)
      (handle (quietEnv 4) (.claim (presentedKey plainKeystore blob ciphertext domainId nonce))
        first).2 := ⟨quietEnv 4, reliable, Prod.ext (ReplayStore.claim_eq_false present) rfl⟩
  have refused := arrived.step (.perform (Function.update_self _ _ _) refuses)
  have success : Returned ([] ++ firstSteps ++ [⟨first, .returned false (.ok (.plaintext [1]))⟩])
      false (.ok (.plaintext [1])) := returned_last
  have inTurn : ClaimsInTurn slots (([] ++ firstSteps ++
      [⟨first, .returned false (.ok (.plaintext [1]))⟩]) ++ (secondSteps ++
        [⟨first, .performed true
          (.claim (presentedKey plainKeystore blob ciphertext domainId nonce)) (.ok false)⟩])) := by
    refine ClaimsInTurn.of_two Contract.ghostOf_of_others false true (fun _ => rfl) ?_ success ?_
    · intro entry member
      rcases List.mem_append.mp member with early | last
      · exact (firstMine entry early).1
      · rw [List.mem_singleton.mp last]
        rfl
    · intro entry member
      rcases List.mem_append.mp member with early | last
      · exact secondMine entry early
      · rw [List.mem_singleton.mp last]
        rfl
  rw [← List.append_assoc] at inTurn
  refine ⟨world, blob, _, _, first, presentedKey plainKeystore blob ciphertext domainId nonce,
    reachable, refused, (success.append secondSteps).append _, by simp, inTurn⟩

/-- Once a blob has been decrypted, a second call for it is refused, and the call behind the
refusal did not fail, on one server and at Redis. -/
theorem replay_refused_in_turn :
    (∃ (world : World) (blob : EncryptedBlob) (trace : KeyTrace Bool) (pool : KeyPool Bool)
        (found : World) (key : Bytes), Reachable plainKeystore anyStep world ∧
      Pool.Runs (sharedWorld Env.Reliable)
        (waitingPool plainKeystore world fun _ : Bool => .decrypt blob ⟨[]⟩ ⟨[]⟩) trace pool ∧
      Returned trace false (.ok (.plaintext [1])) ∧
      ⟨found, .performed true (.claim key) (.ok false)⟩ ∈ trace ∧
      RefusedByNoFailure
        (waitingPool plainKeystore world fun _ : Bool => .decrypt blob ⟨[]⟩ ⟨[]⟩) trace) ∧
    ∃ (blob : EncryptedBlob) (cluster : Cluster) (trace : ClusterTrace Bool)
        (pool : ClusterPool Bool) (outcome : Outcome CallError CallValue),
      Pool.Runs (heardWorld defaultRedis) (waitingCluster blob cluster) trace pool ∧
      Returned trace false (.ok (.plaintext [1])) ∧ Returned trace true outcome ∧
      outcome.isOk = false ∧
      RefusedByNoFailureAtRedis defaultRedis (waitingCluster blob cluster) trace := by
  constructor
  · obtain ⟨world, blob, trace, pool, found, key, reachable, runs, success, refused, inTurn⟩ :=
      exists_turns
    exact ⟨world, blob, trace, pool, found, key, reachable, runs, success, refused,
      (refused_by_no_failure plainKeystore fun _ => blob).1 Env.Reliable _ _ _
        (decryptors_waitingPool world blob ⟨[]⟩ ⟨[]⟩) runs inTurn⟩
  · obtain ⟨blob, cluster, trace, pool, outcome, runs, inTurn, success, refused, failed⟩ :=
      exists_turns_at_redis defaultRedis
    exact ⟨blob, cluster, trace, pool, outcome, runs, success, refused, failed,
      (refused_by_no_failure plainKeystore fun _ => blob).2 defaultRedis _ _ _
        (fun _ => ⟨⟨[]⟩, ⟨[]⟩, 0, rfl⟩) runs inTurn⟩

end Citadel
