import Citadel.Keystore.Material

/-!
# When encryption and decryption succeed

Both operations read the key's record, its policy verdict and its domain; only
decryption walks the chain of parents. `encrypts_of_run` says what a successful
`encrypt` did, and `decrypt_eq_ok_iff` when a `decrypt` with a free replay slot
succeeds.
-/

namespace Citadel

open Envelope Program

namespace Keystore

variable {ks : Keystore} {env : Env} {world after : World}

/-- The domain above a key, found within a number of records. -/
inductive ResolvesTo (keys : Keys) : Nat → KeyId → KeyId → Prop where
  | domain {left : Nat} {current : KeyId} {record : KeyMetadata}
      (found : keys.find? current = some record) (domain : record.keyType = .domain) :
      ResolvesTo keys (left + 1) current current
  | parent {left : Nat} {current parentId domainId : KeyId} {record : KeyMetadata}
      (found : keys.find? current = some record) (below : record.keyType ≠ .domain)
      (notRoot : record.keyType ≠ .root) (child : record.parentId = some parentId)
      (resolves : ResolvesTo keys left parentId domainId) :
      ResolvesTo keys (left + 1) current domainId

theorem resolvesTo_of_run {start current domainId : KeyId} {left depth : Nat}
    (ran : (resolveDomainFrom start left depth current).run (handle env) world =
      (.ok domainId, after)) : ResolvesTo world.keys left current domainId := by
  induction left generalizing depth current after with
  | zero => cases ran
  | succ left ih =>
      obtain ⟨record, got, rest⟩ := (get_reads current).of_run_bind_eq_ok
        (fun op reads => handle_of_reads reads) ran
      have found := find?_of_get got
      have own := Table.key_of_find? found
      split at rest
      · rename_i isDomain
        cases rest
        rw [own]
        exact .domain found isDomain
      · cases rest
      · rename_i notDomain notRoot
        obtain ⟨parentId, child, resolves⟩ := of_run_ofOption_bind_eq_ok rest
        exact .parent found notDomain notRoot child (ih resolves)

theorem run_of_resolvesTo (answers : ∀ id, env.getFault id = none) {start current domainId : KeyId}
    {left : Nat} (resolves : ResolvesTo world.keys left current domainId) (depth : Nat) :
    (resolveDomainFrom start left depth current).run (handle env) world =
      (.ok domainId, world) := by
  induction resolves generalizing depth with
  | domain found isDomain =>
      rw [resolveDomainFrom, run_bind, get_run (answers _) found, andThen_ok, isDomain]
      exact congrArg (fun id => (Outcome.ok id, world)) (Table.key_of_find? found)
  | parent found notDomain notRoot child resolves ih =>
      rw [resolveDomainFrom, run_bind, get_run (answers _) found, andThen_ok, child]
      split
      · rename_i isDomain
        exact absurd isDomain notDomain
      · rename_i isRoot
        exact absurd isRoot notRoot
      · exact ih _

/-- Every key is still there, with its type and under its parent. -/
def KeepsPlaces (keys later : Keys) : Prop :=
  ∀ id record, keys.find? id = some record → ∃ kept, later.find? id = some kept ∧
    kept.keyType = record.keyType ∧ kept.parentId = record.parentId

/-- A write that keeps the type and the parent of its key keeps every place. -/
theorem KeepsPlaces.insert {keys : Keys} {before record : KeyMetadata}
    (found : keys.find? record.id = some before) (sameType : record.keyType = before.keyType)
    (sameParent : record.parentId = before.parentId) : KeepsPlaces keys (keys.insert record) := by
  intro id old present
  rw [Table.find?_insert]
  split
  · rename_i same
    rw [same, found] at present
    cases present
    exact ⟨record, rfl, sameType, sameParent⟩
  · exact ⟨old, present, rfl, rfl⟩

/-- The domain of a key is settled by the places of the keys. -/
theorem ResolvesTo.keeps {keys later : Keys} {left : Nat} {current domainId : KeyId}
    (keeps : KeepsPlaces keys later) (resolves : ResolvesTo keys left current domainId) :
    ResolvesTo later left current domainId := by
  induction resolves with
  | domain found isDomain =>
      obtain ⟨record, present, sameType, -⟩ := keeps _ _ found
      exact .domain present (sameType.trans isDomain)
  | parent found notDomain notRoot child resolves ih =>
      obtain ⟨record, present, sameType, sameParent⟩ := keeps _ _ found
      refine .parent present ?_ ?_ (sameParent.trans child) ih
      · rw [sameType]
        exact notDomain
      · rw [sameType]
        exact notRoot

/-- The domain of a key does not change while its ancestors outlive. -/
theorem ResolvesTo.extends {keys later : Keys} {left : Nat} {current domainId : KeyId}
    (kept : Extends keys later) (resolves : ResolvesTo keys left current domainId) :
    ResolvesTo later left current domainId := by
  refine resolves.keeps ?_
  intro id record found
  obtain ⟨later, present, outlives⟩ := kept id record found
  exact ⟨later, present, outlives.keyType, outlives.parentId⟩

theorem ResolvesTo.unique {keys : Keys} {left : Nat} {current domainId other : KeyId}
    (resolves : ResolvesTo keys left current domainId)
    (also : ResolvesTo keys left current other) : domainId = other := by
  induction resolves with
  | domain found isDomain =>
      cases also with
      | domain _ _ => rfl
      | parent found' notDomain =>
          rw [found] at found'
          cases found'
          exact absurd isDomain notDomain
  | parent found notDomain notRoot child resolves ih =>
      cases also with
      | domain found' isDomain =>
          rw [found] at found'
          cases found'
          exact absurd isDomain notDomain
      | parent found' _ _ child' resolves' =>
          rw [found] at found'
          cases found'
          rw [child] at child'
          cases child'
          exact ih resolves'

/-- The verdict of a key's policy, adapted to the threat level. The evaluation may
panic. -/
def verdictAt (ks : Keystore) (level : ThreatLevel) (now : Nat) (record : KeyMetadata) :
    Except Abort (Option PolicyVerdict) :=
  match ks.effectivePolicyFor record level with
  | none => .ok none
  | some policy => (evaluate policy record now).map some

/-- The verdict exists and is not `Expired`. -/
def NotExpired (ks : Keystore) (level : ThreatLevel) (now : Nat) (record : KeyMetadata) : Prop :=
  ∃ verdict, ks.verdictAt level now record = .ok verdict ∧
    verdict.any PolicyVerdict.isExpired = false

theorem evaluateEffective_run {ε : Type} (record : KeyMetadata) :
    (ks.evaluateEffective record : Prog ε (Option PolicyVerdict)).run (handle env) world =
      (match ks.verdictAt env.level world.now record with
        | .ok verdict => .ok verdict
        | .error why => .aborted why, world) := by
  unfold evaluateEffective verdictAt
  simp only [currentThreatLevel, utcNow, call_bind, run_perform, handle]
  cases ks.effectivePolicyFor record env.level with
  | none => rfl
  | some policy =>
      simp only [run_perform, handle]
      cases evaluate policy record world.now with
      | error why => rfl
      | ok verdict => rfl

theorem verdictAt_of_run {ε : Type} {record : KeyMetadata} {verdict : Option PolicyVerdict}
    (ran : (ks.evaluateEffective record : Prog ε (Option PolicyVerdict)).run (handle env) world =
      (.ok verdict, after)) : ks.verdictAt env.level world.now record = .ok verdict := by
  rw [evaluateEffective_run] at ran
  split at ran
  · rename_i found evaluated
    cases ran
    exact evaluated
  · cases ran

/-- What a successful `encrypt` did. -/
inductive Encrypts (ks : Keystore) (env : Env) (world : World) (id : KeyId) (plaintext : Bytes)
    (aad : Aad) (context : Context) : EncryptedBlob → World → Prop where
  | intro {record : KeyMetadata} {verdict : Option PolicyVerdict} {version : KeyVersion}
      {key : PublicKey} {domainId : KeyId} {ciphertext : Bytes}
      (found : world.keys.find? id = some record) (active : record.state = .active)
      (data : encryptsUserData record.keyType = true)
      (evaluated : ks.verdictAt env.level world.now record = .ok verdict)
      (unblocked : verdict.bind encryptionBlock = none)
      (current : record.currentKeyVersion = some version)
      (stores : StoresPublicKey ks version.publicKeyHex key)
      (resolves : ResolvesTo world.keys 10 id domainId)
      (sealed : Envelope.seal ks.crypto env.randomness.sealing key plaintext
        (domainBoundAad domainId aad) context = .ok ciphertext) :
      Encrypts ks env world id plaintext aad context
        ⟨id.text, record.currentVersion, hexEncode ciphertext, world.now⟩
        { world with keys := world.keys.insert (usedRecord record world.now) }

theorem eq_active_of_canEncrypt {state : KeyState} (can : ¬ state.canEncrypt = false) :
    state = .active := by
  cases state with
  | active => rfl
  | _ => exact absurd rfl can

theorem encrypts_of_run {id : KeyId} {plaintext : Bytes} {aad : Aad} {context : Context}
    {blob : EncryptedBlob}
    (ran : (ks.encrypt id plaintext aad context).run (handle env) world = (.ok blob, after)) :
    Encrypts ks env world id plaintext aad context blob after := by
  have neutral : ∀ op, Op.Reads op → ∀ world, (handle env op world).2 = world :=
    fun op reads => handle_of_reads reads
  have body := of_run_mapErr_eq_ok ran
  obtain ⟨record, got, rest⟩ := (get_reads id).mapErr.of_run_bind_eq_ok neutral body
  obtain ⟨can, rest⟩ := of_run_guard_eq_ok rest
  obtain ⟨data, rest⟩ := of_run_guard_eq_ok rest
  obtain ⟨verdict, evaluated, rest⟩ :=
    (evaluateEffective_reads record).of_run_bind_eq_ok neutral rest
  split at rest
  · cases rest
  rename_i unblocked
  obtain ⟨version, current, rest⟩ := of_run_ofOption_bind_eq_ok rest
  obtain ⟨key, parsed, rest⟩ := (parsePublicKey_reads _).of_run_bind_eq_ok neutral rest
  obtain ⟨domainId, resolved, rest⟩ :=
    (resolveDomainForKey_reads id).mapErr.of_run_bind_eq_ok neutral rest
  rw [osRng, call_bind, run_perform] at rest
  obtain ⟨ciphertext, sealed, rest⟩ := of_run_ofExcept_bind_eq_ok rest
  rw [utcNow, call_bind, run_perform] at rest
  have stored := of_put_bind_eq_ok rest
  cases stored
  exact .intro (find?_of_get (of_run_mapErr_eq_ok got)) (eq_active_of_canEncrypt can)
    (by simpa using data) (verdictAt_of_run evaluated) unblocked current
    (storesPublicKey_of_run parsed) (resolvesTo_of_run (of_run_mapErr_eq_ok resolved)) sealed

/-- What a successful `decrypt` found. -/
inductive Decrypts (ks : Keystore) (env : Env) (world : World) (blob : EncryptedBlob) (aad : Aad)
    (context : Context) (plaintext : Bytes) : Prop where
  | intro {record : KeyMetadata} {version : KeyVersion} {ciphertext : Bytes} {domainId : KeyId}
      {nonce : SizedBytes 12} {skBytes : Bytes} {key : SecretKey ks.crypto}
      (found : world.keys.find? ⟨blob.keyId⟩ = some record)
      (usable : record.state.canDecrypt = true)
      (notExpired : NotExpired ks env.level world.now record)
      (lookup : record.getVersion blob.keyVersion = some version)
      (decodes : hexDecode (utf8 blob.ciphertextHex) = .ok ciphertext)
      (long : aeadTagBytes ≤ ciphertext.length)
      (resolves : ResolvesTo world.keys 10 ⟨blob.keyId⟩ domainId)
      (carries : envelopeNonce ciphertext = .ok nonce)
      (unwraps : Unwraps ks world.keys false (maxUnwrapDepth + 1) ⟨blob.keyId⟩ version skBytes)
      (parses : SecretKey.fromBytes ks.crypto skBytes = .ok key)
      (opens : Envelope.open ks.crypto key ciphertext (domainBoundAad domainId aad) context =
        .ok plaintext)

/-- No claim that still counts stands in the way of a blob. -/
def SlotFree (ks : Keystore) (world : World) (blob : EncryptedBlob) : Prop :=
  ∀ domainId ciphertext nonce, ResolvesTo world.keys 10 ⟨blob.keyId⟩ domainId →
    hexDecode (utf8 blob.ciphertextHex) = .ok ciphertext →
    envelopeNonce ciphertext = .ok nonce →
    (world.replay.liveEntries world.now).contains (deriveReplayKey ks.crypto domainId.text
      blob.keyId blob.keyVersion nonce (aeadTag ciphertext)) = false

theorem not_releaseAndFail_run {α : Type} {cacheKey : Bytes} {value : α} :
    (releaseAndFail cacheKey : Prog String α).run (handle env) world ≠ (.ok value, after) :=
  nofun

theorem run_attempt_eq_ok {ε δ α : Type} {program : Prog ε α} {value : α}
    (ran : (program.attempt : Prog δ (Except ε α)).run (handle env) world =
      (.ok (.ok value), after)) : program.run (handle env) world = (.ok value, after) := by
  rw [run_attempt] at ran
  match first : program.run (handle env) world with
  | (.ok result, middle) =>
      rw [first] at ran
      cases ran
      rfl
  | (.err error, middle) =>
      rw [first] at ran
      cases ran
  | (.aborted why, middle) =>
      rw [first] at ran
      cases ran

theorem of_openClaimed {id domainId : KeyId} {version : KeyVersion} {ciphertext cacheKey : Bytes}
    {aad : Aad} {context : Context} {plaintext : Bytes}
    (ran : (ks.openClaimed id version domainId ciphertext cacheKey aad context).run (handle env)
      world = (.ok plaintext, after)) :
    ∃ skBytes key, Unwraps ks world.keys false (maxUnwrapDepth + 1) id version skBytes ∧
      SecretKey.fromBytes ks.crypto skBytes = .ok key ∧
      Envelope.open ks.crypto key ciphertext (domainBoundAad domainId aad) context =
        .ok plaintext := by
  obtain ⟨unwrapped, attempted, rest⟩ := (unwrapKeyVersionInner_reads _ _ _ _).attempt
    |>.of_run_bind_eq_ok (fun op reads => handle_of_reads reads) ran
  cases unwrapped with
  | error error => exact absurd rest not_releaseAndFail_run
  | ok skBytes =>
      refine ⟨skBytes, ?_⟩
      simp only at rest
      split at rest
      · exact absurd rest not_releaseAndFail_run
      · rename_i key parses
        split at rest
        · exact absurd rest not_releaseAndFail_run
        · rename_i opened opens
          cases rest
          exact ⟨key, unwraps_of_run (run_attempt_eq_ok attempted), parses, opens⟩

theorem decrypts_of_run {blob : EncryptedBlob} {aad : Aad} {context : Context} {plaintext : Bytes}
    (ran : (ks.decrypt blob aad context).run (handle env) world = (.ok plaintext, after)) :
    Decrypts ks env world blob aad context plaintext := by
  have neutral : ∀ op, Op.Reads op → ∀ world, (handle env op world).2 = world :=
    fun op reads => handle_of_reads reads
  have body := of_run_mapErr_eq_ok ran
  obtain ⟨record, got, rest⟩ := (get_reads _).mapErr.of_run_bind_eq_ok neutral body
  obtain ⟨usable, rest⟩ := of_run_guard_eq_ok rest
  obtain ⟨verdict, evaluated, rest⟩ :=
    (evaluateEffective_reads record).of_run_bind_eq_ok neutral rest
  obtain ⟨unexpired, rest⟩ := of_run_guard_eq_ok rest
  obtain ⟨version, lookup, rest⟩ := of_run_ofOption_bind_eq_ok rest
  obtain ⟨ciphertext, decodes, rest⟩ := of_run_ofExcept_bind_eq_ok rest
  obtain ⟨long, rest⟩ := of_run_guard_eq_ok rest
  obtain ⟨domainId, resolved, rest⟩ :=
    (resolveDomainForKey_reads _).mapErr.of_run_bind_eq_ok neutral rest
  obtain ⟨nonce, carries, rest⟩ := of_run_ofExcept_bind_eq_ok rest
  simp only [replayClaim, call_bind, run_perform] at rest
  split at rest
  · obtain ⟨skBytes, key, unwraps, parses, opens⟩ := of_openClaimed rest
    exact .intro (find?_of_get (of_run_mapErr_eq_ok got)) (by simpa using usable)
      ⟨verdict, verdictAt_of_run evaluated, by simpa using unexpired⟩ lookup decodes
      (Nat.not_lt.mp long) (resolvesTo_of_run (of_run_mapErr_eq_ok resolved)) carries unwraps
      parses opens
  · cases rest
  · cases rest

theorem openClaimed_run (answers : ∀ id, env.getFault id = none) {id domainId : KeyId}
    {version : KeyVersion} {ciphertext cacheKey skBytes : Bytes} {key : SecretKey ks.crypto}
    {aad : Aad} {context : Context} {plaintext : Bytes} {keys : Keys} (stored : world.keys = keys)
    (unwraps : Unwraps ks keys false (maxUnwrapDepth + 1) id version skBytes)
    (parses : SecretKey.fromBytes ks.crypto skBytes = .ok key)
    (opens : Envelope.open ks.crypto key ciphertext (domainBoundAad domainId aad) context =
      .ok plaintext) :
    (ks.openClaimed id version domainId ciphertext cacheKey aad context).run (handle env) world =
      (.ok plaintext, world) := by
  subst stored
  rw [openClaimed, run_bind, run_attempt, unwrapKeyVersion, run_of_unwraps answers unwraps]
  simp only [Outcome.attempt, andThen_ok, parses, opens, run_ret]

theorem run_of_decrypts (reliable : env.Reliable) {blob : EncryptedBlob} {aad : Aad}
    {context : Context} {plaintext : Bytes} (free : SlotFree ks world blob)
    (decrypts : Decrypts ks env world blob aad context plaintext) :
    ((ks.decrypt blob aad context).run (handle env) world).1 = .ok plaintext := by
  obtain ⟨found, usable, ⟨verdict, evaluated, unexpired⟩, lookup, decodes, long, resolves, carries,
    unwraps, parses, opens⟩ := decrypts
  have claimed := ReplayStore.claim_eq_true (free _ _ _ resolves decodes carries)
  rw [decrypt, run_mapErr, run_bind, run_mapErr, get_run (reliable.get _) found]
  simp only [Outcome.mapErr, andThen_ok, usable, Bool.true_eq_false, if_false, run_bind,
    evaluateEffective_run, evaluated, unexpired, Bool.false_eq_true, lookup, decodes,
    Program.ofOption, Program.ofExcept, run_ret, Nat.not_lt.mpr long, run_mapErr,
    resolveDomainForKey, run_of_resolvesTo reliable.get resolves, carries, replayClaim, call,
    run_perform, handle, reliable.flush, claimed]
  rw [openClaimed_run reliable.get ?_ unwraps parses opens]
  rfl

/-- With a backend that answers and a free replay slot, decryption succeeds exactly
when everything it looks for is there. -/
theorem decrypt_eq_ok_iff (reliable : env.Reliable) {blob : EncryptedBlob} {aad : Aad}
    {context : Context} {plaintext : Bytes} (free : SlotFree ks world blob) :
    ((ks.decrypt blob aad context).run (handle env) world).1 = .ok plaintext ↔
      Decrypts ks env world blob aad context plaintext := by
  constructor
  · intro ran
    exact decrypts_of_run (Prod.ext ran rfl)
  · exact run_of_decrypts reliable free

end Keystore

end Citadel
