import Citadel.Keystore.RoundTrip

/-!
# What a decryption leaves behind

A decryption writes no record. If it succeeds, the claims that still count are those
from before and the one on its own replay key. If it fails, wherever it fails, they
are those from before: a claim is taken before the envelope is opened and given back
on every path that fails afterwards.
-/

namespace Citadel

open Envelope Program

namespace ReplayStore

variable {store after : ReplayStore} {now later : Nat}

/-- Claims that were evicted are gone for good. -/
theorem SameClock.liveEntries_of_entries (clock : SameClock after store)
    (entries : after.entries = store.liveEntries now) :
    after.liveEntries now = store.liveEntries now := by
  rw [liveEntries, entries, clock.live, liveEntries, List.filter_filter]
  simp

/-- A claim that counts at an instant counted at every instant since it was made. -/
theorem live_of_le {stamp : Nat} (le : now ≤ later) (alive : store.live stamp later = true) :
    store.live stamp now = true := by
  cases store with
  | memory store =>
      have young : later - stamp < store.ttl := of_decide_eq_true alive
      exact decide_eq_true (by omega)
  | file store =>
      have young : asSecs later - store.defaultTtlSecs ≤ stamp := of_decide_eq_true alive
      have order : asSecs now ≤ asSecs later := Nat.div_le_div_right le
      exact decide_eq_true (by omega)

/-- What counts later is decided by what counts now. -/
theorem liveEntries_of_le (le : now ≤ later) :
    store.liveEntries later = (store.liveEntries now).filter fun entry =>
      store.live entry.2 later := by
  rw [liveEntries, liveEntries, List.filter_filter]
  refine List.filter_congr fun entry _ => ?_
  cases alive : store.live entry.2 later with
  | false => rfl
  | true => rw [live_of_le le alive, Bool.true_and]

theorem SameClock.liveEntries_of_le (clock : SameClock after store) (le : now ≤ later)
    (same : after.liveEntries now = store.liveEntries now) :
    after.liveEntries later = store.liveEntries later := by
  rw [ReplayStore.liveEntries_of_le le, same, clock.live, ← ReplayStore.liveEntries_of_le le]

end ReplayStore

/-- The replay key of a blob. -/
def ReplayKey (ks : Keystore) (keys : Keys) (blob : EncryptedBlob) (key : Bytes) : Prop :=
  ∃ domainId ciphertext nonce, Keystore.ResolvesTo keys 10 ⟨blob.keyId⟩ domainId ∧
    hexDecode (utf8 blob.ciphertextHex) = .ok ciphertext ∧ envelopeNonce ciphertext = .ok nonce ∧
    key = deriveReplayKey ks.crypto domainId.text blob.keyId blob.keyVersion nonce
      (aeadTag ciphertext)

/-- The replay key depends on the key, its version and the decoded ciphertext only. -/
theorem ReplayKey.unique {ks : Keystore} {keys : Keys} {left right : EncryptedBlob}
    {key other : Bytes} (sameKey : left.keyId = right.keyId)
    (sameVersion : left.keyVersion = right.keyVersion)
    (sameBytes : hexDecode (utf8 left.ciphertextHex) = hexDecode (utf8 right.ciphertextHex))
    (mine : ReplayKey ks keys left key) (yours : ReplayKey ks keys right other) : key = other := by
  obtain ⟨domainId, ciphertext, nonce, resolves, decodes, carries, rfl⟩ := mine
  obtain ⟨otherDomain, otherCiphertext, otherNonce, also, decodesToo, carriesToo, rfl⟩ := yours
  rw [sameBytes, decodesToo] at decodes
  cases decodes
  rw [carriesToo] at carries
  cases carries
  rw [sameKey] at resolves
  rw [resolves.unique also, sameKey, sameVersion]

namespace Keystore

variable {ks : Keystore} {env : Env} {world after : World} {blob : EncryptedBlob} {ε α : Type}

/-- The claims after a decryption, by its outcome. A panic between the claim and its
release says nothing. -/
def ClaimsAfter (ks : Keystore) (world : World) (blob : EncryptedBlob) (replay : ReplayStore) :
    Outcome ε α → Prop
  | .ok _ => ∃ key, ReplayKey ks world.keys blob key ∧
      (world.replay.liveEntries world.now).contains key = false ∧
      replay.entries = (key, world.replay.stamp world.now) :: world.replay.liveEntries world.now
  | .err _ => replay.liveEntries world.now = world.replay.liveEntries world.now
  | .aborted _ => True

/-- What a decryption does to the keystore. -/
structure Decrypted (ks : Keystore) (world : World) (blob : EncryptedBlob) (after : World)
    (outcome : Outcome ε α) : Prop where
  keys : after.keys = world.keys
  now : after.now = world.now
  clock : after.replay.SameClock world.replay
  claims : ClaimsAfter ks world blob after.replay outcome

/-- A decryption that fails before its claim. -/
theorem Decrypted.refused {outcome : Outcome ε α} (refused : outcome.isOk = false) :
    Decrypted ks world blob world outcome := by
  refine ⟨rfl, rfl, .refl _, ?_⟩
  cases outcome with
  | ok value => cases refused
  | err error => rfl
  | aborted why => trivial

theorem Decrypted.mapErr {δ : Type} {outcome : Outcome ε α}
    (decrypted : Decrypted ks world blob after outcome) (translate : ε → δ) :
    Decrypted ks world blob after (outcome.mapErr translate) := by
  refine ⟨decrypted.keys, decrypted.now, decrypted.clock, ?_⟩
  cases outcome with
  | ok value => exact decrypted.claims
  | err error => exact decrypted.claims
  | aborted why => trivial

/-- A program that hands over its errors has none. -/
theorem attempt_run_ne_err {δ : Type} {program : Prog ε α} {error : δ} {state : World} :
    (program.attempt : Prog δ (Except ε α)).run (handle env) state ≠ (.err error, after) := by
  rw [run_attempt]
  cases (program.run (handle env) state).1 with
  | ok value => rintro ⟨⟩
  | err problem => rintro ⟨⟩
  | aborted why => rintro ⟨⟩

/-- The contract of a decryption played alone: nothing is forbidden to it. -/
abbrev unrestricted (env : Env) : Contract Op Op.Ret := alone (handle env) fun _ _ => True

/-- The rule for a reading part. -/
theorem meets_reading {β : Type} {program : Prog ε α} {continuation : α → Prog ε β} {state : World}
    {post : World → Outcome ε β → Prop} (reads : program.Uses Op.Reads)
    (value : ∀ value, program.run (handle env) state = (.ok value, state) →
      (continuation value).Meets (unrestricted env) state post)
    (error : ∀ error, post state (.err error)) (aborted : ∀ why, post state (.aborted why)) :
    (program >>= continuation).Meets (unrestricted env) state post :=
  Meets.bindUses reads (fun _ reads _ => ⟨trivial, handle_of_reads reads _⟩) value
    (fun problem _ => error problem) fun why _ => aborted why

/-- The state in which a decryption holds the claim on a key. -/
structure Holding (world : World) (key : Bytes) (state : World) : Prop where
  keys : state.keys = world.keys
  now : state.now = world.now
  clock : state.replay.SameClock world.replay
  absent : (world.replay.liveEntries world.now).contains key = false
  entries : state.replay.entries =
    (key, world.replay.stamp world.now) :: world.replay.liveEntries world.now

/-- The claim is given back and no other. -/
theorem Holding.releaseAndFail {state : World} {key : Bytes} (holding : Holding world key state) :
    (releaseAndFail key : Prog String α).Meets (unrestricted env) state
      (Decrypted ks world blob) := by
  refine Meets.callAlone trivial ?_
  obtain ⟨clock, removed⟩ := state.replay.release_spec key state.now env.flushed
  have sameClock : (state.replay.release key state.now env.flushed).2.SameClock world.replay :=
    clock.trans holding.clock
  refine ⟨holding.keys, holding.now, sameClock, ?_⟩
  refine sameClock.liveEntries_of_entries ?_
  rw [removed, holding.entries]
  have own : Claims.remove ((key, world.replay.stamp world.now) ::
      world.replay.liveEntries world.now) key =
      Claims.remove (world.replay.liveEntries world.now) key := by
    simp [Claims.remove]
  rw [own, Claims.remove_of_not_contains holding.absent]

theorem Holding.openClaimed {state : World} {key ciphertext : Bytes} {keyId domainId : KeyId}
    {version : KeyVersion} {aad : Aad} {context : Context} (holding : Holding world key state)
    (isReplayKey : ReplayKey ks world.keys blob key) :
    (ks.openClaimed keyId version domainId ciphertext key aad context).Meets (unrestricted env)
      state (Decrypted ks world blob) := by
  have panicked : ∀ why, Decrypted ks world blob state (.aborted why : Outcome String Bytes) :=
    fun _ => ⟨holding.keys, holding.now, holding.clock, trivial⟩
  refine Meets.bindUses (unwrapKeyVersionInner_reads _ _ _ _).attempt
    (fun _ reads _ => ⟨trivial, handle_of_reads reads _⟩) ?_ ?_ (fun why _ => panicked why)
  · rintro (error | skBytes) -
    · exact holding.releaseAndFail
    · dsimp only
      split
      · exact holding.releaseAndFail
      · split
        · exact holding.releaseAndFail
        · exact ⟨holding.keys, holding.now, holding.clock, key, isReplayKey, holding.absent,
            holding.entries⟩
  · intro error failed
    exact absurd failed attempt_run_ne_err

/-- Every decryption, whatever it is given and however the backend answers. -/
theorem decrypted_of_run {aad : Aad} {context : Context} {outcome : Outcome CallError Bytes}
    (ran : (ks.decrypt blob aad context).run (handle env) world = (outcome, after)) :
    Decrypted ks world blob after outcome := by
  suffices meets : (ks.decrypt blob aad context).Meets (unrestricted env) world
      (Decrypted ks world blob) by
    have post := meets.runAlone
    rwa [ran] at post
  have refused : ∀ {β : Type} (error : String),
      Decrypted ks world blob world ((.err error : Outcome String β).mapErr CallError.decrypt) :=
    fun _ => .refused rfl
  have panicked : ∀ {β : Type} (why : Abort),
      Decrypted ks world blob world ((.aborted why : Outcome String β).mapErr CallError.decrypt) :=
    fun _ => .refused rfl
  refine Meets.mapErr ?_
  refine meets_reading (get_reads _).mapErr (fun record _ => ?_) refused panicked
  split
  · exact refused _
  refine meets_reading (evaluateEffective_reads record) (fun verdict _ => ?_) refused panicked
  split
  · exact refused _
  refine meets_reading uses_ofOption (fun version _ => ?_) refused panicked
  refine meets_reading uses_ofExcept (fun ciphertext decoded => ?_) refused panicked
  split
  · exact refused _
  refine meets_reading (resolveDomainForKey_reads _).mapErr (fun domainId resolved => ?_) refused
    panicked
  refine meets_reading uses_ofExcept (fun nonce carried => ?_) refused panicked
  have isReplayKey : ReplayKey ks world.keys blob _ :=
    ⟨domainId, ciphertext, nonce, resolvesTo_of_run (of_run_mapErr_eq_ok resolved),
      of_run_ofExcept_eq_ok decoded, of_run_ofExcept_eq_ok carried, rfl⟩
  refine Meets.callAlone trivial ?_
  let key := deriveReplayKey ks.crypto domainId.text blob.keyId blob.keyVersion nonce
    (aeadTag ciphertext)
  obtain ⟨clock, spec⟩ := world.replay.claim_spec key world.now env.flushed
  simp only [handle]
  split
  · rename_i granted
    rw [granted] at spec
    have holding : Holding world key
        { world with replay := (world.replay.claim key world.now env.flushed).2 } :=
      ⟨rfl, rfl, clock, spec.1, spec.2⟩
    exact (holding.openClaimed isReplayKey).mono fun _ _ decrypted => decrypted.mapErr _
  · rename_i held
    rw [held] at spec
    exact ⟨rfl, rfl, clock, clock.liveEntries_of_entries spec.2⟩
  · rename_i error failed
    rw [failed] at spec
    exact ⟨rfl, rfl, clock, clock.liveEntries_of_entries spec.2⟩

/-- Decryption looks at the stored keys and the clock. -/
theorem Decrypts.of_eq {other : World} {aad : Aad} {context : Context} {plaintext : Bytes}
    (decrypts : Decrypts ks env world blob aad context plaintext) (keys : other.keys = world.keys)
    (now : other.now = world.now) : Decrypts ks env other blob aad context plaintext := by
  obtain ⟨found, usable, notExpired, lookup, decodes, long, resolves, carries, unwraps, parses,
    opens⟩ := decrypts
  rw [← keys] at found resolves unwraps
  rw [← now] at notExpired
  exact ⟨found, usable, notExpired, lookup, decodes, long, resolves, carries, unwraps, parses,
    opens⟩

theorem slotFree_iff : SlotFree ks world blob ↔ ∀ key, ReplayKey ks world.keys blob key →
    (world.replay.liveEntries world.now).contains key = false := by
  constructor
  · rintro free _ ⟨domainId, ciphertext, nonce, resolves, decodes, carries, rfl⟩
    exact free domainId ciphertext nonce resolves decodes carries
  · intro free domainId ciphertext nonce resolves decodes carries
    exact free _ ⟨domainId, ciphertext, nonce, resolves, decodes, carries, rfl⟩

/-- With a backend that answers, a blob is accepted exactly when its replay slot is free
and everything that decryption looks for is there. -/
theorem decrypt_eq_ok_iff_free (reliable : env.Reliable) {aad : Aad} {context : Context}
    {plaintext : Bytes} :
    ((ks.decrypt blob aad context).run (handle env) world).1 = .ok plaintext ↔
      SlotFree ks world blob ∧ Decrypts ks env world blob aad context plaintext := by
  constructor
  · intro accepted
    obtain ⟨key, isReplayKey, absent, -⟩ := (decrypted_of_run (Prod.ext accepted rfl)).claims
    have free : SlotFree ks world blob := by
      rw [slotFree_iff]
      intro other isOther
      rw [ReplayKey.unique rfl rfl rfl isOther isReplayKey]
      exact absent
    exact ⟨free, (decrypt_eq_ok_iff reliable free).mp accepted⟩
  · rintro ⟨free, decrypts⟩
    exact (decrypt_eq_ok_iff reliable free).mpr decrypts

/-- A key that was encrypted under, with a blob that is read back in every state with the
same keys. -/
theorem exists_readable (replay : ReplayStore) :
    ∃ world blob record, Reachable plainKeystore anyStep world ∧ world.now = 0 ∧
      world.replay = replay ∧ world.keys.find? ⟨blob.keyId⟩ = some record ∧
      record.state = .active ∧ record.policyId = none ∧ record.getVersion 2 = none ∧
      (∃ origin, Encrypts plainKeystore (quietEnv 4) origin ⟨blob.keyId⟩ [1] ⟨[]⟩ ⟨[]⟩ blob world) ∧
      ∀ later : World, later.keys = world.keys →
        Decrypts plainKeystore (quietEnv 4) later blob ⟨[]⟩ ⟨[]⟩ [1] := by
  obtain ⟨world, after, blob, record, version, first, reachable, grove, encrypted, kept, planted,
    written⟩ := exists_encrypted anyStep replay .active (.inr rfl) (fun _ _ _ _ _ _ _ => trivial)
  have did := Call.encrypts_of_run encrypted
  obtain ⟨sound, emptied⟩ := reachable.sound transparent_lawful
  obtain ⟨soundAfter, emptiedAfter⟩ := did.sound transparent_lawful sound emptied
  have own : (usedRecord record 0).id = keyNumbered 3 := planted.id
  have stored : after.keys.find? (keyNumbered 3) = some (usedRecord record 0) := by
    rw [written]
    exact find?_insert_own own
  have numbered : (usedRecord record 0).getVersion blob.keyVersion = some version := by
    rw [first]
    exact planted.getVersion
  have reached : Reachable plainKeystore anyStep after := by
    have next := reachable.step (Step.mk 0 (quietEnv 4) (.encrypt (keyNumbered 3) [1] ⟨[]⟩ ⟨[]⟩))
      (grove.fresh (by decide) (by decide)) trivial
    rwa [show (Step.mk 0 (quietEnv 4) (.encrypt (keyNumbered 3) [1] ⟨[]⟩ ⟨[]⟩)).run plainKeystore
      world = (.ok (.blob blob), after) from encrypted] at next
  have chain : Recoverable after.keys false (maxUnwrapDepth + 1) version := by
    refine grove.recoverable (fun n above => ?_) planted
    rw [written]
    exact find?_insert_numbered own (by omega) (by decide) (by omega)
  have named : (⟨blob.keyId⟩ : KeyId) = keyNumbered 3 := by
    rw [(did.later did.extends).1]
  have unbound : (usedRecord record 0).policyId = none := planted.policyId
  have active : (usedRecord record 0).state = .active := planted.state
  have single : (usedRecord record 0).getVersion 2 = none := by
    simp [KeyMetadata.getVersion, usedRecord, planted.versions, planted.number]
  refine ⟨after, blob, usedRecord record 0, reached, ?_, kept, by rw [named, stored], active,
    unbound, single, ⟨_, by rw [named]; exact did⟩, ?_⟩
  · obtain ⟨-⟩ := did
    rfl
  · intro later same
    rw [← same] at chain stored soundAfter emptiedAfter
    have extended : Extends world.keys later.keys := by
      rw [same]
      exact did.extends
    refine (did.decrypts_iff transparent_lawful extended soundAfter emptiedAfter stored
      numbered).mpr ⟨?_, ?_, chain⟩
    · rw [active]
      rfl
    · refine ⟨none, ?_, rfl⟩
      simp [verdictAt, effectivePolicyFor, unbound]

end Keystore

end Citadel
