import Citadel.Keystore.Severance
import Citadel.Keystore.Sharing
import Mathlib.Data.Fintype.Card

/-!
# Races on one key

No operation checks that the record it overwrites is the one it read. Three results
say what the operations guarantee when every write does find what it relied on: that
revocation and destruction are final, that no use goes uncounted, and that a version
which sealed a blob is never lost. Without the condition each of them fails.
-/

namespace Citadel

open Envelope Program Keystore

variable {ι : Type} [DecidableEq ι] {ks : Keystore} {id : KeyId} {calls : ι → Call}
  {admits : Env → Prop} {start pool : KeyPool ι} {trace : KeyTrace ι}

/-! ### Revocation and destruction -/

/-- A write over a revoked or destroyed record comes from a caller that read it in that
state. -/
def KnowsEnd (read stored : KeyMetadata) : Prop :=
  GivenUp stored.state → read.state = stored.state

/-- What the callers that were told of success have left behind. -/
def Ended (id : KeyId) (calls : ι → Call) (sessions : ι → Session) (keys : Keys) : Prop :=
  ∀ caller, (sessions caller).wrote = true →
    (calls caller = .revoke id →
      ∃ record, keys.find? id = some record ∧ GivenUp record.state) ∧
    (calls caller = .destroy id →
      ∃ record, keys.find? id = some record ∧ record.state = .destroyed)

/-- An update keeps an active key active or follows the table. -/
theorem Updates.edge {call : Call} {before record : KeyMetadata}
    (updates : Updates ks call before record) :
    (before.state = .active ∧ record.state = .active) ∨
      before.state.canTransitionTo record.state = true := by
  cases updates with
  | activated edge => exact Or.inr edge
  | rotated active => exact Or.inl ⟨active, rfl⟩
  | revoked active =>
      rw [active]
      exact Or.inr rfl
  | expired usable =>
      rcases KeyState.canDecrypt_iff.mp usable with state | state
      · rw [state]
        exact Or.inr rfl
      · rw [state]
        exact Or.inr rfl
  | destroyed edge => exact Or.inr edge
  | used active within => exact Or.inl ⟨active, active⟩

/-- An update of a revoked record destroys it, and a destroyed one has none. -/
theorem Updates.of_givenUp {call : Call} {before record : KeyMetadata}
    (updates : Updates ks call before record) (givenUp : GivenUp before.state) :
    before.state = .revoked ∧ record.state = .destroyed := by
  have table : ∀ state : KeyState, (KeyState.revoked.canTransitionTo state = true →
      state = .destroyed) ∧ KeyState.destroyed.canTransitionTo state = false := by
    intro state
    cases state <;> decide
  rcases updates.edge with ⟨active, -⟩ | edge
  · rw [active] at givenUp
    rcases givenUp with impossible | impossible <;> cases impossible
  · rcases givenUp with state | state
    · rw [state] at edge
      exact ⟨state, (table record.state).1 edge⟩
    · rw [state, (table record.state).2] at edge
      cases edge

theorem Callers.ended (callers : Callers ks id calls start)
    (runs : Pool.Runs (sharedWorld admits) start trace pool)
    (every : EveryStep (PutFinds id KnowsEnd) trace) :
    Ended id calls (sessions id trace) pool.shared.keys := by
  refine callers.invariant (Ended id calls) ?_ ?_ ?_ runs every
  · exact fun caller wrote => nomatch wrote
  · intro sessions keys caller record ended _ _ other wrote
    by_cases same : other = caller
    · subst same
      rw [Function.update_self] at wrote
      cases wrote
    · rw [Function.update_of_ne same] at wrote
      exact ended other wrote
  · intro sessions keys caller read record stored acknowledged ended state updates own found knows _
      other wrote
    have written : (keys.insert record).find? id = some record := by
      rw [← own]
      exact Table.find?_insert_self _ _
    by_cases same : other = caller
    · subst same
      constructor
      · intro isRevoke
        rw [isRevoke] at updates
        cases updates with
        | revoked active => exact ⟨_, written, Or.inl rfl⟩
      · intro isDestroy
        rw [isDestroy] at updates
        cases updates with
        | destroyed edge => exact ⟨_, written, rfl⟩
    · rw [Function.update_of_ne same] at wrote
      obtain ⟨revoked, destroyed⟩ := ended other wrote
      constructor
      · intro isRevoke
        obtain ⟨current, lookup, givenUp⟩ := revoked isRevoke
        rw [found] at lookup
        cases lookup
        obtain ⟨-, isDestroyed⟩ := updates.of_givenUp ((knows givenUp).symm ▸ givenUp)
        exact ⟨record, written, Or.inr isDestroyed⟩
      · intro isDestroy
        obtain ⟨current, lookup, isDestroyed⟩ := destroyed isDestroy
        rw [found] at lookup
        cases lookup
        have same := knows (Or.inr isDestroyed)
        obtain ⟨isRevoked, -⟩ := updates.of_givenUp (same.symm ▸ Or.inr isDestroyed)
        rw [isRevoked, isDestroyed] at same
        cases same

/-- When every write over a revoked or destroyed record comes from a caller that read it
so, a revocation or destruction that was reported stays: the key is never usable again
after the one, and destroyed for good after the other. -/
theorem revocation_final_of_knowsEnd (callers : Callers ks id calls start)
    (runs : Pool.Runs (sharedWorld admits) start trace pool)
    (every : EveryStep (PutFinds id KnowsEnd) trace) {caller : ι} {value : CallValue}
    (returned : Returned trace caller (.ok value)) :
    (calls caller = .revoke id → ∀ record, pool.shared.keys.find? id = some record →
      record.state ≠ .active ∧ record.state ≠ .rotated ∧ record.state ≠ .suspended) ∧
    (calls caller = .destroy id → ∀ record, pool.shared.keys.find? id = some record →
      record.state = .destroyed) := by
  have wrote : (sessionOf id caller trace).wrote = true := (callers.answered runs returned).1.symm
  obtain ⟨revoked, destroyed⟩ := callers.ended runs every caller wrote
  constructor
  · intro isRevoke record found
    obtain ⟨current, lookup, givenUp⟩ := revoked isRevoke
    rw [found] at lookup
    cases lookup
    rcases givenUp with state | state <;> simp [state]
  · intro isDestroy record found
    obtain ⟨current, lookup, state⟩ := destroyed isDestroy
    rw [found] at lookup
    cases lookup
    exact state

/-- An activation that read the key before its destruction brings it back. -/
theorem destroyed_key_reactivated :
    ∃ (world : World) (trace : KeyTrace Bool) (pool : KeyPool Bool),
      Reachable plainKeystore anyStep world ∧
      Pool.Runs (sharedWorld Env.Reliable) (waitingPool plainKeystore world fun caller : Bool =>
        cond caller (.destroy (keyNumbered 0)) (.activate (keyNumbered 0))) trace pool ∧
      Returned trace true (.ok .done) ∧
      ∃ record, pool.shared.keys.find? (keyNumbered 0) = some record ∧ record.state = .active := by
  obtain ⟨world, reachable, grove, -⟩ := exists_line plainKeystore_growable anyStep
    (.memory ⟨1, []⟩) .pending .pending .pending .pending (by decide)
    (fun _ _ _ _ _ _ _ => trivial)
  obtain ⟨record, version, found, planted⟩ := grove.planted 0 _ rfl
  have quiet := quietEnv_reliable 4
  let middle : World :=
    { world with keys := world.keys.insert (destroyedRecord record world.now world.now) }
  have destroys : ((Call.destroy (keyNumbered 0)).prog plainKeystore 0).run (handle (quietEnv 4))
      world = (.ok .done, middle) :=
    destroy_prog_run quiet found (by rw [planted.state]; rfl)
  have edge : record.state.canTransitionTo .active = true := by rw [planted.state]; rfl
  have resumes : Resumes (quietEnv 4) middle ((Call.activate (keyNumbered 0)).prog plainKeystore 0)
      (keyNumbered 0) record _ := (activate_resumes quiet edge).bind
  obtain ⟨next, shape, rest⟩ := resumes
  have start : Pool.Runs (sharedWorld Env.Reliable) (waitingPool plainKeystore world fun caller : Bool =>
      cond caller (.destroy (keyNumbered 0)) (.activate (keyNumbered 0))) [] _ := .refl
  obtain ⟨first, read⟩ := runs_read false quiet rfl start rfl shape found
  obtain ⟨second, destroyed, returned⟩ := runs_finish true quiet read rfl destroys
  obtain ⟨third, activated, -⟩ := runs_finish false quiet destroyed rfl rest
  refine ⟨world, _, _, reachable, activated, returned.append third, ?_⟩
  exact ⟨activatedRecord record world.now world.now, find?_insert_own planted.id, rfl⟩

/-- One caller revokes a key, and another one that reads it revoked destroys it. -/
theorem destruction_after_revocation_final :
    ∃ (world : World) (trace : KeyTrace Bool) (pool : KeyPool Bool),
      Reachable plainKeystore anyStep world ∧
      Pool.Runs (sharedWorld Env.Reliable) (waitingPool plainKeystore world fun caller : Bool =>
        cond caller (.revoke (keyNumbered 3)) (.destroy (keyNumbered 3))) trace pool ∧
      Returned trace true (.ok .done) ∧ Returned trace false (.ok .done) ∧
      ∀ record, pool.shared.keys.find? (keyNumbered 3) = some record →
        record.state ≠ .active ∧ record.state = .destroyed := by
  obtain ⟨world, reachable, grove, -⟩ := exists_line plainKeystore_growable anyStep
    (.memory ⟨1, []⟩) .active .active .active .active (by decide)
    (fun _ _ _ _ _ _ _ => trivial)
  obtain ⟨record, version, found, planted⟩ := grove.planted 3 _ rfl
  have quiet := quietEnv_reliable 4
  have atomic : ∀ env, Env.Reliable env → env.AtomicPut := fun _ reliable => reliable.atomicPut
  have knows : ∀ record, KnowsEnd record record := fun _ _ => rfl
  let revoked := revokedRecord record world.now world.now
  let middle : World := { world with keys := world.keys.insert revoked }
  have revokes : ((Call.revoke (keyNumbered 3)).prog plainKeystore 0).run (handle (quietEnv 4))
      world = (.ok .done, middle) := by
    rw [Call.prog, run_bind, revoke_run quiet found planted.state]
    rfl
  have present : middle.keys.find? (keyNumbered 3) = some revoked := find?_insert_own planted.id
  have destroys : ((Call.destroy (keyNumbered 3)).prog plainKeystore 0).run (handle (quietEnv 4))
      middle = _ := destroy_prog_run quiet present rfl
  have callers : Callers plainKeystore (keyNumbered 3)
      (fun caller : Bool => cond caller (.revoke (keyNumbered 3)) (.destroy (keyNumbered 3)))
      (waitingPool plainKeystore world _) := callers_waitingPool world (by rintro (_ | _) <;> rfl)
  obtain ⟨first, revokedRun, told, knowing, own⟩ := callers.finish_turn atomic true quiet
    .refl (List.forall_mem_nil _) everyStep_nil rfl found (knows record) revokes
  obtain ⟨second, destroyedRun, returned, every, -⟩ := callers.finish_turn atomic false quiet
    revokedRun (fun entry member => by rw [own entry member]; decide) knowing rfl present
    (knows revoked) destroys
  refine ⟨world, _, _, reachable, destroyedRun, told.append second, returned, ?_⟩
  intro last stored
  exact ⟨((revocation_final_of_knowsEnd callers destroyedRun every (told.append second)).1 rfl last
      stored).1,
    (revocation_final_of_knowsEnd callers destroyedRun every returned).2 rfl last stored⟩

/-! ### Counting uses -/

/-- A write finds the count that its caller read, and one more still fits. -/
def CountsOn (read stored : KeyMetadata) : Prop :=
  stored.usageCount = read.usageCount ∧ read.usageCount + 1 < 2 ^ 64

/-- The caller was told of success. -/
def Thread.succeeded {Op : Type} {Ret : Op → Type} {ε α : Type} : Thread Op Ret ε α → Bool
  | .running _ => false
  | .finished outcome => outcome.isOk

section Counting

variable [Fintype ι]

/-- How many callers were told of success. -/
def okCount (pool : KeyPool ι) : Nat :=
  (Finset.univ.filter fun caller => (pool.thread caller).succeeded = true).card

/-- How many callers have written. -/
def wroteCount (sessions : ι → Session) : Nat :=
  (Finset.univ.filter fun caller => (sessions caller).wrote = true).card

theorem wroteCount_write {sessions : ι → Session} {caller : ι} {read : KeyMetadata}
    (unwritten : (sessions caller).wrote = false) :
    wroteCount (Function.update sessions caller ⟨some read, true⟩) = wroteCount sessions + 1 := by
  have grown : (Finset.univ.filter fun other =>
      (Function.update sessions caller (⟨some read, true⟩ : Session) other).wrote = true) =
      insert caller (Finset.univ.filter fun other => (sessions other).wrote = true) := by
    ext other
    by_cases same : other = caller
    · subst same
      simp
    · simp [same]
  rw [wroteCount, grown, Finset.card_insert_of_notMem (by simp [unwritten]), wroteCount]

theorem wroteCount_read {sessions : ι → Session} {caller : ι} {record : KeyMetadata}
    (unwritten : (sessions caller).wrote = false) :
    wroteCount (Function.update sessions caller ⟨some record, false⟩) = wroteCount sessions := by
  have same : (Finset.univ.filter fun other =>
      (Function.update sessions caller (⟨some record, false⟩ : Session) other).wrote = true) =
      Finset.univ.filter fun other => (sessions other).wrote = true := by
    ext other
    by_cases same : other = caller
    · subst same
      simp [unwritten]
    · simp [Function.update_of_ne same]
  rw [wroteCount, same, wroteCount]

/-- The stored count is the first one and every write since, and within the limit as
soon as there was one. -/
structure Counted (ks : Keystore) (id : KeyId) (first : KeyMetadata) (sessions : ι → Session)
    (keys : Keys) : Prop where
  policy : ∀ caller read, (sessions caller).read = some read → read.policyId = first.policyId
  count : ∃ stored, keys.find? id = some stored ∧ stored.policyId = first.policyId ∧
    stored.usageCount = first.usageCount + wroteCount sessions ∧
    ∀ limit, ks.usageLimit first = some limit →
      wroteCount sessions = 0 ∨ stored.usageCount ≤ limit

theorem Callers.counted (callers : Callers ks id calls start) {first : KeyMetadata}
    (encrypting : ∀ caller, ∃ plaintext aad context,
      calls caller = .encrypt id plaintext aad context)
    (atomic : ∀ env, admits env → env.AtomicPut)
    (runs : Pool.Runs (sharedWorld admits) start trace pool)
    (every : EveryStep (PutFinds id CountsOn) trace)
    (found : start.shared.keys.find? id = some first) :
    Counted ks id first (sessions id trace) pool.shared.keys := by
  refine callers.invariant (Counted ks id first) ?_ ?_ ?_ runs every
  · refine ⟨?_, first, found, rfl, ?_, ?_⟩
    · intro caller read hasRead
      cases hasRead
    · simp [wroteCount, Session.fresh]
    · exact fun _ _ => Or.inl (by simp [wroteCount, Session.fresh])
  · intro sessions keys caller record counted fresh lookup
    obtain ⟨policy, stored, present, samePolicy, count⟩ := counted
    rw [lookup] at present
    cases present
    refine ⟨?_, record, lookup, samePolicy, ?_⟩
    · intro other read hasRead
      by_cases same : other = caller
      · subst same
        rw [Function.update_self] at hasRead
        cases hasRead
        exact samePolicy
      · rw [Function.update_of_ne same] at hasRead
        exact policy other read hasRead
    · rw [wroteCount_read (by rw [fresh]; rfl)]
      exact count
  · intro sessions keys caller read record stored wrote counted state updates own lookup counts kind
    obtain ⟨policy, current, present, samePolicy, count, limited⟩ := counted
    rw [lookup] at present
    cases present
    obtain rfl : wrote = true := by
      rcases kind with wrote | ⟨env, admitted, torn⟩
      · exact wrote
      · exact absurd (atomic env admitted) torn
    obtain ⟨plaintext, aad, context, isEncrypt⟩ := encrypting caller
    rw [isEncrypt] at updates
    have readPolicy := policy caller read (by rw [state])
    obtain ⟨same, fits⟩ := counts
    cases updates with
    | @used _ _ _ _ _ now active within =>
        have counted : (usedRecord read now).usageCount = read.usageCount + 1 :=
          Nat.mod_eq_of_lt fits
        refine ⟨?_, usedRecord read now, ?_, readPolicy, ?_, ?_⟩
        · intro other seen hasRead
          by_cases same : other = caller
          · subst same
            rw [Function.update_self] at hasRead
            cases hasRead
            exact readPolicy
          · rw [Function.update_of_ne same] at hasRead
            exact policy other seen hasRead
        · rw [← own]
          exact Table.find?_insert_self _ _
        · rw [wroteCount_write (by rw [state]), counted, ← same, count]
          omega
        · intro limit isLimit
          refine Or.inr ?_
          rw [counted]
          refine within limit ?_
          rw [Keystore.usageLimit, readPolicy]
          exact isLimit

/-- When every write of an encryption finds the count that its caller read, one more
fits the counter, and no write is stored and then reported as failed, the stored count
grows by exactly the encryptions that succeeded, and a usage limit is never passed. -/
theorem usage_counted_of_countsOn (callers : Callers ks id calls start) {first : KeyMetadata}
    (encrypting : ∀ caller, ∃ plaintext aad context,
      calls caller = .encrypt id plaintext aad context)
    (atomic : ∀ env, admits env → env.AtomicPut)
    (runs : Pool.Runs (sharedWorld admits) start trace pool)
    (every : EveryStep (PutFinds id CountsOn) trace)
    (found : start.shared.keys.find? id = some first) :
    ((∀ caller, ∃ outcome, pool.thread caller = .finished outcome) →
      ∃ stored, pool.shared.keys.find? id = some stored ∧
        stored.usageCount = first.usageCount + okCount pool) ∧
    ∀ limit, ks.usageLimit first = some limit → okCount pool ≤ limit - first.usageCount := by
  obtain ⟨-, stored, lookup, -, count, limited⟩ :=
    callers.counted encrypting atomic runs every found
  have meets := Pool.Runs.meets honours_session callers.initially runs
  have told : ∀ caller, (pool.thread caller).succeeded = true →
      (sessionOf id caller trace).wrote = true := by
    intro caller succeeded
    have met := meets caller
    cases state : pool.thread caller with
    | running program =>
        rw [state] at succeeded
        cases succeeded
    | finished outcome =>
        rw [state] at met succeeded
        exact met.1.symm.trans succeeded
  constructor
  · intro finished
    refine ⟨stored, lookup, ?_⟩
    have same : okCount pool = wroteCount (sessions id trace) := by
      refine congrArg Finset.card (Finset.filter_congr fun caller _ => ⟨told caller, ?_⟩)
      intro wrote
      obtain ⟨outcome, state⟩ := finished caller
      have met := meets caller
      rw [state] at met ⊢
      exact met.1.trans wrote
    rw [same, count]
  · intro limit isLimit
    have fewer : okCount pool ≤ wroteCount (sessions id trace) := by
      refine Finset.card_le_card ?_
      intro caller member
      simp only [Finset.mem_filter, Finset.mem_univ, true_and] at member ⊢
      exact told caller member
    rcases limited limit isLimit with none | within
    · omega
    · omega

end Counting

/-- Two encryptions that read the same record are counted once. -/
theorem two_uses_counted_once :
    ∃ (world : World) (trace : KeyTrace Bool) (pool : KeyPool Bool) (first stored : KeyMetadata),
      Reachable plainKeystore anyStep world ∧
      world.keys.find? (keyNumbered 3) = some first ∧
      Pool.Runs (sharedWorld Env.Reliable) (waitingPool plainKeystore world fun _ : Bool =>
        .encrypt (keyNumbered 3) [1] ⟨[]⟩ ⟨[]⟩) trace pool ∧
      (∀ caller, ∃ blob, pool.thread caller = .finished (.ok (.blob blob))) ∧
      pool.shared.keys.find? (keyNumbered 3) = some stored ∧
      stored.usageCount = first.usageCount + 1 := by
  obtain ⟨world, reachable, grove, -⟩ := exists_line plainKeystore_growable anyStep
    (.memory ⟨1, []⟩) .active .active .active .active (by decide) (fun _ _ _ _ _ _ _ => trivial)
  obtain ⟨sound, -⟩ := reachable.sound transparent_lawful
  obtain ⟨record, version, key, found, planted, stores⟩ :=
    grove.dataKey plainKeystore_growable sound
  have quiet := quietEnv_reliable 4
  let middle : World := { world with keys := world.keys.insert (usedRecord record world.now) }
  obtain ⟨blob, -, encrypts⟩ := planted.encrypt plainKeystore_growable stores world
    grove.resolves 4 [1] ⟨[]⟩ ⟨[]⟩ (by decide) (by decide) (by decide)
  have resolves : ResolvesTo middle.keys 10 (keyNumbered 3) (keyNumbered 1) :=
    grove.resolves.keeps (keepsPlaces_usedRecord (planted.id ▸ found))
  obtain ⟨late, -, resumes⟩ := planted.encrypt plainKeystore_growable stores middle resolves 4 [1]
    ⟨[]⟩ ⟨[]⟩ (by decide) (by decide) (by decide)
  have whole : Resumes (quietEnv 4) world ((Call.encrypt (keyNumbered 3) [1] ⟨[]⟩ ⟨[]⟩).prog
      plainKeystore 0) (keyNumbered 3) record (.ok (.blob blob), middle) := encrypts.bind
  have stale : Resumes (quietEnv 4) middle ((Call.encrypt (keyNumbered 3) [1] ⟨[]⟩ ⟨[]⟩).prog
      plainKeystore 0) (keyNumbered 3) record _ := resumes.bind
  obtain ⟨next, shape, rest⟩ := stale
  have start : Pool.Runs (sharedWorld Env.Reliable) (waitingPool plainKeystore world
      fun _ : Bool => .encrypt (keyNumbered 3) [1] ⟨[]⟩ ⟨[]⟩) [] _ := .refl
  obtain ⟨more, read⟩ := runs_read false quiet rfl start rfl shape found
  obtain ⟨more, used, -⟩ := runs_finish true quiet read rfl (whole.run rfl found)
  obtain ⟨more, usedAgain, -⟩ := runs_finish false quiet used rfl rest
  refine ⟨world, _, _, record, usedRecord record world.now, reachable, found, usedAgain, ?_,
    find?_insert_own planted.id, ?_⟩
  · intro caller
    cases caller with
    | false => exact ⟨late, rfl⟩
    | true => exact ⟨blob, rfl⟩
  · simp [usedRecord, planted.usageCount]

/-- One caller that encrypts under the data key of a line, and another one. -/
def encryptionBeside (world : World) (other : Call) : KeyPool Bool :=
  waitingPool plainKeystore world fun caller =>
    cond caller (.encrypt (keyNumbered 3) [1, 2] ⟨[3]⟩ ⟨[4]⟩) other

/-- The encryption has been made, and the other caller is about to begin. -/
structure EncryptedFirst (other : Call) (world : World) (record : KeyMetadata)
    (version : KeyVersion) (blob : EncryptedBlob) (finds : KeyMetadata → KeyMetadata → Prop)
    (trace : KeyTrace Bool) (pool : KeyPool Bool) : Prop where
  reachable : Reachable plainKeystore anyStep world
  grove : Grove world.keys (line .active .active .active .active)
  found : world.keys.find? (keyNumbered 3) = some record
  planted : Planted 3 ⟨.dataEncrypting, some 2, .active⟩ record version
  stores : ∃ key, StoresPublicKey plainKeystore version.publicKeyHex key
  callers : Callers plainKeystore (keyNumbered 3)
    (fun caller => cond caller (.encrypt (keyNumbered 3) [1, 2] ⟨[3]⟩ ⟨[4]⟩) other)
    (encryptionBeside world other)
  runs : Pool.Runs (sharedWorld Env.Reliable) (encryptionBeside world other) trace pool
  used : pool.shared = { world with keys := world.keys.insert (usedRecord record world.now) }
  waiting : pool.thread false = .running (other.prog plainKeystore 0)
  returned : Returned trace true (.ok (.blob blob))
  every : EveryStep (PutFinds (keyNumbered 3) finds) trace
  own : ∀ entry ∈ trace, entry.event.caller? = some true

/-- The encryption takes the first turn. -/
theorem exists_encryptedFirst (other : Call) (finds : KeyMetadata → KeyMetadata → Prop)
    (onKey : other.OnKey (keyNumbered 3))
    (same : ∀ record : KeyMetadata, record.usageCount = 0 → finds record record) :
    ∃ world record version blob trace pool,
      EncryptedFirst other world record version blob finds trace pool := by
  obtain ⟨world, reachable, grove, -⟩ := exists_line plainKeystore_growable anyStep
    (.memory ⟨1, []⟩) .active .active .active .active (by decide) (fun _ _ _ _ _ _ _ => trivial)
  obtain ⟨sound, -⟩ := reachable.sound transparent_lawful
  obtain ⟨record, version, key, found, planted, stores⟩ :=
    grove.dataKey plainKeystore_growable sound
  obtain ⟨blob, -, encrypts⟩ := planted.encrypt plainKeystore_growable stores world
    grove.resolves 4 [1, 2] ⟨[3]⟩ ⟨[4]⟩ (by decide) (by decide) (by decide)
  have whole : Resumes (quietEnv 4) world ((Call.encrypt (keyNumbered 3) [1, 2] ⟨[3]⟩ ⟨[4]⟩).prog
      plainKeystore 0) (keyNumbered 3) record _ := encrypts.bind
  have callers : Callers plainKeystore (keyNumbered 3)
      (fun caller => cond caller (.encrypt (keyNumbered 3) [1, 2] ⟨[3]⟩ ⟨[4]⟩) other)
      (encryptionBeside world other) := by
    refine callers_waitingPool world ?_
    rintro (_ | _)
    · exact onKey
    · rfl
  obtain ⟨first, runs, returned, every, own⟩ := callers.finish_turn
    (fun _ reliable => reliable.atomicPut) true (quietEnv_reliable 4) .refl (List.forall_mem_nil _)
    everyStep_nil rfl found (same record planted.usageCount) (whole.run rfl found)
  exact ⟨world, record, version, blob, _, _, reachable, grove, found, planted, ⟨key, stores⟩,
    callers, runs, rfl, rfl, returned, every, own⟩

/-- Two encryptions that take turns are both counted. -/
theorem uses_in_turn_counted :
    ∃ world trace pool first stored, Reachable plainKeystore anyStep world ∧
      world.keys.find? (keyNumbered 3) = some first ∧
      Pool.Runs (sharedWorld Env.Reliable) (encryptionBeside world
        (.encrypt (keyNumbered 3) [5] ⟨[]⟩ ⟨[]⟩)) trace pool ∧
      (∀ caller, ∃ blob, pool.thread caller = .finished (.ok (.blob blob))) ∧
      pool.shared.keys.find? (keyNumbered 3) = some stored ∧
      stored.usageCount = first.usageCount + okCount pool := by
  obtain ⟨world, record, version, blob, trace, pool, first⟩ := exists_encryptedFirst
    (.encrypt (keyNumbered 3) [5] ⟨[]⟩ ⟨[]⟩) CountsOn rfl
    fun _ unused => ⟨rfl, by rw [unused]; decide⟩
  obtain ⟨key, stores⟩ := first.stores
  have planted := first.planted
  let used := usedRecord record world.now
  have counted : used.usageCount = 1 := by simp [used, usedRecord, planted.usageCount]
  have present : pool.shared.keys.find? (keyNumbered 3) = some used := by
    rw [first.used]
    exact find?_insert_own planted.id
  have resolves : ResolvesTo pool.shared.keys 10 (keyNumbered 3) (keyNumbered 1) := by
    rw [first.used]
    exact first.grove.resolves.keeps (keepsPlaces_usedRecord (planted.id ▸ first.found))
  obtain ⟨later, -, encrypts⟩ := planted.encrypt_used plainKeystore_growable stores world.now
    pool.shared resolves 4 [5] ⟨[]⟩ ⟨[]⟩ (by decide) (by decide) (by decide)
  have whole : Resumes (quietEnv 4) pool.shared
      ((Call.encrypt (keyNumbered 3) [5] ⟨[]⟩ ⟨[]⟩).prog plainKeystore 0) (keyNumbered 3) used _ :=
    encrypts.bind
  obtain ⟨more, runs, answered, every, -⟩ := first.callers.finish_turn
    (fun _ reliable => reliable.atomicPut) false (quietEnv_reliable 4) first.runs
    (fun entry member => by rw [first.own entry member]; decide) first.every first.waiting present
    ⟨rfl, by rw [counted]; decide⟩ (whole.run rfl present)
  have told : ∀ caller, ∃ blob, Returned (trace ++ more) caller (.ok (.blob blob)) := by
    rintro (_ | _)
    · exact ⟨_, answered⟩
    · exact ⟨blob, first.returned.append more⟩
  have finished := fun caller => (told caller).imp fun _ => runs.finished_of_returned
  obtain ⟨stored, last, sum⟩ := (usage_counted_of_countsOn first.callers
    (by rintro (_ | _) <;> exact ⟨_, _, _, rfl⟩) (fun _ reliable => reliable.atomicPut) runs every
      first.found).1 fun caller => (finished caller).elim fun _ ended => ⟨_, ended⟩
  exact ⟨world, _, _, record, stored, first.reachable, first.found, runs, finished, last, sum⟩

/-! ### Versions -/

/-- A write finds the versions that its caller read. -/
def FindsVersions (read stored : KeyMetadata) : Prop := stored.versions = read.versions

/-- The operations that seal to a version or add one. -/
def SealsOrRotates (id : KeyId) (call : Call) : Prop :=
  call = .rotate id ∨ ∃ plaintext aad context, call = .encrypt id plaintext aad context

/-- The version that a finished encryption sealed to is still there. -/
def Retained (id : KeyId) (sessions : ι → Session) (keys : Keys) : Prop :=
  ∀ caller read, sessions caller = ⟨some read, true⟩ → ∃ stored, keys.find? id = some stored ∧
    ∀ number version, read.getVersion number = some version →
      stored.getVersion number = some version

/-- An encryption or a rotation loses no version of the record that it updates. -/
theorem Updates.getVersion {call : Call} {before record : KeyMetadata}
    (updates : Updates ks call before record) (kind : SealsOrRotates id call) {number : Nat}
    {version : KeyVersion} (found : before.getVersion number = some version) :
    record.getVersion number = some version := by
  cases updates with
  | rotated active => exact getVersion_rotatedRecord found _ _
  | used active within => exact found
  | _ => rcases kind with impossible | ⟨_, _, _, impossible⟩ <;> cases impossible

theorem Callers.retained (callers : Callers ks id calls start)
    (kinds : ∀ caller, SealsOrRotates id (calls caller))
    (runs : Pool.Runs (sharedWorld admits) start trace pool)
    (every : EveryStep (PutFinds id FindsVersions) trace) :
    Retained id (sessions id trace) pool.shared.keys := by
  refine callers.invariant (Retained id) ?_ ?_ ?_ runs every
  · exact fun caller read state => nomatch state
  · intro sessions keys caller record retained _ _ other read state
    by_cases same : other = caller
    · subst same
      rw [Function.update_self] at state
      cases state
    · rw [Function.update_of_ne same] at state
      exact retained other read state
  · intro sessions keys caller read record stored wrote retained _ updates own found finds _ other
      seen state
    have written : (keys.insert record).find? id = some record := by
      rw [← own]
      exact Table.find?_insert_self _ _
    refine ⟨record, written, ?_⟩
    intro number version lookup
    by_cases same : other = caller
    · subst same
      rw [Function.update_self] at state
      cases state
      exact updates.getVersion (kinds other) lookup
    · rw [Function.update_of_ne same] at state
      obtain ⟨current, present, kept⟩ := retained other seen state
      rw [found] at present
      cases present
      have inStored := kept number version lookup
      rw [KeyMetadata.getVersion, show stored.versions = read.versions from finds] at inStored
      exact updates.getVersion (kinds caller) inStored

/-- When every write of an encryption or a rotation finds the versions that its caller
read, the version that a blob names stays stored as the key pair it was sealed to. -/
theorem sealed_version_retained_of_findsVersions (callers : Callers ks id calls start)
    (kinds : ∀ caller, SealsOrRotates id (calls caller))
    (runs : Pool.Runs (sharedWorld admits) start trace pool)
    (every : EveryStep (PutFinds id FindsVersions) trace) {caller : ι} {plaintext : Bytes}
    {aad : Aad} {context : Context} {blob : EncryptedBlob}
    (isEncrypt : calls caller = .encrypt id plaintext aad context)
    (returned : Returned trace caller (.ok (.blob blob))) :
    ∃ read version stored, (sessionOf id caller trace).read = some read ∧
      SealsBlob ks id plaintext aad context read blob version ∧
      pool.shared.keys.find? id = some stored ∧
      stored.getVersion blob.keyVersion = some version := by
  obtain ⟨acknowledged, answered⟩ := callers.answered runs returned
  obtain ⟨read, version, hasRead, seals⟩ := answered id plaintext aad context blob isEncrypt rfl
  have state : sessions id trace caller = ⟨some read, true⟩ := by
    rw [← hasRead, show true = (sessionOf id caller trace).wrote from acknowledged]
  obtain ⟨stored, found, kept⟩ := callers.retained kinds runs every caller read state
  refine ⟨read, version, stored, hasRead, seals, found, kept _ _ ?_⟩
  rw [seals.number]
  exact seals.current

/-- A rotation between the read and the write of an encryption is lost, with the version
that another encryption has used by then. -/
theorem rotated_version_lost :
    ∃ (world : World) (trace : KeyTrace (Fin 3)) (pool : KeyPool (Fin 3)) (blob : EncryptedBlob)
        (stored : KeyMetadata), Reachable plainKeystore anyStep world ∧
      Pool.Runs (sharedWorld Env.Reliable) (waitingPool plainKeystore world fun caller : Fin 3 =>
        if caller = 1 then .rotate (keyNumbered 3)
        else .encrypt (keyNumbered 3) [1] ⟨[]⟩ ⟨[]⟩) trace pool ∧
      Returned trace 2 (.ok (.blob blob)) ∧
      pool.shared.keys.find? (keyNumbered 3) = some stored ∧
      stored.getVersion blob.keyVersion = none := by
  obtain ⟨world, reachable, grove, -⟩ := exists_line plainKeystore_growable anyStep
    (.memory ⟨1, []⟩) .active .active .active .active (by decide) (fun _ _ _ _ _ _ _ => trivial)
  obtain ⟨sound, -⟩ := reachable.sound transparent_lawful
  obtain ⟨record, version, key, found, planted, stores⟩ :=
    grove.dataKey plainKeystore_growable sound
  have quiet := quietEnv_reliable 4
  have sealable : Sealable plainKeystore world.keys (keyNumbered 3)
      ((record.currentVersion + 1) % 2 ^ 32) record.parentId := by
    rw [planted.currentVersion, planted.parentId]
    exact grove.sealable transparent_lawful sound (line_grows (by decide)) rfl (by decide) _
      (by decide)
  obtain ⟨wrapped, rotates, -⟩ := rotate_run (plainKeystore_growable.canWrap 4) found
    planted.state sealable
  let added := plainKeystore.nextVersion (quietEnv 4) record world.now wrapped
  let rotated := rotatedRecord record world.now added
  let second : World := { world with keys := world.keys.insert rotated }
  let third : World := { second with keys := second.keys.insert (usedRecord rotated world.now) }
  have rotation : ((Call.rotate (keyNumbered 3)).prog plainKeystore 0).run (handle (quietEnv 4))
      world = (.ok (.key (keyNumbered 3)), second) := by
    rw [Call.prog, run_bind, rotates]
    rfl
  have current : rotated.currentKeyVersion = some added := by
    simp [KeyMetadata.currentKeyVersion, KeyMetadata.getVersion, rotated, rotatedRecord, added,
      nextVersion, planted.versions, planted.currentVersion, planted.number]
  have pair : IsKeyPair plainKeystore _ added.publicKeyHex :=
    isKeyPair_kemKeyPair (quietEnv 4).randomness
  obtain ⟨newKey, -, newStores⟩ := pair.storesPublicKey transparent_lawful
  have own : rotated.id = keyNumbered 3 := planted.id
  have before : world.keys.find? rotated.id = some record := by
    rw [own]
    exact found
  have resolvesSecond : ResolvesTo second.keys 10 (keyNumbered 3) (keyNumbered 1) :=
    grove.resolves.keeps (KeepsPlaces.insert before rfl rfl)
  have resolvesThird : ResolvesTo third.keys 10 (keyNumbered 3) (keyNumbered 1) :=
    resolvesSecond.keeps (keepsPlaces_usedRecord (Table.find?_insert_self world.keys rotated))
  obtain ⟨ciphertext, sealed⟩ := plainKeystore_growable.sealed 4 1 newKey.publicKey
    (by decide : ([1] : Bytes).length ≤ _) (by decide : (⟨[]⟩ : Aad).inner.length ≤ _)
    (by decide : (⟨[]⟩ : Context).inner.length ≤ _)
  have encryptable : Encryptable plainKeystore (quietEnv 4) second rotated added
      newKey.publicKey :=
    encryptable_of_unbound rfl planted.keyType planted.policyId current ((newStores _).mpr rfl)
  have encrypts := encrypt_resumes quiet encryptable resolvesSecond sealed
  have whole : Resumes (quietEnv 4) second ((Call.encrypt (keyNumbered 3) [1] ⟨[]⟩ ⟨[]⟩).prog
      plainKeystore 0) (keyNumbered 3) rotated _ := encrypts.bind
  obtain ⟨late, -, resumes⟩ := planted.encrypt plainKeystore_growable stores third resolvesThird 4
    [1] ⟨[]⟩ ⟨[]⟩ (by decide) (by decide) (by decide)
  have stale : Resumes (quietEnv 4) third ((Call.encrypt (keyNumbered 3) [1] ⟨[]⟩ ⟨[]⟩).prog
      plainKeystore 0) (keyNumbered 3) record _ := resumes.bind
  obtain ⟨next, shape, rest⟩ := stale
  have start : Pool.Runs (sharedWorld Env.Reliable) (waitingPool plainKeystore world
      fun caller : Fin 3 => if caller = 1 then .rotate (keyNumbered 3)
        else .encrypt (keyNumbered 3) [1] ⟨[]⟩ ⟨[]⟩) [] _ := .refl
  obtain ⟨more, read⟩ := runs_read 0 quiet rfl start rfl shape found
  obtain ⟨more, rotatedRun, -⟩ := runs_finish 1 quiet read rfl rotation
  obtain ⟨more, used, returned⟩ := runs_finish 2 quiet rotatedRun rfl
    (whole.run rfl (find?_insert_own own))
  obtain ⟨more, usedAgain, -⟩ := runs_finish 0 quiet used rfl rest
  refine ⟨world, _, _, _, usedRecord record world.now, reachable, usedAgain, returned.append more,
    find?_insert_own planted.id, ?_⟩
  simp [KeyMetadata.getVersion, usedRecord, rotated, rotatedRecord, added, nextVersion,
    planted.versions, planted.currentVersion, planted.number]

/-- A rotation that reads the key after an encryption keeps the version of the blob. -/
theorem sealed_version_retained_after_rotation :
    ∃ world trace pool blob read version stored, Reachable plainKeystore anyStep world ∧
      Pool.Runs (sharedWorld Env.Reliable) (encryptionBeside world (.rotate (keyNumbered 3))) trace
        pool ∧
      Returned trace true (.ok (.blob blob)) ∧ Returned trace false (.ok (.key (keyNumbered 3))) ∧
      SealsBlob plainKeystore (keyNumbered 3) [1, 2] ⟨[3]⟩ ⟨[4]⟩ read blob version ∧
      pool.shared.keys.find? (keyNumbered 3) = some stored ∧
      stored.getVersion blob.keyVersion = some version := by
  obtain ⟨world, record, version, blob, trace, pool, first⟩ := exists_encryptedFirst
    (.rotate (keyNumbered 3)) FindsVersions rfl fun _ _ => rfl
  have planted := first.planted
  obtain ⟨sound, -⟩ := first.reachable.sound transparent_lawful
  let used := usedRecord record world.now
  have present : pool.shared.keys.find? (keyNumbered 3) = some used := by
    rw [first.used]
    exact find?_insert_own planted.id
  have sealable : Sealable plainKeystore pool.shared.keys (keyNumbered 3)
      ((used.currentVersion + 1) % 2 ^ 32) used.parentId := by
    have before : Sealable plainKeystore world.keys (keyNumbered 3)
        ((record.currentVersion + 1) % 2 ^ 32) record.parentId := by
      rw [planted.currentVersion, planted.parentId]
      exact first.grove.sealable transparent_lawful sound (line_grows (by decide)) rfl (by decide) _
        (by decide)
    refine before.keeps fun parent same => ?_
    rw [first.used]
    refine Table.find?_insert_of_ne _ ?_
    rw [planted.parentId] at same
    cases same
    change keyNumbered 2 ≠ record.id
    rw [planted.id]
    decide
  obtain ⟨wrapped, rotates, -⟩ :=
    rotate_run (plainKeystore_growable.canWrap 4) present planted.state sealable
  let after : World := { pool.shared with
    keys := pool.shared.keys.insert (rotatedRecord used pool.shared.now
      (plainKeystore.nextVersion (quietEnv 4) used pool.shared.now wrapped)) }
  have whole : ((Call.rotate (keyNumbered 3)).prog plainKeystore 0).run (handle (quietEnv 4))
      pool.shared = (.ok (.key (keyNumbered 3)), after) := by
    rw [Call.prog, run_bind, rotates]
    rfl
  obtain ⟨more, runs, answered, every, -⟩ := first.callers.finish_turn
    (fun _ reliable => reliable.atomicPut) false (quietEnv_reliable 4) first.runs
    (fun entry member => by rw [first.own entry member]; decide) first.every first.waiting present
    rfl whole
  have returned := first.returned.append more
  obtain ⟨read, version, stored, -, sealed, last, kept⟩ :=
    sealed_version_retained_of_findsVersions first.callers
      (by rintro (_ | _); exacts [.inl rfl, .inr ⟨_, _, _, rfl⟩]) runs every rfl returned
  exact ⟨world, _, _, blob, read, version, stored, first.reachable, runs, returned, answered,
    sealed, last, kept⟩

end Citadel
