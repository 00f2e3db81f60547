import Citadel.Keystore.DecryptEffect
import Citadel.Keystore.Sharing

/-!
# Replayed ciphertexts

Any number of decryptions run at once, their storage and replay store calls in any
order. A decryption claims the replay key of its blob before it opens anything and
gives the claim back when it fails, so two decryptions of one ciphertext that succeed
have made their claims at least one time to live apart. What the claims say nothing
about is when the callers get their answers.
-/

namespace Citadel

open Envelope Program Keystore

/-! ### One decryption -/

/-- Where a call stands with its replay key. -/
inductive Slot where
  | unclaimed
  | held (key : Bytes)
  | closed
  deriving DecidableEq, Repr

/-- What an answer does to the slot. -/
def Slot.see (slot : Slot) : (op : Op) → op.Ret → Slot
  | .claim key, .ok true => .held key
  | .claim _, _ => .closed
  | .release _, _ => .closed
  | _, _ => slot

/-- A call writes no record, claims once and releases only what it holds. -/
def Slot.Allows (isKey : Bytes → Prop) (slot : Slot) : Op → Prop
  | .put _ => False
  | .claim key => slot = .unclaimed ∧ isKey key
  | .release key => slot = .held key
  | _ => True

/-- An answer about a key comes from the table. -/
def Op.ReadsFrom (keys : Keys) : (op : Op) → op.Ret → Prop
  | .get id, answer => ∀ found, answer = .ok found → found = keys.find? id
  | _, _ => True

/-- The contract of a call that claims a replay key over a fixed table of keys. -/
def claiming (keys : Keys) (isKey : Bytes → Prop) : Contract Op Op.Ret where
  Ghost := Slot
  Allows := Slot.Allows isKey
  Expects _ op answer := op.ReadsFrom keys answer
  after slot op answer := slot.see op answer

namespace Keystore

variable {ks : Keystore} {keys : Keys} {isKey : Bytes → Prop} {slot : Slot} {ε α β : Type}

theorem neutral_of_claiming (op : Op) (reads : op.Reads) :
    (claiming keys isKey).Allows slot op ∧
      ∀ answer, (claiming keys isKey).after slot op answer = slot := by
  cases op with
  | put record => exact reads.elim
  | claim key => exact reads.elim
  | release key => exact reads.elim
  | _ => exact ⟨trivial, fun _ => rfl⟩

/-- The rule for a reading part. -/
theorem claiming_reads {program : Prog ε α} {continuation : α → Prog ε β}
    {post : Slot → Outcome ε β → Prop} (reads : program.Uses Op.Reads)
    (value : ∀ value, (continuation value).Meets (claiming keys isKey) slot post)
    (error : ∀ error, post slot (.err error)) (aborted : ∀ why, post slot (.aborted why)) :
    (program >>= continuation).Meets (claiming keys isKey) slot post := by
  refine Meets.bind ((Meets.ofUses reads neutral_of_claiming).mono ?_)
  rintro state outcome rfl
  cases outcome with
  | ok result => exact value result
  | err problem => exact error problem
  | aborted why => exact aborted why

/-- A record that was read is the one in the table. -/
theorem get_claiming (id : KeyId) :
    (get id).Meets (claiming keys isKey) slot fun final outcome => final = slot ∧
      ∀ record, outcome = .ok record → keys.find? id = some record := by
  refine ⟨trivial, ?_⟩
  rintro (error | _ | record) expected
  · refine ⟨rfl, ?_⟩
    rintro _ ⟨⟩
  · refine ⟨rfl, ?_⟩
    rintro _ ⟨⟩
  · refine ⟨rfl, ?_⟩
    rintro _ ⟨⟩
    exact (expected _ rfl).symm

/-- A domain that was resolved is the one in the table. -/
theorem resolveDomainFrom_claiming (start : KeyId) (left depth : Nat) (current : KeyId) :
    (resolveDomainFrom start left depth current).Meets (claiming keys isKey) slot
      fun final outcome => final = slot ∧
        ∀ domainId, outcome = .ok domainId → ResolvesTo keys left current domainId := by
  induction left generalizing depth current with
  | zero => exact ⟨rfl, fun _ done => by cases done⟩
  | succ left ih =>
      rw [resolveDomainFrom]
      refine Meets.bind ((get_claiming current).mono ?_)
      rintro state outcome ⟨rfl, reads⟩
      cases outcome with
      | err error => exact ⟨rfl, fun _ done => by cases done⟩
      | aborted why => exact ⟨rfl, fun _ done => by cases done⟩
      | ok record =>
          have found := reads record rfl
          have own : record.id = current := Table.key_of_find? found
          dsimp only [bindPost]
          split
          · rename_i isDomain
            refine ⟨rfl, ?_⟩
            rintro _ ⟨⟩
            rw [own]
            exact .domain found isDomain
          · exact ⟨rfl, fun _ done => by cases done⟩
          · rename_i notDomain notRoot
            cases child : record.parentId with
            | none => exact ⟨rfl, fun _ done => by cases done⟩
            | some parentId =>
                refine (ih (depth + 1) parentId).mono ?_
                rintro final outcome ⟨rfl, resolves⟩
                exact ⟨rfl, fun domainId done =>
                  .parent found notDomain notRoot child (resolves domainId done)⟩

/-- How a decryption ends: with its claim in hand if it succeeded. -/
def Claimed (ks : Keystore) (keys : Keys) (blob : EncryptedBlob) (slot : Slot)
    (outcome : Outcome ε α) : Prop :=
  outcome.isOk = true → ∃ key, slot = .held key ∧ ReplayKey ks keys blob key

/-- How a decryption settles its claim: it keeps it if it succeeded and holds none if it
failed. -/
def Settled (ks : Keystore) (keys : Keys) (blob : EncryptedBlob) (slot : Slot)
    (outcome : Outcome ε α) : Prop :=
  Claimed ks keys blob slot outcome ∧
    ∀ error, outcome = .err error → ∀ key, slot ≠ .held key

theorem Settled.refused {blob : EncryptedBlob} {outcome : Outcome ε α}
    (refused : outcome.isOk = false) (free : ∀ key, slot ≠ .held key) :
    Settled ks keys blob slot outcome := by
  constructor
  · intro done
    rw [refused] at done
    cases done
  · exact fun _ _ => free

theorem Settled.unclaimed {blob : EncryptedBlob} {outcome : Outcome ε α}
    (refused : outcome.isOk = false) : Settled ks keys blob .unclaimed outcome := by
  apply Settled.refused refused
  intro key same
  cases same

theorem Settled.aborted {blob : EncryptedBlob} {why : Abort} :
    Settled ks keys blob slot (.aborted why : Outcome ε α) :=
  ⟨nofun, nofun⟩

theorem Settled.mapErr {blob : EncryptedBlob} {δ : Type} {translate : ε → δ}
    {outcome : Outcome ε α} (settled : Settled ks keys blob slot outcome) :
    Settled ks keys blob slot (outcome.mapErr translate) := by
  constructor
  · intro done
    rw [Outcome.isOk_mapErr] at done
    exact settled.1 done
  · rintro error failed
    cases outcome with
    | err problem => exact settled.2 problem rfl
    | ok value => cases failed
    | aborted why => cases failed

theorem releaseAndFail_settles {blob : EncryptedBlob} {key : Bytes} :
    (releaseAndFail key : Prog String α).Meets (claiming keys isKey) (.held key)
      (Settled ks keys blob) :=
  ⟨rfl, fun _ _ => .refused rfl nofun⟩

/-- Once it holds the claim, a decryption keeps it or fails. -/
theorem openClaimed_settles {blob : EncryptedBlob} {keyId domainId : KeyId} {version : KeyVersion}
    {ciphertext key : Bytes} {aad : Aad} {context : Context}
    (isReplayKey : ReplayKey ks keys blob key) :
    (ks.openClaimed keyId version domainId ciphertext key aad context).Meets (claiming keys isKey)
      (.held key) (Settled ks keys blob) := by
  unfold openClaimed
  refine Meets.bind (Meets.attempt ((Meets.ofUses (unwrapKeyVersionInner_reads _ _ _ _)
    neutral_of_claiming).mono ?_))
  rintro state (skBytes | error | why) rfl
  · dsimp only [Outcome.attempt, bindPost]
    split
    · exact releaseAndFail_settles
    · split
      · exact releaseAndFail_settles
      · exact ⟨fun _ => ⟨key, rfl, isReplayKey⟩, nofun⟩
  · exact releaseAndFail_settles
  · exact .aborted

/-- A decryption claims the replay key of its blob, once, and settles the claim. -/
theorem decrypt_settles (blob : EncryptedBlob) (aad : Aad) (context : Context) :
    (ks.decrypt blob aad context).Meets (claiming keys (ReplayKey ks keys blob)) .unclaimed
      (Settled ks keys blob) := by
  refine Meets.mapErr (Meets.mono ?_ fun _ _ => Settled.mapErr)
  refine claiming_reads (get_reads _).mapErr (fun record => ?_) (fun _ => .unclaimed rfl)
    fun _ => .aborted
  split
  · exact .unclaimed rfl
  refine claiming_reads (evaluateEffective_reads record) (fun verdict => ?_)
    (fun _ => .unclaimed rfl) fun _ => .aborted
  split
  · exact .unclaimed rfl
  refine claiming_reads uses_ofOption (fun version => ?_) (fun _ => .unclaimed rfl)
    fun _ => .aborted
  cases decodes : hexDecode (utf8 blob.ciphertextHex) with
  | error problem => exact .unclaimed rfl
  | ok ciphertext =>
      simp only [Program.ofExcept, ret_bind]
      split
      · exact .unclaimed rfl
      refine Meets.bind (Meets.mapErr ((resolveDomainFrom_claiming _ _ _ _).mono ?_))
      rintro state outcome ⟨rfl, resolved⟩
      cases outcome with
      | err error => exact .unclaimed rfl
      | aborted why => exact .aborted
      | ok domainId =>
          have resolves := resolved domainId rfl
          dsimp only [Outcome.mapErr, bindPost]
          cases carries : envelopeNonce ciphertext with
          | error problem => exact .unclaimed rfl
          | ok nonce =>
              have isReplayKey : ReplayKey ks keys blob _ :=
                ⟨domainId, ciphertext, nonce, resolves, decodes, carries, rfl⟩
              refine ⟨⟨rfl, isReplayKey⟩, ?_⟩
              rintro (error | _ | _) -
              · exact .refused rfl fun key same => by cases same
              · exact .refused rfl fun key same => by cases same
              · exact openClaimed_settles isReplayKey

/-- A decryption ends with its claim in hand if it succeeds. -/
theorem decrypt_claiming (blob : EncryptedBlob) (aad : Aad) (context : Context) :
    (ks.decrypt blob aad context).Meets (claiming keys (ReplayKey ks keys blob)) .unclaimed
      (Claimed ks keys blob) :=
  (decrypt_settles blob aad context).mono fun _ _ settled => settled.1

end Keystore

/-! ### Decryptions at once -/

variable {ι : Type} [DecidableEq ι] {ks : Keystore} {blobs : ι → EncryptedBlob}
  {admits : Env → Prop} {start pool : KeyPool ι} {trace : KeyTrace ι} {keys : Keys}
  {store : ReplayStore} {world after : World}

/-- Every caller decrypts a blob, and none has begun. -/
def Decryptors (ks : Keystore) (blobs : ι → EncryptedBlob) (start : KeyPool ι) : Prop :=
  ∀ caller, ∃ aad context fuel,
    start.thread caller = .running ((Call.decrypt (blobs caller) aad context).prog ks fuel)

/-- From the first to the last step of a call no more than `limit` passes. -/
def CallsWithin (limit : Nat) (trace : KeyTrace ι) : Prop :=
  ∀ first ∈ trace, ∀ last ∈ trace, ∀ caller, first.event.caller? = some caller →
    last.event.caller? = some caller → last.before.now ≤ first.before.now + limit

/-- A caller got the claim on a replay key at an instant. -/
def ClaimedAt (trace : KeyTrace ι) (caller : ι) (key : Bytes) (time : Nat) : Prop :=
  ∃ entry ∈ trace, entry.before.now = time ∧
    entry.event = .performed caller (.claim key) (.ok true)

/-- Where each caller stands with its replay key. -/
def slots (trace : KeyTrace ι) (caller : ι) : Slot :=
  (claiming Table.empty fun _ => True).ghostOf .unclaimed caller trace

/-- Whoever holds a claim made it at an instant, at which the replay store keeps it for
one time to live, so two holders of one key made their claims that far apart. -/
structure Guarded (keys : Keys) (store : ReplayStore) (slots : ι → Slot)
    (claimed : ι → Bytes → Nat → Prop) (world : World) : Prop where
  keys : world.keys = keys
  clock : world.replay.SameClock store
  fresh : ∀ caller key time, slots caller = .unclaimed → ¬ claimed caller key time
  held : ∀ caller key, slots caller = .held key → ∃ time, claimed caller key time
  own : ∀ caller key other time, slots caller = .held key → claimed caller other time →
    other = key ∧ time ≤ world.now
  entered : ∀ caller key time, slots caller = .held key → claimed caller key time →
    world.now < time + store.ttl → (key, store.stamp time) ∈ world.replay.entries
  apart : ∀ left right key first second, left ≠ right → slots left = .held key →
    slots right = .held key → claimed left key first → claimed right key second →
    first + store.ttl ≤ second ∨ second + store.ttl ≤ first

variable {before : ι → Slot} {claimed : ι → Bytes → Nat → Prop}

omit [DecidableEq ι] in
/-- A step that grants no claim: some callers may be done with theirs, and what the others
hold stays in the store. -/
theorem Guarded.move {later : ι → Slot} (guarded : Guarded keys store before claimed world)
    (shrinks : ∀ caller, later caller = before caller ∨ later caller = .closed)
    (sameKeys : after.keys = world.keys) (clock : after.replay.SameClock world.replay)
    (le : world.now ≤ after.now)
    (stays : ∀ caller key time, later caller = .held key → claimed caller key time →
      after.now < time + store.ttl → (key, store.stamp time) ∈ after.replay.entries) :
    Guarded keys store later claimed after := by
  have heldBefore : ∀ caller key, later caller = .held key → before caller = .held key := by
    intro caller key holds
    rcases shrinks caller with same | closed
    · rw [← same, holds]
    · rw [closed] at holds
      cases holds
  refine ⟨sameKeys.trans guarded.keys, clock.trans guarded.clock, ?_, ?_, ?_, stays, ?_⟩
  · intro caller key time unclaimed
    rcases shrinks caller with same | closed
    · rw [same] at unclaimed
      exact guarded.fresh caller key time unclaimed
    · rw [closed] at unclaimed
      cases unclaimed
  · intro caller key holds
    exact guarded.held caller key (heldBefore caller key holds)
  · intro caller key other time holds claimedOther
    obtain ⟨same, early⟩ := guarded.own caller key other time (heldBefore caller key holds)
      claimedOther
    exact ⟨same, early.trans le⟩
  · intro left right key first second different leftHolds rightHolds
    exact guarded.apart left right key first second different (heldBefore left key leftHolds)
      (heldBefore right key rightHolds)

omit [DecidableEq ι] in
/-- A claim that is not yet one time to live old still counts. -/
theorem Guarded.live (guarded : Guarded keys store before claimed world) {caller : ι}
    {key : Bytes} {time : Nat} (holds : before caller = .held key)
    (made : claimed caller key time) (recent : world.now < time + store.ttl) :
    (key, store.stamp time) ∈ world.replay.liveEntries world.now := by
  have early := (guarded.own caller key key time holds made).2
  refine List.mem_filter.mpr ⟨guarded.entered caller key time holds made recent, ?_⟩
  rw [guarded.clock.live]
  exact ReplayStore.live_stamp_of_lt early recent

/-- A claim is granted, to a caller that had none. -/
theorem Guarded.grant (guarded : Guarded keys store before claimed world) {actor : ι} {key : Bytes}
    {granted : ι → Bytes → Nat → Prop} (unclaimed : before actor = .unclaimed)
    (absent : (world.replay.liveEntries world.now).contains key = false)
    (sameKeys : after.keys = world.keys) (sameNow : after.now = world.now)
    (clock : after.replay.SameClock world.replay)
    (entries : after.replay.entries =
      (key, world.replay.stamp world.now) :: world.replay.liveEntries world.now)
    (adds : ∀ caller other time, granted caller other time ↔
      claimed caller other time ∨ caller = actor ∧ other = key ∧ time = world.now) :
    Guarded keys store (Function.update before actor (.held key)) granted after := by
  have nobody : ∀ caller time, before caller = .held key → claimed caller key time →
      time + store.ttl ≤ world.now := by
    intro caller time holds made
    by_contra recent
    have member := guarded.live holds made (by omega)
    have present := Claims.contains_iff.mpr ⟨_, member⟩
    rw [absent] at present
    cases present
  have actors : ∀ other time, granted actor other time → other = key ∧ time = world.now := by
    intro other time made
    rcases (adds actor other time).mp made with old | ⟨-, same⟩
    · exact absurd old (guarded.fresh actor other time unclaimed)
    · exact same
  have others : ∀ caller other time, caller ≠ actor → granted caller other time →
      claimed caller other time := by
    intro caller other time different made
    rcases (adds caller other time).mp made with old | ⟨same, -⟩
    · exact old
    · exact absurd same different
  refine ⟨sameKeys.trans guarded.keys, clock.trans guarded.clock, ?_, ?_, ?_, ?_, ?_⟩
  · intro caller other time fresh made
    by_cases same : caller = actor
    · subst same
      rw [Function.update_self] at fresh
      cases fresh
    · rw [Function.update_of_ne same] at fresh
      exact guarded.fresh caller other time fresh (others caller other time same made)
  · intro caller other holds
    by_cases same : caller = actor
    · subst same
      rw [Function.update_self] at holds
      cases holds
      exact ⟨world.now, (adds caller key world.now).mpr (.inr ⟨rfl, rfl, rfl⟩)⟩
    · rw [Function.update_of_ne same] at holds
      obtain ⟨time, made⟩ := guarded.held caller other holds
      exact ⟨time, (adds caller other time).mpr (.inl made)⟩
  · intro caller mine other time holds made
    rw [sameNow]
    by_cases same : caller = actor
    · subst same
      rw [Function.update_self] at holds
      cases holds
      obtain ⟨rfl, rfl⟩ := actors other time made
      exact ⟨rfl, le_rfl⟩
    · rw [Function.update_of_ne same] at holds
      exact guarded.own caller mine other time holds (others caller other time same made)
  · intro caller mine time holds made recent
    rw [entries]
    rw [sameNow] at recent
    by_cases same : caller = actor
    · subst same
      rw [Function.update_self] at holds
      cases holds
      obtain ⟨-, rfl⟩ := actors key time made
      rw [guarded.clock.stamp]
      exact List.mem_cons_self
    · rw [Function.update_of_ne same] at holds
      exact List.mem_cons_of_mem _
        (guarded.live holds (others caller mine time same made) recent)
  · intro left right mine first second different leftHolds rightHolds leftMade rightMade
    by_cases leftActs : left = actor
    · subst leftActs
      rw [Function.update_self] at leftHolds
      cases leftHolds
      rw [Function.update_of_ne (Ne.symm different)] at rightHolds
      obtain ⟨-, rfl⟩ := actors key first leftMade
      exact .inr (nobody right second rightHolds
        (others right key second (Ne.symm different) rightMade))
    · rw [Function.update_of_ne leftActs] at leftHolds
      have leftOld := others left mine first leftActs leftMade
      by_cases rightActs : right = actor
      · subst rightActs
        rw [Function.update_self] at rightHolds
        cases rightHolds
        obtain ⟨-, rfl⟩ := actors key second rightMade
        exact .inl (nobody left first leftHolds leftOld)
      · rw [Function.update_of_ne rightActs] at rightHolds
        exact guarded.apart left right mine first second different leftHolds rightHolds leftOld
          (others right mine second rightActs rightMade)

/-! ### Traces -/

omit [DecidableEq ι] in
theorem claimedAt_snoc {entry : Entry World ι Op Op.Ret CallError CallValue} {caller : ι}
    {key : Bytes} {time : Nat} :
    ClaimedAt (trace ++ [entry]) caller key time ↔ ClaimedAt trace caller key time ∨
      entry.before.now = time ∧ entry.event = .performed caller (.claim key) (.ok true) := by
  simp only [ClaimedAt, List.mem_append, List.mem_singleton, or_and_right, exists_or,
    exists_eq_left]

omit [DecidableEq ι] in
/-- A step that is not the grant of a claim. -/
theorem claimedAt_snoc_of_ne {entry : Entry World ι Op Op.Ret CallError CallValue}
    (other : ∀ caller key, entry.event ≠ .performed caller (.claim key) (.ok true)) :
    ClaimedAt (trace ++ [entry]) = ClaimedAt trace := by
  funext caller key time
  rw [eq_iff_iff, claimedAt_snoc]
  constructor
  · rintro (old | ⟨-, granted⟩)
    · exact old
    · exact absurd granted (other caller key)
  · exact .inl

theorem slots_performed {caller : ι} {op : Op} {answer : op.Ret} :
    slots (trace ++ [⟨world, .performed caller op answer⟩]) =
      Function.update (slots trace) caller ((slots trace caller).see op answer) := by
  funext other
  by_cases same : other = caller
  · subst same
    rw [Function.update_self]
    exact Contract.ghostOf_performed_self
  · rw [Function.update_of_ne same]
    exact Contract.ghostOf_performed_other (Ne.symm same)

theorem slots_returned {caller : ι} {outcome : Outcome CallError CallValue} :
    slots (trace ++ [⟨world, .returned caller outcome⟩]) = slots trace := by
  funext other
  exact Contract.ghostOf_returned

theorem slots_drifted : slots (trace ++ [⟨world, .drifted⟩]) = slots trace := by
  funext other
  exact Contract.ghostOf_drifted

omit [DecidableEq ι] in
theorem CallsWithin.of_append {limit : Nat} {more : KeyTrace ι}
    (within : CallsWithin limit (trace ++ more)) : CallsWithin limit trace :=
  fun first early last late =>
    within first (List.mem_append_left more early) last (List.mem_append_left more late)

/-- A caller is done with its claim, and the store keeps what the others hold. -/
theorem Guarded.close (guarded : Guarded keys store before claimed world) {actor : ι}
    (sameKeys : after.keys = world.keys) (sameNow : after.now = world.now)
    (clock : after.replay.SameClock world.replay)
    (stays : ∀ caller key time, caller ≠ actor → before caller = .held key →
      claimed caller key time → world.now < time + store.ttl →
      (key, store.stamp time) ∈ after.replay.entries) :
    Guarded keys store (Function.update before actor .closed) claimed after := by
  refine guarded.move ?_ sameKeys clock sameNow.ge ?_
  · intro caller
    by_cases same : caller = actor
    · subst same
      exact .inr (Function.update_self _ _ _)
    · exact .inl (Function.update_of_ne same _ _)
  · intro caller key time holds made recent
    by_cases same : caller = actor
    · subst same
      rw [Function.update_self] at holds
      cases holds
    · rw [Function.update_of_ne same] at holds
      rw [sameNow] at recent
      exact stays caller key time same holds made recent

/-- One operation keeps the claims apart, if a release comes less than one time to live
after the claim that it gives back. -/
theorem Guarded.perform {actor : ι} {op : Op} {answer : op.Ret} {isKey : Bytes → Prop}
    (guarded : Guarded keys store (slots trace) (ClaimedAt trace) world)
    (allowed : Slot.Allows isKey (slots trace actor) op)
    (answers : (sharedWorld admits).Answers world op answer after)
    (prompt : ∀ key time, op = .release key → ClaimedAt trace actor key time →
      world.now < time + store.ttl) :
    Guarded keys store (slots (trace ++ [⟨world, .performed actor op answer⟩]))
      (ClaimedAt (trace ++ [⟨world, .performed actor op answer⟩])) after := by
  obtain ⟨env, -, answered⟩ := answers
  rw [slots_performed]
  cases op with
  | put record => exact allowed.elim
  | claim key =>
      obtain ⟨clock, spec⟩ := world.replay.claim_spec key world.now env.flushed
      obtain ⟨given, rfl⟩ := Prod.mk.inj answered
      rw [given] at spec
      match answer with
      | .ok true =>
          refine guarded.grant allowed.1 spec.1 rfl rfl clock spec.2 fun caller other time => ?_
          rw [claimedAt_snoc]
          constructor
          · rintro (old | ⟨rfl, ⟨⟩⟩)
            · exact .inl old
            · exact .inr ⟨rfl, rfl, rfl⟩
          · rintro (old | ⟨rfl, rfl, rfl⟩)
            · exact .inl old
            · exact .inr ⟨rfl, rfl⟩
      | .ok false =>
          rw [claimedAt_snoc_of_ne (by rintro _ _ ⟨⟩)]
          refine guarded.close rfl rfl clock fun caller other time _ holds made recent => ?_
          rw [spec.2]
          exact guarded.live holds made recent
      | .error error =>
          rw [claimedAt_snoc_of_ne (by rintro _ _ ⟨⟩)]
          refine guarded.close rfl rfl clock fun caller other time _ holds made recent => ?_
          rw [spec.2]
          exact guarded.live holds made recent
  | release key =>
      obtain ⟨clock, removed⟩ := world.replay.release_spec key world.now env.flushed
      obtain ⟨-, rfl⟩ := Prod.mk.inj answered
      rw [claimedAt_snoc_of_ne (by rintro _ _ ⟨⟩)]
      refine guarded.close rfl rfl clock fun caller other time different holds made recent => ?_
      rw [removed]
      refine Claims.mem_remove.mpr ⟨guarded.entered caller other time holds made recent, ?_⟩
      -- another holder of the key would have claimed it within one time to live
      rintro rfl
      have mine : slots trace actor = .held other := allowed
      obtain ⟨first, claimedFirst⟩ := guarded.held actor other mine
      have soon := prompt other first rfl claimedFirst
      have early := (guarded.own actor other other first mine claimedFirst).2
      have earlyToo := (guarded.own caller other other time holds made).2
      rcases guarded.apart actor caller other first time (Ne.symm different) mine holds claimedFirst
        made with before | before
      · omega
      · omega
  | _ =>
      obtain ⟨-, rfl⟩ := Prod.mk.inj answered
      rw [claimedAt_snoc_of_ne (by rintro _ _ ⟨⟩)]
      simpa [Slot.see] using guarded

/-! ### Whole runs -/

/-- An operation that a decryption may perform leaves the stored keys alone. -/
theorem keys_of_claiming {op : Op} {answer : op.Ret} {slot : Slot} {isKey : Bytes → Prop}
    (allowed : slot.Allows isKey op)
    (answers : (sharedWorld admits).Answers world op answer after) : after.keys = world.keys := by
  obtain ⟨env, -, answered⟩ := answers
  cases op with
  | put record => exact allowed.elim
  | _ =>
      obtain ⟨-, rfl⟩ := Prod.mk.inj answered
      rfl

/-- The shared world answers from its table. -/
theorem readsFrom_of_answers {op : Op} {answer : op.Ret}
    (answers : (sharedWorld admits).Answers world op answer after) :
    op.ReadsFrom world.keys answer := by
  obtain ⟨env, -, answered⟩ := answers
  cases op with
  | get id =>
      obtain ⟨given, -⟩ := Prod.mk.inj answered
      rintro found rfl
      exact eq_of_faulty_eq_ok given
  | _ => trivial

omit [DecidableEq ι] in
theorem Decryptors.initially (decryptors : Decryptors ks blobs start) (caller : ι) :
    Pool.ThreadMeets (claiming keys (ReplayKey ks keys (blobs caller))) .unclaimed
      (Claimed ks keys (blobs caller)) (start.thread caller) := by
  obtain ⟨aad, context, fuel, begun⟩ := decryptors caller
  rw [begun]
  refine Meets.bind ((decrypt_claiming (blobs caller) aad context).mono ?_)
  rintro slot (plaintext | error | why) claimed
  · exact fun _ => claimed rfl
  · exact nofun
  · exact nofun

omit [DecidableEq ι] in
theorem guarded_initially (world : World) :
    Guarded world.keys world.replay (fun _ : ι => Slot.unclaimed) (ClaimedAt []) world where
  keys := rfl
  clock := .refl _
  fresh := by
    rintro caller key time - ⟨entry, member, -⟩
    cases member
  held := nofun
  own := nofun
  entered := nofun
  apart := nofun

/-- While every call takes less than one time to live, the claims are kept apart. -/
theorem Decryptors.guarded (decryptors : Decryptors ks blobs start)
    (runs : Pool.Runs (sharedWorld admits) start trace pool) {limit : Nat}
    (short : limit < start.shared.replay.ttl) (within : CallsWithin limit trace) :
    Guarded start.shared.keys start.shared.replay (slots trace) (ClaimedAt trace) pool.shared ∧
      ∀ caller, Pool.ThreadMeets
        (claiming start.shared.keys (ReplayKey ks start.shared.keys (blobs caller)))
        (slots trace caller) (Claimed ks start.shared.keys (blobs caller))
        (pool.thread caller) := by
  refine And.imp_left (fun held => held.2 within) (Pool.Runs.rely (fun past (world : World) =>
    world.keys = start.shared.keys ∧ (CallsWithin limit past →
      Guarded start.shared.keys start.shared.replay (slots past) (ClaimedAt past) world))
    ?_ decryptors.initially ?_ ?_ ?_ ?_ runs)
  · rintro past world caller slot op answer after ⟨same, -⟩ answers
    have reads := readsFrom_of_answers answers
    rwa [same] at reads
  · exact ⟨rfl, fun _ => guarded_initially start.shared⟩
  · rintro past world caller op answer after ⟨same, guarded⟩ allowed answers
    refine ⟨(keys_of_claiming allowed answers).trans same, fun within => ?_⟩
    refine (guarded within.of_append).perform allowed answers ?_
    rintro key time rfl ⟨entry, member, rfl, granted⟩
    have soon := within entry (List.mem_append_left _ member)
      ⟨world, .performed caller (.release key) answer⟩ (by simp) caller (by rw [granted]; rfl) rfl
    exact lt_of_le_of_lt soon (by omega)
  · rintro past world caller outcome ⟨same, guarded⟩ -
    refine ⟨same, fun within => ?_⟩
    rw [slots_returned, claimedAt_snoc_of_ne (by rintro _ _ ⟨⟩)]
    exact guarded within.of_append
  · rintro past world after ⟨same, guarded⟩ ⟨later, le, rfl⟩
    refine ⟨same, fun within => ?_⟩
    rw [slots_drifted, claimedAt_snoc_of_ne (by rintro _ _ ⟨⟩)]
    have earlier := guarded within.of_append
    refine earlier.move (fun _ => .inl rfl) rfl (.refl _) le ?_
    intro caller key time holds made recent
    exact earlier.entered caller key time holds made (le.trans_lt recent)

/-- Decryptions of one ciphertext that succeed have made their claims at least one time
to live apart, whatever else is decrypted in between, as long as every call takes less
than that. -/
theorem decryptions_claim_apart (decryptors : Decryptors ks blobs start)
    (runs : Pool.Runs (sharedWorld admits) start trace pool) {limit : Nat}
    (short : limit < start.shared.replay.ttl) (within : CallsWithin limit trace)
    {left right : ι} (different : left ≠ right)
    (sameKey : (blobs left).keyId = (blobs right).keyId)
    (sameVersion : (blobs left).keyVersion = (blobs right).keyVersion)
    (sameBytes : hexDecode (utf8 (blobs left).ciphertextHex) =
      hexDecode (utf8 (blobs right).ciphertextHex))
    {leftValue rightValue : CallValue} (leftOk : Returned trace left (.ok leftValue))
    (rightOk : Returned trace right (.ok rightValue)) :
    (∃ key time, ClaimedAt trace left key time) ∧ (∃ key time, ClaimedAt trace right key time) ∧
      ∀ leftKey rightKey first second, ClaimedAt trace left leftKey first →
        ClaimedAt trace right rightKey second →
        first + start.shared.replay.ttl ≤ second ∨ second + start.shared.replay.ttl ≤ first := by
  obtain ⟨guarded, meets⟩ := decryptors.guarded runs short within
  have holding : ∀ caller value, Returned trace caller (.ok value) → ∃ key,
      slots trace caller = .held key ∧ ReplayKey ks start.shared.keys (blobs caller) key := by
    intro caller value returned
    have claimed := meets caller
    rw [runs.finished_of_returned returned] at claimed
    exact claimed rfl
  obtain ⟨key, leftHolds, isLeft⟩ := holding left leftValue leftOk
  obtain ⟨other, rightHolds, isRight⟩ := holding right rightValue rightOk
  obtain rfl := isLeft.unique sameKey sameVersion sameBytes isRight
  refine ⟨⟨key, guarded.held left key leftHolds⟩, ⟨key, guarded.held right key rightHolds⟩, ?_⟩
  intro leftKey rightKey first second leftMade rightMade
  obtain ⟨rfl, -⟩ := guarded.own left key leftKey first leftHolds leftMade
  obtain ⟨rfl, -⟩ := guarded.own right leftKey rightKey second rightHolds rightMade
  exact guarded.apart left right rightKey first second different leftHolds rightHolds leftMade
    rightMade

/-! ### Two answers within one time to live -/

theorem handle_now {env : Env} (op : Op) (world : World) :
    (handle env op world).2.now = world.now := by
  cases op with
  | put record =>
      simp only [handle]
      cases env.putOutcome record.id with
      | stored => rfl
      | refused error => rfl
      | storedThenFailed error => rfl
  | _ => rfl

/-- A caller decrypts a readable blob while its replay slot is free, at one instant, and
has not returned yet. -/
theorem exists_played {blob : EncryptedBlob} (caller : ι)
    (runs : Pool.Runs (sharedWorld Env.Reliable) start trace pool)
    (waiting : pool.thread caller =
      .running ((Call.decrypt blob ⟨[]⟩ ⟨[]⟩).prog plainKeystore 0))
    (free : SlotFree plainKeystore pool.shared blob)
    (reads : Decrypts plainKeystore (quietEnv 4) pool.shared blob ⟨[]⟩ ⟨[]⟩ [1]) :
    ∃ more after, Pool.Runs (sharedWorld Env.Reliable) start (trace ++ more)
        ⟨after, Function.update pool.thread caller (.running (.ret (.plaintext [1])))⟩ ∧
      Decrypted plainKeystore pool.shared blob after (.ok [1] : Outcome CallError Bytes) ∧
      ∀ entry ∈ more, entry.event.caller? = some caller ∧
        entry.before.now = pool.shared.now := by
  have answers : ∀ op state, (sharedWorld Env.Reliable).Answers state op
      (handle (quietEnv 4) op state).1 (handle (quietEnv 4) op state).2 :=
    fun op state => ⟨quietEnv 4, quietEnv_reliable 4, rfl⟩
  obtain ⟨after, ran⟩ : ∃ after, (plainKeystore.decrypt blob ⟨[]⟩ ⟨[]⟩).run (handle (quietEnv 4))
      pool.shared = (.ok [1], after) :=
    ⟨_, Prod.ext ((decrypt_eq_ok_iff_free (quietEnv_reliable 4)).mpr ⟨free, reads⟩) rfl⟩
  have whole : ((Call.decrypt blob ⟨[]⟩ ⟨[]⟩).prog plainKeystore 0).run (handle (quietEnv 4))
      pool.shared = (.ok (.plaintext [1]), after) := by
    rw [Call.prog, run_bind, ran]
    rfl
  obtain ⟨more, played, -, mine⟩ := runs.play answers
    (fun op state (same : state.now = pool.shared.now) => (handle_now op state).trans same) waiting
    rfl
  rw [whole] at played
  exact ⟨more, after, played, decrypted_of_run ran, mine⟩

omit [DecidableEq ι] in
/-- Calls that begin and end in a window each. -/
theorem callsWithin_of_since {limit : Nat} (since : ι → Nat)
    (window : ∀ entry ∈ trace, ∀ caller, entry.event.caller? = some caller →
      since caller ≤ entry.before.now ∧ entry.before.now ≤ since caller + limit) :
    CallsWithin limit trace := by
  intro first early last late caller begins ends
  have opens := (window first early caller begins).1
  have closes := (window last late caller ends).2
  omega

/-- Two callers decrypt one blob. The first has its claim at 0 and its answer at 9; the
second has both at 10, when the claim of the first no longer counts. -/
theorem exists_replayed :
    ∃ (world : World) (blob : EncryptedBlob) (trace : KeyTrace Bool) (pool : KeyPool Bool)
        (early late : World), Reachable plainKeystore anyStep world ∧ world.replay.ttl = 10 ∧
      Pool.Runs (sharedWorld Env.Reliable)
        (waitingPool plainKeystore world fun _ : Bool => .decrypt blob ⟨[]⟩ ⟨[]⟩) trace pool ∧
      CallsWithin 9 trace ∧
      ⟨early, .returned false (.ok (.plaintext [1]))⟩ ∈ trace ∧
      ⟨late, .returned true (.ok (.plaintext [1]))⟩ ∈ trace ∧ early.now = 9 ∧ late.now = 10 := by
  obtain ⟨world, blob, record, reachable, zero, kept, -, -, -, -, -, reads⟩ :=
    exists_readable (.memory ⟨10, []⟩)
  have start : Pool.Runs (sharedWorld Env.Reliable)
      (waitingPool plainKeystore world fun _ : Bool => .decrypt blob ⟨[]⟩ ⟨[]⟩) [] _ := .refl
  obtain ⟨firstSteps, first, played, claimed, firstTimes⟩ := exists_played false start rfl
    (slotFree_of_empty (by rw [waitingPool, kept]; rfl) blob) (reads _ rfl)
  have startsAt : (waitingPool plainKeystore world fun _ : Bool =>
      .decrypt blob ⟨[]⟩ ⟨[]⟩).shared.now = 0 := zero
  have lingers := played.step (.drift ⟨9, by simp [claimed.now, startsAt], rfl⟩)
  have answered := lingers.step (.return (Function.update_self _ _ _) rfl)
  have expires := answered.step (.drift ⟨10, show 9 ≤ 10 by decide, rfl⟩)
  have evicted : first.replay.liveEntries 10 = [] := by
    obtain ⟨key, -, -, entries⟩ := claimed.claims
    have replay : (waitingPool plainKeystore world fun _ : Bool =>
        .decrypt blob ⟨[]⟩ ⟨[]⟩).shared.replay = .memory ⟨10, []⟩ := kept
    rw [replay, startsAt] at entries
    rw [ReplayStore.liveEntries, entries, claimed.clock.live, replay]
    simp [ReplayStore.liveEntries, ReplayStore.entries, ReplayStore.stamp, ReplayStore.live]
  have free : SlotFree plainKeystore { first with now := 10 } blob := by
    rw [slotFree_iff]
    intro key isKey
    rw [show ({ first with now := 10 } : World).replay.liveEntries 10 = [] from evicted]
    rfl
  obtain ⟨secondSteps, second, playedToo, claimedToo, secondTimes⟩ :=
    exists_played true expires rfl free (reads _ claimed.keys)
  have answeredToo := playedToo.step (.return (Function.update_self _ _ _) rfl)
  refine ⟨world, blob, _, _, { first with now := 9 }, second, reachable, by rw [kept]; rfl,
    answeredToo, ?_, by simp, by simp, rfl, claimedToo.now⟩
  refine callsWithin_of_since (fun caller => if caller then 10 else 0) ?_
  intro entry member caller mine
  simp only [List.mem_append, List.mem_singleton, List.not_mem_nil, false_or] at member
  rcases member with ((((steps | rfl) | rfl) | rfl) | steps) | rfl
  · obtain ⟨own, now⟩ := firstTimes entry steps
    rw [own] at mine
    cases mine
    rw [startsAt] at now
    simp [now]
  · cases mine
  · cases mine
    simp
  · cases mine
  · obtain ⟨own, now⟩ := secondTimes entry steps
    rw [own] at mine
    cases mine
    simp [now]
  · cases mine
    simp [claimedToo.now]

omit [DecidableEq ι] in
theorem decryptors_waitingPool (world : World) (blob : EncryptedBlob) (aad : Aad)
    (context : Context) : Decryptors ks (fun _ : ι => blob)
      (waitingPool ks world fun _ => .decrypt blob aad context) :=
  fun _ => ⟨aad, context, 0, rfl⟩

/-- Two answers for one ciphertext can come closer together than one time to live, though
no call takes longer than that. -/
theorem replays_answered_together :
    ¬ ∀ (ks : Keystore) (blobs : Bool → EncryptedBlob) (start : KeyPool Bool)
        (trace : KeyTrace Bool) (pool : KeyPool Bool) (early late : World)
        (first second : CallValue), Decryptors ks blobs start →
      Pool.Runs (sharedWorld Env.Reliable) start trace pool →
      CallsWithin start.shared.replay.ttl trace → blobs false = blobs true →
      ⟨early, .returned false (.ok first)⟩ ∈ trace → ⟨late, .returned true (.ok second)⟩ ∈ trace →
      early.now + start.shared.replay.ttl ≤ late.now ∨
        late.now + start.shared.replay.ttl ≤ early.now := by
  intro spaced
  obtain ⟨world, blob, trace, pool, early, late, -, ttl, runs, within, firstOk, secondOk, nine,
    ten⟩ := exists_replayed
  have same : (waitingPool plainKeystore world fun _ : Bool =>
      .decrypt blob ⟨[]⟩ ⟨[]⟩).shared.replay.ttl = 10 := ttl
  have longer : CallsWithin 10 trace := by
    intro first early last late caller begins ends
    have ended := within first early last late caller begins ends
    omega
  have gap := spaced plainKeystore (fun _ => blob) _ trace pool early late _ _
    (decryptors_waitingPool world blob ⟨[]⟩ ⟨[]⟩) runs (by rw [same]; exact longer) rfl firstOk
    secondOk
  rw [same] at gap
  omega

/-- The claims of two answered calls, one time to live apart. -/
theorem replayed_claims_apart :
    ∃ (world : World) (blob : EncryptedBlob) (trace : KeyTrace Bool) (pool : KeyPool Bool),
      Reachable plainKeystore anyStep world ∧
      Pool.Runs (sharedWorld Env.Reliable)
        (waitingPool plainKeystore world fun _ : Bool => .decrypt blob ⟨[]⟩ ⟨[]⟩) trace pool ∧
      CallsWithin 9 trace ∧ ∃ leftKey rightKey first second,
        ClaimedAt trace false leftKey first ∧ ClaimedAt trace true rightKey second ∧
        (first + 10 ≤ second ∨ second + 10 ≤ first) := by
  obtain ⟨world, blob, trace, pool, early, late, reachable, ttl, runs, within, firstOk, secondOk, -,
    -⟩ := exists_replayed
  have same : (waitingPool plainKeystore world fun _ : Bool =>
      .decrypt blob ⟨[]⟩ ⟨[]⟩).shared.replay.ttl = 10 := ttl
  obtain ⟨⟨leftKey, first, leftMade⟩, ⟨rightKey, second, rightMade⟩, apart⟩ :=
    decryptions_claim_apart (decryptors_waitingPool world blob ⟨[]⟩ ⟨[]⟩) runs
      (by rw [same]; decide) within (by decide : false ≠ true) rfl rfl rfl ⟨early, firstOk⟩
      ⟨late, secondOk⟩
  refine ⟨world, blob, trace, pool, reachable, runs, within, leftKey, rightKey, first, second,
    leftMade, rightMade, ?_⟩
  have gap := apart leftKey rightKey first second leftMade rightMade
  rwa [same] at gap

end Citadel
