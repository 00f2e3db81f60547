import Citadel.Keystore.RedisReplay

/-!
# Whose claims are at Redis

As long as no reply misleads a server about its claim (a claim that was executed is not
answered with an error, and a release that was not executed is not either), every claim at
Redis is one from before the calls or belongs to a call that holds it. Calls that fail then
leave the claims as they found them.
-/

namespace Citadel

open Envelope Program Keystore

variable {ι : Type} [DecidableEq ι] {ks : Keystore} {blobs : ι → EncryptedBlob}
  {store : RedisReplayStore} {start pool : ClusterPool ι} {trace : ClusterTrace ι}
  {cluster after : Cluster} {leases : Leases String}

/-- A claim that is answered with an error was not executed, and a release was. -/
def Cluster.Heard (store : RedisReplayStore) (before : Cluster) :
    (op : Op) → op.Ret → Cluster → Prop
  | .claim _, .error _, after => after.redis = before.redis
  | .release key, .error _, after =>
      after.redis = { before.redis with
        expiry := before.redis.expiry.giveBack (store.redisKey key) }
  | _, _, _ => True

/-- The servers' world when no reply is misleading. -/
@[reducible] def heardWorld (store : RedisReplayStore) : SharedWorld Op Op.Ret where
  State := Cluster
  Answers cluster op answer after :=
    cluster.Answers store op answer after ∧ cluster.Heard store op answer after
  Drifts := Cluster.Drifts store

/-- Every claim at Redis is one from before the calls or belongs to a holder, those from
before are as they were, and no holder has one of them. -/
structure HeldAtRedis (store : RedisReplayStore) (leases : Leases String) (slots : ι → Slot)
    (cluster : Cluster) : Prop where
  accounted : ∀ key, cluster.redis.expiry.Taken cluster.redis.now (store.redisKey key) →
    leases.Taken cluster.redis.now (store.redisKey key) ∨ ∃ caller, slots caller = .held key
  kept : ∀ key, leases.Taken cluster.redis.now (store.redisKey key) →
    cluster.redis.expiry (store.redisKey key) = leases (store.redisKey key)
  apart : ∀ caller key, slots caller = .held key →
    ¬ leases.Taken cluster.redis.now (store.redisKey key)

namespace HeldAtRedis

variable {before : ι → Slot} {actor : ι}

omit [DecidableEq ι] in
theorem initially {keys : Keys} {redis : Redis} :
    HeldAtRedis store redis.expiry (fun _ : ι => .unclaimed) ⟨keys, redis⟩ where
  accounted := fun _ taken => .inl taken
  kept := fun _ _ => rfl
  apart := fun _ _ holds => by cases holds

omit [DecidableEq ι] in
/-- Time passes, and other keys change. -/
theorem pass (held : HeldAtRedis store leases before cluster)
    (drifts : cluster.Drifts store after) : HeldAtRedis store leases before after := by
  obtain ⟨later, -, same⟩ := drifts
  have earlier : ∀ {claims : Leases String} {name}, claims.Taken after.redis.now name →
      claims.Taken cluster.redis.now name := fun taken => Nat.lt_of_le_of_lt later taken
  constructor
  · intro key taken
    have now : cluster.redis.expiry.Taken after.redis.now (store.redisKey key) := by
      rw [Leases.Taken, same key] at taken
      exact taken
    refine (held.accounted key (earlier now)).imp_left fun first => ?_
    rw [Leases.Taken, ← held.kept key first]
    exact now
  · intro key taken
    rw [same key]
    exact held.kept key (earlier taken)
  · exact fun caller key holds taken => held.apart caller key holds (earlier taken)

/-- A call closes its slot or leaves it open, and nothing changes at Redis. -/
theorem leave {slot : Slot} (held : HeldAtRedis store leases before cluster)
    (free : ∀ key, before actor ≠ .held key) (closes : ∀ key, slot ≠ .held key)
    (same : after.redis = cluster.redis) :
    HeldAtRedis store leases (Function.update before actor slot) after := by
  constructor
  · intro key taken
    rw [same] at taken ⊢
    refine (held.accounted key taken).imp_right ?_
    rintro ⟨caller, holds⟩
    refine ⟨caller, ?_⟩
    rwa [Function.update_of_ne]
    rintro rfl
    exact free key holds
  · rw [same]
    exact held.kept
  · intro caller key holds
    rw [same]
    by_cases own : caller = actor
    · subst own
      rw [Function.update_self] at holds
      exact absurd holds (closes key)
    · rw [Function.update_of_ne own] at holds
      exact held.apart caller key holds

/-- A free key is claimed, and the call is told so. -/
theorem grant {key : Bytes} {ends : Nat} (held : HeldAtRedis store leases before cluster)
    (unclaimed : before actor = .unclaimed)
    (free : ¬ cluster.redis.expiry.Taken cluster.redis.now (store.redisKey key))
    (takes : after.redis = { cluster.redis with
      expiry := cluster.redis.expiry.take (store.redisKey key) ends }) :
    HeldAtRedis store leases (Function.update before actor (.held key)) after := by
  have fresh : ¬ leases.Taken cluster.redis.now (store.redisKey key) := by
    intro taken
    apply free
    rw [Leases.Taken, held.kept key taken]
    exact taken
  have others : ∀ {name : Bytes}, name ≠ key →
      after.redis.expiry (store.redisKey name) = cluster.redis.expiry (store.redisKey name) := by
    intro name different
    rw [takes]
    exact Function.update_of_ne (fun same => different (redisKey_injective same)) _ _
  have now : after.redis.now = cluster.redis.now := by rw [takes]
  constructor
  · intro name taken
    by_cases same : name = key
    · exact .inr ⟨actor, by rw [Function.update_self, same]⟩
    · rw [Leases.Taken, now, others same] at taken
      rw [now]
      refine (held.accounted name taken).imp_right ?_
      rintro ⟨caller, holds⟩
      refine ⟨caller, ?_⟩
      rwa [Function.update_of_ne]
      rintro rfl
      rw [unclaimed] at holds
      cases holds
  · intro name taken
    rw [now] at taken
    have different : name ≠ key := by
      rintro rfl
      exact fresh taken
    rw [others different]
    exact held.kept name taken
  · intro caller name holds
    rw [now]
    by_cases own : caller = actor
    · subst own
      rw [Function.update_self] at holds
      cases holds
      exact fresh
    · rw [Function.update_of_ne own] at holds
      exact held.apart caller name holds

/-- A holder gives its claim back. -/
theorem giveBack {key : Bytes} (held : HeldAtRedis store leases before cluster)
    (holds : before actor = .held key)
    (gives : after.redis = { cluster.redis with
      expiry := cluster.redis.expiry.giveBack (store.redisKey key) }) :
    HeldAtRedis store leases (Function.update before actor .closed) after := by
  have others : ∀ {name : Bytes}, name ≠ key →
      after.redis.expiry (store.redisKey name) = cluster.redis.expiry (store.redisKey name) := by
    intro name different
    rw [gives]
    exact Function.update_of_ne (fun same => different (redisKey_injective same)) _ _
  have now : after.redis.now = cluster.redis.now := by rw [gives]
  constructor
  · intro name taken
    have different : name ≠ key := by
      rintro rfl
      have given : after.redis.expiry (store.redisKey name) = 0 := by
        rw [gives]
        exact Function.update_self _ _ _
      rw [Leases.Taken, given] at taken
      exact absurd taken (Nat.not_lt_zero _)
    rw [Leases.Taken, now, others different] at taken
    rw [now]
    refine (held.accounted name taken).imp_right ?_
    rintro ⟨caller, other⟩
    refine ⟨caller, ?_⟩
    rwa [Function.update_of_ne]
    rintro rfl
    rw [holds] at other
    cases other
    exact different rfl
  · intro name taken
    rw [now] at taken
    have different : name ≠ key := by
      rintro rfl
      exact held.apart actor name holds taken
    rw [others different]
    exact held.kept name taken
  · intro caller name other
    rw [now]
    by_cases own : caller = actor
    · subst own
      rw [Function.update_self] at other
      cases other
    · rw [Function.update_of_ne own] at other
      exact held.apart caller name other

/-- One operation of a call. -/
theorem perform {isKey : Bytes → Prop} {op : Op} {answer : op.Ret}
    (held : HeldAtRedis store leases before cluster) (allowed : (before actor).Allows isKey op)
    (answers : cluster.Answers store op answer after)
    (heard : cluster.Heard store op answer after) :
    HeldAtRedis store leases (Function.update before actor ((before actor).see op answer))
      after := by
  cases op with
  | put record => exact allowed.elim
  | claim key =>
      obtain ⟨reply, redis, replies, rfl, rfl⟩ := answers
      have free : ∀ name, before actor ≠ .held name := by
        rw [allowed.1]
        exact fun _ => Slot.noConfusion
      rcases reply with error | _ | _
      · exact held.leave free (fun _ => Slot.noConfusion) heard
      · obtain ⟨-, rfl⟩ := replies
        exact held.leave free (fun _ => Slot.noConfusion) rfl
      · obtain ⟨fresh, rfl⟩ := replies
        exact held.grant allowed.1 fresh rfl
  | release key =>
      obtain ⟨reply, redis, replies, rfl, rfl⟩ := answers
      cases reply with
      | error error => exact held.giveBack allowed heard
      | ok done =>
          obtain rfl := replies
          exact held.giveBack allowed rfl
  | _ =>
      obtain ⟨-, rfl⟩ := answers
      simp only [Slot.see, Function.update_eq_self]
      exact held

end HeldAtRedis

omit [DecidableEq ι] in
theorem ClusterDecryptors.settling {keys : Keys} (decryptors : ClusterDecryptors ks blobs start)
    (caller : ι) :
    Pool.ThreadMeets (claiming keys (ReplayKey ks keys (blobs caller))) .unclaimed
      (Settled ks keys (blobs caller)) (start.thread caller) := by
  obtain ⟨aad, context, fuel, begun⟩ := decryptors caller
  rw [begun]
  refine Meets.bind ((decrypt_settles (blobs caller) aad context).mono ?_)
  rintro slot (plaintext | error | why) settled
  · exact ⟨fun _ => settled.1 rfl, nofun⟩
  · exact .refused rfl (settled.2 error rfl)
  · exact .aborted

/-- In every interleaving of decryptions in which no reply is misleading, the claims at Redis
are accounted for, the keys stay, and every call settles its claim. -/
theorem ClusterDecryptors.held (decryptors : ClusterDecryptors ks blobs start)
    (runs : Pool.Runs (heardWorld store) start trace pool) :
    (pool.shared.keys = start.shared.keys ∧
      HeldAtRedis store start.shared.redis.expiry (clusterSlots trace) pool.shared) ∧
      ∀ caller, Pool.ThreadMeets
        (claiming start.shared.keys (ReplayKey ks start.shared.keys (blobs caller)))
        (clusterSlots trace caller) (Settled ks start.shared.keys (blobs caller))
        (pool.thread caller) := by
  refine Pool.Runs.rely (fun past (cluster : Cluster) =>
    cluster.keys = start.shared.keys ∧
      HeldAtRedis store start.shared.redis.expiry (clusterSlots past) cluster)
    ?_ decryptors.settling ?_ ?_ ?_ ?_ runs
  · rintro past cluster caller slot op answer after ⟨same, -⟩ ⟨answers, -⟩
    have reads := reads_of_answers answers
    rwa [same] at reads
  · exact ⟨rfl, .initially⟩
  · rintro past cluster caller op answer after ⟨same, held⟩ allowed ⟨answers, heard⟩
    refine ⟨(keys_of_allowed allowed answers).trans same, ?_⟩
    rw [clusterSlots_performed]
    exact held.perform allowed answers heard
  · rintro past cluster caller outcome ⟨same, held⟩ -
    rw [clusterSlots_returned]
    exact ⟨same, held⟩
  · rintro past cluster after ⟨same, held⟩ drifts
    rw [clusterSlots_drifted]
    exact ⟨drifts.2.1.trans same, held.pass drifts⟩

/-- Decryptions that all fail leave the keys and the claims that still count as they were. -/
theorem ClusterDecryptors.failed_leave (decryptors : ClusterDecryptors ks blobs start)
    (runs : Pool.Runs (heardWorld store) start trace pool)
    (failed : ∀ caller, ∃ error, Returned trace caller (.err error)) :
    pool.shared.keys = start.shared.keys ∧ ∀ key,
      (pool.shared.redis.expiry.Taken pool.shared.redis.now (store.redisKey key) ↔
        start.shared.redis.expiry.Taken pool.shared.redis.now (store.redisKey key)) := by
  obtain ⟨⟨keys, held⟩, meets⟩ := decryptors.held runs
  refine ⟨keys, fun key => ⟨fun taken => ?_, fun taken => ?_⟩⟩
  · rcases held.accounted key taken with first | ⟨caller, holds⟩
    · exact first
    · obtain ⟨error, returned⟩ := failed caller
      have settled := meets caller
      rw [runs.finished_of_returned returned] at settled
      exact absurd holds (settled.2 error rfl key)
  · rw [Leases.Taken, held.kept key taken]
    exact taken

/-- What stands behind a refusal: a claim from before the calls or another call, and no call
that has returned an error. -/
theorem ClusterDecryptors.refusal (decryptors : ClusterDecryptors ks blobs start)
    (runs : Pool.Runs (heardWorld store) start trace pool) :
    EveryStep (fun past entry => ∀ caller key,
      entry.event = .performed caller (.claim key) (.ok false) →
        clusterSlots past caller = .unclaimed ∧
        (start.shared.redis.expiry.Taken entry.before.redis.now (store.redisKey key) ∨
          ∃ other, clusterSlots past other = .held key) ∧
        ∀ other error, clusterSlots past other = .held key →
          ¬ Returned past other (.err error)) trace := by
  refine Pool.Runs.everyStep ?_ runs
  rintro past pool event next runs - step caller key rfl
  obtain ⟨⟨-, held⟩, meets⟩ := decryptors.held runs
  cases step with
  | perform waiting answers =>
      have allowed := meets caller
      rw [waiting] at allowed
      obtain ⟨⟨reply, redis, replies, same, -⟩, -⟩ := answers
      have taken : pool.shared.redis.expiry.Taken pool.shared.redis.now (store.redisKey key) := by
        rcases reply with error | _ | _
        · cases same
        · exact replies.1
        · cases same
      refine ⟨allowed.1.1, held.accounted key taken, ?_⟩
      intro other error holds returned
      have settled := meets other
      rw [runs.finished_of_returned returned] at settled
      exact settled.2 error rfl key holds

end Citadel
