import Citadel.Data.Lease
import Citadel.Keystore.Replays

/-!
# Replays across servers

Several servers share their keys and one Redis, in which they claim replay keys. A command
is atomic at Redis, but its reply may get lost, so that the server does not know whether it
was executed; it is executed before the server sees the error, or never. That commands are
atomic and that no key goes before its time is the contract of the service. The servers'
clocks and faults are their own, and Redis is used for other things under other names.

Whatever the interleaving, decryptions of one ciphertext that succeed on any servers have
made their claims at least a day of Redis' clock apart, and a decryption is only refused as
a replay if somebody tried that ciphertext less than a day before.
-/

namespace Citadel

open Envelope Program Keystore

/-! ### Redis -/

/-- A command to Redis. -/
inductive RedisCommand where
  /-- `redis_set_nx_ex_atomic`. -/
  | setNxEx (key : String) (ttlSecs : Nat)
  /-- `redis_del`. -/
  | del (key : String)
  deriving DecidableEq, Repr

/-- The type of the reply. -/
@[reducible] def RedisCommand.Ret : RedisCommand → Type
  | .setNxEx _ _ => Except String Bool
  | .del _ => Except String Unit

/-- A Redis server: its clock, and when each key expires. It is taken at its contract: a key
that was set with an expiry is there until then, unless a command deletes it, so nothing is
evicted and no restart loses a key. -/
structure Redis where
  now : Nat
  expiry : Leases String

/-- What a command may do and reply by the contract of the service, which executes one command
at a time. An error may hide that it was executed. -/
def Redis.Replies (redis : Redis) : (command : RedisCommand) → command.Ret → Redis → Prop
  | .setNxEx key ttlSecs, .ok true, after => ¬ redis.expiry.Taken redis.now key ∧
      after = { redis with expiry := redis.expiry.take key (redis.now + fromSecs ttlSecs) }
  | .setNxEx key _, .ok false, after => redis.expiry.Taken redis.now key ∧ after = redis
  | .setNxEx key ttlSecs, .error _, after => after = redis ∨
      ¬ redis.expiry.Taken redis.now key ∧
        after = { redis with expiry := redis.expiry.take key (redis.now + fromSecs ttlSecs) }
  | .del key, .ok _, after => after = { redis with expiry := redis.expiry.giveBack key }
  | .del key, .error _, after => after = redis ∨
      after = { redis with expiry := redis.expiry.giveBack key }

/-- `RedisReplayStore`. -/
structure RedisReplayStore where
  keyPrefix : String
  failClosed : Bool
  deriving DecidableEq, Repr

namespace RedisReplayStore

variable (store : RedisReplayStore)

/-- `redis_key`. -/
def redisKey (key : Bytes) : String := s!"{store.keyPrefix}{hexEncode key}"

/-- The command of `claim`. -/
def claimCommand (key : Bytes) (ttl : Nat) : RedisCommand :=
  .setNxEx (store.redisKey key) (max (asSecs ttl) 1)

/-- The answer of `claim`, by the reply. -/
def claimAnswer : Except String Bool → Except ReplayError Bool
  | .ok true => .ok true
  | .ok false => .ok false
  | .error error => .error ⟨s!"Redis outage (fail_closed={store.failClosed}): {error} " ++
      "— operation denied to prevent replay bypass"⟩

/-- The command of `release`. -/
def releaseCommand (key : Bytes) : RedisCommand := .del (store.redisKey key)

/-- The answer of `release`, by the reply. -/
def releaseAnswer (reply : Except String Unit) : Except ReplayError Unit :=
  reply.mapError fun error => ⟨s!"Redis release failed: {error}"⟩

end RedisReplayStore

/-- The time to live that the keystore asks for. -/
def claimTtl : Nat := fromSecs 86400

/-! ### Servers that share it -/

/-- What the servers share. -/
structure Cluster where
  keys : Keys
  redis : Redis

/-- What an operation of a server may answer and do. -/
def Cluster.Answers (store : RedisReplayStore) (cluster : Cluster) :
    (op : Op) → op.Ret → Cluster → Prop
  | .claim key, answer, after => ∃ reply redis,
      cluster.redis.Replies (store.claimCommand key claimTtl) reply redis ∧
        answer = store.claimAnswer reply ∧ after = { cluster with redis }
  | .release key, answer, after => ∃ reply redis,
      cluster.redis.Replies (store.releaseCommand key) reply redis ∧
        answer = RedisReplayStore.releaseAnswer reply ∧ after = { cluster with redis }
  | .put record, _, after => after = cluster ∨
      after = { cluster with keys := cluster.keys.insert record }
  | op, answer, after => op.ReadsFrom cluster.keys answer ∧ after = cluster

/-- Time passes at Redis, and keys that are not the store's change. -/
def Cluster.Drifts (store : RedisReplayStore) (before after : Cluster) : Prop :=
  before.redis.now ≤ after.redis.now ∧ after.keys = before.keys ∧
    ∀ key, after.redis.expiry (store.redisKey key) = before.redis.expiry (store.redisKey key)

/-- The servers' world. -/
@[reducible] def clusterWorld (store : RedisReplayStore) : SharedWorld Op Op.Ret where
  State := Cluster
  Answers := Cluster.Answers store
  Drifts := Cluster.Drifts store

/-- The calls of all servers. -/
abbrev ClusterPool (ι : Type) := Pool ι Cluster Op Op.Ret CallError CallValue

/-- What they did. -/
abbrev ClusterTrace (ι : Type) := List (Entry Cluster ι Op Op.Ret CallError CallValue)

section Runs

variable {ι : Type}

/-- Every caller decrypts a blob on some server, and none has begun. -/
def ClusterDecryptors (ks : Keystore) (blobs : ι → EncryptedBlob) (start : ClusterPool ι) : Prop :=
  ∀ caller, ∃ aad context fuel,
    start.thread caller = .running ((Call.decrypt (blobs caller) aad context).prog ks fuel)

/-- Between two steps of a call no more than `limit` passes at Redis. -/
def PromptWithin (limit : Nat) (trace : ClusterTrace ι) : Prop :=
  ∀ first ∈ trace, ∀ last ∈ trace, ∀ caller, first.event.caller? = some caller →
    last.event.caller? = some caller → last.before.redis.now ≤ first.before.redis.now + limit

variable [DecidableEq ι]

/-- What an entry of the trace does to the claim that a caller was granted and has not given
back. -/
def claimAfter (caller : ι) (claim : Option (Bytes × Nat))
    (entry : Entry Cluster ι Op Op.Ret CallError CallValue) : Option (Bytes × Nat) :=
  match entry.event with
  | .performed other (.claim key) (.ok true) =>
      if other = caller then some (key, entry.before.redis.now) else claim
  | .performed other (.release _) _ => if other = caller then none else claim
  | _ => claim

/-- The replay key that a caller was granted and has not given back, and when it was. -/
def claimOf (trace : ClusterTrace ι) (caller : ι) : Option (Bytes × Nat) :=
  trace.foldl (claimAfter caller) none

/-- The same claims, under their names at Redis. -/
def tenantsOf (store : RedisReplayStore) (trace : ClusterTrace ι) : Leases.Tenants ι String :=
  fun caller => (claimOf trace caller).map fun claim => (store.redisKey claim.1, claim.2)

/-- Where each caller stands with its replay key. -/
def clusterSlots (trace : ClusterTrace ι) (caller : ι) : Slot :=
  (claiming Table.empty fun _ => True).ghostOf .unclaimed caller trace

/-! ### One step -/

section Snoc

variable {store : RedisReplayStore} {trace : ClusterTrace ι} {cluster after : Cluster}
  {caller actor : ι} {op : Op} {answer : op.Ret} {key : Bytes} {limit : Nat}

theorem claimOf_snoc (entry : Entry Cluster ι Op Op.Ret CallError CallValue) :
    claimOf (trace ++ [entry]) caller = claimAfter caller (claimOf trace caller) entry := by
  rw [claimOf, List.foldl_append]
  rfl

/-- A step that concerns the claim of one caller only. -/
theorem claimOf_update {entry : Entry Cluster ι Op Op.Ret CallError CallValue}
    {claim : Option (Bytes × Nat)} (own : claimAfter actor (claimOf trace actor) entry = claim)
    (others : ∀ other, other ≠ actor →
      claimAfter other (claimOf trace other) entry = claimOf trace other) :
    claimOf (trace ++ [entry]) = Function.update (claimOf trace) actor claim := by
  ext1 other
  rw [claimOf_snoc]
  by_cases same : other = actor
  · subst same
    rw [Function.update_self]
    exact own
  · rw [Function.update_of_ne same]
    exact others other same

theorem claimOf_grant : claimOf (trace ++ [⟨cluster, .performed actor (.claim key) (.ok true)⟩]) =
    Function.update (claimOf trace) actor (some (key, cluster.redis.now)) :=
  claimOf_update (if_pos rfl) fun _ different => if_neg different.symm

theorem claimOf_release {answer : (Op.release key).Ret} :
    claimOf (trace ++ [⟨cluster, .performed actor (.release key) answer⟩]) =
      Function.update (claimOf trace) actor none :=
  claimOf_update (if_pos rfl) fun _ different => if_neg different.symm

theorem claimOf_refused :
    claimOf (trace ++ [⟨cluster, .performed actor (.claim key) (.ok false)⟩]) = claimOf trace :=
  funext fun _ => claimOf_snoc _

theorem claimOf_failed {error : ReplayError} :
    claimOf (trace ++ [⟨cluster, .performed actor (.claim key) (.error error)⟩]) = claimOf trace :=
  funext fun _ => claimOf_snoc _

theorem claimOf_reads (reads : op.Reads) :
    claimOf (trace ++ [⟨cluster, .performed actor op answer⟩]) = claimOf trace := by
  ext1 other
  rw [claimOf_snoc]
  cases op with
  | put record => exact reads.elim
  | claim key => exact reads.elim
  | release key => exact reads.elim
  | _ => rfl

theorem claimOf_returned {outcome : Outcome CallError CallValue} :
    claimOf (trace ++ [⟨cluster, .returned actor outcome⟩]) = claimOf trace :=
  funext fun _ => claimOf_snoc _

theorem claimOf_drifted : claimOf (trace ++ [⟨cluster, .drifted⟩]) = claimOf trace :=
  funext fun _ => claimOf_snoc _

/-- What a caller is granted or gives back, it is granted or gives back at Redis. -/
theorem tenantsOf_update {claim : Option (Bytes × Nat)} {later : ClusterTrace ι}
    (updated : claimOf later = Function.update (claimOf trace) actor claim) :
    tenantsOf store later = Function.update (tenantsOf store trace) actor
      (claim.map fun claim => (store.redisKey claim.1, claim.2)) := by
  ext1 other
  unfold tenantsOf
  rw [updated]
  by_cases same : other = actor
  · subst same
    rw [Function.update_self, Function.update_self]
  · rw [Function.update_of_ne same, Function.update_of_ne same]

theorem clusterSlots_performed : clusterSlots (trace ++ [⟨cluster, .performed actor op answer⟩]) =
    Function.update (clusterSlots trace) actor ((clusterSlots trace actor).see op answer) := by
  ext1 other
  by_cases same : other = actor
  · subst same
    rw [Function.update_self]
    exact Contract.ghostOf_performed_self
  · rw [Function.update_of_ne same]
    exact Contract.ghostOf_performed_other (Ne.symm same)

theorem clusterSlots_returned {outcome : Outcome CallError CallValue} :
    clusterSlots (trace ++ [⟨cluster, .returned actor outcome⟩]) = clusterSlots trace :=
  funext fun _ => Contract.ghostOf_returned

theorem clusterSlots_drifted :
    clusterSlots (trace ++ [⟨cluster, .drifted⟩]) = clusterSlots trace :=
  funext fun _ => Contract.ghostOf_drifted

omit [DecidableEq ι] in
theorem PromptWithin.of_append {more : ClusterTrace ι}
    (prompt : PromptWithin limit (trace ++ more)) : PromptWithin limit trace :=
  fun first early last late => prompt first (List.mem_append_left _ early) last
    (List.mem_append_left _ late)

/-- The claims are kept apart at Redis, and whoever holds a slot was granted it in a step of
its own. -/
structure KeptApart (store : RedisReplayStore) (trace : ClusterTrace ι) (cluster : Cluster) :
    Prop where
  kept : Leases.Kept claimTtl cluster.redis.expiry (tenantsOf store trace) cluster.redis.now
  held : ∀ caller key, clusterSlots trace caller = .held key → ∃ entry ∈ trace,
    entry.event.caller? = some caller ∧ claimOf trace caller = some (key, entry.before.redis.now)

/-- A step that grants nothing. -/
theorem KeptApart.quiet {entry : Entry Cluster ι Op Op.Ret CallError CallValue}
    (apart : KeptApart store trace cluster)
    (same : claimOf (trace ++ [entry]) = claimOf trace)
    (slots : ∀ caller key, clusterSlots (trace ++ [entry]) caller = .held key →
      clusterSlots trace caller = .held key)
    (kept : Leases.Kept claimTtl after.redis.expiry (tenantsOf store trace) after.redis.now) :
    KeptApart store (trace ++ [entry]) after where
  kept := by
    unfold tenantsOf
    rw [same]
    exact kept
  held := by
    intro caller key holds
    obtain ⟨moment, member, own, claim⟩ := apart.held caller key (slots caller key holds)
    rw [same]
    exact ⟨moment, List.mem_append_left _ member, own, claim⟩

theorem apart_initially {keys : Keys} {redis : Redis} :
    KeptApart store ([] : ClusterTrace ι) ⟨keys, redis⟩ where
  kept := .initially
  held := fun _ _ holds => by cases holds

/-- A term of Redis is a day. -/
theorem term_claimTtl : fromSecs (max (asSecs claimTtl) 1) = claimTtl := by decide

/-- An operation that leaves what a caller was granted as it is. -/
theorem KeptApart.leave (apart : KeptApart store trace cluster)
    (same : claimOf (trace ++ [⟨cluster, .performed actor op answer⟩]) = claimOf trace)
    (slot : ∀ key, (clusterSlots trace actor).see op answer = .held key →
      clusterSlots trace actor = .held key)
    (kept : Leases.Kept claimTtl after.redis.expiry (tenantsOf store trace) after.redis.now) :
    KeptApart store (trace ++ [⟨cluster, .performed actor op answer⟩]) after := by
  apply apart.quiet same ?_ kept
  intro caller key holds
  rw [clusterSlots_performed] at holds
  by_cases own : caller = actor
  · subst own
    rw [Function.update_self] at holds
    exact slot key holds
  · rwa [Function.update_of_ne own] at holds

/-- An operation that grants a claim or gives one back. -/
theorem KeptApart.update {claim : Option (Bytes × Nat)} (apart : KeptApart store trace cluster)
    (updated : claimOf (trace ++ [⟨cluster, .performed actor op answer⟩]) =
      Function.update (claimOf trace) actor claim)
    (slot : ∀ key, (clusterSlots trace actor).see op answer = .held key →
      claim = some (key, cluster.redis.now))
    (kept : Leases.Kept claimTtl after.redis.expiry (Function.update (tenantsOf store trace) actor
      (claim.map fun claim => (store.redisKey claim.1, claim.2))) after.redis.now) :
    KeptApart store (trace ++ [⟨cluster, .performed actor op answer⟩]) after where
  kept := by
    rw [tenantsOf_update updated]
    exact kept
  held := by
    intro caller key holds
    rw [clusterSlots_performed] at holds
    rw [updated]
    by_cases own : caller = actor
    · subst own
      rw [Function.update_self] at holds ⊢
      exact ⟨_, List.mem_append_right _ (List.mem_singleton_self _), rfl, slot key holds⟩
    · rw [Function.update_of_ne own] at holds ⊢
      obtain ⟨moment, member, mine, granted⟩ := apart.held caller key holds
      exact ⟨moment, List.mem_append_left _ member, mine, granted⟩

/-- One operation of a call. -/
theorem KeptApart.perform {isKey : Bytes → Prop} (apart : KeptApart store trace cluster)
    (allowed : (clusterSlots trace actor).Allows isKey op)
    (answers : cluster.Answers store op answer after)
    (prompt : PromptWithin limit (trace ++ [⟨cluster, .performed actor op answer⟩]))
    (short : limit < claimTtl) :
    KeptApart store (trace ++ [⟨cluster, .performed actor op answer⟩]) after := by
  cases op with
  | claim key =>
      obtain ⟨reply, redis, replies, rfl, rfl⟩ := answers
      unfold RedisReplayStore.claimCommand at replies
      cases reply with
      | ok granted =>
          cases granted with
          | true =>
              obtain ⟨free, rfl⟩ := replies
              rw [term_claimTtl]
              refine apart.update claimOf_grant (fun other holds => ?_) (apart.kept.grant free)
              cases holds
              rfl
          | false =>
              obtain ⟨-, rfl⟩ := replies
              exact apart.leave claimOf_refused (fun other holds => by cases holds) apart.kept
      | error error =>
          apply apart.leave claimOf_failed (fun other holds => by cases holds)
          rcases replies with rfl | ⟨free, rfl⟩
          · exact apart.kept
          · rw [term_claimTtl]
            exact apart.kept.lose free
  | release key =>
      obtain ⟨reply, redis, replies, rfl, rfl⟩ := answers
      obtain ⟨moment, member, own, granted⟩ := apart.held actor key allowed
      have holds : tenantsOf store trace actor =
          some (store.redisKey key, moment.before.redis.now) := by
        rw [tenantsOf, granted]
        rfl
      have recent := prompt moment (List.mem_append_left _ member) _
        (List.mem_append_right _ (List.mem_singleton_self _)) actor own rfl
      have live : cluster.redis.now < moment.before.redis.now + claimTtl := by
        have within : cluster.redis.now ≤ moment.before.redis.now + limit := recent
        omega
      refine apart.update claimOf_release (fun other holds => by cases holds) ?_
      cases reply with
      | ok done =>
          obtain rfl := replies
          exact apart.kept.giveBack holds live
      | error error =>
          rcases replies with rfl | rfl
          · exact apart.kept.leave actor
          · exact apart.kept.giveBack holds live
  | put record => exact allowed.elim
  | _ =>
      obtain ⟨-, rfl⟩ := answers
      exact apart.leave (claimOf_reads trivial) (fun _ holds => holds) apart.kept

end Snoc

/-! ### Whole runs -/

section Whole

variable {ks : Keystore} {blobs : ι → EncryptedBlob} {store : RedisReplayStore}
  {start pool : ClusterPool ι} {trace : ClusterTrace ι} {limit : Nat}

omit [DecidableEq ι] in
theorem ClusterDecryptors.initially {keys : Keys}
    (decryptors : ClusterDecryptors ks blobs start) (caller : ι) :
    Pool.ThreadMeets (claiming keys (ReplayKey ks keys (blobs caller))) .unclaimed
      (Claimed ks keys (blobs caller)) (start.thread caller) := by
  obtain ⟨aad, context, fuel, begun⟩ := decryptors caller
  rw [begun]
  refine Meets.bind ((decrypt_claiming (blobs caller) aad context).mono ?_)
  intro slot outcome claimed
  cases outcome with
  | ok plaintext => exact fun _ => claimed rfl
  | err error => exact fun done => by cases done
  | aborted why => exact fun done => by cases done

/-- The servers answer from their common table, and decryptions leave it alone. -/
theorem reads_of_answers {cluster after : Cluster} {op : Op} {answer : op.Ret}
    (answers : cluster.Answers store op answer after) : op.ReadsFrom cluster.keys answer := by
  cases op with
  | get id => exact answers.1
  | _ => trivial

theorem keys_of_allowed {cluster after : Cluster} {op : Op} {answer : op.Ret} {slot : Slot}
    {isKey : Bytes → Prop} (allowed : slot.Allows isKey op)
    (answers : cluster.Answers store op answer after) : after.keys = cluster.keys := by
  cases op with
  | put record => exact allowed.elim
  | claim key =>
      obtain ⟨reply, redis, -, -, rfl⟩ := answers
      rfl
  | release key =>
      obtain ⟨reply, redis, -, -, rfl⟩ := answers
      rfl
  | _ =>
      obtain ⟨-, rfl⟩ := answers
      rfl

/-- While every call takes less than a day of Redis' clock, the claims are kept apart. -/
theorem ClusterDecryptors.apart (decryptors : ClusterDecryptors ks blobs start)
    (runs : Pool.Runs (clusterWorld store) start trace pool) (short : limit < claimTtl)
    (prompt : PromptWithin limit trace) :
    KeptApart store trace pool.shared ∧ ∀ caller, Pool.ThreadMeets
      (claiming start.shared.keys (ReplayKey ks start.shared.keys (blobs caller)))
      (clusterSlots trace caller) (Claimed ks start.shared.keys (blobs caller))
      (pool.thread caller) := by
  refine And.imp_left (fun held => held.2 prompt) (Pool.Runs.rely
    (fun past (cluster : Cluster) => cluster.keys = start.shared.keys ∧
      (PromptWithin limit past → KeptApart store past cluster))
    ?_ decryptors.initially ?_ ?_ ?_ ?_ runs)
  · intro past cluster caller slot op answer after held answers
    have reads := reads_of_answers answers
    rwa [held.1] at reads
  · exact ⟨rfl, fun _ => apart_initially⟩
  · intro past cluster caller op answer after held allowed answers
    refine ⟨(keys_of_allowed allowed answers).trans held.1, fun prompt => ?_⟩
    exact (held.2 prompt.of_append).perform allowed answers prompt short
  · intro past cluster caller outcome held _
    refine ⟨held.1, fun prompt => ?_⟩
    have apart := held.2 prompt.of_append
    apply apart.quiet claimOf_returned ?_ apart.kept
    intro other key holds
    rwa [clusterSlots_returned] at holds
  · intro past cluster after held drifts
    obtain ⟨later, keys, own⟩ := drifts
    refine ⟨keys.trans held.1, fun prompt => ?_⟩
    have apart := held.2 prompt.of_append
    apply apart.quiet claimOf_drifted ?_ (apart.kept.pass later ?_)
    · intro other key holds
      rwa [clusterSlots_drifted] at holds
    · intro tenant name since holds
      obtain ⟨claim, -, same⟩ := Option.map_eq_some_iff.mp holds
      cases same
      exact own claim.1

/-- Decryptions of one ciphertext that succeed, on whichever servers, were granted their
claims at least a day of Redis' clock apart, as long as no call takes that long and Redis
keeps its contract. -/
theorem servers_decrypt_once (decryptors : ClusterDecryptors ks blobs start)
    (runs : Pool.Runs (clusterWorld store) start trace pool) (short : limit < claimTtl)
    (prompt : PromptWithin limit trace) {left right : ι} (different : left ≠ right)
    (sameKey : (blobs left).keyId = (blobs right).keyId)
    (sameVersion : (blobs left).keyVersion = (blobs right).keyVersion)
    (sameBytes : hexDecode (utf8 (blobs left).ciphertextHex) =
      hexDecode (utf8 (blobs right).ciphertextHex))
    {leftValue rightValue : CallValue} (leftOk : Returned trace left (.ok leftValue))
    (rightOk : Returned trace right (.ok rightValue)) :
    ∃ key first second, claimOf trace left = some (key, first) ∧
      claimOf trace right = some (key, second) ∧
      (first + claimTtl ≤ second ∨ second + claimTtl ≤ first) := by
  obtain ⟨apart, meets⟩ := decryptors.apart runs short prompt
  have holding : ∀ caller value, Returned trace caller (.ok value) → ∃ key time,
      claimOf trace caller = some (key, time) ∧
        ReplayKey ks start.shared.keys (blobs caller) key := by
    intro caller value returned
    have claimed := meets caller
    rw [runs.finished_of_returned returned] at claimed
    obtain ⟨key, holds, isKey⟩ := claimed rfl
    obtain ⟨moment, -, -, granted⟩ := apart.held caller key holds
    exact ⟨key, _, granted, isKey⟩
  obtain ⟨key, first, leftHolds, isLeft⟩ := holding left leftValue leftOk
  obtain ⟨other, second, rightHolds, isRight⟩ := holding right rightValue rightOk
  obtain rfl := isLeft.unique sameKey sameVersion sameBytes isRight
  refine ⟨key, first, second, leftHolds, rightHolds, ?_⟩
  apply apart.kept.apart left right (store.redisKey key) first second different
  · rw [tenantsOf, leftHolds]
    rfl
  · rw [tenantsOf, rightHolds]
    rfl

/-! ### One ciphertext on two servers, a day apart -/

/-- A server's backend and a Redis that are both without faults. -/
def Cluster.serve (store : RedisReplayStore) : (op : Op) → Cluster → op.Ret × Cluster
  | .claim key, cluster =>
      if cluster.redis.expiry.Taken cluster.redis.now (store.redisKey key) then
        (.ok false, cluster)
      else
        (.ok true, { cluster with redis.expiry :=
          (cluster.redis.expiry.take (store.redisKey key) (cluster.redis.now + claimTtl)) })
  | .release key, cluster =>
      (.ok (), { cluster with redis.expiry := cluster.redis.expiry.giveBack (store.redisKey key) })
  | op, cluster => ((handle (quietEnv 4) op ⟨0, cluster.keys, .memory ⟨10, []⟩⟩).1, cluster)

section Serve

variable {cluster : Cluster} {op : Op} {key : Bytes}

theorem serve_taken (taken : cluster.redis.expiry.Taken cluster.redis.now (store.redisKey key)) :
    cluster.serve store (.claim key) = (.ok false, cluster) :=
  if_pos taken

theorem serve_free (free : ¬ cluster.redis.expiry.Taken cluster.redis.now (store.redisKey key)) :
    cluster.serve store (.claim key) = (.ok true, { cluster with redis.expiry :=
      (cluster.redis.expiry.take (store.redisKey key) (cluster.redis.now + claimTtl)) }) :=
  if_neg free

theorem serve_reads (reads : op.Reads) (replay : ReplayStore) :
    cluster.serve store op = ((handle (quietEnv 4) op ⟨0, cluster.keys, replay⟩).1, cluster) := by
  cases op with
  | put record => exact reads.elim
  | claim key => exact reads.elim
  | release key => exact reads.elim
  | _ => rfl

end Serve

theorem reads_quiet (op : Op) (world : World) :
    op.ReadsFrom world.keys (handle (quietEnv 4) op world).1 := by
  have answers : (sharedWorld Env.Reliable).Answers world op (handle (quietEnv 4) op world).1
      (handle (quietEnv 4) op world).2 := ⟨quietEnv 4, quietEnv_reliable 4, rfl⟩
  exact readsFrom_of_answers answers

theorem answers_serve (op : Op) (cluster : Cluster) :
    cluster.Answers store op (cluster.serve store op).1 (cluster.serve store op).2 := by
  cases op with
  | claim key =>
      by_cases taken : cluster.redis.expiry.Taken cluster.redis.now (store.redisKey key)
      · rw [serve_taken taken]
        exact ⟨.ok false, cluster.redis, ⟨taken, rfl⟩, rfl, rfl⟩
      · rw [serve_free taken]
        refine ⟨.ok true, _, ⟨taken, ?_⟩, rfl, rfl⟩
        rw [term_claimTtl]
  | release key => exact ⟨.ok (), _, rfl, rfl, rfl⟩
  | put record => exact .inl rfl
  | get id => exact ⟨reads_quiet (.get id) ⟨0, cluster.keys, .memory ⟨10, []⟩⟩, rfl⟩
  | _ => exact ⟨trivial, rfl⟩

/-- No term reaches further than a day from now, and the keys stay. -/
def Cluster.At (keys : Keys) (now : Nat) (cluster : Cluster) : Prop :=
  cluster.keys = keys ∧ cluster.redis.now = now ∧ ∀ name, cluster.redis.expiry name ≤ now + claimTtl

theorem serve_at {keys : Keys} {now : Nat} (op : Op) (cluster : Cluster)
    (holds : cluster.At keys now) : (cluster.serve store op).2.At keys now := by
  obtain ⟨same, clock, terms⟩ := holds
  cases op with
  | claim key =>
      by_cases taken : cluster.redis.expiry.Taken cluster.redis.now (store.redisKey key)
      · rw [serve_taken taken]
        exact ⟨same, clock, terms⟩
      · rw [serve_free taken]
        refine ⟨same, clock, fun name => ?_⟩
        by_cases own : name = store.redisKey key
        · subst own
          simp [Leases.take, clock]
        · simpa [Leases.take, Function.update_of_ne own] using terms name
  | release key =>
      refine ⟨same, clock, fun name => ?_⟩
      by_cases own : name = store.redisKey key
      · subst own
        simp [Cluster.serve, Leases.giveBack]
      · simpa [Cluster.serve, Leases.giveBack, Function.update_of_ne own] using terms name
  | _ => exact ⟨same, clock, terms⟩

/-- A single server's world that answers as the cluster does, as long as a claim that is
still to come is free in both. -/
structure Mirrors (store : RedisReplayStore) (keys : Keys) (isKey : Bytes → Prop) (slot : Slot)
    (world : World) (cluster : Cluster) : Prop where
  now : world.now = 0
  own : world.keys = keys
  keys : cluster.keys = keys
  replay : ∃ seen, world.replay = .memory ⟨10, seen⟩
  free : slot = .unclaimed → world.replay = .memory ⟨10, []⟩ ∧ ∀ key, isKey key →
    ¬ cluster.redis.expiry.Taken cluster.redis.now (store.redisKey key)

section Mirrors

variable {keys : Keys} {isKey : Bytes → Prop} {slot : Slot} {world : World} {cluster : Cluster}
  {op : Op}

/-- A reading operation. -/
theorem Mirrors.reads (mirrors : Mirrors store keys isKey slot world cluster) (reads : op.Reads)
    (same : ∀ answer, slot.see op answer = slot) :
    (handle (quietEnv 4) op world).1 = (cluster.serve store op).1 ∧
      op.ReadsFrom keys (handle (quietEnv 4) op world).1 ∧
      Mirrors store keys isKey (slot.see op (handle (quietEnv 4) op world).1)
        (handle (quietEnv 4) op world).2 (cluster.serve store op).2 := by
  have alike : world = ⟨0, cluster.keys, world.replay⟩ := by
    rw [mirrors.keys, ← mirrors.own, ← mirrors.now]
  have reading := reads_quiet op world
  rw [mirrors.own] at reading
  rw [same, serve_reads reads world.replay, handle_of_reads reads world, ← alike]
  exact ⟨rfl, reading, mirrors⟩

/-- The two answer one operation alike. -/
theorem Mirrors.step (mirrors : Mirrors store keys isKey slot world cluster)
    (allows : slot.Allows isKey op) :
    (handle (quietEnv 4) op world).1 = (cluster.serve store op).1 ∧
      op.ReadsFrom keys (handle (quietEnv 4) op world).1 ∧
      Mirrors store keys isKey (slot.see op (handle (quietEnv 4) op world).1)
        (handle (quietEnv 4) op world).2 (cluster.serve store op).2 := by
  cases op with
  | put record => exact allows.elim
  | claim key =>
      obtain ⟨replay, free⟩ := mirrors.free allows.1
      have claimed : world.replay.claim key world.now (.ok ()) =
          (.ok true, .memory ⟨10, [(key, world.now)]⟩) := by
        rw [replay]
        rfl
      have answered : handle (quietEnv 4) (.claim key) world =
          (.ok true, { world with replay := .memory ⟨10, [(key, world.now)]⟩ }) := by
        change ((world.replay.claim key world.now (.ok ())).1,
          ({ world with replay := (world.replay.claim key world.now (.ok ())).2 } : World)) = _
        rw [claimed]
      rw [answered, serve_free (free key allows.2)]
      refine ⟨rfl, trivial, mirrors.now, mirrors.own, mirrors.keys, ⟨_, rfl⟩, ?_⟩
      intro unclaimed
      cases unclaimed
  | release key =>
      obtain ⟨seen, replay⟩ := mirrors.replay
      have released : world.replay.release key world.now (.ok ()) =
          (.ok (), .memory ⟨10, Claims.remove seen key⟩) := by
        rw [replay]
        rfl
      refine ⟨congrArg Prod.fst released, trivial, mirrors.now, mirrors.own, mirrors.keys,
        ⟨_, congrArg Prod.snd released⟩, ?_⟩
      intro unclaimed
      cases unclaimed
  | _ => exact mirrors.reads trivial (fun _ => rfl)

end Mirrors

/-- A blob that a single server decrypts is decrypted here, when all terms are over. -/
theorem serve_decrypts {cluster : Cluster} {blob : EncryptedBlob}
    (ended : ∀ name, cluster.redis.expiry name ≤ cluster.redis.now)
    (reads : Decrypts plainKeystore (quietEnv 4) ⟨0, cluster.keys, .memory ⟨10, []⟩⟩ blob ⟨[]⟩ ⟨[]⟩
      [1]) :
    ((plainKeystore.decrypt blob ⟨[]⟩ ⟨[]⟩).run (Cluster.serve store) cluster).1 = .ok [1] := by
  have mirrors : Mirrors store cluster.keys (ReplayKey plainKeystore cluster.keys blob) .unclaimed
      ⟨0, cluster.keys, .memory ⟨10, []⟩⟩ cluster :=
    ⟨rfl, rfl, rfl, ⟨[], rfl⟩, fun _ => ⟨rfl, fun key _ => Nat.not_lt_of_le (ended _)⟩⟩
  have both := Meets.runBoth (fun _ _ _ _ mirrors allows => mirrors.step allows)
    (decrypt_claiming blob ⟨[]⟩ ⟨[]⟩) mirrors
  rw [← both.1]
  exact (decrypt_eq_ok_iff_free (quietEnv_reliable 4)).mpr ⟨slotFree_of_empty rfl blob, reads⟩

/-- A caller decrypts a readable blob when all terms are over, at one instant, and has not
returned yet. -/
theorem exists_served {blob : EncryptedBlob} {keys : Keys} {now : Nat} (caller : ι)
    (runs : Pool.Runs (clusterWorld store) start trace pool)
    (waiting : pool.thread caller =
      .running ((Call.decrypt blob ⟨[]⟩ ⟨[]⟩).prog plainKeystore 0))
    (holds : pool.shared.At keys now) (ended : ∀ name, pool.shared.redis.expiry name ≤ now)
    (reads : Decrypts plainKeystore (quietEnv 4) ⟨0, keys, .memory ⟨10, []⟩⟩ blob ⟨[]⟩ ⟨[]⟩ [1]) :
    ∃ more after, Pool.Runs (clusterWorld store) start (trace ++ more)
        ⟨after, Function.update pool.thread caller (.running (.ret (.plaintext [1])))⟩ ∧
      after.At keys now ∧ ∀ entry ∈ more, entry.event.caller? = some caller ∧
        entry.before.redis.now = now := by
  obtain ⟨rfl, rfl, -⟩ := id holds
  have whole : (((Call.decrypt blob ⟨[]⟩ ⟨[]⟩).prog plainKeystore 0).run (Cluster.serve store)
      pool.shared).1 = .ok (.plaintext [1]) := run_bind_ret_eq_ok _ (serve_decrypts ended reads)
  obtain ⟨more, played, later, mine⟩ := runs.play answers_serve serve_at waiting holds
  rw [whole] at played
  refine ⟨more, _, played, later, fun entry member => ?_⟩
  obtain ⟨own, -, clock, -⟩ := mine entry member
  exact ⟨own, clock⟩

omit [DecidableEq ι] in
/-- Calls that begin and end in a window each. -/
theorem promptWithin_of_since (since : ι → Nat)
    (window : ∀ entry ∈ trace, ∀ caller, entry.event.caller? = some caller →
      since caller ≤ entry.before.redis.now ∧ entry.before.redis.now ≤ since caller + limit) :
    PromptWithin limit trace := by
  intro first early last late caller begins ends
  have opens := (window first early caller begins).1
  have closes := (window last late caller ends).2
  omega

/-- Servers that all have one blob to decrypt. -/
def waitingCluster (blob : EncryptedBlob) (cluster : Cluster) : ClusterPool ι :=
  ⟨cluster, fun _ => .running ((Call.decrypt blob ⟨[]⟩ ⟨[]⟩).prog plainKeystore 0)⟩

/-- A store with the default prefix. -/
def defaultRedis : RedisReplayStore := ⟨"citadel:replay:", true⟩

/-- Two servers decrypt one blob, a day apart. -/
theorem exists_decrypted_twice (store : RedisReplayStore) :
    ∃ (blob : EncryptedBlob) (cluster : Cluster) (trace : ClusterTrace Bool)
        (pool : ClusterPool Bool),
      Pool.Runs (clusterWorld store) (waitingCluster blob cluster) trace pool ∧
      PromptWithin 0 trace ∧ Returned trace false (.ok (.plaintext [1])) ∧
      Returned trace true (.ok (.plaintext [1])) := by
  obtain ⟨world, blob, -, -, -, -, -, -, -, -, -, reads⟩ := exists_readable (.memory ⟨10, []⟩)
  have decrypts := reads ⟨0, world.keys, .memory ⟨10, []⟩⟩ rfl
  let cluster : Cluster := ⟨world.keys, 0, fun _ => 0⟩
  have start : Pool.Runs (clusterWorld store) (waitingCluster blob cluster : ClusterPool Bool) []
    _ := .refl
  have begins : cluster.At world.keys 0 := ⟨rfl, rfl, fun _ => Nat.zero_le _⟩
  obtain ⟨firstSteps, first, played, ⟨keys, clock, terms⟩, firstTimes⟩ := exists_served false start
    rfl begins (fun _ => Nat.le_refl 0) decrypts
  have answered := played.step (.return (Function.update_self _ _ _) rfl)
  let tomorrow : Cluster := ⟨first.keys, claimTtl, first.redis.expiry⟩
  have drifts : (clusterWorld store).Drifts first tomorrow :=
    ⟨clock.trans_le (Nat.zero_le _), rfl, fun _ => rfl⟩
  have passed := answered.step (.drift drifts)
  have ended : ∀ name, tomorrow.redis.expiry name ≤ claimTtl :=
    fun name => (terms name).trans (Nat.le_of_eq (Nat.zero_add _))
  have goesOn : tomorrow.At world.keys claimTtl :=
    ⟨keys, rfl, fun name => (ended name).trans (Nat.le_add_right _ _)⟩
  obtain ⟨secondSteps, second, playedToo, ⟨-, clockToo, -⟩, secondTimes⟩ :=
    exists_served true passed rfl goesOn ended decrypts
  have answeredToo := playedToo.step (.return (Function.update_self _ _ _) rfl)
  refine ⟨blob, cluster, _, _, answeredToo, ?_, ⟨first, by simp⟩, ⟨second, by simp⟩⟩
  apply promptWithin_of_since fun caller : Bool => if caller then claimTtl else 0
  intro entry member caller mine
  simp only [List.mem_append, List.mem_singleton, List.not_mem_nil, false_or] at member
  rcases member with (((steps | rfl) | rfl) | steps) | rfl
  · obtain ⟨own, now⟩ := firstTimes entry steps
    rw [own] at mine
    cases mine
    simp [now]
  · cases mine
    simp [clock]
  · cases mine
  · obtain ⟨own, now⟩ := secondTimes entry steps
    rw [own] at mine
    cases mine
    simp [now]
  · cases mine
    simp [clockToo]

/-- The claims of both. -/
theorem decrypted_twice_apart :
    ∃ (blob : EncryptedBlob) (cluster : Cluster) (trace : ClusterTrace Bool)
        (pool : ClusterPool Bool) (key : Bytes) (first second : Nat),
      Pool.Runs (clusterWorld defaultRedis) (waitingCluster blob cluster) trace pool ∧
      claimOf trace false = some (key, first) ∧ claimOf trace true = some (key, second) ∧
      (first + claimTtl ≤ second ∨ second + claimTtl ≤ first) := by
  obtain ⟨blob, cluster, trace, pool, runs, prompt, left, right⟩ :=
    exists_decrypted_twice defaultRedis
  have decryptors : ClusterDecryptors plainKeystore (fun _ : Bool => blob)
      (waitingCluster blob cluster) := fun _ => ⟨⟨[]⟩, ⟨[]⟩, 0, rfl⟩
  obtain ⟨key, first, second, leftHolds, rightHolds, apart⟩ := servers_decrypt_once decryptors runs
    (by decide : 0 < claimTtl) prompt (by decide : false ≠ true) rfl rfl rfl left right
  exact ⟨blob, cluster, trace, pool, key, first, second, runs, leftHolds, rightHolds, apart⟩

/-! ### Refusals -/

/-- Somebody tried to claim a key and may have got it, and nobody was told since that it was
given back. -/
def TriedAt (key : Bytes) (trace : ClusterTrace ι) (time : Nat) : Prop :=
  ∃ past entry rest, trace = past ++ entry :: rest ∧ entry.before.redis.now = time ∧
    (∃ caller answer, entry.event = .performed caller (.claim key) answer ∧ answer ≠ .ok false) ∧
      ∀ later ∈ rest, ∀ caller, later.event ≠ .performed caller (.release key) (.ok ())

omit [DecidableEq ι] in
theorem TriedAt.snoc {key : Bytes} {time : Nat}
    {entry : Entry Cluster ι Op Op.Ret CallError CallValue} (tried : TriedAt key trace time)
    (unreleased : ∀ caller, entry.event ≠ .performed caller (.release key) (.ok ())) :
    TriedAt key (trace ++ [entry]) time := by
  obtain ⟨past, moment, rest, rfl, when, claim, none⟩ := tried
  refine ⟨past, moment, rest ++ [entry], by rw [List.append_assoc, List.cons_append], when,
    claim, ?_⟩
  intro later member
  rcases List.mem_append.mp member with old | last
  · exact none later old
  · rw [List.mem_singleton.mp last]
    exact unreleased

/-- A key of the store is free at Redis, or expires when it did in the beginning, or a day
after somebody tried to claim it. -/
def Expires (store : RedisReplayStore) (first : Cluster) (trace : ClusterTrace ι)
    (cluster : Cluster) (key : Bytes) : Prop :=
  cluster.redis.expiry (store.redisKey key) ≤ cluster.redis.now ∨
    cluster.redis.expiry (store.redisKey key) = first.redis.expiry (store.redisKey key) ∨
      ∃ time, TriedAt key trace time ∧
        cluster.redis.expiry (store.redisKey key) = time + claimTtl

theorem redisKey_injective {key other : Bytes} (same : store.redisKey key = store.redisKey other) :
    key = other := by
  apply hexEncode_injective
  unfold RedisReplayStore.redisKey at same
  simpa [toString] using same

section Step

variable {first cluster after : Cluster} {key : Bytes} {caller : ι} {op : Op} {answer : op.Ret}
  {entry : Entry Cluster ι Op Op.Ret CallError CallValue}

omit [DecidableEq ι] in
/-- A step that leaves a key as it is at Redis. -/
theorem Expires.keep (expires : Expires store first trace cluster key)
    (later : cluster.redis.now ≤ after.redis.now)
    (same : after.redis.expiry (store.redisKey key) = cluster.redis.expiry (store.redisKey key))
    (unreleased : ∀ caller, entry.event ≠ .performed caller (.release key) (.ok ())) :
    Expires store first (trace ++ [entry]) after key := by
  unfold Expires
  rw [same]
  rcases expires with ended | old | ⟨time, tried, ends⟩
  · exact .inl (ended.trans later)
  · exact .inr (.inl old)
  · exact .inr (.inr ⟨time, tried.snoc unreleased, ends⟩)

omit [DecidableEq ι] in
/-- A claim that may have been executed. -/
theorem Expires.claim {granted : Except ReplayError Bool} (tried : granted ≠ .ok false) :
    Expires store first (trace ++ [⟨cluster, .performed caller (.claim key) granted⟩])
      { cluster with redis.expiry := (cluster.redis.expiry.take (store.redisKey key)
        (cluster.redis.now + claimTtl)) } key := by
  refine .inr (.inr ⟨cluster.redis.now, ⟨trace, _, [], rfl, rfl, ⟨caller, granted, rfl, tried⟩, ?_⟩,
    Function.update_self _ _ _⟩)
  intro later member
  cases member

omit [DecidableEq ι] in
/-- A key that was given back. -/
theorem Expires.giveBack : Expires store first (trace ++ [entry])
    { cluster with redis.expiry := cluster.redis.expiry.giveBack (store.redisKey key) } key := by
  left
  simp only [Leases.giveBack, Function.update_self]
  exact Nat.zero_le _

omit [DecidableEq ι] in
/-- Redis' answer to a claim. -/
theorem Expires.performClaim {other : Bytes} {granted : Except ReplayError Bool}
    (expires : Expires store first trace cluster key)
    (answers : cluster.Answers store (.claim other) granted after) :
    Expires store first (trace ++ [⟨cluster, .performed caller (.claim other) granted⟩]) after
      key := by
  obtain ⟨reply, redis, replies, answered, rfl⟩ := answers
  unfold RedisReplayStore.claimCommand at replies
  have keep : redis.now = cluster.redis.now →
      redis.expiry (store.redisKey key) = cluster.redis.expiry (store.redisKey key) →
      Expires store first (trace ++ [⟨cluster, .performed caller (.claim other) granted⟩])
        { cluster with redis } key := by
    intro now same
    apply expires.keep (Nat.le_of_eq now.symm) same
    intro actor event
    cases event
  have took : granted ≠ .ok false → redis = { cluster.redis with expiry :=
        (cluster.redis.expiry.take (store.redisKey other) (cluster.redis.now + claimTtl)) } →
      Expires store first (trace ++ [⟨cluster, .performed caller (.claim other) granted⟩])
        { cluster with redis } key := by
    intro tried taken
    by_cases same : key = other
    · subst same taken
      exact .claim tried
    · subst taken
      exact keep rfl (Function.update_of_ne (fun names => same (redisKey_injective names)) _ _)
  cases reply with
  | ok fresh =>
      cases fresh with
      | true =>
          obtain ⟨-, taken⟩ := replies
          rw [term_claimTtl] at taken
          exact took (by rw [answered]; intro same; cases same) taken
      | false =>
          obtain ⟨-, rfl⟩ := replies
          exact keep rfl rfl
  | error error =>
      rcases replies with rfl | ⟨-, taken⟩
      · exact keep rfl rfl
      · rw [term_claimTtl] at taken
        exact took (by rw [answered]; intro same; cases same) taken

omit [DecidableEq ι] in
/-- Redis' answer to a release. -/
theorem Expires.performRelease {other : Bytes} {given : Except ReplayError Unit}
    (expires : Expires store first trace cluster key)
    (answers : cluster.Answers store (.release other) given after) :
    Expires store first (trace ++ [⟨cluster, .performed caller (.release other) given⟩]) after
      key := by
  obtain ⟨reply, redis, replies, answered, rfl⟩ := answers
  unfold RedisReplayStore.releaseCommand at replies
  have keep : redis.now = cluster.redis.now →
      redis.expiry (store.redisKey key) = cluster.redis.expiry (store.redisKey key) →
      (key = other → given ≠ .ok ()) →
      Expires store first (trace ++ [⟨cluster, .performed caller (.release other) given⟩])
        { cluster with redis } key := by
    intro now same unreleased
    apply expires.keep (Nat.le_of_eq now.symm) same
    intro actor event
    cases event
    exact unreleased rfl rfl
  have gave : redis = { cluster.redis with
        expiry := cluster.redis.expiry.giveBack (store.redisKey other) } →
      Expires store first (trace ++ [⟨cluster, .performed caller (.release other) given⟩])
        { cluster with redis } key := by
    intro free
    by_cases same : key = other
    · subst same free
      exact .giveBack
    · subst free
      exact keep rfl (Function.update_of_ne (fun names => same (redisKey_injective names)) _ _)
        (fun equal => absurd equal same)
  cases reply with
  | ok done => exact gave replies
  | error error =>
      rcases replies with rfl | free
      · exact keep rfl rfl (fun _ done => by rw [answered] at done; cases done)
      · exact gave free

omit [DecidableEq ι] in
/-- One operation of a call. -/
theorem Expires.perform (expires : Expires store first trace cluster key)
    (answers : cluster.Answers store op answer after) :
    Expires store first (trace ++ [⟨cluster, .performed caller op answer⟩]) after key := by
  cases op with
  | claim other => exact expires.performClaim answers
  | release other => exact expires.performRelease answers
  | put record =>
      have redis : after.redis = cluster.redis := by
        rcases answers with rfl | rfl
        · rfl
        · rfl
      apply expires.keep (Nat.le_of_eq (by rw [redis])) (by rw [redis])
      intro actor event
      cases event
  | _ =>
      obtain ⟨-, rfl⟩ := answers
      apply expires.keep (Nat.le_refl _) rfl
      intro actor event
      cases event

end Step

/-- In every run of any calls, a key of the store is free at Redis, or expires when it did in
the beginning, or a day after somebody tried to claim it. -/
theorem expires_of_runs (runs : Pool.Runs (clusterWorld store) start trace pool) (key : Bytes) :
    Expires store start.shared trace pool.shared key := by
  refine runs.invariant (fun trace (pool : ClusterPool ι) =>
    ∀ key, Expires store start.shared trace pool.shared key) (fun _ => .inr (.inl rfl)) ?_ key
  intro trace pool event next _ expires step
  cases step with
  | perform _ answers => exact fun key => (expires key).perform answers
  | «return» _ _ =>
      intro key
      apply (expires key).keep (Nat.le_refl _) rfl
      intro other event
      cases event
  | drift drifts =>
      intro key
      apply (expires key).keep drifts.1 (drifts.2.2 key)
      intro other event
      cases event

/-- Whatever the servers do, and whatever gets lost on the way to Redis and back: a claim is
only refused while the key's first expiry is not over, or if somebody tried to claim the key
less than a day ago and nobody was told since that it was given back. -/
theorem refused_only_after_a_try (runs : Pool.Runs (clusterWorld store) start trace pool) :
    EveryStep (fun past entry => ∀ caller key,
      entry.event = .performed caller (.claim key) (.ok false) →
      entry.before.redis.now < start.shared.redis.expiry (store.redisKey key) ∨
        ∃ time, TriedAt key past time ∧ entry.before.redis.now < time + claimTtl) trace := by
  refine Pool.Runs.everyStep ?_ runs
  intro trace pool event next prior _ step caller key refused
  cases step with
  | perform _ answers =>
      cases refused
      obtain ⟨reply, redis, replies, answered, -⟩ := answers
      cases reply with
      | ok granted =>
          cases granted with
          | true => cases answered
          | false =>
              have taken : pool.shared.redis.now < pool.shared.redis.expiry (store.redisKey key) :=
                replies.1
              rcases expires_of_runs prior key with ended | old | ⟨time, tried, ends⟩
              · exact absurd taken (Nat.not_lt_of_le ended)
              · exact .inl (old ▸ taken)
              · exact .inr ⟨time, tried, ends ▸ taken⟩
      | error error => cases answered
  | «return» _ _ => cases refused
  | drift _ => cases refused

/-- Two claims at once, of which the second is refused. -/
theorem exists_refused (store : RedisReplayStore) :
    ∃ (start pool : ClusterPool Bool) (past : ClusterTrace Bool) (cluster : Cluster),
      Pool.Runs (clusterWorld store) start
        (past ++ [⟨cluster, .performed true (.claim [1]) (.ok false)⟩]) pool ∧
      start.shared.redis.expiry (store.redisKey [1]) ≤ cluster.redis.now := by
  let cluster : Cluster := ⟨Table.empty, 0, fun _ => 0⟩
  let start : ClusterPool Bool :=
    ⟨cluster, fun _ => .running (.perform (.claim [1]) fun _ => .ret (.plaintext []))⟩
  let held : Cluster := { cluster with redis.expiry :=
    (cluster.redis.expiry.take (store.redisKey [1]) claimTtl) }
  have free : ¬ cluster.redis.expiry.Taken 0 (store.redisKey [1]) := Nat.lt_irrefl 0
  have taken : held.redis.expiry.Taken 0 (store.redisKey [1]) := by
    have ends : held.redis.expiry (store.redisKey [1]) = claimTtl := Function.update_self _ _ _
    rw [Leases.Taken, ends]
    decide
  have granted : cluster.Answers store (.claim [1]) (.ok true) held := by
    refine ⟨.ok true, held.redis, ⟨free, ?_⟩, rfl, rfl⟩
    rw [term_claimTtl, Nat.zero_add]
  have refused : held.Answers store (.claim [1]) (.ok false) held :=
    ⟨.ok false, held.redis, ⟨taken, rfl⟩, rfl, rfl⟩
  have begins : Pool.Runs (clusterWorld store) start [] start := .refl
  let ends : (Op.claim [1]).Ret → Prog CallError CallValue := fun _ => .ret (.plaintext [])
  have first := begins.step (@Pool.Step.perform _ _ _ _ _ _ (clusterWorld store) start false
    (.claim [1]) ends (.ok true) held rfl granted)
  have second := first.step (@Pool.Step.perform _ _ _ _ _ _ (clusterWorld store) _ true
    (.claim [1]) ends (.ok false) held rfl refused)
  exact ⟨start, _, _, held, second, Nat.le_refl 0⟩

/-- The second of two claims at once is refused because of the first. -/
theorem second_claim_refused :
    ∃ (start pool : ClusterPool Bool) (past : ClusterTrace Bool) (cluster : Cluster),
      Pool.Runs (clusterWorld defaultRedis) start
        (past ++ [⟨cluster, .performed true (.claim [1]) (.ok false)⟩]) pool ∧
      ∃ time, TriedAt [1] past time ∧ cluster.redis.now < time + claimTtl := by
  obtain ⟨start, pool, past, cluster, runs, ended⟩ := exists_refused defaultRedis
  refine ⟨start, pool, past, cluster, runs, ?_⟩
  rcases refused_only_after_a_try runs past _ [] rfl true [1] rfl with old | tried
  · exact absurd old (Nat.not_lt_of_le ended)
  · exact tried

end Whole

end Runs

end Citadel
