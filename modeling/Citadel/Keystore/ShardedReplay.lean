import Citadel.Keystore.ReplayReference

/-!
# The sharded replay cache

A sharded cache spreads the replay keys over many stores by their first byte. A shard forgets
its expired claims only when a key of its own is claimed, where a single store forgets all of
them at every claim. Over memory stores of one time to live nobody can tell.
-/

namespace Citadel

open Machine

def shardCount : Nat := 256

/-- `ShardedReplayCache`. -/
structure ShardedReplayCache where
  shards : Vector ReplayStore shardCount

/-- `shard_index`. -/
def shardIndex : Bytes → Nat
  | [] => 0
  | first :: _ => first.toNat

theorem shardIndex_lt (key : Bytes) : shardIndex key < shardCount := by
  cases key with
  | nil => exact Nat.zero_lt_succ 255
  | cons first rest => exact first.toNat_lt

namespace ShardedReplayCache

/-- `ShardedReplayCache::new`; the factory is asked once for each shard. -/
def new (storeFactory : Fin shardCount → Except ReplayError ReplayStore) :
    Except ReplayError ShardedReplayCache := do
  let shards ← Vector.ofFnM storeFactory
  return ⟨shards⟩

/-- `get_shard`. -/
def getShard (cache : ShardedReplayCache) (key : Bytes) : ReplayStore :=
  cache.shards.get ⟨shardIndex key, shardIndex_lt key⟩

/-- The cache after a call has changed the shard of a key. -/
def setShard (cache : ShardedReplayCache) (key : Bytes) (shard : ReplayStore) :
    ShardedReplayCache :=
  ⟨cache.shards.set (shardIndex key) shard (shardIndex_lt key)⟩

/-- `ShardedReplayCache::claim`. -/
def claim (cache : ShardedReplayCache) (key : Bytes) (now : Nat)
    (flushed : Except ReplayError Unit) : Except ReplayError Bool × ShardedReplayCache :=
  let (answer, shard) := (cache.getShard key).claim key now flushed
  (answer, cache.setShard key shard)

/-- `ShardedReplayCache::release`. -/
def release (cache : ShardedReplayCache) (key : Bytes) (now : Nat)
    (flushed : Except ReplayError Unit) : Except ReplayError Unit × ShardedReplayCache :=
  let (answer, shard) := (cache.getShard key).release key now flushed
  (answer, cache.setShard key shard)

/-- A cache answers a call. -/
def serve (cache : ShardedReplayCache) (step : TraitStep) : ReplayAnswer × ShardedReplayCache :=
  match step.call with
  | .claim key _ttl =>
      (.claimed (cache.claim key step.now step.flushed).1,
        (cache.claim key step.now step.flushed).2)
  | .release key =>
      (.done (cache.release key step.now step.flushed).1,
        (cache.release key step.now step.flushed).2)

variable {cache : ShardedReplayCache} {key other : Bytes} {shard : ReplayStore}

/-- A changed shard is seen by the keys of that shard only. -/
theorem getShard_setShard :
    (cache.setShard key shard).getShard other =
      if shardIndex key = shardIndex other then shard else cache.getShard other :=
  Vector.getElem_set (shardIndex_lt key) (shardIndex_lt other)

/-- A factory that never fails fills every shard. -/
theorem new_pure (store : ReplayStore) :
    new (fun _ => .ok store) = .ok ⟨Vector.ofFn fun _ => store⟩ := by
  have filled : (Vector.ofFnM fun _ : Fin shardCount => (.ok store : Except ReplayError _)) =
      .ok (Vector.ofFn fun _ => store) := Vector.ofFnM_pure
  rw [new, filled]
  rfl

theorem getShard_ofFn (store : ReplayStore) :
    (ShardedReplayCache.mk (Vector.ofFn fun _ => store)).getShard key = store :=
  Vector.getElem_ofFn (shardIndex_lt key)

end ShardedReplayCache

/-- A memory store with a time to live. -/
def ReplayStore.IsMemory (ttl : Nat) (store : ReplayStore) : Prop :=
  ∃ seen, store = .memory ⟨ttl, seen⟩

namespace ReplayStore

variable {ttl : Nat} {store : ReplayStore} {key other : Bytes} {now later : Nat}

/-- The answer of a memory store to a claim says whether the key counts. -/
theorem IsMemory.claim_answer (memory : store.IsMemory ttl) (flushed : Except ReplayError Unit) :
    (store.claim key now flushed).1 = .ok (!store.counts key now) := by
  obtain ⟨seen, rfl⟩ := memory
  cases present : counts (.memory ⟨ttl, seen⟩) key now with
  | true => exact claim_present present flushed
  | false =>
      apply (claim_absent_true present ttl flushed).mpr
      intro written
      cases written

theorem IsMemory.claim (memory : store.IsMemory ttl) (flushed : Except ReplayError Unit) :
    (store.claim key now flushed).2.IsMemory ttl := by
  obtain ⟨seen, rfl⟩ := memory
  exact serve_memory ⟨ttl, seen⟩ ⟨.claim key ttl, now, flushed⟩

theorem IsMemory.release (memory : store.IsMemory ttl) (flushed : Except ReplayError Unit) :
    (store.release key now flushed).2.IsMemory ttl := by
  obtain ⟨seen, rfl⟩ := memory
  exact serve_memory ⟨ttl, seen⟩ ⟨.release key, now, flushed⟩

/-- What a memory store counts after a claim. -/
theorem IsMemory.counts_claim (memory : store.IsMemory ttl) (flushed : Except ReplayError Unit)
    (ordered : now ≤ later) :
    (store.claim key now flushed).2.counts other later =
      if store.counts key now = false ∧ key = other then decide (later - now < ttl)
      else store.counts other later := by
  have answer : (store.claim key now flushed).1 = .ok (!store.counts key now) :=
    memory.claim_answer flushed
  cases present : store.counts key now with
  | true =>
      rw [present] at answer
      rw [counts_refused _ ordered, if_neg]
      · simp
      · rw [answer]
        simp
  | false =>
      rw [present] at answer
      rw [counts_claimed answer ordered]
      obtain ⟨seen, rfl⟩ := memory
      by_cases equal : key = other
      · simp only [equal, live, stamp, and_self, if_true]
        rfl
      · simp [equal]

end ReplayStore

namespace ShardedReplayCache

variable {ttl clock now : Nat} {cache : ShardedReplayCache} {single : ReplayStore}
  {key other : Bytes} {step : TraitStep}

/-- The shards together count what one store counts, from an instant on. -/
structure Joined (ttl clock : Nat) (cache : ShardedReplayCache) (single : ReplayStore) : Prop where
  shards : ∀ key, (cache.getShard key).IsMemory ttl
  whole : single.IsMemory ttl
  counts : ∀ key now, clock ≤ now → (cache.getShard key).counts key now = single.counts key now

theorem getShard_congr (same : shardIndex key = shardIndex other) :
    cache.getShard key = cache.getShard other := by
  simp only [getShard, same]

theorem Joined.claim (joined : Joined ttl clock cache single) (key : Bytes) (next : clock ≤ now)
    (flushed : Except ReplayError Unit) :
    (cache.claim key now flushed).1 = (single.claim key now flushed).1 ∧
      Joined ttl now (cache.claim key now flushed).2 (single.claim key now flushed).2 := by
  have counted := joined.counts key now next
  constructor
  · rw [joined.whole.claim_answer, ← counted]
    exact (joined.shards key).claim_answer flushed
  · apply Joined.mk
    · intro other
      simp only [ShardedReplayCache.claim, getShard_setShard]
      split
      · exact (joined.shards key).claim flushed
      · exact joined.shards other
    · exact joined.whole.claim flushed
    · intro other later ordered
      have kept := joined.counts other later (Nat.le_trans next ordered)
      simp only [ShardedReplayCache.claim, getShard_setShard]
      rw [joined.whole.counts_claim flushed ordered, ← counted, ← kept]
      split
      · rename_i same
        rw [(joined.shards key).counts_claim flushed ordered, getShard_congr same]
      · rename_i apart
        rw [if_neg]
        rintro ⟨_, rfl⟩
        exact apart rfl

theorem Joined.release (joined : Joined ttl clock cache single) (key : Bytes) (next : clock ≤ now)
    (flushed : Except ReplayError Unit) :
    (cache.release key now flushed).1 = (single.release key now flushed).1 ∧
      Joined ttl now (cache.release key now flushed).2 (single.release key now flushed).2 := by
  constructor
  · obtain ⟨seen, whole⟩ := joined.whole
    obtain ⟨held, shard⟩ := joined.shards key
    simp only [ShardedReplayCache.release, shard, whole]
    rfl
  · apply Joined.mk
    · intro other
      simp only [ShardedReplayCache.release, getShard_setShard]
      split
      · exact (joined.shards key).release flushed
      · exact joined.shards other
    · exact joined.whole.release flushed
    · intro other later ordered
      have kept := joined.counts other later (Nat.le_trans next ordered)
      simp only [ShardedReplayCache.release, getShard_setShard]
      rw [ReplayStore.counts_released, ← kept]
      split
      · rename_i same
        rw [ReplayStore.counts_released, getShard_congr same]
      · rename_i apart
        rw [if_neg]
        rintro rfl
        exact apart rfl

/-- A call gets one answer from both and leaves them counting the same claims. -/
theorem Joined.serve (joined : Joined ttl clock cache single) (next : clock ≤ step.now) :
    (cache.serve step).1 = (single.serve step).1 ∧
      Joined ttl step.now (cache.serve step).2 (single.serve step).2 := by
  obtain ⟨call, now, flushed⟩ := step
  cases call with
  | claim key named =>
      obtain ⟨same, kept⟩ := joined.claim key next flushed
      exact ⟨congrArg ReplayAnswer.claimed same, kept⟩
  | release key =>
      obtain ⟨same, kept⟩ := joined.release key next flushed
      exact ⟨congrArg ReplayAnswer.done same, kept⟩

/-- A cache of fresh shards counts what one fresh store counts. -/
theorem joined_fresh (ttl : Nat) :
    Joined ttl 0 ⟨Vector.ofFn fun _ => .memory ⟨ttl, []⟩⟩ (.memory ⟨ttl, []⟩) := by
  apply Joined.mk
  · intro key
    rw [getShard_ofFn]
    exact ⟨[], rfl⟩
  · exact ⟨[], rfl⟩
  · intro key now _
    rw [getShard_ofFn]

/-- On a clock that does not go back, a sharded cache over memory stores gives the answers of
one memory store of the same time to live, whatever is claimed and released. -/
theorem answers_as_single {ttl : Nat} {steps : List TraitStep}
    (ordered : (steps.map TraitStep.now).Pairwise (· ≤ ·)) :
    ∃ cache, new (fun _ => .ok (.memory ⟨ttl, []⟩)) = .ok cache ∧
      answers serve cache steps = answers ReplayStore.serve (.memory ⟨ttl, []⟩) steps := by
  refine ⟨_, new_pure (.memory ⟨ttl, []⟩), ?_⟩
  apply answers_eq (Joined ttl) _ (ReplayStore.pairwise_zero ordered) (joined_fresh ttl)
  intro clock cache single step next joined
  exact joined.serve next

/-- Two keys of one shard, a stale claim and the empty key. -/
theorem answers_as_single_mixed :
    ∃ cache, new (fun _ => .ok (.memory ⟨5, []⟩)) = .ok cache ∧
      answers serve cache
          [⟨.claim [] 5, 0, .ok ()⟩, ⟨.claim [0, 1] 5, 6, .ok ()⟩, ⟨.claim [] 5, 6, .ok ()⟩,
            ⟨.release [], 7, .ok ()⟩] =
        answers ReplayStore.serve (.memory ⟨5, []⟩)
          [⟨.claim [] 5, 0, .ok ()⟩, ⟨.claim [0, 1] 5, 6, .ok ()⟩, ⟨.claim [] 5, 6, .ok ()⟩,
            ⟨.release [], 7, .ok ()⟩] :=
  answers_as_single (by decide)

end ShardedReplayCache

end Citadel
