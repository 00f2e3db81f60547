import Citadel.Data.Bytes
import Citadel.Envelope.Backend
import Citadel.Keystore.Policy

/-!
# Replay stores

A store remembers which replay keys were claimed and when. `claim` first forgets
what is older than the store's own time to live, then checks and inserts in one
step; `release` forgets one key. The memory store counts nanoseconds of a
monotonic clock, the file store whole seconds of the system clock, and the file
store also writes its claims to disk in batches, which can fail.

Both stores are one `ReplayStore`, described by `claim_spec` and `release_spec` in
terms of the claims it holds.
-/

namespace Citadel

open Envelope

/-- `derive_replay_key`. -/
def deriveReplayKey (crypto : Crypto) (domainId keyId : String) (keyVersion : Nat)
    (nonce : SizedBytes 12) (aeadTag : Bytes) : Bytes :=
  (crypto.sha256 (utf8 domainId ++ utf8 keyId ++ beBytes 4 keyVersion ++ nonce.1 ++ aeadTag)).1

/-- Claimed keys with the instant of their claim. -/
abbrev Claims := List (Bytes × Nat)

/-- Whether a key is claimed (`contains_key`). -/
def Claims.contains (claims : Claims) (key : Bytes) : Bool :=
  claims.any fun entry => entry.1 = key

/-- Forget a key (`HashMap::remove`). -/
def Claims.remove (claims : Claims) (key : Bytes) : Claims :=
  claims.filter fun entry => entry.1 ≠ key

/-- `MemoryReplayStore`. -/
structure MemoryReplayStore where
  ttl : Nat
  seen : Claims
  deriving DecidableEq, Repr

/-- `evict_expired`. -/
def MemoryReplayStore.evictExpired (store : MemoryReplayStore) (now : Nat) : Claims :=
  store.seen.filter fun entry => now - entry.2 < store.ttl

/-- `MemoryReplayStore::claim`. -/
def MemoryReplayStore.claim (store : MemoryReplayStore) (key : Bytes) (now : Nat) :
    Except ReplayError Bool × MemoryReplayStore :=
  let seen := store.evictExpired now
  if seen.contains key then (.ok false, { store with seen })
  else (.ok true, { store with seen := (key, now) :: seen })

/-- `MemoryReplayStore::release`. -/
def MemoryReplayStore.release (store : MemoryReplayStore) (key : Bytes) :
    Except ReplayError Unit × MemoryReplayStore :=
  (.ok (), { store with seen := store.seen.remove key })

/-- `FileReplayStore`, without the file: nothing reads it back while the process
lives. -/
structure FileReplayStore where
  defaultTtlSecs : Nat
  claims : Claims
  opsSinceFlush : Nat
  lastFlush : Nat
  deriving DecidableEq, Repr

def batchSize : Nat := 100
def batchIntervalSecs : Nat := 5
def highWaterMark : Nat := 10000

/-- `should_flush`. -/
def FileReplayStore.shouldFlush (store : FileReplayStore) (now : Nat) : Bool :=
  batchSize ≤ store.opsSinceFlush || batchIntervalSecs ≤ asSecs (now - store.lastFlush) ||
    highWaterMark ≤ store.claims.length

/-- The claims that are not older than the cutoff. -/
def FileReplayStore.evictExpired (store : FileReplayStore) (now : Nat) : Claims :=
  store.claims.filter fun entry => asSecs now - store.defaultTtlSecs ≤ entry.2

/-- `FileReplayStore::claim`; `flushed` is how a write to disk would end. -/
def FileReplayStore.claim (store : FileReplayStore) (key : Bytes) (now : Nat)
    (flushed : Except ReplayError Unit) : Except ReplayError Bool × FileReplayStore :=
  let live := store.evictExpired now
  if live.contains key then (.ok false, { store with claims := live })
  else
    let claimed : FileReplayStore :=
      { store with
        claims := (key, asSecs now) :: live
        opsSinceFlush := store.opsSinceFlush + 1 }
    if claimed.shouldFlush now then
      match flushed with
      | .error error => (.error error, { claimed with claims := claimed.claims.remove key })
      | .ok _ => (.ok true, { claimed with opsSinceFlush := 0, lastFlush := now })
    else (.ok true, claimed)

/-- `FileReplayStore::release`. -/
def FileReplayStore.release (store : FileReplayStore) (key : Bytes) (now : Nat)
    (flushed : Except ReplayError Unit) : Except ReplayError Unit × FileReplayStore :=
  let released := { store with claims := store.claims.remove key }
  match flushed with
  | .error error => (.error error, released)
  | .ok _ => (.ok (), { released with opsSinceFlush := 0, lastFlush := now })

/-- The store a keystore holds (`Box<dyn ReplayStore>`). -/
inductive ReplayStore where
  | memory (store : MemoryReplayStore)
  | file (store : FileReplayStore)
  deriving DecidableEq, Repr

namespace ReplayStore

/-- `claim`. -/
def claim (store : ReplayStore) (key : Bytes) (now : Nat) (flushed : Except ReplayError Unit) :
    Except ReplayError Bool × ReplayStore :=
  match store with
  | .memory store => ((store.claim key now).1, .memory (store.claim key now).2)
  | .file store => ((store.claim key now flushed).1, .file (store.claim key now flushed).2)

/-- `release`. -/
def release (store : ReplayStore) (key : Bytes) (now : Nat) (flushed : Except ReplayError Unit) :
    Except ReplayError Unit × ReplayStore :=
  match store with
  | .memory store => ((store.release key).1, .memory (store.release key).2)
  | .file store => ((store.release key now flushed).1, .file (store.release key now flushed).2)

/-- The time to live of a store, in nanoseconds. -/
def ttl : ReplayStore → Nat
  | .memory store => store.ttl
  | .file store => fromSecs store.defaultTtlSecs

/-- The claims a store holds. -/
def entries : ReplayStore → Claims
  | .memory store => store.seen
  | .file store => store.claims

/-- The stamp a store gives a claim made at an instant. -/
def stamp : ReplayStore → Nat → Nat
  | .memory _, now => now
  | .file _, now => asSecs now

/-- Whether a claim with a stamp still counts at an instant. -/
def live : ReplayStore → Nat → Nat → Bool
  | .memory store, stamp, now => now - stamp < store.ttl
  | .file store, stamp, now => asSecs now - store.defaultTtlSecs ≤ stamp

/-- The claims that still count at an instant. -/
def liveEntries (store : ReplayStore) (now : Nat) : Claims :=
  store.entries.filter fun entry => store.live entry.2 now

/-- Two stores that differ in their claims and counters only. -/
structure SameClock (left right : ReplayStore) : Prop where
  ttl : left.ttl = right.ttl
  stamp : left.stamp = right.stamp
  live : left.live = right.live

theorem SameClock.refl (store : ReplayStore) : SameClock store store := ⟨rfl, rfl, rfl⟩

theorem SameClock.trans {first second third : ReplayStore} (left : SameClock first second)
    (right : SameClock second third) : SameClock first third :=
  ⟨left.ttl.trans right.ttl, left.stamp.trans right.stamp, left.live.trans right.live⟩

end ReplayStore

namespace Claims

variable {claims : Claims} {key other : Bytes} {stamp : Nat}

theorem contains_iff : claims.contains key = true ↔ ∃ stamp, (key, stamp) ∈ claims := by
  simp only [contains, List.any_eq_true, decide_eq_true_eq]
  constructor
  · rintro ⟨⟨found, stamp⟩, member, rfl⟩
    exact ⟨stamp, member⟩
  · rintro ⟨stamp, member⟩
    exact ⟨(key, stamp), member, rfl⟩

theorem mem_remove : (other, stamp) ∈ claims.remove key ↔ (other, stamp) ∈ claims ∧ other ≠ key := by
  simp [remove]

theorem remove_of_not_contains (absent : claims.contains key = false) :
    claims.remove key = claims := by
  refine List.filter_eq_self.mpr fun entry member => ?_
  have different : entry.1 ≠ key := by
    intro same
    subst same
    have present := contains_iff.mpr ⟨entry.2, member⟩
    rw [absent] at present
    cases present
  simpa using different

end Claims

namespace ReplayStore

/-- What `claim` does to the claims a store holds, by its answer. -/
def ClaimSpec (store after : ReplayStore) (key : Bytes) (now : Nat) :
    Except ReplayError Bool → Prop
  | .ok true => (store.liveEntries now).contains key = false ∧
      after.entries = (key, store.stamp now) :: store.liveEntries now
  | .ok false => (store.liveEntries now).contains key = true ∧
      after.entries = store.liveEntries now
  | .error _ => (store.liveEntries now).contains key = false ∧
      after.entries = store.liveEntries now

/-- A claim forgets what is no longer live, and inserts the key only when it was
not held. -/
theorem claim_spec (store : ReplayStore) (key : Bytes) (now : Nat)
    (flushed : Except ReplayError Unit) :
    SameClock (store.claim key now flushed).2 store ∧
      ClaimSpec store (store.claim key now flushed).2 key now (store.claim key now flushed).1 := by
  cases store with
  | memory store =>
      have evicted : (ReplayStore.memory store).liveEntries now = store.evictExpired now := rfl
      by_cases held : (store.evictExpired now).contains key = true
      · simp only [claim, MemoryReplayStore.claim, held, if_true]
        exact ⟨⟨rfl, rfl, rfl⟩, held, rfl⟩
      · have absent : (store.evictExpired now).contains key = false := by simpa using held
        simp only [claim, MemoryReplayStore.claim, absent, Bool.false_eq_true, if_false]
        exact ⟨⟨rfl, rfl, rfl⟩, absent, rfl⟩
  | file store =>
      have evicted : (ReplayStore.file store).liveEntries now = store.evictExpired now := rfl
      by_cases held : (store.evictExpired now).contains key = true
      · simp only [claim, FileReplayStore.claim, held, if_true]
        exact ⟨⟨rfl, rfl, rfl⟩, held, rfl⟩
      · have absent : (store.evictExpired now).contains key = false := by simpa using held
        simp only [claim, FileReplayStore.claim, absent, Bool.false_eq_true, if_false]
        split
        · cases flushed with
          | error error =>
              refine ⟨⟨rfl, rfl, rfl⟩, absent, ?_⟩
              have rolledBack : Claims.remove ((key, asSecs now) :: store.evictExpired now) key =
                  Claims.remove (store.evictExpired now) key := by
                simp [Claims.remove]
              exact rolledBack.trans (Claims.remove_of_not_contains absent)
          | ok done => exact ⟨⟨rfl, rfl, rfl⟩, absent, rfl⟩
        · exact ⟨⟨rfl, rfl, rfl⟩, absent, rfl⟩

/-- A key that is not held is claimed when writes to disk succeed. -/
theorem claim_eq_true {store : ReplayStore} {key : Bytes} {now : Nat}
    (absent : (store.liveEntries now).contains key = false) :
    (store.claim key now (.ok ())).1 = .ok true := by
  cases store with
  | memory store =>
      have free : (store.evictExpired now).contains key = false := absent
      simp [claim, MemoryReplayStore.claim, free]
  | file store =>
      have free : (store.evictExpired now).contains key = false := absent
      simp only [claim, FileReplayStore.claim, free, Bool.false_eq_true, if_false]
      split
      · rfl
      · rfl

/-- A release forgets exactly the key, whether or not it reaches the disk. -/
theorem release_spec (store : ReplayStore) (key : Bytes) (now : Nat)
    (flushed : Except ReplayError Unit) :
    SameClock (store.release key now flushed).2 store ∧
      (store.release key now flushed).2.entries = store.entries.remove key := by
  cases store with
  | memory store => exact ⟨⟨rfl, rfl, rfl⟩, rfl⟩
  | file store =>
      cases flushed with
      | error error => exact ⟨⟨rfl, rfl, rfl⟩, rfl⟩
      | ok done => exact ⟨⟨rfl, rfl, rfl⟩, rfl⟩

/-- A claim is live for less than one time to live after it was made. -/
theorem live_stamp_of_lt {store : ReplayStore} {claimed now : Nat} (later : claimed ≤ now)
    (recent : now < claimed + store.ttl) : store.live (store.stamp claimed) now = true := by
  cases store with
  | memory store =>
      have young : now - claimed < store.ttl := by
        simp only [ttl] at recent
        omega
      exact decide_eq_true young
  | file store =>
      have young : asSecs now - store.defaultTtlSecs ≤ asSecs claimed := by
        simp only [ttl, fromSecs, asSecs, second] at recent ⊢
        omega
      exact decide_eq_true young

end ReplayStore

end Citadel
