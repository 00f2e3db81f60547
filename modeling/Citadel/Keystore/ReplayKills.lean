import Citadel.Keystore.ReplayFile

/-!
# A replay store whose process is killed

A file store answers for claims that its file does not hold yet. They are gone when the
process is killed, or when the flush of a dropped store fails. A flush renames a complete
file over the old one, so to be killed in the middle of a call is to be killed before it or
after it.

The claims that can be lost are always fewer than a batch, and were made within the
interval of a batch after the last flush. Every other claim is refused until its time to
live is over, through any number of kills.
-/

namespace Citadel

/-- What happens to a process and its store. -/
inductive ReplayEvent where
  | call (step : ReplayStep)
  | kill (now : Nat)
  deriving DecidableEq, Repr

namespace ReplayEvent

/-- When it happens. -/
def now : ReplayEvent → Nat
  | .call step => step.now
  | .kill now => now

/-- The store goes without a flush. -/
def Stops : ReplayEvent → Prop
  | .call step => step.call = .close ∧ step.fault ≠ none
  | .kill _ => True

/-- A call that releases a key. -/
def Releases (key : Bytes) : ReplayEvent → Prop
  | .call step => step.call = .release key
  | .kill _ => False

end ReplayEvent

namespace ReplayFile

/-- The entries of a file. -/
def entries : ReplayFile → List FileEntry
  | .document entries => entries
  | _ => []

/-- A file that a store has written, with the claims in it, or none. -/
inductive Records : ReplayFile → Claims → Prop where
  | missing : Records .missing []
  | document {claims : Claims} (distinct : claims.Distinct) :
      Records (.document (claims.map FileReplayStore.toFileEntry)) claims

variable {file : ReplayFile} {filed : Claims}

theorem toFileEntry_injective {claim other : Bytes × Nat}
    (same : FileReplayStore.toFileEntry claim = FileReplayStore.toFileEntry other) :
    claim = other := by
  obtain ⟨key, stamp⟩ := claim
  obtain ⟨otherKey, otherStamp⟩ := other
  injection same with keys stamps
  exact Prod.ext (hexEncode_injective keys) stamps

theorem Records.distinct (records : file.Records filed) : filed.Distinct := by
  cases records with
  | missing => exact Claims.distinct_nil
  | document distinct => exact distinct

theorem Records.mem_entries (records : file.Records filed) {claim : Bytes × Nat} :
    FileReplayStore.toFileEntry claim ∈ file.entries ↔ claim ∈ filed := by
  cases records with
  | missing => simp [entries]
  | document distinct =>
      constructor
      · intro member
        obtain ⟨other, found, same⟩ := List.mem_map.mp member
        rwa [← toFileEntry_injective same]
      · exact List.mem_map_of_mem

end ReplayFile

namespace ReplayHost

/-- What a killed process leaves. -/
def killed : ReplayHost → ReplayHost
  | .memory store => .memory { store with seen := [] }
  | .open _ file => .closed file
  | .closed file => .closed file

/-- What an event makes of a process. -/
def happen (config : ReplayConfig) (host : ReplayHost) : ReplayEvent → ReplayHost
  | .call step => (host.step config step).2
  | .kill _ => host.killed

/-- The process after some events. -/
def through (config : ReplayConfig) (host : ReplayHost) (events : List ReplayEvent) : ReplayHost :=
  events.foldl (happen config) host

/-- The claims that count at an instant and that the file does not hold. -/
def unflushed (now : Nat) : ReplayHost → Claims
  | .open store file => store.claims.filter fun claim =>
      asSecs now - store.defaultTtlSecs ≤ claim.2 ∧
        FileReplayStore.toFileEntry claim ∉ file.entries
  | _ => []

theorem unflushed_open (now : Nat) (store : FileReplayStore) (file : ReplayFile) :
    unflushed now (.open store file) = store.claims.filter fun claim =>
      asSecs now - store.defaultTtlSecs ≤ claim.2 ∧
        FileReplayStore.toFileEntry claim ∉ file.entries := rfl

theorem through_append (config : ReplayConfig) (host : ReplayHost) (left right : List ReplayEvent) :
    host.through config (left ++ right) = (host.through config left).through config right :=
  List.foldl_append

end ReplayHost

/-! ### What a claim does -/

namespace FileReplayStore

variable {store : FileReplayStore} {location : ReplayPath} {key : Bytes} {now : Nat}
  {fault : Option FlushFault} {file : ReplayFile}

/-- A failed flush leaves the file alone where a file is renamed over another. -/
theorem flush_of_fault (onto : location.windows = false) (fault : FlushFault) :
    store.flush location now (some fault) file = (.error (fault.toReplayError location), file) := by
  simp [flush, FlushFault.leaves, onto]

/-- A store with a new claim in it has evicted already. -/
theorem evictExpired_claimed {ops last : Nat} :
    FileReplayStore.evictExpired ⟨store.defaultTtlSecs, (key, asSecs now) :: store.evictExpired now,
      ops, last⟩ now = (key, asSecs now) :: store.evictExpired now := by
  apply List.filter_eq_self.mpr
  intro claim member
  rcases List.mem_cons.mp member with rfl | old
  · simp
  · exact (List.mem_filter.mp old).2

/-- The ways a claim can go. -/
inductive Claiming (store : FileReplayStore) (key : Bytes) (now : Nat) (file : ReplayFile) :
    Except ReplayError Bool × FileReplayStore × ReplayFile → Prop where
  | refused : Claiming store key now file
      (.ok false, { store with claims := store.evictExpired now }, file)
  | failed (error : ReplayError) : Claiming store key now file
      (.error error, { store with
        claims := store.evictExpired now
        opsSinceFlush := store.opsSinceFlush + 1 }, file)
  | written (absent : (store.evictExpired now).contains key = false) : Claiming store key now file
      (.ok true, ⟨store.defaultTtlSecs, (key, asSecs now) :: store.evictExpired now, 0, now⟩,
        .document (((key, asSecs now) :: store.evictExpired now).map toFileEntry))
  | kept (absent : (store.evictExpired now).contains key = false)
      (few : store.opsSinceFlush + 1 < batchSize)
      (recent : asSecs (now - store.lastFlush) < batchIntervalSecs) : Claiming store key now file
      (.ok true, { store with
        claims := (key, asSecs now) :: store.evictExpired now
        opsSinceFlush := store.opsSinceFlush + 1 }, file)

theorem claimOnDisk_claiming (onto : location.windows = false) :
    Claiming store key now file (store.claimOnDisk location key now fault file) := by
  unfold claimOnDisk
  dsimp only
  cases present : (store.evictExpired now).contains key with
  | true => exact .refused
  | false =>
      rw [if_neg Bool.false_ne_true]
      split
      · cases fault with
        | none =>
            rw [flush]
            dsimp only
            rw [evictExpired_claimed]
            exact .written present
        | some fault =>
            have removed : Claims.remove ((key, asSecs now) :: store.evictExpired now) key =
                store.evictExpired now := by
              rw [Claims.remove, List.filter_cons_of_neg (by simp)]
              exact Claims.remove_of_not_contains present
            simp only [flush_of_fault onto, removed]
            exact .failed _
      · rename_i quiet
        simp only [shouldFlush, Bool.or_eq_true, decide_eq_true_eq, not_or, Nat.not_le] at quiet
        exact .kept present quiet.1.1 quiet.1.2

end FileReplayStore

/-! ### What can be lost -/

namespace ReplayHost

/-- The claims that a file does not hold are fewer than a batch, and were made within the
interval of a batch after the last flush. -/
structure Pending (now : Nat) (store : FileReplayStore) (file : ReplayFile) : Prop where
  counted : (unflushed now (.open store file)).length ≤ store.opsSinceFlush
  few : (unflushed now (.open store file)).length < batchSize
  recent : ∀ claim ∈ unflushed now (.open store file), asSecs store.lastFlush ≤ claim.2 ∧
    claim.2 ≤ asSecs store.lastFlush + batchIntervalSecs
  past : store.lastFlush ≤ now

namespace Pending

variable {store after : FileReplayStore} {file : ReplayFile} {key : Bytes} {now later : Nat}

/-- A store that answers for nothing new. -/
theorem shrink (pending : Pending now store file) (le : now ≤ later)
    (fewer : (unflushed later (.open after file)).Sublist (unflushed now (.open store file)))
    (ops : store.opsSinceFlush ≤ after.opsSinceFlush) (last : after.lastFlush = store.lastFlush) :
    Pending later after file where
  counted := fewer.length_le.trans (pending.counted.trans ops)
  few := Nat.lt_of_le_of_lt fewer.length_le pending.few
  recent := by
    intro claim member
    rw [last]
    exact pending.recent claim (fewer.subset member)
  past := last ▸ pending.past.trans le

/-- Claims only expire with time. -/
theorem pass (pending : Pending now store file) (le : now ≤ later) : Pending later store file := by
  apply pending.shrink le ?_ le_rfl rfl
  apply List.monotone_filter_right
  intro claim counts
  have order : asSecs now ≤ asSecs later := Nat.div_le_div_right le
  simp only [decide_eq_true_eq] at counts ⊢
  exact ⟨by omega, counts.2⟩

/-- Evicting and removing claims. -/
theorem sublist (pending : Pending now store file) (fewer : after.claims.Sublist store.claims)
    (ttl : after.defaultTtlSecs = store.defaultTtlSecs)
    (ops : store.opsSinceFlush ≤ after.opsSinceFlush) (last : after.lastFlush = store.lastFlush) :
    Pending now after file := by
  apply pending.shrink le_rfl ?_ ops last
  rw [unflushed_open, unflushed_open, ttl]
  exact fewer.filter _

/-- A claim that is not flushed yet. -/
theorem grant (pending : Pending now store file) (few : store.opsSinceFlush + 1 < batchSize)
    (recent : asSecs (now - store.lastFlush) < batchIntervalSecs) :
    Pending now { store with
      claims := (key, asSecs now) :: store.evictExpired now
      opsSinceFlush := store.opsSinceFlush + 1 } file := by
  have evicted : Pending now { store with claims := store.evictExpired now } file :=
    pending.sublist List.filter_sublist rfl le_rfl rfl
  have atMost : (unflushed now (.open { store with
      claims := (key, asSecs now) :: store.evictExpired now
      opsSinceFlush := store.opsSinceFlush + 1 } file)).length ≤ store.opsSinceFlush + 1 := by
    have counted := evicted.counted
    rw [unflushed_open] at counted ⊢
    rw [List.filter_cons]
    split
    · exact Nat.succ_le_succ counted
    · exact Nat.le_succ_of_le counted
  refine ⟨atMost, Nat.lt_of_le_of_lt atMost few, ?_, pending.past⟩
  intro claim member
  obtain ⟨held, counts⟩ := List.mem_filter.mp member
  rcases List.mem_cons.mp held with rfl | old
  · have past := pending.past
    unfold asSecs batchIntervalSecs second at *
    dsimp only
    omega
  · exact evicted.recent claim (List.mem_filter.mpr ⟨old, counts⟩)

/-- Right after a flush nothing can be lost. -/
theorem flushed (past : after.lastFlush ≤ now) (written : ∀ claim ∈ after.claims,
      asSecs now - after.defaultTtlSecs ≤ claim.2 →
        FileReplayStore.toFileEntry claim ∈ file.entries) : Pending now after file := by
  have nothing : unflushed now (.open after file) = [] := by
    apply List.filter_eq_nil_iff.mpr
    intro claim member counts
    simp only [decide_eq_true_eq] at counts
    exact counts.2 (written claim member counts.1)
  constructor
  · rw [nothing]
    exact Nat.zero_le _
  · rw [nothing]
    decide
  · intro claim member
    rw [nothing] at member
    cases member
  · exact past

end Pending

/-- A process with a file store whose file was written by a store. -/
inductive Sound (config : ReplayConfig) (now : Nat) : ReplayHost → Prop where
  | «open» {store : FileReplayStore} {file : ReplayFile} {filed : Claims}
      (ttl : store.defaultTtlSecs = asSecs config.defaultTtl) (distinct : store.claims.Distinct)
      (records : file.Records filed) (pending : Pending now store file) :
      Sound config now (.open store file)
  | closed {file : ReplayFile} {filed : Claims} (records : file.Records filed) :
      Sound config now (.closed file)

section Steps

variable {config : ReplayConfig} {store : FileReplayStore} {file : ReplayFile} {filed : Claims}
  {now later : Nat} {host : ReplayHost}

/-- The file after a flush that did not fail, and what is pending then. -/
theorem sound_flushed (ttl : store.defaultTtlSecs = asSecs config.defaultTtl)
    (distinct : store.claims.Distinct) : Sound config now (.open { store with
      opsSinceFlush := 0
      lastFlush := now }
      (.document ((store.evictExpired now).map FileReplayStore.toFileEntry))) := by
  refine .open ttl distinct (.document (distinct.filter _)) (.flushed le_rfl ?_)
  intro claim member recent
  exact List.mem_map_of_mem (List.mem_filter.mpr ⟨member, decide_eq_true recent⟩)

/-- A claim. -/
theorem sound_claim {answer : Except ReplayError Bool × FileReplayStore × ReplayFile} {key : Bytes}
    (claiming : FileReplayStore.Claiming store key now file answer)
    (ttl : store.defaultTtlSecs = asSecs config.defaultTtl) (distinct : store.claims.Distinct)
    (records : file.Records filed) (pending : Pending now store file) :
    Sound config now (.open answer.2.1 answer.2.2) := by
  have live : (store.evictExpired now).Distinct := distinct.filter _
  cases claiming with
  | refused =>
      exact .open ttl live records (pending.sublist List.filter_sublist rfl le_rfl rfl)
  | failed error =>
      exact .open ttl live records
        (pending.sublist List.filter_sublist rfl (Nat.le_succ _) rfl)
  | written absent =>
      refine .open ttl (live.cons absent) (.document (live.cons absent)) (.flushed le_rfl ?_)
      intro claim member _
      exact List.mem_map_of_mem member
  | kept absent few recent =>
      exact .open ttl (live.cons absent) records (pending.grant few recent)

/-- Opening a file that a store has written. -/
theorem new_of_records {location : ReplayPath} {defaultTtl : Nat} (records : file.Records filed) :
    FileReplayStore.new location defaultTtl now none file = .ok ⟨asSecs defaultTtl,
      (filed.filter fun claim => asSecs now - asSecs defaultTtl ≤ claim.2).reverse, 0, now⟩ := by
  cases records with
  | missing => rfl
  | document distinct =>
      have whole : (filed ++ []).Distinct := by simpa using distinct
      simp only [FileReplayStore.new, FileReplayStore.loadClaims,
        FileReplayStore.loadEntries_map whole, List.append_nil]
      rfl

theorem sound_reopen (records : file.Records filed) : Sound config now (.open
    ⟨asSecs config.defaultTtl, (filed.filter fun claim =>
      asSecs now - asSecs config.defaultTtl ≤ claim.2).reverse, 0, now⟩ file) := by
  refine .open rfl (records.distinct.filter _).reverse records (.flushed le_rfl ?_)
  intro claim member _
  exact records.mem_entries.mpr (List.mem_filter.mp (List.mem_reverse.mp member)).1

/-- A call to a process whose store is closed. -/
theorem sound_closed_step (records : file.Records filed) (call : ReplayCall)
    (fault : Option FlushFault) :
    Sound config now (step config (.closed file) ⟨now, call, fault⟩).2 := by
  cases call with
  | reopen unreadable =>
      cases unreadable with
      | some failure =>
          cases records with
          | missing => exact sound_reopen .missing
          | document distinct => exact .closed (.document distinct)
      | none =>
          simp only [ReplayHost.step, new_of_records records]
          exact sound_reopen records
  | _ => exact .closed records

/-- A call to a process whose store is open. -/
theorem sound_open_step (onto : config.location.windows = false)
    (ttl : store.defaultTtlSecs = asSecs config.defaultTtl) (distinct : store.claims.Distinct)
    (records : file.Records filed) (pending : Pending now store file) (call : ReplayCall)
    (fault : Option FlushFault) :
    Sound config now (step config (.open store file) ⟨now, call, fault⟩).2 := by
  cases call with
  | claim key =>
      exact sound_claim (FileReplayStore.claimOnDisk_claiming onto) ttl distinct records pending
  | release key =>
      cases fault with
      | none => exact sound_flushed ttl (distinct.remove key)
      | some fault =>
          simp only [ReplayHost.step, FileReplayStore.releaseOnDisk,
            FileReplayStore.flush_of_fault onto]
          exact .open ttl (distinct.remove key) records
            (pending.sublist List.filter_sublist rfl le_rfl rfl)
  | forceFlush =>
      cases fault with
      | none => exact sound_flushed ttl distinct
      | some fault =>
          simp only [ReplayHost.step, FileReplayStore.forceFlush,
            FileReplayStore.flush_of_fault onto]
          exact .open ttl distinct records pending
  | close =>
      cases fault with
      | none => exact .closed (.document (distinct.filter _))
      | some fault =>
          simp only [ReplayHost.step, FileReplayStore.flush_of_fault onto]
          exact .closed records
  | reopen unreadable => exact .open ttl distinct records pending

/-- Every event keeps the file one that a store has written, and few claims pending. -/
theorem Sound.happen {event : ReplayEvent} (sound : Sound config now host)
    (onto : config.location.windows = false) (le : now ≤ event.now) :
    Sound config event.now (host.happen config event) := by
  cases event with
  | kill time =>
      cases sound with
      | «open» ttl distinct records pending => exact .closed records
      | closed records => exact .closed records
  | call step =>
      cases sound with
      | «open» ttl distinct records pending =>
          exact sound_open_step onto ttl distinct records (pending.pass le) step.call step.fault
      | closed records => exact sound_closed_step records step.call step.fault

/-- Time passes. -/
theorem Sound.pass (sound : Sound config now host) (le : now ≤ later) :
    Sound config later host := by
  cases sound with
  | «open» ttl distinct records pending => exact .open ttl distinct records (pending.pass le)
  | closed records => exact .closed records

end Steps

/-! ### Whole runs -/

/-- Events in the order of a clock that does not go back, from one instant to another. -/
def InOrder (start now : Nat) (events : List ReplayEvent) : Prop :=
  (start :: (events.map ReplayEvent.now ++ [now])).Pairwise (· ≤ ·)

section Runs

variable {config : ReplayConfig} {host : ReplayHost} {start now : Nat} {event : ReplayEvent}
  {events rest : List ReplayEvent} {key : Bytes} {stamp : Nat}

theorem InOrder.head (order : InOrder start now (event :: events)) : start ≤ event.now :=
  (List.pairwise_cons.mp order).1 _ List.mem_cons_self

theorem InOrder.tail (order : InOrder start now (event :: events)) :
    InOrder event.now now events :=
  (List.pairwise_cons.mp order).2

theorem InOrder.ends (order : InOrder start now events) : start ≤ now :=
  (List.pairwise_cons.mp order).1 _ (List.mem_append_right _ (List.mem_singleton_self _))

/-- A part of a run up to one of its events. -/
theorem InOrder.before (order : InOrder start now (events ++ event :: rest)) :
    InOrder start event.now events := by
  induction events generalizing start with
  | nil => exact List.pairwise_pair.mpr order.head
  | cons first events ih =>
      refine List.pairwise_cons.mpr ⟨?_, ih order.tail⟩
      have later := (List.pairwise_cons.mp order).1
      intro time member
      apply later time
      simp only [List.map_append, List.map_cons, List.mem_append, List.mem_cons,
        List.not_mem_nil] at member ⊢
      tauto

theorem InOrder.after (order : InOrder start now (events ++ event :: rest)) :
    InOrder event.now now rest := by
  induction events generalizing start with
  | nil => exact order.tail
  | cons first events ih => exact ih order.tail

/-- Every run keeps the file one that a store has written, and few claims pending. -/
theorem Sound.through (sound : Sound config start host) (onto : config.location.windows = false)
    (order : InOrder start now events) : Sound config now (host.through config events) := by
  induction events generalizing host start with
  | nil => exact sound.pass order.ends
  | cons event events ih => exact ih (sound.happen onto order.head) order.tail

/-- A process answers for a claim, or would if its store was opened again. -/
def Holding (config : ReplayConfig) (host : ReplayHost) (claim : Bytes × Nat) : Prop :=
  ∃ claims, Holds config host claims ∧ claims.Distinct ∧ claim ∈ claims

/-- When a claim counts. -/
theorem Sound.live_eq (sound : Sound config start host) : (host.blank config).live stamp now =
    decide (asSecs now - asSecs config.defaultTtl ≤ stamp) := by
  cases sound with
  | «open» _ _ _ _ => rfl
  | closed _ => rfl

section Claiming

variable {step : ReplayStep}

/-- A call to claim a key drops no store. -/
theorem clean_of_claim (call : step.call = .claim key) :
    step.call = .close → step.fault = none := by
  intro closes
  rw [call] at closes
  cases closes

/-- A claim that was granted is there. -/
theorem Sound.holding_of_claimed (sound : Sound config start host) (call : step.call = .claim key)
    (claimed : (host.step config step).1 = .claimed (.ok true)) :
    Holding config (host.happen config (.call step)) (key, asSecs step.now) := by
  cases sound with
  | closed _ =>
      obtain ⟨time, _, fault⟩ := step
      obtain rfl := call
      cases claimed
  | «open» ttl distinct _ _ =>
      obtain ⟨claims, holds, effect⟩ := step_effect (.open ttl) distinct (clean_of_claim call)
      exact ⟨claims, holds, effect.distinct distinct, effect.claimed key call claimed⟩

/-- A claim that is there and counts is refused. -/
theorem Sound.refuses (sound : Sound config start host) (call : step.call = .claim key)
    (held : Holding config host (key, stamp))
    (alive : asSecs step.now - asSecs config.defaultTtl ≤ stamp) :
    (host.step config step).1 ≠ .claimed (.ok true) := by
  obtain ⟨claims, holds, distinct, member⟩ := held
  obtain ⟨_, -, effect⟩ := step_effect holds distinct (clean_of_claim call)
  have counts : (host.blank config).live stamp step.now = true := by
    rw [sound.live_eq]
    exact decide_eq_true alive
  exact effect.refused key stamp member counts call

end Claiming

/-- A store that goes without a flush leaves its file. -/
theorem Sound.happen_of_stops (sound : Sound config now host) (stops : event.Stops)
    (onto : config.location.windows = false) : host.happen config event = host.killed := by
  cases event with
  | kill time => rfl
  | call step =>
      obtain ⟨time, call, fault⟩ := step
      obtain ⟨closes, faulty⟩ := stops
      obtain rfl : call = .close := closes
      cases sound with
      | closed records => rfl
      | «open» ttl distinct records pending =>
          cases fault with
          | none => exact absurd rfl faulty
          | some fault =>
              simp only [ReplayHost.happen, ReplayHost.step, FileReplayStore.flush_of_fault onto]
              rfl

/-- A claim that counts is kept, or it is lost with a store that had not flushed it. -/
theorem Sound.kept_or_lost (sound : Sound config now host)
    (held : Holding config host (key, stamp)) (onto : config.location.windows = false)
    (alive : asSecs event.now - asSecs config.defaultTtl ≤ stamp)
    (unreleased : ¬ event.Releases key) : Holding config (host.happen config event) (key, stamp) ∨
      event.Stops ∧ (key, stamp) ∈ host.unflushed event.now := by
  obtain ⟨claims, holds, distinct, member⟩ := held
  by_cases stops : event.Stops
  · rw [sound.happen_of_stops stops onto]
    cases sound with
    | closed records => exact .inl ⟨claims, holds, distinct, member⟩
    | @«open» store file filed ttl _ records pending =>
        cases holds
        by_cases onDisk : (key, stamp) ∈ filed
        · left
          cases records with
          | missing => cases onDisk
          | document filedDistinct => exact ⟨filed, .closed filed, filedDistinct, onDisk⟩
        · right
          refine ⟨stops, List.mem_filter.mpr ⟨member, decide_eq_true ⟨?_, ?_⟩⟩⟩
          · rw [ttl]
            exact alive
          · exact fun filedToo => onDisk (records.mem_entries.mp filedToo)
  · left
    cases event with
    | kill time => exact absurd trivial stops
    | call step =>
        have clean : step.call = .close → step.fault = none := by
          intro closes
          by_contra faulty
          exact stops ⟨closes, faulty⟩
        obtain ⟨after, holdsAfter, effect⟩ := step_effect holds distinct clean
        have counts : (host.blank config).live stamp step.now = true := by
          rw [sound.live_eq]
          exact decide_eq_true alive
        exact ⟨after, holdsAfter, effect.distinct distinct,
          effect.kept key stamp member counts unreleased⟩

/-- Along a run, a claim that counts until its end is kept, or it is lost with a store that
had not flushed it. -/
theorem Sound.kept_through (sound : Sound config start host)
    (held : Holding config host (key, stamp)) (onto : config.location.windows = false)
    (order : InOrder start now events) (alive : asSecs now - asSecs config.defaultTtl ≤ stamp)
    (unreleased : ∀ event ∈ events, ¬ event.Releases key) :
    Holding config (host.through config events) (key, stamp) ∨
      ∃ earlier stop later, events = earlier ++ stop :: later ∧ stop.Stops ∧
        (key, stamp) ∈ (host.through config earlier).unflushed stop.now := by
  induction events generalizing host start with
  | nil => exact .inl held
  | cons event events ih =>
      have still : asSecs event.now - asSecs config.defaultTtl ≤ stamp := by
        have earlier : asSecs event.now ≤ asSecs now := Nat.div_le_div_right order.tail.ends
        omega
      rcases sound.kept_or_lost held onto still (unreleased event List.mem_cons_self) with
        kept | ⟨stops, lost⟩
      · rcases ih (sound.happen onto order.head) kept order.tail
          (fun other member => unreleased other (List.mem_cons_of_mem _ member)) with
          holding | ⟨earlier, stop, later, rfl, stops, lost⟩
        · exact .inl holding
        · exact .inr ⟨event :: earlier, stop, later, rfl, stops, lost⟩
      · exact .inr ⟨[], event, events, rfl, stops, lost⟩

end Runs

end ReplayHost

section Main

variable {config : ReplayConfig} {file : ReplayFile} {filed : Claims} {start now : Nat}
  {events : List ReplayEvent}

/-- Whatever a process does, however often it is killed and whichever flushes fail: the
claims that it answers for and would lose are fewer than a hundred, and were made within
five seconds after the last flush. -/
theorem few_claims_can_be_lost (onto : config.location.windows = false)
    (records : file.Records filed) (order : ReplayHost.InOrder start now events)
    {store : FileReplayStore} {after : ReplayFile}
    (runs : (ReplayHost.closed file).through config events = .open store after) :
    ((ReplayHost.open store after).unflushed now).length < batchSize ∧
      ∀ claim ∈ (ReplayHost.open store after).unflushed now, asSecs store.lastFlush ≤ claim.2 ∧
        claim.2 ≤ asSecs store.lastFlush + batchIntervalSecs := by
  have sound : ReplayHost.Sound config start (.closed file) := .closed records
  have ends := sound.through onto order
  rw [runs] at ends
  cases ends with
  | «open» ttl distinct recordsAfter pending => exact ⟨pending.few, pending.recent⟩

/-- One second after a store is opened a key is claimed; only that claim could be lost. -/
theorem one_claim_can_be_lost :
    let start : ReplayHost := .closed .missing
    let events : List ReplayEvent :=
      [.call ⟨0, .reopen none, none⟩, .call ⟨fromSecs 1, .claim [7], none⟩]
    let store : FileReplayStore := ⟨10, [([7], 1)], 1, 0⟩
    start.through tenSeconds events = .open store .missing ∧
      ((ReplayHost.open store .missing).unflushed (fromSecs 2)) = [([7], 1)] ∧
      ((ReplayHost.open store .missing).unflushed (fromSecs 2)).length < batchSize := by
  intro start events store
  have runs : start.through tenSeconds events = .open store .missing := by rfl
  have order : ReplayHost.InOrder 0 (fromSecs 2) events := by
    unfold ReplayHost.InOrder
    decide
  have onto : tenSeconds.location.windows = false := rfl
  have bounded := few_claims_can_be_lost onto .missing order runs
  exact ⟨runs, by decide, bounded.1⟩

/-- A key is only claimed twice within the time to live and without a release if in between
the process was killed, or dropped with a flush that failed, while the file did not hold
the first claim. -/
theorem claimed_twice_only_when_lost (onto : config.location.windows = false)
    (records : file.Records filed) (order : ReplayHost.InOrder start now events)
    {before between after : List ReplayEvent} {first second : ReplayStep} {key : Bytes}
    (split : events = before ++ .call first :: (between ++ .call second :: after))
    (firstCall : first.call = .claim key) (secondCall : second.call = .claim key)
    (claimed : (((ReplayHost.closed file).through config before).step config first).1 =
      .claimed (.ok true))
    (again : (((ReplayHost.closed file).through config
      (before ++ .call first :: between)).step config second).1 = .claimed (.ok true))
    (unreleased : ∀ event ∈ between, ¬ event.Releases key)
    (early : second.now < first.now + fromSecs (asSecs config.defaultTtl)) :
    ∃ earlier stop later, between = earlier ++ stop :: later ∧ stop.Stops ∧
      (key, asSecs first.now) ∈ ((ReplayHost.closed file).through config
        (before ++ .call first :: earlier)).unflushed stop.now := by
  subst split
  have begins : ReplayHost.Sound config start (.closed file) := .closed records
  have sound := begins.through onto order.before
  have held := sound.holding_of_claimed firstCall claimed
  have soundAfter : ReplayHost.Sound config first.now _ := sound.happen onto le_rfl
  have inBetween := order.after.before
  have alive : asSecs second.now - asSecs config.defaultTtl ≤ asSecs first.now := by
    let clock : ReplayStore := .file ⟨asSecs config.defaultTtl, [], 0, 0⟩
    have counts : clock.live (clock.stamp first.now) second.now = true :=
      ReplayStore.live_stamp_of_lt inBetween.ends early
    exact of_decide_eq_true counts
  rcases soundAfter.kept_through held onto inBetween alive unreleased with
    kept | ⟨earlier, stop, later, rfl, stops, lost⟩
  · rw [ReplayHost.through_append] at again
    exact absurd again ((soundAfter.through onto inBetween).refuses secondCall kept alive)
  · refine ⟨earlier, stop, later, rfl, stops, ?_⟩
    rw [ReplayHost.through_append]
    exact lost

/-- A key is claimed, the process is killed before a flush, and the key is claimed again. -/
theorem claimed_again_after_kill :
    let start : ReplayHost := .closed .missing
    let claim : ReplayStep := ⟨fromSecs 1, .claim [7], none⟩
    let again : ReplayStep := ⟨fromSecs 4, .claim [7], none⟩
    let before : List ReplayEvent := [.call ⟨0, .reopen none, none⟩]
    let between : List ReplayEvent := [.kill (fromSecs 2), .call ⟨fromSecs 3, .reopen none, none⟩]
    ((start.through tenSeconds (before ++ .call claim :: between)).step tenSeconds again).1 =
        .claimed (.ok true) ∧
      ∃ earlier stop later, between = earlier ++ stop :: later ∧ stop.Stops ∧
        ([7], asSecs claim.now) ∈ (start.through tenSeconds
          (before ++ .call claim :: earlier)).unflushed stop.now := by
  intro start claim again before between
  have first : ((start.through tenSeconds before).step tenSeconds claim).1 =
      .claimed (.ok true) := by decide
  have second : ((start.through tenSeconds (before ++ .call claim :: between)).step tenSeconds
      again).1 = .claimed (.ok true) := by decide
  have order : ReplayHost.InOrder 0 (fromSecs 4)
      (before ++ .call claim :: (between ++ [.call again])) := by
    unfold ReplayHost.InOrder
    decide
  have unreleased : ∀ event ∈ between, ¬ event.Releases [7] := by
    intro event member
    simp only [between, List.mem_cons, List.not_mem_nil, or_false] at member
    rcases member with rfl | rfl <;> simp [ReplayEvent.Releases]
  exact ⟨second, claimed_twice_only_when_lost rfl .missing order rfl rfl rfl first second
    unreleased (by decide)⟩

end Main

end Citadel
