import Citadel.Data.Machine
import Citadel.Keystore.ReplayFile

/-!
# The times to live that a claim names

The trait hands every claim a time to live. A reference store keeps the claim for that long,
as the Redis backend does with `SET NX EX`. The memory store and the file store take the
argument as `_ttl` and measure every claim by the time to live they were constructed with, the
file store in whole seconds.
-/

namespace Citadel

open Machine

/-- A call through the trait `ReplayStore`. -/
inductive TraitCall where
  | claim (key : Bytes) (ttl : Nat)
  | release (key : Bytes)
  deriving DecidableEq, Repr

/-- A call at an instant, and how a write to disk would end. -/
structure TraitStep where
  call : TraitCall
  now : Nat
  flushed : Except ReplayError Unit

namespace ReplayStore

/-- A store answers a call. The time to live that a claim names is not read. -/
def serve (store : ReplayStore) (step : TraitStep) : ReplayAnswer × ReplayStore :=
  match step.call with
  | .claim key _ttl =>
      (.claimed (store.claim key step.now step.flushed).1,
        (store.claim key step.now step.flushed).2)
  | .release key =>
      (.done (store.release key step.now step.flushed).1,
        (store.release key step.now step.flushed).2)

/-- Whether a call writes the claims to disk. -/
def writes (store : ReplayStore) (step : TraitStep) : Bool :=
  match store, step.call with
  | .memory _, _ => false
  | .file store, .claim key _ =>
      !(store.evictExpired step.now).contains key &&
        FileReplayStore.shouldFlush
          { store with
            claims := (key, asSecs step.now) :: store.evictExpired step.now
            opsSinceFlush := store.opsSinceFlush + 1 } step.now
  | .file _, .release _ => true

end ReplayStore

/-- The unreleased claims: when a key was last claimed and for how long. -/
abbrev ReferenceStore := Bytes → Option (Nat × Nat)

namespace ReferenceStore

/-- A store without claims. -/
def empty : ReferenceStore := fun _ => none

/-- Whether a key has an unreleased claim younger than the time to live it was claimed with. -/
def held (store : ReferenceStore) (key : Bytes) (now : Nat) : Bool :=
  match store key with
  | some (made, ttl) => now - made < ttl
  | none => false

/-- A claim succeeds when the key is not held. -/
def serve (store : ReferenceStore) (step : TraitStep) : ReplayAnswer × ReferenceStore :=
  match step.call with
  | .claim key ttl =>
      if store.held key step.now then (.claimed (.ok false), store)
      else (.claimed (.ok true), Function.update store key (some (step.now, ttl)))
  | .release key => (.done (.ok ()), Function.update store key none)

/-- Whether a key has an unreleased claim that a store would still count. -/
def countedBy (reference : ReferenceStore) (store : ReplayStore) (key : Bytes) (now : Nat) : Bool :=
  match reference key with
  | some (made, _) => store.live (store.stamp made) now
  | none => false

end ReferenceStore

/-- The condition under which a call gets the answer of the reference store: the last
unreleased claim of the key is past the time to live it was claimed with exactly when it is past
the one the store was constructed with, and a write to disk succeeds. -/
structure Agreeable (store : ReplayStore) (reference : ReferenceStore) (step : TraitStep) :
    Prop where
  elapsed : ∀ key ttl made claimed, step.call = .claim key ttl →
    reference key = some (made, claimed) →
      (step.now - made < claimed ↔ store.live (store.stamp made) step.now = true)
  written : store.writes step = true → step.flushed = .ok ()

namespace ReplayStore

variable {store : ReplayStore} {reference : ReferenceStore} {key other : Bytes} {now later : Nat}

/-- What is live at an instant was live before. -/
theorem live_of_later {stamp : Nat} (ordered : now ≤ later)
    (alive : store.live stamp later = true) : store.live stamp now = true := by
  cases store with
  | memory store =>
      have young : later - stamp < store.ttl := of_decide_eq_true alive
      apply decide_eq_true
      omega
  | file store =>
      have young : asSecs later - store.defaultTtlSecs ≤ stamp := of_decide_eq_true alive
      have seconds : asSecs now ≤ asSecs later := Nat.div_le_div_right ordered
      apply decide_eq_true
      omega

/-- What has expired by an instant is not found live later. -/
theorem filter_live_liveEntries (ordered : now ≤ later) :
    (store.liveEntries now).filter (fun entry => store.live entry.2 later) =
      store.liveEntries later := by
  rw [liveEntries, liveEntries, List.filter_filter]
  apply List.filter_congr
  intro entry member
  cases alive : store.live entry.2 later with
  | false => rfl
  | true => rw [live_of_later ordered alive, Bool.and_self]

theorem not_contains_later (ordered : now ≤ later)
    (absent : (store.liveEntries now).contains key = false) :
    (store.liveEntries later).contains key = false := by
  rw [Bool.eq_false_iff] at absent ⊢
  intro held
  apply absent
  obtain ⟨stamp, member⟩ := Claims.contains_iff.mp held
  apply Claims.contains_iff.mpr
  rw [← filter_live_liveEntries ordered] at member
  exact ⟨stamp, List.mem_of_mem_filter member⟩

theorem contains_live_cons {claims : Claims} {stamp : Nat} :
    Claims.contains
        (List.filter (fun entry => store.live entry.2 later) ((key, stamp) :: claims)) other =
      (decide (key = other) && store.live stamp later ||
        Claims.contains (claims.filter fun entry => store.live entry.2 later) other) := by
  cases alive : store.live stamp later with
  | true => simp [Claims.contains, alive]
  | false => simp [Claims.contains, alive]

theorem contains_live_remove {claims : Claims} :
    Claims.contains (List.filter (fun entry => store.live entry.2 later) (claims.remove key))
        other =
      (!decide (other = key) &&
        Claims.contains (claims.filter fun entry => store.live entry.2 later) other) := by
  rw [Bool.eq_iff_iff, Bool.and_eq_true, Claims.contains_iff, Claims.contains_iff]
  simp only [List.mem_filter, Claims.mem_remove, Bool.not_eq_true', decide_eq_false_iff_not]
  constructor
  · rintro ⟨stamp, ⟨member, different⟩, alive⟩
    exact ⟨different, stamp, member, alive⟩
  · rintro ⟨different, stamp, member, alive⟩
    exact ⟨stamp, ⟨member, different⟩, alive⟩

/-- Whether a claim of a key still counts at an instant. -/
def counts (store : ReplayStore) (key : Bytes) (now : Nat) : Bool :=
  (store.liveEntries now).contains key

/-- What a store counts is told by the claims it holds and by the clock it shares. -/
theorem SameClock.counts {left right : ReplayStore} (same : SameClock left right) :
    left.counts key now =
      Claims.contains (left.entries.filter fun entry => right.live entry.2 now) key := by
  rw [ReplayStore.counts, ReplayStore.liveEntries, same.live]

/-- A claim that succeeds counts from then on; of the other keys nothing changes. -/
theorem counts_claimed {flushed : Except ReplayError Unit}
    (claimed : (store.claim key now flushed).1 = .ok true) (ordered : now ≤ later) :
    (store.claim key now flushed).2.counts other later =
      if key = other then store.live (store.stamp now) later else store.counts other later := by
  obtain ⟨same, spec⟩ := store.claim_spec key now flushed
  rw [claimed] at spec
  rw [same.counts, spec.2, contains_live_cons, filter_live_liveEntries ordered]
  by_cases equal : key = other
  · subst equal
    simp [not_contains_later ordered spec.1]
  · simp [equal, counts]

/-- A claim that does not succeed forgets nothing that still counts. -/
theorem counts_refused {flushed : Except ReplayError Unit}
    (refused : (store.claim key now flushed).1 ≠ .ok true) (ordered : now ≤ later) :
    (store.claim key now flushed).2.counts other later = store.counts other later := by
  obtain ⟨same, spec⟩ := store.claim_spec key now flushed
  have entries : (store.claim key now flushed).2.entries = store.liveEntries now := by
    cases answer : (store.claim key now flushed).1 with
    | error error =>
        rw [answer] at spec
        exact spec.2
    | ok claimed =>
        rw [answer] at spec
        cases claimed with
        | true => exact absurd answer refused
        | false => exact spec.2
  rw [same.counts, entries, filter_live_liveEntries ordered, counts]

/-- A released key no longer counts; of the other keys nothing changes. -/
theorem counts_released (flushed : Except ReplayError Unit) :
    (store.release key now flushed).2.counts other later =
      if key = other then false else store.counts other later := by
  obtain ⟨same, entries⟩ := store.release_spec key now flushed
  rw [same.counts, entries, contains_live_remove]
  by_cases equal : key = other
  · simp [equal]
  · simp [equal, Ne.symm equal, counts, liveEntries]

/-- Every claim that a store counts at an instant or later is the unreleased claim of its key,
and the other way round. -/
def Mirrors (clock : Nat) (store : ReplayStore) (reference : ReferenceStore) : Prop :=
  ∀ key now, clock ≤ now → store.counts key now = reference.countedBy store key now

theorem SameClock.countedBy {left right : ReplayStore} (same : SameClock left right) :
    reference.countedBy left key now = reference.countedBy right key now := by
  rw [ReferenceStore.countedBy, ReferenceStore.countedBy, same.stamp, same.live]

theorem countedBy_update {claim : Option (Nat × Nat)} :
    ReferenceStore.countedBy (Function.update reference key claim) store other now =
      if key = other then ReferenceStore.countedBy (fun _ => claim) store key now
      else reference.countedBy store other now := by
  by_cases equal : key = other
  · subst equal
    simp [ReferenceStore.countedBy]
  · simp [ReferenceStore.countedBy, equal, Ne.symm equal]

/-- A claim of a key that is not counted succeeds unless it has to write and the write fails. -/
theorem claim_absent_true (absent : store.counts key now = false) (ttl : Nat)
    (flushed : Except ReplayError Unit) :
    (store.claim key now flushed).1 = .ok true ↔
      (store.writes ⟨.claim key ttl, now, flushed⟩ = true → flushed = .ok ()) := by
  cases store with
  | memory store =>
      have free : (store.evictExpired now).contains key = false := absent
      simp [claim, MemoryReplayStore.claim, writes, free]
  | file store =>
      have free : (store.evictExpired now).contains key = false := absent
      simp only [claim, FileReplayStore.claim, writes, free, Bool.false_eq_true, if_false,
        Bool.not_false, Bool.true_and]
      split
      · rename_i due
        cases flushed with
        | error error => simp [due]
        | ok done => simp
      · rename_i due
        simp [due]

theorem claim_absent_ne_false (absent : store.counts key now = false)
    (flushed : Except ReplayError Unit) : (store.claim key now flushed).1 ≠ .ok false := by
  obtain ⟨_, spec⟩ := store.claim_spec key now flushed
  intro refused
  rw [refused] at spec
  rw [counts, spec.1] at absent
  cases absent

theorem claim_present (present : store.counts key now = true)
    (flushed : Except ReplayError Unit) : (store.claim key now flushed).1 = .ok false := by
  cases store with
  | memory store =>
      have held : (store.evictExpired now).contains key = true := present
      simp [claim, MemoryReplayStore.claim, held]
  | file store =>
      have held : (store.evictExpired now).contains key = true := present
      simp [claim, FileReplayStore.claim, held]

theorem writes_present (present : store.counts key now = true) (ttl : Nat)
    (flushed : Except ReplayError Unit) :
    store.writes ⟨.claim key ttl, now, flushed⟩ = false := by
  cases store with
  | memory store => rfl
  | file store =>
      have held : (store.evictExpired now).contains key = true := present
      simp [writes, held]

theorem release_result (store : ReplayStore) (key : Bytes) (now : Nat)
    (flushed : Except ReplayError Unit) :
    (store.release key now flushed).1 =
      if store.writes ⟨.release key, now, flushed⟩ then flushed else .ok () := by
  cases store with
  | memory store => rfl
  | file store =>
      cases flushed with
      | error error => rfl
      | ok done => rfl

end ReplayStore

/-- A claim meets the condition when both stores see its key in the same way and a write to
disk succeeds. -/
theorem agreeable_claim {store : ReplayStore} {reference : ReferenceStore} {key : Bytes}
    {ttl now : Nat} {flushed : Except ReplayError Unit} :
    Agreeable store reference ⟨.claim key ttl, now, flushed⟩ ↔
      reference.held key now = reference.countedBy store key now ∧
        (store.writes ⟨.claim key ttl, now, flushed⟩ = true → flushed = .ok ()) := by
  constructor
  · rintro ⟨elapsed, written⟩
    apply And.intro _ written
    unfold ReferenceStore.held ReferenceStore.countedBy
    cases found : reference key with
    | none => rfl
    | some claim => exact Bool.eq_iff_iff.mpr (by simpa using elapsed key ttl _ _ rfl found)
  · rintro ⟨same, written⟩
    apply Agreeable.mk _ written
    intro other _ made claimed call found
    cases call
    simp only [ReferenceStore.held, ReferenceStore.countedBy, found] at same
    rw [← same, decide_eq_true_eq]

theorem agreeable_release {store : ReplayStore} {reference : ReferenceStore} {key : Bytes}
    {now : Nat} {flushed : Except ReplayError Unit} :
    Agreeable store reference ⟨.release key, now, flushed⟩ ↔
      (store.writes ⟨.release key, now, flushed⟩ = true → flushed = .ok ()) := by
  constructor
  · exact Agreeable.written
  · intro written
    apply Agreeable.mk _ written
    intro other _ made claimed call
    cases call

namespace ReplayStore

variable {store : ReplayStore} {reference : ReferenceStore} {clock : Nat} {step : TraitStep}

/-- A call gets the answer of the reference store exactly under the condition. -/
theorem serve_answer_iff (next : clock ≤ step.now) (mirrors : Mirrors clock store reference) :
    (store.serve step).1 = (reference.serve step).1 ↔ Agreeable store reference step := by
  obtain ⟨call, now, flushed⟩ := step
  cases call with
  | claim key ttl =>
      have counted := mirrors key now next
      rw [agreeable_claim, ← counted]
      cases present : store.counts key now with
      | true =>
          have answer := claim_present present flushed
          cases held : reference.held key now with
          | true => simp [serve, ReferenceStore.serve, answer, held, writes_present present]
          | false => simp [serve, ReferenceStore.serve, answer, held]
      | false =>
          have claimed := claim_absent_true present ttl flushed
          have notReplay := claim_absent_ne_false present flushed
          cases held : reference.held key now with
          | true => simp [serve, ReferenceStore.serve, held, notReplay]
          | false => simp [serve, ReferenceStore.serve, held, claimed]
  | release key =>
      have answer := store.release_result key now flushed
      rw [agreeable_release]
      cases writes : store.writes ⟨.release key, now, flushed⟩ with
      | true => simp [serve, ReferenceStore.serve, answer, writes]
      | false => simp [serve, ReferenceStore.serve, answer, writes]

/-- A call that meets the condition leaves the two stores with the same claims. -/
theorem serve_mirrors (next : clock ≤ step.now) (mirrors : Mirrors clock store reference)
    (agreeable : Agreeable store reference step) :
    Mirrors step.now (store.serve step).2 (reference.serve step).2 := by
  obtain ⟨call, now, flushed⟩ := step
  intro other later ordered
  have kept := mirrors other later (Nat.le_trans next ordered)
  cases call with
  | claim key ttl =>
      obtain ⟨seen, written⟩ := agreeable_claim.mp agreeable
      have same := (store.claim_spec key now flushed).1
      rw [← mirrors key now next] at seen
      cases present : store.counts key now with
      | true =>
          have refused : (store.claim key now flushed).1 ≠ .ok true := by
            rw [claim_present present]
            simp
          rw [present] at seen
          simp only [serve, ReferenceStore.serve, seen, if_true]
          rw [counts_refused refused ordered, kept, same.countedBy]
      | false =>
          have claimed := (claim_absent_true present ttl flushed).mpr written
          rw [present] at seen
          simp only [serve, ReferenceStore.serve, seen, Bool.false_eq_true, if_false]
          rw [counts_claimed claimed ordered, same.countedBy, countedBy_update, kept]
          rfl
  | release key =>
      have same := (store.release_spec key now flushed).1
      simp only [serve, ReferenceStore.serve]
      rw [counts_released, same.countedBy, countedBy_update, kept]
      rfl

/-- A store without claims has those of the empty reference store. -/
theorem mirrors_empty (fresh : store.entries = []) : Mirrors 0 store ReferenceStore.empty := by
  intro key now ordered
  rw [counts, liveEntries, fresh]
  rfl

theorem pairwise_zero {steps : List TraitStep}
    (ordered : (steps.map TraitStep.now).Pairwise (· ≤ ·)) :
    (0 :: steps.map TraitStep.now).Pairwise (· ≤ ·) :=
  List.Pairwise.cons (fun _ _ => Nat.zero_le _) ordered

/-- From stores with the same claims, a run gets the same answers exactly when every call meets
the condition. -/
theorem answers_iff_of_mirrors {steps : List TraitStep}
    (ordered : (clock :: steps.map TraitStep.now).Pairwise (· ≤ ·))
    (mirrors : Mirrors clock store reference) :
    answers serve store steps = answers ReferenceStore.serve reference steps ↔
      Throughout serve ReferenceStore.serve Agreeable store reference steps := by
  apply answers_eq_iff Mirrors _ _ ordered mirrors
  · intro clock first second step next mirrors
    exact serve_answer_iff next mirrors
  · intro clock first second step next mirrors agreeable
    exact serve_mirrors next mirrors agreeable

/-- Along a run on a clock that does not go back, a store that starts without claims gives the
answers of the reference store exactly when every call meets the condition. -/
theorem answers_as_reference_iff {store : ReplayStore} {steps : List TraitStep}
    (fresh : store.entries = []) (ordered : (steps.map TraitStep.now).Pairwise (· ≤ ·)) :
    answers serve store steps = answers ReferenceStore.serve ReferenceStore.empty steps ↔
      Throughout serve ReferenceStore.serve Agreeable store ReferenceStore.empty steps :=
  answers_iff_of_mirrors (pairwise_zero ordered) (mirrors_empty fresh)

/-- Two claims of a key, two seconds apart and for one second each. -/
def reclaim (key : Bytes) : List TraitStep :=
  [⟨.claim key (fromSecs 1), 0, .ok ()⟩, ⟨.claim key (fromSecs 1), fromSecs 2, .ok ()⟩]

theorem reclaim_of_a_day_iff :
    answers serve (.memory ⟨fromSecs 86400, []⟩) (reclaim [1]) =
        answers ReferenceStore.serve ReferenceStore.empty (reclaim [1]) ↔
      Throughout serve ReferenceStore.serve Agreeable (.memory ⟨fromSecs 86400, []⟩)
        ReferenceStore.empty (reclaim [1]) :=
  answers_as_reference_iff rfl (by decide)

/-- A store that keeps its claims for a day turns down a key whose claim was for one second. -/
theorem claimed_ttl_ignored :
    answers serve (.memory ⟨fromSecs 86400, []⟩) (reclaim [1]) ≠
      answers ReferenceStore.serve ReferenceStore.empty (reclaim [1]) := by
  decide

/-- Every claim was made for the time to live of the store. -/
def NamesTtl (ttl : Nat) (reference : ReferenceStore) : Prop :=
  ∀ key made claimed, reference key = some (made, claimed) → claimed = ttl

theorem NamesTtl.update {ttl : Nat} (names : NamesTtl ttl reference) {key : Bytes}
    {claim : Option (Nat × Nat)}
    (named : ∀ made claimed, claim = some (made, claimed) → claimed = ttl) :
    NamesTtl ttl (Function.update reference key claim) := by
  intro other made claimed found
  by_cases equal : other = key
  · subst equal
    rw [Function.update_self] at found
    exact named made claimed found
  · rw [Function.update_of_ne equal] at found
    exact names other made claimed found

theorem NamesTtl.serve {ttl : Nat} (names : NamesTtl ttl reference)
    (named : ∀ key claimed, step.call = .claim key claimed → claimed = ttl) :
    NamesTtl ttl (reference.serve step).2 := by
  obtain ⟨call, now, flushed⟩ := step
  cases call with
  | claim key asked =>
      simp only [ReferenceStore.serve]
      split
      · exact names
      · apply names.update
        intro made claimed same
        cases same
        exact named key asked rfl
  | release key =>
      apply names.update
      intro made claimed same
      cases same

theorem serve_memory (store : MemoryReplayStore) (step : TraitStep) :
    ∃ seen, (serve (.memory store) step).2 = .memory ⟨store.ttl, seen⟩ := by
  obtain ⟨call, now, flushed⟩ := step
  cases call with
  | claim key ttl =>
      simp only [serve, claim, MemoryReplayStore.claim]
      split
      · exact ⟨_, rfl⟩
      · exact ⟨_, rfl⟩
  | release key => exact ⟨_, rfl⟩

/-- A memory store whose callers always name its own time to live is the reference store. -/
theorem memory_answers_as_reference {ttl : Nat} {steps : List TraitStep}
    (named : ∀ step ∈ steps, ∀ key claimed, step.call = .claim key claimed → claimed = ttl)
    (ordered : (steps.map TraitStep.now).Pairwise (· ≤ ·)) :
    answers serve (.memory ⟨ttl, []⟩) steps =
      answers ReferenceStore.serve ReferenceStore.empty steps := by
  apply (answers_iff_of_mirrors (pairwise_zero ordered) (mirrors_empty rfl)).mpr
  apply throughout_of_kept
    (fun store reference => (∃ seen, store = .memory ⟨ttl, seen⟩) ∧ NamesTtl ttl reference)
    (fun step => ∀ key claimed, step.call = .claim key claimed → claimed = ttl) _ _ named
  · constructor
    · exact ⟨[], rfl⟩
    · intro key made claimed found
      cases found
  · rintro store reference step _ ⟨⟨seen, rfl⟩, names⟩
    apply Agreeable.mk
    · intro key asked made claimed _ found
      rw [names key made claimed found]
      exact decide_eq_true_iff.symm
    · intro written
      cases written
  · rintro store reference step named ⟨⟨seen, rfl⟩, names⟩
    exact ⟨serve_memory _ step, names.serve named⟩

end ReplayStore
end Citadel
