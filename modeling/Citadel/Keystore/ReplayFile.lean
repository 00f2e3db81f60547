import Citadel.Data.Outcome
import Citadel.Keystore.ReplayStore

/-!
# The file behind a replay store

A file store keeps its claims in memory and rewrites the whole file in batches: a temporary
file is written and renamed over the old one. Dropping the store flushes once more, and
opening it again reads the file back without the claims that have expired meanwhile.

`ReplayHost` is a process that owns one store and may drop and reopen it. Its runs keep
every claim for the time to live of the store.
-/

namespace Citadel

/-- An entry of the file (`FileEntry`). -/
structure FileEntry where
  keyHex : String
  seenAtUnix : Nat
  deriving DecidableEq, Repr

/-- What is found at the path of a store: the parsed document, or why it does not parse. -/
inductive ReplayFile where
  | missing
  | corrupt (error : String)
  | document (entries : List FileEntry)
  deriving DecidableEq, Repr

/-- Where a store keeps its file, and whether the host is one on which a file is not renamed
over another. -/
structure ReplayPath where
  path : String
  tmp : String
  windows : Bool
  deriving DecidableEq, Repr

/-- The system calls of a flush. -/
inductive FlushStage where
  | create
  | write
  | buffer
  | sync
  | remove
  | rename
  deriving DecidableEq, Repr

/-- A system call of a flush that fails. -/
structure FlushFault where
  stage : FlushStage
  error : String
  deriving DecidableEq, Repr

/-- The error of a failed flush. -/
def FlushFault.toReplayError (location : ReplayPath) (fault : FlushFault) : ReplayError :=
  match fault.stage with
  | .create => ⟨s!"replay flush create tmp '{location.tmp}': {fault.error}"⟩
  | .write => ⟨s!"replay flush write tmp '{location.tmp}': {fault.error}"⟩
  | .buffer => ⟨s!"replay flush buf tmp '{location.tmp}': {fault.error}"⟩
  | .sync => ⟨s!"replay fsync tmp '{location.tmp}': {fault.error}"⟩
  | .remove => ⟨s!"replay remove old file '{location.path}': {fault.error}"⟩
  | .rename =>
      ⟨s!"replay atomic rename '{location.tmp}' -> '{location.path}': {fault.error}"⟩

/-- What a failed flush leaves behind. Only a host that cannot rename over a file removes
the old one first. -/
def FlushFault.leaves (location : ReplayPath) (fault : FlushFault) (file : ReplayFile) :
    ReplayFile :=
  if location.windows ∧ fault.stage = .rename then .missing else file

namespace FileReplayStore

/-- The entry of a claim. -/
def toFileEntry (claim : Bytes × Nat) : FileEntry := ⟨hexEncode claim.1, claim.2⟩

/-- `FileReplayStore::flush`. -/
def flush (store : FileReplayStore) (location : ReplayPath) (now : Nat)
    (fault : Option FlushFault) (file : ReplayFile) : Except ReplayError Unit × ReplayFile :=
  match fault with
  | some fault => (.error (fault.toReplayError location), fault.leaves location file)
  | none => (.ok (), .document ((store.evictExpired now).map toFileEntry))

/-- The loop of `FileReplayStore::new` over the entries of the file. -/
def loadEntries (location : ReplayPath) (cutoff : Nat) :
    List FileEntry → Claims → Except ReplayError Claims
  | [], claims => .ok claims
  | entry :: rest, claims =>
      if cutoff ≤ entry.seenAtUnix then do
        let key ← (hexDecode (utf8 entry.keyHex)).mapError fun error =>
          (⟨s!"replay file '{location.path}' contains invalid key_hex '" ++
            String.ofList (entry.keyHex.toList.take 16) ++
            s!"': {error.display} — aborting to prevent replay bypass. " ++
            "Delete the file only if you accept replay risk for that ciphertext."⟩ : ReplayError)
        loadEntries location cutoff rest ((key, entry.seenAtUnix) :: claims.remove key)
      else loadEntries location cutoff rest claims

/-- The error of a file that exists and cannot be read. -/
def unreadableError (location : ReplayPath) (error : String) : ReplayError :=
  ⟨s!"replay file '{location.path}' exists but cannot be read: {error} " ++
    "— aborting to prevent replay bypass."⟩

/-- The claims that `FileReplayStore::new` finds; `unreadable` is why reading an existing
file fails. -/
def loadClaims (location : ReplayPath) (cutoff : Nat) (unreadable : Option String) :
    ReplayFile → Except ReplayError Claims
  | .missing => .ok []
  | .corrupt error =>
      match unreadable with
      | some failure => .error (unreadableError location failure)
      | none =>
          .error ⟨s!"replay file '{location.path}' is corrupt (parse failed: {error}) —" ++
            "                      delete only if you accept previously-claimed ciphertexts " ++
            "may replay."⟩
  | .document entries =>
      match unreadable with
      | some failure => .error (unreadableError location failure)
      | none => loadEntries location cutoff entries []

/-- `FileReplayStore::new`. -/
def new (location : ReplayPath) (defaultTtl now : Nat) (unreadable : Option String)
    (file : ReplayFile) : Except ReplayError FileReplayStore := do
  let claims ← loadClaims location (asSecs now - asSecs defaultTtl) unreadable file
  .ok ⟨asSecs defaultTtl, claims, 0, now⟩

/-- `FileReplayStore::force_flush`. -/
def forceFlush (store : FileReplayStore) (location : ReplayPath) (now : Nat)
    (fault : Option FlushFault) (file : ReplayFile) :
    Except ReplayError Unit × FileReplayStore × ReplayFile :=
  match store.flush location now fault file with
  | (.error error, file) => (.error error, store, file)
  | (.ok _, file) => (.ok (), { store with opsSinceFlush := 0, lastFlush := now }, file)

/-- `FileReplayStore::claim`, with the file it writes. -/
def claimOnDisk (store : FileReplayStore) (location : ReplayPath) (key : Bytes) (now : Nat)
    (fault : Option FlushFault) (file : ReplayFile) :
    Except ReplayError Bool × FileReplayStore × ReplayFile :=
  let live := store.evictExpired now
  if live.contains key then (.ok false, { store with claims := live }, file)
  else
    let claimed : FileReplayStore :=
      { store with
        claims := (key, asSecs now) :: live
        opsSinceFlush := store.opsSinceFlush + 1 }
    if claimed.shouldFlush now then
      match claimed.flush location now fault file with
      | (.error error, file) =>
          (.error error, { claimed with claims := claimed.claims.remove key }, file)
      | (.ok _, file) => (.ok true, { claimed with opsSinceFlush := 0, lastFlush := now }, file)
    else (.ok true, claimed, file)

/-- `FileReplayStore::release`, with the file it writes. -/
def releaseOnDisk (store : FileReplayStore) (location : ReplayPath) (key : Bytes) (now : Nat)
    (fault : Option FlushFault) (file : ReplayFile) :
    Except ReplayError Unit × FileReplayStore × ReplayFile :=
  let released := { store with claims := store.claims.remove key }
  match released.flush location now fault file with
  | (.error error, file) => (.error error, released, file)
  | (.ok _, file) => (.ok (), { released with opsSinceFlush := 0, lastFlush := now }, file)

/-- The claim that the keystore sees is the one that writes the file. -/
theorem claimOnDisk_eq (store : FileReplayStore) (location : ReplayPath) (key : Bytes) (now : Nat)
    (fault : Option FlushFault) (file : ReplayFile) :
    let flushed := (store.flush location now fault file).1
    (store.claimOnDisk location key now fault file).1 = (store.claim key now flushed).1 ∧
      (store.claimOnDisk location key now fault file).2.1 = (store.claim key now flushed).2 := by
  unfold claimOnDisk claim
  cases fault with
  | none =>
      simp only [flush]
      split_ifs <;> exact ⟨rfl, rfl⟩
  | some fault =>
      simp only [flush]
      split_ifs <;> exact ⟨rfl, rfl⟩

theorem claimOnDisk_ttl (store : FileReplayStore) (location : ReplayPath) (key : Bytes) (now : Nat)
    (fault : Option FlushFault) (file : ReplayFile) :
    (store.claimOnDisk location key now fault file).2.1.defaultTtlSecs = store.defaultTtlSecs := by
  unfold claimOnDisk
  cases fault with
  | none =>
      simp only [flush]
      split_ifs <;> rfl
  | some fault =>
      simp only [flush]
      split_ifs <;> rfl

/-- The release that the keystore sees is the one that writes the file. -/
theorem releaseOnDisk_eq (store : FileReplayStore) (location : ReplayPath) (key : Bytes)
    (now : Nat) (fault : Option FlushFault) (file : ReplayFile) :
    let flushed := (store.flush location now fault file).1
    (store.releaseOnDisk location key now fault file).1 = (store.release key now flushed).1 ∧
      (store.releaseOnDisk location key now fault file).2.1 =
        (store.release key now flushed).2 := by
  cases fault with
  | none => exact ⟨rfl, rfl⟩
  | some fault => exact ⟨rfl, rfl⟩

end FileReplayStore

/-! ### A process with one store -/

/-- What is fixed when a store is opened for the first time. -/
structure ReplayConfig where
  location : ReplayPath
  defaultTtl : Nat
  deriving DecidableEq, Repr

/-- A process that owns one store. A file store is dropped and opened again. -/
inductive ReplayHost where
  | memory (store : MemoryReplayStore)
  | «open» (store : FileReplayStore) (file : ReplayFile)
  | closed (file : ReplayFile)
  deriving DecidableEq, Repr

/-- What a process does with its store. -/
inductive ReplayCall where
  | claim (key : Bytes)
  | release (key : Bytes)
  | forceFlush
  | close
  | reopen (unreadable : Option String)
  deriving DecidableEq, Repr

/-- A call at an instant, and how its flush ends if it makes one. -/
structure ReplayStep where
  now : Nat
  call : ReplayCall
  fault : Option FlushFault
  deriving DecidableEq, Repr

/-- What a process hears. A call that its store does not have is not made. -/
inductive ReplayAnswer where
  | claimed (answer : Except ReplayError Bool)
  | done (answer : Except ReplayError Unit)
  | unavailable
  deriving DecidableEq, Repr

namespace ReplayHost

/-- The store of a process while it is open. -/
def store? : ReplayHost → Option ReplayStore
  | .memory store => some (.memory store)
  | .open store _ => some (.file store)
  | .closed _ => none

/-- One call. -/
def step (config : ReplayConfig) (host : ReplayHost) (step : ReplayStep) :
    ReplayAnswer × ReplayHost :=
  match host, step.call with
  | .memory store, .claim key =>
      (.claimed (store.claim key step.now).1, .memory (store.claim key step.now).2)
  | .memory store, .release key => (.done (store.release key).1, .memory (store.release key).2)
  | .open store file, .claim key =>
      let (answer, store, file) :=
        store.claimOnDisk config.location key step.now step.fault file
      (.claimed answer, .open store file)
  | .open store file, .release key =>
      let (answer, store, file) :=
        store.releaseOnDisk config.location key step.now step.fault file
      (.done answer, .open store file)
  | .open store file, .forceFlush =>
      let (answer, store, file) := store.forceFlush config.location step.now step.fault file
      (.done answer, .open store file)
  | .open store file, .close =>
      -- the outcome of the last flush is logged, not returned
      (.done (.ok ()), .closed (store.flush config.location step.now step.fault file).2)
  | .closed file, .reopen unreadable =>
      match FileReplayStore.new config.location config.defaultTtl step.now unreadable file with
      | .error error => (.done (.error error), .closed file)
      | .ok store => (.done (.ok ()), .open store file)
  | host, _ => (.unavailable, host)

/-- The state after a sequence of calls. -/
def run (config : ReplayConfig) (host : ReplayHost) (steps : List ReplayStep) : ReplayHost :=
  steps.foldl (fun host step => (host.step config step).2) host

/-- A process right after it made its store at an instant. -/
inductive Started (config : ReplayConfig) (now : Nat) : ReplayHost → Prop where
  | memory : Started config now (.memory ⟨config.defaultTtl, []⟩)
  | file {file : ReplayFile} {store : FileReplayStore}
      (opened : FileReplayStore.new config.location config.defaultTtl now none file = .ok store) :
      Started config now (.open store file)

/-- The claims of a process that still count at an instant. -/
def liveClaims (host : ReplayHost) (now : Nat) : Claims :=
  match host.store? with
  | some store => store.liveEntries now
  | none => []

/-- An empty store of the kind that a process has. -/
def blank (config : ReplayConfig) : ReplayHost → ReplayStore
  | .memory _ => .memory ⟨config.defaultTtl, []⟩
  | _ => .file ⟨asSecs config.defaultTtl, [], 0, 0⟩

/-- The time to live of the store of a process. -/
def ttl (config : ReplayConfig) (host : ReplayHost) : Nat := (host.blank config).ttl

end ReplayHost

/-! ### Reading the file back -/

/-- No key is claimed twice. -/
def Claims.Distinct (claims : Claims) : Prop := (claims.map Prod.fst).Nodup

namespace Claims

variable {claims : Claims} {key : Bytes} {stamp : Nat}

theorem distinct_nil : Distinct [] := List.nodup_nil

theorem Distinct.filter (distinct : claims.Distinct) (kept : Bytes × Nat → Bool) :
    Distinct (claims.filter kept) :=
  List.Nodup.sublist (List.Sublist.map _ List.filter_sublist) distinct

theorem Distinct.reverse (distinct : claims.Distinct) : Distinct claims.reverse := by
  rw [Distinct, List.map_reverse]
  exact List.nodup_reverse.mpr distinct

theorem Distinct.remove (distinct : claims.Distinct) (key : Bytes) : (claims.remove key).Distinct :=
  distinct.filter _

theorem Distinct.cons (distinct : claims.Distinct) (absent : claims.contains key = false) :
    Distinct ((key, stamp) :: claims) := by
  refine List.nodup_cons.mpr ⟨fun member => ?_, distinct⟩
  obtain ⟨⟨found, seen⟩, held, same⟩ := List.mem_map.mp member
  obtain rfl : found = key := same
  rw [contains_iff.mpr ⟨seen, held⟩] at absent
  cases absent

theorem not_contains_remove : (claims.remove key).contains key = false := by
  rw [← Bool.not_eq_true, contains_iff]
  rintro ⟨stamp, member⟩
  exact (mem_remove.mp member).2 rfl

end Claims

namespace FileReplayStore

/-- Whatever the file holds, no key is loaded twice. -/
theorem loadEntries_distinct {location : ReplayPath} {cutoff : Nat} {entries : List FileEntry}
    {claims loaded : Claims} (distinct : claims.Distinct)
    (load : loadEntries location cutoff entries claims = .ok loaded) : loaded.Distinct := by
  induction entries generalizing claims with
  | nil =>
      cases load
      exact distinct
  | cons entry rest ih =>
      rw [loadEntries] at load
      split at load
      · obtain ⟨key, -, load⟩ := Except.of_bind_eq_ok load
        exact ih ((distinct.remove key).cons Claims.not_contains_remove) load
      · exact ih distinct load

/-- Loading what was written gives back the claims that have not expired. -/
theorem loadEntries_map {location : ReplayPath} {cutoff : Nat} {written claims : Claims}
    (distinct : (written ++ claims).Distinct) :
    loadEntries location cutoff (written.map toFileEntry) claims =
      .ok ((written.filter fun entry => cutoff ≤ entry.2).reverse ++ claims) := by
  induction written generalizing claims with
  | nil => rfl
  | cons entry rest ih =>
      obtain ⟨key, stamp⟩ := entry
      have decoded : hexDecode (utf8 (toFileEntry (key, stamp)).keyHex) = .ok key := by
        simp [toFileEntry, utf8_hexEncode]
      simp only [List.cons_append, Claims.Distinct, List.map_cons, List.nodup_cons] at distinct
      rw [List.map_cons, loadEntries, decoded]
      by_cases recent : cutoff ≤ stamp
      · have fresh : claims.remove key = claims := by
          apply Claims.remove_of_not_contains
          rw [← Bool.not_eq_true, Claims.contains_iff]
          rintro ⟨seen, member⟩
          apply distinct.1
          rw [List.map_append]
          exact List.mem_append_right _ (List.mem_map_of_mem member)
        have moved : Claims.Distinct (rest ++ (key, stamp) :: claims) := by
          have shuffled : (rest ++ (key, stamp) :: claims).Perm ((key, stamp) :: (rest ++ claims)) :=
            List.perm_middle
          exact (shuffled.map Prod.fst).nodup_iff.mpr (List.nodup_cons.mpr distinct)
        have step := ih moved
        simp only [toFileEntry, recent, if_true, Except.mapError_ok, bind, Except.bind, fresh] at step ⊢
        rw [step]
        simp [recent]
      · simp only [toFileEntry, recent, if_false]
        rw [ih distinct.2]
        simp [recent]

end FileReplayStore

/-! ### What one call does to the claims -/

namespace ReplayHost

/-- The claims a process answers for: those in memory, or those in the file of a store that
was dropped after a flush. -/
inductive Holds (config : ReplayConfig) : ReplayHost → Claims → Prop where
  | memory {store : MemoryReplayStore} (ttl : store.ttl = config.defaultTtl) :
      Holds config (.memory store) store.seen
  | «open» {store : FileReplayStore} {file : ReplayFile}
      (ttl : store.defaultTtlSecs = asSecs config.defaultTtl) :
      Holds config (.open store file) store.claims
  | closed (claims : Claims) :
      Holds config (.closed (.document (claims.map FileReplayStore.toFileEntry))) claims

/-- What a call may do to the claims, told by the clock of the store. -/
structure Effect (clock : ReplayStore) (step : ReplayStep) (answer : ReplayAnswer)
    (before after : Claims) : Prop where
  distinct : before.Distinct → after.Distinct
  kept : ∀ key stamp, (key, stamp) ∈ before → clock.live stamp step.now = true →
    step.call ≠ .release key → (key, stamp) ∈ after
  claimed : ∀ key, step.call = .claim key → answer = .claimed (.ok true) →
    (key, clock.stamp step.now) ∈ after
  refused : ∀ key stamp, (key, stamp) ∈ before → clock.live stamp step.now = true →
    step.call = .claim key → answer ≠ .claimed (.ok true)

section Effects

variable {config : ReplayConfig} {step : ReplayStep} {clock : ReplayStore}

/-- A claim, by what the store says about it. -/
theorem Effect.of_claim (store : ReplayStore) (key : Bytes) (flushed : Except ReplayError Unit)
    (sameClock : store.SameClock clock) (call : step.call = .claim key) :
    Effect clock step (.claimed (store.claim key step.now flushed).1) store.entries
      (store.claim key step.now flushed).2.entries := by
  obtain ⟨-, spec⟩ := store.claim_spec key step.now flushed
  have liveness : ∀ other stamp, (other, stamp) ∈ store.entries →
      clock.live stamp step.now = true → (other, stamp) ∈ store.liveEntries step.now := by
    intro other stamp member alive
    rw [← sameClock.live] at alive
    exact List.mem_filter.mpr ⟨member, alive⟩
  generalize (store.claim key step.now flushed).1 = answer at spec ⊢
  generalize (store.claim key step.now flushed).2 = after at spec ⊢
  have filtered : store.entries.Distinct → (store.liveEntries step.now).Distinct :=
    fun distinct => distinct.filter _
  match answer, spec with
  | .ok true, ⟨absent, entries⟩ =>
      rw [entries]
      constructor
      · intro distinct
        exact (filtered distinct).cons absent
      · intro other stamp member alive _
        exact List.mem_cons_of_mem _ (liveness other stamp member alive)
      · rintro other same -
        obtain rfl : key = other := by
          rw [call] at same
          injection same
        rw [sameClock.stamp]
        exact List.mem_cons_self
      · rintro other stamp member alive same -
        obtain rfl : key = other := by
          rw [call] at same
          injection same
        rw [Claims.contains_iff.mpr ⟨stamp, liveness key stamp member alive⟩] at absent
        cases absent
  | .ok false, ⟨_, entries⟩ =>
      rw [entries]
      exact ⟨filtered, fun other stamp member alive _ => liveness other stamp member alive,
        fun _ _ same => by simp at same, fun _ _ _ _ _ same => by simp at same⟩
  | .error error, ⟨_, entries⟩ =>
      rw [entries]
      exact ⟨filtered, fun other stamp member alive _ => liveness other stamp member alive,
        fun _ _ same => by simp at same, fun _ _ _ _ _ same => by simp at same⟩

/-- A call that is no claim and forgets nothing but expired claims and the released key. -/
theorem Effect.of_kept {answer : ReplayAnswer} {before after : Claims}
    (other : ∀ result, answer ≠ .claimed result) (distinct : before.Distinct → after.Distinct)
    (kept : ∀ key stamp, (key, stamp) ∈ before → clock.live stamp step.now = true →
      step.call ≠ .release key → (key, stamp) ∈ after) :
    Effect clock step answer before after :=
  ⟨distinct, kept, fun _ _ same => absurd same (other _), fun _ _ _ _ _ => other _⟩

/-- A call that the store does not have. -/
theorem Effect.unavailable (claims : Claims) : Effect clock step .unavailable claims claims :=
  .of_kept (by simp) id fun _ _ member _ _ => member

/-- Forgetting a released key. -/
theorem Effect.of_release {key : Bytes} {answer : Except ReplayError Unit} {claims : Claims}
    (call : step.call = .release key) :
    Effect clock step (.done answer) claims (claims.remove key) := by
  apply Effect.of_kept (by simp) fun distinct => distinct.remove key
  intro other stamp member _ different
  apply Claims.mem_remove.mpr ⟨member, ?_⟩
  rintro rfl
  exact different call

/-- A store keeps the clock it was configured with. -/
theorem sameClock_file {store : FileReplayStore}
    (ttl : store.defaultTtlSecs = asSecs config.defaultTtl) :
    (ReplayStore.file store).SameClock (.file ⟨asSecs config.defaultTtl, [], 0, 0⟩) := by
  rw [← ttl]
  exact ⟨rfl, rfl, rfl⟩

theorem sameClock_memory {store : MemoryReplayStore} (ttl : store.ttl = config.defaultTtl) :
    (ReplayStore.memory store).SameClock (.memory ⟨config.defaultTtl, []⟩) := by
  rw [← ttl]
  exact ⟨rfl, rfl, rfl⟩

/-- The calls of a process with a memory store. -/
theorem memory_effect {store : MemoryReplayStore} (ttl : store.ttl = config.defaultTtl) :
    ∃ after, Holds config ((memory store).step config step).2 after ∧
      Effect (.memory ⟨config.defaultTtl, []⟩) step ((memory store).step config step).1 store.seen
        after := by
  obtain ⟨now, call, fault⟩ := step
  cases call with
  | claim key =>
      refine ⟨(store.claim key now).2.seen, .memory ?_, ?_⟩
      · exact ((ReplayStore.memory store).claim_spec key now (.ok ())).1.ttl.trans ttl
      · exact Effect.of_claim (.memory store) key (.ok ()) (sameClock_memory ttl) rfl
  | release key => exact ⟨store.seen.remove key, .memory ttl, .of_release rfl⟩
  | forceFlush => exact ⟨store.seen, .memory ttl, .unavailable _⟩
  | close => exact ⟨store.seen, .memory ttl, .unavailable _⟩
  | reopen unreadable => exact ⟨store.seen, .memory ttl, .unavailable _⟩

/-- The calls of a process with an open file store, dropped only after a flush. -/
theorem open_effect {store : FileReplayStore} {file : ReplayFile}
    (ttl : store.defaultTtlSecs = asSecs config.defaultTtl)
    (clean : step.call = .close → step.fault = none) :
    ∃ after, Holds config ((«open» store file).step config step).2 after ∧
      Effect (.file ⟨asSecs config.defaultTtl, [], 0, 0⟩) step
        ((«open» store file).step config step).1 store.claims after := by
  obtain ⟨now, call, fault⟩ := step
  cases call with
  | claim key =>
      obtain ⟨answered, stored⟩ := store.claimOnDisk_eq config.location key now fault file
      refine ⟨(store.claimOnDisk config.location key now fault file).2.1.claims, .open ?_, ?_⟩
      · exact (store.claimOnDisk_ttl config.location key now fault file).trans ttl
      · change Effect _ ⟨now, .claim key, fault⟩
          (.claimed (store.claimOnDisk config.location key now fault file).1) _ _
        rw [answered, stored]
        exact Effect.of_claim (.file store) key _ (sameClock_file ttl) rfl
  | release key =>
      cases fault with
      | none => exact ⟨store.claims.remove key, .open ttl, .of_release rfl⟩
      | some fault => exact ⟨store.claims.remove key, .open ttl, .of_release rfl⟩
  | forceFlush =>
      refine ⟨store.claims, ?_, ?_⟩
      · cases fault <;> exact Holds.open ttl
      · exact Effect.of_kept (by simp [ReplayHost.step]) id fun _ _ member _ _ => member
  | close =>
      obtain rfl : fault = none := clean rfl
      refine ⟨store.evictExpired now, .closed _, ?_⟩
      apply Effect.of_kept (by simp [ReplayHost.step]) fun distinct => distinct.filter _
      intro key stamp member alive _
      rw [← (sameClock_file ttl).live] at alive
      exact List.mem_filter.mpr ⟨member, alive⟩
  | reopen unreadable => exact ⟨store.claims, .open ttl, .unavailable _⟩

/-- Opening the file of a dropped store again. -/
theorem closed_effect (claims : Claims) (distinct : claims.Distinct) :
    ∃ after,
      Holds config ((closed (.document (claims.map FileReplayStore.toFileEntry))).step config
        step).2 after ∧
      Effect (.file ⟨asSecs config.defaultTtl, [], 0, 0⟩) step
        ((closed (.document (claims.map FileReplayStore.toFileEntry))).step config step).1 claims
        after := by
  obtain ⟨now, call, fault⟩ := step
  cases call with
  | claim key => exact ⟨claims, .closed claims, .unavailable _⟩
  | release key => exact ⟨claims, .closed claims, .unavailable _⟩
  | forceFlush => exact ⟨claims, .closed claims, .unavailable _⟩
  | close => exact ⟨claims, .closed claims, .unavailable _⟩
  | reopen unreadable =>
      cases unreadable with
      | some error =>
          exact ⟨claims, .closed claims, .of_kept (fun _ same => by cases same) id
            fun _ _ member _ _ => member⟩
      | none =>
          have whole : (claims ++ []).Distinct := by simpa using distinct
          have opened : FileReplayStore.new config.location config.defaultTtl now none
              (.document (claims.map FileReplayStore.toFileEntry)) =
                .ok ⟨asSecs config.defaultTtl, (claims.filter fun entry =>
                  asSecs now - asSecs config.defaultTtl ≤ entry.2).reverse ++ [], 0, now⟩ := by
            simp only [FileReplayStore.new, FileReplayStore.loadClaims,
              FileReplayStore.loadEntries_map whole]
            rfl
          simp only [ReplayHost.step, opened]
          refine ⟨_, .open rfl, .of_kept (by simp) (fun _ => ?_) fun key stamp member alive _ => ?_⟩
          · rw [List.append_nil]
            exact (distinct.filter _).reverse
          · apply List.mem_append_left
            exact List.mem_reverse.mpr (List.mem_filter.mpr ⟨member, alive⟩)

/-- Every call keeps the claims that are neither expired nor released, and its store answers
by them. -/
theorem step_effect {host : ReplayHost} {claims : Claims} (holds : Holds config host claims)
    (distinct : claims.Distinct) (clean : step.call = .close → step.fault = none) :
    ∃ after, Holds config (host.step config step).2 after ∧
      Effect (host.blank config) step (host.step config step).1 claims after := by
  cases holds with
  | memory ttl => exact memory_effect ttl
  | «open» ttl => exact open_effect ttl clean
  | closed => exact closed_effect claims distinct

/-- A process keeps the kind of its store. -/
theorem step_blank (host : ReplayHost) :
    (host.step config step).2.blank config = host.blank config := by
  obtain ⟨now, call, fault⟩ := step
  cases host with
  | memory store => cases call <;> rfl
  | «open» store file => cases call <;> rfl
  | closed file =>
      cases call with
      | reopen unreadable =>
          simp only [ReplayHost.step]
          split <;> rfl
      | _ => rfl

/-- A process that just made its store holds its claims, each key once. -/
theorem Started.holds {now : Nat} {host : ReplayHost} (started : Started config now host) :
    ∃ claims, Holds config host claims ∧ claims.Distinct := by
  cases started with
  | memory => exact ⟨[], .memory rfl, Claims.distinct_nil⟩
  | @file file store opened =>
      obtain ⟨claims, loaded, made⟩ := Except.of_bind_eq_ok opened
      cases made
      refine ⟨claims, .open rfl, ?_⟩
      cases file with
      | missing =>
          cases loaded
          exact Claims.distinct_nil
      | corrupt error => cases loaded
      | document entries =>
          exact FileReplayStore.loadEntries_distinct Claims.distinct_nil loaded

/-- The calls of a run are made in the order of a clock that does not go back, and a store
is dropped only when its last flush succeeds. -/
structure Orderly (start : Nat) (steps : List ReplayStep) : Prop where
  clock : (start :: steps.map ReplayStep.now).Pairwise (· ≤ ·)
  clean : ∀ step ∈ steps, step.call = .close → step.fault = none

/-- Along a run the claims stay distinct. -/
theorem run_holds {host : ReplayHost} {claims : Claims} (steps : List ReplayStep)
    (holds : Holds config host claims) (distinct : claims.Distinct)
    (clean : ∀ step ∈ steps, step.call = .close → step.fault = none) :
    ∃ after, Holds config (host.run config steps) after ∧ after.Distinct ∧
      (host.run config steps).blank config = host.blank config ∧
      ∀ key stamp, (key, stamp) ∈ claims →
        (∀ step ∈ steps, (host.blank config).live stamp step.now = true ∧
          step.call ≠ .release key) → (key, stamp) ∈ after := by
  induction steps generalizing host claims with
  | nil => exact ⟨claims, holds, distinct, rfl, fun _ _ member _ => member⟩
  | cons step rest ih =>
      obtain ⟨next, held, effect⟩ := step_effect holds distinct (clean step List.mem_cons_self)
      obtain ⟨after, final, finalDistinct, blank, kept⟩ := ih held (effect.distinct distinct)
        fun other member => clean other (List.mem_cons_of_mem _ member)
      rw [step_blank] at blank kept
      refine ⟨after, final, finalDistinct, blank, fun key stamp member lasting => ?_⟩
      obtain ⟨alive, unreleased⟩ := lasting step List.mem_cons_self
      apply kept key stamp (effect.kept key stamp member alive unreleased)
      intro other later
      exact lasting other (List.mem_cons_of_mem _ later)

/-- What still counts after a failed claim is what counted before it. -/
theorem liveEntries_of_failed (store : ReplayStore) {key : Bytes} {now : Nat}
    (flushed : Except ReplayError Unit) {error : ReplayError}
    (failed : (store.claim key now flushed).1 = .error error) :
    (store.claim key now flushed).2.liveEntries now = store.liveEntries now := by
  obtain ⟨clock, spec⟩ := store.claim_spec key now flushed
  rw [failed] at spec
  rw [ReplayStore.liveEntries, spec.2, clock.live]
  apply List.filter_eq_self.mpr
  intro entry member
  exact (List.mem_filter.mp member).2

theorem liveClaims_of_failed {host : ReplayHost} {error : ReplayError}
    (failed : (host.step config step).1 = .claimed (.error error)) :
    (host.step config step).2.liveClaims step.now = host.liveClaims step.now := by
  obtain ⟨now, call, fault⟩ := step
  cases host with
  | memory store =>
      cases call with
      | claim key =>
          injection failed with failed
          exact liveEntries_of_failed (.memory store) (.ok ()) failed
      | _ => cases failed
  | «open» store file =>
      cases call with
      | claim key =>
          obtain ⟨answered, stored⟩ := store.claimOnDisk_eq config.location key now fault file
          injection failed with failed
          have failedClaim := answered.symm.trans failed
          have live := liveEntries_of_failed (.file store) _ failedClaim
          change (ReplayStore.file
            (store.claimOnDisk config.location key now fault file).2.1).liveEntries now =
              (ReplayStore.file store).liveEntries now
          rw [stored]
          exact live
      | _ => cases failed
  | closed file =>
      cases call with
      | reopen unreadable =>
          simp only [ReplayHost.step] at failed
          split at failed <;> cases failed
      | _ => cases failed

end Effects

theorem run_append (config : ReplayConfig) (host : ReplayHost) (left right : List ReplayStep) :
    host.run config (left ++ right) = (host.run config left).run config right :=
  List.foldl_append

end ReplayHost

/-- In every run of a replay store whose clock does not go back and which is dropped only
after a successful flush: a claimed key is not claimed again before it is released or the
time to live of the store is over, and a claim that fails leaves the unexpired claims as
they were. -/
theorem replay_claims_persist (config : ReplayConfig) (start : ReplayHost) (opened : Nat)
    (started : start.Started config opened) (steps : List ReplayStep)
    (orderly : ReplayHost.Orderly opened steps) :
    (∀ before first between second after key,
      steps = before ++ first :: (between ++ second :: after) →
      first.call = .claim key → second.call = .claim key →
      ((start.run config before).step config first).1 = .claimed (.ok true) →
      (∀ step ∈ between, step.call ≠ .release key) →
      second.now < first.now + start.ttl config →
      ((start.run config (before ++ first :: between)).step config second).1 ≠
        .claimed (.ok true)) ∧
    ∀ before step after error,
      steps = before ++ step :: after →
      ((start.run config before).step config step).1 = .claimed (.error error) →
      ((start.run config before).step config step).2.liveClaims step.now =
        (start.run config before).liveClaims step.now := by
  obtain ⟨initial, holds, distinct⟩ := started.holds
  constructor
  · rintro before first between second after key rfl firstCall secondCall claimed unreleased early
    have clean := orderly.clean
    have order := List.pairwise_map.mp orderly.clock.of_cons
    obtain ⟨-, order, -⟩ := List.pairwise_append.mp order
    obtain ⟨firstEarlier, order⟩ := List.pairwise_cons.mp order
    obtain ⟨-, -, secondLater⟩ := List.pairwise_append.mp order
    -- the state in which the key is claimed
    obtain ⟨claims, held, claimsDistinct, blank, -⟩ := ReplayHost.run_holds before holds distinct
      fun step member => clean step (by simp [member])
    obtain ⟨next, nextHeld, effect⟩ := ReplayHost.step_effect held claimsDistinct
      (clean first (by simp))
    have entered := effect.claimed key firstCall claimed
    rw [blank] at entered
    -- every call up to the second claim finds it unexpired
    have alive : ∀ now, first.now ≤ now → now ≤ second.now →
        (start.blank config).live ((start.blank config).stamp first.now) now = true := by
      intro now later earlier
      exact ReplayStore.live_stamp_of_lt later (lt_of_le_of_lt earlier early)
    obtain ⟨last, lastHeld, lastDistinct, lastBlank, kept⟩ :=
      ReplayHost.run_holds between nextHeld (effect.distinct claimsDistinct)
        fun step member => clean step (by simp [member])
    rw [ReplayHost.step_blank, blank] at lastBlank kept
    have present := kept key _ entered fun step member =>
      ⟨alive step.now (firstEarlier step (by simp [member]))
        (secondLater step member second List.mem_cons_self), unreleased step member⟩
    obtain ⟨_, -, final⟩ := ReplayHost.step_effect lastHeld lastDistinct (clean second (by simp))
    rw [lastBlank] at final
    rw [ReplayHost.run_append]
    exact final.refused key _ present
      (alive second.now (firstEarlier second (by simp)) le_rfl) secondCall
  · rintro before step after error - failed
    exact ReplayHost.liveClaims_of_failed failed

/-- A store for ten seconds. -/
def tenSeconds : ReplayConfig := ⟨⟨"replay.json", "replay.tmp", false⟩, fromSecs 10⟩

/-- A key is claimed, the store is dropped and opened again, and the key stays claimed. -/
theorem claim_survives_restart :
    let start := ReplayHost.open ⟨10, [], 0, 0⟩ .missing
    let claim : ReplayStep := ⟨fromSecs 1, .claim [7], none⟩
    let restart : List ReplayStep :=
      [⟨fromSecs 2, .close, none⟩, ⟨fromSecs 3, .reopen none, none⟩]
    (start.step tenSeconds claim).1 = .claimed (.ok true) ∧
      ((start.run tenSeconds (claim :: restart)).step tenSeconds
        ⟨fromSecs 4, .claim [7], none⟩).1 ≠ .claimed (.ok true) := by
  intro start claim restart
  have first : (start.step tenSeconds claim).1 = .claimed (.ok true) := by decide
  have started : start.Started tenSeconds 0 := .file rfl
  have orderly : ReplayHost.Orderly 0
      (claim :: (restart ++ [⟨fromSecs 4, .claim [7], none⟩])) := by
    constructor
    · decide
    · decide
  have kept := (replay_claims_persist tenSeconds start 0 started _ orderly).1 [] claim restart
    ⟨fromSecs 4, .claim [7], none⟩ [] [7] rfl rfl rfl first (by decide) (by decide)
  exact ⟨first, kept⟩

end Citadel
