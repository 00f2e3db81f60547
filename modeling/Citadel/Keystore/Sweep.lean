import Citadel.Keystore.Decryption
import Citadel.Keystore.Growth
import Citadel.Keystore.Verdicts

/-!
# The expiration sweep

The hard stop of `policy::evaluate` and `check_expiration` compute the lifetime of a key
independently, and the sweep asks `check_expiration` twice: for the listed record and, in
`expire`, for the record it reads back. At one instant all of them agree. The sweep files every
listed key once; what it writes is told from the same filing.
-/

namespace Citadel

open Program

/-- How the sweep files a listed key. -/
inductive Filing where
  | expired (source : ExpirationSource)
  | failed (message : String)
  | warned (reason : String) (remaining : Nat)
  | skipped
  deriving DecidableEq, Repr

/-- The report with one more key. -/
def ExpirationReport.file (report : ExpirationReport) (id : KeyId) :
    Filing → ExpirationReport
  | .expired source => { report with expired := report.expired ++ [(id, source)] }
  | .failed message => { report with failed := report.failed ++ [(id, message)] }
  | .warned reason remaining =>
      { report with warnings := report.warnings ++ [(id, reason, remaining)] }
  | .skipped => { report with skipped := report.skipped + 1 }

/-- The write of a key reaches its place, and the backend reports a failure of the directory
afterwards. -/
def Env.WritesLate (env : Env) (id : KeyId) : Prop :=
  env.getFault id = none ∧ ∃ error, env.putOutcome id = .storedThenFailed error

namespace Keystore

variable {ks : Keystore} {env : Env} {world after : World} {record : KeyMetadata}
  {records : List KeyMetadata} {report : ExpirationReport}

/-! ### One decision -/

/-- The decision of `check_expiration` at a threat level and an instant. -/
def decisionAt (ks : Keystore) (level : ThreatLevel) (now : Nat) (record : KeyMetadata) :
    ExpirationDecision :=
  match record.state with
  | .rotated =>
      match record.rotatedAt with
      | none => .notNeeded
      | some rotatedAt =>
          let grace := ks.gracePeriodFor record level
          let elapsed : Int := now - rotatedAt
          expirationDecision grace elapsed
            s!"rotated {numSeconds elapsed}s ago, grace period {asSecs grace}s"
            "grace period expiring soon" .gracePeriodExpired
  | .active =>
      match ks.maxLifetimeFor record level, record.activatedAt with
      | some maxLifetime, some activatedAt =>
          let elapsed : Int := now - activatedAt
          expirationDecision maxLifetime elapsed
            s!"active for {numSeconds elapsed}s, max lifetime {asSecs maxLifetime}s"
            "max lifetime expiring soon" .maxLifetimeExceeded
      | _, _ => .notNeeded
  | _ => .notNeeded

theorem checkExpiration_run {ε : Type} (record : KeyMetadata) :
    (ks.checkExpiration record : Prog ε ExpirationDecision).run (handle env) world =
      (.ok (ks.decisionAt env.level world.now record), world) := by
  unfold checkExpiration decisionAt
  cases record.state with
  | rotated =>
      cases record.rotatedAt with
      | none => rfl
      | some rotatedAt => rfl
  | active =>
      simp only [currentThreatLevel, utcNow, call_bind, run_perform, handle]
      cases ks.maxLifetimeFor record env.level with
      | none => rfl
      | some maxLifetime =>
          cases record.activatedAt with
          | none => rfl
          | some activatedAt => rfl
  | _ => rfl

/-- A key is due from the instant on at which its limit has elapsed. -/
theorem expirationDecision_required {limit : Nat} {elapsed : Int} {required warning : String}
    {source : ExpirationSource} :
    (∃ reason why, expirationDecision limit elapsed required warning source =
      .required reason why) ↔ chronoFromStd limit ≤ elapsed := by
  unfold expirationDecision
  split
  · rename_i reached
    simp [reached]
  · rename_i early
    split
    · simp [early]
    · simp [early]

/-- Whether the policy check of `decrypt` refuses a key as expired. -/
def RefusedAsExpired (ks : Keystore) (env : Env) (world : World) (record : KeyMetadata) : Prop :=
  ∃ verdict, (ks.evaluateEffective record : Prog String (Option PolicyVerdict)).run (handle env)
    world = (.ok verdict, world) ∧ verdict.any PolicyVerdict.isExpired = true

/-- The verdict is `Expired` when the lifetime has been reached, and only then. -/
theorem evaluate_expired_iff {policy : KeyPolicy} {now : Nat} (active : record.state = .active) :
    (∃ verdict, evaluate policy record now = .ok verdict ∧ verdict.isExpired = true) ↔
      LifetimeReached policy record now := by
  have evaluated : Evaluated policy record now (evaluate policy record now) :=
    evaluate_evaluated active
  generalize evaluate policy record now = said at evaluated
  cases evaluated with
  | expired reached => simp [reached, PolicyVerdict.isExpired]
  | divides unreached divides => simp [unreached]
  | exceeded unreached defined reached => simp [unreached, PolicyVerdict.isExpired]
  | rotate unreached defined unused unmasked reached => simp [unreached, PolicyVerdict.isExpired]
  | warn unreached defined unused masked => simp [unreached, PolicyVerdict.isExpired]
  | compliant unreached defined unused unmasked young => simp [unreached, PolicyVerdict.isExpired]

theorem refusedAsExpired_iff {policy : KeyPolicy}
    (effective : ks.effectivePolicyFor record env.level = some policy)
    (active : record.state = .active) :
    RefusedAsExpired ks env world record ↔ LifetimeReached policy record world.now := by
  rw [← evaluate_expired_iff active, RefusedAsExpired]
  simp only [evaluateEffective_run, verdictAt, effective]
  cases evaluate policy record world.now with
  | error why => simp [Except.map]
  | ok verdict => simp [Except.map]

/-- An active key is due exactly when the lifetime of its policy has been reached. -/
theorem required_iff {policy : KeyPolicy} {level : ThreatLevel} {now : Nat}
    (effective : ks.effectivePolicyFor record level = some policy)
    (enforced : policy.enforceCryptoperiod = true) (active : record.state = .active) :
    (∃ reason source, ks.decisionAt level now record = .required reason source) ↔
      LifetimeReached policy record now := by
  have limit : ks.maxLifetimeFor record level = policy.maxLifetime := by
    rw [maxLifetimeFor, effective, Option.bind_some]
  simp only [decisionAt, active, limit, LifetimeReached, enforced, true_and, KeyMetadata.ageAt]
  cases limited : policy.maxLifetime with
  | none => simp
  | some maxLifetime =>
      cases since : record.activatedAt with
      | none => simp
      | some activated =>
          simp only [expirationDecision_required]
          simp

/-! ### Filing the listed keys -/

/-- What `expire` answers for a stored key that is due. -/
def expireAnswer (env : Env) (id : KeyId) (source : ExpirationSource) :
    Except CallError ExpirationSource :=
  match env.getFault id with
  | some error => .error (.expire error)
  | none =>
      match env.putOutcome id with
      | .stored => .ok source
      | .refused error => .error (.expire error)
      | .storedThenFailed error => .error (.expire error)

/-- Whether the expiration of a key that is due reaches the store. -/
def expirationLands (env : Env) (id : KeyId) : Bool :=
  match env.getFault id with
  | some _ => false
  | none =>
      match env.putOutcome id with
      | .stored => true
      | .refused _ => false
      | .storedThenFailed _ => true

/-- Where the sweep files a listed key. -/
def filingOf (ks : Keystore) (env : Env) (now : Nat) (record : KeyMetadata) : Filing :=
  match ks.decisionAt env.level now record with
  | .required _ source =>
      match expireAnswer env record.id source with
      | .ok source => .expired source
      | .error error => .failed error.display
  | .warning reason remaining _ => .warned reason remaining
  | .notNeeded => .skipped

/-- Whether the sweep writes a listed key as expired. -/
def landsAt (ks : Keystore) (env : Env) (now : Nat) (record : KeyMetadata) : Bool :=
  match ks.decisionAt env.level now record with
  | .required _ _ => expirationLands env record.id
  | _ => false

/-- The records after a listed key was dealt with. -/
def sweepKey (ks : Keystore) (env : Env) (now : Nat) (keys : Keys) (record : KeyMetadata) : Keys :=
  if ks.landsAt env now record then keys.insert (expiredRecord record now) else keys

/-- `expire` of a stored key that is due. -/
theorem expire_run {reason : String} {source : ExpirationSource}
    (stored : world.keys.find? record.id = some record)
    (due : ks.decisionAt env.level world.now record = .required reason source) :
    (Program.attempt (ks.expire record.id) : Prog CallError (Except CallError _)).run (handle env)
        world =
      (.ok (expireAnswer env record.id source),
        { world with keys := ks.sweepKey env world.now world.keys record }) := by
  rw [run_attempt, expire, run_mapErr, run_bind]
  cases fault : env.getFault record.id with
  | some error =>
      have missing : (get record.id).run (handle env) world = (.err error, world) := by
        simp [get, handle, faulty, fault, Program.ofExcept]
      simp [missing, expireAnswer, expirationLands, landsAt, sweepKey, due, fault,
        Outcome.mapErr, Outcome.attempt]
  | none =>
      rw [get_run fault stored, andThen_ok, run_bind, checkExpiration_run, andThen_ok, due]
      have same : (expiredRecord record world.now).id = record.id := rfl
      cases outcome : env.putOutcome record.id with
      | stored =>
          simp [handle, handlePut, same, outcome, expireAnswer, expirationLands, landsAt, sweepKey,
            due, fault, Program.ofExcept, Outcome.mapErr, Outcome.attempt]
      | refused error =>
          simp [handle, handlePut, same, outcome, expireAnswer, expirationLands, landsAt, sweepKey,
            due, fault, Program.ofExcept, Outcome.mapErr, Outcome.attempt]
      | storedThenFailed error =>
          simp [handle, handlePut, same, outcome, expireAnswer, expirationLands, landsAt, sweepKey,
            due, fault, Program.ofExcept, Outcome.mapErr, Outcome.attempt]

/-- The loop files the first key and goes on. -/
theorem expireListed_cons_run {rest : List KeyMetadata}
    (stored : world.keys.find? record.id = some record) :
    (ks.expireListed (record :: rest) report).run (handle env) world =
      (ks.expireListed rest (report.file record.id (ks.filingOf env world.now record))).run
        (handle env) { world with keys := ks.sweepKey env world.now world.keys record } := by
  rw [expireListed, run_bind, checkExpiration_run, andThen_ok]
  cases decided : ks.decisionAt env.level world.now record with
  | required reason source =>
      simp only
      rw [run_bind, expire_run stored decided, andThen_ok]
      simp only [filingOf, decided]
      cases expireAnswer env record.id source with
      | ok source => rfl
      | error error => rfl
  | warning reason remaining source =>
      simp only [filingOf, sweepKey, landsAt, decided]
      rfl
  | notNeeded =>
      simp only [filingOf, sweepKey, landsAt, decided]
      rfl

/-- The records after the keys of a list were dealt with. -/
def sweepKeys (ks : Keystore) (env : Env) (now : Nat) (keys : Keys) (records : List KeyMetadata) :
    Keys :=
  records.foldl (ks.sweepKey env now) keys

/-- The report after the keys of a list were filed. -/
def fileAll (ks : Keystore) (env : Env) (now : Nat) (report : ExpirationReport)
    (records : List KeyMetadata) : ExpirationReport :=
  records.foldl (fun report record => report.file record.id (ks.filingOf env now record)) report

theorem find?_sweepKey {now : Nat} {keys : Keys} {id : KeyId} :
    (ks.sweepKey env now keys record).find? id =
      if id = record.id ∧ ks.landsAt env now record = true then some (expiredRecord record now)
      else keys.find? id := by
  unfold sweepKey
  cases lands : ks.landsAt env now record with
  | true =>
      have own : (expiredRecord record now).id = record.id := rfl
      rw [if_pos rfl, Table.find?_insert, own]
      by_cases same : id = record.id
      · rw [if_pos same, if_pos ⟨same, rfl⟩]
      · rw [if_neg same, if_neg]
        rintro ⟨equal, -⟩
        exact same equal
  | false => simp

theorem find?_sweepKeys_of_not_mem {now : Nat} {keys : Keys} {id : KeyId}
    (absent : id ∉ records.map KeyMetadata.id) :
    (ks.sweepKeys env now keys records).find? id = keys.find? id := by
  induction records generalizing keys with
  | nil => rfl
  | cons record rest ih =>
      rw [List.map_cons, List.mem_cons, not_or] at absent
      rw [sweepKeys, List.foldl_cons, ← sweepKeys, ih absent.2, find?_sweepKey, if_neg]
      rintro ⟨same, -⟩
      exact absent.1 same

theorem find?_sweepKeys_of_mem {now : Nat} {keys : Keys}
    (distinct : (records.map KeyMetadata.id).Nodup) (member : record ∈ records) :
    (ks.sweepKeys env now keys records).find? record.id =
      if ks.landsAt env now record = true then some (expiredRecord record now)
      else keys.find? record.id := by
  induction records generalizing keys with
  | nil => cases member
  | cons first rest ih =>
      rw [List.map_cons, List.nodup_cons] at distinct
      rw [sweepKeys, List.foldl_cons, ← sweepKeys]
      rcases List.mem_cons.mp member with rfl | later
      · rw [find?_sweepKeys_of_not_mem distinct.1, find?_sweepKey]
        simp
      · have other : record.id ≠ first.id := by
          intro same
          exact distinct.1 (same ▸ List.mem_map_of_mem later)
        rw [ih distinct.2 later, find?_sweepKey]
        simp [other]

/-- The loop over listed keys that are stored as they were listed. -/
theorem expireListed_run (distinct : (records.map KeyMetadata.id).Nodup)
    (stored : ∀ record ∈ records, world.keys.find? record.id = some record) :
    (ks.expireListed records report).run (handle env) world =
      (.ok (ks.fileAll env world.now report records),
        { world with keys := ks.sweepKeys env world.now world.keys records }) := by
  induction records generalizing world report with
  | nil => rfl
  | cons record rest ih =>
      rw [List.map_cons, List.nodup_cons] at distinct
      rw [expireListed_cons_run (stored record List.mem_cons_self), ih distinct.2]
      · rfl
      · intro other member
        rw [find?_sweepKey, if_neg]
        · exact stored other (List.mem_cons_of_mem _ member)
        · rintro ⟨same, -⟩
          exact distinct.1 (same ▸ List.mem_map_of_mem member)

/-! ### The whole sweep -/

/-- A listing of the records in a state (`list_by_state`). -/
def listing (env : Env) (keys : Keys) (state : KeyState) : List KeyMetadata :=
  env.order (keys.entries.filter fun record => record.state = state)

/-- A listing has every stored record in the state once. -/
theorem listing_distinct (env : Env) (keys : Keys) (state : KeyState) :
    ((listing env keys state).map KeyMetadata.id).Nodup := by
  apply ((env.order_perm _).map KeyMetadata.id).nodup_iff.mpr
  exact keys.distinct.sublist (List.filter_sublist.map KeyMetadata.id)

theorem mem_listing {keys : Keys} {state : KeyState} :
    record ∈ listing env keys state ↔
      keys.find? record.id = some record ∧ record.state = state := by
  rw [listing, (env.order_perm _).mem_iff, List.mem_filter, Table.mem_entries_iff,
    decide_eq_true_eq]

/-- The keys that the sweep goes through: those in rotation, then the active ones. -/
structure Listed (world : World) (listed : List KeyMetadata) : Prop where
  distinct : (listed.map KeyMetadata.id).Nodup
  mem_iff : ∀ record, record ∈ listed ↔ world.keys.find? record.id = some record ∧
    (record.state = .rotated ∨ record.state = .active)

/-- What happened to the keys in rotation leaves the active ones as they were. -/
theorem mem_listing_active {now : Nat} {keys : Keys} :
    record ∈ listing env (ks.sweepKeys env now keys (listing env keys .rotated)) .active ↔
      keys.find? record.id = some record ∧ record.state = .active := by
  rw [mem_listing, and_congr_left_iff]
  intro active
  by_cases member : record.id ∈ (listing env keys .rotated).map KeyMetadata.id
  · obtain ⟨other, inside, same⟩ := List.mem_map.mp member
    obtain ⟨stored, turned⟩ := mem_listing.mp inside
    have apart : other ≠ record := by
      rintro rfl
      rw [turned] at active
      cases active
    rw [← same, find?_sweepKeys_of_mem (listing_distinct env keys .rotated) inside, stored]
    split
    · constructor
      · intro found
        cases found
        cases active
      · intro found
        exact absurd (Option.some.inj found) apart
    · rfl
  · rw [find?_sweepKeys_of_not_mem member]

/-- A sweep that the listings do not stop files every listed key and ends well. -/
theorem expireDueKeys_run (ks : Keystore) (world : World) (answers : env.listFault = none) :
    ∃ listed, Listed world listed ∧ ks.expireDueKeys.run (handle env) world =
      (.ok (ks.fileAll env world.now .default listed),
        { world with keys := ks.sweepKeys env world.now world.keys listed }) := by
  have turned : ∀ record ∈ listing env world.keys .rotated,
      world.keys.find? record.id = some record ∧ record.state = .rotated :=
    fun record member => mem_listing.mp member
  generalize swept : ks.sweepKeys env world.now world.keys (listing env world.keys .rotated) = keys
  have active : ∀ record, record ∈ listing env keys .active ↔
      world.keys.find? record.id = some record ∧ record.state = .active := by
    intro record
    rw [← swept]
    exact mem_listing_active
  refine ⟨listing env world.keys .rotated ++ listing env keys .active, ⟨?_, ?_⟩, ?_⟩
  · rw [List.map_append, List.nodup_append]
    refine ⟨listing_distinct _ _ _, listing_distinct _ _ _, ?_⟩
    intro left inRotated right inActive equal
    obtain ⟨first, firstMem, rfl⟩ := List.mem_map.mp inRotated
    obtain ⟨second, secondMem, rfl⟩ := List.mem_map.mp inActive
    obtain ⟨stored, isRotated⟩ := turned first firstMem
    obtain ⟨found, isActive⟩ := (active second).mp secondMem
    rw [equal, found] at stored
    cases stored
    rw [isActive] at isRotated
    cases isRotated
  · intro record
    rw [List.mem_append, mem_listing, active, ← and_or_left]
  · have first : (ks.expireListed (listing env world.keys .rotated) .default).run (handle env)
        world = (.ok (ks.fileAll env world.now .default (listing env world.keys .rotated)),
          { world with keys := keys }) := by
      rw [← swept]
      exact expireListed_run (listing_distinct _ _ _) fun record member => (turned record member).1
    have second (report : ExpirationReport) : (ks.expireListed (listing env keys .active)
        report).run (handle env) { world with keys := keys } =
          (.ok (ks.fileAll env world.now report (listing env keys .active)),
            { world with keys := ks.sweepKeys env world.now keys (listing env keys .active) }) :=
      expireListed_run (listing_distinct _ _ _) fun record member => (mem_listing.mp member).1
    simp only [expireDueKeys, storageListByState, call_bind, run_perform, handle, answers, faulty,
      Program.ofExcept]
    rw [ret_bind, run_bind]
    simp only [listing] at first second swept ⊢
    rw [first, andThen_ok, run_perform]
    simp only [handle, answers, faulty]
    rw [ret_bind, second, fileAll, fileAll, fileAll, List.foldl_append, sweepKeys, sweepKeys,
      List.foldl_append]
    simp only [sweepKeys] at swept
    rw [swept]

/-- A sweep that a listing stops reports nothing. -/
theorem listFault_of_expireDueKeys
    (ran : ks.expireDueKeys.run (handle env) world = (.ok report, after)) :
    env.listFault = none := by
  cases fault : env.listFault with
  | none => rfl
  | some error =>
      simp only [expireDueKeys, storageListByState, call_bind, run_perform, handle, fault, faulty,
        Program.ofExcept] at ran
      cases ran

/-! ### The report -/

/-- Every key of a list is in exactly one part of a report; of the last part the report has the
number only. -/
structure Accounts (report : ExpirationReport) (skipped ids : List KeyId) : Prop where
  count : skipped.length = report.skipped
  parts : (report.expired.map Prod.fst ++ report.failed.map Prod.fst ++
    report.warnings.map Prod.fst ++ skipped).Perm ids

theorem Accounts.empty : Accounts .default [] [] := ⟨rfl, .refl _⟩

theorem Accounts.file {skipped ids : List KeyId} (accounts : Accounts report skipped ids)
    (id : KeyId) (filing : Filing) :
    ∃ more, Accounts (report.file id filing) more (ids ++ [id]) := by
  have counts := List.perm_iff_count.mp accounts.parts
  cases filing with
  | skipped =>
      refine ⟨skipped ++ [id], ?_, List.perm_iff_count.mpr fun other => ?_⟩
      · simp [ExpirationReport.file, accounts.count]
      · have count := counts other
        simp only [ExpirationReport.file, List.count_append] at count ⊢
        omega
  | expired _ | failed _ | warned _ _ =>
      refine ⟨skipped, accounts.count, List.perm_iff_count.mpr fun other => ?_⟩
      have count := counts other
      simp only [ExpirationReport.file, List.map_append, List.map_cons, List.map_nil,
        List.count_append] at count ⊢
      omega

theorem Accounts.fileAll {skipped ids : List KeyId} (accounts : Accounts report skipped ids)
    (ks : Keystore) (env : Env) (now : Nat) (records : List KeyMetadata) :
    ∃ more, Accounts (ks.fileAll env now report records) more
      (ids ++ records.map KeyMetadata.id) := by
  induction records generalizing report skipped ids with
  | nil =>
      rw [List.map_nil, List.append_nil]
      exact ⟨skipped, accounts⟩
  | cons record rest ih =>
      obtain ⟨more, filed⟩ := accounts.file record.id (ks.filingOf env now record)
      rw [List.map_cons, List.append_cons]
      exact ih filed

/-- The keys that a sweep reports as expired are those it files so. -/
theorem mem_expired_fileAll {now : Nat} {id : KeyId} (records : List KeyMetadata) :
    id ∈ (ks.fileAll env now report records).expired.map Prod.fst ↔
      id ∈ report.expired.map Prod.fst ∨ ∃ record ∈ records, record.id = id ∧
        ∃ source, ks.filingOf env now record = .expired source := by
  induction records generalizing report with
  | nil => simp [Keystore.fileAll]
  | cons record rest ih =>
      rw [Keystore.fileAll, List.foldl_cons, ← Keystore.fileAll, ih]
      cases filed : ks.filingOf env now record with
      | expired source => simp [ExpirationReport.file, filed, eq_comm, or_assoc]
      | failed message => simp [ExpirationReport.file, filed]
      | warned reason remaining => simp [ExpirationReport.file, filed]
      | skipped => simp [ExpirationReport.file, filed]

theorem mem_failed_fileAll {now : Nat} {id : KeyId} (records : List KeyMetadata) :
    id ∈ (ks.fileAll env now report records).failed.map Prod.fst ↔
      id ∈ report.failed.map Prod.fst ∨ ∃ record ∈ records, record.id = id ∧
        ∃ message, ks.filingOf env now record = .failed message := by
  induction records generalizing report with
  | nil => simp [Keystore.fileAll]
  | cons record rest ih =>
      rw [Keystore.fileAll, List.foldl_cons, ← Keystore.fileAll, ih]
      cases filed : ks.filingOf env now record with
      | expired source => simp [ExpirationReport.file, filed]
      | failed message => simp [ExpirationReport.file, filed, eq_comm, or_assoc]
      | warned reason remaining => simp [ExpirationReport.file, filed]
      | skipped => simp [ExpirationReport.file, filed]

/-- A key is written as expired when it is filed so, or when it is filed as failed because its
write was late. -/
theorem landsAt_iff {now : Nat} :
    ks.landsAt env now record = true ↔ (∃ source, ks.filingOf env now record = .expired source) ∨
      (∃ message, ks.filingOf env now record = .failed message) ∧ env.WritesLate record.id := by
  unfold landsAt filingOf expirationLands expireAnswer Env.WritesLate
  cases ks.decisionAt env.level now record with
  | required reason source =>
      cases env.getFault record.id with
      | some error => simp
      | none =>
          cases env.putOutcome record.id with
          | stored => simp
          | refused error => simp
          | storedThenFailed error => simp
  | warning reason remaining source => simp
  | notNeeded => simp

/-- The keys in a list of records, told by what is stored. -/
theorem Listed.perm {listed : List KeyMetadata} (all : Listed world listed) :
    (listed.map KeyMetadata.id).Perm ((world.keys.entries.filter fun record =>
      record.state = .active ∨ record.state = .rotated).map KeyMetadata.id) := by
  apply List.Perm.map
  apply (List.perm_ext_iff_of_nodup all.distinct.of_map _).mpr
  · intro record
    rw [all.mem_iff, List.mem_filter, Table.mem_entries_iff, decide_eq_true_eq, or_comm]
  · exact world.keys.distinct.of_map.sublist List.filter_sublist

/-- What a sweep wrote, told by its report. -/
theorem Listed.changed {listed : List KeyMetadata} (all : Listed world listed) {id : KeyId}
    (stored : world.keys.find? id = some record) :
    ∃ later, (ks.sweepKeys env world.now world.keys listed).find? id = some later ∧
      (later.state ≠ record.state ↔
        id ∈ (ks.fileAll env world.now .default listed).expired.map Prod.fst ∨
          id ∈ (ks.fileAll env world.now .default listed).failed.map Prod.fst ∧
            env.WritesLate id) := by
  have own := Table.key_of_find? stored
  subst own
  have only : ∀ other ∈ listed, other.id = record.id → other = record := by
    intro other member same
    have found := ((all.mem_iff other).mp member).1
    rw [same, stored] at found
    exact (Option.some.inj found).symm
  have filed : ∀ property : KeyMetadata → Prop, (∃ other ∈ listed, other.id = record.id ∧
      property other) ↔ record ∈ listed ∧ property record := by
    intro property
    constructor
    · rintro ⟨other, member, same, holds⟩
      cases only other member same
      exact ⟨member, holds⟩
    · rintro ⟨member, holds⟩
      exact ⟨record, member, rfl, holds⟩
  rw [mem_expired_fileAll, mem_failed_fileAll, filed, filed]
  simp only [ExpirationReport.default, List.map_nil, List.not_mem_nil, false_or]
  rw [and_assoc, ← and_or_left, ← landsAt_iff]
  by_cases member : record ∈ listed
  · rw [find?_sweepKeys_of_mem all.distinct member, stored]
    split
    · rename_i lands
      refine ⟨_, rfl, ?_⟩
      have live := ((all.mem_iff record).mp member).2
      rcases live with turned | active
      · simp [expiredRecord, turned, member, lands]
      · simp [expiredRecord, active, member, lands]
    · rename_i stays
      exact ⟨record, rfl, by simp [stays]⟩
  · have absent : record.id ∉ listed.map KeyMetadata.id := by
      intro inside
      obtain ⟨other, there, same⟩ := List.mem_map.mp inside
      cases only other there same
      exact member there
    rw [find?_sweepKeys_of_not_mem absent, stored]
    exact ⟨record, rfl, by simp [member]⟩

/-- The online check and the sweep agree on when an enforced lifetime is over. A sweep that
reports at all puts every active key and every key in rotation in one part of its report, and
changes the state of the keys it reports as expired and of those it reports as failed although
their write had reached its place. -/
theorem sweep_agrees (ks : Keystore) :
    (∀ (env : Env) (world : World) (record : KeyMetadata) (base : KeyPolicy),
      record.state = .active → record.policyId.bind ks.policies = some base →
      base.enforceCryptoperiod = true →
        (RefusedAsExpired ks env world record ↔ ∃ reason source,
          (ks.checkExpiration record : Prog CallError ExpirationDecision).run (handle env) world =
            (.ok (.required reason source), world))) ∧
    ∀ (env : Env) (world after : World) (report : ExpirationReport),
      ks.expireDueKeys.run (handle env) world = (.ok report, after) →
        (∃ skipped, Accounts report skipped ((world.keys.entries.filter fun record =>
          record.state = .active ∨ record.state = .rotated).map KeyMetadata.id)) ∧
        ∀ id record, world.keys.find? id = some record →
          ∃ later, after.keys.find? id = some later ∧
            (later.state ≠ record.state ↔ id ∈ report.expired.map Prod.fst ∨
              id ∈ report.failed.map Prod.fst ∧ env.WritesLate id) := by
  constructor
  · intro env world record base active governed enforced
    have effective : ks.effectivePolicyFor record env.level = some (adapt base env.level) := by
      rw [effectivePolicyFor, governed, Option.map_some]
    rw [refusedAsExpired_iff effective active, ← required_iff effective enforced active]
    simp only [checkExpiration_run, Prod.mk.injEq, Outcome.ok.injEq, and_true]
  · intro env world after report ran
    obtain ⟨listed, all, swept⟩ :=
      expireDueKeys_run ks world (listFault_of_expireDueKeys ran)
    rw [swept] at ran
    cases ran
    constructor
    · obtain ⟨skipped, filed⟩ := Accounts.empty.fileAll ks env world.now listed
      exact ⟨skipped, filed.count, filed.parts.trans all.perm⟩
    · intro id record stored
      exact all.changed stored

/-- A key with the policy that every key of `enforcingKeystore` has. -/
def keyTurning (state : KeyState) : KeyMetadata :=
  { keyInUse 0 with state, policyId := some ⟨"day"⟩, rotatedAt := some 0 }

/-- A keystore in which a key lives for a day and has a day of grace. -/
def enforcingKeystore : Keystore :=
  { plainKeystore with
    policies := fun _ => some
      { twoAges with
        maxLifetime := some (fromSecs 86400)
        rotationGracePeriod := fromSecs 86400
        enforceCryptoperiod := true } }

/-- A store with one key in rotation, thirty days later. -/
def monthLater : World :=
  ⟨fromSecs (30 * 86400), Table.empty.insert (keyTurning .rotated), .memory ⟨1, []⟩⟩

/-- The storage reports that the directory could not be synced. -/
def unsynced : Env :=
  { quietEnv 0 with putOutcome := fun _ => .storedThenFailed (.storageError "dir fsync") }

/-- The storage cannot be listed. -/
def unlisted : Env := { quietEnv 0 with listFault := some (.storageError "readdir") }

theorem sweep_agrees_month_later :
    (RefusedAsExpired enforcingKeystore (quietEnv 0) monthLater (keyTurning .active) ↔
      ∃ reason source, (enforcingKeystore.checkExpiration (keyTurning .active) :
        Prog CallError ExpirationDecision).run (handle (quietEnv 0)) monthLater =
          (.ok (.required reason source), monthLater)) ∧
    ∃ report after, enforcingKeystore.expireDueKeys.run (handle (quietEnv 0)) monthLater =
        (.ok report, after) ∧
      report.expired = [((keyTurning .rotated).id, .gracePeriodExpired)] ∧
      (∃ skipped, Accounts report skipped ((monthLater.keys.entries.filter fun record =>
        record.state = .active ∨ record.state = .rotated).map KeyMetadata.id)) ∧
      ∃ later, after.keys.find? (keyTurning .rotated).id = some later ∧
        (later.state ≠ (keyTurning .rotated).state ↔
          (keyTurning .rotated).id ∈ report.expired.map Prod.fst ∨
            (keyTurning .rotated).id ∈ report.failed.map Prod.fst ∧
              (quietEnv 0).WritesLate (keyTurning .rotated).id) := by
  refine ⟨(sweep_agrees enforcingKeystore).1 _ _ _ _ rfl rfl rfl, _, _, rfl, rfl, ?_⟩
  have swept := (sweep_agrees enforcingKeystore).2 (quietEnv 0) monthLater _ _ rfl
  exact ⟨swept.1, swept.2 _ (keyTurning .rotated) rfl⟩

/-- A key whose write was late is reported as failed and is expired all the same; a sweep whose
listing fails reports no key at all. -/
theorem failed_key_expires :
    (∃ report after, enforcingKeystore.expireDueKeys.run (handle unsynced) monthLater =
      (.ok report, after) ∧ (keyTurning .rotated).id ∈ report.failed.map Prod.fst ∧
        (keyTurning .rotated).id ∉ report.expired.map Prod.fst ∧
        (after.keys.find? (keyTurning .rotated).id).map KeyMetadata.state = some .expired) ∧
    (enforcingKeystore.expireDueKeys.run (handle unlisted) monthLater).1 =
      .err (.keystore (.storageError "readdir")) :=
  ⟨⟨_, _, rfl, by decide, by decide, rfl⟩, rfl⟩

end Keystore

end Citadel
