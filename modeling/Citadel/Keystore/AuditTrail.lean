import Citadel.Keystore.Audited
import Citadel.Keystore.Change
import Citadel.Program.Journals

/-!
# The audit log tells what was stored

Every write of the keystore that is answered well is recorded by the next operation of
its caller, with the type and the state that were stored, and nothing else is recorded
that way. So in every interleaving the log holds one event for each stored record, less
those whose callers are just about to record them.
-/

namespace Citadel

open Envelope Program Audit

/-- The type and the state of a key, as stored. -/
structure StoredState where
  id : KeyId
  keyType : KeyType
  state : KeyState
  deriving DecidableEq, Repr

/-- What a record says of the state of its key. -/
def KeyMetadata.storedState (record : KeyMetadata) : StoredState :=
  ⟨record.id, record.keyType, record.state⟩

/-- The stored record that an answer acknowledges. A put that stored its record and then
failed acknowledges none. -/
def wroteState : (op : Op) → op.Ret → Option StoredState
  | .put record, .ok _ => some record.storedState
  | _, _ => none

/-- Whether an action is recorded when a record was stored. A cascade that suspends a key
records a violation of the hierarchy, as unwrapping under a dead parent does; only the
spelling of the parent's state tells them apart. -/
def Audit.AuditAction.storesRecord : AuditAction → Bool
  | .keyGenerated => true
  | .keyActivated => true
  | .keyRotated _ => true
  | .keyExpired _ => true
  | .keyRevoked _ => true
  | .keyDestroyed => true
  | .encryptionPerformed _ => true
  | .keyRewrapped _ _ _ => true
  | .hierarchyViolation _ parentState _ => parentState == "Revoked"
  | _ => false

/-- The stored state that an event reports. -/
def toldState (draft : EventDraft) : Option StoredState :=
  if draft.action.storesRecord then
    match draft.keyId, draft.keyType, draft.keyState with
    | some id, some keyType, some state => some ⟨id, keyType, state⟩
    | _, _, _ => none
  else none

/-- A record that is read is the record of the key that was asked for. -/
def answersOwn : (op : Op) → op.Ret → Prop
  | .get id, .ok (some record) => record.id = id
  | _, _ => True

/-- The code records every stored state with the next operation, and no other. -/
abbrev ReportsWrites {ε α : Type} (program : Audited ε α) : Prop :=
  Reports answersOwn wroteState toldState program

namespace ReportsWrites

variable {ε δ α β : Type} {id : KeyId}

theorem wroteState_of_reads {op : Op} (reads : op.Reads) (answer : op.Ret) :
    wroteState op answer = none := by
  cases op with
  | put record => exact reads.elim
  | _ => rfl

/-- Code that only reads. -/
theorem lift {program : Prog ε α} (reads : program.Uses Op.Reads) :
    ReportsWrites (program.lift : Audited ε α) :=
  Reports.lift (reads.mono fun _ reading => wroteState_of_reads reading)

/-- The rule for a first part that only reads. -/
theorem reading {program : Prog ε α} {continuation : α → Audited ε β}
    (reads : program.Uses Op.Reads) (rest : ∀ value, ReportsWrites (continuation value)) :
    ReportsWrites ((program.lift : Audited ε α) >>= continuation) :=
  (lift reads).bind rest

/-- The rule for an operation that stores nothing. -/
theorem call {op : Op} {continuation : op.Ret → Audited ε α}
    (silent : ∀ answer, wroteState op answer = none)
    (rest : ∀ answer, ReportsWrites (continuation answer)) :
    ReportsWrites ((act op : Audited ε op.Ret) >>= continuation) :=
  Reports.act silent fun answer _ => rest answer

theorem ofExcept {translate : ε → δ} {result : Except ε α} :
    ReportsWrites (Program.ofExcept translate result : Audited δ α) := by
  cases result <;> rfl

theorem ofOption {error : ε} {found : Option α} :
    ReportsWrites (Program.ofOption error found : Audited ε α) := by
  cases found <;> rfl

/-- The rule for reading a record: it is the one of its key. -/
theorem get {continuation : KeyMetadata → Audited KeystoreError α}
    (rest : ∀ record, record.id = id → ReportsWrites (continuation record)) :
    ReportsWrites ((Keystore.get id).lift >>= continuation) := by
  refine ⟨rfl, fun answer own => ?_⟩
  rcases answer with error | _ | record
  · rfl
  · rfl
  · exact rest record own

theorem getMapErr {translate : KeystoreError → ε} {continuation : KeyMetadata → Audited ε α}
    (rest : ∀ record, record.id = id → ReportsWrites (continuation record)) :
    ReportsWrites (((Keystore.get id).mapErr translate).lift >>= continuation) := by
  refine ⟨rfl, fun answer own => ?_⟩
  rcases answer with error | _ | record
  · rfl
  · rfl
  · exact rest record own

/-- The rule for a write and the event that reports it. -/
theorem put {record : KeyMetadata} {translate : KeystoreError → ε} {event : EventDraft}
    {continuation : Unit → Audited ε α} (told : toldState event = some record.storedState)
    (rest : ReportsWrites (continuation ())) :
    ReportsWrites ((act (.put record) : Audited ε _) >>= fun stored =>
      (Program.ofExcept translate stored : Audited ε Unit) >>= fun _ =>
        note event >>= continuation) := by
  refine ⟨rfl, fun answer _ => ?_⟩
  cases answer with
  | error error => rfl
  | ok done => exact ⟨told, fun _ _ => rest⟩

/-- The rule for a write whose event is the last operation. -/
theorem putLast {record : KeyMetadata} {translate : KeystoreError → ε} {event : EventDraft}
    (told : toldState event = some record.storedState) :
    ReportsWrites ((act (.put record) : Audited ε _) >>= fun stored =>
      (Program.ofExcept translate stored : Audited ε Unit) >>= fun _ => note event) := by
  refine ⟨rfl, fun answer _ => ?_⟩
  cases answer with
  | error error => rfl
  | ok done => exact ⟨told, fun _ _ => rfl⟩

/-- The rule for an event that reports nothing stored. -/
theorem event {event : EventDraft} {continuation : Unit → Audited ε α}
    (silent : toldState event = none) (rest : ReportsWrites (continuation ())) :
    ReportsWrites (note event >>= continuation) :=
  Reports.note silent rest

end ReportsWrites

namespace Keystore.Audited

variable {ks : Keystore}

/-- The state of a parent is never spelled as the cascade spells it. -/
theorem display_ne_revoked (state : KeyState) : (state.display == "Revoked") = false := by
  cases state <;> decide

theorem unwrapKeyVersionInner_reports (skip : Bool) (levels : Nat) (keyId : KeyId)
    (version : KeyVersion) : ReportsWrites (unwrapKeyVersionInner ks skip levels keyId version) := by
  induction levels generalizing keyId version with
  | zero => rfl
  | succ levels ih =>
      unfold unwrapKeyVersionInner
      cases version.secretKeyMaterial with
      | destroyed => rfl
      | plaintext text => exact ReportsWrites.lift (decodeHex_reads _ _)
      | encrypted text =>
          exact ReportsWrites.lift ((unwrapEncrypted_uses_nothing text version.version).mono
            fun _ nothing => nothing.elim)
      | citadelWrapped text =>
          refine Reports.bind ReportsWrites.ofOption fun parentId => ?_
          refine ReportsWrites.call (fun _ => rfl) fun loaded => ?_
          refine Reports.bind ReportsWrites.ofExcept fun found => ?_
          refine Reports.bind ReportsWrites.ofOption fun parent => ?_
          split
          · refine ReportsWrites.event ?_ rfl
            simp [toldState, keyEvent, AuditAction.storesRecord, display_ne_revoked]
          · refine Reports.bind ReportsWrites.ofOption fun parentNumber => ?_
            refine Reports.bind ReportsWrites.ofOption fun parentVersion => ?_
            refine Reports.bind (ih _ _) fun parentSkBytes => ?_
            exact ReportsWrites.lift ((unwrapSealed_uses_nothing _ _ _ _).mono
              fun _ nothing => nothing.elim)

theorem createKey_reports (name : String) (keyType : KeyType) (policyId : Option PolicyId)
    (parentId : Option KeyId) (keyPair : Randomness → Bytes × Bytes) :
    ReportsWrites (createKey ks name keyType policyId parentId keyPair) := by
  refine ReportsWrites.call (fun _ => rfl) fun random => ?_
  refine ReportsWrites.call (fun _ => rfl) fun now => ?_
  refine ReportsWrites.reading (wrapSecretKeyFor_reads _ _ _ _).mapErr fun wrapped => ?_
  exact ReportsWrites.put rfl rfl

theorem generate_reports (name : String) (keyType : KeyType) (policyId : Option PolicyId)
    (parentId : Option KeyId) : ReportsWrites (generate ks name keyType policyId parentId) := by
  refine Reports.mapErr ?_
  split
  · rfl
  · refine ReportsWrites.reading requireMasterKey_reads fun _ => ?_
    refine ReportsWrites.reading (checkHierarchy_reads _ _) fun _ => ?_
    exact createKey_reports _ _ _ _ _

theorem generateSigningKey_reports (name : String) (policyId : Option PolicyId)
    (parentId : KeyId) : ReportsWrites (generateSigningKey ks name policyId parentId) := by
  refine Reports.mapErr ?_
  refine ReportsWrites.reading requireMasterKey_reads fun _ => ?_
  refine ReportsWrites.call (fun _ => rfl) fun loaded => ?_
  refine Reports.bind ReportsWrites.ofExcept fun found => ?_
  refine Reports.bind ReportsWrites.ofOption fun parent => ?_
  refine ReportsWrites.call (fun _ => rfl) fun process => ?_
  split
  · rfl
  · exact createKey_reports _ _ _ _ _

theorem activate_reports (id : KeyId) : ReportsWrites (activate id) := by
  refine Reports.mapErr ?_
  refine ReportsWrites.get fun record own => ?_
  unfold transition
  split
  · refine ⟨rfl, fun updated _ => ?_⟩
    refine ReportsWrites.call (fun _ => rfl) fun now => ?_
    refine ReportsWrites.putLast ?_
    rw [← own]
    rfl
  · rfl

theorem rotate_reports (id : KeyId) : ReportsWrites (rotate ks id) := by
  refine Reports.mapErr ?_
  refine ReportsWrites.get fun record own => ?_
  split
  · rfl
  · refine ReportsWrites.reading requireMasterKey_reads fun _ => ?_
    refine ReportsWrites.call (fun _ => rfl) fun random => ?_
    refine ReportsWrites.call (fun _ => rfl) fun now => ?_
    refine ReportsWrites.reading (wrapSecretKeyFor_reads _ _ _ _).mapErr fun wrapped => ?_
    refine ReportsWrites.put ?_ rfl
    rw [← own]
    rfl

theorem rewrap_reports (id : KeyId) (newParentId : Option KeyId) :
    ReportsWrites (rewrap ks id newParentId) := by
  refine Reports.mapErr ?_
  refine ReportsWrites.getMapErr fun record own => ?_
  refine Reports.bind ReportsWrites.ofOption fun version => ?_
  refine Reports.bind (Reports.mapErr (unwrapKeyVersionInner_reports _ _ _ _)) fun skBytes => ?_
  refine ReportsWrites.reading (wrapSecretKeyFor_reads _ _ _ _).mapErr fun wrapped => ?_
  refine ReportsWrites.call (fun _ => rfl) fun now => ?_
  refine ReportsWrites.putLast ?_
  rw [← own]
  rfl

theorem revoke_reports (id : KeyId) (reason : String) : ReportsWrites (revoke id reason) := by
  refine Reports.mapErr ?_
  refine ReportsWrites.get fun record own => ?_
  split
  · rfl
  · refine ReportsWrites.call (fun _ => rfl) fun revoked => ?_
    refine ReportsWrites.call (fun _ => rfl) fun updated => ?_
    refine ReportsWrites.putLast ?_
    rw [← own]
    rfl

theorem destroy_reports (id : KeyId) : ReportsWrites (destroy id) := by
  refine Reports.mapErr ?_
  refine ReportsWrites.get fun record own => ?_
  split
  · rfl
  · refine ReportsWrites.call (fun _ => rfl) fun destroyed => ?_
    refine ReportsWrites.call (fun _ => rfl) fun updated => ?_
    refine ReportsWrites.call (fun _ => rfl) fun overwritten => ?_
    refine Reports.bind ReportsWrites.ofExcept fun _ => ?_
    refine ReportsWrites.putLast ?_
    rw [← own]
    rfl

theorem expire_reports (id : KeyId) : ReportsWrites (expire ks id) := by
  refine Reports.mapErr ?_
  refine ReportsWrites.get fun record own => ?_
  refine ReportsWrites.reading (checkExpiration_reads record) fun decision => ?_
  cases decision with
  | required reason source =>
      refine ReportsWrites.call (fun _ => rfl) fun now => ?_
      refine ReportsWrites.put ?_ rfl
      rw [← own]
      rfl
  | warning reason remaining source => rfl
  | notNeeded => rfl

theorem expireListed_reports (records : List KeyMetadata) (report : ExpirationReport) :
    ReportsWrites (expireListed ks records report) := by
  induction records generalizing report with
  | nil => rfl
  | cons record rest ih =>
      refine ReportsWrites.reading (checkExpiration_reads record) fun decision => ?_
      cases decision with
      | required reason source =>
          refine Reports.bind (Reports.attempt (expire_reports record.id)) fun expired => ?_
          cases expired with
          | ok source => exact ih _
          | error error => exact ih _
      | warning reason remaining source => exact ih _
      | notNeeded => exact ih _

theorem expireDueKeys_reports : ReportsWrites (expireDueKeys ks) := by
  refine ReportsWrites.call (fun _ => rfl) fun listed => ?_
  refine Reports.bind ReportsWrites.ofExcept fun rotated => ?_
  refine Reports.bind (expireListed_reports _ _) fun report => ?_
  refine ReportsWrites.call (fun _ => rfl) fun listed => ?_
  refine Reports.bind ReportsWrites.ofExcept fun active => ?_
  refine Reports.bind (expireListed_reports _ _) fun report => ?_
  exact ReportsWrites.event rfl rfl

theorem suspendChildren_reports (parentId : KeyId) (children : List KeyMetadata)
    (cascade : Cascade) : ReportsWrites (suspendChildren parentId children cascade) := by
  induction children generalizing cascade with
  | nil => rfl
  | cons child rest ih =>
      unfold suspendChildren
      split
      · exact ih _
      · split
        · exact ih _
        · refine ReportsWrites.call (fun _ => rfl) fun now => ?_
          refine ⟨rfl, fun stored _ => ?_⟩
          cases stored with
          | ok done => exact ⟨rfl, fun _ _ => ih _⟩
          | error error => exact ih _

theorem cascadeLoop_reports (fuel : Nat) (cascade : Cascade) :
    ReportsWrites (cascadeLoop fuel cascade) := by
  induction fuel generalizing cascade with
  | zero =>
      unfold cascadeLoop
      split
      · rfl
      · rfl
  | succ fuel ih =>
      unfold cascadeLoop
      split
      · rfl
      · refine ReportsWrites.call (fun _ => rfl) fun listed => ?_
        refine Reports.bind ReportsWrites.ofExcept fun children => ?_
        exact Reports.bind (suspendChildren_reports _ _ _) fun next => ih next

theorem revokeCascade_reports (fuel : Nat) (id : KeyId) (reason : String) :
    ReportsWrites (revokeCascade fuel id reason) := by
  refine Reports.bind (Reports.mapErr (revoke_reports id reason)) fun _ => ?_
  exact Reports.bind (cascadeLoop_reports _ _) fun cascade => rfl

theorem noteVerdict_reports {ε : Type} (id : KeyId) (record : KeyMetadata)
    (text : Option String) : ReportsWrites (noteVerdict id record text : Audited ε Unit) := by
  cases text with
  | some text => exact ⟨rfl, fun _ _ => rfl⟩
  | none => rfl

theorem encrypt_reports (keyId : KeyId) (plaintext : Bytes) (aad : Aad)
    (context : Context) : ReportsWrites (encrypt ks keyId plaintext aad context) := by
  refine Reports.mapErr ?_
  refine ReportsWrites.getMapErr fun record own => ?_
  split
  · rfl
  · split
    · rfl
    · refine ReportsWrites.reading (evaluateEffective_reads record) fun verdict => ?_
      refine Reports.bind (noteVerdict_reports _ _ _) fun _ => ?_
      cases verdict.bind encryptionBlock with
      | some message => rfl
      | none =>
          refine Reports.bind ReportsWrites.ofOption fun version => ?_
          refine ReportsWrites.reading (parsePublicKey_reads _) fun pk => ?_
          refine ReportsWrites.reading (resolveDomainForKey_reads keyId).mapErr fun domainId => ?_
          refine ReportsWrites.call (fun _ => rfl) fun random => ?_
          refine Reports.bind ReportsWrites.ofExcept fun ciphertext => ?_
          refine ReportsWrites.call (fun _ => rfl) fun now => ?_
          refine ReportsWrites.put ?_ ?_
          · rw [← own]
            rfl
          · exact ReportsWrites.call (fun _ => rfl) fun encryptedAt => rfl

theorem releaseAndFail_reports {α : Type} (cacheKey : Bytes) :
    ReportsWrites (releaseAndFail cacheKey : Audited String α) :=
  ReportsWrites.call (fun _ => rfl) fun _ => rfl

theorem openClaimed_reports (record : KeyMetadata) (blob : EncryptedBlob) (version : KeyVersion)
    (domainId : KeyId) (ciphertext cacheKey : Bytes) (aad : Aad)
    (context : Context) :
    ReportsWrites (openClaimed ks record blob version domainId ciphertext cacheKey aad context) := by
  refine Reports.bind (Reports.attempt (unwrapKeyVersionInner_reports _ _ _ _)) fun unwrapped => ?_
  cases unwrapped with
  | error error => exact releaseAndFail_reports cacheKey
  | ok skBytes =>
      simp only
      split
      · exact releaseAndFail_reports cacheKey
      · split
        · exact ReportsWrites.event rfl (releaseAndFail_reports cacheKey)
        · exact ReportsWrites.event rfl rfl

theorem decrypt_reports (blob : EncryptedBlob) (aad : Aad) (context : Context) :
    ReportsWrites (decrypt ks blob aad context) := by
  refine Reports.mapErr ?_
  refine ReportsWrites.getMapErr fun record own => ?_
  split
  · rfl
  · refine ReportsWrites.reading (evaluateEffective_reads record) fun verdict => ?_
    split
    · exact Reports.bind (noteVerdict_reports _ _ _) fun _ => rfl
    · refine Reports.bind ReportsWrites.ofOption fun version => ?_
      refine Reports.bind ReportsWrites.ofExcept fun ciphertext => ?_
      split
      · rfl
      · refine ReportsWrites.reading (resolveDomainForKey_reads _).mapErr fun domainId => ?_
        refine Reports.bind ReportsWrites.ofExcept fun nonce => ?_
        refine ReportsWrites.call (fun _ => rfl) fun claimed => ?_
        split
        · exact openClaimed_reports _ _ _ _ _ _ _ _
        · exact ReportsWrites.event rfl rfl
        · exact ReportsWrites.event rfl rfl

theorem sign_reports (keyId : KeyId) (message : Bytes) : ReportsWrites (sign ks keyId message) := by
  refine Reports.mapErr ?_
  refine ReportsWrites.getMapErr fun record own => ?_
  split
  · exact ReportsWrites.event rfl rfl
  · split
    · exact ReportsWrites.event rfl rfl
    · refine Reports.bind ReportsWrites.ofOption fun version => ?_
      refine Reports.bind (Reports.attempt (unwrapKeyVersionInner_reports _ _ _ _)) fun unwrapped => ?_
      cases unwrapped with
      | error error => exact ReportsWrites.event rfl rfl
      | ok seedBytes =>
          refine Reports.bind ReportsWrites.ofExcept fun signature => ?_
          refine ReportsWrites.event rfl ?_
          exact ReportsWrites.call (fun _ => rfl) fun signedAt => rfl

end Keystore.Audited

open Keystore.Audited in
/-- Every call reports what it stores. -/
theorem Call.audited_reports (ks : Keystore) (fuel : Nat) (reason : String) (call : Call) :
    ReportsWrites (call.audited ks fuel reason) := by
  cases call with
  | generate name keyType policyId parentId => exact Reports.bind (generate_reports _ _ _ _) fun _ => rfl
  | generateSigningKey name policyId parentId =>
      exact Reports.bind (generateSigningKey_reports _ _ _) fun _ => rfl
  | activate id => exact Reports.bind (activate_reports _) fun _ => rfl
  | rotate id => exact Reports.bind (rotate_reports _) fun _ => rfl
  | rewrap id newParentId => exact Reports.bind (rewrap_reports _ _) fun _ => rfl
  | revoke id => exact Reports.bind (revoke_reports _ _) fun _ => rfl
  | revokeCascade id => exact Reports.bind (revokeCascade_reports _ _ _) fun _ => rfl
  | expire id => exact Reports.bind (expire_reports _) fun _ => rfl
  | expireDueKeys => exact Reports.bind expireDueKeys_reports fun _ => rfl
  | destroy id => exact Reports.bind (destroy_reports _) fun _ => rfl
  | encrypt keyId plaintext aad context => exact Reports.bind (encrypt_reports _ _ _ _) fun _ => rfl
  | decrypt blob aad context => exact Reports.bind (decrypt_reports _ _ _) fun _ => rfl
  | sign keyId message => exact Reports.bind (sign_reports _ _) fun _ => rfl

/-- What a recorded event reports. -/
def loggedState (event : AuditEvent EventBody) : Option StoredState :=
  toldState event.body.toEventDraft

/-- The world of concurrent callers with the log they share. -/
@[reducible] def auditedWorld (admits : Env → Prop) :
    SharedWorld (Journaled Op EventDraft) (Journaled.Ret Op.Ret) :=
  (sharedWorld admits).journaled fun world draft => stampedAt world.now draft

section Interleaved

variable {ι : Type}

/-- The state of concurrent callers of a keystore with its log. -/
abbrev AuditedPool (ι : Type) :=
  Pool ι (World × List (AuditEvent EventBody)) (Journaled Op EventDraft) (Journaled.Ret Op.Ret)
    CallError CallValue

/-- A trace of concurrent callers. -/
abbrev AuditedTrace (ι : Type) :=
  List (Entry (World × List (AuditEvent EventBody)) ι (Journaled Op EventDraft)
    (Journaled.Ret Op.Ret) CallError CallValue)

/-- Callers that are about to run their calls. -/
def auditedPool (ks : Keystore) (world : World) (log : List (AuditEvent EventBody))
    (calls : ι → Call) (fuel : ι → Nat) (reasons : ι → String) : AuditedPool ι :=
  ⟨(world, log), fun caller => .running ((calls caller).audited ks (fuel caller) (reasons caller))⟩

/-- The same callers of a keystore without a log. -/
def plainPool (ks : Keystore) (world : World) (calls : ι → Call) (fuel : ι → Nat) :
    Pool ι World Op Op.Ret CallError CallValue :=
  ⟨world, fun caller => .running ((calls caller).prog ks (fuel caller))⟩

theorem erase_auditedPool (ks : Keystore) (world : World) (log : List (AuditEvent EventBody))
    (calls : ι → Call) (fuel : ι → Nat) (reasons : ι → String) :
    (auditedPool ks world log calls fuel reasons).erase = plainPool ks world calls fuel := by
  unfold auditedPool plainPool Pool.erase
  simp only [Thread.erase_running, Call.erase_audited]

theorem returned_erase_iff {trace : AuditedTrace ι} {caller : ι}
    {outcome : Outcome CallError CallValue} :
    Returned (trace.filterMap Entry.erase) caller outcome ↔ Returned trace caller outcome := by
  constructor
  · rintro ⟨before, member⟩
    obtain ⟨⟨found, event⟩, inside, same⟩ := List.mem_filterMap.mp member
    cases event with
    | performed other op answer =>
        cases op with
        | act op => cases same
        | record draft => cases same
    | returned other result =>
        cases same
        exact ⟨found, inside⟩
    | drifted => cases same
  · rintro ⟨before, member⟩
    exact ⟨before.1, List.mem_filterMap.mpr ⟨_, member, rfl⟩⟩

variable [DecidableEq ι] {ks : Keystore} {admits : Env → Prop} {world : World}
  {log : List (AuditEvent EventBody)} {calls : ι → Call} {fuel : ι → Nat} {reasons : ι → String}
  {trace : AuditedTrace ι} {pool : AuditedPool ι}

/-- A caller runs to its end while the others wait. -/
theorem audited_finish {env : Env} {start : AuditedPool ι} {call : Call} (caller : ι)
    {reason : String} {bound : Nat} {outcome : Outcome CallError CallValue} {before after : World}
    {journal : List (AuditEvent EventBody)} (admitted : admits env)
    (runs : Pool.Runs (auditedWorld admits) start trace pool)
    (waiting : pool.thread caller = .running (call.audited ks bound reason))
    (here : pool.shared = (before, journal))
    (ran : (call.prog ks bound).run (handle env) before = (outcome, after)) :
    ∃ more recorded, Pool.Runs (auditedWorld admits) start (trace ++ more)
        ⟨(after, journal ++ recorded), Function.update pool.thread caller (.finished outcome)⟩ ∧
      Returned (trace ++ more) caller outcome := by
  rw [← Call.erase_audited ks bound reason call] at ran
  exact Pool.Runs.finish_journaled (fun op state => ⟨env, admitted, rfl⟩) runs waiting here ran

/-- The calls that record events are the calls without a log with those events added: an
interleaving of them is, without its events, one of the calls without a log, with the same
operations, answers and outcomes, and it only adds to the log. -/
theorem audited_calls_refine
    (runs : Pool.Runs (auditedWorld admits) (auditedPool ks world log calls fuel reasons) trace
      pool) :
    Pool.Runs (sharedWorld admits) (plainPool ks world calls fuel)
        (trace.filterMap Entry.erase) pool.erase ∧
      (∀ caller outcome, Returned (trace.filterMap Entry.erase) caller outcome ↔
        Returned trace caller outcome) ∧
      log <+: pool.shared.2 := by
  refine ⟨?_, fun caller outcome => returned_erase_iff, Pool.Runs.journal_prefix runs⟩
  rw [← erase_auditedPool ks world log calls fuel reasons]
  exact Pool.Runs.erase runs

/-- A stored record is always answered under its own identifier. -/
theorem answersOwn_of_shared {before after : World} {op : Op} {answer : op.Ret}
    (answers : (sharedWorld admits).Answers before op answer after) : answersOwn op answer := by
  obtain ⟨env, -, handled⟩ := answers
  cases op with
  | get id =>
      cases answer with
      | error error => trivial
      | ok found =>
          cases found with
          | none => trivial
          | some record =>
              have answered : faulty (env.getFault id) (before.keys.find? id) = .ok (some record) :=
                congrArg Prod.fst handled
              exact Table.key_of_find? (eq_of_faulty_eq_ok answered).symm
  | _ => trivial

/-- The log accounts for every acknowledged write: the records that a caller was told are
stored are those it has recorded, in order, but for one whose event is its very next
operation; the log holds what the callers recorded; and once every caller has its outcome,
the new events of the log are the acknowledged writes, each as often as it was made. -/
theorem log_accounts_for_writes
    (runs : Pool.Runs (auditedWorld admits) (auditedPool ks world log calls fuel reasons) trace
      pool) :
    (∀ caller, ∃ owed : Option StoredState,
      itemsOf caller (writtenFacts wroteState trace) = itemsOf caller (reportedFacts toldState trace) ++
          (owed.map fun fact => (caller, fact)).toList ∧
        ∀ fact, owed = some fact → ∃ draft next,
          pool.thread caller = .running (.perform (.record draft) next) ∧
            toldState draft = some fact) ∧
      pool.shared.2.filterMap loggedState =
        log.filterMap loggedState ++ (reportedFacts toldState trace).map Prod.snd ∧
      ((∀ caller, ∃ outcome, Returned trace caller outcome) →
        (pool.shared.2.filterMap loggedState).Perm
          (log.filterMap loggedState ++ (writtenFacts wroteState trace).map Prod.snd)) := by
  have initially : ∀ caller, Pool.ThreadMeets (reporting answersOwn wroteState toldState) none
      (fun owed _ => owed = none) ((auditedPool ks world log calls fuel reasons).thread caller) :=
    fun caller => Call.audited_reports ks (fuel caller) (reasons caller) (calls caller)
  obtain ⟨balanced, meets⟩ :=
    Pool.Runs.report (fun _ _ _ _ answers => answersOwn_of_shared answers) initially runs
  have told : ∀ (world : World) draft,
      loggedState (stampedAt world.now draft) = toldState draft := fun _ _ => rfl
  have logged := Pool.Runs.journal told runs
  refine ⟨?_, logged, ?_⟩
  · intro caller
    exact ⟨_, balanced caller, fun fact owed => Pool.reports_next owed (meets caller)⟩
  · intro ended
    rw [logged]
    refine List.Perm.append_left _ (List.Perm.map _ (perm_of_itemsOf fun caller => ?_))
    obtain ⟨outcome, returned⟩ := ended caller
    have settled := Pool.owes_eq_none (runs.finished_of_returned returned) (meets caller)
    rw [balanced caller, settled]
    exact (List.append_nil _).symm

end Interleaved

/-- Two callers of an audited keystore that encrypt under the data key of a line. -/
def auditedEncryptions (world : World) : AuditedPool Bool :=
  auditedPool plainKeystore world [] (fun caller =>
    cond caller (.encrypt (keyNumbered 3) [1, 2] ⟨[3]⟩ ⟨[4]⟩)
      (.encrypt (keyNumbered 3) [5] ⟨[]⟩ ⟨[]⟩)) (fun _ => 0) (fun _ => "")

/-- One after the other encrypts. -/
theorem exists_audited_encryptions :
    ∃ world trace pool, ∃ blobs : Bool → EncryptedBlob, Reachable plainKeystore anyStep world ∧
      Pool.Runs (auditedWorld Env.Reliable) (auditedEncryptions world) trace pool ∧
      ∀ caller, Returned trace caller (.ok (.blob (blobs caller))) ∧
        (blobs caller).keyVersion = 1 := by
  obtain ⟨world, reachable, grove, -⟩ := exists_line plainKeystore_growable anyStep
    (.memory ⟨1, []⟩) .active .active .active .active (by decide) (fun _ _ _ _ _ _ _ => trivial)
  obtain ⟨sound, -⟩ := reachable.sound transparent_lawful
  obtain ⟨record, version, key, found, planted, stores⟩ :=
    grove.dataKey plainKeystore_growable sound
  have quiet := quietEnv_reliable 4
  let middle : World := { world with keys := world.keys.insert (usedRecord record world.now) }
  have resolves : Keystore.ResolvesTo middle.keys 10 (keyNumbered 3) (keyNumbered 1) :=
    grove.resolves.keeps (keepsPlaces_usedRecord (planted.id ▸ found))
  obtain ⟨early, earlyNumber, encrypts⟩ := planted.encrypt plainKeystore_growable stores world
    grove.resolves 4 [1, 2] ⟨[3]⟩ ⟨[4]⟩ (by decide) (by decide) (by decide)
  obtain ⟨late, lateNumber, again⟩ := planted.encrypt_used plainKeystore_growable stores world.now
    middle resolves 4 [5] ⟨[]⟩ ⟨[]⟩ (by decide) (by decide) (by decide)
  have first : Keystore.Resumes (quietEnv 4) world
      ((Call.encrypt (keyNumbered 3) [1, 2] ⟨[3]⟩ ⟨[4]⟩).prog plainKeystore 0) (keyNumbered 3)
        record _ := encrypts.bind
  have second : Keystore.Resumes (quietEnv 4) middle
      ((Call.encrypt (keyNumbered 3) [5] ⟨[]⟩ ⟨[]⟩).prog plainKeystore 0) (keyNumbered 3)
        (usedRecord record world.now) _ := again.bind
  have start : Pool.Runs (auditedWorld Env.Reliable) (auditedEncryptions world) [] _ := .refl
  obtain ⟨more, recorded, runs, answered⟩ := audited_finish true quiet start rfl rfl
    (first.run rfl found)
  obtain ⟨rest, later, ends, returned⟩ := audited_finish false quiet runs rfl rfl
    (second.run rfl (find?_insert_own planted.id))
  refine ⟨world, _, _, fun caller => cond caller early late, reachable, ends, ?_⟩
  rintro (_ | _)
  · exact ⟨returned, lateNumber⟩
  · exact ⟨answered.append rest, earlyNumber⟩

/-- The log of two encryptions accounts for their two writes. -/
theorem encryptions_accounted :
    ∃ world trace pool, ∃ blobs : Bool → EncryptedBlob, Reachable plainKeystore anyStep world ∧
      Pool.Runs (auditedWorld Env.Reliable) (auditedEncryptions world) trace pool ∧
      (∀ caller, Returned trace caller (.ok (.blob (blobs caller)))) ∧
      (pool.shared.2.filterMap loggedState).Perm
        ((writtenFacts wroteState trace).map Prod.snd) := by
  obtain ⟨world, trace, pool, blobs, reachable, runs, returned⟩ := exists_audited_encryptions
  obtain ⟨-, -, accounts⟩ := log_accounts_for_writes runs
  exact ⟨world, trace, pool, blobs, reachable, runs, fun caller => (returned caller).1,
    accounts fun caller => ⟨_, (returned caller).1⟩⟩

end Citadel
