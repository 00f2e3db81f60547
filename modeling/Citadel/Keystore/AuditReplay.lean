import Citadel.Keystore.AuditTrail

/-!
# Replaying the audit log

The log alone tells the type, the state, the version and the uses of every key: in a
sequential run whose failed writes store nothing, replaying the log gives what is stored.
What a run does to the records of keys it does not report, and every event it records
about a stored key says what has become of it.
-/

namespace Citadel

open Envelope Program Audit

/-- What the log tells of a key. -/
structure KeyStatus where
  keyType : KeyType
  state : KeyState
  version : Nat
  uses : Nat
  deriving DecidableEq, Repr

/-- What is stored of it. -/
def KeyMetadata.status (record : KeyMetadata) : KeyStatus :=
  ⟨record.keyType, record.state, record.currentVersion, record.usageCount⟩

/-- What becomes of the status of a key. -/
def Audit.AuditAction.apply (told : StoredState) (before : Option KeyStatus) :
    AuditAction → Option KeyStatus
  | .keyGenerated => some ⟨told.keyType, told.state, 1, 0⟩
  | .keyRotated newVersion =>
      before.map fun status => { status with state := told.state, version := newVersion }
  | .encryptionPerformed _ =>
      before.map fun status =>
        { status with state := told.state, uses := (status.uses + 1) % 2 ^ 64 }
  | _ => before.map fun status => { status with state := told.state }

/-- What a reader of the log knows of the keys. -/
abbrev KeyView := KeyId → Option KeyStatus

/-- Take note of one event. -/
def observe (view : KeyView) (draft : EventDraft) : KeyView :=
  match toldState draft with
  | none => view
  | some told => Function.update view told.id (draft.action.apply told (view told.id))

/-- Read a log from its start. -/
def replayLog (log : List (AuditEvent EventBody)) : KeyView :=
  log.foldl (fun view event => observe view event.body.toEventDraft) fun _ => none

theorem replayLog_snoc (log : List (AuditEvent EventBody)) (now : Nat) (draft : EventDraft) :
    replayLog (log ++ [stampedAt now draft]) = observe (replayLog log) draft := by
  rw [replayLog, List.foldl_append, ← replayLog]
  rfl

/-- The log tells what is stored. -/
def Tracks (keys : Keys) (log : List (AuditEvent EventBody)) : Prop :=
  ∀ id, (keys.find? id).map KeyMetadata.status = replayLog log id

theorem tracks_empty : Tracks Table.empty [] := fun _ => rfl

section Tracks

variable {keys : Keys} {log : List (AuditEvent EventBody)} {now : Nat} {draft : EventDraft}
  {record : KeyMetadata}

/-- An event that reports nothing stored. -/
theorem Tracks.silent (tracks : Tracks keys log) (silent : toldState draft = none) :
    Tracks keys (log ++ [stampedAt now draft]) := by
  intro id
  rw [replayLog_snoc, observe, silent]
  exact tracks id

/-- A stored record and the event that reports it. -/
theorem Tracks.stored (tracks : Tracks keys log) (told : toldState draft = some record.storedState)
    (applied : draft.action.apply record.storedState
      ((keys.find? record.id).map KeyMetadata.status) = some record.status) :
    Tracks (keys.insert record) (log ++ [stampedAt now draft]) := by
  intro id
  have seen : observe (replayLog log) draft = Function.update (replayLog log) record.id
      (draft.action.apply record.storedState (replayLog log record.id)) := by
    rw [observe, told]
    rfl
  rw [replayLog_snoc, seen]
  by_cases same : id = record.id
  · subst same
    rw [Table.find?_insert_self, Function.update_self, ← tracks record.id, applied]
    rfl
  · rw [Table.find?_insert_of_ne _ same, Function.update_of_ne same]
    exact tracks id

end Tracks

/-! ### Code played alone -/

/-- Play an operation of the code with its events. -/
abbrev handleAudited (env : Env) : (op : Journaled Op EventDraft) →
    World × List (AuditEvent EventBody) →
      Journaled.Ret Op.Ret op × (World × List (AuditEvent EventBody)) :=
  handleJournaled (handle env) fun world draft => stampedAt world.now draft

/-- The code leaves a log that tells what is stored. -/
abbrev KeepsLog {ε α : Type} (env : Env) (world : World) (log : List (AuditEvent EventBody))
    (program : Audited ε α) : Prop :=
  program.Meets (alone (handleAudited env) fun _ _ => True) (world, log) fun after _ =>
    Tracks after.1.keys after.2

/-- The operations of code that stores nothing and reports nothing stored. -/
def leavesKeys : Journaled Op EventDraft → Prop
  | .act (.put _) => False
  | .act _ => True
  | .record draft => toldState draft = none

/-- The code stores nothing and reports nothing stored. -/
abbrev LeavesKeys {ε α : Type} (program : Audited ε α) : Prop := program.Uses leavesKeys

/-- The operations of code that only reads. -/
def readsOnly : Journaled Op EventDraft → Prop
  | .act op => op.Reads
  | .record _ => False

theorem leavesKeys_of_reads (op : Op) (reads : op.Reads) : leavesKeys (.act op) := by
  cases op with
  | put record => exact reads.elim
  | _ => trivial

/-- What such an operation does to the records and to what is known of them. -/
theorem tracks_of_leavesKeys {env : Env} {op : Journaled Op EventDraft} (leaves : leavesKeys op)
    {state : World × List (AuditEvent EventBody)} (tracks : Tracks state.1.keys state.2) :
    (handleAudited env op state).2.1.keys = state.1.keys ∧
      Tracks (handleAudited env op state).2.1.keys (handleAudited env op state).2.2 := by
  cases op with
  | act op =>
      have kept : (handle env op state.1).2.keys = state.1.keys := by
        cases op with
        | put record => exact leaves.elim
        | _ => rfl
      refine ⟨kept, ?_⟩
      change Tracks (handle env op state.1).2.keys state.2
      rw [kept]
      exact tracks
  | record draft => exact ⟨rfl, tracks.silent leaves⟩

namespace KeepsLog

variable {ks : Keystore} {env : Env} {world : World} {log : List (AuditEvent EventBody)}
  {ε δ α β : Type} {id : KeyId} {record : KeyMetadata}

/-- The rule for a first part that only reads. -/
theorem reading {program : Prog ε α} {continuation : α → Audited ε β}
    (tracks : Tracks world.keys log) (reads : program.Uses Op.Reads)
    (rest : ∀ value, program.run (handle env) world = (.ok value, world) →
      KeepsLog env world log (continuation value)) :
    KeepsLog env world log ((program.lift : Audited ε α) >>= continuation) := by
  have lifted : (program.lift : Audited ε α).Uses readsOnly := reads.lift fun _ reading => reading
  have neutral : ∀ op, readsOnly op → ∀ state,
      True ∧ (handleAudited env op state).2 = state := by
    intro op allowed state
    cases op with
    | act op =>
        refine ⟨trivial, ?_⟩
        change ((handle env op state.1).2, state.2) = state
        rw [handle_of_reads allowed]
    | record draft => exact allowed.elim
  refine Meets.bindUses lifted neutral (fun value ran => ?_) (fun _ _ => tracks) fun _ _ => tracks
  have played := run_lift (handle env) (fun world (draft : EventDraft) =>
    stampedAt world.now draft) program world log
  rw [ran] at played
  refine rest value ?_
  injection played with outcome after
  injection after with same
  rw [Prod.ext_iff]
  exact ⟨outcome.symm, same.symm⟩

/-- The rule for one reading operation. -/
theorem call {op : Op} {continuation : op.Ret → Audited ε α} (reads : op.Reads)
    (rest : KeepsLog env world log (continuation (handle env op world).1)) :
    KeepsLog env world log ((act op : Audited ε op.Ret) >>= continuation) := by
  refine Meets.performAlone trivial ?_
  change KeepsLog env (handle env op world).2 log (continuation (handle env op world).1)
  rw [handle_of_reads reads]
  exact rest

/-- The rule for a first part that keeps the records to what is known of them. -/
theorem bind {program : Audited ε α} {continuation : α → Audited ε β}
    (first : KeepsLog env world log program)
    (rest : ∀ value later journal, Tracks later.keys journal →
      KeepsLog env later journal (continuation value)) :
    KeepsLog env world log (program >>= continuation) := by
  refine Meets.bind (first.mono ?_)
  intro after outcome tracks
  cases outcome with
  | ok value => exact rest value after.1 after.2 tracks
  | err error => exact tracks
  | aborted why => exact tracks

/-- The rule for a first part that stores nothing: the records stay what they were. -/
theorem leaving {program : Audited ε α} {continuation : α → Audited ε β}
    (tracks : Tracks world.keys log) (leaves : LeavesKeys program)
    (rest : ∀ value later journal, later.keys = world.keys → Tracks later.keys journal →
      KeepsLog env later journal (continuation value)) :
    KeepsLog env world log (program >>= continuation) := by
  refine Meets.bindInvariant leaves
    (fun state => state.1.keys = world.keys ∧ Tracks state.1.keys state.2) ?_
    (fun _ held => held.2) ⟨rfl, tracks⟩ fun value state held =>
      rest value state.1 state.2 held.1 held.2
  intro op state allowed held
  obtain ⟨same, kept⟩ := tracks_of_leavesKeys allowed held.2
  exact ⟨same.trans held.1, kept⟩

/-- Code that stores nothing. -/
theorem ofLeaves {program : Audited ε α} (tracks : Tracks world.keys log)
    (leaves : LeavesKeys program) : KeepsLog env world log program := by
  have ended : KeepsLog env world log (program >>= fun value => .ret value) :=
    leaving tracks leaves fun _ _ _ _ kept => kept
  rwa [bind_ret] at ended

theorem ofExcept {translate : ε → δ} {result : Except ε α} {continuation : α → Audited δ β}
    (tracks : Tracks world.keys log)
    (rest : ∀ value, result = .ok value → KeepsLog env world log (continuation value)) :
    KeepsLog env world log (Program.ofExcept translate result >>= continuation) := by
  cases result with
  | ok value => exact rest value rfl
  | error error => exact tracks

theorem ofOption {error : ε} {found : Option α} {continuation : α → Audited ε β}
    (tracks : Tracks world.keys log)
    (rest : ∀ value, found = some value → KeepsLog env world log (continuation value)) :
    KeepsLog env world log (Program.ofOption error found >>= continuation) := by
  cases found with
  | some value => exact rest value rfl
  | none => exact tracks

/-- The rule for a write that stores nothing when it fails, and its event. -/
theorem stored {continuation : Except KeystoreError Unit → Audited ε α} {draft : EventDraft}
    {rest : Unit → Audited ε α} (tracks : Tracks world.keys log) (atomic : env.AtomicPut)
    (told : toldState draft = some record.storedState)
    (applied : draft.action.apply record.storedState
      ((world.keys.find? record.id).map KeyMetadata.status) = some record.status)
    (records : continuation (.ok ()) = (note draft >>= rest))
    (failed : ∀ error, KeepsLog env world log (continuation (.error error)))
    (later : ∀ journal, Tracks (world.keys.insert record) journal →
      KeepsLog env { world with keys := world.keys.insert record } journal (rest ())) :
    KeepsLog env world log ((act (.put record) : Audited ε _) >>= continuation) := by
  refine Meets.performAlone trivial ?_
  change KeepsLog env (handlePut (env.putOutcome record.id) record world).2 log
    (continuation (handlePut (env.putOutcome record.id) record world).1)
  rcases atomic record.id with whole | ⟨error, refused⟩
  · rw [whole]
    change KeepsLog env { world with keys := world.keys.insert record } log (continuation (.ok ()))
    rw [records]
    refine Meets.performAlone trivial (later _ ?_)
    exact tracks.stored told applied
  · rw [refused]
    exact failed error

/-- The rule for a write that is reported, where a failure is an error of the code. -/
theorem put {translate : KeystoreError → ε} {draft : EventDraft}
    {rest : Unit → Audited ε α} (tracks : Tracks world.keys log) (atomic : env.AtomicPut)
    (told : toldState draft = some record.storedState)
    (applied : draft.action.apply record.storedState
      ((world.keys.find? record.id).map KeyMetadata.status) = some record.status)
    (later : ∀ journal, Tracks (world.keys.insert record) journal →
      KeepsLog env { world with keys := world.keys.insert record } journal (rest ())) :
    KeepsLog env world log ((act (.put record) : Audited ε _) >>= fun stored =>
      (Program.ofExcept translate stored : Audited ε Unit) >>= fun _ => note draft >>= rest) :=
  stored tracks atomic told applied rfl (fun _ => tracks) later

/-- The rule for a change of a record that is reported by the last operation. -/
theorem updateLast {before : KeyMetadata} {translate : KeystoreError → ε} {draft : EventDraft}
    (tracks : Tracks world.keys log) (atomic : env.AtomicPut)
    (found : world.keys.find? record.id = some before)
    (told : toldState draft = some record.storedState)
    (applied : draft.action.apply record.storedState (some before.status) = some record.status) :
    KeepsLog env world log ((act (.put record) : Audited ε _) >>= fun stored =>
      (Program.ofExcept translate stored : Audited ε Unit) >>= fun _ => note draft) := by
  refine stored tracks atomic told ?_ (bind_ret _).symm (fun _ => tracks) fun _ kept => kept
  rw [found]
  exact applied

/-- The rule for a change of a record that is reported before the rest. -/
theorem update {before : KeyMetadata} {translate : KeystoreError → ε} {draft : EventDraft}
    {rest : Unit → Audited ε α} (tracks : Tracks world.keys log) (atomic : env.AtomicPut)
    (found : world.keys.find? record.id = some before)
    (told : toldState draft = some record.storedState)
    (applied : draft.action.apply record.storedState (some before.status) = some record.status)
    (later : ∀ after journal, Tracks after.keys journal → KeepsLog env after journal (rest ())) :
    KeepsLog env world log ((act (.put record) : Audited ε _) >>= fun stored =>
      (Program.ofExcept translate stored : Audited ε Unit) >>= fun _ => note draft >>= rest) := by
  refine put tracks atomic told ?_ fun journal kept => later _ journal kept
  rw [found]
  exact applied

/-- The rule for reading the record of a key. -/
theorem get {continuation : KeyMetadata → Audited KeystoreError α} (tracks : Tracks world.keys log)
    (rest : ∀ before, world.keys.find? before.id = some before → before.id = id →
      KeepsLog env world log (continuation before)) :
    KeepsLog env world log ((Keystore.get id).lift >>= continuation) := by
  refine reading tracks (Keystore.get_reads id) fun before ran => ?_
  have found := Keystore.find?_of_get ran
  have own := Table.key_of_find? found
  exact rest before (own ▸ found) own

theorem getMapErr {translate : KeystoreError → ε} {continuation : KeyMetadata → Audited ε α}
    (tracks : Tracks world.keys log)
    (rest : ∀ before, world.keys.find? before.id = some before → before.id = id →
      KeepsLog env world log (continuation before)) :
    KeepsLog env world log (((Keystore.get id).mapErr translate).lift >>= continuation) := by
  refine reading tracks (Keystore.get_reads id).mapErr fun before ran => ?_
  have found := Keystore.find?_of_get (of_run_mapErr_eq_ok ran)
  have own := Table.key_of_find? found
  exact rest before (own ▸ found) own

end KeepsLog

/-! ### The operations -/

namespace LeavesKeys

variable {ε α β : Type}

theorem lift {program : Prog ε α} (reads : program.Uses Op.Reads) :
    LeavesKeys (program.lift : Audited ε α) :=
  reads.lift leavesKeys_of_reads

/-- The rule for an operation that is no write. -/
theorem call {op : Op} {continuation : op.Ret → Audited ε α} (leaves : leavesKeys (.act op))
    (rest : ∀ answer, LeavesKeys (continuation answer)) :
    LeavesKeys ((act op : Audited ε op.Ret) >>= continuation) :=
  ⟨leaves, rest⟩

/-- The rule for an event that reports nothing stored. -/
theorem event {draft : EventDraft} {continuation : Unit → Audited ε α}
    (silent : toldState draft = none) (rest : LeavesKeys (continuation ())) :
    LeavesKeys (note draft >>= continuation) :=
  ⟨silent, fun _ => rest⟩

/-- The rule for a first part that only reads. -/
theorem reading {program : Prog ε α} {continuation : α → Audited ε β}
    (reads : program.Uses Op.Reads) (rest : ∀ value, LeavesKeys (continuation value)) :
    LeavesKeys ((program.lift : Audited ε α) >>= continuation) :=
  (lift reads).bind rest

end LeavesKeys

namespace Keystore.Audited

variable {ks : Keystore} {env : Env} {world : World} {log : List (AuditEvent EventBody)}

theorem unwrapKeyVersionInner_leavesKeys (skip : Bool) (levels : Nat) (keyId : KeyId)
    (version : KeyVersion) :
    LeavesKeys (unwrapKeyVersionInner ks skip levels keyId version) := by
  induction levels generalizing keyId version with
  | zero => trivial
  | succ levels ih =>
      unfold unwrapKeyVersionInner
      cases version.secretKeyMaterial with
      | destroyed => trivial
      | plaintext text => exact LeavesKeys.lift (decodeHex_reads _ _)
      | encrypted text =>
          exact LeavesKeys.lift ((unwrapEncrypted_uses_nothing text version.version).mono
            fun _ nothing => nothing.elim)
      | citadelWrapped text =>
          refine Uses.bind uses_ofOption fun parentId => ?_
          refine LeavesKeys.call trivial fun loaded => ?_
          refine Uses.bind uses_ofExcept fun found => ?_
          refine Uses.bind uses_ofOption fun parent => ?_
          split
          · refine LeavesKeys.event ?_ trivial
            simp [toldState, keyEvent, AuditAction.storesRecord, display_ne_revoked]
          · refine Uses.bind uses_ofOption fun parentNumber => ?_
            refine Uses.bind uses_ofOption fun parentVersion => ?_
            refine Uses.bind (ih _ _) fun parentSkBytes => ?_
            exact LeavesKeys.lift ((unwrapSealed_uses_nothing _ _ _ _).mono
              fun _ nothing => nothing.elim)

theorem noteVerdict_leavesKeys {ε : Type} (id : KeyId) (record : KeyMetadata)
    (text : Option String) : LeavesKeys (noteVerdict id record text : Audited ε Unit) := by
  cases text with
  | some text => exact ⟨rfl, fun _ => trivial⟩
  | none => trivial

theorem releaseAndFail_leavesKeys {α : Type} (cacheKey : Bytes) :
    LeavesKeys (releaseAndFail cacheKey : Audited String α) :=
  ⟨trivial, fun _ => trivial⟩

theorem openClaimed_leavesKeys (record : KeyMetadata) (blob : EncryptedBlob)
    (version : KeyVersion) (domainId : KeyId) (ciphertext cacheKey : Bytes) (aad : Aad)
    (context : Context) :
    LeavesKeys (openClaimed ks record blob version domainId ciphertext cacheKey aad context) := by
  refine Uses.bind (unwrapKeyVersionInner_leavesKeys _ _ _ _).attempt fun unwrapped => ?_
  cases unwrapped with
  | error error => exact releaseAndFail_leavesKeys cacheKey
  | ok skBytes =>
      simp only
      split
      · exact releaseAndFail_leavesKeys cacheKey
      · split
        · exact LeavesKeys.event rfl (releaseAndFail_leavesKeys cacheKey)
        · exact LeavesKeys.event rfl trivial

theorem decrypt_leavesKeys (blob : EncryptedBlob) (aad : Aad) (context : Context) :
    LeavesKeys (decrypt ks blob aad context) := by
  refine Uses.mapErr ?_
  refine LeavesKeys.reading (get_reads _).mapErr fun record => ?_
  split
  · trivial
  · refine LeavesKeys.reading (evaluateEffective_reads record) fun verdict => ?_
    split
    · exact Uses.bind (noteVerdict_leavesKeys _ _ _) fun _ => trivial
    · refine Uses.bind uses_ofOption fun version => Uses.bind uses_ofExcept fun ciphertext => ?_
      split
      · trivial
      · refine LeavesKeys.reading (resolveDomainForKey_reads _).mapErr fun domainId => ?_
        refine Uses.bind uses_ofExcept fun nonce => LeavesKeys.call trivial fun claimed => ?_
        split
        · exact openClaimed_leavesKeys _ _ _ _ _ _ _ _
        · exact LeavesKeys.event rfl trivial
        · exact LeavesKeys.event rfl trivial

theorem sign_leavesKeys (keyId : KeyId) (message : Bytes) :
    LeavesKeys (sign ks keyId message) := by
  refine Uses.mapErr ?_
  refine LeavesKeys.reading (get_reads _).mapErr fun record => ?_
  split
  · exact LeavesKeys.event rfl trivial
  · split
    · exact LeavesKeys.event rfl trivial
    · refine Uses.bind uses_ofOption fun version => ?_
      refine Uses.bind (unwrapKeyVersionInner_leavesKeys _ _ _ _).attempt fun unwrapped => ?_
      cases unwrapped with
      | error error => exact LeavesKeys.event rfl trivial
      | ok seedBytes =>
          refine Uses.bind uses_ofExcept fun signature => ?_
          exact LeavesKeys.event rfl (LeavesKeys.call trivial fun signedAt => trivial)

section Keeping

variable (tracks : Tracks world.keys log) (atomic : env.AtomicPut)
include tracks atomic

theorem createKey_keeps (name : String) (keyType : KeyType) (policyId : Option PolicyId)
    (parentId : Option KeyId) (keyPair : Randomness → Bytes × Bytes) :
    KeepsLog env world log (createKey ks name keyType policyId parentId keyPair) := by
  refine KeepsLog.call trivial (KeepsLog.call trivial ?_)
  refine KeepsLog.reading tracks (wrapSecretKeyFor_reads _ _ _ _).mapErr fun wrapped _ => ?_
  exact KeepsLog.put tracks atomic rfl rfl fun journal kept => kept

theorem generate_keeps (name : String) (keyType : KeyType) (policyId : Option PolicyId)
    (parentId : Option KeyId) :
    KeepsLog env world log (generate ks name keyType policyId parentId) := by
  refine Meets.mapErr ?_
  split
  · exact tracks
  · refine KeepsLog.reading tracks requireMasterKey_reads fun _ _ => ?_
    refine KeepsLog.reading tracks (checkHierarchy_reads _ _) fun _ _ => ?_
    exact createKey_keeps tracks atomic _ _ _ _ _

theorem generateSigningKey_keeps (name : String) (policyId : Option PolicyId)
    (parentId : KeyId) : KeepsLog env world log (generateSigningKey ks name policyId parentId) := by
  refine Meets.mapErr ?_
  refine KeepsLog.reading tracks requireMasterKey_reads fun _ _ => ?_
  refine KeepsLog.call trivial ?_
  refine KeepsLog.ofExcept tracks fun found _ => KeepsLog.ofOption tracks fun parent _ => ?_
  refine KeepsLog.call trivial ?_
  split
  · exact tracks
  · exact createKey_keeps tracks atomic _ _ _ _ _

theorem activate_keeps (id : KeyId) : KeepsLog env world log (activate id) := by
  refine Meets.mapErr (KeepsLog.get tracks fun before found own => ?_)
  refine KeepsLog.reading tracks (transition_reads _ _) fun moved moves => ?_
  obtain ⟨edge, rfl⟩ := of_transition moves
  subst own
  exact KeepsLog.call trivial (KeepsLog.updateLast tracks atomic found rfl rfl)

theorem rotate_keeps (id : KeyId) : KeepsLog env world log (rotate ks id) := by
  refine Meets.mapErr (KeepsLog.get tracks fun before found own => ?_)
  subst own
  split
  · exact tracks
  · refine KeepsLog.reading tracks requireMasterKey_reads fun _ _ => ?_
    refine KeepsLog.call trivial (KeepsLog.call trivial ?_)
    refine KeepsLog.reading tracks (wrapSecretKeyFor_reads _ _ _ _).mapErr fun wrapped _ => ?_
    exact KeepsLog.update tracks atomic found rfl rfl fun after journal kept => kept

theorem rewrap_keeps (id : KeyId) (newParentId : Option KeyId) :
    KeepsLog env world log (rewrap ks id newParentId) := by
  refine Meets.mapErr (KeepsLog.getMapErr tracks fun before found own => ?_)
  subst own
  refine KeepsLog.ofOption tracks fun version _ => ?_
  refine KeepsLog.leaving tracks (unwrapKeyVersionInner_leavesKeys _ _ _ _).mapErr
    fun skBytes later journal same tracks => ?_
  refine KeepsLog.reading tracks (wrapSecretKeyFor_reads _ _ _ _).mapErr fun wrapped _ => ?_
  refine KeepsLog.call trivial ?_
  exact KeepsLog.updateLast tracks atomic (same ▸ found) rfl rfl

theorem revoke_keeps (id : KeyId) (reason : String) :
    KeepsLog env world log (revoke id reason) := by
  refine Meets.mapErr (KeepsLog.get tracks fun before found own => ?_)
  subst own
  split
  · exact tracks
  · refine KeepsLog.call trivial (KeepsLog.call trivial ?_)
    exact KeepsLog.updateLast tracks atomic found rfl rfl

theorem destroy_keeps (id : KeyId) : KeepsLog env world log (destroy id) := by
  refine Meets.mapErr (KeepsLog.get tracks fun before found own => ?_)
  subst own
  split
  · exact tracks
  · refine KeepsLog.call trivial (KeepsLog.call trivial (KeepsLog.call trivial ?_))
    refine KeepsLog.ofExcept tracks fun _ _ => ?_
    exact KeepsLog.updateLast tracks atomic found rfl rfl

theorem expire_keeps (id : KeyId) : KeepsLog env world log (expire ks id) := by
  refine Meets.mapErr (KeepsLog.get tracks fun before found own => ?_)
  subst own
  refine KeepsLog.reading tracks (checkExpiration_reads before) fun decision _ => ?_
  cases decision with
  | required reason source =>
      refine KeepsLog.call trivial ?_
      exact KeepsLog.update tracks atomic found rfl rfl fun after journal kept => kept
  | warning reason remaining source => exact tracks
  | notNeeded => exact tracks

theorem expireListed_keeps (records : List KeyMetadata) (report : ExpirationReport) :
    KeepsLog env world log (expireListed ks records report) := by
  induction records generalizing world log report with
  | nil => exact tracks
  | cons record rest ih =>
      refine KeepsLog.reading tracks (checkExpiration_reads record) fun decision _ => ?_
      cases decision with
      | required reason source =>
          refine KeepsLog.bind (Meets.attempt (expire_keeps tracks atomic record.id))
            fun expired later journal kept => ?_
          cases expired with
          | ok source => exact ih kept _
          | error error => exact ih kept _
      | warning reason remaining source => exact ih tracks _
      | notNeeded => exact ih tracks _

theorem expireDueKeys_keeps : KeepsLog env world log (expireDueKeys ks) := by
  refine KeepsLog.call trivial (KeepsLog.ofExcept tracks fun rotated _ => ?_)
  refine KeepsLog.bind (expireListed_keeps tracks atomic _ _) fun report later journal kept => ?_
  refine KeepsLog.call trivial (KeepsLog.ofExcept kept fun active _ => ?_)
  refine KeepsLog.bind (expireListed_keeps kept atomic _ _) fun report last journal tracks => ?_
  exact KeepsLog.ofLeaves tracks (LeavesKeys.event rfl trivial)

/-- The children that are still to come are as they were listed. -/
theorem suspendChildren_keeps (parentId : KeyId) (children : List KeyMetadata)
    (cascade : Cascade) (distinct : (children.map KeyMetadata.id).Nodup)
    (stored : ∀ child ∈ children, world.keys.find? child.id = some child) :
    KeepsLog env world log (suspendChildren parentId children cascade) := by
  induction children generalizing world log cascade with
  | nil => exact tracks
  | cons child rest ih =>
      rw [List.map_cons, List.nodup_cons] at distinct
      have listed : ∀ other ∈ rest, world.keys.find? other.id = some other :=
        fun other member => stored other (List.mem_cons_of_mem _ member)
      unfold suspendChildren
      split
      · exact ih tracks _ distinct.2 listed
      · split
        · exact ih tracks _ distinct.2 listed
        · refine KeepsLog.call trivial ?_
          have found := stored child List.mem_cons_self
          refine KeepsLog.stored tracks atomic rfl ?_ rfl (fun error => ?_) fun journal kept => ?_
          · change AuditAction.apply _ ((world.keys.find? child.id).map _) _ = _
            rw [found]
            rfl
          · exact ih tracks _ distinct.2 listed
          · refine ih kept _ distinct.2 fun other member => ?_
            have different : other.id ≠ (suspendedRecord child world.now).id :=
              fun same => distinct.1 (same ▸ List.mem_map_of_mem member)
            exact (Table.find?_insert_of_ne _ different).trans (listed other member)

theorem cascadeLoop_keeps (fuel : Nat) (cascade : Cascade) :
    KeepsLog env world log (cascadeLoop fuel cascade) := by
  induction fuel generalizing world log cascade with
  | zero =>
      unfold cascadeLoop
      split
      · exact tracks
      · exact tracks
  | succ fuel ih =>
      unfold cascadeLoop
      split
      · exact tracks
      · refine KeepsLog.call trivial (KeepsLog.ofExcept tracks fun children answered => ?_)
        obtain ⟨distinct, members⟩ := listing_spec answered
        refine KeepsLog.bind (suspendChildren_keeps tracks atomic _ _ _ distinct ?_)
          fun next later journal kept => ih kept next
        intro child member
        exact ((members child).mp member).1

theorem revokeCascade_keeps (fuel : Nat) (id : KeyId) (reason : String) :
    KeepsLog env world log (revokeCascade fuel id reason) := by
  refine KeepsLog.bind (Meets.mapErr (revoke_keeps tracks atomic id reason))
    fun _ later journal kept => ?_
  exact KeepsLog.bind (cascadeLoop_keeps kept atomic _ _) fun cascade last journal tracks => tracks

theorem encrypt_keeps (keyId : KeyId) (plaintext : Bytes) (aad : Aad) (context : Context) :
    KeepsLog env world log (encrypt ks keyId plaintext aad context) := by
  refine Meets.mapErr (KeepsLog.getMapErr tracks fun before found own => ?_)
  subst own
  split
  · exact tracks
  · split
    · exact tracks
    · refine KeepsLog.reading tracks (evaluateEffective_reads before) fun verdict _ => ?_
      refine KeepsLog.leaving tracks (noteVerdict_leavesKeys _ _ _)
        fun _ later journal same tracks => ?_
      cases verdict.bind encryptionBlock with
      | some message => exact tracks
      | none =>
          refine KeepsLog.ofOption tracks fun version _ => ?_
          refine KeepsLog.reading tracks (parsePublicKey_reads _) fun pk _ => ?_
          refine KeepsLog.reading tracks (resolveDomainForKey_reads _).mapErr fun domainId _ => ?_
          refine KeepsLog.call trivial (KeepsLog.ofExcept tracks fun ciphertext _ => ?_)
          refine KeepsLog.call trivial ?_
          refine KeepsLog.update tracks atomic (same ▸ found) rfl rfl fun after journal kept => ?_
          exact KeepsLog.call trivial kept

end Keeping

end Keystore.Audited

open Keystore.Audited in
/-- Every call keeps the log telling what is stored. -/
theorem Call.audited_keeps {ks : Keystore} {env : Env} {world : World}
    {log : List (AuditEvent EventBody)} (tracks : Tracks world.keys log) (atomic : env.AtomicPut)
    (fuel : Nat) (reason : String) (call : Call) :
    KeepsLog env world log (call.audited ks fuel reason) := by
  cases call with
  | generate name keyType policyId parentId =>
      exact KeepsLog.bind (generate_keeps tracks atomic _ _ _ _) fun _ _ _ kept => kept
  | generateSigningKey name policyId parentId =>
      exact KeepsLog.bind (generateSigningKey_keeps tracks atomic _ _ _) fun _ _ _ kept => kept
  | activate id => exact KeepsLog.bind (activate_keeps tracks atomic _) fun _ _ _ kept => kept
  | rotate id => exact KeepsLog.bind (rotate_keeps tracks atomic _) fun _ _ _ kept => kept
  | rewrap id newParentId =>
      exact KeepsLog.bind (rewrap_keeps tracks atomic _ _) fun _ _ _ kept => kept
  | revoke id => exact KeepsLog.bind (revoke_keeps tracks atomic _ _) fun _ _ _ kept => kept
  | revokeCascade id =>
      exact KeepsLog.bind (revokeCascade_keeps tracks atomic _ _ _) fun _ _ _ kept => kept
  | expire id => exact KeepsLog.bind (expire_keeps tracks atomic _) fun _ _ _ kept => kept
  | expireDueKeys => exact KeepsLog.bind (expireDueKeys_keeps tracks atomic) fun _ _ _ kept => kept
  | destroy id => exact KeepsLog.bind (destroy_keeps tracks atomic _) fun _ _ _ kept => kept
  | encrypt keyId plaintext aad context =>
      exact KeepsLog.bind (encrypt_keeps tracks atomic _ _ _ _) fun _ _ _ kept => kept
  | decrypt blob aad context =>
      exact KeepsLog.ofLeaves tracks ((decrypt_leavesKeys _ _ _).bind fun _ => trivial)
  | sign keyId message =>
      exact KeepsLog.ofLeaves tracks ((sign_leavesKeys _ _).bind fun _ => trivial)

/-! ### Sequential runs -/

/-- A keystore and its log. -/
abbrev LoggedWorld := World × List (AuditEvent EventBody)

/-- Play a step with its events. -/
def Step.runAudited (ks : Keystore) (step : Step) (reason : String) (state : LoggedWorld) :
    Outcome CallError CallValue × LoggedWorld :=
  (step.call.audited ks (state.1.keys.entries.length + 1) reason).run (handleAudited step.env)
    (step.enter state.1, state.2)

/-- An audited step ends as the plain one does and only adds to the log. -/
theorem Step.runAudited_eq (ks : Keystore) (step : Step) (reason : String) (state : LoggedWorld) :
    ∃ recorded, step.runAudited ks reason state =
      ((step.run ks state.1).1, ((step.run ks state.1).2, state.2 ++ recorded)) := by
  obtain ⟨recorded, ran⟩ := run_journaled (handle step.env)
    (fun world (draft : EventDraft) => stampedAt world.now draft)
    (step.call.audited ks (state.1.keys.entries.length + 1) reason) (step.enter state.1) state.2
  rw [Call.erase_audited] at ran
  exact ⟨recorded, ran⟩

/-- The states of a keystore with its log that steps reach, where every step satisfies a
condition. -/
inductive AuditedReaches (ks : Keystore) (allowed : Step → World → Prop) (start : LoggedWorld) :
    LoggedWorld → Prop where
  | refl : AuditedReaches ks allowed start start
  | step {state : LoggedWorld} (step : Step) (reason : String)
      (prior : AuditedReaches ks allowed start state) (allows : allowed step state.1) :
      AuditedReaches ks allowed start (step.runAudited ks reason state).2

variable {ks : Keystore} {start state : LoggedWorld}

/-- An audited run is a run of the keystore. -/
theorem AuditedReaches.plain {allowed : Step → World → Prop}
    (runs : AuditedReaches ks (fun step world => step.Fresh world ∧ allowed step world) start
      state) : Reaches ks allowed start.1 state.1 := by
  induction runs with
  | refl => exact .refl
  | step step reason prior allows ih =>
      obtain ⟨recorded, ran⟩ := step.runAudited_eq ks reason _
      rw [ran]
      exact .step step ih allows.1 allows.2

/-- A step keeps the log telling what is stored. -/
theorem Tracks.runAudited (tracks : Tracks state.1.keys state.2) {step : Step}
    (atomic : step.env.AtomicPut) (reason : String) :
    Tracks (step.runAudited ks reason state).2.1.keys (step.runAudited ks reason state).2.2 := by
  have entered : Tracks (step.enter state.1).keys state.2 := tracks
  exact Meets.runAlone (Call.audited_keeps entered atomic _ reason step.call)

/-- The log of a keystore tells the type, the state, the version and the uses of every key:
in every run from an empty keystore whose failed writes store nothing, replaying the log
gives exactly what is stored. -/
theorem log_replays_to_keys {now : Nat} {replay : ReplayStore}
    (runs : AuditedReaches ks (fun step _ => step.env.AtomicPut) (.initial now replay, []) state)
    (id : KeyId) : (state.1.keys.find? id).map KeyMetadata.status = replayLog state.2 id := by
  have tracks : Tracks state.1.keys state.2 := by
    induction runs with
    | refl => exact tracks_empty
    | step step reason prior atomic ih => exact ih.runAudited atomic reason
  exact tracks id

/-- Every run of the keystore has an audited run behind it. -/
theorem Reaches.audited {allowed : Step → World → Prop} {begin world : World}
    (runs : Reaches ks allowed begin world) :
    ∃ log, AuditedReaches ks allowed (begin, []) (world, log) := by
  induction runs with
  | refl => exact ⟨[], .refl⟩
  | step step prior fresh allows ih =>
      obtain ⟨log, audited⟩ := ih
      obtain ⟨recorded, ran⟩ := step.runAudited_eq ks "" (_, log)
      have moved := AuditedReaches.step step "" audited allows
      rw [ran] at moved
      exact ⟨_, moved⟩

/-- The log of a keystore that has grown a line of four keys tells of its data key. -/
theorem line_replays :
    ∃ (now : Nat) (replay : ReplayStore) (state : LoggedWorld),
      AuditedReaches plainKeystore (fun step _ => step.env.AtomicPut)
        (.initial now replay, []) state ∧
      replayLog state.2 (keyNumbered 3) = some ⟨.dataEncrypting, .active, 1, 0⟩ := by
  obtain ⟨world, ⟨now, replay, reaches⟩, grove, -⟩ := exists_line plainKeystore_growable
    (fun step _ => step.env.AtomicPut) (.memory ⟨1, []⟩) .active .active .active .active (by simp)
    (fun n _ _ _ _ _ _ => (quietEnv_reliable n).atomicPut)
  obtain ⟨record, version, found, planted⟩ := grove.planted 3 _ rfl
  obtain ⟨log, audited⟩ := reaches.audited
  refine ⟨now, replay, _, audited, ?_⟩
  rw [← log_replays_to_keys audited (keyNumbered 3), found, Option.map_some,
    KeyMetadata.status, planted.keyType, planted.state, planted.currentVersion,
    planted.usageCount]

end Citadel
