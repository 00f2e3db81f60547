import Citadel.Keystore.Decryption

/-!
# One caller among many

Every operation on a key reads its record once and later writes back a record made
from what it read. `session` is the contract that says so whatever the other callers
do in between: its ghost keeps the record that was read, and a write has to be one of
`Updates` of that record, not of the one that is stored by then.
-/

namespace Citadel

open Envelope Program Keystore

/-- What a caller has read and written of one key. -/
structure Session where
  /-- The record that its first read of the key returned. -/
  read : Option KeyMetadata
  /-- A write was acknowledged. -/
  wrote : Bool

namespace Session

/-- Nothing has happened yet. -/
def fresh : Session := ⟨none, false⟩

/-- The session after the answer to an operation. -/
def see (id : KeyId) (session : Session) : (op : Op) → op.Ret → Session
  | .get other, .ok (some record) =>
      if other = id ∧ session.read = none then { session with read := some record } else session
  | .put _, .ok _ => { session with wrote := true }
  | _, _ => session

end Session

/-- A record comes back under its own identifier. -/
def Op.Identifies : (op : Op) → op.Ret → Prop
  | .get id, answer => ∀ record, answer = .ok (some record) → record.id = id
  | _, _ => True

/-- A write is the first of its caller and updates the record that it read. -/
def Session.Allows (update : KeyMetadata → KeyMetadata → Prop) (session : Session) : Op → Prop
  | .put record => session.wrote = false ∧
      ∃ before, session.read = some before ∧ update before record
  | _ => True

/-- The contract of a caller that writes only updates of the record it read. -/
def session (id : KeyId) (update : KeyMetadata → KeyMetadata → Prop) : Contract Op Op.Ret where
  Ghost := Session
  Allows := Session.Allows update
  Expects _ op answer := op.Identifies answer
  after state op answer := state.see id op answer

/-- The shared world answers every caller as its session expects. -/
theorem honours_session {ι : Type} {admits : Env → Prop} {id : KeyId}
    {update : ι → KeyMetadata → KeyMetadata → Prop} :
    Pool.Honours (sharedWorld admits) fun caller => session id (update caller) := by
  rintro caller state world op answer after ⟨env, -, answered⟩
  cases op with
  | get other =>
      rintro record rfl
      have given : faulty (env.getFault other) (world.keys.find? other) = .ok (some record) :=
        congrArg Prod.fst answered
      exact Table.key_of_find? (eq_of_faulty_eq_ok given).symm
  | _ => trivial

/-- The usage limit of a record's policy, before any adaptation. -/
def Keystore.usageLimit (ks : Keystore) (record : KeyMetadata) : Option Nat :=
  (record.policyId.bind ks.policies).bind KeyPolicy.maxUsageCount

/-- The record that a call on one key writes after it has read another. -/
inductive Updates (ks : Keystore) : Call → KeyMetadata → KeyMetadata → Prop where
  | activated {id : KeyId} {before : KeyMetadata} {updated now : Nat}
      (edge : before.state.canTransitionTo .active = true) :
      Updates ks (.activate id) before (activatedRecord before updated now)
  | rotated {id : KeyId} {before : KeyMetadata} {now : Nat} {added : KeyVersion}
      (active : before.state = .active) :
      Updates ks (.rotate id) before (rotatedRecord before now added)
  | revoked {id : KeyId} {before : KeyMetadata} {revoked updated : Nat}
      (active : before.state = .active) :
      Updates ks (.revoke id) before (revokedRecord before revoked updated)
  | expired {id : KeyId} {before : KeyMetadata} {now : Nat}
      (usable : before.state.canDecrypt = true) :
      Updates ks (.expire id) before (expiredRecord before now)
  | destroyed {id : KeyId} {before : KeyMetadata} {destroyed updated : Nat}
      (edge : before.state.canTransitionTo .destroyed = true) :
      Updates ks (.destroy id) before (destroyedRecord before destroyed updated)
  | used {id : KeyId} {plaintext : Bytes} {aad : Aad} {context : Context} {before : KeyMetadata}
      {now : Nat} (active : before.state = .active)
      (within : ∀ limit, ks.usageLimit before = some limit → before.usageCount < limit) :
      Updates ks (.encrypt id plaintext aad context) before (usedRecord before now)

/-- An update keeps the identity of its key. -/
theorem Updates.id {ks : Keystore} {call : Call} {before record : KeyMetadata}
    (updates : Updates ks call before record) : record.id = before.id := by
  cases updates <;> rfl

namespace Keystore

variable {ks : Keystore} {id : KeyId} {update : KeyMetadata → KeyMetadata → Prop}
  {before : KeyMetadata} {wrote : Bool} {ε α β : Type}

/-- After the first read no reading operation changes the session. -/
theorem neutral_of_session (op : Op) (reads : op.Reads) :
    (session id update).Allows ⟨some before, wrote⟩ op ∧
      ∀ answer, (session id update).after ⟨some before, wrote⟩ op answer =
        ⟨some before, wrote⟩ := by
  cases op with
  | put record => exact reads.elim
  | get other =>
      refine ⟨trivial, ?_⟩
      rintro (error | _ | record)
      · rfl
      · rfl
      · exact if_neg (by simp)
  | _ => exact ⟨trivial, fun _ => rfl⟩

/-- The rule for a reading part after the first read. -/
theorem session_reads {program : Prog ε α} {continuation : α → Prog ε β}
    {post : Session → Outcome ε β → Prop} (reads : program.Uses Op.Reads)
    (value : ∀ value, (continuation value).Meets (session id update) ⟨some before, wrote⟩ post)
    (error : ∀ error, post ⟨some before, wrote⟩ (.err error))
    (aborted : ∀ why, post ⟨some before, wrote⟩ (.aborted why)) :
    (program >>= continuation).Meets (session id update) ⟨some before, wrote⟩ post := by
  refine Meets.bind ((Meets.ofUses reads neutral_of_session).mono ?_)
  rintro state outcome rfl
  cases outcome with
  | ok result => exact value result
  | err problem => exact error problem
  | aborted why => exact aborted why

/-- The rule for one reading operation after the first read. -/
theorem session_call {op : Op} {continuation : op.Ret → Prog ε α}
    {post : Session → Outcome ε α → Prop} (reads : op.Reads)
    (rest : ∀ answer, (continuation answer).Meets (session id update) ⟨some before, wrote⟩ post) :
    (Program.call op >>= continuation).Meets (session id update) ⟨some before, wrote⟩ post := by
  obtain ⟨allowed, keeps⟩ : (session id update).Allows ⟨some before, wrote⟩ op ∧
      ∀ answer, (session id update).after ⟨some before, wrote⟩ op answer =
        ⟨some before, wrote⟩ := neutral_of_session op reads
  refine ⟨allowed, fun answer _ => ?_⟩
  rw [keeps answer]
  exact rest answer

/-- The key was read, or the caller has nothing in hand. -/
def ReadKey (id : KeyId) (state : Session) (outcome : Outcome ε KeyMetadata) : Prop :=
  (∃ record, outcome = .ok record ∧ state = ⟨some record, false⟩ ∧ record.id = id) ∨
    ∃ error, outcome = .err error ∧ state = .fresh

theorem get_session : (get id).Meets (session id update) .fresh (ReadKey id) := by
  refine ⟨trivial, ?_⟩
  rintro (error | _ | record) expected
  · exact Or.inr ⟨error, rfl, rfl⟩
  · exact Or.inr ⟨_, rfl, rfl⟩
  · exact Or.inl ⟨record, rfl, if_pos ⟨rfl, rfl⟩, expected record rfl⟩

theorem get_mapErr_session {translate : KeystoreError → ε} :
    ((get id).mapErr translate).Meets (session id update) .fresh (ReadKey id) := by
  refine Meets.mapErr (get_session.mono ?_)
  rintro state outcome (⟨record, rfl, read⟩ | ⟨problem, rfl, nothing⟩)
  · exact Or.inl ⟨record, rfl, read⟩
  · exact Or.inr ⟨_, rfl, nothing⟩

/-- The rule for an operation that begins by reading its key. -/
theorem session_get {program : Prog ε KeyMetadata} {continuation : KeyMetadata → Prog ε α}
    {post : Session → Outcome ε α → Prop}
    (reads : program.Meets (session id update) .fresh (ReadKey id))
    (value : ∀ record, record.id = id →
      (continuation record).Meets (session id update) ⟨some record, false⟩ post)
    (error : ∀ error, post .fresh (.err error)) :
    (program >>= continuation).Meets (session id update) .fresh post := by
  refine Meets.bind (reads.mono ?_)
  rintro state outcome (⟨record, rfl, rfl, own⟩ | ⟨problem, rfl, rfl⟩)
  · exact value record own
  · exact error _

/-- The rule for the write, with whatever follows its answer. -/
theorem session_put {record : KeyMetadata} {continuation : Except KeystoreError Unit → Prog ε α}
    {post : Session → Outcome ε α → Prop} (permitted : update before record)
    (stored : (continuation (.ok ())).Meets (session id update) ⟨some before, true⟩ post)
    (failed : ∀ error,
      (continuation (.error error)).Meets (session id update) ⟨some before, false⟩ post) :
    (storagePut record >>= continuation).Meets (session id update) ⟨some before, false⟩ post := by
  refine ⟨⟨rfl, before, rfl, permitted⟩, ?_⟩
  rintro (problem | done) -
  · exact failed problem
  · exact stored

/-- The caller is told of success exactly when its write was acknowledged. -/
def Acknowledged (state : Session) (outcome : Outcome ε α) : Prop := outcome.isOk = state.wrote

theorem activate_session :
    (activate id).Meets (session id (Updates ks (.activate id))) .fresh Acknowledged := by
  refine Meets.mapErr (session_get get_session (fun record own => ?_) fun _ => rfl)
  unfold transition
  split
  · rename_i edge
    refine session_call trivial fun updated => session_call trivial fun now => ?_
    exact session_put (Updates.activated edge) rfl fun _ => rfl
  · rfl

theorem rotate_session :
    (ks.rotate id).Meets (session id (Updates ks (.rotate id))) .fresh Acknowledged := by
  refine Meets.mapErr (session_get get_session (fun record own => ?_) fun _ => rfl)
  split
  · rfl
  · rename_i active
    refine session_reads requireMasterKey_reads (fun _ => ?_) (fun _ => rfl) fun _ => rfl
    refine session_call trivial fun random => session_call trivial fun now => ?_
    refine session_reads (wrapSecretKeyFor_reads _ _ _ _).mapErr (fun wrapped => ?_) (fun _ => rfl)
      fun _ => rfl
    exact session_put (Updates.rotated (not_not.mp active)) rfl fun _ => rfl

theorem revoke_session :
    (revoke id).Meets (session id (Updates ks (.revoke id))) .fresh Acknowledged := by
  refine Meets.mapErr (session_get get_session (fun record own => ?_) fun _ => rfl)
  split
  · rfl
  · rename_i active
    refine session_call trivial fun revoked => session_call trivial fun updated => ?_
    exact session_put (Updates.revoked (not_not.mp active)) rfl fun _ => rfl

theorem destroy_session :
    (destroy id).Meets (session id (Updates ks (.destroy id))) .fresh Acknowledged := by
  refine Meets.mapErr (session_get get_session (fun record own => ?_) fun _ => rfl)
  split
  · rfl
  · rename_i edge
    refine session_call trivial fun destroyed => session_call trivial fun updated => ?_
    refine session_call trivial fun answer => ?_
    refine session_reads uses_ofExcept (fun _ => ?_) (fun _ => rfl) fun _ => rfl
    exact session_put (Updates.destroyed (by simpa using edge)) rfl fun _ => rfl

/-- Only a key that may still decrypt is ever due, whatever the clock shows. -/
theorem checkExpiration_session {record : KeyMetadata} :
    (ks.checkExpiration record : Prog ε ExpirationDecision).Meets (session id update)
      ⟨some before, wrote⟩ fun state outcome => state = ⟨some before, wrote⟩ ∧
        ∃ decision, outcome = .ok decision ∧
          ((∃ reason source, decision = .required reason source) →
            record.state.canDecrypt = true) := by
  unfold checkExpiration
  split
  · rename_i rotated
    have usable : record.state.canDecrypt = true := by
      rw [rotated]
      rfl
    split
    · exact ⟨rfl, _, rfl, fun _ => usable⟩
    · refine session_call trivial fun level => session_call trivial fun now => ?_
      exact ⟨rfl, _, rfl, fun _ => usable⟩
  · rename_i active
    have usable : record.state.canDecrypt = true := by
      rw [active]
      rfl
    refine session_call trivial fun level => ?_
    split
    · exact session_call trivial fun now => ⟨rfl, _, rfl, fun _ => usable⟩
    · exact ⟨rfl, _, rfl, fun _ => usable⟩
  · exact ⟨rfl, _, rfl, nofun⟩

theorem expire_session :
    (ks.expire id).Meets (session id (Updates ks (.expire id))) .fresh Acknowledged := by
  refine Meets.mapErr (session_get get_session (fun record own => ?_) fun _ => rfl)
  refine Meets.bind (checkExpiration_session.mono ?_)
  rintro state outcome ⟨rfl, decision, rfl, due⟩
  cases decision with
  | required reason source =>
      refine session_call trivial fun now => ?_
      exact session_put (Updates.expired (due ⟨reason, source, rfl⟩)) rfl fun _ => rfl
  | warning reason remaining source => rfl
  | notNeeded => rfl

/-- Evaluating a policy, at whatever level and instant. -/
theorem evaluateEffective_session {record : KeyMetadata}
    {continuation : Option PolicyVerdict → Prog ε α} {post : Session → Outcome ε α → Prop}
    (value : ∀ level now verdict, ks.verdictAt level now record = .ok verdict →
      (continuation verdict).Meets (session id update) ⟨some before, wrote⟩ post)
    (aborted : ∀ why, post ⟨some before, wrote⟩ (.aborted why)) :
    (ks.evaluateEffective record >>= continuation).Meets (session id update)
      ⟨some before, wrote⟩ post := by
  unfold evaluateEffective
  rw [Program.bind_assoc]
  refine session_call trivial fun level => ?_
  have verdicts := value level
  unfold verdictAt at verdicts
  split
  · rename_i unset
    rw [unset] at verdicts
    exact verdicts 0 none rfl
  · rename_i policy effective
    rw [effective] at verdicts
    rw [Program.bind_assoc]
    refine session_call trivial fun now => ?_
    split
    · exact aborted _
    · rename_i verdict evaluated
      exact verdicts now (some verdict) (congrArg (Except.map some) evaluated)

/-- A verdict that lets an encryption through keeps the usage below the limit of the
policy. -/
theorem usageCount_lt_of_unblocked {record : KeyMetadata} {level : ThreatLevel} {now limit : Nat}
    {verdict : Option PolicyVerdict} (active : record.state = .active)
    (limited : ks.usageLimit record = some limit)
    (evaluated : ks.verdictAt level now record = .ok verdict)
    (unblocked : verdict.bind encryptionBlock = none) : record.usageCount < limit := by
  obtain ⟨base, chosen, limitedBase⟩ := Option.bind_eq_some_iff.mp limited
  obtain ⟨adapted, limitedAdapted, lower⟩ :
      ∃ adapted, (adapt base level).maxUsageCount = some adapted ∧ adapted ≤ limit :=
    adapt_maxUsageCount limitedBase
  unfold verdictAt effectivePolicyFor at evaluated
  rw [chosen, Option.map_some] at evaluated
  cases given : evaluate (adapt base level) record now with
  | error why =>
      simp only [given] at evaluated
      cases evaluated
  | ok found =>
      simp only [given] at evaluated
      cases evaluated
      have below : record.usageCount < adapted := by
        refine usageCount_lt_of_evaluate active limitedAdapted given ?_ ?_
        · cases found with
          | expired age limit => cases unblocked
          | _ => rfl
        · rintro count max rfl
          cases unblocked
      exact lt_of_lt_of_le below lower

/-- Reading the public key of a version. -/
theorem parsePublicKey_session {publicKeyHex : String} {continuation : PublicKey → Prog String α}
    {post : Session → Outcome String α → Prop} {state : Session}
    (value : ∀ key, StoresPublicKey ks publicKeyHex key →
      (continuation key).Meets (session id update) state post)
    (error : ∀ error, post state (.err error)) :
    (ks.parsePublicKey publicKeyHex >>= continuation).Meets (session id update) state post := by
  unfold parsePublicKey decodeHex
  cases decoded : hexDecode (utf8 publicKeyHex) with
  | error problem => exact error _
  | ok bytes =>
      cases parsed : PublicKey.fromBytes ks.crypto bytes with
      | error problem =>
          simp only [Program.ofExcept, ret_bind, parsed, fail_bind]
          exact error _
      | ok key =>
          simp only [Program.ofExcept, ret_bind, parsed]
          exact value key ⟨bytes, decoded, parsed⟩

/-- The blob is sealed to the current version of a record. -/
structure SealsBlob (ks : Keystore) (id : KeyId) (plaintext : Bytes) (aad : Aad) (context : Context)
    (record : KeyMetadata) (blob : EncryptedBlob) (version : KeyVersion) : Prop where
  current : record.currentKeyVersion = some version
  keyId : blob.keyId = id.text
  number : blob.keyVersion = record.currentVersion
  sealed : ∃ key domainId coins ciphertext, StoresPublicKey ks version.publicKeyHex key ∧
    Envelope.seal ks.crypto coins key plaintext (domainBoundAad domainId aad) context =
      .ok ciphertext ∧
    blob.ciphertextHex = hexEncode ciphertext

/-- What a caller of `encrypt` knows when it gets its answer. -/
def Encrypted (ks : Keystore) (id : KeyId) (plaintext : Bytes) (aad : Aad) (context : Context)
    (state : Session) (outcome : Outcome ε EncryptedBlob) : Prop :=
  Acknowledged state outcome ∧ ∀ blob, outcome = .ok blob →
    ∃ record version, state.read = some record ∧
      SealsBlob ks id plaintext aad context record blob version

theorem encrypt_session {plaintext : Bytes} {aad : Aad} {context : Context} :
    (ks.encrypt id plaintext aad context).Meets
      (session id (Updates ks (.encrypt id plaintext aad context))) .fresh
      (Encrypted ks id plaintext aad context) := by
  have failed : ∀ {state : Session}, state.wrote = false → ∀ message : String,
      Encrypted ks id plaintext aad context state
        ((Outcome.err message : Outcome String EncryptedBlob).mapErr CallError.encrypt) :=
    fun unwritten _ => ⟨unwritten.symm, nofun⟩
  have stopped : ∀ {state : Session}, state.wrote = false → ∀ why,
      Encrypted ks id plaintext aad context state
        ((Outcome.aborted why : Outcome String EncryptedBlob).mapErr CallError.encrypt) :=
    fun unwritten _ => ⟨unwritten.symm, nofun⟩
  refine Meets.mapErr (session_get get_mapErr_session (fun record own => ?_) (failed rfl))
  split
  · exact failed rfl _
  · rename_i can
    have active := eq_active_of_canEncrypt can
    split
    · exact failed rfl _
    · refine evaluateEffective_session (fun level now verdict evaluated => ?_) (stopped rfl)
      split
      · exact failed rfl _
      · rename_i unblocked
        cases current : record.currentKeyVersion with
        | none => exact failed rfl _
        | some version =>
            rw [Program.ofOption, ret_bind]
            refine parsePublicKey_session (fun key stores => ?_) (failed rfl)
            refine session_reads (resolveDomainForKey_reads id).mapErr (fun domainId => ?_)
              (failed rfl) (stopped rfl)
            refine session_call trivial fun random => ?_
            generalize sealing : Envelope.seal ks.crypto random.sealing key plaintext
              (domainBoundAad domainId aad) context = sealed
            cases sealed with
            | error problem => exact failed rfl _
            | ok ciphertext =>
                rw [Program.ofExcept, ret_bind]
                refine session_call trivial fun written => ?_
                refine session_put (Updates.used active fun limit limited =>
                  usageCount_lt_of_unblocked active limited evaluated unblocked) ?_
                  (fun _ => failed rfl _)
                refine session_call trivial fun encryptedAt => ⟨rfl, ?_⟩
                rintro blob ⟨⟩
                exact ⟨record, version, rfl, current, rfl, rfl, key, domainId, random.sealing,
                  ciphertext, stores, sealing, rfl⟩

end Keystore

/-- The operations on one key that read its record and write it back. -/
def Call.OnKey (id : KeyId) : Call → Prop
  | .activate other => other = id
  | .rotate other => other = id
  | .revoke other => other = id
  | .expire other => other = id
  | .destroy other => other = id
  | .encrypt other _ _ _ => other = id
  | _ => False

/-- What a caller knows when it gets its answer. -/
def Call.Answered (ks : Keystore) (call : Call) (state : Session)
    (outcome : Outcome CallError CallValue) : Prop :=
  Acknowledged state outcome ∧
    ∀ id plaintext aad context blob, call = .encrypt id plaintext aad context →
      outcome = .ok (.blob blob) → ∃ record version, state.read = some record ∧
        SealsBlob ks id plaintext aad context record blob version

/-- A call whose value says nothing more than that it went through. -/
theorem Call.session_of_acknowledged {ks : Keystore} {α : Type} {id : KeyId} {call : Call}
    {program : Prog CallError α} {wrap : α → CallValue}
    (other : ∀ key plaintext aad context, call ≠ .encrypt key plaintext aad context)
    (meets : program.Meets (session id (Updates ks call)) .fresh Acknowledged) :
    (program >>= fun value => .ret (wrap value)).Meets (session id (Updates ks call)) .fresh
      (call.Answered ks) := by
  refine Meets.bind (meets.mono ?_)
  rintro state (value | error | why) acknowledged
  · exact ⟨acknowledged, fun _ _ _ _ _ same => absurd same (other _ _ _ _)⟩
  · exact ⟨acknowledged, fun _ _ _ _ _ same => absurd same (other _ _ _ _)⟩
  · exact ⟨acknowledged, fun _ _ _ _ _ same => absurd same (other _ _ _ _)⟩

/-- Every operation on a key keeps to its session. -/
theorem Call.session_meets (ks : Keystore) {id : KeyId} {call : Call} (onKey : call.OnKey id)
    (fuel : Nat) :
    (call.prog ks fuel).Meets (session id (Updates ks call)) .fresh (call.Answered ks) := by
  cases call with
  | activate other =>
      cases onKey
      exact session_of_acknowledged nofun activate_session
  | rotate other =>
      cases onKey
      exact session_of_acknowledged nofun rotate_session
  | revoke other =>
      cases onKey
      exact session_of_acknowledged nofun revoke_session
  | expire other =>
      cases onKey
      exact session_of_acknowledged nofun expire_session
  | destroy other =>
      cases onKey
      exact session_of_acknowledged nofun destroy_session
  | encrypt other plaintext aad context =>
      cases onKey
      refine Meets.bind (encrypt_session.mono ?_)
      rintro state (blob | error | why) ⟨acknowledged, sealed⟩
      · refine ⟨acknowledged, ?_⟩
        rintro id plaintext aad context blob ⟨⟩ ⟨⟩
        exact sealed _ rfl
      · exact ⟨acknowledged, nofun⟩
      · exact ⟨acknowledged, nofun⟩
  | _ => exact onKey.elim

end Citadel
