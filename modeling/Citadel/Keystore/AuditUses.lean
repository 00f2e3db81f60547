import Citadel.Keystore.AuditTrail

/-!
# The audit log tells how keys were used

An encryption, a decryption or a signature that succeeds records exactly one event, with
the key and its version; one that fails records none, and no other call records one. So in
every interleaving the log counts the uses of every key.
-/

namespace Citadel

open Envelope Program Audit

/-- Whether an action is the use of a key. -/
def Audit.AuditAction.isUse : AuditAction → Bool
  | .encryptionPerformed _ => true
  | .decryptionPerformed _ => true
  | .signingPerformed _ _ => true
  | _ => false

/-- The use that an event reports. -/
def toldUse (draft : EventDraft) : Option (KeyId × AuditAction) :=
  if draft.action.isUse then draft.keyId.map fun id => (id, draft.action) else none

/-- What follows from the value of an outcome. -/
def Outcome.uses {ε α Fact : Type} (ofValue : α → List Fact) : Outcome ε α → List Fact
  | .ok value => ofValue value
  | .err _ => []
  | .aborted _ => []

@[simp] theorem Outcome.uses_mapErr {ε δ α Fact : Type} (ofValue : α → List Fact)
    (translate : ε → δ) (outcome : Outcome ε α) :
    (outcome.mapErr translate).uses ofValue = outcome.uses ofValue := by
  cases outcome <;> rfl

/-- The use of a key that a caller is told of. -/
def Call.useOf : Call → CallValue → List (KeyId × AuditAction)
  | .encrypt keyId _ _ _, .blob blob => [(keyId, .encryptionPerformed blob.keyVersion)]
  | .decrypt blob _ _, .plaintext _ => [(⟨blob.keyId⟩, .decryptionPerformed blob.keyVersion)]
  | .sign keyId message, .signature payload =>
      [(keyId, .signingPerformed payload.keyVersion message.length)]
  | _, _ => []

/-- The operations of code that records no use. -/
def recordsNoUse : Journaled Op EventDraft → Prop
  | .act _ => True
  | .record draft => toldUse draft = none

/-- The code records no use. -/
abbrev UsesNoKey {ε α : Type} (program : Audited ε α) : Prop := program.Uses recordsNoUse

namespace UsesNoKey

variable {ε α β : Type}

theorem lift (program : Prog ε α) : UsesNoKey (program.lift : Audited ε α) :=
  (uses_any program).lift fun _ _ => trivial

theorem tells {program : Audited ε α} (silent : UsesNoKey program) :
    Tells toldUse program fun more _ => more = [] := by
  refine Tells.silent (silent.mono fun op allowed event same => ?_)
  subst same
  exact allowed

/-- The rule for an operation on the world. -/
theorem call {op : Op} {continuation : op.Ret → Audited ε α}
    (rest : ∀ answer, UsesNoKey (continuation answer)) :
    UsesNoKey ((act op : Audited ε op.Ret) >>= continuation) :=
  ⟨trivial, rest⟩

/-- The rule for an event that is no use. -/
theorem event {draft : EventDraft} {continuation : Unit → Audited ε α}
    (silent : toldUse draft = none) (rest : UsesNoKey (continuation ())) :
    UsesNoKey (note draft >>= continuation) :=
  ⟨silent, fun _ => rest⟩

/-- The rule for an event at the end that is no use. -/
theorem last {draft : EventDraft} (silent : toldUse draft = none) :
    UsesNoKey (note draft : Audited ε Unit) :=
  ⟨silent, fun _ => trivial⟩

/-- The rule for a first part that records nothing. -/
theorem reading {program : Prog ε α} {continuation : α → Audited ε β}
    (rest : ∀ value, UsesNoKey (continuation value)) :
    UsesNoKey ((program.lift : Audited ε α) >>= continuation) :=
  (lift program).bind rest

end UsesNoKey

namespace Keystore.Audited

variable {ks : Keystore}

theorem unwrapKeyVersionInner_usesNoKey (skip : Bool) (levels : Nat) (keyId : KeyId)
    (version : KeyVersion) : UsesNoKey (unwrapKeyVersionInner ks skip levels keyId version) := by
  induction levels generalizing keyId version with
  | zero => trivial
  | succ levels ih =>
      unfold unwrapKeyVersionInner
      cases version.secretKeyMaterial with
      | destroyed => trivial
      | plaintext text => exact UsesNoKey.lift _
      | encrypted text => exact UsesNoKey.lift _
      | citadelWrapped text =>
          refine Uses.bind uses_ofOption fun parentId => ?_
          refine UsesNoKey.call fun loaded => ?_
          refine Uses.bind uses_ofExcept fun found => ?_
          refine Uses.bind uses_ofOption fun parent => ?_
          split
          · exact UsesNoKey.event rfl trivial
          · refine Uses.bind uses_ofOption fun parentNumber => ?_
            refine Uses.bind uses_ofOption fun parentVersion => ?_
            exact Uses.bind (ih _ _) fun parentSkBytes => UsesNoKey.lift _

theorem createKey_usesNoKey (name : String) (keyType : KeyType) (policyId : Option PolicyId)
    (parentId : Option KeyId) (keyPair : Randomness → Bytes × Bytes) :
    UsesNoKey (createKey ks name keyType policyId parentId keyPair) := by
  refine UsesNoKey.call fun random => UsesNoKey.call fun now => ?_
  refine UsesNoKey.reading fun wrapped => UsesNoKey.call fun stored => ?_
  exact Uses.bind uses_ofExcept fun _ => UsesNoKey.event rfl trivial

theorem generate_usesNoKey (name : String) (keyType : KeyType) (policyId : Option PolicyId)
    (parentId : Option KeyId) : UsesNoKey (generate ks name keyType policyId parentId) := by
  refine Uses.mapErr ?_
  split
  · trivial
  · refine UsesNoKey.reading fun _ => UsesNoKey.reading fun _ => ?_
    exact createKey_usesNoKey _ _ _ _ _

theorem generateSigningKey_usesNoKey (name : String) (policyId : Option PolicyId)
    (parentId : KeyId) : UsesNoKey (generateSigningKey ks name policyId parentId) := by
  refine Uses.mapErr (UsesNoKey.reading fun _ => UsesNoKey.call fun loaded => ?_)
  refine Uses.bind uses_ofExcept fun found => Uses.bind uses_ofOption fun parent => ?_
  refine UsesNoKey.call fun process => ?_
  split
  · trivial
  · exact createKey_usesNoKey _ _ _ _ _

theorem activate_usesNoKey (id : KeyId) : UsesNoKey (activate id) := by
  refine Uses.mapErr (UsesNoKey.reading fun record => UsesNoKey.reading fun record => ?_)
  refine UsesNoKey.call fun now => UsesNoKey.call fun stored => ?_
  exact Uses.bind uses_ofExcept fun _ => UsesNoKey.last rfl

theorem rotate_usesNoKey (id : KeyId) : UsesNoKey (rotate ks id) := by
  refine Uses.mapErr (UsesNoKey.reading fun record => ?_)
  split
  · trivial
  · refine UsesNoKey.reading fun _ => UsesNoKey.call fun random => UsesNoKey.call fun now => ?_
    refine UsesNoKey.reading fun wrapped => UsesNoKey.call fun stored => ?_
    exact Uses.bind uses_ofExcept fun _ => UsesNoKey.event rfl trivial

theorem rewrap_usesNoKey (id : KeyId) (newParentId : Option KeyId) :
    UsesNoKey (rewrap ks id newParentId) := by
  refine Uses.mapErr (UsesNoKey.reading fun record => Uses.bind uses_ofOption fun version => ?_)
  refine Uses.bind (unwrapKeyVersionInner_usesNoKey _ _ _ _).mapErr fun skBytes => ?_
  refine UsesNoKey.reading fun wrapped => UsesNoKey.call fun now => UsesNoKey.call fun stored => ?_
  exact Uses.bind uses_ofExcept fun _ => UsesNoKey.last rfl

theorem revoke_usesNoKey (id : KeyId) (reason : String) : UsesNoKey (revoke id reason) := by
  refine Uses.mapErr (UsesNoKey.reading fun record => ?_)
  split
  · trivial
  · refine UsesNoKey.call fun revoked => UsesNoKey.call fun updated => ?_
    refine UsesNoKey.call fun stored => Uses.bind uses_ofExcept fun _ => ?_
    exact UsesNoKey.last rfl

theorem destroy_usesNoKey (id : KeyId) : UsesNoKey (destroy id) := by
  refine Uses.mapErr (UsesNoKey.reading fun record => ?_)
  split
  · trivial
  · refine UsesNoKey.call fun destroyed => UsesNoKey.call fun updated => ?_
    refine UsesNoKey.call fun overwritten => Uses.bind uses_ofExcept fun _ => ?_
    refine UsesNoKey.call fun stored => Uses.bind uses_ofExcept fun _ => ?_
    exact UsesNoKey.last rfl

theorem expire_usesNoKey (id : KeyId) : UsesNoKey (expire ks id) := by
  refine Uses.mapErr (UsesNoKey.reading fun record => UsesNoKey.reading fun decision => ?_)
  cases decision with
  | required reason source =>
      refine UsesNoKey.call fun now => UsesNoKey.call fun stored => ?_
      exact Uses.bind uses_ofExcept fun _ => UsesNoKey.event rfl trivial
  | warning reason remaining source => trivial
  | notNeeded => trivial

theorem expireListed_usesNoKey (records : List KeyMetadata) (report : ExpirationReport) :
    UsesNoKey (expireListed ks records report) := by
  induction records generalizing report with
  | nil => trivial
  | cons record rest ih =>
      refine UsesNoKey.reading fun decision => ?_
      cases decision with
      | required reason source =>
          refine Uses.bind (expire_usesNoKey record.id).attempt fun expired => ?_
          cases expired with
          | ok source => exact ih _
          | error error => exact ih _
      | warning reason remaining source => exact ih _
      | notNeeded => exact ih _

theorem expireDueKeys_usesNoKey : UsesNoKey (expireDueKeys ks) := by
  refine UsesNoKey.call fun listed => Uses.bind uses_ofExcept fun rotated => ?_
  refine Uses.bind (expireListed_usesNoKey _ _) fun report => ?_
  refine UsesNoKey.call fun listed => Uses.bind uses_ofExcept fun active => ?_
  refine Uses.bind (expireListed_usesNoKey _ _) fun report => ?_
  exact UsesNoKey.event rfl trivial

theorem suspendChildren_usesNoKey (parentId : KeyId) (children : List KeyMetadata)
    (cascade : Cascade) : UsesNoKey (suspendChildren parentId children cascade) := by
  induction children generalizing cascade with
  | nil => trivial
  | cons child rest ih =>
      unfold suspendChildren
      split
      · exact ih _
      · split
        · exact ih _
        · refine UsesNoKey.call fun now => UsesNoKey.call fun stored => ?_
          cases stored with
          | ok done => exact UsesNoKey.event rfl (ih _)
          | error error => exact ih _

theorem cascadeLoop_usesNoKey (fuel : Nat) (cascade : Cascade) :
    UsesNoKey (cascadeLoop fuel cascade) := by
  induction fuel generalizing cascade with
  | zero =>
      unfold cascadeLoop
      split
      · trivial
      · trivial
  | succ fuel ih =>
      unfold cascadeLoop
      split
      · trivial
      · refine UsesNoKey.call fun listed => Uses.bind uses_ofExcept fun children => ?_
        exact Uses.bind (suspendChildren_usesNoKey _ _ _) fun next => ih next

theorem revokeCascade_usesNoKey (fuel : Nat) (id : KeyId) (reason : String) :
    UsesNoKey (revokeCascade fuel id reason) := by
  refine Uses.bind (revoke_usesNoKey id reason).mapErr fun _ => ?_
  exact Uses.bind (cascadeLoop_usesNoKey _ _) fun cascade => trivial

theorem noteVerdict_usesNoKey {ε : Type} (id : KeyId) (record : KeyMetadata)
    (text : Option String) : UsesNoKey (noteVerdict id record text : Audited ε Unit) := by
  cases text with
  | some text => exact ⟨rfl, fun _ => trivial⟩
  | none => trivial

/-! ### The calls that use keys -/

/-- What code tells that goes on after a part which uses no key. -/
theorem tells_after {ε α β : Type} {program : Audited ε α} {continuation : α → Audited ε β}
    {ofValue : β → List (KeyId × AuditAction)} (silent : UsesNoKey program)
    (rest : ∀ value, Tells toldUse (continuation value) fun more outcome =>
      more = outcome.uses ofValue) :
    Tells toldUse (program >>= continuation) fun more outcome => more = outcome.uses ofValue :=
  Tells.bind silent.tells rest (fun _ => rfl) (fun _ => rfl)

/-- What code tells that goes on after an operation on the world. -/
theorem tells_call {ε α : Type} {op : Op} {continuation : op.Ret → Audited ε α}
    {post : List (KeyId × AuditAction) → Outcome ε α → Prop}
    (rest : ∀ answer, Tells toldUse (continuation answer) post) :
    Tells toldUse ((act op : Audited ε op.Ret) >>= continuation) post :=
  Tells.act rest

theorem encrypt_tells (keyId : KeyId) (plaintext : Bytes) (aad : Aad) (context : Context) :
    Tells toldUse (encrypt ks keyId plaintext aad context) fun more outcome =>
      more = outcome.uses fun blob => [(keyId, .encryptionPerformed blob.keyVersion)] := by
  refine Tells.mapErr ?_
  simp only [Outcome.uses_mapErr]
  refine tells_after (UsesNoKey.lift _) fun record => ?_
  split
  · exact Tells.fail rfl
  · split
    · exact Tells.fail rfl
    · refine tells_after (UsesNoKey.lift _) fun verdict => ?_
      refine tells_after (noteVerdict_usesNoKey _ _ _) fun _ => ?_
      cases verdict.bind encryptionBlock with
      | some message => exact Tells.fail rfl
      | none =>
          refine tells_after uses_ofOption fun version => ?_
          refine tells_after (UsesNoKey.lift _) fun pk => ?_
          refine tells_after (UsesNoKey.lift _) fun domainId => tells_call fun random => ?_
          refine tells_after uses_ofExcept fun ciphertext => tells_call fun now => ?_
          refine tells_call fun stored => tells_after uses_ofExcept fun _ => ?_
          exact Tells.note (tells_call fun encryptedAt => Tells.ret rfl)

theorem releaseAndFail_tells {α : Type} {ofValue : α → List (KeyId × AuditAction)}
    (cacheKey : Bytes) : Tells toldUse (releaseAndFail cacheKey : Audited String α)
      fun more outcome => more = outcome.uses ofValue :=
  tells_call fun _ => Tells.fail rfl

theorem openClaimed_tells (record : KeyMetadata) (blob : EncryptedBlob) (version : KeyVersion)
    (domainId : KeyId) (ciphertext cacheKey : Bytes) (aad : Aad) (context : Context) :
    Tells toldUse (openClaimed ks record blob version domainId ciphertext cacheKey aad context)
      fun more outcome => more =
        outcome.uses fun _ => [(⟨blob.keyId⟩, .decryptionPerformed blob.keyVersion)] := by
  refine tells_after (unwrapKeyVersionInner_usesNoKey _ _ _ _).attempt fun unwrapped => ?_
  cases unwrapped with
  | error error => exact releaseAndFail_tells cacheKey
  | ok skBytes =>
      simp only
      split
      · exact releaseAndFail_tells cacheKey
      · split
        · exact Tells.note (releaseAndFail_tells cacheKey)
        · exact Tells.note (Tells.ret rfl)

theorem decrypt_tells (blob : EncryptedBlob) (aad : Aad) (context : Context) :
    Tells toldUse (decrypt ks blob aad context) fun more outcome => more =
      outcome.uses fun _ => [(⟨blob.keyId⟩, .decryptionPerformed blob.keyVersion)] := by
  refine Tells.mapErr ?_
  simp only [Outcome.uses_mapErr]
  refine tells_after (UsesNoKey.lift _) fun record => ?_
  split
  · exact Tells.fail rfl
  · refine tells_after (UsesNoKey.lift _) fun verdict => ?_
    split
    · exact tells_after (noteVerdict_usesNoKey _ _ _) fun _ => Tells.fail rfl
    · refine tells_after uses_ofOption fun version => ?_
      refine tells_after uses_ofExcept fun ciphertext => ?_
      split
      · exact Tells.fail rfl
      · refine tells_after (UsesNoKey.lift _) fun domainId => ?_
        refine tells_after uses_ofExcept fun nonce => tells_call fun claimed => ?_
        rcases claimed with error | _ | _
        · exact Tells.note (Tells.fail rfl)
        · exact Tells.note (Tells.fail rfl)
        · exact openClaimed_tells _ _ _ _ _ _ _ _

theorem sign_tells (keyId : KeyId) (message : Bytes) :
    Tells toldUse (sign ks keyId message) fun more outcome => more = outcome.uses fun payload =>
      [(keyId, .signingPerformed payload.keyVersion message.length)] := by
  refine Tells.mapErr ?_
  simp only [Outcome.uses_mapErr]
  refine tells_after (UsesNoKey.lift _) fun record => ?_
  split
  · exact Tells.note (Tells.fail rfl)
  · split
    · exact Tells.note (Tells.fail rfl)
    · refine tells_after uses_ofOption fun version => ?_
      refine tells_after (unwrapKeyVersionInner_usesNoKey _ _ _ _).attempt fun unwrapped => ?_
      cases unwrapped with
      | error error => exact Tells.note (Tells.fail rfl)
      | ok seedBytes =>
          refine tells_after uses_ofExcept fun signature => ?_
          exact Tells.note (tells_call fun signedAt => Tells.ret rfl)

/-- A verification records its answer, and nothing when it gives none. -/
theorem verifySignature_tells (keyId : KeyId) (message : Bytes) (payload : SignedPayload) :
    Tells (fun draft : EventDraft => some (draft.keyId, draft.action))
      (verifySignature ks keyId message payload) fun more outcome =>
        more = outcome.uses fun valid =>
          [(some keyId, .verificationPerformed payload.keyVersion valid)] := by
  have silent : ∀ {ε α : Type} (program : Prog ε α),
      Tells (fun draft : EventDraft => some (draft.keyId, draft.action))
        (program.lift : Audited ε α) fun more _ => more = [] := fun program =>
    Tells.silent ((uses_any program).lift fun _ _ _ same => nomatch same)
  refine Tells.mapErr ?_
  simp only [Outcome.uses_mapErr]
  refine Tells.bind (silent _) (fun record => ?_) (fun _ => rfl) fun _ => rfl
  split
  · exact Tells.fail rfl
  · split
    · exact Tells.fail rfl
    · refine Tells.bind (Tells.silent uses_ofOption) (fun version => ?_) (fun _ => rfl) fun _ => rfl
      refine Tells.bind (silent _) (fun vkBytes => ?_) (fun _ => rfl) fun _ => rfl
      refine Tells.bind (silent _) (fun sigBytes => ?_) (fun _ => rfl) fun _ => rfl
      refine Tells.bind (Tells.silent uses_ofExcept) (fun valid => ?_) (fun _ => rfl) fun _ => rfl
      exact Tells.note (Tells.ret rfl)

end Keystore.Audited

/-- Wrapping the value of code that tells of a use. -/
theorem tells_wrapped {ε α β : Type} {program : Audited ε α} {wrap : α → β}
    {ofValue : β → List (KeyId × AuditAction)}
    (tells : Tells toldUse program fun more outcome =>
      more = outcome.uses fun value => ofValue (wrap value)) :
    Tells toldUse (program >>= fun value => .ret (wrap value)) fun more outcome =>
      more = outcome.uses ofValue := by
  intro past
  refine Meets.bind ((tells past).mono ?_)
  rintro facts outcome ⟨more, rfl, rfl⟩
  cases outcome with
  | ok value => exact ⟨_, rfl, rfl⟩
  | err error => exact ⟨_, rfl, rfl⟩
  | aborted why => exact ⟨_, rfl, rfl⟩

/-- What code tells that uses no key. -/
theorem UsesNoKey.wrapped {ε α β : Type} {program : Audited ε α} {wrap : α → β}
    {ofValue : β → List (KeyId × AuditAction)} (silent : UsesNoKey program)
    (nothing : ∀ value, ofValue (wrap value) = []) :
    Tells toldUse (program >>= fun value => .ret (wrap value)) fun more outcome =>
      more = outcome.uses ofValue := by
  refine tells_wrapped (silent.tells.mono ?_)
  rintro more outcome rfl
  cases outcome with
  | ok value => exact (nothing value).symm
  | err error => rfl
  | aborted why => rfl

open Keystore.Audited in
/-- Every call tells of the use that its caller is told of. -/
theorem Call.audited_tells (ks : Keystore) (fuel : Nat) (reason : String) (call : Call) :
    Tells toldUse (call.audited ks fuel reason) fun more outcome =>
      more = outcome.uses call.useOf := by
  cases call with
  | generate name keyType policyId parentId => exact (generate_usesNoKey _ _ _ _).wrapped fun _ => rfl
  | generateSigningKey name policyId parentId =>
      exact (generateSigningKey_usesNoKey _ _ _).wrapped fun _ => rfl
  | activate id => exact (activate_usesNoKey _).wrapped fun _ => rfl
  | rotate id => exact (rotate_usesNoKey _).wrapped fun _ => rfl
  | rewrap id newParentId => exact (rewrap_usesNoKey _ _).wrapped fun _ => rfl
  | revoke id => exact (revoke_usesNoKey _ _).wrapped fun _ => rfl
  | revokeCascade id => exact (revokeCascade_usesNoKey _ _ _).wrapped fun _ => rfl
  | expire id => exact (expire_usesNoKey _).wrapped fun _ => rfl
  | expireDueKeys => exact expireDueKeys_usesNoKey.wrapped fun _ => rfl
  | destroy id => exact (destroy_usesNoKey _).wrapped fun _ => rfl
  | encrypt keyId plaintext aad context => exact tells_wrapped (encrypt_tells _ _ _ _)
  | decrypt blob aad context => exact tells_wrapped (decrypt_tells _ _ _)
  | sign keyId message => exact tells_wrapped (sign_tells _ _)

/-- The use that a recorded event reports. -/
def loggedUse (event : AuditEvent EventBody) : Option (KeyId × AuditAction) :=
  toldUse event.body.toEventDraft

/-- The log counts the uses of keys: a caller that has its outcome has recorded the use it
was told of and no other, and once every caller has its outcome the log has gained each
use as often as callers were told of it. -/
theorem log_counts_uses {ι : Type} [DecidableEq ι] [Fintype ι] {ks : Keystore}
    {admits : Env → Prop} {world : World} {log : List (AuditEvent EventBody)} {calls : ι → Call}
    {fuel : ι → Nat} {reasons : ι → String} {trace : AuditedTrace ι} {pool : AuditedPool ι}
    (runs : Pool.Runs (auditedWorld admits) (auditedPool ks world log calls fuel reasons) trace
      pool) :
    (∀ caller outcome, Returned trace caller outcome →
      (itemsOf caller (reportedFacts toldUse trace)).map Prod.snd =
        outcome.uses (calls caller).useOf) ∧
      ∀ outcomes : ι → Outcome CallError CallValue,
        (∀ caller, Returned trace caller (outcomes caller)) → ∀ use,
          (pool.shared.2.filterMap loggedUse).count use =
            (log.filterMap loggedUse).count use +
              ∑ caller, ((outcomes caller).uses (calls caller).useOf).count use := by
  have initially : ∀ caller, ∃ program,
      (auditedPool ks world log calls fuel reasons).thread caller = .running program ∧
        Tells toldUse program fun more outcome => more = outcome.uses (calls caller).useOf :=
    fun caller => ⟨_, rfl, Call.audited_tells ks (fuel caller) (reasons caller) (calls caller)⟩
  have told : ∀ caller outcome, Returned trace caller outcome →
      (itemsOf caller (reportedFacts toldUse trace)).map Prod.snd =
        outcome.uses (calls caller).useOf :=
    fun caller outcome returned => Pool.Runs.tells initially runs returned
  have reads : ∀ (world : World) draft,
      loggedUse (stampedAt world.now draft) = toldUse draft := fun _ _ => rfl
  refine ⟨told, fun outcomes returned use => ?_⟩
  rw [Pool.Runs.journal reads runs, List.count_append, count_eq_sum_itemsOf]
  refine congrArg _ (Finset.sum_congr rfl fun caller _ => ?_)
  rw [told caller _ (returned caller)]

/-- The log of two encryptions under one version counts both. -/
theorem encryptions_counted :
    ∃ world trace pool, ∃ blobs : Bool → EncryptedBlob, Reachable plainKeystore anyStep world ∧
      Pool.Runs (auditedWorld Env.Reliable) (auditedEncryptions world) trace pool ∧
      (∀ caller, Returned trace caller (.ok (.blob (blobs caller)))) ∧
      (pool.shared.2.filterMap loggedUse).count (keyNumbered 3, .encryptionPerformed 1) = 2 := by
  obtain ⟨world, trace, pool, blobs, reachable, runs, told⟩ := exists_audited_encryptions
  have returned := fun caller => (told caller).1
  obtain ⟨-, counts⟩ := log_counts_uses runs
  refine ⟨world, trace, pool, blobs, reachable, runs, returned, ?_⟩
  rw [counts (fun caller => .ok (.blob (blobs caller))) returned]
  simp [Outcome.uses, Call.useOf, told]

end Citadel
