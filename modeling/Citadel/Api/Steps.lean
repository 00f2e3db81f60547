import Citadel.Api.Server
import Citadel.Keystore.Placement

/-!
# What the operations of the routes change

Every operation of a route leaves the records alone or makes one call of the keystore, so
the invariants of the keystore's calls are invariants of the server. The enforcer changes
in three ways only: it issues and accepts contexts, it registers a key, it revokes one.
-/

namespace Citadel.Api

open Envelope Program Keystore

variable {ks : Keystore} {moment : Moment} {app : AppState} {env : Env} {world : World}
  {ε δ α β : Type}

/-! ### The records -/

/-- The call of the keystore that an operation may make. -/
def Service.call? : Service → Option Call
  | .generate name keyType policyId parentId => some (.generate name keyType policyId parentId)
  | .generateSigningKey name policyId parentId => some (.generateSigningKey name policyId parentId)
  | .activate id => some (.activate id)
  | .rotate id => some (.rotate id)
  | .revoke id => some (.revoke id)
  | .destroy id => some (.destroy id)
  | .expireDueKeys => some .expireDueKeys
  | .encryptAuthorized authz plaintext aad context =>
      some (.encrypt ⟨authz.keyId⟩ plaintext aad context)
  | .decryptAuthorized _ blob aad context => some (.decrypt blob aad context)
  | .signAuthorized authz message => some (.sign ⟨authz.keyId⟩ message)
  | _ => none

/-- The step of the keystore in which an operation makes a call. -/
def Moment.step (moment : Moment) (call : Call) : Step := ⟨moment.now, moment.env, call⟩

/-- A program that only reads leaves the world alone. -/
theorem run_of_reads {program : Prog ε α} (reads : program.Uses Op.Reads) :
    (program.run (handle env) world).2 = world := by
  apply reads.run_state
  intro op isRead state
  exact handle_of_reads isRead state

/-- The program does nothing or ends as another one. -/
def EndsAs (env : Env) (world : World) (program rest : Prog ε α) : Prop :=
  (program.run (handle env) world).2 = world ∨
    program.run (handle env) world = rest.run (handle env) world

/-- A check that only reads, before a program that ends as another one. -/
theorem EndsAs.check {first : Prog ε β} {middle : β → Prog ε α} {rest : Prog ε α}
    (reads : first.Uses Op.Reads) (later : ∀ value, EndsAs env world (middle value) rest) :
    EndsAs env world (first >>= middle) rest := by
  have kept : (first.run (handle env) world).2 = world := run_of_reads reads
  rw [EndsAs, run_bind]
  cases ran : first.run (handle env) world with
  | mk outcome after =>
      rw [ran] at kept
      obtain rfl : after = world := kept
      cases outcome with
      | ok value => exact later value
      | err error => exact .inl rfl
      | aborted why => exact .inl rfl

/-- Renaming the value of a program does not change what it does. -/
theorem run_bind_ret_snd (program : Prog ε α) (rename : α → β) :
    ((program >>= fun value => .ret (rename value)).run (handle env) world).2 =
      (program.run (handle env) world).2 := by
  rw [run_bind]
  cases program.run (handle env) world with
  | mk outcome after => cases outcome <;> rfl

theorem enforceAuthorizedDomain_reads (domain : Option String) (id : KeyId) :
    (enforceAuthorizedDomain domain id).Uses Op.Reads := by
  cases domain with
  | none => trivial
  | some name =>
      refine Uses.bind (resolveDomainForKey_reads _).mapErr fun resolved => ?_
      split
      · trivial
      · trivial

theorem verifySignature_reads (id : KeyId) (message : Bytes) (payload : SignedPayload) :
    (ks.verifySignature id message payload).Uses Op.Reads := by
  refine Uses.mapErr (Uses.bind (get_reads id).mapErr fun record => ?_)
  split
  · trivial
  · split
    · trivial
    · refine Uses.bind uses_ofOption fun version => ?_
      refine Uses.bind (decodeHex_reads _ _) fun vkBytes => ?_
      exact Uses.bind (decodeHex_reads _ _) fun sigBytes => uses_ofExcept

/-- The authorized entry points check their context and make their call. -/
theorem encryptAuthorized_endsAs {boundary : Boundary} {authz : Core.AuthorizedContext}
    {plaintext : Bytes} {aad : Aad} {context : Context} :
    EndsAs env world (ks.encryptAuthorized boundary authz plaintext aad context)
      (ks.encrypt ⟨authz.keyId⟩ plaintext aad context) :=
  .check uses_ofExcept fun _ => .check uses_ofExcept fun _ =>
    .check (enforceAuthorizedDomain_reads _ _).mapErr fun _ => .inr rfl

theorem decryptAuthorized_endsAs {boundary : Boundary} {authz : Core.AuthorizedContext}
    {blob : EncryptedBlob} {aad : Aad} {context : Context} :
    EndsAs env world (ks.decryptAuthorized boundary authz blob aad context)
      (ks.decrypt blob aad context) :=
  .check uses_ofExcept fun _ => .check uses_ofExcept fun _ =>
    .check (enforceAuthorizedDomain_reads _ _).mapErr fun _ => .inr rfl

theorem signAuthorized_endsAs {boundary : Boundary} {authz : Core.AuthorizedContext}
    {message : Bytes} :
    EndsAs env world (ks.signAuthorized boundary authz message) (ks.sign ⟨authz.keyId⟩ message) :=
  .check uses_ofExcept fun _ => .check uses_ofExcept fun _ => .inr rfl

/-- A call of the keystore, seen from a route. -/
theorem keys_play (ks : Keystore) (app : AppState) (moment : Moment) (call : Call)
    (program : Prog CallError α)    (rename : α → CallValue)
    (code : ∀ fuel, call.prog ks fuel = program >>= fun value => .ret (rename value)) :
    (app.play moment program).2.world.keys = ((moment.step call).run ks app.world).2.keys := by
  rw [Step.run, Call.run]
  change _ = ((call.prog ks _).run (handle moment.env) { app.world with now := moment.now }).2.keys
  rw [code, run_bind_ret_snd]
  rfl

/-- A program that only reads leaves the records alone. -/
theorem keys_play_of_reads (app : AppState) (moment : Moment) {program : Prog ε α}
    (reads : program.Uses Op.Reads) :
    (app.play moment program).2.world.keys = app.world.keys := by
  change (program.run (handle moment.env) { app.world with now := moment.now }).2.keys = _
  rw [run_of_reads reads]

/-- A program that ends as a call leaves the records as the call does, or alone. -/
theorem keys_play_of_endsAs (ks : Keystore) (app : AppState) (moment : Moment) (call : Call)
    (program rest : Prog CallError α) (rename : α → CallValue)
    (code : ∀ fuel, call.prog ks fuel = rest >>= fun value => .ret (rename value))
    (ends : EndsAs moment.env { app.world with now := moment.now } program rest) :
    (app.play moment program).2.world.keys = app.world.keys ∨
      (app.play moment program).2.world.keys = ((moment.step call).run ks app.world).2.keys := by
  change (program.run (handle moment.env) { app.world with now := moment.now }).2.keys = _ ∨
    (program.run (handle moment.env) { app.world with now := moment.now }).2.keys = _
  rcases ends with stopped | passed
  · rw [stopped]
    exact .inl rfl
  · rw [passed]
    exact .inr (keys_play ks app moment call rest rename code)

/-- An operation leaves the records alone or makes its call. -/
theorem serve_keys (ks : Keystore) (moment : Moment) (app : AppState) (op : Service) :
    (serve ks moment app op).2.world.keys = app.world.keys ∨
      ∃ call, op.call? = some call ∧
        (serve ks moment app op).2.world.keys = ((moment.step call).run ks app.world).2.keys := by
  cases op with
  | utcNow => exact .inl rfl
  | randomBytes => exact .inl rfl
  | listKeys => exact .inl rfl
  | authorize request => exact .inl rfl
  | registerKey keyId domainId => exact .inl rfl
  | revokeKey keyId => exact .inl rfl
  | get id =>
      have kept := keys_play_of_reads app moment (get_reads id)
      exact .inl kept
  | resolveDomainForKey id =>
      have kept := keys_play_of_reads app moment (resolveDomainForKey_reads id)
      exact .inl kept
  | verifySignature id message payload =>
      have reads : (ks.verifySignature id message payload).Uses Op.Reads :=
        verifySignature_reads id message payload
      have kept := keys_play_of_reads app moment reads
      exact .inl kept
  | generate name keyType policyId parentId =>
      have changed := keys_play ks app moment (.generate name keyType policyId parentId)
        (ks.generate name keyType policyId parentId) .key fun _ => rfl
      exact .inr ⟨_, rfl, changed⟩
  | generateSigningKey name policyId parentId =>
      have changed := keys_play ks app moment (.generateSigningKey name policyId parentId)
        (ks.generateSigningKey name policyId parentId) .key fun _ => rfl
      exact .inr ⟨_, rfl, changed⟩
  | activate id =>
      have changed := keys_play ks app moment (.activate id) (Keystore.activate id) (fun _ => .done)
        fun _ => rfl
      exact .inr ⟨_, rfl, changed⟩
  | rotate id =>
      have changed := keys_play ks app moment (.rotate id) (ks.rotate id) .key fun _ => rfl
      exact .inr ⟨_, rfl, changed⟩
  | revoke id =>
      have changed := keys_play ks app moment (.revoke id) (Keystore.revoke id) (fun _ => .done)
        fun _ => rfl
      exact .inr ⟨_, rfl, changed⟩
  | destroy id =>
      have changed := keys_play ks app moment (.destroy id) (Keystore.destroy id) (fun _ => .done)
        fun _ => rfl
      exact .inr ⟨_, rfl, changed⟩
  | expireDueKeys =>
      have changed := keys_play ks app moment .expireDueKeys ks.expireDueKeys .report fun _ => rfl
      exact .inr ⟨_, rfl, changed⟩
  | encryptAuthorized authz plaintext aad context =>
      have ends := keys_play_of_endsAs ks app moment (.encrypt ⟨authz.keyId⟩ plaintext aad context)
        (ks.encryptAuthorized (app.boundary moment) authz plaintext aad context)
        (ks.encrypt ⟨authz.keyId⟩ plaintext aad context) .blob (fun _ => rfl) encryptAuthorized_endsAs
      exact ends.imp_right fun changed => ⟨_, rfl, changed⟩
  | decryptAuthorized authz blob aad context =>
      have ends := keys_play_of_endsAs ks app moment (.decrypt blob aad context)
        (ks.decryptAuthorized (app.boundary moment) authz blob aad context)
        (ks.decrypt blob aad context) .plaintext (fun _ => rfl) decryptAuthorized_endsAs
      exact ends.imp_right fun changed => ⟨_, rfl, changed⟩
  | signAuthorized authz message =>
      have ends := keys_play_of_endsAs ks app moment (.sign ⟨authz.keyId⟩ message)
        (ks.signAuthorized (app.boundary moment) authz message)
        (ks.sign ⟨authz.keyId⟩ message) .signature (fun _ => rfl) signAuthorized_endsAs
      exact ends.imp_right fun changed => ⟨_, rfl, changed⟩

/-- The invariant rule for one operation. -/
theorem serve_keys_invariant {op : Service} (invariant : Keys → Prop)
    (preserves : ∀ call keys record, op.call? = some call → invariant keys →
      call.MayWrite ks moment.env app.world.keys keys record → invariant (keys.insert record))
    (holds : invariant app.world.keys) : invariant (serve ks moment app op).2.world.keys := by
  rcases serve_keys ks moment app op with unchanged | ⟨call, calls, changed⟩
  · rwa [unchanged]
  · rw [changed]
    refine Step.keys_invariant invariant ?_ holds
    intro keys record held mayWrite
    exact preserves call keys record calls held mayWrite

/-! ### The enforcer -/

/-- The enforcer does not let a key pass. -/
def Denied (enforcer : Core.StateEnforcer) (keyId : String) : Prop :=
  keyId ∈ enforcer.revokedKeys ∨ keyId ∉ enforcer.validKeys

/-- A key that does not pass is denied every context, as subject or as recipient. -/
theorem Denied.answer {enforcer : Core.StateEnforcer} {keyId : String}
    (denied : Denied enforcer keyId) (sha256 : Bytes → SizedBytes 32) (issue : Core.Issue)
    (request : Core.Request)
    (names : request.subject = keyId ∨ request.recipient = some keyId) :
    ∃ denial, enforcer.answer sha256 issue request = (.error denial, enforcer) := by
  cases answered : enforcer.answer sha256 issue request with
  | mk outcome after =>
      cases outcome with
      | error denial =>
          obtain rfl := Core.StateEnforcer.eq_of_answer_error answered
          exact ⟨denial, rfl⟩
      | ok context =>
          have granted := Core.StateEnforcer.granted_of_answer answered
          rcases names with rfl | named
          · obtain ⟨notRevoked, valid, -⟩ :=
              Core.StateEnforcer.validateKey_eq_none_iff.mp granted.subject
            exact absurd denied (by simp [Denied, notRevoked, valid])
          · obtain ⟨valid, notRevoked⟩ := granted.recipient keyId named
            exact absurd denied (by simp [Denied, notRevoked, valid])

/-- The operations that register no key. -/
def Service.RegistersNothing : Service → Prop
  | .registerKey _ _ => False
  | _ => True

theorem Denied.of_sameKeys {enforcer after : Core.StateEnforcer} {keyId : String}
    (denied : Denied enforcer keyId) (same : enforcer.SameKeys after) : Denied after keyId := by
  rwa [Denied, same.revoked, same.valid]

/-- What the keystore leaves of the enforcer when it checks a context. -/
theorem sameKeys_validateAuthz (authz : Core.AuthorizedContext) :
    app.enforcer.SameKeys
      (((app.boundary moment).validateAuthz authz).2.getD app.enforcer) := by
  rw [AppState.boundary, Boundary.validateAuthz]
  change app.enforcer.SameKeys (authz.validate app.enforcer moment.reading).2
  rw [Core.StateEnforcer.validate_snd]
  exact Core.StateEnforcer.sameKeys_validateCapability _ _

/-- Only a registration can let a key pass again. -/
theorem Denied.serve {op : Service} {keyId : String} (denied : Denied app.enforcer keyId)
    (nothing : op.RegistersNothing) : Denied (serve ks moment app op).2.enforcer keyId := by
  cases op with
  | registerKey other domainId => exact nothing.elim
  | revokeKey other =>
      rcases denied with revoked | invalid
      · exact .inl (Finset.mem_insert_of_mem revoked)
      · exact .inr fun valid => invalid (Finset.mem_of_mem_erase valid)
  | authorize request => exact denied.of_sameKeys (Core.StateEnforcer.sameKeys_answer _ _)
  | encryptAuthorized authz plaintext aad context =>
      exact denied.of_sameKeys (sameKeys_validateAuthz authz)
  | decryptAuthorized authz blob aad context =>
      exact denied.of_sameKeys (sameKeys_validateAuthz authz)
  | signAuthorized authz message => exact denied.of_sameKeys (sameKeys_validateAuthz authz)
  | _ => exact denied

/-! ### What the routes perform -/

/-- The operations that only ask. -/
def Service.Asks (op : Service) : Prop := op.RegistersNothing ∧ op.call? = none

/-- What a route performs besides asking. -/
def Request.ActsBy {code : AssertionCode} : Request code → Service → Prop
  | .expireDue, .expireDueKeys => True
  | .generateKey _, .generate _ _ _ _ => True
  | .generateKey _, .generateSigningKey _ _ _ => True
  | .generateKey _, .registerKey _ _ => True
  | .activateKey id, .activate key => key = ⟨id⟩
  | .rotateKey id, .rotate key => key = ⟨id⟩
  | .rotateKey _, .registerKey _ _ => True
  | .revokeKey id, .revoke key => key = ⟨id⟩
  | .destroyKey id, .destroy key => key = ⟨id⟩
  | .encrypt _ _, .encryptAuthorized _ _ _ _ => True
  | .decrypt _, .decryptAuthorized _ _ _ _ => True
  | .sign _ _, .signAuthorized _ _ => True
  | .issueAssertion _ _, .signAuthorized _ _ => True
  | _, _ => False

section Uses

variable {allowed : Service → Prop} {auth : AuthContext}

theorem settle_uses (outcome : Outcome ε α) :
    (settle outcome : Program Service Service.Ret δ (Except ε α)).Uses allowed := by
  cases outcome <;> trivial

theorem ask_uses {op : Service} (permitted : allowed op) :
    (ask op : Program Service Service.Ret δ op.Ret).Uses allowed :=
  ⟨permitted, fun _ => trivial⟩

theorem authorizeDomainAccess_uses {operation : Operation} {target : Option KeyId}
    (resolves : ∀ id, allowed (.resolveDomainForKey id)) :
    (authorizeDomainAccess auth operation target).Uses allowed := by
  have targeted : (authorizeTarget auth operation target).Uses allowed := by
    apply Uses.bind uses_ofOption
    intro id
    apply Uses.bind (Uses.bind (ask_uses (resolves id)) settle_uses)
    intro resolved
    cases resolved with
    | error error => trivial
    | ok domain =>
        cases auth.allowedDomains with
        | none => trivial
        | some domains =>
            simp only
            split <;> trivial
  unfold authorizeDomainAccess
  split
  · trivial
  · cases operation with
    | listKeys => trivial
    | createRoot => trivial
    | createDomain => trivial
    | _ => exact targeted

theorem requireAuthorized_uses {request : Core.Request} (authorizes : allowed (.authorize request)) :
    (requireAuthorized request).Uses allowed := by
  apply Uses.bind (ask_uses authorizes)
  intro answer
  cases answer <;> trivial

theorem domainToRegister_uses {id : KeyId} (resolves : allowed (.resolveDomainForKey id)) :
    (domainToRegister id).Uses allowed :=
  Uses.bind (Uses.bind (ask_uses resolves) settle_uses) fun _ => trivial

theorem expireDue_uses (expires : allowed .expireDueKeys) (auth : AuthContext) :
    (expireDue auth).Uses allowed := by
  apply Uses.bind uses_ofExcept
  intro _
  apply Uses.bind (Uses.bind (ask_uses expires) settle_uses)
  intro report
  cases report <;> trivial

theorem createOfType_uses {req : GenerateKeyReq} {keyType : KeyType}
    (generates : ∀ name keyType policyId parentId,
      allowed (.generate name keyType policyId parentId))
    (signs : ∀ name policyId parentId, allowed (.generateSigningKey name policyId parentId)) :
    (createOfType req keyType).Uses allowed := by
  unfold createOfType
  dsimp only
  split
  · cases req.parentId with
    | none => trivial
    | some parent => exact Uses.bind (Uses.bind (ask_uses (signs _ _ _)) settle_uses) fun _ => trivial
  · exact Uses.bind (Uses.bind (ask_uses (generates _ _ _ _)) settle_uses) fun _ => trivial

variable (asks : ∀ op, op.Asks → allowed op)
include asks

theorem getStatus_uses (auth : AuthContext) : (getStatus auth).Uses allowed := by
  apply Uses.bind uses_ofExcept
  intro _
  apply Uses.bind (ask_uses (asks .listKeys ⟨trivial, rfl⟩))
  intro listed
  cases listed <;> trivial

theorem filterKeys_uses (domains : List String) (keys : List KeyMetadata) :
    (filterKeys domains keys).Uses allowed := by
  induction keys with
  | nil => trivial
  | cons record rest ih =>
      apply Uses.bind (Uses.bind (ask_uses (asks (.resolveDomainForKey _) ⟨trivial, rfl⟩)) settle_uses)
      intro resolved
      apply Uses.bind ih
      intro later
      cases resolved with
      | error error => trivial
      | ok domain =>
          simp only
          split <;> trivial

theorem listKeysHandler_uses (auth : AuthContext) : (listKeysHandler auth).Uses allowed := by
  apply Uses.bind (ask_uses (asks .listKeys ⟨trivial, rfl⟩))
  intro listed
  cases listed with
  | error error => trivial
  | ok keys =>
      simp only
      split
      · trivial
      · exact filterKeys_uses asks _ keys

theorem getKey_uses (auth : AuthContext) (id : String) : (getKey auth id).Uses allowed := by
  apply Uses.bind (authorizeDomainAccess_uses fun _ => asks _ ⟨trivial, rfl⟩)
  intro _
  apply Uses.bind (Uses.bind (ask_uses (asks (.get _) ⟨trivial, rfl⟩)) settle_uses)
  intro record
  cases record <;> trivial

theorem generateKey_uses (generates : ∀ name keyType policyId parentId,
      allowed (.generate name keyType policyId parentId))
    (signs : ∀ name policyId parentId, allowed (.generateSigningKey name policyId parentId))
    (registers : ∀ id domain, allowed (.registerKey id domain)) (auth : AuthContext)
    (req : GenerateKeyReq) : (generateKey auth req).Uses allowed := by
  apply Uses.bind uses_ofOption
  intro keyType
  apply Uses.bind (authorizeDomainAccess_uses fun _ => asks _ ⟨trivial, rfl⟩)
  intro _
  apply Uses.bind (createOfType_uses generates signs)
  intro created
  cases created with
  | error error => trivial
  | ok id =>
      apply Uses.bind (domainToRegister_uses (asks _ ⟨trivial, rfl⟩))
      intro domain
      exact Uses.bind (ask_uses (registers _ _)) fun _ => trivial

theorem activateKey_uses {id : String} (activates : allowed (.activate ⟨id⟩))
    (auth : AuthContext) : (activateKey auth id).Uses allowed := by
  apply Uses.bind (authorizeDomainAccess_uses fun _ => asks _ ⟨trivial, rfl⟩)
  intro domain
  apply Uses.bind (requireAuthorized_uses (asks _ ⟨trivial, rfl⟩))
  intro _
  apply Uses.bind (Uses.bind (ask_uses activates) settle_uses)
  intro activated
  cases activated <;> trivial

theorem rotateKey_uses {id : String} (rotates : allowed (.rotate ⟨id⟩))
    (registers : ∀ id domain, allowed (.registerKey id domain)) (auth : AuthContext) :
    (rotateKey auth id).Uses allowed := by
  apply Uses.bind (ask_uses (asks .utcNow ⟨trivial, rfl⟩))
  intro now
  apply Uses.bind (authorizeDomainAccess_uses fun _ => asks _ ⟨trivial, rfl⟩)
  intro domain
  apply Uses.bind (requireAuthorized_uses (asks _ ⟨trivial, rfl⟩))
  intro _
  apply Uses.bind (Uses.bind (ask_uses rotates) settle_uses)
  intro rotated
  cases rotated with
  | error error => trivial
  | ok newId => exact Uses.bind (ask_uses (registers _ _)) fun _ => trivial

theorem revokeKey_uses {id : String} (revokes : allowed (.revoke ⟨id⟩)) (auth : AuthContext) :
    (revokeKey auth id).Uses allowed := by
  apply Uses.bind (authorizeDomainAccess_uses fun _ => asks _ ⟨trivial, rfl⟩)
  intro domain
  apply Uses.bind (requireAuthorized_uses (asks _ ⟨trivial, rfl⟩))
  intro _
  apply Uses.bind (Uses.bind (ask_uses revokes) settle_uses)
  intro revoked
  cases revoked with
  | error error => trivial
  | ok done => exact ask_uses (asks _ ⟨trivial, rfl⟩)

theorem destroyKey_uses {id : String} (destroys : allowed (.destroy ⟨id⟩)) (auth : AuthContext) :
    (destroyKey auth id).Uses allowed := by
  apply Uses.bind (authorizeDomainAccess_uses fun _ => asks _ ⟨trivial, rfl⟩)
  intro _
  apply Uses.bind (Uses.bind (ask_uses destroys) settle_uses)
  intro destroyed
  cases destroyed with
  | error error => trivial
  | ok done => exact ask_uses (asks _ ⟨trivial, rfl⟩)

theorem encryptData_uses (encrypts : ∀ authz plaintext aad context,
      allowed (.encryptAuthorized authz plaintext aad context))
    (auth : AuthContext) (id : String) (req : EncryptReq) :
    (encryptData auth id req).Uses allowed := by
  apply Uses.bind (authorizeDomainAccess_uses fun _ => asks _ ⟨trivial, rfl⟩)
  intro domain
  apply Uses.bind (requireAuthorized_uses (asks _ ⟨trivial, rfl⟩))
  intro authz
  apply Uses.bind (Uses.bind (ask_uses (encrypts _ _ _ _)) settle_uses)
  intro encrypted
  cases encrypted with
  | ok blob => trivial
  | error error =>
      simp only
      split <;> trivial

theorem decryptData_uses (decrypts : ∀ authz blob aad context,
      allowed (.decryptAuthorized authz blob aad context))
    (auth : AuthContext) (body : Option DecryptReq) : (decryptData auth body).Uses allowed := by
  cases body with
  | none => trivial
  | some req =>
      apply Uses.bind (authorizeDomainAccess_uses fun _ => asks _ ⟨trivial, rfl⟩)
      intro domain
      apply Uses.bind (ask_uses (asks (.authorize _) ⟨trivial, rfl⟩))
      intro answer
      cases answer with
      | error reason => trivial
      | ok authz =>
          apply Uses.bind (Uses.bind (ask_uses (decrypts _ _ _ _)) settle_uses)
          intro decrypted
          cases decrypted <;> trivial

theorem signData_uses (signs : ∀ authz message, allowed (.signAuthorized authz message))
    (auth : AuthContext) (id payloadHex : String) : (signData auth id payloadHex).Uses allowed := by
  apply Uses.bind uses_ofExcept
  intro payload
  apply Uses.bind (authorizeDomainAccess_uses fun _ => asks _ ⟨trivial, rfl⟩)
  intro domain
  apply Uses.bind (requireAuthorized_uses (asks _ ⟨trivial, rfl⟩))
  intro authz
  apply Uses.bind (Uses.bind (ask_uses (signs _ _)) settle_uses)
  intro signed
  cases signed with
  | ok payload => trivial
  | error error =>
      simp only
      split <;> trivial

theorem lookupReadableKeyOrDeny_uses (auth : AuthContext) (id : KeyId) :
    (lookupReadableKeyOrDeny auth id).Uses allowed := by
  apply Uses.bind (Uses.bind (ask_uses (asks (.get _) ⟨trivial, rfl⟩)) settle_uses)
  intro record
  cases record with
  | error error =>
      simp only
      split <;> trivial
  | ok record =>
      apply Uses.bind (domainToRegister_uses (asks _ ⟨trivial, rfl⟩))
      intro domain
      split <;> trivial

theorem verifySignatureHandler_uses (auth : AuthContext) (req : VerifyReq) :
    (verifySignatureHandler auth req).Uses allowed := by
  apply Uses.bind (lookupReadableKeyOrDeny_uses asks _ _)
  intro _
  apply Uses.bind uses_ofExcept
  intro payload
  apply Uses.bind (ask_uses (asks .utcNow ⟨trivial, rfl⟩))
  intro now
  apply Uses.bind (Uses.bind (ask_uses (asks (.verifySignature _ _ _) ⟨trivial, rfl⟩)) settle_uses)
  intro valid
  cases valid with
  | ok valid => trivial
  | error error =>
      simp only
      split <;> trivial

theorem getVerifyingKey_uses (auth : AuthContext) (id : String) :
    (getVerifyingKey auth id).Uses allowed := by
  apply Uses.bind (lookupReadableKeyOrDeny_uses asks _ _)
  intro record
  split
  · trivial
  · split
    · trivial
    · exact Uses.bind uses_ofExcept fun _ => trivial

theorem issueAssertion_uses (signs : ∀ authz message, allowed (.signAuthorized authz message))
    (code : AssertionCode) (auth : AuthContext) (signingKeyId : String) (claims : code.Claims) :
    (issueAssertion code auth signingKeyId claims).Uses allowed := by
  apply Uses.bind (authorizeDomainAccess_uses fun _ => asks _ ⟨trivial, rfl⟩)
  intro domain
  apply Uses.bind (Uses.bind (ask_uses (asks (.get _) ⟨trivial, rfl⟩)) settle_uses)
  intro record
  cases record with
  | error error => trivial
  | ok record =>
      simp only
      split
      · trivial
      · apply Uses.bind (ask_uses (asks .utcNow ⟨trivial, rfl⟩))
        intro now
        apply Uses.bind (ask_uses (asks .randomBytes ⟨trivial, rfl⟩))
        intro random
        apply Uses.bind uses_ofExcept
        intro unsigned
        apply Uses.bind uses_ofExcept
        intro input
        apply Uses.bind (requireAuthorized_uses (asks _ ⟨trivial, rfl⟩))
        intro authz
        apply Uses.bind (Uses.bind (ask_uses (signs _ _)) settle_uses)
        intro signed
        cases signed <;> trivial

theorem verifyAssertion_uses (code : AssertionCode) (auth : AuthContext) (signingKeyId : String)
    (assertion : code.Assertion) :
    (verifyAssertion code auth signingKeyId assertion).Uses allowed := by
  apply Uses.bind (lookupReadableKeyOrDeny_uses asks _ _)
  intro record
  split
  · trivial
  · apply Uses.bind uses_ofExcept
    intro bytes
    exact Uses.bind (ask_uses (asks .utcNow ⟨trivial, rfl⟩)) fun now => trivial

end Uses

/-- A route asks, and performs what it is for. -/
theorem Request.route_uses {code : AssertionCode} (request : Request code) (auth : AuthContext) :
    (request.route auth).Uses fun op => op.Asks ∨ request.ActsBy op := by
  have asks : ∀ op : Service, op.Asks → op.Asks ∨ request.ActsBy op := fun op asked => .inl asked
  cases request with
  | getStatus => exact Uses.bind (getStatus_uses asks auth) fun _ => trivial
  | getMetrics => exact Uses.bind uses_ofExcept fun _ => trivial
  | getThreat => exact Uses.bind uses_ofExcept fun _ => trivial
  | postThreatEvent => exact Uses.bind uses_ofExcept fun _ => trivial
  | resetThreat => exact Uses.bind uses_ofExcept fun _ => trivial
  | getPolicies => exact Uses.bind uses_ofExcept fun _ => trivial
  | expireDue => exact Uses.bind (expireDue_uses (.inr trivial) auth) fun _ => trivial
  | listKeys => exact Uses.bind (listKeysHandler_uses asks auth) fun _ => trivial
  | generateKey req =>
      exact Uses.bind (generateKey_uses asks (fun _ _ _ _ => .inr trivial)
        (fun _ _ _ => .inr trivial) (fun _ _ => .inr trivial) auth req) fun _ => trivial
  | getKey id => exact Uses.bind (getKey_uses asks auth id) fun _ => trivial
  | activateKey id => exact Uses.bind (activateKey_uses asks (.inr rfl) auth) fun _ => trivial
  | rotateKey id =>
      exact Uses.bind (rotateKey_uses asks (.inr rfl) (fun _ _ => .inr trivial) auth)
        fun _ => trivial
  | revokeKey id => exact Uses.bind (revokeKey_uses asks (.inr rfl) auth) fun _ => trivial
  | destroyKey id => exact Uses.bind (destroyKey_uses asks (.inr rfl) auth) fun _ => trivial
  | encrypt id req =>
      exact Uses.bind (encryptData_uses asks (fun _ _ _ _ => .inr trivial) auth id req)
        fun _ => trivial
  | decrypt body =>
      exact Uses.bind (decryptData_uses asks (fun _ _ _ _ => .inr trivial) auth body)
        fun _ => trivial
  | sign id payloadHex =>
      exact Uses.bind (signData_uses asks (fun _ _ => .inr trivial) auth id payloadHex)
        fun _ => trivial
  | verify req => exact Uses.bind (verifySignatureHandler_uses asks auth req) fun _ => trivial
  | issueAssertion signingKeyId claims =>
      exact Uses.bind (issueAssertion_uses asks (fun _ _ => .inr trivial) code auth signingKeyId
        claims) fun _ => trivial
  | verifyAssertion signingKeyId assertion =>
      exact Uses.bind (verifyAssertion_uses asks code auth signingKeyId assertion) fun _ => trivial
  | verifyingKey id => exact Uses.bind (getVerifyingKey_uses asks auth id) fun _ => trivial
  | listApiKeys => trivial
  | createApiKey req draw => trivial
  | revokeApiKey id saved => trivial
  | whoami => trivial

end Citadel.Api
