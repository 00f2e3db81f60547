import Citadel.Api.Opacity
import Citadel.Keystore.Dependence

/-!
# Whether a foreign key exists

A caller with a list of domains names a key that is not in any of them. Two helpers refuse
it: one looks the key up and answers a missing and a foreign key alike, the other resolves
the domain of the key first and says whether that worked.
-/

namespace Citadel.Api

open Envelope Program Keystore

variable {ks : Keystore} {code : AssertionCode} {hashApiKey : String → SizedBytes 32}

/-! ### Resolving a domain when reads may fail -/

/-- The keys that resolving the domain of a key reads. -/
def lineage (keys : Keys) : Nat → KeyId → List KeyId
  | 0, _ => []
  | left + 1, current =>
      match keys.find? current with
      | none => [current]
      | some record =>
          if record.keyType = .domain ∨ record.keyType = .root then [current]
          else
            match record.parentId with
            | none => [current]
            | some parentId => current :: lineage keys left parentId

/-- Every key up to the domain of a key is read. -/
def ReadsLineage (env : Env) (keys : Keys) (id : KeyId) : Prop :=
  ∀ key ∈ lineage keys 10 id, env.getFault key = none

section Resolving

variable {env : Env} {world : World} {id current domain : KeyId} {left : Nat}

theorem get_missing (read : env.getFault id = none) (absent : world.keys.find? id = none) :
    (Keystore.get id).run (handle env) world = (.err (.keyNotFound id), world) := by
  simp [Keystore.get, storageGet, call, handle, read, absent, faulty, Program.ofExcept,
    Program.ofOption]

theorem get_faulted {error : KeystoreError} (fault : env.getFault id = some error) :
    (Keystore.get id).run (handle env) world = (.err error, world) := by
  simp [Keystore.get, storageGet, call, handle, fault, faulty, Program.ofExcept]

/-- Resolving a domain works when every key on the way is read, and otherwise fails with
the error of the first that is not. -/
theorem resolve_run (env : Env) (world : World) (start : KeyId)
    (resolves : ResolvesTo world.keys left current domain) (depth : Nat) :
    ((∀ key ∈ lineage world.keys left current, env.getFault key = none) ∧
      (resolveDomainFrom start left depth current).run (handle env) world = (.ok domain, world)) ∨
    ((¬ ∀ key ∈ lineage world.keys left current, env.getFault key = none) ∧
      ∃ key error, env.getFault key = some error ∧
        (resolveDomainFrom start left depth current).run (handle env) world =
          (.err error, world)) := by
  induction resolves generalizing depth with
  | @domain left current record found isDomain =>
      have read : lineage world.keys (left + 1) current = [current] := by
        simp [lineage, found, isDomain]
      rw [read]
      cases fault : env.getFault current with
      | none =>
          left
          refine ⟨by simp [fault], ?_⟩
          rw [resolveDomainFrom, run_bind, get_run fault found, andThen_ok, isDomain]
          exact congrArg (fun id => (Outcome.ok id, world)) (Table.key_of_find? found)
      | some error =>
          right
          refine ⟨by simp [fault], current, error, fault, ?_⟩
          rw [resolveDomainFrom, run_bind, get_faulted fault, andThen_err]
  | @parent left current parentId domainId record found notDomain notRoot child resolves ih =>
      have read : lineage world.keys (left + 1) current =
          current :: lineage world.keys left parentId := by
        simp [lineage, found, notDomain, notRoot, child]
      rw [read]
      cases fault : env.getFault current with
      | none =>
          have continues : (resolveDomainFrom start (left + 1) depth current).run (handle env) world =
              (resolveDomainFrom start left (depth + 1) parentId).run (handle env) world := by
            rw [resolveDomainFrom, run_bind, get_run fault found, andThen_ok, child]
            split
            · rename_i isDomain
              exact absurd isDomain notDomain
            · rename_i isRoot
              exact absurd isRoot notRoot
            · rfl
          rw [continues]
          simpa [fault] using ih (depth + 1)
      | some error =>
          right
          refine ⟨by simp [fault], current, error, fault, ?_⟩
          rw [resolveDomainFrom, run_bind, get_faulted fault, andThen_err]

end Resolving

/-! ### The helper that resolves first -/

/-- The operations that name a key and say why they refuse it. -/
def Operation.Tells : Operation → Prop
  | .readKey => True
  | .encrypt => True
  | .activateKey => True
  | .rotateKey => True
  | .revokeKey => True
  | .destroyKey => True
  | _ => False

/-- What becomes of a resolved domain. -/
def admitted (allowed : List String) (operation : Operation) :
    Outcome KeystoreError KeyId → Outcome ApiError (Option KeyId)
  | .ok domain =>
      if domain.text ∈ allowed then .ok (some domain) else .err (deniedFor operation domain)
  | .err error => .err (unresolvedFor operation error)
  | .aborted why => .aborted why

section Authorizing

variable {auth : AuthContext} {allowed : List String} {operation : Operation} {app : AppState}
  {moments : Moments} {id domain : KeyId}

/-- The authorization of a caller with a list of domains. -/
theorem authorizeDomainAccess_run (confined : auth.allowedDomains = some allowed)
    (tells : operation.Tells) :
    ((authorizeDomainAccess auth operation (some id)).run (answering ks) (app, moments)).1 =
      admitted allowed operation ((resolveDomainForKey id).run (handle (moments 0).env)
        { app.world with now := (moments 0).now }).1 := by
  have notAdmin := AuthContext.isGlobalAdmin_of_domains confined
  have targeted : authorizeDomainAccess auth operation (some id) =
      authorizeTarget auth operation (some id) := by
    cases operation <;> first | exact tells.elim | simp [authorizeDomainAccess, notAdmin]
  rw [targeted]
  simp only [authorizeTarget, Program.ofOption, ret_bind, confined]
  rw [run_bind, call_bind, run_perform]
  change (andThen _ _ ((settle ((resolveDomainForKey id).run (handle (moments 0).env)
    { app.world with now := (moments 0).now }).1).run _ _)).1 = _
  generalize ((resolveDomainForKey id).run (handle (moments 0).env)
    { app.world with now := (moments 0).now }).1 = outcome
  cases outcome with
  | ok domain =>
      simp only [settle, run_ret, andThen_ok, admitted]
      split <;> rfl
  | err error => rfl
  | aborted why => rfl

/-- A key that cannot be read is refused with the error of the store. -/
theorem authorize_unread {error : KeystoreError} (confined : auth.allowedDomains = some allowed)
    (tells : operation.Tells) (fault : (moments 0).env.getFault id = some error) :
    ((authorizeDomainAccess auth operation (some id)).run (answering ks) (app, moments)).1 =
      .err (unresolvedFor operation error) := by
  rw [authorizeDomainAccess_run confined tells, resolveDomainForKey, resolveDomainFrom, run_bind,
    get_faulted fault]
  rfl

/-- A missing key is refused as such. -/
theorem authorize_missing (confined : auth.allowedDomains = some allowed) (tells : operation.Tells)
    (read : (moments 0).env.getFault id = none) (absent : app.world.keys.find? id = none) :
    ((authorizeDomainAccess auth operation (some id)).run (answering ks) (app, moments)).1 =
      .err (unresolvedFor operation (.keyNotFound id)) := by
  have gone : ({ app.world with now := (moments 0).now } : World).keys.find? id = none := absent
  rw [authorizeDomainAccess_run confined tells, resolveDomainForKey, resolveDomainFrom, run_bind,
    get_missing read gone]
  rfl

/-- The backend's own failures are storage errors. -/
def StorageFaults (moments : Moments) : Prop :=
  ∀ position id error, (moments position).env.getFault id = some error →
    ∃ message, error = .storageError message

/-- The text of a storage error is not that of a missing key. -/
theorem display_ne (message : String) :
    (KeystoreError.storageError message).display ≠ (KeystoreError.keyNotFound id).display := by
  have storage : (KeystoreError.storageError message).display = "storage error: " ++ message := rfl
  have missing : (KeystoreError.keyNotFound id).display = "key not found: " ++ id.text := rfl
  rw [storage, missing]
  intro same
  have letters := congrArg String.toList same
  rw [String.toList_append, String.toList_append] at letters
  have first := congrArg List.head? letters
  simp at first

/-- A missing key is told from a store that fails. -/
theorem unresolvedFor_ne (tells : operation.Tells) (message : String) :
    unresolvedFor operation (.storageError message) ≠ unresolvedFor operation (.keyNotFound id) := by
  have texts : ∀ left right : String,
      "cannot resolve domain: " ++ left = "cannot resolve domain: " ++ right → left = right := by
    intro left right same
    have letters := congrArg String.toList same
    rw [String.toList_append, String.toList_append] at letters
    exact String.toList_inj.mp (List.append_cancel_left letters)
  intro same
  have told : "cannot resolve domain: " ++ (KeystoreError.storageError message).display =
      "cannot resolve domain: " ++ (KeystoreError.keyNotFound id).display := by
    cases operation <;> first | exact tells.elim | exact congrArg ApiError.error same
  exact display_ne message (texts _ _ told)

/-- A foreign key is refused in another way than a missing one. -/
theorem authorize_foreign (ks : Keystore) (confined : auth.allowedDomains = some allowed)
    (tells : operation.Tells) (faults : StorageFaults moments)
    (resolves : ResolvesTo app.world.keys 10 id domain) (outside : domain.text ∉ allowed) :
    ∃ error, ((authorizeDomainAccess auth operation (some id)).run (answering ks)
        (app, moments)).1 = .err error ∧
      error ≠ unresolvedFor operation (.keyNotFound id) := by
  rw [authorizeDomainAccess_run confined tells, resolveDomainForKey]
  rcases resolve_run (moments 0).env { app.world with now := (moments 0).now } id resolves 0 with
      ⟨-, ran⟩ | ⟨-, key, error, fault, ran⟩
  · rw [ran, admitted, if_neg outside]
    refine ⟨_, rfl, ?_⟩
    intro same
    have status := congrArg ApiError.status same
    cases operation <;> first | exact tells.elim | cases status
  · rw [ran]
    obtain ⟨message, rfl⟩ := faults 0 key error fault
    exact ⟨_, rfl, unresolvedFor_ne tells message⟩

/-! ### The helper that looks the key up -/

/-- The one answer to missing and foreign keys. -/
def accessDenied : ApiError := ⟨.forbidden, "access denied"⟩

/-- The lookup cannot read the key, or it reads every key up to its domain. -/
def LooksUp (moments : Moments) (keys : Keys) (id : KeyId) : Prop :=
  (moments 0).env.getFault id ≠ none ∨ ReadsLineage (moments 1).env keys id

/-- What a lookup does with a key it does not get. -/
theorem lookup_failed {error : KeystoreError} (confined : auth.allowedDomains = some allowed)
    (failed : (Keystore.get id).run (handle (moments 0).env)
      { app.world with now := (moments 0).now } =
        (.err error, { app.world with now := (moments 0).now })) :
    ((lookupReadableKeyOrDeny auth id).run (answering ks) (app, moments)).1 =
      .err accessDenied := by
  have notAdmin := AuthContext.isGlobalAdmin_of_domains confined
  have answered : (answering ks (.get id) (app, moments)).1 = .err error :=
    congrArg Prod.fst failed
  simp only [lookupReadableKeyOrDeny, call_bind, perform_bind, run_perform, answered, settle,
    ret_bind, notAdmin]
  rfl

theorem lookup_missing (confined : auth.allowedDomains = some allowed)
    (absent : app.world.keys.find? id = none) :
    ((lookupReadableKeyOrDeny auth id).run (answering ks) (app, moments)).1 =
      .err accessDenied := by
  cases fault : (moments 0).env.getFault id with
  | some error => exact lookup_failed confined (get_faulted fault)
  | none => exact lookup_failed confined (get_missing fault absent)

/-- What a lookup does with a foreign key that it gets: it is refused if its domain is
resolved, and let through if not. -/
theorem lookup_foreign (ks : Keystore) {record : KeyMetadata}
    (confined : auth.allowedDomains = some allowed) (read : (moments 0).env.getFault id = none)
    (found : app.world.keys.find? id = some record)
    (resolves : ResolvesTo app.world.keys 10 id domain) (outside : domain.text ∉ allowed) :
    (ReadsLineage (moments 1).env app.world.keys id ∧
      ((lookupReadableKeyOrDeny auth id).run (answering ks) (app, moments)).1 =
        .err accessDenied) ∨
    (¬ ReadsLineage (moments 1).env app.world.keys id ∧
      ((lookupReadableKeyOrDeny auth id).run (answering ks) (app, moments)).1 = .ok record) := by
  have answered : answering ks (.get id) (app, moments) =
      (.ok record, { app with world := { app.world with now := (moments 0).now } },
        fun position => moments (position + 1)) := by
    have got : (Keystore.get id).run (handle (moments 0).env)
        { app.world with now := (moments 0).now } = _ := get_run read found
    simp only [answering, serve, AppState.play, got]
  simp only [lookupReadableKeyOrDeny, call_bind, perform_bind, run_perform, answered, settle,
    ret_bind, domainToRegister]
  rcases resolve_run (moments 1).env { app.world with now := (moments 1).now } id resolves 0 with
      ⟨reads, ran⟩ | ⟨unread, key, error, fault, ran⟩
  · left
    refine ⟨reads, ?_⟩
    have resolved : (answering ks (.resolveDomainForKey id)
        ({ app with world := { app.world with now := (moments 0).now } },
          fun position => moments (position + 1))).1 = .ok domain := congrArg Prod.fst ran
    have unreadable : callerCanReadKey auth (some domain.text) = false := by
      simp [callerCanReadKey, confined, outside]
    simp only [resolved, ret_bind, Except.toOption, Option.map_some, unreadable]
    rfl
  · right
    refine ⟨unread, ?_⟩
    have unresolved : (answering ks (.resolveDomainForKey id)
        ({ app with world := { app.world with now := (moments 0).now } },
          fun position => moments (position + 1))).1 = .err error := congrArg Prod.fst ran
    simp only [unresolved, ret_bind, Except.toOption, Option.map_none]
    rfl

end Authorizing

/-! ### The routes -/

/-- The key that a route on a single key names. -/
def Request.target : Request code → Option String
  | .getKey id => some id
  | .activateKey id => some id
  | .rotateKey id => some id
  | .revokeKey id => some id
  | .destroyKey id => some id
  | .encrypt id _ => some id
  | .sign id _ => some id
  | .verify req => some req.keyId
  | .verifyingKey id => some id
  | .issueAssertion signingKeyId _ => some signingKeyId
  | .verifyAssertion signingKeyId _ => some signingKeyId
  | _ => none

/-- When a route does not tell a foreign key from a missing one. -/
def Request.Conceals (moments : Moments) (keys : Keys) (id : KeyId) : Request code → Prop
  | .verify _ => LooksUp moments keys id
  | .verifyingKey _ => LooksUp moments keys id
  | .verifyAssertion _ _ => LooksUp moments keys id
  | .sign _ payloadHex =>
      (∃ error, hexDecode (utf8 payloadHex) = .error error) ∨ (moments 0).env.getFault id ≠ none
  -- the time is asked for first
  | .rotateKey _ => (moments 1).env.getFault id ≠ none
  | _ => (moments 0).env.getFault id ≠ none

/-- The operation that a route authorizes, and how many operations come before. -/
def Request.gate : Request code → Option (Operation × Nat)
  | .getKey _ => some (.readKey, 0)
  | .activateKey _ => some (.activateKey, 0)
  | .rotateKey _ => some (.rotateKey, 1)
  | .revokeKey _ => some (.revokeKey, 0)
  | .destroyKey _ => some (.destroyKey, 0)
  | .encrypt _ _ => some (.encrypt, 0)
  | .sign _ payloadHex =>
      match hexDecode (utf8 payloadHex) with
      | .ok _ => some (.readKey, 0)
      | .error _ => none
  | .issueAssertion _ _ => some (.readKey, 0)
  | _ => none

section Routes

variable {auth : AuthContext} {app : AppState} {moments : Moments} {request : Request code}
  {id : String} {operation : Operation} {position : Nat} {error : ApiError}

theorem Request.gate_tells (gated : request.gate = some (operation, position)) : operation.Tells := by
  cases request with
  | sign keyId payloadHex =>
      simp only [Request.gate] at gated
      split at gated
      · cases gated
        trivial
      · cases gated
  | _ =>
      first
        | cases gated; done
        | (cases gated; trivial)

/-- A caller that is not authorized hears nothing else. -/
theorem Request.answer_refused (gated : request.gate = some (operation, position))
    (named : request.target = some id)
    (refused : ((authorizeDomainAccess auth operation (some ⟨id⟩)).run (answering ks)
      (app, fun later => moments (later + position))).1 = .err error) :
    (request.answer ks hashApiKey auth moments app).1 = .err error := by
  cases request with
  | sign keyId payloadHex =>
      cases named
      simp only [Request.gate] at gated
      split at gated
      · rename_i payload decoded
        cases gated
        have authorized : ((signData auth id payloadHex).run (answering ks) (app, moments)).1 =
            .err error := by
          rw [signData, decoded]
          simp only [Program.ofExcept, ret_bind]
          exact run_bind_eq_err _ refused
        exact run_bind_eq_err _ authorized
      · cases gated
  | _ =>
      -- every other route with a gate starts with it
      cases gated <;> cases named <;> exact run_bind_eq_err _ (run_bind_eq_err _ refused)

/-- A payload that is not hexadecimal is refused whatever the keys are. -/
theorem answer_sign_malformed {payloadHex : String} {problem : FromHexError}
    (malformed : hexDecode (utf8 payloadHex) = .error problem) :
    ((Request.sign id payloadHex : Request code).answer ks hashApiKey auth moments app).1 =
      .err (err s!"invalid payload_hex: {problem.display}") := by
  have refused : ((signData auth id payloadHex).run (answering ks) (app, moments)).1 =
      .err (err s!"invalid payload_hex: {problem.display}") := by
    rw [signData, malformed]
    rfl
  exact run_bind_eq_err _ refused

/-- The routes that look their key up. -/
def Request.LooksKeyUp : Request code → Prop
  | .verify _ => True
  | .verifyingKey _ => True
  | .verifyAssertion _ _ => True
  | _ => False

/-- A caller that may not read the key hears nothing else. -/
theorem Request.answer_denied (looks : request.LooksKeyUp) (named : request.target = some id)
    (denied : ((lookupReadableKeyOrDeny auth ⟨id⟩).run (answering ks) (app, moments)).1 =
      .err error) :
    (request.answer ks hashApiKey auth moments app).1 = .err error := by
  cases request with
  | verify req =>
      cases named
      exact run_bind_eq_err _ (run_bind_eq_err _ denied)
  | verifyingKey keyId =>
      cases named
      exact run_bind_eq_err _ (run_bind_eq_err _ denied)
  | verifyAssertion keyId assertion =>
      cases named
      exact run_bind_eq_err _ (run_bind_eq_err _ denied)
  | _ => exact looks.elim

theorem err_ne_accessDenied (message : String) : err message ≠ accessDenied :=
  fun same => nomatch congrArg ApiError.status same

theorem ofExcept_failsOnly {ε α : Type} {translate : ε → ApiError} {admitted : ApiError → Prop}
    (every : ∀ error, admitted (translate error)) (result : Except ε α) :
    (Program.ofExcept translate result : Handler α).FailsOnly admitted := by
  cases result with
  | ok value => trivial
  | error error => exact every error

theorem decodeVerifyingKey_failsOnly (version : KeyVersion) :
    (decodeVerifyingKey version).FailsOnly (· ≠ accessDenied) := by
  apply ofExcept_failsOnly
  intro error
  exact err_ne_accessDenied _

/-- Once the key is read, no other check answers as the lookup does. -/
theorem Request.answer_read {record : KeyMetadata} (looks : request.LooksKeyUp)
    (named : request.target = some id)
    (found : ((lookupReadableKeyOrDeny auth ⟨id⟩).run (answering ks) (app, moments)).1 =
      .ok record) :
    (request.answer ks hashApiKey auth moments app).1 ≠ .err accessDenied := by
  cases request with
  | verify req =>
      cases named
      apply run_bind_ret_ne_err (run_bind_ne_err found _)
      refine FailsOnly.bind (ofExcept_failsOnly (fun problem => ?_) _) fun payload => ?_
      · exact err_ne_accessDenied _
      refine FailsOnly.bind (ask_failsOnly _) fun now => ?_
      refine FailsOnly.bind (FailsOnly.bind (ask_failsOnly _) settle_failsOnly) fun verified => ?_
      cases verified with
      | ok valid => trivial
      | error problem =>
          simp only
          split
          · exact fun same => nomatch congrArg ApiError.status same
          · exact err_ne_accessDenied _
  | verifyingKey keyId =>
      cases named
      apply run_bind_ret_ne_err (run_bind_ne_err found _)
      split
      · exact err_ne_accessDenied _
      · split
        · exact err_ne_accessDenied _
        · exact FailsOnly.bind (decodeVerifyingKey_failsOnly _) fun _ => trivial
  | verifyAssertion keyId assertion =>
      cases named
      apply run_bind_ret_ne_err (run_bind_ne_err found _)
      split
      · exact err_ne_accessDenied _
      · refine FailsOnly.bind (decodeVerifyingKey_failsOnly _) fun bytes => ?_
        exact FailsOnly.bind (ask_failsOnly _) fun now => trivial
  | _ => exact looks.elim

/-- A route on a key looks it up, authorizes its caller, or signs and finds no payload. -/
theorem Request.kinds (named : request.target = some id) (moments : Moments) (keys : Keys) :
    (request.LooksKeyUp ∧ (request.Conceals moments keys ⟨id⟩ ↔ LooksUp moments keys ⟨id⟩)) ∨
    (∃ operation position, request.gate = some (operation, position) ∧
      (request.Conceals moments keys ⟨id⟩ ↔ (moments position).env.getFault ⟨id⟩ ≠ none)) ∨
    ∃ payloadHex problem, request = .sign id payloadHex ∧
      hexDecode (utf8 payloadHex) = .error problem := by
  cases request with
  | sign keyId payloadHex =>
      cases named
      right
      cases decoded : hexDecode (utf8 payloadHex) with
      | ok payload =>
          left
          refine ⟨.readKey, 0, by simp [Request.gate, decoded], ?_⟩
          simp [Request.Conceals, decoded]
      | error problem =>
          right
          exact ⟨payloadHex, problem, rfl, decoded⟩
  | verify req => exact .inl ⟨trivial, Iff.rfl⟩
  | verifyingKey keyId => exact .inl ⟨trivial, Iff.rfl⟩
  | verifyAssertion keyId assertion => exact .inl ⟨trivial, Iff.rfl⟩
  | _ => first | cases named; done | exact .inr (.inl ⟨_, _, rfl, Iff.rfl⟩)

end Routes

/-- The second state is the first one without the key. -/
structure Lacks (id : KeyId) (app without : AppState) : Prop where
  keys : ∀ other, without.world.keys.find? other =
    if other = id then none else app.world.keys.find? other
  apiKeys : without.apiKeys = app.apiKeys

/-- A resolved key is stored. -/
theorem stored_of_resolvesTo {keys : Keys} {left : Nat} {current domain : KeyId}
    (resolves : ResolvesTo keys left current domain) :
    ∃ record, keys.find? current = some record := by
  cases resolves with
  | domain found => exact ⟨_, found⟩
  | parent found => exact ⟨_, found⟩

section Comparing

variable {auth : AuthContext} {allowed : List String} {app without : AppState} {moments : Moments}
  {request : Request code} {id : String} {domain : KeyId} {operation : Operation} {position : Nat}

/-- A route that looks its key up denies a foreign key if the store reads its lineage. -/
theorem Request.answer_looked_up (looks : request.LooksKeyUp) (named : request.target = some id)
    (confined : auth.allowedDomains = some allowed)
    (resolves : ResolvesTo app.world.keys 10 ⟨id⟩ domain) (outside : domain.text ∉ allowed) :
    (request.answer ks hashApiKey auth moments app).1 = .err accessDenied ↔
      LooksUp moments app.world.keys ⟨id⟩ := by
  obtain ⟨record, found⟩ := stored_of_resolvesTo resolves
  cases fault : (moments 0).env.getFault ⟨id⟩ with
  | some error =>
      have denied : ((lookupReadableKeyOrDeny auth ⟨id⟩).run (answering ks) (app, moments)).1 =
          .err accessDenied := lookup_failed confined (get_faulted fault)
      rw [Request.answer_denied looks named denied]
      simp [LooksUp, fault]
  | none =>
      rcases lookup_foreign ks confined fault found resolves outside with
        ⟨reads, denied⟩ | ⟨unread, shown⟩
      · rw [Request.answer_denied looks named denied]
        simp [LooksUp, reads]
      · have differs : (request.answer ks hashApiKey auth moments app).1 ≠ .err accessDenied :=
          Request.answer_read looks named shown
        simp [LooksUp, fault, unread, differs]

/-- A route that authorizes its caller first tells a foreign key from a missing one if the
store answers. -/
theorem Request.answer_gated (gated : request.gate = some (operation, position))
    (named : request.target = some id) (confined : auth.allowedDomains = some allowed)
    (resolves : ResolvesTo app.world.keys 10 ⟨id⟩ domain) (outside : domain.text ∉ allowed)
    (absent : without.world.keys.find? ⟨id⟩ = none) (faults : StorageFaults moments) :
    (request.answer ks hashApiKey auth moments app).1 =
        (request.answer ks hashApiKey auth moments without).1 ↔
      (moments position).env.getFault ⟨id⟩ ≠ none := by
  have tells := Request.gate_tells gated
  have laterFaults : StorageFaults fun later => moments (later + position) :=
    fun later key error fault => faults _ key error fault
  have start : moments (0 + position) = moments position := by rw [Nat.zero_add]
  cases fault : (moments position).env.getFault ⟨id⟩ with
  | some error =>
      have unread : ∀ state : AppState, (request.answer ks hashApiKey auth moments state).1 =
          .err (unresolvedFor operation error) := fun state =>
        Request.answer_refused gated named (authorize_unread confined tells (by rw [start, fault]))
      simp [unread]
  | none =>
      have missing : (request.answer ks hashApiKey auth moments without).1 =
          .err (unresolvedFor operation (.keyNotFound ⟨id⟩)) :=
        Request.answer_refused gated named
          (authorize_missing confined tells (by rw [start, fault]) absent)
      obtain ⟨error, refused, different⟩ :=
        authorize_foreign ks confined tells laterFaults resolves outside
      rw [missing, Request.answer_refused gated named refused]
      simp [different]

end Comparing

/-- A caller with a list of domains asks about a key in another domain, in a state with the
key and in the same state without it. The responses agree exactly if the middleware refuses
the caller, the route looks its key up before anything else and the store reads it, or what
is asked of the store fails in both states. -/
theorem existence_hidden_iff (ks : Keystore) (code : AssertionCode)
    (hashApiKey : String → SizedBytes 32) (arrival : Arrival code) (app without : AppState)
    (id : String) (domain : KeyId) (allowed : List String)
    (named : arrival.request.target = some id)
    (restricted : ∀ entry, arrival.caller app = .ok entry →
      entry.context.allowedDomains = some allowed)
    (resolves : ResolvesTo app.world.keys 10 ⟨id⟩ domain) (outside : domain.text ∉ allowed)
    (lacks : Lacks ⟨id⟩ app without) (faults : StorageFaults arrival.moments) :
    (arrival.run ks hashApiKey app).1 = (arrival.run ks hashApiKey without).1 ↔
      (∃ error, arrival.caller app = .error error) ∨
        arrival.request.Conceals arrival.moments app.world.keys ⟨id⟩ := by
  have sameCaller : arrival.caller without = arrival.caller app := by
    rw [Arrival.caller, Arrival.caller, lacks.apiKeys]
  simp only [Arrival.run, sameCaller]
  cases called : arrival.caller app with
  | error error => simp
  | ok entry =>
      have confined := restricted entry called
      have absent : without.world.keys.find? ⟨id⟩ = none := by
        rw [lacks.keys, if_pos rfl]
      have noError : ¬ ∃ error, (Except.ok entry : Except ApiError ApiKeyEntry) = .error error := by
        simp
      rw [or_iff_right noError]
      rcases Request.kinds named arrival.moments app.world.keys with
        ⟨looks, conceals⟩ | ⟨operation, position, gated, conceals⟩ |
          ⟨payloadHex, problem, asked, malformed⟩
      · rw [conceals, Request.answer_denied looks named (lookup_missing confined absent)]
        exact Request.answer_looked_up looks named confined resolves outside
      · rw [conceals]
        exact Request.answer_gated gated named confined resolves outside absent faults
      · rw [asked, answer_sign_malformed malformed, answer_sign_malformed malformed]
        simp [Request.Conceals, malformed]

/-! ### A key of another tenant -/

/-- A caller that may use the keys of one domain. -/
def tenantEntry (domain : KeyId) : ApiKeyEntry :=
  { bootstrapEntry configuredHash "" with
    scopes := [.read, .encrypt]
    allowedDomains := some [domain.text] }

/-- A server that knows this caller only. -/
def tenantApp (domain : KeyId) (world : World) : AppState :=
  ⟨world, .withConfig 1 60000 5000, ⟨[tenantEntry domain]⟩, ⟨[tenantEntry domain]⟩⟩

/-- The caller asks, and nothing fails. -/
def tenantAsks (request : Request noAssertions) : Arrival noAssertions :=
  ⟨some configuredHash, request, fun _ => quietMoment 1⟩

theorem quiet_storageFaults (request : Request noAssertions) :
    StorageFaults (tenantAsks request).moments := nofun

/-- Two reachable states that differ in one key of the first of two domains. -/
theorem exists_tenantKey :
    ∃ before after : World, Reachable plainKeystore anyStep before ∧
      Reachable plainKeystore anyStep after ∧
      ResolvesTo after.keys 10 (keyNumbered 5) (keyNumbered 1) ∧
      Lacks (keyNumbered 5) (tenantApp (keyNumbered 3) after) (tenantApp (keyNumbered 3) before) := by
  obtain ⟨before, reached, grove, -⟩ := exists_twoTenants plainKeystore_growable
    (.memory ⟨1, []⟩) (fun _ _ _ => trivial : ∀ step world, step.call.Grows → anyStep step world)
  obtain ⟨after, record, version, reachable, adds, governed⟩ := grove.govern
    plainKeystore_growable twoTenants_grows (by decide)
    (rfl : twoTenants[2]? = some ⟨.keyEncrypting, some 1, .active⟩) (.inl rfl) ⟨""⟩ reached
    (fun _ _ _ => trivial)
  have resolves := governed.resolves grove adds (by decide) rfl rfl (.inl rfl)
  refine ⟨before, after, reached, reachable, resolves, ⟨fun other => ?_, rfl⟩⟩
  by_cases same : other = keyNumbered 5
  · rw [if_pos same, same]
    exact grove.absent (by decide) (by decide)
  · rw [if_neg same]
    exact (adds.others other same).symm

theorem tenant_outside : (keyNumbered 1).text ∉ [(keyNumbered 3).text] := by
  intro member
  have same : keyNumbered 1 = keyNumbered 3 := congrArg KeyId.mk (List.mem_singleton.mp member)
  exact keyNumbered_ne (by decide) (by decide) (by decide) same

/-- The caller is let through where its scopes suffice. -/
theorem tenant_caller {request : Request noAssertions} (required : Scope)
    (scope : requiredScope request.path request.method = some required)
    (has : hasScope [.read, .encrypt] required = true) (domain : KeyId) (world : World) :
    (tenantAsks request).caller (tenantApp domain world) = .ok (tenantEntry domain) := by
  have found : (⟨[tenantEntry domain]⟩ : ApiKeyStore).authenticate configuredHash =
      some (tenantEntry domain) := by
    simp [ApiKeyStore.authenticate, tenantEntry, bootstrapEntry]
  have permitted : hasScope (tenantEntry domain).scopes required = true := has
  simp [Arrival.caller, tenantAsks, scope, authorizeRequest, tenantApp, found, permitted]

/-- A missing and a foreign key are answered alike where they are looked up. -/
theorem foreign_assertion_key_hidden :
    ∃ before after : World, Reachable plainKeystore anyStep before ∧
      Reachable plainKeystore anyStep after ∧
      Lacks (keyNumbered 5) (tenantApp (keyNumbered 3) after)
        (tenantApp (keyNumbered 3) before) ∧
      ((tenantAsks (.verifyAssertion (keyNumbered 5).text ())).run plainKeystore
          (fun _ => configuredHash) (tenantApp (keyNumbered 3) after)).1 =
        ((tenantAsks (.verifyAssertion (keyNumbered 5).text ())).run plainKeystore
          (fun _ => configuredHash) (tenantApp (keyNumbered 3) before)).1 := by
  obtain ⟨before, after, reached, reachable, resolves, lacks⟩ := exists_tenantKey
  refine ⟨before, after, reached, reachable, lacks, ?_⟩
  refine (existence_hidden_iff plainKeystore noAssertions _
    (tenantAsks (.verifyAssertion (keyNumbered 5).text ())) (tenantApp (keyNumbered 3) after) _
    (keyNumbered 5).text (keyNumbered 1) [(keyNumbered 3).text] rfl ?_ resolves tenant_outside lacks
    (quiet_storageFaults _)).mpr (.inr (.inr ?_))
  · intro entry called
    rw [tenant_caller .read (by decide) (by decide)] at called
    obtain rfl := Except.ok.inj called
    rfl
  · exact fun _ _ => rfl

/-- Issuing an assertion tells the key of another tenant from a missing one. -/
theorem foreign_signing_key_told :
    ∃ before after : World, Reachable plainKeystore anyStep before ∧
      Reachable plainKeystore anyStep after ∧
      ResolvesTo after.keys 10 (keyNumbered 5) (keyNumbered 1) ∧
      (keyNumbered 1).text ∉ [(keyNumbered 3).text] ∧
      Lacks (keyNumbered 5) (tenantApp (keyNumbered 3) after)
        (tenantApp (keyNumbered 3) before) ∧
      ((tenantAsks (.issueAssertion (keyNumbered 5).text ())).run plainKeystore
          (fun _ => configuredHash) (tenantApp (keyNumbered 3) after)).1 ≠
        ((tenantAsks (.issueAssertion (keyNumbered 5).text ())).run plainKeystore
          (fun _ => configuredHash) (tenantApp (keyNumbered 3) before)).1 := by
  obtain ⟨before, after, reached, reachable, resolves, lacks⟩ := exists_tenantKey
  refine ⟨before, after, reached, reachable, resolves, tenant_outside, lacks, ?_⟩
  have called : ∀ world, (tenantAsks (.issueAssertion (keyNumbered 5).text ())).caller
      (tenantApp (keyNumbered 3) world) = .ok (tenantEntry (keyNumbered 3)) :=
    tenant_caller .encrypt (by decide) (by decide) _
  have absent : (tenantApp (keyNumbered 3) before).world.keys.find? ⟨(keyNumbered 5).text⟩ =
      none := by
    rw [lacks.keys]
    exact if_pos rfl
  have compared :
      ((Request.issueAssertion (keyNumbered 5).text () : Request noAssertions).answer plainKeystore
          (fun _ => configuredHash) (tenantEntry (keyNumbered 3)).context (fun _ => quietMoment 1)
          (tenantApp (keyNumbered 3) after)).1 =
        ((Request.issueAssertion (keyNumbered 5).text () : Request noAssertions).answer
          plainKeystore (fun _ => configuredHash) (tenantEntry (keyNumbered 3)).context
          (fun _ => quietMoment 1) (tenantApp (keyNumbered 3) before)).1 ↔ _ :=
    Request.answer_gated rfl rfl rfl resolves tenant_outside absent (quiet_storageFaults .whoami)
  rw [Arrival.run, Arrival.run, called, called]
  intro same
  exact compared.mp same rfl

end Citadel.Api
