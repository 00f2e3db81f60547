import Citadel.Api.SigningInput

/-!
# Where an assertion comes from

The server signs for two routes, with the same keys and the same call of the keystore: the payloads
that callers hand to `sign_data`, as they are, and the signing inputs of the assertions that
`issue_assertion` builds. Nothing in what is signed tells which route it was.
-/

namespace Citadel.Api

open Envelope Program Keystore

/-! ### What was signed in a run -/

section Runs

variable {code : AssertionCode} (ks : Keystore) (hashApiKey : String → SizedBytes 32)

/-- The server before its start registers the stored keys. -/
def AppState.restarted (boot : Boot) (app : AppState) : AppState :=
  { world := { app.world with replay := boot.replay }
    enforcer := .withConfig boot.generation boot.ttlMs boot.clockSkewMs
    apiKeys := bootstrapApiKeys boot app.apiKeysFile
    apiKeysFile := if app.apiKeysFile.keys = [] ∧ boot.bootstrapSaved.isOk then
        bootstrapApiKeys boot app.apiKeysFile
      else app.apiKeysFile }

theorem buildApp_eq (boot : Boot) (app : AppState) :
    buildApp ks boot app =
      ((app.restarted boot).playRoute ks boot.moments initializeEnforcer).2 := rfl

/-- The operations of an event, each with the state that it finds. -/
def Event.performed (app : AppState) : Event code → List (Service × (AppState × Moments))
  | .request arrival =>
      match arrival.caller app with
      | .error _ => []
      | .ok entry => (arrival.request.route entry.context).performed (answering ks)
          (app, arrival.moments)
  | .touch _ _ _ => []
  | .sweep moment => [(.expireDueKeys, app, fun _ => moment)]
  | .restart boot => initializeEnforcer.performed (answering ks) (app.restarted boot, boot.moments)

/-- In the run the keystore signed the message with this version of the key. -/
def SignedIn (start : AppState) (events : List (Event code)) (id : KeyId) (number : Nat)
    (message : Bytes) : Prop :=
  ∃ earlier event later authz before payload, events = earlier ++ event :: later ∧
    (.signAuthorized authz message, before) ∈
      event.performed ks (playServer ks hashApiKey start earlier) ∧
    (answering ks (.signAuthorized authz message) before).1 = .ok payload ∧
    id = ⟨authz.keyId⟩ ∧ number = payload.keyVersion

/-- The version of a signing key verifies with these bytes. -/
def VerifiesWith (keys : Keys) (id : KeyId) (number : Nat) (vkBytes : Bytes) : Prop :=
  ∃ record version, keys.find? id = some record ∧ record.keyType = .signing ∧
    version ∈ record.versions ∧ version.version = number ∧
    hexDecode (utf8 version.publicKeyHex) = .ok vkBytes

/-- The signature is not a forgery: if it verifies with the key of this version of a signing
key, the message was signed with that version. -/
def Unforged (start : AppState) (events : List (Event code)) (id : KeyId) (number : Nat)
    (vkBytes message signature : Bytes) : Prop :=
  VerifiesWith (playServer ks hashApiKey start events).world.keys id number vkBytes →
  ks.verifyMessage vkBytes message signature = .ok true →
  SignedIn ks hashApiKey start events id number message

/-- A request of the run and what it was answered. -/
def Answered (start : AppState) (events : List (Event code)) (arrival : Arrival code)
    (body : Body code) : Prop :=
  ∃ earlier later, events = earlier ++ .request arrival :: later ∧
    (arrival.run ks hashApiKey (playServer ks hashApiKey start earlier)).1 = .ok body

end Runs

section Signing

variable {ks : Keystore} {code : AssertionCode} {auth : AuthContext} {name : String}
  {start before : AppState × Moments} {authz : Core.AuthorizedContext} {message : Bytes}
  {payload : SignedPayload}

/-- The moments that are left at the end of a run. -/
theorem moments_of_run {ε α : Type} {program : Program Service Service.Ret ε α}
    {outcome : Outcome ε α} {after : AppState × Moments}
    (ran : program.run (answering ks) start = (outcome, after)) :
    ∃ passed, after.2 = fun position => start.2 (position + passed) := by
  have kept : ∃ passed, (program.run (answering ks) start).2.2 =
      fun position => start.2 (position + passed) := by
    apply (uses_any program).invariant fun state : AppState × Moments =>
      ∃ passed, state.2 = fun position => start.2 (position + passed)
    · rintro op state - ⟨passed, same⟩
      refine ⟨passed + 1, ?_⟩
      ext position
      change state.2 (position + 1) = _
      have shift : position + 1 + passed = position + (passed + 1) := by omega
      rw [same]
      exact congrArg start.2 shift
    · exact ⟨0, rfl⟩
  rwa [ran] at kept

theorem not_asks_signAuthorized : ¬ (Service.signAuthorized authz message).Asks := by
  rintro ⟨-, calls⟩
  cases calls

/-- The call that signs, at the end of a route. -/
theorem of_mem_performed_sign {context : Core.AuthorizedContext} {bytes : Bytes} {β : Type}
    {rest : Except CallError SignedPayload → Handler β}
    (returns : ∀ settled, (rest settled).Uses fun _ => False)
    (member : (.signAuthorized authz message, before) ∈
      ((ask (.signAuthorized context bytes) >>= settle) >>= rest).performed (answering ks) start)
    (signed : (answering ks (.signAuthorized authz message) before).1 = .ok payload) :
    authz = context ∧ message = bytes ∧ before = start ∧
      (((ask (.signAuthorized context bytes) >>= settle) >>= rest).run (answering ks) start).1 =
        ((rest (.ok payload)).run (answering ks)
          (answering ks (.signAuthorized context bytes) start).2).1 := by
  rcases (mem_performed_bind _).mp member with called | ⟨_, _, _, later⟩
  · rcases List.mem_cons.mp called with same | settled
    · cases same
      rw [call_bind, perform_bind, run_perform, signed]
      exact ⟨rfl, rfl, rfl, rfl⟩
    · have nothing : (settle (answering ks (.signAuthorized context bytes) start).1 :
          Handler (Except CallError SignedPayload)).Uses fun _ => False := settle_uses _
      exact (nothing.of_mem_performed settled).elim
  · exact ((returns _).of_mem_performed later).elim

/-- What `sign_data` signs is the payload of its request, and it returns the signature. -/
theorem signed_by_signData {payloadHex : String}
    (member : (.signAuthorized authz message, before) ∈
      (signData auth name payloadHex).performed (answering ks) start)
    (signed : (answering ks (.signAuthorized authz message) before).1 = .ok payload) :
    hexDecode (utf8 payloadHex) = .ok message ∧ authz.keyId = name ∧
      ((signData auth name payloadHex).run (answering ks) start).1 = .ok payload := by
  have unasked : ¬ (Service.signAuthorized authz message).Asks := not_asks_signAuthorized
  unfold signData at member ⊢
  cases decoded : hexDecode (utf8 payloadHex) with
  | error problem =>
      rw [decoded] at member
      cases member
  | ok bytes =>
      rw [decoded] at member
      simp only [Program.ofExcept, ret_bind] at member ⊢
      obtain ⟨domain, resolved, authorized, member⟩ :=
        (authorizeDomainAccess_uses fun _ => ⟨trivial, rfl⟩).of_mem_performed_bind unasked member
      obtain ⟨context, granted, required, member⟩ :=
        (requireAuthorized_uses (asks_authorize _)).of_mem_performed_bind unasked member
      obtain ⟨rfl, rfl, rfl, returned⟩ := of_mem_performed_sign (by
        rintro (error | payload)
        · simp only
          split <;> trivial
        · trivial) member signed
      rw [run_bind, authorized, andThen_ok, run_bind, required, andThen_ok, returned]
      exact ⟨rfl, of_requireAuthorized required, rfl⟩

/-- A payload is signed when every part of the route succeeds. -/
theorem signData_run {payloadHex : String} {domain : Option KeyId}
    {context : Core.AuthorizedContext} {resolved granted after : AppState × Moments}
    (decoded : hexDecode (utf8 payloadHex) = .ok message)
    (authorized : (authorizeDomainAccess auth .readKey (some ⟨name⟩)).run (answering ks) start =
      (.ok domain, resolved))
    (required : (requireAuthorized (.sign name (domain.map KeyId.text) message)).run (answering ks)
      resolved = (.ok context, granted))
    (signed : answering ks (.signAuthorized context message) granted = (.ok payload, after)) :
    (signData auth name payloadHex).run (answering ks) start = (.ok payload, after) ∧
      (.signAuthorized context message, granted) ∈
        (signData auth name payloadHex).performed (answering ks) start := by
  unfold signData
  rw [decoded]
  simp only [Program.ofExcept, ret_bind]
  constructor
  · rw [run_bind, authorized, andThen_ok, run_bind, required, andThen_ok, call_bind, perform_bind,
      run_perform, signed]
    rfl
  · rw [mem_performed_bind]
    right
    refine ⟨domain, resolved, authorized, ?_⟩
    rw [mem_performed_bind]
    right
    exact ⟨context, granted, required, List.mem_cons_self⟩

/-- The response to a payload. -/
theorem Arrival.run_of_sign {hashApiKey : String → SizedBytes 32} {app : AppState}
    {arrival : Arrival code} {entry : ApiKeyEntry} {payloadHex : String}
    {after : AppState × Moments} (called : arrival.caller app = .ok entry)
    (asked : arrival.request = .sign name payloadHex)
    (returned : (signData entry.context name payloadHex).run (answering ks)
      (app, arrival.moments) = (.ok payload, after)) :
    arrival.run ks hashApiKey app = (.ok (.signature payload), after.1) := by
  have routed : ((Request.sign name payloadHex : Request code).route entry.context).run
      (answering ks) (app, arrival.moments) = (.ok (.signature payload), after) := by
    rw [Request.route, run_bind, returned]
    rfl
  rw [Arrival.run, called, asked]
  simp only [Request.answer, AppState.playRoute, routed]

/-- What is signed in a run of one event. -/
theorem SignedIn.of_event {hashApiKey : String → SizedBytes 32} {app : AppState}
    {event : Event code}
    (member : (.signAuthorized authz message, before) ∈ event.performed ks app)
    (signed : (answering ks (.signAuthorized authz message) before).1 = .ok payload) :
    SignedIn ks hashApiKey app [event] ⟨authz.keyId⟩ payload.keyVersion message :=
  ⟨[], event, [], authz, before, payload, rfl, member, signed, rfl, rfl⟩

/-- The state after one request. -/
theorem playServer_request {hashApiKey : String → SizedBytes 32} {app after : AppState}
    {arrival : Arrival code} {outcome : Outcome ApiError (Body code)}
    (ran : arrival.run ks hashApiKey app = (outcome, after)) :
    playServer ks hashApiKey app [.request arrival] = after :=
  congrArg Prod.snd ran

/-- What `issue_assertion` signs is the signing input of an assertion that it built, and it returns
that assertion with the signature. -/
theorem signed_by_issueAssertion {claims : code.Claims}
    (member : (.signAuthorized authz message, before) ∈
      (issueAssertion code auth name claims).performed (answering ks) start)
    (signed : (answering ks (.signAuthorized authz message) before).1 = .ok payload) :
    authz.keyId = name ∧ ∃ record now random unsigned,
      start.1.world.keys.find? ⟨name⟩ = some record ∧
      before.1.world.keys = start.1.world.keys ∧
      (∃ position, now = (start.2 position).now) ∧
      (∃ position, random = (start.2 position).env.randomness.keyId) ∧
      code.buildUnsigned now random name record.currentVersion claims = .ok unsigned ∧
      code.canonicalSigningInput unsigned = .ok message ∧
      ((issueAssertion code auth name claims).run (answering ks) start).1 =
        .ok (code.withSignature unsigned payload.signatureHex) := by
  have unasked : ¬ (Service.signAuthorized authz message).Asks := not_asks_signAuthorized
  unfold issueAssertion at member ⊢
  obtain ⟨domain, resolved, authorized, member⟩ :=
    (authorizeDomainAccess_uses fun _ => ⟨trivial, rfl⟩).of_mem_performed_bind unasked member
  have asksGet : (ask (.get ⟨name⟩) >>= settle : Handler _).Uses Service.Asks :=
    Uses.bind (ask_uses ⟨trivial, rfl⟩) settle_uses
  obtain ⟨settled, read, got, member⟩ := asksGet.of_mem_performed_bind unasked member
  rw [run_bind, authorized, andThen_ok, run_bind, got, andThen_ok]
  cases settled with
  | error error => cases member
  | ok record =>
      simp only at member ⊢
      by_cases signing : record.keyType ≠ .signing
      · rw [if_pos signing] at member
        cases member
      · rw [if_neg signing] at member ⊢
        obtain ⟨now, timed, clock, member⟩ :=
          (ask_uses asks_utcNow).of_mem_performed_bind unasked member
        obtain ⟨random, mixed, drawn, member⟩ :=
          (ask_uses asks_randomBytes).of_mem_performed_bind unasked member
        rw [run_bind, clock, andThen_ok, run_bind, drawn, andThen_ok]
        cases built : code.buildUnsigned now random name record.currentVersion claims with
        | error problem =>
            rw [built] at member
            cases member
        | ok unsigned =>
            simp only [built, Program.ofExcept, ret_bind] at member ⊢
            cases canonical : code.canonicalSigningInput unsigned with
            | error problem =>
                rw [canonical] at member
                cases member
            | ok input =>
                simp only [canonical, ret_bind] at member ⊢
                obtain ⟨context, granted, required, member⟩ :=
                  (requireAuthorized_uses (asks_authorize _)).of_mem_performed_bind unasked member
                obtain ⟨rfl, rfl, rfl, returned⟩ := of_mem_performed_sign
                  (by rintro (error | payload) <;> trivial) member signed
                rw [run_bind, required, andThen_ok, returned]
                obtain ⟨found, unread⟩ := find?_of_ask_get got
                have asked := keys_of_asking
                  (authorizeDomainAccess_uses fun _ => ⟨trivial, rfl⟩) authorized
                have timedKeys := keys_of_asking (ask_uses asks_utcNow) clock
                have mixedKeys := keys_of_asking (ask_uses asks_randomBytes) drawn
                have grantedKeys := keys_of_asking
                  (requireAuthorized_uses (asks_authorize _)) required
                refine ⟨of_requireAuthorized required, record, now, random, unsigned, asked ▸ found,
                  ?_, ?_, ?_, built, canonical, rfl⟩
                · rw [grantedKeys, mixedKeys, timedKeys, unread, asked]
                · obtain ⟨passed, left⟩ := moments_of_run authorized
                  obtain ⟨past, since⟩ := moments_of_run got
                  cases clock
                  exact ⟨0 + past + passed, by simp only [answering, serve, since, left]⟩
                · obtain ⟨passed, left⟩ := moments_of_run authorized
                  obtain ⟨past, since⟩ := moments_of_run got
                  obtain ⟨read, later⟩ := moments_of_run clock
                  cases drawn
                  exact ⟨0 + read + past + passed, by simp only [answering, serve, later, since, left]⟩

/-- Only requests have the keystore sign. -/
theorem Event.request_of_signs {app : AppState} {event : Event code}
    (member : (.signAuthorized authz message, before) ∈ event.performed ks app) :
    ∃ arrival entry, event = .request arrival ∧ arrival.caller app = .ok entry ∧
      (.signAuthorized authz message, before) ∈
        (arrival.request.route entry.context).performed (answering ks) (app, arrival.moments) := by
  cases event with
  | request arrival =>
      cases called : arrival.caller app with
      | error error =>
          simp only [Event.performed, called] at member
          cases member
      | ok entry =>
          simp only [Event.performed, called] at member
          exact ⟨arrival, entry, rfl, called, member⟩
  | touch name now saved => cases member
  | sweep moment => cases List.mem_singleton.mp member
  | restart boot => cases initializeEnforcer_uses.of_mem_performed member

end Signing

/-! ### The two origins -/

section Origin

variable {ks : Keystore} {json : JsonLibrary} {hashApiKey : String → SizedBytes 32}

/-- The server built an assertion with these fields when it was asked to issue one, and answered
with it. -/
structure ServerBuilt (ks : Keystore) (hashApiKey : String → SizedBytes 32) (start : AppState)
    (events : List (Event (citadelAssertions ks (jsonLibraries json)))) (id : KeyId) (number : Nat)
    (assertion : CitadelAssertion json.Value)
    (arrival : Arrival (citadelAssertions ks (jsonLibraries json)))
    (claims : AssertionIssueReq json.Value) : Prop where
  asked : arrival.request = .issueAssertion id.text claims
  answered : ∃ issued : CitadelAssertion json.Value,
    Answered ks hashApiKey start events arrival (.assertion issued) ∧ issued.AgreesWith assertion
  signingKeyId : assertion.signingKeyId = id.text
  signingKeyVersion : assertion.signingKeyVersion = number
  issuedAt : ∃ position, assertion.issuedAt = timestamp (arrival.moments position).now
  expiresAt : assertion.expiresAt = wrapI64 (assertion.issuedAt + wrapI64 claims.ttlSecs)
  assertionId : ∃ position,
    assertion.assertionId = hexEncode (arrival.moments position).env.randomness.keyId.1

/-- The signing input of the assertion was a payload that a caller had signed. -/
structure SignedRaw (ks : Keystore) (hashApiKey : String → SizedBytes 32) (start : AppState)
    (events : List (Event (citadelAssertions ks (jsonLibraries json)))) (id : KeyId) (number : Nat)
    (assertion : CitadelAssertion json.Value)
    (arrival : Arrival (citadelAssertions ks (jsonLibraries json))) (payloadHex : String) :
    Prop where
  asked : arrival.request = .sign id.text payloadHex
  answered : ∃ signed : SignedPayload,
    Answered ks hashApiKey start events arrival (.signature signed) ∧ signed.keyVersion = number
  payload : ∃ payload, hexDecode (utf8 payloadHex) = .ok payload ∧
    assertion.canonicalSigningInput (jsonLibraries json) = .ok payload

/-- The message and the signature that an assertion presents. -/
def CitadelAssertion.Presents (assertion : CitadelAssertion json.Value)
    (message signature : Bytes) : Prop :=
  assertion.canonicalSigningInput (jsonLibraries json) = .ok message ∧
    hexDecode (utf8 assertion.signatureHex) = .ok signature

/-- What an assertion that verifies has passed. -/
theorem CitadelAssertion.of_verify_eq_ok {assertion : CitadelAssertion json.Value} {now : Nat}
    {vkBytes : Bytes} {verified : VerifiedClaims json.Value}
    (accepted : assertion.verify ks (jsonLibraries json) now vkBytes = .ok verified) :
    ∃ message signature, assertion.Presents message signature ∧
      ks.verifyMessage vkBytes message signature = .ok true := by
  unfold verify at accepted
  split at accepted
  · cases accepted
  · split at accepted
    · cases accepted
    · split at accepted
      · cases accepted
      · cases canonical : assertion.canonicalSigningInput (jsonLibraries json) with
        | error problem =>
            rw [canonical] at accepted
            cases accepted
        | ok input =>
            cases decoded : hexDecode (utf8 assertion.signatureHex) with
            | error problem =>
                rw [canonical, decoded] at accepted
                cases accepted
            | ok signature =>
                cases checked : ks.verifyMessage vkBytes input signature with
                | error problem =>
                    rw [canonical, decoded] at accepted
                    simp only [Except.mapError_ok, Except.mapError_error, Bind.bind, Except.bind,
                      checked] at accepted
                    cases accepted
                | ok valid =>
                    rw [canonical, decoded] at accepted
                    simp only [Except.mapError_ok, Bind.bind, Except.bind, checked] at accepted
                    cases valid with
                    | false => cases accepted
                    | true => exact ⟨input, signature, ⟨canonical, decoded⟩, checked⟩

/-- A signature carries the current version of its key. -/
theorem version_of_signed {before : AppState × Moments} {authz : Core.AuthorizedContext}
    {message : Bytes} {payload : SignedPayload} {record : KeyMetadata}
    (signed : (answering ks (.signAuthorized authz message) before).1 = .ok payload)
    (found : before.1.world.keys.find? ⟨authz.keyId⟩ = some record) :
    payload.keyVersion = record.currentVersion := by
  obtain ⟨-, env, now, left, ran⟩ := sign_of_answer signed
  obtain ⟨-, signer, version, seed, signature, present, -, -, current, -, -, rfl⟩ :=
    signed_of_run ran
  obtain rfl := Option.some.inj (found.symm.trans present)
  exact KeyMetadata.version_of_getVersion current

/-- An assertion that verifies with the key of a signing key was built by the server, or its
signing input was a payload that the key signed for a caller. -/
theorem assertion_origin (lawful : json.Lawful) {start : AppState}
    {events : List (Event (citadelAssertions ks (jsonLibraries json)))}
    {id : KeyId} {number : Nat} {vkBytes : Bytes}
    (key : VerifiesWith (playServer ks hashApiKey start events).world.keys id number vkBytes)
    {assertion : CitadelAssertion json.Value}
    (unforged : ∀ message signature, assertion.Presents message signature →
      Unforged ks hashApiKey start events id number vkBytes message signature)
    {now : Nat} {verified : VerifiedClaims json.Value}
    (accepted : assertion.verify ks (jsonLibraries json) now vkBytes = .ok verified) :
    (∃ arrival claims,
      ServerBuilt ks hashApiKey start events id number assertion arrival claims) ∨
    ∃ arrival payloadHex,
      SignedRaw ks hashApiKey start events id number assertion arrival payloadHex := by
  obtain ⟨input, signature, presents, verifies⟩ := CitadelAssertion.of_verify_eq_ok accepted
  have canonical := presents.1
  obtain ⟨earlier, event, later, authz, before, payload, happened, member, signed, rfl, rfl⟩ :=
    unforged _ _ presents key verifies
  obtain ⟨arrival, entry, rfl, called, routed⟩ := Event.request_of_signs member
  rcases (arrival.request.route_uses entry.context).of_mem_performed routed with asks | acts
  · exact absurd asks not_asks_signAuthorized
  cases asked : arrival.request with
  | sign name payloadHex =>
      rw [asked] at routed
      rcases (mem_performed_bind _).mp routed with first | ⟨_, _, _, nothing⟩
      · obtain ⟨decoded, rfl, returned⟩ := signed_by_signData first signed
        right
        refine ⟨arrival, payloadHex, asked, ⟨payload, ⟨earlier, later, happened, ?_⟩, rfl⟩, input,
          decoded, canonical⟩
        rw [Arrival.run, called, asked]
        exact run_bind_ret_eq_ok _ returned
      · cases nothing
  | issueAssertion name claims =>
      rw [asked] at routed
      rcases (mem_performed_bind _).mp routed with first | ⟨_, _, _, nothing⟩
      · obtain ⟨rfl, record, clock, random, unsigned, found, kept, timed, drawn, built, issuedInput,
          returned⟩ := signed_by_issueAssertion first signed
        have named : payload.keyVersion = record.currentVersion := by
          apply version_of_signed signed
          rw [kept]
          exact found
        let issued : CitadelAssertion json.Value :=
          { unsigned with signatureHex := payload.signatureHex }
        have same : issued.canonicalSigningInput (jsonLibraries json) =
            assertion.canonicalSigningInput (jsonLibraries json) := issuedInput.trans canonical.symm
        have agrees := CitadelAssertion.agreesWith_of_same lawful
          ((CitadelAssertion.canonicalSigningInput_eq_iff_same lawful _ _).mp same)
        have fields := Except.ok.inj built
        left
        refine ⟨arrival, claims, asked, ⟨issued, ⟨earlier, later, happened, ?_⟩, agrees⟩, ?_, ?_, ?_,
          ?_, ?_⟩
        · rw [Arrival.run, called, asked]
          exact run_bind_ret_eq_ok _ returned
        · rw [← agrees.signingKeyId]
          exact congrArg CitadelAssertion.signingKeyId fields.symm
        · rw [← agrees.signingKeyVersion, named]
          exact congrArg CitadelAssertion.signingKeyVersion fields.symm
        · obtain ⟨position, moment⟩ := timed
          refine ⟨position, ?_⟩
          rw [← agrees.issuedAt, ← moment]
          exact congrArg CitadelAssertion.issuedAt fields.symm
        · have began : issued.issuedAt = timestamp clock :=
            congrArg CitadelAssertion.issuedAt fields.symm
          rw [← agrees.expiresAt, ← agrees.issuedAt, began]
          exact (CitadelAssertion.of_buildUnsigned built).2
        · obtain ⟨position, moment⟩ := drawn
          refine ⟨position, ?_⟩
          rw [← agrees.assertionId, ← moment]
          exact congrArg CitadelAssertion.assertionId fields.symm
      · cases nothing
  | _ =>
      rw [asked] at acts
      cases acts

end Origin

/-! ### A payload that is an assertion -/

/-- The transparent backend with signatures that verify for one message only. -/
def soleCrypto (message : Bytes) : Crypto :=
  { transparent with
    mldsaVerify := fun _ other signature => some (other = message ∧ signature = .zeros 3309) }

/-- A keystore over this backend. -/
def soleKeystore (message : Bytes) : Keystore := ⟨soleCrypto message, none, fun _ => none⟩

theorem soleKeystore_growable (message : Bytes) : Growable (soleKeystore message) where
  lawful :=
    { diffieHellman_comm := transparent_lawful.diffieHellman_comm
      mlkemAccepts_encapsulationKey := transparent_lawful.mlkemAccepts_encapsulationKey
      mlkemDecapsulate_encapsulate := transparent_lawful.mlkemDecapsulate_encapsulate
      mlkemFromExpandedBytes_toExpandedBytes :=
        transparent_lawful.mlkemFromExpandedBytes_toExpandedBytes
      aesGcmDecrypt_encrypt := transparent_lawful.aesGcmDecrypt_encrypt
      aesGcmEncrypt_length := transparent_lawful.aesGcmEncrypt_length }
  seals := transparent_seals
  unset := rfl

/-- An assertion that a caller made up, for a time and with an identifier of its choice. -/
def chosenAssertion : CitadelAssertion integerJson.Value :=
  ⟨cnaVersion, "ml-dsa-65", (keyNumbered 3).text, 1, 4102444800, 9007199254740991, "chosen",
    ⟨orderedClaims, orderedClaims_distinct⟩, none, none, none,
    hexEncode (SizedBytes.zeros 3309).1⟩

/-- Its signing input. -/
def chosenInput : Bytes :=
  utf8 (String.ofList ((Json.object chosenAssertion.jsonFields).sorted.print integerJson.printer))

theorem chosenAssertion_input :
    chosenAssertion.canonicalSigningInput (jsonLibraries integerJson) = .ok chosenInput :=
  CitadelAssertion.canonicalSigningInput_json chosenAssertion

/-- A key that may sign in the domain of a line. -/
def lineEntry : ApiKeyEntry :=
  { bootstrapEntry configuredHash "" with
    id := ""
    name := ""
    scopes := [.read, .encrypt]
    allowedDomains := some [(keyNumbered 1).text] }

/-- A server that knows the signing key of a line and this caller. -/
def signerApp (world : World) : AppState :=
  ⟨world, registered (keyNumbered 3) (keyNumbered 1).text, ⟨[lineEntry]⟩, ⟨[lineEntry]⟩⟩

/-- The caller has the signing input signed as a payload. -/
def signsChosen :
    Arrival (citadelAssertions (soleKeystore chosenInput) (jsonLibraries integerJson)) :=
  ⟨some configuredHash, .sign (keyNumbered 3).text (hexEncode chosenInput), quietMoments⟩

theorem signsChosen_caller (world : World) :
    signsChosen.caller (signerApp world) = .ok lineEntry := by
  have found : (⟨[lineEntry]⟩ : ApiKeyStore).authenticate configuredHash = some lineEntry := by
    simp [ApiKeyStore.authenticate, lineEntry, bootstrapEntry]
  have scope : requiredScope signsChosen.request.path signsChosen.request.method = some .encrypt := by
    decide
  have permitted : hasScope lineEntry.scopes .encrypt = true := by decide
  have presents : signsChosen.presented = some configuredHash := rfl
  simp [Arrival.caller, scope, authorizeRequest, signerApp, presents, found, permitted]

/-- The run of the one request. -/
theorem signsChosen_signed {world : World} (grove : Grove world.keys signingLine)
    (can : CanSign (soleKeystore chosenInput) world.keys (keyNumbered 3)) :
    ∃ context granted after payload,
      (.signAuthorized context chosenInput, granted) ∈
        (Event.request signsChosen).performed (soleKeystore chosenInput) (signerApp world) ∧
      (answering (soleKeystore chosenInput) (.signAuthorized context chosenInput) granted).1 =
        .ok payload ∧
      context.keyId = (keyNumbered 3).text ∧ payload.keyVersion = 1 ∧
      payload.signatureHex = chosenAssertion.signatureHex ∧
      signsChosen.run (soleKeystore chosenInput) (fun _ => configuredHash) (signerApp world) =
        (.ok (.signature payload), after) ∧ after.world.keys = world.keys := by
  obtain ⟨record, version, seed, found, signing, active, current, unwraps, exact⟩ := can
  obtain ⟨planted, first, present, holds⟩ := grove.planted 3 _ rfl
  obtain rfl := Option.some.inj (found.symm.trans present)
  have resolves : ResolvesTo (signerApp world).world.keys 10 (keyNumbered 3) (keyNumbered 1) :=
    grove.resolves_under_kek rfl rfl rfl nofun nofun
  have signs : (soleKeystore chosenInput).signMessage seed chosenInput =
      .ok (SizedBytes.zeros 3309).1 := by
    rw [signMessage, dif_pos exact]
    rfl
  let granted : AppState :=
    { (signerApp world).begun with
      enforcer := (signContext (soleKeystore chosenInput) (keyNumbered 3) (keyNumbered 1).text
        chosenInput).2 }
  have stored : granted.world.keys.find? (keyNumbered 3) = some record := found
  have ran : ((soleKeystore chosenInput).sign (keyNumbered 3) chosenInput).run
      (handle (quietMoments 0).env) { granted.world with now := (quietMoments 0).now } = _ :=
    sign_run (quietEnv_reliable 5).get stored signing active current unwraps signs
  obtain ⟨after, left, answered⟩ := line_signed rfl ran
  have decoded : hexDecode (utf8 (hexEncode chosenInput)) = .ok chosenInput := by
    rw [utf8_hexEncode, hexDecode_hexBytes]
  obtain ⟨returned, performed⟩ :=
    signData_run decoded (line_access resolves) (line_granted rfl chosenInput) answered
  have number := (KeyMetadata.version_of_getVersion current).trans holds.currentVersion
  have kept : after.world.keys = world.keys := by
    rw [left]
    rfl
  let payload : SignedPayload :=
    ⟨(keyNumbered 3).text, version.version, hexEncode (SizedBytes.zeros 3309).1, 0⟩
  refine ⟨_, _, after, payload, ?_, congrArg Prod.fst answered, rfl, number, rfl, ?_, kept⟩
  · simp only [Event.performed, signsChosen_caller]
    exact (mem_performed_bind _).mpr (.inl performed)
  · have signed : (signData lineEntry.context (keyNumbered 3).text (hexEncode chosenInput)).run
        (answering (soleKeystore chosenInput)) (signerApp world, quietMoments) =
          (.ok payload, after, quietMoments) := returned
    exact Arrival.run_of_sign (signsChosen_caller world) rfl signed

/-- A line has one signing key, with one version. -/
theorem line_verifiesWith {keys : Keys} (grove : Grove keys signingLine) {id : KeyId}
    {number : Nat} {vkBytes : Bytes} (key : VerifiesWith keys id number vkBytes) :
    id = keyNumbered 3 ∧ number = 1 := by
  obtain ⟨record, version, found, signing, member, numbered, -⟩ := key
  obtain ⟨n, small, rfl⟩ := grove.named id record found
  have place : n < 4 := small
  have entry : signingLine[n]? = some signingLine[n] := List.getElem?_eq_getElem small
  obtain ⟨planted, first, present, holds⟩ := grove.planted n _ entry
  obtain rfl := Option.some.inj (found.symm.trans present)
  have kind : signingLine[n].keyType = .signing := holds.keyType.symm.trans signing
  rw [holds.versions] at member
  obtain rfl := List.mem_singleton.mp member
  rw [holds.number] at numbered
  refine ⟨?_, numbered.symm⟩
  obtain rfl | rfl | rfl | rfl : n = 0 ∨ n = 1 ∨ n = 2 ∨ n = 3 := by omega
  · cases kind
  · cases kind
  · cases kind
  · rfl

/-- The signing key of a line verifies with what the backend makes of its seed. -/
theorem line_exists_verifiesWith {world : World}
    (reachable : Reachable (soleKeystore chosenInput) SparesSigning world)
    (grove : Grove world.keys signingLine) :
    VerifiesWith world.keys (keyNumbered 3) 1 (SizedBytes.zeros 1952).1 := by
  obtain ⟨record, version, found, holds⟩ := grove.planted 3 _ rfl
  have member : version ∈ record.versions := by simp [holds.versions]
  have live : record.state ≠ .destroyed := by simp [holds.state]
  obtain ⟨secret, -, pair⟩ := Reachable.holdPairs (soleKeystore_growable chosenInput).lawful reachable
    _ _ found live version member
  rw [holds.keyType] at pair
  obtain ⟨seed, rfl, stores⟩ := pair
  refine ⟨record, version, found, holds.keyType, member, holds.number, ?_⟩
  rw [stores, utf8_hexEncode, hexDecode_hexBytes]
  rfl

/-- A reachable line whose signing key signs the chosen assertion, and nothing else, as a payload. -/
structure ChosenRun (world : World) (payload : SignedPayload) : Prop where
  reachable : Reachable (soleKeystore chosenInput) anyStep world
  unforged : ∀ id number vkBytes message signature, Unforged (soleKeystore chosenInput)
    (fun _ => configuredHash) (signerApp world) [.request signsChosen] id number vkBytes message
      signature
  answered : Answered (soleKeystore chosenInput) (fun _ => configuredHash) (signerApp world)
    [.request signsChosen] signsChosen (.signature payload)
  key : VerifiesWith (playServer (soleKeystore chosenInput) (fun _ => configuredHash)
    (signerApp world) [.request signsChosen]).world.keys (keyNumbered 3) 1 (SizedBytes.zeros 1952).1
  carried : payload.signatureHex = chosenAssertion.signatureHex

theorem exists_chosenRun : ∃ world payload, ChosenRun world payload := by
  obtain ⟨world, reachable, grove⟩ :=
    exists_sparing_grove (soleKeystore_growable chosenInput) signingLine_grows
  have can := grove.canSign (soleKeystore_growable chosenInput).lawful reachable rfl rfl rfl
  obtain ⟨context, granted, after, payload, performed, signed, subject, number, carried, ran, kept⟩ :=
    signsChosen_signed grove can
  have final : (playServer (soleKeystore chosenInput) (fun _ => configuredHash) (signerApp world)
      [.request signsChosen]).world.keys = world.keys := by
    rw [playServer_request ran, kept]
  refine ⟨world, payload, reachable.any, ?_, ⟨[], [], rfl, congrArg Prod.fst ran⟩, ?_, carried⟩
  · intro id other vkBytes message signature key verifies
    rw [final] at key
    obtain ⟨rfl, rfl⟩ := line_verifiesWith grove key
    have only : message = chosenInput := by
      unfold verifyMessage at verifies
      split at verifies
      · split at verifies
        · simp only [soleKeystore, soleCrypto, Except.ok.injEq, decide_eq_true_eq] at verifies
          exact verifies.1
        · cases verifies
      · cases verifies
    have signedHere : SignedIn (soleKeystore chosenInput) (fun _ => configuredHash) (signerApp world)
        _ _ _ _ := SignedIn.of_event performed signed
    rw [subject, number] at signedHere
    rw [only]
    exact signedHere
  · rw [final]
    exact line_exists_verifiesWith reachable grove

/-- The chosen assertion verifies at the beginning. -/
theorem chosenAssertion_verifies : ∃ verified,
    chosenAssertion.verify (soleKeystore chosenInput) (jsonLibraries integerJson) 0
      (SizedBytes.zeros 1952).1 = .ok verified := by
  have verifies : (soleKeystore chosenInput).verifyMessage (SizedBytes.zeros 1952).1 chosenInput
      (SizedBytes.zeros 3309).1 = .ok true := by
    rw [verifyMessage, dif_pos (SizedBytes.zeros 1952).2, dif_pos (SizedBytes.zeros 3309).2]
    simp only [soleKeystore, soleCrypto, Subtype.coe_eta, and_self, decide_true]
  exact (CitadelAssertion.verify_iff rfl rfl (by decide) chosenAssertion_input rfl).mpr verifies

/-- The server builds no assertion in the run of the one request. -/
theorem chosenAssertion_not_built {world : World}
    {arrival : Arrival (citadelAssertions (soleKeystore chosenInput) (jsonLibraries integerJson))}
    {claims : AssertionIssueReq integerJson.Value} :
    ¬ ServerBuilt (soleKeystore chosenInput) (fun _ => configuredHash) (signerApp world)
      [.request signsChosen] (keyNumbered 3) 1 chosenAssertion arrival claims := by
  intro built
  obtain ⟨issued, ⟨earlier, later, happened, -⟩, -⟩ := built.answered
  have asked := built.asked
  have among : Event.request arrival ∈ [Event.request signsChosen] := by
    rw [happened]
    exact List.mem_append_right _ List.mem_cons_self
  cases List.mem_singleton.mp among
  cases asked

/-- An assertion that the server never built verifies with the signature of a payload. -/
theorem raw_signature_verifies :
    ∃ world payload, ChosenRun world payload ∧
      (∃ verified, chosenAssertion.verify (soleKeystore chosenInput) (jsonLibraries integerJson) 0
        (SizedBytes.zeros 1952).1 = .ok verified) ∧
      ∀ arrival claims, ¬ ServerBuilt (soleKeystore chosenInput) (fun _ => configuredHash)
        (signerApp world) [.request signsChosen] (keyNumbered 3) 1 chosenAssertion arrival claims := by
  obtain ⟨world, payload, run⟩ := exists_chosenRun
  exact ⟨world, payload, run, chosenAssertion_verifies, fun _ _ => chosenAssertion_not_built⟩

/-- The chosen assertion goes back to a payload. -/
theorem chosenAssertion_signed_raw :
    ∃ world arrival payloadHex, SignedRaw (soleKeystore chosenInput) (fun _ => configuredHash)
      (signerApp world) [.request signsChosen] (keyNumbered 3) 1 chosenAssertion arrival
        payloadHex := by
  obtain ⟨world, payload, run⟩ := exists_chosenRun
  obtain ⟨verified, accepted⟩ := chosenAssertion_verifies
  rcases assertion_origin integerJson_lawful run.key (fun _ _ _ => run.unforged _ _ _ _ _)
    accepted with ⟨arrival, claims, built⟩ | ⟨arrival, payloadHex, raw⟩
  · exact absurd built chosenAssertion_not_built
  · exact ⟨world, arrival, payloadHex, raw⟩

end Citadel.Api
