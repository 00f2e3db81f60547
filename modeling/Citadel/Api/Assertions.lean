import Citadel.Api.Revocation
import Citadel.Keystore.Signatures

/-!
# Assertions

The assertions that `issue_assertion` signs and `verify_assertion` checks. The route that
checks one takes the public key of the version that is current by then, not of the version
that the assertion names.
-/

namespace Citadel.Api

open Envelope Program Keystore

/-! ### The format -/

/-- What the format takes from its libraries: the values of JSON, the text of an object with
these fields, and `Utc::timestamp_opt`. -/
structure AssertionLibraries where
  Value : Type
  string : String → Value
  number : Int → Value
  /-- `serde_json::to_string` for an object. The map orders the fields by name. -/
  objectToString : List (String × Value) → Except String String
  timestampOpt : Int → Option Int

/-- `CNA_VERSION`. -/
def cnaVersion : String := "cna-v1"

/-- `CitadelAssertion`. -/
structure CitadelAssertion (Value : Type) where
  version : String
  suite : String
  signingKeyId : String
  signingKeyVersion : Nat
  issuedAt : Int
  expiresAt : Int
  assertionId : String
  publicClaims : Value
  sealedClaimsHex : Option String
  sealedClaimsKeyId : Option String
  sealedClaimsKeyVersion : Option Nat
  signatureHex : String

/-- `AssertionIssueReq`, without the key. -/
structure AssertionIssueReq (Value : Type) where
  ttlSecs : Nat
  publicClaims : Value
  sealedClaimsHex : Option String
  sealedClaimsKeyId : Option String
  sealedClaimsKeyVersion : Option Nat

/-- `VerifiedClaims`, with instants as timestamps. -/
structure VerifiedClaims (Value : Type) where
  publicClaims : Value
  assertionId : String
  signingKeyId : String
  signingKeyVersion : Nat
  issuedAt : Int
  expiresAt : Int
  hasSealedClaims : Bool

/-- `DateTime::timestamp`. -/
def timestamp (now : Nat) : Nat := asSecs now

/-- A sum of `i64`, which wraps around in a release build. -/
def wrapI64 (value : Int) : Int := value.bmod (2 ^ 64)

/-- The text of an `AssertionError`. -/
def assertionError (message : String) : String := s!"AssertionError: {message}"

namespace CitadelAssertion

variable {Value : Type}

/-- `build_unsigned`. -/
def buildUnsigned (now : Nat) (random : SizedBytes 16) (signingKeyId : String)
    (signingKeyVersion : Nat) (req : AssertionIssueReq Value) :
    Except String (CitadelAssertion Value) :=
  .ok
    { version := cnaVersion
      suite := "ml-dsa-65"
      signingKeyId := signingKeyId
      signingKeyVersion := signingKeyVersion
      issuedAt := timestamp now
      expiresAt := wrapI64 (timestamp now + wrapI64 req.ttlSecs)
      assertionId := hexEncode random.1
      publicClaims := req.publicClaims
      sealedClaimsHex := req.sealedClaimsHex
      sealedClaimsKeyId := req.sealedClaimsKeyId
      sealedClaimsKeyVersion := req.sealedClaimsKeyVersion
      signatureHex := "" }

section Libraries

variable (ks : Keystore) (libraries : AssertionLibraries)

/-- The fields that are signed. -/
def fields (assertion : CitadelAssertion libraries.Value) : List (String × libraries.Value) :=
  [("version", libraries.string assertion.version),
    ("suite", libraries.string assertion.suite),
    ("signing_key_id", libraries.string assertion.signingKeyId),
    ("signing_key_version", libraries.number assertion.signingKeyVersion),
    ("issued_at", libraries.number assertion.issuedAt),
    ("expires_at", libraries.number assertion.expiresAt),
    ("assertion_id", libraries.string assertion.assertionId),
    ("public_claims", assertion.publicClaims)] ++
  (assertion.sealedClaimsHex.map fun text =>
    ("sealed_claims_hex", libraries.string text)).toList ++
  (assertion.sealedClaimsKeyId.map fun id =>
    ("sealed_claims_key_id", libraries.string id)).toList ++
  (assertion.sealedClaimsKeyVersion.map fun version =>
    ("sealed_claims_key_version", libraries.number version)).toList

/-- `canonical_signing_input`. -/
def canonicalSigningInput (assertion : CitadelAssertion libraries.Value) : Except String Bytes :=
  match libraries.objectToString (assertion.fields libraries) with
  | .ok canonical => .ok (utf8 canonical)
  | .error error => .error (assertionError s!"canonical serialize: {error}")

/-- `verify`. -/
def verify (now : Nat) (assertion : CitadelAssertion libraries.Value) (verifyingKey : Bytes) :
    Except String (VerifiedClaims libraries.Value) :=
  if assertion.version ≠ cnaVersion then
    .error (assertionError
      s!"unsupported version '{assertion.version}' (expected '{cnaVersion}')")
  else if assertion.suite ≠ "ml-dsa-65" then
    .error (assertionError s!"unsupported suite '{assertion.suite}' (expected 'ml-dsa-65')")
  else if assertion.expiresAt ≤ timestamp now then
    .error (assertionError
      s!"assertion expired at {assertion.expiresAt} (now {timestamp now})")
  else do
    let signingInput ← assertion.canonicalSigningInput libraries
    let sigBytes ← (hexDecode (utf8 assertion.signatureHex)).mapError fun error =>
      assertionError s!"decode signature_hex: {error.display}"
    let valid ← (ks.verifyMessage verifyingKey signingInput sigBytes).mapError fun error =>
      assertionError s!"verification error: {error.display}"
    if valid then
      .ok
        { publicClaims := assertion.publicClaims
          assertionId := assertion.assertionId
          signingKeyId := assertion.signingKeyId
          signingKeyVersion := assertion.signingKeyVersion
          issuedAt := (libraries.timestampOpt assertion.issuedAt).getD (timestamp now)
          expiresAt := (libraries.timestampOpt assertion.expiresAt).getD (timestamp now)
          hasSealedClaims := assertion.sealedClaimsHex.isSome }
    else .error (assertionError "signature invalid")

end Libraries

end CitadelAssertion

/-- The assertions of `citadel-signer`. -/
def citadelAssertions (ks : Keystore) (libraries : AssertionLibraries) : AssertionCode where
  Claims := AssertionIssueReq libraries.Value
  Assertion := CitadelAssertion libraries.Value
  Verified := VerifiedClaims libraries.Value
  buildUnsigned := CitadelAssertion.buildUnsigned
  canonicalSigningInput := CitadelAssertion.canonicalSigningInput libraries
  withSignature assertion signatureHex := { assertion with signatureHex := signatureHex }
  verify := CitadelAssertion.verify ks libraries

section Verify

variable {ks : Keystore} {libraries : AssertionLibraries}

theorem CitadelAssertion.of_buildUnsigned {Value : Type} {now number : Nat} {random : SizedBytes 16}
    {id : String} {req : AssertionIssueReq Value} {unsigned : CitadelAssertion Value}
    (built : buildUnsigned now random id number req = .ok unsigned) :
    unsigned.signingKeyVersion = number ∧
      unsigned.expiresAt = wrapI64 (timestamp now + wrapI64 req.ttlSecs) := by
  rw [← Except.ok.inj built]
  constructor
  · rfl
  -- unfolding the sum does not end
  · dsimp only

/-- The signature is not signed. -/
theorem CitadelAssertion.canonicalSigningInput_signed (assertion : CitadelAssertion libraries.Value)
    (signatureHex : String) :
    canonicalSigningInput libraries { assertion with signatureHex := signatureHex } =
      assertion.canonicalSigningInput libraries := rfl

/-- Before it expires, an assertion is accepted when its signature verifies. -/
theorem CitadelAssertion.verify_iff {assertion : CitadelAssertion libraries.Value}
    {input verifyingKey signature : Bytes} {now : Nat} (version : assertion.version = cnaVersion)
    (suite : assertion.suite = "ml-dsa-65") (before : timestamp now < assertion.expiresAt)
    (canonical : assertion.canonicalSigningInput libraries = .ok input)
    (carries : assertion.signatureHex = hexEncode signature) :
    (∃ verified, assertion.verify ks libraries now verifyingKey = .ok verified) ↔
      ks.verifyMessage verifyingKey input signature = .ok true := by
  have unexpired : ¬ assertion.expiresAt ≤ timestamp now := by omega
  have decoded : hexDecode (utf8 assertion.signatureHex) = .ok signature := by
    rw [carries, utf8_hexEncode, hexDecode_hexBytes]
  simp only [verify, version, suite, ne_eq, not_true_eq_false, if_false, unexpired, canonical,
    decoded, Except.mapError_ok, Bind.bind, Except.bind]
  generalize ks.verifyMessage verifyingKey input signature = verdict
  cases verdict with
  | error error => simp [Except.mapError_error]
  | ok valid => cases valid <;> simp [Except.mapError_ok]

end Verify

/-! ### Issuing -/

section Issue

variable {ks : Keystore} {code : AssertionCode} {auth : AuthContext} {name : String}
  {start after : AppState × Moments}

/-- Asking leaves the records alone. -/
theorem keys_of_asking {δ α : Type} {program : Program Service Service.Ret δ α}
    {outcome : Outcome δ α} (asks : program.Uses Service.Asks)
    (ran : program.run (answering ks) start = (outcome, after)) :
    after.1.world.keys = start.1.world.keys := by
  have kept : (program.run (answering ks) start).2.1.world.keys = start.1.world.keys :=
    asks.invariant (fun state : AppState × Moments => state.1.world.keys = start.1.world.keys)
      (fun _ _ asks kept => (keys_of_asks asks).trans kept) rfl
  rwa [ran] at kept

theorem asks_utcNow : Service.utcNow.Asks := ⟨trivial, rfl⟩

theorem asks_randomBytes : Service.randomBytes.Asks := ⟨trivial, rfl⟩

theorem asks_authorize (request : Core.Request) : (Service.authorize request).Asks :=
  ⟨trivial, rfl⟩

/-- The enforcer's context is for the key of the request. -/
theorem of_requireAuthorized {request : Core.Request} {context : Core.AuthorizedContext}
    (ran : (requireAuthorized request).run (answering ks) start = (.ok context, after)) :
    context.keyId = request.subject := by
  obtain ⟨answer, middle, asked, ran⟩ := of_run_bind_eq_ok ran
  cases answer with
  | error reason => cases ran
  | ok granted =>
      cases ran
      have answered : (start.1.enforcer.answer ks.crypto.sha256 (start.2 0).issue request).1 =
          .ok context := Outcome.ok.inj (congrArg Prod.fst asked)
      have grant := (Core.StateEnforcer.granted_of_answer (Prod.ext answered rfl)).grant
      exact congrArg (fun pair => pair.1.keyId) grant

/-- A call that was settled with a value. -/
theorem of_settle_eq_ok {ε δ α : Type} {outcome : Outcome ε α} {value : α}
    (ran : (settle outcome : Program Service Service.Ret δ (Except ε α)).run (answering ks) start =
      (.ok (.ok value), after)) : outcome = .ok value ∧ after = start := by
  cases outcome with
  | ok settled =>
      cases ran
      exact ⟨rfl, rfl⟩
  | err error => cases ran
  | aborted why => cases ran

/-- The answer of a key that was asked for and settled. -/
theorem answered_of_ask_get {id : KeyId} {δ : Type} {record : KeyMetadata}
    (ran : (ask (.get id) >>= settle : Program Service Service.Ret δ _).run (answering ks) start =
      (.ok (.ok record), after)) : answering ks (.get id) start = (.ok record, after) := by
  rw [call_bind, run_perform] at ran
  obtain ⟨got, rfl⟩ := of_settle_eq_ok ran
  exact Prod.ext got rfl

/-- A key that was asked for and settled is stored. -/
theorem find?_of_ask_get {id : KeyId} {δ : Type} {record : KeyMetadata}
    (ran : (ask (.get id) >>= settle : Program Service Service.Ret δ _).run (answering ks) start =
      (.ok (.ok record), after)) :
    start.1.world.keys.find? id = some record ∧ after.1.world.keys = start.1.world.keys := by
  have answered := answered_of_ask_get ran
  have got : (serve ks (start.2 0) start.1 (.get id)).1 = .ok record := congrArg Prod.fst answered
  have asks : (Service.get id).Asks := ⟨trivial, rfl⟩
  have kept : (serve ks (start.2 0) start.1 (.get id)).2.world.keys = start.1.world.keys :=
    keys_of_asks asks
  obtain rfl : (answering ks (.get id) start).2 = after := congrArg Prod.snd answered
  have read : (Keystore.get id).run (handle (start.2 0).env)
      { start.1.world with now := (start.2 0).now } = (.ok record, _) := Prod.ext got rfl
  have found := find?_of_get read
  exact ⟨found, kept⟩

/-- An authorized signature is one of the key of its context. -/
theorem sign_of_answer {context : Core.AuthorizedContext} {message : Bytes}
    {payload : SignedPayload}
    (signed : (answering ks (.signAuthorized context message) start).1 = .ok payload) :
    (answering ks (.signAuthorized context message) start).2.1.world.keys = start.1.world.keys ∧
      ∃ env now left, (ks.sign ⟨context.keyId⟩ message).run (handle env)
        { start.1.world with now := now } = (.ok payload, left) := by
  have played : (ks.signAuthorized (start.1.boundary (start.2 0)) context message).run
      (handle (start.2 0).env) { start.1.world with now := (start.2 0).now } = (.ok payload, _) :=
    Prod.ext signed rfl
  obtain ⟨_, -, called⟩ := of_run_ofExcept_bind_eq_ok played
  obtain ⟨_, -, called⟩ := of_run_ofExcept_bind_eq_ok called
  obtain ⟨unchanged, -⟩ := signed_of_run called
  have kept := congrArg World.keys unchanged
  exact ⟨kept, _, _, _, called⟩

/-- What was signed for a route. -/
theorem sign_of_ask {context : Core.AuthorizedContext} {message : Bytes} {δ : Type}
    {payload : SignedPayload}
    (ran : (ask (.signAuthorized context message) >>= settle : Program Service Service.Ret δ _).run
      (answering ks) start = (.ok (.ok payload), after)) :
    after.1.world.keys = start.1.world.keys ∧ ∃ env now left,
      (ks.sign ⟨context.keyId⟩ message).run (handle env) { start.1.world with now := now } =
        (.ok payload, left) := by
  rw [call_bind, run_perform] at ran
  obtain ⟨signed, rfl⟩ := of_settle_eq_ok ran
  exact sign_of_answer signed

/-- The route reads the clock once it has read the key. -/
def IssuedAt (ks : Keystore) (auth : AuthContext) (name : String) (start : AppState × Moments)
    (now : Nat) : Prop :=
  ∃ domain resolved record reading,
    (authorizeDomainAccess auth .readKey (some ⟨name⟩)).run (answering ks) start =
      (.ok domain, resolved) ∧
    answering ks (.get ⟨name⟩) resolved = (.ok record, reading) ∧ now = (reading.2 0).now

theorem IssuedAt.unique {now moment : Nat} (issued : IssuedAt ks auth name start now)
    (again : IssuedAt ks auth name start moment) : now = moment := by
  obtain ⟨_, _, _, _, authorized, got, rfl⟩ := issued
  obtain ⟨_, _, _, _, authorizedAgain, gotAgain, rfl⟩ := again
  cases authorized.symm.trans authorizedAgain
  cases got.symm.trans gotAgain
  rfl

/-- An assertion names the version that was current when its key signed it. -/
theorem issued_of_run {assertion : code.Assertion} {claims : code.Claims}
    (ran : (issueAssertion code auth name claims).run (answering ks) start =
      (.ok assertion, after)) :
    after.1.world.keys = start.1.world.keys ∧
      ∃ record now random unsigned input payload,
        start.1.world.keys.find? ⟨name⟩ = some record ∧ IssuedAt ks auth name start now ∧
        code.buildUnsigned now random name record.currentVersion claims = .ok unsigned ∧
        code.canonicalSigningInput unsigned = .ok input ∧
        assertion = code.withSignature unsigned payload.signatureHex ∧
        ∃ env world left, world.keys = start.1.world.keys ∧
          (ks.sign ⟨name⟩ input).run (handle env) world = (.ok payload, left) := by
  obtain ⟨domain, first, authorized, ran⟩ := of_run_bind_eq_ok ran
  have asked : (authorizeDomainAccess auth .readKey (some ⟨name⟩)).Uses Service.Asks :=
    authorizeDomainAccess_uses fun id => ⟨trivial, rfl⟩
  have resolved := keys_of_asking asked authorized
  obtain ⟨settled, second, got, ran⟩ := of_run_bind_eq_ok ran
  cases settled with
  | error error => cases ran
  | ok record =>
      obtain ⟨found, read⟩ := find?_of_ask_get got
      obtain ⟨-, ran⟩ := of_run_guard_eq_ok ran
      obtain ⟨now, third, clock, ran⟩ := of_run_bind_eq_ok ran
      obtain ⟨random, fourth, drawn, ran⟩ := of_run_bind_eq_ok ran
      obtain ⟨unsigned, built, ran⟩ := of_run_ofExcept_bind_eq_ok ran
      obtain ⟨input, canonical, ran⟩ := of_run_ofExcept_bind_eq_ok ran
      obtain ⟨context, fifth, granted, ran⟩ := of_run_bind_eq_ok ran
      obtain ⟨settled, sixth, signed, ran⟩ := of_run_bind_eq_ok ran
      cases settled with
      | error error => cases ran
      | ok payload =>
          cases ran
          obtain ⟨kept, env, moment, left, called⟩ := sign_of_ask signed
          have timed := keys_of_asking (ask_uses asks_utcNow) clock
          have mixed := keys_of_asking (ask_uses asks_randomBytes) drawn
          have passed := keys_of_asking (requireAuthorized_uses (asks_authorize _)) granted
          have same : fifth.1.world.keys = start.1.world.keys := by
            rw [passed, mixed, timed, read, resolved]
          have subject : (⟨context.keyId⟩ : KeyId) = ⟨name⟩ :=
            congrArg KeyId.mk (of_requireAuthorized granted)
          rw [subject] at called
          rw [resolved] at found
          have issued : IssuedAt ks auth name start now := by
            cases clock
            exact ⟨domain, first, record, second, authorized, answered_of_ask_get got, rfl⟩
          exact ⟨kept.trans same, record, now, random, unsigned, input, payload, found, issued,
            built, canonical, rfl, env, { fifth.1.world with now := moment }, left, same, called⟩

/-- An assertion is issued when every part of the route succeeds. -/
theorem issueAssertion_run {claims : code.Claims} {domain : Option KeyId} {record : KeyMetadata}
    {now : Nat} {random : SizedBytes 16} {unsigned : code.Assertion} {input : Bytes}
    {context : Core.AuthorizedContext} {payload : SignedPayload}
    {resolved read timed mixed passed : AppState × Moments}
    (authorized : (authorizeDomainAccess auth .readKey (some ⟨name⟩)).run (answering ks) start =
      (.ok domain, resolved))
    (got : answering ks (.get ⟨name⟩) resolved = (.ok record, read))
    (signing : record.keyType = .signing) (clock : answering ks .utcNow read = (now, timed))
    (drawn : answering ks .randomBytes timed = (random, mixed))
    (built : code.buildUnsigned now random name record.currentVersion claims = .ok unsigned)
    (canonical : code.canonicalSigningInput unsigned = .ok input)
    (granted : (requireAuthorized (.sign name (domain.map KeyId.text) input)).run (answering ks)
      mixed = (.ok context, passed))
    (signed : answering ks (.signAuthorized context input) passed = (.ok payload, after)) :
    (issueAssertion code auth name claims).run (answering ks) start =
      (.ok (code.withSignature unsigned payload.signatureHex), after) := by
  unfold issueAssertion
  rw [run_bind, authorized, andThen_ok, call_bind, perform_bind, run_perform, got]
  simp only [settle, ret_bind]
  rw [if_neg (by simp [signing]), call_bind, run_perform, clock, call_bind, run_perform, drawn]
  simp only [built, canonical, Program.ofExcept, ret_bind]
  rw [run_bind, granted, andThen_ok, call_bind, perform_bind, run_perform, signed]
  rfl

end Issue

/-! ### Verifying later -/

/-- A caller that may read the key presents an assertion of it before it expires, while the
key is active. The steps of the run since the assertion was issued are all allowed. -/
structure Presents (ks : Keystore) (libraries : AssertionLibraries)
    (allowed : Step → World → Prop) (name : String)
    (assertion : CitadelAssertion libraries.Value) (record : KeyMetadata) (caller : AuthContext)
    (later : AppState × Moments) : Prop where
  issued : ∃ start after issuer req, Reachable ks anyStep start.1.world ∧
    (issueAssertion (citadelAssertions ks libraries) issuer name req).run (answering ks) start =
      (.ok assertion, after) ∧ Reaches ks allowed after.1.world later.1.world
  readable : ∃ looked,
    (lookupReadableKeyOrDeny caller ⟨name⟩).run (answering ks) later = (.ok record, looked) ∧
      timestamp (looked.2 0).now < assertion.expiresAt
  active : record.state = .active

/-- `verify_assertion` answers that the assertion is valid. -/
def Accepts (ks : Keystore) (libraries : AssertionLibraries) (name : String)
    (assertion : CitadelAssertion libraries.Value) (caller : AuthContext)
    (later : AppState × Moments) : Prop :=
  ∃ verified after, (verifyAssertion (citadelAssertions ks libraries) caller name assertion).run
    (answering ks) later = (.ok (.ok verified), after)

section Verifying

variable {ks : Keystore} {libraries : AssertionLibraries} {name : String}
  {assertion : CitadelAssertion libraries.Value} {record : KeyMetadata} {caller : AuthContext}
  {later : AppState × Moments} {allowed : Step → World → Prop}

theorem find?_of_lookup {id : KeyId} {looked : AppState × Moments}
    (ran : (lookupReadableKeyOrDeny caller id).run (answering ks) later = (.ok record, looked)) :
    later.1.world.keys.find? id = some record := by
  obtain ⟨settled, middle, got, ran⟩ := of_run_bind_eq_ok ran
  cases settled with
  | error error =>
      simp only at ran
      split at ran
      · cases ran
      · cases ran
  | ok stored =>
      obtain ⟨domain, last, resolved, ran⟩ := of_run_bind_eq_ok ran
      split at ran
      · cases ran
        exact (find?_of_ask_get got).1
      · cases ran

/-- The signature of an assertion, and the key that was to verify it. -/
theorem Presents.verifiedBy (lawful : ks.crypto.Lawful) (signs : ks.crypto.Signs)
    (presents : Presents ks libraries allowed name assertion record caller later) :
    AppendsKem later.1.world.keys ∧ later.1.world.keys.find? ⟨name⟩ = some record ∧
      assertion.version = cnaVersion ∧ assertion.suite = "ml-dsa-65" ∧
      ∃ input, assertion.canonicalSigningInput libraries = .ok input ∧
        VerifiedBy ks record assertion.signingKeyVersion input assertion.signatureHex := by
  obtain ⟨⟨start, after, issuer, req, reachable, issue, reaches⟩, ⟨looked, lookup, -⟩, active⟩ :=
    presents
  have found := find?_of_lookup lookup
  obtain ⟨same, old, now, random, unsigned, input, payload, stored, -, built, canonical, rfl, env,
    world, left, entered, ran⟩ := issued_of_run issue
  obtain ⟨-, signer, present, -, current, verified⟩ :=
    Reachable.signed lawful signs reachable entered ran
  obtain rfl := Option.some.inj (stored.symm.trans present)
  have emptied : Emptied after.1.world.keys := same ▸ (reachable.sound lawful).2
  have appends : AppendsKem after.1.world.keys := same ▸ reachable.appendsKem
  rw [← same] at stored
  obtain ⟨kept, remains, outlives⟩ := reaches.extends emptied _ old stored
  obtain rfl := Option.some.inj (found.symm.trans remains)
  have live : record.state ≠ .destroyed := by simp [active]
  cases built
  have named := verified.outlives outlives live
  rw [← current] at named
  refine ⟨reaches.appendsKem appends, found, rfl, rfl, input, ?_, named⟩
  exact (CitadelAssertion.canonicalSigningInput_signed _ _).trans canonical

/-- An assertion is accepted when the public key of the current version verifies it. -/
theorem accepts_iff_verify {looked : AppState × Moments}
    (lookup : (lookupReadableKeyOrDeny caller ⟨name⟩).run (answering ks) later =
      (.ok record, looked)) :
    Accepts ks libraries name assertion caller later ↔
      ∃ version vkBytes verified, record.currentKeyVersion = some version ∧
        hexDecode (utf8 version.publicKeyHex) = .ok vkBytes ∧
        assertion.verify ks libraries (looked.2 0).now vkBytes = .ok verified := by
  unfold Accepts verifyAssertion
  rw [run_bind, lookup, andThen_ok]
  cases record.currentKeyVersion with
  | none => simp
  | some version =>
      cases decoded : hexDecode (utf8 version.publicKeyHex) with
      | error error => simp [decodeVerifyingKey, decoded, Program.ofExcept]
      | ok vkBytes =>
          simp [decodeVerifyingKey, decoded, Program.ofExcept, call, answering, serve,
            citadelAssertions]

/-- An assertion is accepted as long as the version that signed it is current. -/
theorem Presents.accepts_iff (lawful : ks.crypto.Lawful) (signs : ks.crypto.Signs)
    (presents : Presents ks libraries allowed name assertion record caller later) :
    Accepts ks libraries name assertion caller later ↔
      record.currentVersion = assertion.signingKeyVersion := by
  obtain ⟨appends, found, version, suite, input, canonical, verified⟩ :=
    presents.verifiedBy lawful signs
  obtain ⟨-, ⟨looked, lookup, before⟩, active⟩ := presents
  have live : record.state ≠ .destroyed := by simp [active]
  rw [accepts_iff_verify lookup]
  have signer := verified
  obtain ⟨signing, vkBytes, signature, names, stores, carries, verifies⟩ := signer
  constructor
  · rintro ⟨current, taken, claims, isCurrent, decoded, accepted⟩
    have checked := (CitadelAssertion.verify_iff version suite before canonical carries).mp
      ⟨claims, accepted⟩
    by_contra differs
    have numbered := KeyMetadata.version_of_getVersion isCurrent
    obtain ⟨error, refused⟩ := verified.other appends found live
      (KeyMetadata.mem_of_getVersion isCurrent) (by rwa [numbered]) decoded signature
    rw [checked] at refused
    cases refused
  · intro same
    obtain ⟨claims, accepted⟩ :=
      (CitadelAssertion.verify_iff version suite before canonical carries).mpr verifies
    refine ⟨signing, vkBytes, claims, ?_, ?_, accepted⟩
    · rw [KeyMetadata.currentKeyVersion, same]
      exact names
    · rw [stores, utf8_hexEncode, hexDecode_hexBytes]

/-- While the key is not rotated, the version that signed stays current. -/
theorem Presents.current
    (presents : Presents ks libraries (Keeps ⟨name⟩) name assertion record caller later) :
    record.currentVersion = assertion.signingKeyVersion := by
  obtain ⟨⟨start, after, issuer, req, reachable, issue, reaches⟩, ⟨looked, lookup, -⟩, -⟩ :=
    presents
  have found := find?_of_lookup lookup
  obtain ⟨same, old, now, random, unsigned, input, payload, stored, -, built, -, rfl, -⟩ :=
    issued_of_run issue
  cases built
  rw [← same] at stored
  obtain ⟨kept, present, current⟩ := reaches.currentIs ⟨old, stored, rfl⟩
  obtain rfl := Option.some.inj (found.symm.trans present)
  exact current

/-- In every run, whatever a signing key signed is verified as long as the key is active, and
an assertion is accepted exactly as long as the version that signed it is current, which it
is while the key is not rotated. -/
theorem signatures_over_rotations (ks : Keystore) (libraries : AssertionLibraries)
    (lawful : ks.crypto.Lawful) (signs : ks.crypto.Signs) :
    (∀ (world signed later : World) (now moment : Nat) (env verifier : Env) (id : KeyId)
        (message : Bytes) (payload : SignedPayload) (record : KeyMetadata),
      Reachable ks anyStep world →
      (ks.sign id message).run (handle env) { world with now := now } = (.ok payload, signed) →
      Reaches ks anyStep signed later → later.keys.find? id = some record →
      record.state = .active → verifier.getFault id = none →
      ((ks.verifySignature id message payload).run (handle verifier)
        { later with now := moment }).1 = .ok true) ∧
    ∀ (name : String) (assertion : CitadelAssertion libraries.Value) (record : KeyMetadata)
        (caller : AuthContext) (later : AppState × Moments),
      (Presents ks libraries anyStep name assertion record caller later →
        (Accepts ks libraries name assertion caller later ↔
          record.currentVersion = assertion.signingKeyVersion)) ∧
      (Presents ks libraries (Keeps ⟨name⟩) name assertion record caller later →
        Accepts ks libraries name assertion caller later) := by
  constructor
  · intro world signed later now moment env verifier id message payload record reachable ran reaches
      found active answers
    exact signature_verified_later lawful signs reachable ran reaches found active answers moment
  · intro name assertion record caller later
    constructor
    · exact fun presents => presents.accepts_iff lawful signs
    · exact fun presents => (presents.accepts_iff lawful signs).mpr presents.current

end Verifying

/-! ### An assertion of a line -/

/-- JSON whose values are their texts, for texts that need no escapes. -/
def plainJson : AssertionLibraries where
  Value := String
  string text := "\"" ++ text ++ "\""
  number value := toString value
  objectToString fields :=
    let ordered := fields.mergeSort fun left right => left.1 ≤ right.1
    .ok ("\x7b" ++ ",".intercalate (ordered.map fun field => "\"" ++ field.1 ++ "\":" ++ field.2) ++
      "\x7d")
  timestampOpt := some

/-- A server that knows the signing key of a line. -/
def lineApp (world : World) : AppState :=
  ⟨world, registered (keyNumbered 3) (keyNumbered 1).text, ⟨[]⟩, ⟨[]⟩⟩

/-- A caller confined to the domain of a line. -/
def lineCaller : AuthContext := ⟨"", "", [.read, .encrypt], some [(keyNumbered 1).text]⟩

/-- Moments in which nothing fails and no time passes. -/
def quietMoments : Moments := fun _ => quietMoment 5

/-- Claims that are valid for an hour. -/
def hourOfClaims : AssertionIssueReq String := ⟨3600, "null", none, none, none⟩

theorem begins_before : ((timestamp (quietMoments 0).now : Nat) : Int) < 3600 := by decide

theorem expires_hour :
    wrapI64 ((timestamp 0 : Nat) + wrapI64 (hourOfClaims.ttlSecs : Nat)) = 3600 := by
  decide

section Line

variable {ks : Keystore} {app : AppState} {world : World} {record : KeyMetadata} {input : Bytes}

/-- The server when its clock shows the beginning. -/
def AppState.begun (app : AppState) : AppState := { app with world := { app.world with now := 0 } }

theorem line_get (found : app.world.keys.find? (keyNumbered 3) = some record) :
    answering plainKeystore (.get (keyNumbered 3)) (app, quietMoments) =
      (.ok record, app.begun, quietMoments) := by
  have got : (Keystore.get (keyNumbered 3)).run (handle (quietMoments 0).env)
      { app.world with now := (quietMoments 0).now } = _ := get_run rfl found
  simp only [answering, serve, AppState.play, got]
  rfl

theorem line_resolve
    (resolves : ResolvesTo app.world.keys 10 (keyNumbered 3) (keyNumbered 1)) :
    answering ks (.resolveDomainForKey (keyNumbered 3)) (app, quietMoments) =
      (.ok (keyNumbered 1), app.begun, quietMoments) := by
  have begins : ResolvesTo ({ app.world with now := (quietMoments 0).now } : World).keys 10
      (keyNumbered 3) (keyNumbered 1) := resolves
  have resolved : (resolveDomainForKey (keyNumbered 3)).run (handle (quietMoments 0).env)
      { app.world with now := (quietMoments 0).now } = _ :=
    run_of_resolvesTo (quietEnv_reliable 5).get begins 0
  simp only [answering, serve, AppState.play, resolved]
  rfl

/-- The caller has access to the signing key. -/
theorem line_access (resolves : ResolvesTo app.world.keys 10 (keyNumbered 3) (keyNumbered 1)) :
    (authorizeDomainAccess lineCaller .readKey (some (keyNumbered 3))).run (answering ks)
        (app, quietMoments) = (.ok (some (keyNumbered 1)), app.begun, quietMoments) := by
  simp [authorizeDomainAccess, lineCaller, AuthContext.isGlobalAdmin, authorizeTarget,
    Program.ofOption, call_bind, line_resolve resolves, settle]

/-- The caller may read the signing key. -/
theorem line_lookup (app : AppState) (found : app.world.keys.find? (keyNumbered 3) = some record)
    (resolves : ResolvesTo app.world.keys 10 (keyNumbered 3) (keyNumbered 1)) :
    (lookupReadableKeyOrDeny lineCaller (keyNumbered 3)).run (answering plainKeystore)
        (app, quietMoments) = (.ok record, app.begun, quietMoments) := by
  have begun : app.begun.begun = app.begun := rfl
  have got := line_get found
  have later : ResolvesTo app.begun.world.keys 10 (keyNumbered 3) (keyNumbered 1) := resolves
  have resolved : answering plainKeystore (.resolveDomainForKey (keyNumbered 3))
      (app.begun, quietMoments) = _ := line_resolve later
  simp only [lookupReadableKeyOrDeny, call_bind, perform_bind, run_perform, got, settle, ret_bind,
    domainToRegister, resolved, Except.toOption, Option.map_some, begun]
  rw [if_pos]
  · rfl
  · simp [callerCanReadKey, lineCaller]

/-- The enforcer grants a signature with the key that it knows. -/
theorem line_granted (known : app.enforcer = registered (keyNumbered 3) (keyNumbered 1).text)
    (input : Bytes) :
    (requireAuthorized (.sign (keyNumbered 3).text (some (keyNumbered 1).text) input)).run
        (answering ks) (app, quietMoments) =
      (.ok (signContext ks (keyNumbered 3) (keyNumbered 1).text input).1,
        { app with enforcer := (signContext ks (keyNumbered 3) (keyNumbered 1).text input).2 },
        quietMoments) := by
  have granted : app.enforcer.answer ks.crypto.sha256 (quietMoments 0).issue
      (.sign (keyNumbered 3).text (some (keyNumbered 1).text) input) = _ :=
    known ▸ authorizeSign_registered (keyNumbered 3) (keyNumbered 1).text input
  unfold requireAuthorized authorize
  rw [call_bind, run_perform, answering, serve, granted]
  rfl

/-- A signature that was granted is made. -/
theorem line_signed {payload : SignedPayload} {left : World}
    (known : app.enforcer = (signContext ks (keyNumbered 3) (keyNumbered 1).text input).2)
    (signs : (ks.sign (keyNumbered 3) input).run (handle (quietMoments 0).env)
      { app.world with now := (quietMoments 0).now } = (.ok payload, left)) :
    ∃ after, after.world = left ∧ answering ks
      (.signAuthorized (signContext ks (keyNumbered 3) (keyNumbered 1).text input).1 input)
        (app, quietMoments) = (.ok payload, after, quietMoments) := by
  have ran : (ks.signAuthorized (app.boundary (quietMoments 0))
      (signContext ks (keyNumbered 3) (keyNumbered 1).text input).1 input).run
        (handle (quietMoments 0).env) { app.world with now := (quietMoments 0).now } =
          (.ok payload, left) := by
    rw [AppState.boundary, known]
    exact (signAuthorized_run_eq (keyNumbered 3) (keyNumbered 1).text input).trans signs
  have answered : (serve ks (quietMoments 0) app (.signAuthorized
      (signContext ks (keyNumbered 3) (keyNumbered 1).text input).1 input)).1 = .ok payload :=
    congrArg Prod.fst ran
  exact ⟨_, congrArg Prod.snd ran, Prod.ext answered rfl⟩

/-- The server once the enforcer has issued the context for a signature. -/
def lineGranted (world : World) (input : Bytes) : AppState :=
  { (lineApp world).begun with
    enforcer := (signContext plainKeystore (keyNumbered 3) (keyNumbered 1).text input).2 }

theorem line_authorizes (world : World) (input : Bytes) :
    (requireAuthorized (.sign (keyNumbered 3).text (some (keyNumbered 1).text) input)).run
        (answering plainKeystore) ((lineApp world).begun, quietMoments) =
      (.ok (signContext plainKeystore (keyNumbered 3) (keyNumbered 1).text input).1,
        lineGranted world input, quietMoments) :=
  line_granted rfl input

theorem line_signature (input : Bytes) (can : CanSign plainKeystore world.keys (keyNumbered 3)) :
    ∃ payload after, answering plainKeystore
        (.signAuthorized (signContext plainKeystore (keyNumbered 3) (keyNumbered 1).text input).1
          input)
        (lineGranted world input, quietMoments) = (.ok payload, after, quietMoments) := by
  obtain ⟨record, version, seed, found, signing, active, current, unwraps, exact⟩ := can
  obtain ⟨signature, signed, -⟩ := transparent_signs ⟨seed, exact⟩ input
  have signs : plainKeystore.signMessage seed input = .ok signature.1 := by
    rw [signMessage, dif_pos exact]
    simp only [plainKeystore, signed]
  have ready : (lineGranted world input).world.keys.find? (keyNumbered 3) = some record := found
  have ran : (plainKeystore.sign (keyNumbered 3) input).run (handle (quietMoments 0).env)
      { (lineGranted world input).world with now := (quietMoments 0).now } = _ :=
    sign_run (quietEnv_reliable 5).get ready signing active current unwraps signs
  obtain ⟨after, -, answered⟩ := line_signed rfl ran
  exact ⟨_, after, answered⟩

/-- The signing key of a line issues an assertion for any claims. -/
theorem line_issues (grove : Grove world.keys signingLine)
    (can : CanSign plainKeystore world.keys (keyNumbered 3)) (claims : AssertionIssueReq String) :
    ∃ (assertion : CitadelAssertion plainJson.Value) (after : AppState),
      (issueAssertion (citadelAssertions plainKeystore plainJson) lineCaller (keyNumbered 3).text
        claims).run (answering plainKeystore) (lineApp world, quietMoments) =
          (.ok assertion, after, quietMoments) ∧
      assertion.signingKeyVersion = 1 ∧
      assertion.expiresAt = wrapI64 (timestamp 0 + wrapI64 claims.ttlSecs) := by
  obtain ⟨record, first, found, planted⟩ := grove.planted 3 _ rfl
  have resolves : ResolvesTo (lineApp world).world.keys 10 (keyNumbered 3) (keyNumbered 1) :=
    grove.resolves_under_kek rfl rfl rfl nofun nofun
  have stored : (lineApp world).begun.world.keys.find? (keyNumbered 3) = some record := found
  obtain ⟨unsigned, built⟩ : ∃ unsigned : CitadelAssertion String,
      CitadelAssertion.buildUnsigned 0 (numbered 16 5) (keyNumbered 3).text record.currentVersion
        claims = .ok unsigned := ⟨_, rfl⟩
  obtain ⟨named, expires⟩ := CitadelAssertion.of_buildUnsigned built
  obtain ⟨input, canonical⟩ :
      ∃ input, CitadelAssertion.canonicalSigningInput plainJson unsigned = .ok input := ⟨_, rfl⟩
  obtain ⟨payload, after, signed⟩ := line_signature input can
  refine ⟨{ unsigned with signatureHex := payload.signatureHex }, after, ?_,
    named.trans planted.currentVersion, expires⟩
  exact issueAssertion_run (line_access resolves) (line_get stored) planted.keyType rfl rfl built
    canonical (line_authorizes world input) signed

/-- The signing key of a line in a run that rotates it. -/
theorem line_rotates (grove : Grove world.keys signingLine)
    (sound : Sound plainKeystore world.keys) :
    ∃ later record, Reaches plainKeystore anyStep world later ∧
      later.keys.find? (keyNumbered 3) = some record ∧ record.state = .active ∧
      record.currentVersion = 2 := by
  obtain ⟨record, first, wrapped, found, planted, -, rotates⟩ := grove.rotate_signing sound
  have fresh : (Step.mk world.now (quietEnv 4) (.rotate (keyNumbered 3))).Fresh world :=
    grove.fresh (by decide) (by decide)
  have reaches := Reaches.step _ (Reaches.refl : Reaches plainKeystore anyStep world _) fresh trivial
  rw [rotates] at reaches
  refine ⟨_, _, reaches, find?_insert_own planted.id, rfl, ?_⟩
  rw [rotatedRecord, nextVersion, planted.currentVersion]
  rfl

/-- The assertion of a line is accepted, and what its signing key signed is verified also
after a rotation. -/
theorem line_assertion_accepted :
    (∃ (assertion : CitadelAssertion plainJson.Value) (record : KeyMetadata)
      (later : AppState × Moments),
      Presents plainKeystore plainJson (Keeps (keyNumbered 3)) (keyNumbered 3).text assertion record
        lineCaller later ∧
      Accepts plainKeystore plainJson (keyNumbered 3).text assertion lineCaller later) ∧
    ∃ (payload : SignedPayload) (later : World) (record : KeyMetadata),
      later.keys.find? (keyNumbered 3) = some record ∧ record.currentVersion = 2 ∧
      payload.keyVersion = 1 ∧
      ((plainKeystore.verifySignature (keyNumbered 3) [] payload).run (handle (quietEnv 5))
        { later with now := 0 }).1 = .ok true := by
  obtain ⟨world, reachable, grove⟩ := exists_sparing_grove plainKeystore_growable signingLine_grows
  have can := grove.canSign transparent_lawful reachable rfl rfl rfl
  obtain ⟨verifies, accepts⟩ := signatures_over_rotations plainKeystore plainJson transparent_lawful
    transparent_signs
  obtain ⟨record, first, found, planted⟩ := grove.planted 3 _ rfl
  constructor
  · obtain ⟨assertion, after, issued, -, expires⟩ := line_issues grove can hourOfClaims
    have resolves : ResolvesTo world.keys 10 (keyNumbered 3) (keyNumbered 1) :=
      grove.resolves_under_kek rfl rfl rfl nofun nofun
    have same : after.world.keys = world.keys := (issued_of_run issued).1
    rw [← same] at found resolves
    have presents : Presents plainKeystore plainJson (Keeps (keyNumbered 3)) (keyNumbered 3).text
        assertion record lineCaller (after, quietMoments) := by
      refine ⟨⟨_, _, _, _, reachable.any, issued, .refl⟩, ⟨_, line_lookup after found resolves, ?_⟩,
        planted.state⟩
      rw [expires, expires_hour]
      exact begins_before
    exact ⟨assertion, record, _, presents, (accepts _ _ _ _ _).2 presents⟩
  · obtain ⟨stored, version, seed, present, signing, active, current, unwraps, exact⟩ := can
    obtain rfl := Option.some.inj (found.symm.trans present)
    have correct : plainKeystore.crypto.Signs := transparent_signs
    obtain ⟨signature, signed, -⟩ := correct ⟨seed, exact⟩ []
    have signs : plainKeystore.signMessage seed [] = .ok signature.1 := by
      simp [signMessage, exact, signed]
    have ran : (plainKeystore.sign (keyNumbered 3) []).run (handle (quietEnv 5))
        { world with now := world.now } = _ :=
      sign_run (quietEnv_reliable 5).get present signing active current unwraps signs
    have sound := (reachable.sound transparent_lawful).1
    obtain ⟨later, rotated, reaches, remains, alive, second⟩ := line_rotates grove sound
    refine ⟨_, later, rotated, remains, second, ?_,
      verifies _ _ _ _ 0 _ _ _ _ _ _ reachable.any ran reaches remains alive rfl⟩
    exact (KeyMetadata.version_of_getVersion current).trans planted.currentVersion

/-- After a rotation the assertion of a line is rejected, although its key is active. -/
theorem rotated_assertion_rejected :
    ∃ (assertion : CitadelAssertion plainJson.Value) (record : KeyMetadata)
      (later : AppState × Moments),
      Presents plainKeystore plainJson anyStep (keyNumbered 3).text assertion record lineCaller
        later ∧
      ¬ Accepts plainKeystore plainJson (keyNumbered 3).text assertion lineCaller later := by
  obtain ⟨world, reachable, grove⟩ := exists_sparing_grove plainKeystore_growable signingLine_grows
  obtain ⟨assertion, after, issued, named, expires⟩ :=
    line_issues grove (grove.canSign transparent_lawful reachable rfl rfl rfl) hourOfClaims
  have same : after.world.keys = world.keys := (issued_of_run issued).1
  obtain ⟨sound, emptied⟩ := reachable.sound transparent_lawful
  rw [← same] at grove sound emptied
  obtain ⟨later, record, reaches, found, active, second⟩ := line_rotates grove sound
  have home : ResolvesTo after.world.keys 10 (keyNumbered 3) (keyNumbered 1) :=
    grove.resolves_under_kek rfl rfl rfl nofun nofun
  have presents : Presents plainKeystore plainJson anyStep (keyNumbered 3).text assertion record
      lineCaller ({ after with world := later }, quietMoments) := by
    refine ⟨⟨_, _, _, _, reachable.any, issued, reaches⟩,
      ⟨_, line_lookup _ found (home.extends (reaches.extends emptied)), ?_⟩, active⟩
    rw [expires, expires_hour]
    exact begins_before
  refine ⟨assertion, record, _, presents, ?_⟩
  rw [presents.accepts_iff transparent_lawful transparent_signs, named, second]
  decide

end Line

end Citadel.Api
