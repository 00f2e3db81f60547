import Citadel.Core.StateEnforcer
import Citadel.Keystore.Signing

/-!
# The authorized entry points

Outside the crate the keystore encrypts, decrypts and signs only for a context that the
bound enforcer issued. Encryption and decryption also resolve the domain of the key
themselves and refuse a context for another domain; `sign_authorized` does not.
-/

namespace Citadel

open Envelope Program Citadel.Core

/-- The enforcer that a keystore is bound to, and what its clock shows during a call. -/
structure Boundary where
  enforcer : Option StateEnforcer
  reading : Reading

/-- `validate_authz`, with the enforcer that it leaves. -/
def Boundary.validateAuthz (boundary : Boundary) (authz : AuthorizedContext) :
    Except String Unit × Option StateEnforcer :=
  match boundary.enforcer with
  | some enforcer =>
      let (validated, after) := authz.validate enforcer boundary.reading
      (validated.mapError fun error =>
        s!"capability validation failed at keystore boundary: {error}", some after)
  | none =>
      (.error ("keystore has no bound StateEnforcer — call with_enforcer() before using " ++
        "encrypt_authorized, decrypt_authorized, or sign_authorized. " ++
        "Production keystores must always be bound to a live StateEnforcer."), none)

namespace Keystore

variable (ks : Keystore)

/-- `enforce_authorized_domain`. -/
def enforceAuthorizedDomain (authzDomain : Option String) (keyId : KeyId) : Prog String Unit :=
  match authzDomain with
  | none => .ret ()
  | some dom => do
      let resolved ← (resolveDomainForKey keyId).mapErr fun error =>
        s!"domain resolution failed for {keyId.text}: {error.display}"
      if resolved.text ≠ dom then
        .fail (s!"P217 cross-domain operation rejected: key {keyId.text} is in domain " ++
          s!"{resolved.text}, not authorized domain {dom}")
      else .ret ()

/-- `encrypt_authorized`. -/
def encryptAuthorized (boundary : Boundary) (authz : AuthorizedContext) (plaintext : Bytes)
    (aad : Aad) (context : Context) : Prog CallError EncryptedBlob := do
  Program.ofExcept .encrypt (boundary.validateAuthz authz).1
  let keyId : KeyId := ⟨authz.keyId⟩
  Program.ofExcept .encrypt (authz.requireEncryptFor authz.keyId)
  (enforceAuthorizedDomain authz.domainId keyId).mapErr .encrypt
  ks.encrypt keyId plaintext aad context

/-- `decrypt_authorized`. -/
def decryptAuthorized (boundary : Boundary) (authz : AuthorizedContext) (blob : EncryptedBlob)
    (aad : Aad) (context : Context) : Prog CallError Bytes := do
  Program.ofExcept .decrypt (boundary.validateAuthz authz).1
  Program.ofExcept .decrypt (authz.requireDecryptFor blob.keyId)
  (enforceAuthorizedDomain authz.domainId ⟨blob.keyId⟩).mapErr .decrypt
  ks.decrypt blob aad context

/-- `sign_authorized`. -/
def signAuthorized (boundary : Boundary) (authz : AuthorizedContext) (message : Bytes) :
    Prog CallError SignedPayload := do
  Program.ofExcept .sign (boundary.validateAuthz authz).1
  let keyId : KeyId := ⟨authz.keyId⟩
  Program.ofExcept .sign (authz.requireSignForPayload ks.crypto.sha256 authz.keyId message)
  ks.sign keyId message

end Keystore

/-- A call of an authorized entry point. -/
inductive AuthorizedCall where
  | encrypt (plaintext : Bytes) (aad : Aad) (context : Context)
  | decrypt (blob : EncryptedBlob) (aad : Aad) (context : Context)
  | sign (message : Bytes)

/-- The code of an authorized call. -/
def AuthorizedCall.prog (ks : Keystore) (boundary : Boundary) (authz : AuthorizedContext) :
    AuthorizedCall → Prog CallError CallValue
  | .encrypt plaintext aad context => do
      return .blob (← ks.encryptAuthorized boundary authz plaintext aad context)
  | .decrypt blob aad context => do
      return .plaintext (← ks.decryptAuthorized boundary authz blob aad context)
  | .sign message => do return .signature (← ks.signAuthorized boundary authz message)

/-- The operation of an entry point. -/
def AuthorizedCall.operation : AuthorizedCall → OperationType
  | .encrypt _ _ _ => .encrypt
  | .decrypt _ _ _ => .decrypt
  | .sign _ => .sign

/-- The key whose material a call uses. -/
def AuthorizedCall.key (authz : AuthorizedContext) : AuthorizedCall → KeyId
  | .decrypt blob _ _ => ⟨blob.keyId⟩
  | .encrypt _ _ _ => ⟨authz.keyId⟩
  | .sign _ => ⟨authz.keyId⟩

namespace Keystore

variable {ks : Keystore} {env : Env} {world after : World} {id : KeyId} {domain : String}

/-- The keystore's own check passes only in the domain of the context. -/
theorem resolvesTo_of_enforce
    (ran : (enforceAuthorizedDomain (some domain) id).run (handle env) world = (.ok (), after)) :
    ResolvesTo world.keys 10 id ⟨domain⟩ := by
  obtain ⟨resolved, middle, resolves, guarded⟩ := of_run_bind_eq_ok ran
  obtain ⟨same, -⟩ := of_run_guard_eq_ok guarded
  have found := resolvesTo_of_run (of_run_mapErr_eq_ok resolves)
  rw [← not_not.mp same]
  exact found

/-- An authorized encryption or decryption in a domain is on a key of that domain. -/
theorem resolvesTo_of_enforced {boundary : Boundary} {authz : AuthorizedContext}
    {call : AuthorizedCall} {value : CallValue} (bound : authz.domainId = some domain)
    (notSign : call.operation ≠ .sign)
    (ran : (call.prog ks boundary authz).run (handle env) world = (.ok value, after)) :
    ResolvesTo world.keys 10 (call.key authz) ⟨domain⟩ := by
  cases call with
  | encrypt plaintext aad context =>
      obtain ⟨blob, _, called, -⟩ := of_run_bind_eq_ok ran
      obtain ⟨_, -, called⟩ := of_run_ofExcept_bind_eq_ok called
      obtain ⟨_, -, called⟩ := of_run_ofExcept_bind_eq_ok called
      obtain ⟨_, _, enforced, -⟩ := of_run_bind_eq_ok called
      rw [bound] at enforced
      exact resolvesTo_of_enforce (of_run_mapErr_eq_ok enforced)
  | decrypt blob aad context =>
      obtain ⟨plaintext, _, called, -⟩ := of_run_bind_eq_ok ran
      obtain ⟨_, -, called⟩ := of_run_ofExcept_bind_eq_ok called
      obtain ⟨_, -, called⟩ := of_run_ofExcept_bind_eq_ok called
      obtain ⟨_, _, enforced, -⟩ := of_run_bind_eq_ok called
      rw [bound] at enforced
      exact resolvesTo_of_enforce (of_run_mapErr_eq_ok enforced)
  | sign message => exact absurd rfl notSign

/-- An active signing key whose seed can be unwrapped. -/
def CanSign (ks : Keystore) (keys : Keys) (id : KeyId) : Prop :=
  ∃ record version seed, keys.find? id = some record ∧ record.keyType = .signing ∧
    record.state = .active ∧ record.currentKeyVersion = some version ∧
    Unwraps ks keys false (maxUnwrapDepth + 1) id version seed ∧ seed.length = 32

/-- Only a key that can sign signs. -/
theorem canSign_of_run {message : Bytes} {payload : SignedPayload}
    (ran : (ks.sign id message).run (handle env) world = (.ok payload, after)) :
    CanSign ks world.keys id := by
  obtain ⟨-, record, version, seed, signature, found, signing, active, current, unwraps, signed, -⟩ :=
    signed_of_run ran
  exact ⟨record, version, seed, found, signing, active, current, unwraps,
    length_of_signMessage signed⟩

/-- An enforcer that knows one key, registered for one domain. -/
def registered (id : KeyId) (domain : String) : StateEnforcer :=
  (StateEnforcer.withConfig 1 60000 5000).registerKey id.text (some domain)

/-- The context for one signature and the enforcer that issued it. -/
def signContext (ks : Keystore) (id : KeyId) (domain : String) (message : Bytes) :
    AuthorizedContext × StateEnforcer :=
  (registered id domain).grant ⟨1, 0, 0⟩ .sign id.text (some domain) (.sign (ks.crypto.sha256 message))

/-- The registered key is authorized to sign in the domain of its registration. -/
theorem authorizeSign_registered (id : KeyId) (domain : String) (message : Bytes) :
    (registered id domain).authorizeSign ks.crypto.sha256 ⟨1, 0, 0⟩ id.text (some domain) message =
      (.ok (signContext ks id domain message).1, (signContext ks id domain message).2) := by
  have allowed : (registered id domain).validateKey id.text (some domain) = none := by
    simp [registered, StateEnforcer.validateKey, StateEnforcer.registerKey,
      StateEnforcer.withConfig]
  simp [StateEnforcer.authorizeSign, StateEnforcer.authorize, allowed, signContext]

/-- The context passes every check of `sign_authorized`, whatever the domain of the key. -/
theorem signAuthorized_run_eq (id : KeyId) (domain : String) (message : Bytes) :
    (ks.signAuthorized ⟨some (signContext ks id domain message).2, ⟨0, 0⟩⟩
        (signContext ks id domain message).1 message).run (handle env) world =
      (ks.sign id message).run (handle env) world := by
  have validated : (Boundary.validateAuthz ⟨some (signContext ks id domain message).2, ⟨0, 0⟩⟩
      (signContext ks id domain message).1).1 = .ok () := by
    simp [Boundary.validateAuthz, AuthorizedContext.validate, signContext, StateEnforcer.grant,
      StateEnforcer.generateCapabilityToken, StateEnforcer.validateCapability,
      StateEnforcer.retain, StateEnforcer.capabilityTokenTtlNanos, Except.mapError_ok]
  have required : (signContext ks id domain message).1.requireSignForPayload ks.crypto.sha256
      (signContext ks id domain message).1.keyId message = .ok () := by
    simp [AuthorizedContext.requireSignForPayload, AuthorizedContext.requireSignFor,
      AuthorizedContext.requireFor, signContext, StateEnforcer.grant]
  simp only [signAuthorized, validated, required, Program.ofExcept, ret_bind]
  rfl

theorem signAuthorized_run (signs : ks.crypto.Signs) (answers : ∀ id, env.getFault id = none)
    (can : CanSign ks world.keys id) (domain : String) (message : Bytes) :
    ∃ payload, (ks.signAuthorized ⟨some (signContext ks id domain message).2, ⟨0, 0⟩⟩
      (signContext ks id domain message).1 message).run (handle env) world = (.ok payload, world) := by
  obtain ⟨record, version, seed, found, signing, active, current, unwraps, exact⟩ := can
  obtain ⟨signature, signed, -⟩ := signs ⟨seed, exact⟩ message
  have signedBytes : ks.signMessage seed message = .ok signature.1 := by
    simp [signMessage, exact, signed]
  have ran := sign_run answers found signing active current unwraps signedBytes
  exact ⟨_, (signAuthorized_run_eq id domain message).trans ran⟩

/-- The domain of a context binds an entry point to the keys of that domain exactly if it
is not `sign_authorized`, or the key belongs to the domain or cannot sign. -/
theorem authorized_domain_iff (signs : ks.crypto.Signs) (world : World) (id : KeyId)
    (domain : String) (operation : OperationType) :
    (∀ (boundary : Boundary) (authz : AuthorizedContext) (call : AuthorizedCall) (env : Env)
      (value : CallValue) (after : World), call.operation = operation →
      authz.domainId = some domain → call.key authz = id →
      (call.prog ks boundary authz).run (handle env) world = (.ok value, after) →
      ResolvesTo world.keys 10 id ⟨domain⟩) ↔
    (operation ≠ .sign ∨ ResolvesTo world.keys 10 id ⟨domain⟩ ∨ ¬ CanSign ks world.keys id) := by
  constructor
  · intro confined
    rw [or_iff_not_imp_left, not_not]
    rintro rfl
    rw [or_iff_not_imp_right, not_not]
    intro can
    obtain ⟨payload, ran⟩ := signAuthorized_run signs (quietEnv_reliable 0).get can domain []
    apply confined ⟨some (signContext ks id domain []).2, ⟨0, 0⟩⟩ (signContext ks id domain []).1
      (.sign []) (quietEnv 0) (.signature payload) world rfl rfl rfl
    rw [AuthorizedCall.prog, run_bind, ran]
    rfl
  · rintro condition boundary authz call env value after rfl bound rfl ran
    rcases condition with notSign | resolves | cannot
    · exact resolvesTo_of_enforced bound notSign ran
    · exact resolves
    · cases call with
      | sign message =>
          obtain ⟨payload, _, called, -⟩ := of_run_bind_eq_ok ran
          obtain ⟨_, -, called⟩ := of_run_ofExcept_bind_eq_ok called
          obtain ⟨_, -, called⟩ := of_run_ofExcept_bind_eq_ok called
          exact absurd (canSign_of_run called) cannot
      | encrypt plaintext aad context => exact resolvesTo_of_enforced bound nofun ran
      | decrypt blob aad context => exact resolvesTo_of_enforced bound nofun ran

end Keystore

open Keystore

/-- A line down to a signing key, and a second domain. -/
def twoDomains : List Planting := signingLine ++ [⟨.domain, some 0, .active⟩]

theorem twoDomains_grows : Grows twoDomains :=
  signingLine_grows.snoc (.child rfl rfl (.inr rfl)) (by decide)

/-- The signing key of a line can sign while no signing key was rotated. -/
theorem Grove.canSign {ks : Keystore} (lawful : ks.crypto.Lawful) {plan : List Planting}
    {world : World} (reachable : Reachable ks SparesSigning world) (grove : Grove world.keys plan)
    (domainPlace : plan[1]? = some ⟨.domain, some 0, .active⟩)
    (kekPlace : plan[2]? = some ⟨.keyEncrypting, some 1, .active⟩)
    (place : plan[3]? = some ⟨.signing, some 2, .active⟩) :
    CanSign ks world.keys (keyNumbered 3) := by
  obtain ⟨sound, -⟩ := reachable.sound lawful
  obtain ⟨record, version, found, planted⟩ := grove.planted 3 _ place
  have member : version ∈ record.versions := by simp [planted.versions]
  have live : record.state ≠ .destroyed := by simp [planted.state]
  obtain ⟨secret, holds, pair⟩ := Reachable.holdPairs lawful reachable _ _ found live version member
  rw [planted.keyType] at pair
  obtain ⟨seed, rfl, -⟩ := pair
  have recoverable : Recoverable world.keys false (maxUnwrapDepth + 1) version :=
    grove.recoverable_under_kek domainPlace kekPlace (fun _ _ => rfl) planted.wrappedBy
      planted.wrappedAt
  exact ⟨record, version, seed.1, found, planted.keyType, planted.state, planted.current,
    recoverable.unwraps lawful sound holds, seed.2⟩

/-- A plan is grown without rotating a signing key. -/
theorem exists_sparing_grove {ks : Keystore} (growable : Growable ks) {plan : List Planting}
    (grows : Grows plan) :
    ∃ world, Reachable ks SparesSigning world ∧ Grove world.keys plan := by
  obtain ⟨world, reachable, grove, -⟩ : ∃ world, Reachable ks SparesSigning world ∧
      Grove world.keys plan ∧ world.replay = .memory ⟨1, []⟩ :=
    exists_grove growable 0 _ (fun _ _ _ _ grows _ _ => sparesSigning_of_grows grows) grows
  exact ⟨world, reachable, grove⟩

/-- The signing key of the line can sign. -/
theorem exists_canSign :
    ∃ world, Reachable plainKeystore anyStep world ∧ Grove world.keys twoDomains ∧
      CanSign plainKeystore world.keys (keyNumbered 3) := by
  obtain ⟨world, reachable, grove⟩ := exists_sparing_grove plainKeystore_growable twoDomains_grows
  exact ⟨world, reachable.any, grove, grove.canSign transparent_lawful reachable rfl rfl rfl⟩

/-- A context for the second domain makes the signing key of the first one sign. -/
theorem foreign_domain_signs :
    ∃ world context enforcer payload other, Reachable plainKeystore anyStep world ∧
      (registered (keyNumbered 3) (keyNumbered 4).text).authorizeSign plainKeystore.crypto.sha256
        ⟨1, 0, 0⟩ (keyNumbered 3).text (some (keyNumbered 4).text) [] = (.ok context, enforcer) ∧
      context.domainId = some (keyNumbered 4).text ∧
      ((plainKeystore.signAuthorized ⟨some enforcer, ⟨0, 0⟩⟩ context []).run
        (handle (quietEnv 5)) world).1 = .ok payload ∧
      world.keys.find? (keyNumbered 4) = some other ∧ other.keyType = .domain ∧
      ¬ ResolvesTo world.keys 10 (keyNumbered 3) (keyNumbered 4) := by
  obtain ⟨world, reachable, grove, can⟩ := exists_canSign
  obtain ⟨other, version, found, planted⟩ := grove.planted 4 _ rfl
  obtain ⟨payload, ran⟩ := signAuthorized_run transparent_signs (quietEnv_reliable 5).get can
    (keyNumbered 4).text []
  refine ⟨world, _, _, payload, other, reachable, authorizeSign_registered _ _ _, rfl,
    congrArg Prod.fst ran, found, planted.keyType, ?_⟩
  intro resolves
  have home : ResolvesTo world.keys 10 (keyNumbered 3) (keyNumbered 1) :=
    grove.resolves_under_kek rfl rfl rfl nofun nofun
  have same := home.unique resolves
  rw [keyNumbered_inj (by decide) (by decide)] at same
  cases same

/-- A context for the first domain that signs is for a key of that domain. -/
theorem home_domain_signs :
    ∃ world, Reachable plainKeystore anyStep world ∧
      ∀ (boundary : Boundary) (authz : AuthorizedContext) (call : AuthorizedCall) (env : Env)
        (value : CallValue) (after : World), call.operation = .sign →
        authz.domainId = some (keyNumbered 1).text → call.key authz = keyNumbered 3 →
        (call.prog plainKeystore boundary authz).run (handle env) world = (.ok value, after) →
        ResolvesTo world.keys 10 (keyNumbered 3) ⟨(keyNumbered 1).text⟩ := by
  obtain ⟨world, reachable, grove, -⟩ := exists_canSign
  refine ⟨world, reachable, ?_⟩
  rw [authorized_domain_iff transparent_signs]
  exact .inr (.inl (grove.resolves_under_kek rfl rfl rfl nofun nofun))

end Citadel
