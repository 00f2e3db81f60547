import Citadel.Core.Authority
import Citadel.Keystore.Authorized

/-!
# Contexts at the keystore boundary

An authorized call that succeeds has consumed its context: the bound enforcer issued it,
nobody accepted it before, and it was issued for the operation, the key and, for a
signature, the hash of the message. This needs every check of the entry points.
-/

namespace Citadel

open Envelope Program Citadel.Core

namespace Core

/-- A context says what it was asked for. -/
structure Request.Describes (sha256 : Bytes → SizedBytes 32) (request : Request)
    (context : AuthorizedContext) : Prop where
  operation : context.operation = request.operation
  subject : context.keyId = request.subject
  params : context.operationParams = request.params sha256

theorem Runs.describes {sha256 : Bytes → SizedBytes 32} {enforcers : Nat → StateEnforcer}
    {events : List Event} (runs : Runs sha256 enforcers events) {i : Nat} {request : Request}
    {context : AuthorizedContext} (issued : .issued i request context ∈ events) :
    request.Describes sha256 context := by
  induction runs with
  | start fresh => cases issued
  | registerKey i keyId domainId prior ih => exact ih issued
  | revokeKey i keyId prior ih => exact ih issued
  | issue prior nonzero distinct granted ih =>
      rcases List.mem_append.mp issued with earlier | new
      · exact ih earlier
      · cases List.mem_singleton.mp new
        have grant := (StateEnforcer.granted_of_answer granted).grant
        cases grant
        exact ⟨rfl, rfl, rfl⟩
  | deny prior denied ih => exact ih issued
  | accept prior known validated ih =>
      apply ih
      simpa using issued
  | reject prior known rejected ih => exact ih issued

end Core

/-- An enforcer is bound, and it accepted the context. -/
theorem Boundary.of_validateAuthz {boundary : Boundary} {authz : AuthorizedContext}
    (passed : (boundary.validateAuthz authz).1 = .ok ()) :
    ∃ enforcer after, boundary.enforcer = some enforcer ∧
      authz.validate enforcer boundary.reading = (.ok (), after) ∧
      (boundary.validateAuthz authz).2 = some after := by
  unfold Boundary.validateAuthz at passed ⊢
  cases bound : boundary.enforcer with
  | none => simp [bound] at passed
  | some enforcer =>
      cases validated : authz.validate enforcer boundary.reading with
      | mk outcome after =>
          cases outcome with
          | error message => simp [bound, validated, Except.mapError_error] at passed
          | ok value => exact ⟨enforcer, after, rfl, validated, by simp [validated]⟩

/-- A context that passes is for the operation and the key. -/
theorem of_requireFor {authz : AuthorizedContext} {operation : OperationType}
    {requested subject keyId : String}
    (passed : authz.requireFor operation requested subject keyId = .ok ()) :
    authz.operation = operation ∧ authz.keyId = keyId := by
  unfold AuthorizedContext.requireFor at passed
  split at passed
  · cases passed
  · rename_i sameOperation
    split at passed
    · cases passed
    · rename_i sameKey
      exact ⟨not_not.mp sameOperation, not_not.mp sameKey⟩

/-- A context that passes for a signature is also for the hash of the message. -/
theorem of_requireSignForPayload {sha256 : Bytes → SizedBytes 32} {authz : AuthorizedContext}
    {keyId : String} {message : Bytes}
    (passed : authz.requireSignForPayload sha256 keyId message = .ok ()) :
    authz.operation = .sign ∧ authz.keyId = keyId ∧
      authz.operationParams = .sign (sha256 message) := by
  unfold AuthorizedContext.requireSignForPayload at passed
  split at passed
  · cases passed
  · rename_i required
    obtain ⟨operation, key⟩ := of_requireFor required
    split at passed
    · rename_i payloadHash params
      split at passed
      · rename_i sameHash
        rw [sameHash] at params
        exact ⟨operation, key, params⟩
      · cases passed
    · cases passed

namespace Keystore

variable {ks : Keystore} {env : Env} {world after : World} {boundary : Boundary}
  {authz : AuthorizedContext} {call : AuthorizedCall} {value : CallValue}

/-- What every entry point has checked once it succeeds. -/
structure Checked (ks : Keystore) (boundary : Boundary) (authz : AuthorizedContext)
    (call : AuthorizedCall) : Prop where
  validated : (boundary.validateAuthz authz).1 = .ok ()
  operation : authz.operation = call.operation
  key : authz.keyId = (call.key authz).text
  payload : ∀ message, call = .sign message →
    authz.operationParams = .sign (ks.crypto.sha256 message)

theorem checked_of_run
    (ran : (call.prog ks boundary authz).run (handle env) world = (.ok value, after)) :
    Checked ks boundary authz call := by
  cases call with
  | encrypt plaintext aad context =>
      obtain ⟨blob, _, called, -⟩ := of_run_bind_eq_ok ran
      obtain ⟨_, validated, called⟩ := of_run_ofExcept_bind_eq_ok called
      obtain ⟨_, required, called⟩ := of_run_ofExcept_bind_eq_ok called
      obtain ⟨operation, key⟩ := of_requireFor required
      refine ⟨validated, operation, key, ?_⟩
      intro message signs
      cases signs
  | decrypt blob aad context =>
      obtain ⟨plaintext, _, called, -⟩ := of_run_bind_eq_ok ran
      obtain ⟨_, validated, called⟩ := of_run_ofExcept_bind_eq_ok called
      obtain ⟨_, required, called⟩ := of_run_ofExcept_bind_eq_ok called
      obtain ⟨operation, key⟩ := of_requireFor required
      refine ⟨validated, operation, key, ?_⟩
      intro message signs
      cases signs
  | sign message =>
      obtain ⟨payload, _, called, -⟩ := of_run_bind_eq_ok ran
      obtain ⟨_, validated, called⟩ := of_run_ofExcept_bind_eq_ok called
      obtain ⟨_, required, called⟩ := of_run_ofExcept_bind_eq_ok called
      obtain ⟨operation, key, params⟩ := of_requireSignForPayload required
      refine ⟨validated, operation, key, ?_⟩
      rintro other ⟨⟩
      exact params

/-- What a successful call says about the context that it was given: the bound enforcer
issued it for this operation and key, and the call is its first acceptance. -/
structure Consumes (ks : Keystore) (enforcers : Nat → StateEnforcer) (events : List Core.Event)
    (bound : Option Nat) (reading : Reading) (authz : AuthorizedContext) (call : AuthorizedCall)
    (issuer : Nat) (request : Request) : Prop where
  atIssuer : bound = some issuer
  unused : acceptances authz events = []
  spent : ∃ spent, (Boundary.validateAuthz ⟨bound.map enforcers, reading⟩ authz).2 = some spent ∧
    Runs ks.crypto.sha256 (Function.update enforcers issuer spent)
      (events ++ [.accepted issuer authz])
  operation : request.operation = call.operation
  key : request.subject = (call.key authz).text
  payload : ∀ message, call = .sign message →
    ∃ keyId domain signed, request = .sign keyId domain signed ∧
      ks.crypto.sha256 signed = ks.crypto.sha256 message

/-- A request whose parameters are those of a signature is for one. -/
theorem sign_of_params {sha256 : Bytes → SizedBytes 32} {request : Request}
    {hash : SizedBytes 32} (params : request.params sha256 = .sign hash) :
    ∃ keyId domain signed, request = .sign keyId domain signed ∧ sha256 signed = hash := by
  cases request with
  | sign keyId domain signed =>
      cases params
      exact ⟨keyId, domain, signed, rfl, rfl⟩
  | encrypt sender domain recipient => cases params
  | decrypt key domain => cases params
  | keyRotation old new domain => cases params
  | apiRequest key domain => cases params
  | verify key domain => cases params

theorem consumes_of_run {enforcers : Nat → StateEnforcer} {events : List Core.Event}
    (runs : Runs ks.crypto.sha256 enforcers events) {bound : Option Nat} {reading : Reading}
    {issuer : Nat} {request : Request} (issued : .issued issuer request authz ∈ events)
    (ran : (call.prog ks ⟨bound.map enforcers, reading⟩ authz).run (handle env) world =
      (.ok value, after)) :
    Consumes ks enforcers events bound reading authz call issuer request := by
  have checked := checked_of_run ran
  obtain ⟨enforcer, spent, isBound, validated, left⟩ := Boundary.of_validateAuthz checked.validated
  obtain ⟨i, rfl, rfl⟩ := Option.map_eq_some_iff.mp isBound
  obtain ⟨rfl, unused⟩ := runs.tracked.of_validate issued validated
  have describes := runs.describes issued
  refine ⟨rfl, unused, ⟨spent, left, .accept runs issued validated⟩, ?_, ?_, ?_⟩
  · rw [← describes.operation, checked.operation]
  · rw [← describes.subject, checked.key]
  · intro message isSign
    apply sign_of_params
    rw [← describes.params, checked.payload message isSign]

/-- A context is accepted at most once and only by its issuer, whatever happens to the
enforcers in between, and an authorized call that succeeds consumes a context that was
issued for it. -/
theorem context_single_use (ks : Keystore) (enforcers : Nat → StateEnforcer) (events : List Core.Event)
    (runs : Runs ks.crypto.sha256 enforcers events) :
    (∀ context, (acceptances context events).length ≤ 1 ∧
      ∀ i, .accepted i context ∈ events →
        (∃ request, .issued i request context ∈ events) ∧
        ∀ j request, .issued j request context ∈ events → j = i) ∧
    (∀ (bound : Option Nat) (reading : Reading) (authz : AuthorizedContext) (call : AuthorizedCall)
      (issuer : Nat) (request : Request) (env : Env) (world : World) (value : CallValue)
      (after : World), .issued issuer request authz ∈ events →
      (call.prog ks ⟨bound.map enforcers, reading⟩ authz).run (handle env) world =
        (.ok value, after) →
      Consumes ks enforcers events bound reading authz call issuer request) := by
  have tracked := runs.tracked
  constructor
  · intro context
    refine ⟨tracked.once context, ?_⟩
    intro i accepted
    obtain ⟨request, issued⟩ := tracked.accepted i context accepted
    refine ⟨⟨request, issued⟩, ?_⟩
    intro j other again
    exact (tracked.unique _ _ _ _ _ _ again issued rfl).1
  · intro bound reading authz call issuer request env world value after issued ran
    exact consumes_of_run runs issued ran

/-- One enforcer among fresh ones has issued the context for a signature. -/
theorem runs_signContext (ks : Keystore) (id : KeyId) (domain : String) (message : Bytes) :
    ∃ enforcers, Runs ks.crypto.sha256 enforcers
        [.issued 0 (.sign id.text (some domain) message) (signContext ks id domain message).1] ∧
      enforcers 0 = (signContext ks id domain message).2 := by
  have fresh : Runs ks.crypto.sha256 (fun _ => StateEnforcer.withConfig 1 60000 5000) [] :=
    .start fun _ => ⟨1, 60000, 5000, rfl⟩
  have known := fresh.registerKey 0 id.text (some domain)
  have granted : StateEnforcer.answer ks.crypto.sha256
      ((Function.update (fun _ => StateEnforcer.withConfig 1 60000 5000) 0 (registered id domain) :
        Nat → StateEnforcer) 0) ⟨1, 0, 0⟩ (.sign id.text (some domain) message) =
      (.ok (signContext ks id domain message).1, (signContext ks id domain message).2) := by
    rw [Function.update_self]
    exact authorizeSign_registered id domain message
  have distinct : ∀ (j : Nat) (other : Request) (earlier : AuthorizedContext),
      Event.issued j other earlier ∈ [] → earlier.capability.nonce ≠ 1 := by
    intro j other earlier issued
    cases issued
  exact ⟨_, .issue known Nat.one_ne_zero distinct granted, Function.update_self _ _ _⟩

end Keystore

open Keystore

/-- A signature consumes the context that was issued for it. -/
theorem signature_consumes_context :
    ∃ (enforcers : Nat → StateEnforcer) (events : List Core.Event) (world : World)
      (context : AuthorizedContext) (request : Request) (payload : SignedPayload),
      Runs plainKeystore.crypto.sha256 enforcers events ∧ .issued 0 request context ∈ events ∧
      ((AuthorizedCall.sign [7, 8, 9]).prog plainKeystore ⟨(some 0).map enforcers, ⟨0, 0⟩⟩
        context).run (handle (quietEnv 5)) world = (.ok (.signature payload), world) ∧
      Consumes plainKeystore enforcers events (some 0) ⟨0, 0⟩ context (.sign [7, 8, 9]) 0
        request := by
  obtain ⟨world, -, -, can⟩ := exists_canSign
  obtain ⟨enforcers, runs, same⟩ :=
    runs_signContext plainKeystore (keyNumbered 3) (keyNumbered 1).text [7, 8, 9]
  obtain ⟨payload, signed⟩ := signAuthorized_run transparent_signs (quietEnv_reliable 5).get can
    (keyNumbered 1).text [7, 8, 9]
  rw [← same] at signed
  have ran : ((AuthorizedCall.sign [7, 8, 9]).prog plainKeystore ⟨(some 0).map enforcers, ⟨0, 0⟩⟩
      (signContext plainKeystore (keyNumbered 3) (keyNumbered 1).text [7, 8, 9]).1).run
      (handle (quietEnv 5)) world = (.ok (.signature payload), world) := by
    rw [AuthorizedCall.prog, run_bind]
    exact (congrArg _ signed).trans rfl
  refine ⟨enforcers, _, world, _, _, payload, runs, List.mem_singleton_self _, ran, ?_⟩
  exact (context_single_use _ _ _ runs).2 _ _ _ _ _ _ _ _ _ _ (List.mem_singleton_self _) ran

end Citadel
