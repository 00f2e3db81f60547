import Citadel.Core.StateEnforcer

/-!
# Runs of state enforcers

A request asks an enforcer for a context; `Operation` is everything that can happen to
one enforcer. `Runs` plays any number of enforcers side by side and keeps the history of
the contexts they issued and accepted. A token is in the registry of an enforcer only
while the context that carries it was issued there and not accepted yet.
-/

namespace Citadel.Core

/-! ### Requests and operations -/

/-- The calls that ask for a context. -/
inductive Request where
  | encrypt (senderKeyId : String) (senderDomain recipientKeyId : Option String)
  | decrypt (decryptorKeyId : String) (decryptorDomain : Option String)
  | keyRotation (oldKeyId newKeyId : String) (domain : Option String)
  | apiRequest (keyId : String) (domain : Option String)
  | sign (signingKeyId : String) (domain : Option String) (message : Bytes)
  | verify (signingKeyId : String) (domain : Option String)
  deriving DecidableEq, Repr

namespace Request

/-- The key that a context is asked for. -/
def subject : Request → String
  | .encrypt sender _ _ => sender
  | .decrypt key _ => key
  | .keyRotation old _ _ => old
  | .apiRequest key _ => key
  | .sign key _ _ => key
  | .verify key _ => key

/-- The key that an encryption is for. -/
def recipient : Request → Option String
  | .encrypt _ _ recipient => recipient
  | _ => none

/-- The domain that a context is asked for. -/
def domain : Request → Option String
  | .encrypt _ domain _ => domain
  | .decrypt _ domain => domain
  | .keyRotation _ _ domain => domain
  | .apiRequest _ domain => domain
  | .sign _ domain _ => domain
  | .verify _ domain => domain

/-- The operation that a context is asked for. -/
def operation : Request → OperationType
  | .encrypt _ _ _ => .encrypt
  | .decrypt _ _ => .decrypt
  | .keyRotation _ _ _ => .keyRotation
  | .apiRequest _ _ => .keyAccess
  | .sign _ _ _ => .sign
  | .verify _ _ => .verify

/-- What a context says about the operation. -/
def params (sha256 : Bytes → SizedBytes 32) : Request → OperationParams
  | .encrypt _ _ recipient => .encrypt recipient
  | .decrypt _ _ => .decrypt
  | .keyRotation _ new _ => .keyRotation new
  | .apiRequest _ _ => .keyAccess
  | .sign _ _ message => .sign (sha256 message)
  | .verify _ _ => .verify

end Request

namespace StateEnforcer

variable {sha256 : Bytes → SizedBytes 32} {enforcer after : StateEnforcer} {issue : Issue}
  {request : Request} {context : AuthorizedContext}

/-- The answer to a request. -/
def answer (sha256 : Bytes → SizedBytes 32) (enforcer : StateEnforcer) (issue : Issue) :
    Request → Except DenialReason AuthorizedContext × StateEnforcer
  | .encrypt sender domain recipient => enforcer.authorizeEncrypt issue sender domain recipient
  | .decrypt key domain => enforcer.authorizeDecrypt issue key domain
  | .keyRotation old new domain => enforcer.authorizeKeyRotation issue old new domain
  | .apiRequest key domain => enforcer.authorizeApiRequest issue key domain
  | .sign key domain message => enforcer.authorizeSign sha256 issue key domain message
  | .verify key domain => enforcer.authorizeVerify issue key domain

/-- What a granted request passed, and what it was granted. -/
structure Granted (sha256 : Bytes → SizedBytes 32) (enforcer : StateEnforcer) (issue : Issue)
    (request : Request) (context : AuthorizedContext) (after : StateEnforcer) : Prop where
  subject : enforcer.validateKey request.subject request.domain = none
  recipient : ∀ recipient, request.recipient = some recipient →
    recipient ∈ enforcer.validKeys ∧ recipient ∉ enforcer.revokedKeys
  grant : (context, after) = enforcer.grant issue request.operation request.subject
    request.domain (request.params sha256)

/-- The requests that need no more than a valid key. -/
theorem validateKey_of_authorize {operation : OperationType} {keyId : String}
    {domain : Option String} {params : OperationParams}
    (granted : enforcer.authorize issue operation keyId domain params = (.ok context, after)) :
    enforcer.validateKey keyId domain = none ∧
      (context, after) = enforcer.grant issue operation keyId domain params := by
  unfold authorize at granted
  split at granted
  · cases granted
  · rename_i valid
    cases granted
    exact ⟨valid, rfl⟩

theorem granted_of_answer (granted : enforcer.answer sha256 issue request = (.ok context, after)) :
    Granted sha256 enforcer issue request context after := by
  cases request with
  | encrypt sender domain recipient =>
      simp only [answer, authorizeEncrypt] at granted
      split at granted
      · cases granted
      · rename_i valid
        cases recipient with
        | none =>
            cases granted
            exact ⟨valid, nofun, rfl⟩
        | some recipient =>
            simp only at granted
            split at granted
            · cases granted
            · rename_i known
              split at granted
              · cases granted
              · rename_i unrevoked
                cases granted
                refine ⟨valid, ?_, rfl⟩
                rintro other ⟨⟩
                exact ⟨not_not.mp known, unrevoked⟩
  | keyRotation old new domain =>
      simp only [answer, authorizeKeyRotation] at granted
      split at granted
      · cases granted
      · rename_i valid
        split at granted
        · cases granted
        · cases granted
          exact ⟨valid, nofun, rfl⟩
  | decrypt key domain =>
      obtain ⟨valid, grant⟩ := validateKey_of_authorize granted
      exact ⟨valid, nofun, grant⟩
  | apiRequest key domain =>
      obtain ⟨valid, grant⟩ := validateKey_of_authorize granted
      exact ⟨valid, nofun, grant⟩
  | sign key domain message =>
      obtain ⟨valid, grant⟩ := validateKey_of_authorize granted
      exact ⟨valid, nofun, grant⟩
  | verify key domain =>
      obtain ⟨valid, grant⟩ := validateKey_of_authorize granted
      exact ⟨valid, nofun, grant⟩

theorem eq_of_authorize_error {operation : OperationType} {keyId : String}
    {domain : Option String} {params : OperationParams} {denial : DenialReason}
    (denied : enforcer.authorize issue operation keyId domain params = (.error denial, after)) :
    after = enforcer := by
  unfold authorize at denied
  split at denied
  · cases denied
    rfl
  · cases denied

/-- A denied request leaves the enforcer as it was. -/
theorem eq_of_answer_error {denial : DenialReason}
    (denied : enforcer.answer sha256 issue request = (.error denial, after)) : after = enforcer := by
  cases request with
  | encrypt sender domain recipient =>
      simp only [answer, authorizeEncrypt] at denied
      split at denied
      · cases denied
        rfl
      · cases recipient with
        | none => cases denied
        | some recipient =>
            simp only at denied
            split at denied
            · cases denied
              rfl
            · split at denied
              · cases denied
                rfl
              · cases denied
  | keyRotation old new domain =>
      simp only [answer, authorizeKeyRotation] at denied
      split at denied
      · cases denied
        rfl
      · split at denied
        · cases denied
          rfl
        · cases denied
  | decrypt key domain => exact eq_of_authorize_error denied
  | apiRequest key domain => exact eq_of_authorize_error denied
  | sign key domain message => exact eq_of_authorize_error denied
  | verify key domain => exact eq_of_authorize_error denied

/-- A valid key is not revoked, and it is registered for the domain if there is one. -/
theorem validateKey_eq_none_iff {keyId : String} {domain : Option String} :
    enforcer.validateKey keyId domain = none ↔
      keyId ∉ enforcer.revokedKeys ∧ keyId ∈ enforcer.validKeys ∧
        ∀ name, domain = some name → ∃ keys, enforcer.domainKeys name = some keys ∧ keyId ∈ keys := by
  unfold validateKey
  by_cases revoked : keyId ∈ enforcer.revokedKeys
  · simp [revoked]
  by_cases valid : keyId ∈ enforcer.validKeys
  · cases domain with
    | none => simp [revoked, valid]
    | some name =>
        cases registered : enforcer.domainKeys name with
        | none => simp [revoked, valid, registered]
        | some keys => simp [revoked, valid, registered]
  · simp [revoked, valid]

end StateEnforcer

/-- Everything that can happen to an enforcer. -/
inductive Operation where
  | registerKey (keyId : String) (domainId : Option String)
  | revokeKey (keyId : String)
  | authorize (issue : Issue) (request : Request)
  | validate (context : AuthorizedContext) (reading : Reading)

/-- The enforcer after an operation. -/
def Operation.apply (sha256 : Bytes → SizedBytes 32) (enforcer : StateEnforcer) :
    Operation → StateEnforcer
  | .registerKey keyId domainId => enforcer.registerKey keyId domainId
  | .revokeKey keyId => enforcer.revokeKey keyId
  | .authorize issue request => (enforcer.answer sha256 issue request).2
  | .validate context reading => (context.validate enforcer reading).2

/-- The enforcer after a sequence of operations. -/
def performed (sha256 : Bytes → SizedBytes 32) (start : StateEnforcer)
    (operations : List Operation) : StateEnforcer :=
  operations.foldl (Operation.apply sha256) start

theorem performed_append_singleton (sha256 : Bytes → SizedBytes 32) (start : StateEnforcer)
    (operations : List Operation) (last : Operation) :
    performed sha256 start (operations ++ [last]) =
      last.apply sha256 (performed sha256 start operations) := by
  simp [performed]

/-! ### Keys -/

namespace StateEnforcer

variable {sha256 : Bytes → SizedBytes 32} {enforcer after : StateEnforcer}

/-- The enforcers that know the same keys. -/
structure SameKeys (enforcer after : StateEnforcer) : Prop where
  valid : after.validKeys = enforcer.validKeys
  revoked : after.revokedKeys = enforcer.revokedKeys
  domains : after.domainKeys = enforcer.domainKeys

theorem sameKeys_answer (issue : Issue) (request : Request) :
    SameKeys enforcer (enforcer.answer sha256 issue request).2 := by
  cases answered : enforcer.answer sha256 issue request with
  | mk outcome after =>
      cases outcome with
      | error denial =>
          rw [eq_of_answer_error answered]
          exact ⟨rfl, rfl, rfl⟩
      | ok context =>
          have grant := (granted_of_answer answered).grant
          cases grant
          exact ⟨rfl, rfl, rfl⟩

theorem sameKeys_validateCapability (token : CapabilityToken) (nowNanos : Nat) :
    SameKeys enforcer (enforcer.validateCapability token nowNanos).2 := by
  unfold validateCapability
  split
  · exact ⟨rfl, rfl, rfl⟩
  · split
    · exact ⟨rfl, rfl, rfl⟩
    · exact ⟨rfl, rfl, rfl⟩

/-- A validation leaves what checking its token leaves. -/
theorem validate_snd (context : AuthorizedContext) (reading : Reading) :
    (context.validate enforcer reading).2 =
      (enforcer.validateCapability context.capability reading.nanos).2 := by
  unfold AuthorizedContext.validate
  split
  rename_i accepted after checked
  rw [checked]
  split
  · rfl
  · dsimp only
    split
    · rfl
    · rfl

theorem after_of_validate {context : AuthorizedContext} {reading : Reading}
    {outcome : Except String Unit} (validated : context.validate enforcer reading = (outcome, after)) :
    after = (enforcer.validateCapability context.capability reading.nanos).2 := by
  rw [← validate_snd, validated]

/-- What the collections of an enforcer say about its history. -/
structure Records (operations : List Operation) (enforcer : StateEnforcer) : Prop where
  revoked : ∀ keyId, keyId ∈ enforcer.revokedKeys ↔ .revokeKey keyId ∈ operations
  registered : ∀ domain keys keyId, enforcer.domainKeys domain = some keys → keyId ∈ keys →
    .registerKey keyId (some domain) ∈ operations

theorem Records.of_sameKeys {operations : List Operation} {last : Operation}
    (records : Records operations enforcer) (same : SameKeys enforcer after)
    (quiet : ∀ keyId, last ≠ .revokeKey keyId) : Records (operations ++ [last]) after where
  revoked keyId := by
    rw [same.revoked, records.revoked keyId]
    simp [Ne.symm (quiet keyId)]
  registered domain keys keyId found member := by
    rw [same.domains] at found
    exact List.mem_append_left _ (records.registered domain keys keyId found member)

theorem Records.registerKey {operations : List Operation} (records : Records operations enforcer)
    (keyId : String) (domainId : Option String) :
    Records (operations ++ [.registerKey keyId domainId]) (enforcer.registerKey keyId domainId) where
  revoked other := by
    rw [show (enforcer.registerKey keyId domainId).revokedKeys = enforcer.revokedKeys from rfl,
      records.revoked other]
    simp
  registered domain keys other found member := by
    simp only [StateEnforcer.registerKey] at found
    split at found
    · rename_i here
      cases found
      rcases Finset.mem_insert.mp member with rfl | old
      · simp [here]
      · cases before : enforcer.domainKeys domain with
        | none => simp [before] at old
        | some known =>
            rw [before, Option.getD_some] at old
            exact List.mem_append_left _ (records.registered domain known other before old)
    · exact List.mem_append_left _ (records.registered domain keys other found member)

theorem Records.revokeKey {operations : List Operation} (records : Records operations enforcer)
    (keyId : String) :
    Records (operations ++ [.revokeKey keyId]) (enforcer.revokeKey keyId) where
  revoked other := by
    simp only [StateEnforcer.revokeKey, Finset.mem_insert, records.revoked other, List.mem_append,
      List.mem_singleton, Operation.revokeKey.injEq]
    exact or_comm
  registered domain keys other found member := by
    simp only [StateEnforcer.revokeKey, Option.map_eq_some_iff] at found
    obtain ⟨known, before, rfl⟩ := found
    exact List.mem_append_left _
      (records.registered domain known other before (Finset.mem_of_mem_erase member))

/-- The collections of an enforcer record its history. -/
theorem records_performed (sha256 : Bytes → SizedBytes 32) (generation ttlMs clockSkewMs : Nat)
    (operations : List Operation) :
    Records operations (performed sha256 (withConfig generation ttlMs clockSkewMs) operations) := by
  induction operations using List.reverseRecOn with
  | nil => exact ⟨by simp [performed, withConfig], by simp [performed, withConfig]⟩
  | append_singleton operations last ih =>
      rw [performed_append_singleton]
      cases last with
      | registerKey keyId domainId => exact ih.registerKey keyId domainId
      | revokeKey keyId => exact ih.revokeKey keyId
      | authorize issue request => exact ih.of_sameKeys (sameKeys_answer issue request) nofun
      | validate context reading =>
          refine ih.of_sameKeys ?_ nofun
          rw [Operation.apply, validate_snd]
          exact sameKeys_validateCapability _ _

/-- A revoked key is never authorized again, whether for itself or as a recipient, and a
context in a domain is only for a key that was registered there and never revoked. -/
theorem revocation_permanent (sha256 : Bytes → SizedBytes 32) (generation ttlMs clockSkewMs : Nat)
    (operations : List Operation) (issue : Issue) (request : Request) (context : AuthorizedContext)
    (after : StateEnforcer)
    (granted : (performed sha256 (withConfig generation ttlMs clockSkewMs) operations).answer sha256
      issue request = (.ok context, after)) :
    .revokeKey request.subject ∉ operations ∧
    (∀ recipient, request.recipient = some recipient → .revokeKey recipient ∉ operations) ∧
    (∀ domain, request.domain = some domain →
      .registerKey request.subject (some domain) ∈ operations) := by
  have records := records_performed sha256 generation ttlMs clockSkewMs operations
  have passed := granted_of_answer granted
  obtain ⟨unrevoked, -, inDomain⟩ := validateKey_eq_none_iff.mp passed.subject
  refine ⟨?_, ?_, ?_⟩
  · rw [← records.revoked]
    exact unrevoked
  · intro recipient isRecipient
    rw [← records.revoked]
    exact (passed.recipient recipient isRecipient).2
  · intro domain bound
    obtain ⟨keys, found, member⟩ := inDomain domain bound
    exact records.registered domain keys _ found member

/-- A key that was registered is authorized in its domain. -/
theorem registered_key_authorized :
    ∃ context after, (performed (fun _ => .zeros 32) (withConfig 1 60000 5000)
        [.registerKey "key-1" (some "domain-a"), .revokeKey "key-2"]).answer (fun _ => .zeros 32)
        ⟨1, 0, 0⟩ (.decrypt "key-1" (some "domain-a")) = (.ok context, after) ∧
      Operation.revokeKey "key-1" ∉
        [Operation.registerKey "key-1" (some "domain-a"), .revokeKey "key-2"] := by
  have granted : (performed (fun _ => .zeros 32) (withConfig 1 60000 5000)
      [.registerKey "key-1" (some "domain-a"), .revokeKey "key-2"]).answer (fun _ => .zeros 32)
      ⟨1, 0, 0⟩ (.decrypt "key-1" (some "domain-a")) = (.ok _, _) := rfl
  exact ⟨_, _, granted, (revocation_permanent _ _ _ _ _ _ _ _ _ granted).1⟩

end StateEnforcer

/-! ### Tokens -/

/-- What happened to a context. -/
inductive Event where
  | issued (enforcer : Nat) (request : Request) (context : AuthorizedContext)
  | accepted (enforcer : Nat) (context : AuthorizedContext)
  deriving DecidableEq

/-- Any number of enforcers side by side, with the history of their contexts. A nonce is
drawn once and is not zero, and what is validated was issued before. -/
inductive Runs (sha256 : Bytes → SizedBytes 32) : (Nat → StateEnforcer) → List Event → Prop where
  | start {enforcers : Nat → StateEnforcer}
      (fresh : ∀ i, ∃ generation ttlMs clockSkewMs,
        enforcers i = .withConfig generation ttlMs clockSkewMs) : Runs sha256 enforcers []
  | registerKey {enforcers : Nat → StateEnforcer} {events : List Event} (i : Nat)
      (keyId : String) (domainId : Option String) (prior : Runs sha256 enforcers events) :
      Runs sha256 (Function.update enforcers i ((enforcers i).registerKey keyId domainId)) events
  | revokeKey {enforcers : Nat → StateEnforcer} {events : List Event} (i : Nat) (keyId : String)
      (prior : Runs sha256 enforcers events) :
      Runs sha256 (Function.update enforcers i ((enforcers i).revokeKey keyId)) events
  | issue {enforcers : Nat → StateEnforcer} {events : List Event} {i : Nat} {issue : Issue}
      {request : Request} {context : AuthorizedContext} {after : StateEnforcer}
      (prior : Runs sha256 enforcers events) (nonzero : issue.nonce ≠ 0)
      (distinct : ∀ j other earlier, .issued j other earlier ∈ events →
        earlier.capability.nonce ≠ issue.nonce)
      (granted : (enforcers i).answer sha256 issue request = (.ok context, after)) :
      Runs sha256 (Function.update enforcers i after) (events ++ [.issued i request context])
  | deny {enforcers : Nat → StateEnforcer} {events : List Event} {i : Nat} {issue : Issue}
      {request : Request} {denial : DenialReason} {after : StateEnforcer}
      (prior : Runs sha256 enforcers events)
      (denied : (enforcers i).answer sha256 issue request = (.error denial, after)) :
      Runs sha256 (Function.update enforcers i after) events
  | accept {enforcers : Nat → StateEnforcer} {events : List Event} {i j : Nat} {request : Request}
      {context : AuthorizedContext} {reading : Reading} {after : StateEnforcer}
      (prior : Runs sha256 enforcers events) (known : .issued j request context ∈ events)
      (validated : context.validate (enforcers i) reading = (.ok (), after)) :
      Runs sha256 (Function.update enforcers i after) (events ++ [.accepted i context])
  | reject {enforcers : Nat → StateEnforcer} {events : List Event} {i j : Nat} {request : Request}
      {context : AuthorizedContext} {reading : Reading} {after : StateEnforcer} {message : String}
      (prior : Runs sha256 enforcers events) (known : .issued j request context ∈ events)
      (rejected : context.validate (enforcers i) reading = (.error message, after)) :
      Runs sha256 (Function.update enforcers i after) events

/-- The enforcers that accepted a context, in order. -/
def acceptances (context : AuthorizedContext) (events : List Event) : List Nat :=
  events.filterMap fun event =>
    match event with
    | .issued _ _ _ => none
    | .accepted i accepted => if accepted = context then some i else none

@[simp] theorem acceptances_issued (context : AuthorizedContext) (events : List Event) (i : Nat)
    (request : Request) (other : AuthorizedContext) :
    acceptances context (events ++ [.issued i request other]) = acceptances context events := by
  simp [acceptances]

theorem acceptances_accepted (context other : AuthorizedContext) (events : List Event) (i : Nat) :
    acceptances context (events ++ [.accepted i other]) =
      acceptances context events ++ if other = context then [i] else [] := by
  by_cases same : other = context
  · simp [acceptances, same]
  · simp [acceptances, same]

theorem mem_acceptances {context : AuthorizedContext} {events : List Event} {i : Nat} :
    i ∈ acceptances context events ↔ .accepted i context ∈ events := by
  simp only [acceptances, List.mem_filterMap]
  constructor
  · rintro ⟨event, member, matched⟩
    cases event with
    | issued j request other => cases matched
    | accepted j other =>
        by_cases same : other = context
        · simp only [same, if_true, Option.some.injEq] at matched
          rwa [same, matched] at member
        · simp [same] at matched
  · intro member
    exact ⟨_, member, by simp⟩

namespace StateEnforcer

variable {sha256 : Bytes → SizedBytes 32} {enforcer after : StateEnforcer}
  {context : AuthorizedContext} {reading : Reading}

/-- Nothing enters the registry by cleaning it. -/
theorem eq_some_of_retain {tokens : Nat → Option Nat} {now nonce time : Nat}
    (kept : retain tokens now nonce = some time) : tokens nonce = some time := by
  unfold retain at kept
  rw [Option.filter_eq_some_iff] at kept
  exact kept.1

/-- Checking a token adds nothing to the registry, and takes the token out if it is
accepted. -/
theorem validateCapability_tokens {token : CapabilityToken} {nowNanos nonce time : Nat}
    (kept : (enforcer.validateCapability token nowNanos).2.issuedTokens nonce = some time) :
    enforcer.issuedTokens nonce = some time ∧
      ((enforcer.validateCapability token nowNanos).1 = true → nonce ≠ token.nonce) := by
  unfold validateCapability at kept ⊢
  split at kept
  · rename_i zero
    rw [if_pos zero]
    exact ⟨kept, nofun⟩
  · rename_i nonzero
    rw [if_neg nonzero]
    split at kept
    · rename_i foreign
      rw [if_pos foreign]
      exact ⟨kept, nofun⟩
    · dsimp only at kept
      by_cases same : nonce = token.nonce
      · rw [same, Function.update_self] at kept
        cases kept
      · rw [Function.update_of_ne same] at kept
        exact ⟨eq_some_of_retain kept, fun _ => same⟩

/-- An accepted context has its token in the registry. -/
theorem token_of_validate (validated : context.validate enforcer reading = (.ok (), after)) :
    (enforcer.validateCapability context.capability reading.nanos).1 = true ∧
      ∃ time, enforcer.issuedTokens context.capability.nonce = some time := by
  have accepted : (enforcer.validateCapability context.capability reading.nanos).1 = true := by
    unfold AuthorizedContext.validate at validated
    split at validated
    rename_i accepted after checked
    split at validated
    · cases validated
    · rename_i passed
      rw [checked]
      simpa using passed
  refine ⟨accepted, ?_⟩
  unfold validateCapability at accepted
  split at accepted
  · cases accepted
  · split at accepted
    · cases accepted
    · obtain ⟨time, kept⟩ := Option.isSome_iff_exists.mp accepted
      exact ⟨time, eq_some_of_retain kept⟩

/-- A granted request adds the token of its context, and no other. -/
theorem Granted.tokens {issue : Issue} {request : Request}
    (granted : Granted sha256 enforcer issue request context after) {nonce time : Nat}
    (kept : after.issuedTokens nonce = some time) :
    nonce = issue.nonce ∨ enforcer.issuedTokens nonce = some time := by
  have grant := granted.grant
  cases grant
  have stored := eq_some_of_retain kept
  by_cases same : nonce = issue.nonce
  · exact .inl same
  · rw [Function.update_of_ne same] at stored
    exact .inr stored

theorem Granted.nonce {issue : Issue} {request : Request}
    (granted : Granted sha256 enforcer issue request context after) :
    context.capability.nonce = issue.nonce := by
  have grant := granted.grant
  cases grant
  rfl

end StateEnforcer

/-- What the registries say about the history: a nonce belongs to one context, and a
token waits only where its context was issued, until it is accepted. -/
structure Tracked (enforcers : Nat → StateEnforcer) (events : List Event) : Prop where
  unique : ∀ i request context j other same, .issued i request context ∈ events →
    .issued j other same ∈ events → context.capability.nonce = same.capability.nonce →
    i = j ∧ request = other ∧ context = same
  waiting : ∀ i nonce time, (enforcers i).issuedTokens nonce = some time →
    ∃ request context, .issued i request context ∈ events ∧ context.capability.nonce = nonce ∧
      acceptances context events = []
  accepted : ∀ i context, .accepted i context ∈ events →
    ∃ request, .issued i request context ∈ events
  once : ∀ context, (acceptances context events).length ≤ 1

namespace Tracked

variable {sha256 : Bytes → SizedBytes 32} {enforcers : Nat → StateEnforcer} {events : List Event}
  {i j : Nat} {issue : Issue} {request : Request} {context : AuthorizedContext}
  {reading : Reading} {after : StateEnforcer}

theorem start (enforcers : Nat → StateEnforcer)
    (fresh : ∀ i, ∃ generation ttlMs clockSkewMs,
      enforcers i = .withConfig generation ttlMs clockSkewMs) : Tracked enforcers [] where
  unique _ _ _ _ _ _ member := nomatch member
  waiting i nonce time kept := by
    obtain ⟨generation, ttlMs, clockSkewMs, same⟩ := fresh i
    rw [same] at kept
    cases kept
  accepted _ _ member := nomatch member
  once _ := Nat.zero_le 1

/-- A step that issues nothing and accepts nothing may only drop tokens. -/
theorem quiet (tracked : Tracked enforcers events)
    (kept : ∀ nonce time, after.issuedTokens nonce = some time →
      (enforcers i).issuedTokens nonce = some time) :
    Tracked (Function.update enforcers i after) events where
  unique := tracked.unique
  waiting k nonce time stored := by
    apply tracked.waiting k nonce time
    by_cases here : k = i
    · rw [here, Function.update_self] at stored
      rw [here]
      exact kept nonce time stored
    · rwa [Function.update_of_ne here] at stored
  accepted := tracked.accepted
  once := tracked.once

/-- A context whose nonce is new was never accepted. -/
theorem not_accepted (tracked : Tracked enforcers events)
    (distinct : ∀ j other earlier, .issued j other earlier ∈ events →
      earlier.capability.nonce ≠ context.capability.nonce) : acceptances context events = [] := by
  apply List.eq_nil_iff_forall_not_mem.mpr
  intro k member
  obtain ⟨request, issued⟩ := tracked.accepted k context (mem_acceptances.mp member)
  exact distinct k request context issued rfl

theorem issued (tracked : Tracked enforcers events)
    (distinct : ∀ j other earlier, .issued j other earlier ∈ events →
      earlier.capability.nonce ≠ issue.nonce)
    (granted : (enforcers i).Granted sha256 issue request context after) :
    Tracked (Function.update enforcers i after) (events ++ [.issued i request context]) := by
  have nonce := granted.nonce
  rw [← nonce] at distinct
  refine ⟨?_, ?_, ?_, ?_⟩
  · intro k first firstContext l second secondContext firstIssued secondIssued same
    simp only [List.mem_append, List.mem_singleton, Event.issued.injEq] at firstIssued secondIssued
    rcases firstIssued with firstIssued | ⟨rfl, rfl, rfl⟩
    · rcases secondIssued with secondIssued | ⟨rfl, rfl, rfl⟩
      · exact tracked.unique k first firstContext l second secondContext firstIssued secondIssued same
      · exact absurd same (distinct _ _ _ firstIssued)
    · rcases secondIssued with secondIssued | ⟨rfl, rfl, rfl⟩
      · exact absurd same.symm (distinct _ _ _ secondIssued)
      · exact ⟨rfl, rfl, rfl⟩
  · intro k stored time kept
    have old : (enforcers k).issuedTokens stored = some time →
        ∃ request' context', .issued k request' context' ∈ events ++ [.issued i request context] ∧
          context'.capability.nonce = stored ∧
          acceptances context' (events ++ [.issued i request context]) = [] := by
      intro kept
      obtain ⟨request', context', issued, same, untouched⟩ := tracked.waiting k stored time kept
      exact ⟨request', context', List.mem_append_left _ issued, same, by simpa using untouched⟩
    by_cases here : k = i
    · rw [here, Function.update_self] at kept
      rcases granted.tokens kept with new | earlier
      · refine ⟨request, context, by simp [here], nonce.trans new.symm, ?_⟩
        rw [acceptances_issued]
        exact tracked.not_accepted distinct
      · rw [← here] at earlier
        exact old earlier
    · rw [Function.update_of_ne here] at kept
      exact old kept
  · intro k other member
    simp only [List.mem_append, List.mem_singleton, reduceCtorEq, or_false] at member
    obtain ⟨request', issued⟩ := tracked.accepted k other member
    exact ⟨request', List.mem_append_left _ issued⟩
  · intro other
    rw [acceptances_issued]
    exact tracked.once other

/-- Only the issuer accepts a context, and only if nobody accepted it before. -/
theorem of_validate (tracked : Tracked enforcers events) (known : .issued j request context ∈ events)
    (validated : context.validate (enforcers i) reading = (.ok (), after)) :
    i = j ∧ acceptances context events = [] := by
  obtain ⟨-, time, stored⟩ := StateEnforcer.token_of_validate validated
  obtain ⟨request', context', issued, same, untouched⟩ := tracked.waiting i _ time stored
  obtain ⟨issuer, -, rfl⟩ := tracked.unique _ _ _ _ _ _ issued known same
  exact ⟨issuer, untouched⟩

theorem validated (tracked : Tracked enforcers events) (known : .issued j request context ∈ events)
    (validated : context.validate (enforcers i) reading = (.ok (), after)) :
    Tracked (Function.update enforcers i after) (events ++ [.accepted i context]) := by
  obtain ⟨rfl, untouched⟩ := tracked.of_validate known validated
  have checked := (StateEnforcer.token_of_validate validated).1
  have left := StateEnforcer.after_of_validate validated
  refine ⟨?_, ?_, ?_, ?_⟩
  · intro k first firstContext l second secondContext firstIssued secondIssued
    simp only [List.mem_append, List.mem_singleton, reduceCtorEq, or_false] at firstIssued secondIssued
    exact tracked.unique k first firstContext l second secondContext firstIssued secondIssued
  · intro k nonce time kept
    have stored : (enforcers k).issuedTokens nonce = some time ∧
        (k = i → nonce ≠ context.capability.nonce) := by
      by_cases here : k = i
      · rw [here, Function.update_self, left] at kept
        obtain ⟨earlier, other⟩ := StateEnforcer.validateCapability_tokens kept
        exact ⟨by rwa [here], fun _ => other checked⟩
      · rw [Function.update_of_ne here] at kept
        exact ⟨kept, fun same => absurd same here⟩
    obtain ⟨request', context', issued, same, waits⟩ := tracked.waiting k nonce time stored.1
    refine ⟨request', context', List.mem_append_left _ issued, same, ?_⟩
    have other : context ≠ context' := by
      rintro rfl
      exact stored.2 (tracked.unique _ _ _ _ _ _ issued known rfl).1 same.symm
    rw [acceptances_accepted, waits, if_neg other]
    rfl
  · intro k other member
    simp only [List.mem_append, List.mem_singleton, Event.accepted.injEq] at member
    rcases member with member | ⟨rfl, rfl⟩
    · obtain ⟨request', issued⟩ := tracked.accepted k other member
      exact ⟨request', List.mem_append_left _ issued⟩
    · exact ⟨request, List.mem_append_left _ known⟩
  · intro other
    rw [acceptances_accepted]
    split
    · rename_i same
      rw [← same, untouched]
      simp
    · rw [List.append_nil]
      exact tracked.once other

end Tracked

/-- The registries say so in every run. -/
theorem Runs.tracked {sha256 : Bytes → SizedBytes 32} {enforcers : Nat → StateEnforcer}
    {events : List Event} (runs : Runs sha256 enforcers events) : Tracked enforcers events := by
  induction runs with
  | start fresh => exact .start _ fresh
  | registerKey i keyId domainId prior ih => exact ih.quiet fun _ _ kept => kept
  | revokeKey i keyId prior ih => exact ih.quiet fun _ _ kept => kept
  | issue prior nonzero distinct granted ih =>
      exact ih.issued distinct (StateEnforcer.granted_of_answer granted)
  | deny prior denied ih =>
      rw [StateEnforcer.eq_of_answer_error denied]
      exact ih.quiet fun _ _ kept => kept
  | @accept enforcers events i j request context reading after prior known validated ih =>
      exact ih.validated known validated
  | @reject enforcers events i j request context reading after message prior known rejected ih =>
      apply ih.quiet
      intro nonce time kept
      rw [StateEnforcer.after_of_validate rejected] at kept
      exact (StateEnforcer.validateCapability_tokens kept).1

end Citadel.Core
