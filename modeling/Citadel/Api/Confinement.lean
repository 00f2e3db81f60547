import Citadel.Api.Existence
import Citadel.Api.Provenance

/-!
# What a caller with a list of domains may do

A route finds out the domain of a key before it acts on the key for a caller with a list of
domains. `confinement` is the contract of such a route: it follows which keys have been found in
the caller's domains, and allows an operation on these keys only.
-/

namespace Citadel.Api

open Envelope Program Keystore

variable {ks : Keystore} {code : AssertionCode} {hashApiKey : String → SizedBytes 32}
  {allowed : List String}

/-! ### Keys in the caller's domains -/

/-- The key belongs to one of the domains. -/
def Home (allowed : List String) (keys : Keys) (id : KeyId) : Prop :=
  ∃ domain, ResolvesTo keys 10 id domain ∧ domain.text ∈ allowed

section Home

variable {keys later : Keys} {id parent : KeyId} {record : KeyMetadata}

/-- A domain that is found is found within one more record. -/
theorem resolvesTo_succ {left : Nat} {domain : KeyId} (resolves : ResolvesTo keys left id domain) :
    ResolvesTo keys (left + 1) id domain := by
  induction resolves with
  | domain found isDomain => exact .domain found isDomain
  | parent found notDomain notRoot child resolves ih =>
      exact .parent found notDomain notRoot child ih

theorem Home.extends (home : Home allowed keys id) (kept : Extends keys later) :
    Home allowed later id := by
  obtain ⟨domain, resolves, member⟩ := home
  exact ⟨domain, resolves.extends kept, member⟩

/-- A key under a key of the caller's domains is in them as well. -/
theorem Home.child (home : Home allowed keys parent) (placed : AllPlaced keys)
    (found : keys.find? id = some record) (notRoot : record.keyType ≠ .root)
    (notDomain : record.keyType ≠ .domain) (child : record.parentId = some parent) :
    Home allowed keys id := by
  obtain ⟨domain, resolves, member⟩ := home
  obtain ⟨other, -, chain, -, -⟩ := placed.resolves_ten found notRoot
  refine ⟨other, chain, ?_⟩
  cases chain with
  | domain found' isDomain =>
      rw [found] at found'
      cases found'
      exact absurd isDomain notDomain
  | parent found' _ _ child' above =>
      rw [found] at found'
      cases found'
      rw [child] at child'
      cases child'
      have same : other = domain := (resolvesTo_succ above).unique resolves
      rwa [same]

end Home

/-! ### The contract -/

/-- The operation acts on keys that have been found in the caller's domains. -/
def Service.Within (home : KeyId → Prop) : Service → Prop
  | .generate _ keyType _ parentId =>
      keyType ≠ .root ∧ keyType ≠ .domain ∧ ∃ parent, parentId = some parent ∧ home parent
  | .generateSigningKey _ _ parentId => home parentId
  | .activate id => home id
  | .rotate id => home id
  | .revoke id => home id
  | .destroy id => home id
  | .expireDueKeys => False
  | .encryptAuthorized authz _ _ _ => home ⟨authz.keyId⟩
  | .decryptAuthorized _ blob _ _ => home ⟨blob.keyId⟩
  | .signAuthorized authz _ => home ⟨authz.keyId⟩
  | _ => True

/-- What a route relies on in an answer. -/
def Service.Expected : (op : Service) → op.Ret → Prop
  | .get id, .ok record => record.id = id
  | .authorize request, .ok context => context.keyId = request.subject
  | _, _ => True

/-- The keys that are known to be in the caller's domains after an answer. -/
def learned (allowed : List String) (home : KeyId → Prop) : (op : Service) → op.Ret → KeyId → Prop
  | .resolveDomainForKey id, .ok domain => fun key => home key ∨ key = id ∧ domain.text ∈ allowed
  | _, _ => home

/-- The contract of a route that keeps its caller to these domains. -/
def confinement (allowed : List String) : Contract Service Service.Ret where
  Ghost := KeyId → Prop
  Allows home op := op.Within home
  Expects _ := Service.Expected
  after home op answer := learned allowed home op answer

/-- The value that a handler returns is as it should be. -/
def onReturn {α : Type} (post : (KeyId → Prop) → α → Prop) :
    (confinement allowed).Ghost → Outcome ApiError α → Prop
  | home, .ok value => post home value
  | _, .err _ => True
  | _, .aborted _ => True

/-- The handler acts on keys of the caller's domains only, and returns what it should. -/
abbrev Confines {α : Type} (allowed : List String) (home : KeyId → Prop) (handler : Handler α)
    (post : (KeyId → Prop) → α → Prop) : Prop :=
  handler.Meets (confinement allowed) home (onReturn post)

section Rules

variable {α β : Type} {home : KeyId → Prop} {post : (KeyId → Prop) → α → Prop}
  {auth : AuthContext}

/-- The rule for sequences. -/
theorem Confines.bind {first : Handler β} {rest : β → Handler α} {middle : (KeyId → Prop) → β → Prop}
    (begins : Confines allowed home first middle)
    (ends : ∀ home value, middle home value → Confines allowed home (rest value) post) :
    Confines allowed home (first >>= rest) post := by
  apply Meets.bind
  apply begins.mono
  intro home outcome reached
  cases outcome with
  | ok value => exact ends home value reached
  | err error => trivial
  | aborted why => trivial

/-- The rule for one operation. -/
theorem Confines.ask {op : Service} {rest : op.Ret → Handler α} (within : op.Within home)
    (later : ∀ answer, op.Expected answer →
      Confines allowed (learned allowed home op answer) (rest answer) post) :
    Confines allowed home (Api.ask op >>= rest) post :=
  ⟨within, later⟩

/-- The operations that are on no key of anybody's. -/
def Service.Free (op : Service) : Prop := ∀ home, op.Within home

theorem Service.free_of_asks (op : Service) (asks : op.Asks) : op.Free := by
  intro home
  cases op <;> first | trivial | cases asks.2

theorem free_registerKey (id : String) (domain : Option String) :
    (Service.registerKey id domain).Free :=
  fun _ => trivial

/-- The rule for what is free. -/
theorem Confines.free {handler : Handler α} (uses : handler.Uses Service.Free) :
    Confines allowed home handler fun _ _ => True := by
  apply (Meets.ofAllowed uses).mono
  intro home outcome _
  cases outcome <;> trivial

/-- The rule for the operation that a route is for. -/
theorem Confines.act {op : Service} {settles : op.Ret → Handler β} {rest : β → Handler α}
    (within : op.Within home) (settled : ∀ answer, (settles answer).Uses Service.Free)
    (uses : ∀ value, (rest value).Uses Service.Free) :
    Confines allowed home ((Api.ask op >>= settles) >>= rest) fun _ _ => True := by
  rw [bind_assoc]
  apply Confines.ask within
  intro answer _
  exact Confines.free (Uses.bind (settled answer) uses)

/-- The rule for a domain that is looked up. -/
theorem Confines.resolve {id : KeyId} {rest : Except KeystoreError KeyId → Handler α}
    (later : ∀ home' domain, (∀ key, home key → home' key) → (domain.text ∈ allowed → home' id) →
      Confines allowed home' (rest (.ok domain)) post)
    (failed : ∀ error, Confines allowed home (rest (.error error)) post) :
    Confines allowed home ((Api.ask (.resolveDomainForKey id) >>= settle) >>= rest) post := by
  have within : (Service.resolveDomainForKey id).Within home := trivial
  rw [bind_assoc]
  apply Confines.ask within
  intro answer _
  cases answer with
  | ok domain =>
      apply later
      · intro key known
        exact .inl known
      · intro member
        exact .inr ⟨rfl, member⟩
  | err error => exact failed error
  | aborted why => trivial

/-- The rule for the authorization: a caller with a list of domains may go on with keys in these
domains only, and create neither roots nor domains. -/
theorem Confines.authorize {operation : Operation} {target : Option KeyId}
    {rest : Option KeyId → Handler α} (restricted : auth.allowedDomains = some allowed)
    (named : operation ≠ .listKeys)
    (later : ∀ home' domain id, target = some id → home' id → operation ≠ .createRoot →
      operation ≠ .createDomain → Confines allowed home' (rest domain) post) :
    Confines allowed home (authorizeDomainAccess auth operation target >>= rest) post := by
  have notAdmin := AuthContext.isGlobalAdmin_of_domains restricted
  have targeted : operation ≠ .createRoot → operation ≠ .createDomain →
      Confines allowed home (authorizeTarget auth operation target >>= rest) post := by
    intro notRoot notDomain
    cases target with
    | none => trivial
    | some id =>
        have begins : Confines allowed home (authorizeTarget auth operation (some id))
            fun home' _ => home' id := by
          apply Confines.resolve
          · intro home' domain _ known
            simp only [restricted]
            split
            · rename_i member
              exact known member
            · trivial
          · intro error
            trivial
        apply begins.bind
        intro home' domain known
        exact later home' domain id rfl known notRoot notDomain
  unfold authorizeDomainAccess
  rw [notAdmin]
  cases operation with
  | listKeys => exact absurd rfl named
  | createRoot => trivial
  | createDomain => trivial
  | _ => exact targeted nofun nofun

/-- The rule for the enforcer: its context is for the key of the request. -/
theorem Confines.require {request : Core.Request} {rest : Core.AuthorizedContext → Handler α}
    (later : ∀ context, context.keyId = request.subject → Confines allowed home (rest context) post) :
    Confines allowed home (requireAuthorized request >>= rest) post := by
  have within : (Service.authorize request).Within home := trivial
  rw [requireAuthorized, bind_assoc]
  apply Confines.ask within
  intro answer expected
  cases answer with
  | error reason => trivial
  | ok context => exact later context expected

end Rules

/-! ### The routes -/

/-- The keys whose records a response shows. -/
def Body.shown : Body code → List String
  | .keys responses => responses.map KeyResponse.id
  | .key response => [response.id]
  | _ => []

/-- A response shows keys of the caller's domains only. -/
def ShowsHome (home : KeyId → Prop) (body : Body code) : Prop := ∀ id ∈ body.shown, home ⟨id⟩

section Routes

variable {home : KeyId → Prop} {auth : AuthContext}
  (restricted : auth.allowedDomains = some allowed)

/-- A body that is made of what a handler returns. -/
theorem Confines.body {α : Type} {handler : Handler α} {wrap : α → Body code}
    {post : (KeyId → Prop) → α → Prop} (confines : Confines allowed home handler post)
    (shows : ∀ home value, post home value → ShowsHome home (wrap value)) :
    Confines allowed home (handler >>= fun value => .ret (wrap value)) ShowsHome := by
  apply confines.bind
  intro home value returned
  exact shows home value returned

/-- A body that shows no key. -/
theorem Confines.bare {α : Type} {handler : Handler α} {wrap : α → Body code}
    (confines : Confines allowed home handler fun _ _ => True)
    (bare : ∀ value, (wrap value).shown = []) :
    Confines allowed home (handler >>= fun value => .ret (wrap value)) ShowsHome := by
  apply confines.body
  intro home value _ id member
  rw [bare value] at member
  cases member

theorem filterKeys_confines (records : List KeyMetadata) :
    Confines allowed home (filterKeys allowed records)
      fun final keys => (∀ id, home id → final id) ∧ ∀ key ∈ keys, final ⟨key.id⟩ := by
  induction records generalizing home with
  | nil => exact ⟨fun _ known => known, nofun⟩
  | cons record rest ih =>
      apply Confines.resolve
      · intro home' domain grows known
        apply Confines.bind ih
        rintro final keys ⟨grown, all⟩
        simp only
        split
        · rename_i member
          constructor
          · intro id before
            exact grown id (grows id before)
          · intro key listed
            rcases List.mem_cons.mp listed with same | later
            · rw [same]
              exact grown record.id (known member)
            · exact all key later
        · exact ⟨fun id before => grown id (grows id before), all⟩
      · intro error
        apply Confines.bind ih
        intro final keys reached
        exact reached

theorem createOfType_confines {req : GenerateKeyReq} {keyType : KeyType} {parent : KeyId}
    (named : req.parentId.map KeyId.mk = some parent) (known : home parent)
    (notRoot : keyType ≠ .root) (notDomain : keyType ≠ .domain) :
    Confines allowed home (createOfType req keyType) fun _ _ => True := by
  unfold createOfType
  dsimp only
  rw [named]
  split
  · have within : (Service.generateSigningKey req.name (req.policyId.map PolicyId.mk) parent).Within
        home := known
    exact Confines.act within settle_uses fun _ => trivial
  · have within : (Service.generate req.name keyType (req.policyId.map PolicyId.mk)
        (some parent)).Within home := ⟨notRoot, notDomain, parent, rfl, known⟩
    exact Confines.act within settle_uses fun _ => trivial

include restricted

/-- A route for global administrators. -/
theorem Confines.admin {α : Type} {rest : Unit → Handler α} {post : (KeyId → Prop) → α → Prop} :
    Confines allowed home
      (Program.ofExcept (fun error : ApiError => error) (requireGlobalAdmin auth) >>= rest) post := by
  have notAdmin := AuthContext.isGlobalAdmin_of_domains restricted
  rw [requireGlobalAdmin, notAdmin]
  trivial

theorem getKey_confines (id : String) :
    Confines allowed home (getKey auth id) fun home key => home ⟨key.id⟩ := by
  unfold getKey
  apply Confines.authorize restricted (by decide)
  rintro home domain _ ⟨⟩ known - -
  have within : (Service.get ⟨id⟩).Within home := trivial
  rw [bind_assoc]
  apply Confines.ask within
  intro answer expected
  cases answer with
  | ok record =>
      have own : record.id = ⟨id⟩ := expected
      change home ⟨record.id.text⟩
      rwa [own]
  | err error => trivial
  | aborted why => trivial

theorem listKeysHandler_confines :
    Confines allowed home (listKeysHandler auth) fun home keys => ∀ key ∈ keys, home ⟨key.id⟩ := by
  have within : Service.listKeys.Within home := trivial
  apply Confines.ask within
  intro answer _
  cases answer with
  | error error => trivial
  | ok records =>
      have notAdmin := AuthContext.isGlobalAdmin_of_domains restricted
      simp only [notAdmin, restricted, Option.getD_some]
      apply (filterKeys_confines records).mono
      intro home outcome reached
      cases outcome with
      | ok keys => exact reached.2
      | err error => trivial
      | aborted why => trivial

theorem generateKey_confines (req : GenerateKeyReq) :
    Confines allowed home (generateKey auth req) fun _ _ => True := by
  unfold generateKey
  cases parseKeyType req.keyType with
  | none => trivial
  | some keyType =>
      apply Confines.authorize restricted
      · cases keyType <;> decide
      · intro home domain parent named known notRoot notDomain
        have kinds : keyType ≠ .root ∧ keyType ≠ .domain := by
          constructor
          · rintro rfl
            exact notRoot rfl
          · rintro rfl
            exact notDomain rfl
        apply Confines.bind (createOfType_confines named known kinds.1 kinds.2)
        intro home created _
        apply Confines.free
        cases created with
        | error error => trivial
        | ok id =>
            apply Uses.bind (domainToRegister_uses (Service.free_of_asks _ ⟨trivial, rfl⟩))
            intro actualDomain
            exact Uses.bind (ask_uses (free_registerKey _ _)) fun _ => trivial

theorem activateKey_confines (id : String) :
    Confines allowed home (activateKey auth id) fun _ _ => True := by
  unfold activateKey
  apply Confines.authorize restricted (by decide)
  rintro home domain _ ⟨⟩ known - -
  apply Confines.require
  intro context _
  have within : (Service.activate ⟨id⟩).Within home := known
  apply Confines.act within settle_uses
  intro activated
  cases activated <;> trivial

theorem rotateKey_confines (id : String) :
    Confines allowed home (rotateKey auth id) fun _ _ => True := by
  have timed : Service.utcNow.Within home := trivial
  unfold rotateKey
  apply Confines.ask timed
  intro now _
  apply Confines.authorize restricted (by decide)
  rintro home domain _ ⟨⟩ known - -
  apply Confines.require
  intro context _
  have within : (Service.rotate ⟨id⟩).Within home := known
  apply Confines.act within settle_uses
  intro rotated
  cases rotated with
  | error error => trivial
  | ok newId => exact Uses.bind (ask_uses (free_registerKey _ _)) fun _ => trivial

theorem revokeKey_confines (id : String) :
    Confines allowed home (revokeKey auth id) fun _ _ => True := by
  unfold revokeKey
  apply Confines.authorize restricted (by decide)
  rintro home domain _ ⟨⟩ known - -
  apply Confines.require
  intro context _
  have within : (Service.revoke ⟨id⟩).Within home := known
  apply Confines.act within settle_uses
  intro revoked
  cases revoked with
  | error error => trivial
  | ok done => exact ask_uses (Service.free_of_asks _ ⟨trivial, rfl⟩)

theorem destroyKey_confines (id : String) :
    Confines allowed home (destroyKey auth id) fun _ _ => True := by
  unfold destroyKey
  apply Confines.authorize restricted (by decide)
  rintro home domain _ ⟨⟩ known - -
  have within : (Service.destroy ⟨id⟩).Within home := known
  apply Confines.act within settle_uses
  intro destroyed
  cases destroyed with
  | error error => trivial
  | ok done => exact ask_uses (Service.free_of_asks _ ⟨trivial, rfl⟩)

theorem encryptData_confines (id : String) (req : EncryptReq) :
    Confines allowed home (encryptData auth id req) fun _ _ => True := by
  unfold encryptData
  apply Confines.authorize restricted (by decide)
  rintro home domain _ ⟨⟩ known - -
  apply Confines.require
  intro context named
  have within : (Service.encryptAuthorized context (utf8 req.plaintext) (.raw (utf8 req.aad))
      ⟨utf8 req.context⟩).Within home := by
    change home ⟨context.keyId⟩
    rwa [named]
  apply Confines.act within settle_uses
  intro encrypted
  cases encrypted with
  | ok blob => trivial
  | error error =>
      simp only
      split <;> trivial

theorem decryptData_confines (body : Option DecryptReq) :
    Confines allowed home (decryptData auth body) fun _ _ => True := by
  cases body with
  | none => trivial
  | some req =>
      unfold decryptData decryptDataInner
      apply Confines.authorize restricted (by decide)
      rintro home domain _ ⟨⟩ known - -
      have asks : (Service.authorize
        (.decrypt req.blob.keyId (domain.map KeyId.text))).Within home := trivial
      apply Confines.ask asks
      intro answer _
      cases answer with
      | error reason => trivial
      | ok authz =>
          have within : (Service.decryptAuthorized authz req.blob (.raw (utf8 req.aad))
              ⟨utf8 req.context⟩).Within home := known
          apply Confines.act within settle_uses
          intro decrypted
          cases decrypted <;> trivial

theorem signData_confines (id payloadHex : String) :
    Confines allowed home (signData auth id payloadHex) fun _ _ => True := by
  unfold signData
  cases hexDecode (utf8 payloadHex) with
  | error problem => trivial
  | ok payload =>
      apply Confines.authorize restricted (by decide)
      rintro home domain _ ⟨⟩ known - -
      apply Confines.require
      intro context named
      have within : (Service.signAuthorized context payload).Within home := by
        change home ⟨context.keyId⟩
        rwa [named]
      apply Confines.act within settle_uses
      intro signed
      cases signed with
      | ok payload => trivial
      | error error =>
          simp only
          split <;> trivial

theorem issueAssertion_confines (signingKeyId : String) (claims : code.Claims) :
    Confines allowed home (issueAssertion code auth signingKeyId claims) fun _ _ => True := by
  unfold issueAssertion
  apply Confines.authorize restricted (by decide)
  rintro home domain _ ⟨⟩ known - -
  have within : (Service.get ⟨signingKeyId⟩).Within home := trivial
  rw [bind_assoc]
  apply Confines.ask within
  intro answer _
  cases answer with
  | err error => trivial
  | aborted why => trivial
  | ok record =>
      simp only [settle, ret_bind]
      split
      · trivial
      · have timed : Service.utcNow.Within home := trivial
        apply Confines.ask timed
        intro now _
        have drawn : Service.randomBytes.Within home := trivial
        apply Confines.ask drawn
        intro random _
        cases code.buildUnsigned now random signingKeyId record.currentVersion claims with
        | error problem => trivial
        | ok unsigned =>
            simp only [Program.ofExcept, ret_bind]
            cases code.canonicalSigningInput unsigned with
            | error problem => trivial
            | ok input =>
                apply Confines.require
                intro context named
                have within : (Service.signAuthorized context input).Within home := by
                  change home ⟨context.keyId⟩
                  rwa [named]
                apply Confines.act within settle_uses
                intro signed
                cases signed <;> trivial

/-- Every route keeps a caller with a list of domains to these domains. -/
theorem Request.route_confines (request : Request code) :
    Confines allowed home (request.route auth) ShowsHome := by
  have free : ∀ op : Service, op.Asks → op.Free := Service.free_of_asks
  cases request with
  | getStatus =>
      have admin : Confines allowed home (Api.getStatus auth) fun _ _ => True :=
        Confines.admin restricted
      apply admin.bind
      rintro home ⟨total, active⟩ - id member
      cases member
  | getMetrics => exact Confines.admin restricted
  | getThreat => exact Confines.admin restricted
  | postThreatEvent => exact Confines.admin restricted
  | resetThreat => exact Confines.admin restricted
  | getPolicies => exact Confines.admin restricted
  | expireDue =>
      have admin : Confines allowed home (Api.expireDue auth) fun _ _ => True :=
        Confines.admin restricted
      apply admin.bind
      rintro home ⟨expired, warnings, skipped⟩ - id member
      cases member
  | listKeys =>
      apply (listKeysHandler_confines restricted).body
      rintro home keys all id member
      obtain ⟨key, listed, rfl⟩ := List.mem_map.mp member
      exact all key listed
  | generateKey req => exact (generateKey_confines restricted req).bare fun _ => rfl
  | getKey id =>
      apply (getKey_confines restricted id).body
      intro home key known id member
      rwa [List.mem_singleton.mp member]
  | activateKey id => exact (activateKey_confines restricted id).bare fun _ => rfl
  | rotateKey id => exact (rotateKey_confines restricted id).bare fun _ => rfl
  | revokeKey id => exact (revokeKey_confines restricted id).bare fun _ => rfl
  | destroyKey id => exact (destroyKey_confines restricted id).bare fun _ => rfl
  | encrypt id req => exact (encryptData_confines restricted id req).bare fun _ => rfl
  | decrypt body => exact (decryptData_confines restricted body).bare fun _ => rfl
  | sign id payloadHex => exact (signData_confines restricted id payloadHex).bare fun _ => rfl
  | verify req =>
      exact (Confines.free (verifySignatureHandler_uses free auth req)).bare fun _ => rfl
  | issueAssertion signingKeyId claims =>
      exact (issueAssertion_confines restricted signingKeyId claims).bare fun _ => rfl
  | verifyAssertion signingKeyId assertion =>
      exact (Confines.free (verifyAssertion_uses free code auth signingKeyId assertion)).bare
        fun _ => rfl
  | verifyingKey id => exact (Confines.free (getVerifyingKey_uses free auth id)).bare fun _ => rfl
  | listApiKeys => exact nofun
  | createApiKey req draw => exact nofun
  | revokeApiKey id saved => exact nofun
  | whoami => exact nofun

end Routes

/-! ### What an operation does to the records -/

/-- The operation is served without the flat-hierarchy override, and an identifier that it draws
is not in use. -/
def Orderly (asked : Service × (AppState × Moments)) : Prop :=
  ∀ call, asked.1.call? = some call →
    ((asked.2.2 0).step call).Fresh asked.2.1.world ∧
      Strict ((asked.2.2 0).step call) asked.2.1.world

/-- Every key is placed, and a destroyed one holds no secret. -/
structure Ordered (keys : Keys) : Prop where
  placed : AllPlaced keys
  emptied : Emptied keys

section Operations

variable {op : Service} {state : AppState × Moments} {home : KeyId → Prop} {start : Keys}

/-- The invariant rule for an orderly operation. -/
theorem Ordered.step (ks : Keystore) (ordered : Ordered state.1.world.keys)
    (orderly : Orderly (op, state)) (invariant : Keys → Prop)
    (preserves : ∀ call keys record, op.call? = some call → Extends state.1.world.keys keys →
      Extends keys (keys.insert record) → AllPlaced (keys.insert record) →
      Change ks (state.2 0).env keys call record → invariant keys →
      invariant (keys.insert record))
    (holds : invariant state.1.world.keys) :
    Ordered (answering ks op state).2.1.world.keys ∧
      Extends state.1.world.keys (answering ks op state).2.1.world.keys ∧
      invariant (answering ks op state).2.1.world.keys := by
  apply serve_keys_invariant fun keys =>
    Ordered keys ∧ Extends state.1.world.keys keys ∧ invariant keys
  · rintro call keys record calls ⟨⟨placed, emptied⟩, kept, held⟩ mayWrite
    obtain ⟨fresh, strict⟩ := orderly call calls
    have allowed : ((state.2 0).step call).call.MayWrite ks ((state.2 0).step call).env
        state.1.world.keys keys record := mayWrite
    have grows := allowed.extends fresh emptied
    have written := placed.insert grows (allowed.placed strict placed)
    exact ⟨⟨written, allowed.emptied fresh emptied⟩, kept.trans grows,
      preserves call keys record calls kept grows written mayWrite.change held⟩
  · exact ⟨ordered, .refl _, holds⟩

/-- The record that an operation writes belongs to a key that the operation is on, or to a new
one under such a key. -/
theorem Service.Within.home_of_change {call : Call} {env : Env} {keys : Keys}
    {record : KeyMetadata} (within : op.Within home) (calls : op.call? = some call)
    (change : Change ks env keys call record)
    (homes : ∀ id, home id → Home allowed (keys.insert record) id)
    (placed : AllPlaced (keys.insert record)) :
    Home allowed (keys.insert record) record.id := by
  have own : ∀ {id before}, keys.find? id = some before → home id → record.id = before.id →
      Home allowed (keys.insert record) record.id := by
    intro id before found known same
    rw [same, Table.key_of_find? found]
    exact homes id known
  have stored : (keys.insert record).find? record.id = some record :=
    Table.find?_insert_self _ _
  cases op <;> cases calls
  · cases change with
    | generated kem place wraps =>
        obtain ⟨notRoot, notDomain, parent, named, known⟩ := within
        exact (homes parent known).child placed stored notRoot notDomain named
  · cases change with
    | signingGenerated place wraps =>
        exact (homes _ within).child placed stored nofun nofun rfl
  · cases change with
    | activated found edge => exact own found within rfl
  · cases change with
    | rotated found active wraps => exact own found within rfl
  · cases change with
    | revoked found active => exact own found within rfl
  · cases change with
    | destroyed found edge => exact own found within rfl
  · exact within.elim
  · cases change with
    | used found active data => exact own found within rfl
  · cases change
  · cases change

/-- How far a route has come: what is known of the keys is so, and only keys of the caller's
domains have been changed since the start. -/
structure Tracks (allowed : List String) (start : Keys) (home : KeyId → Prop)
    (state : AppState × Moments) : Prop where
  ordered : Ordered state.1.world.keys
  homes : ∀ id, home id → Home allowed state.1.world.keys id
  changed : ∀ id, state.1.world.keys.find? id ≠ start.find? id → Home allowed state.1.world.keys id

/-- The answers of the server are as the routes expect them. -/
theorem expected_answering (ks : Keystore) (op : Service) (state : AppState × Moments) :
    op.Expected (answering ks op state).1 := by
  cases op with
  | get id =>
      change Service.Expected (.get id) ((Keystore.get id).run (handle (state.2 0).env)
        { state.1.world with now := (state.2 0).now }).1
      cases ran : (Keystore.get id).run (handle (state.2 0).env)
          { state.1.world with now := (state.2 0).now } with
      | mk outcome after =>
          cases outcome with
          | ok record =>
              have kept : ((Keystore.get id).run (handle (state.2 0).env)
                  { state.1.world with now := (state.2 0).now }).2 = _ := run_of_reads (get_reads id)
              rw [ran] at kept
              subst kept
              exact Table.key_of_find? (find?_of_get ran)
          | err error => trivial
          | aborted why => trivial
  | authorize request =>
      cases answered : state.1.enforcer.answer ks.crypto.sha256 (state.2 0).issue request with
      | mk outcome after =>
          have same : (answering ks (.authorize request) state).1 = outcome :=
            congrArg Prod.fst answered
          rw [same]
          cases outcome with
          | error reason => trivial
          | ok context =>
              have grant := (Core.StateEnforcer.granted_of_answer answered).grant
              exact congrArg (fun pair => pair.1.keyId) grant
  | _ => trivial

/-- What is learned from an answer is so. -/
theorem home_of_learned {id : KeyId}
    (known : learned allowed home op (answering ks op state).1 id) :
    home id ∨ Home allowed state.1.world.keys id := by
  cases op with
  | resolveDomainForKey key =>
      cases ran : (resolveDomainForKey key).run (handle (state.2 0).env)
          { state.1.world with now := (state.2 0).now } with
      | mk outcome after =>
          have same : (answering ks (.resolveDomainForKey key) state).1 = outcome :=
            congrArg Prod.fst ran
          rw [same] at known
          cases outcome with
          | ok domain =>
              rcases known with before | ⟨rfl, member⟩
              · exact .inl before
              · right
                have resolves : ResolvesTo
                    ({ state.1.world with now := (state.2 0).now } : World).keys 10 id domain :=
                  resolvesTo_of_run ran
                exact ⟨domain, resolves, member⟩
          | err error => exact .inl known
          | aborted why => exact .inl known
  | _ => exact .inl known

/-- The step lemma of the contract. -/
theorem Tracks.step (tracks : Tracks allowed start home state) (orderly : Orderly (op, state))
    (within : op.Within home) :
    op.Expected (answering ks op state).1 ∧
      Tracks allowed start (learned allowed home op (answering ks op state).1)
        (answering ks op state).2 := by
  have answered : Ordered (answering ks op state).2.1.world.keys ∧
      Extends state.1.world.keys (answering ks op state).2.1.world.keys ∧
      ∀ id, (answering ks op state).2.1.world.keys.find? id ≠ start.find? id →
        Home allowed (answering ks op state).2.1.world.keys id := by
    apply tracks.ordered.step ks orderly
      (fun keys => ∀ id, keys.find? id ≠ start.find? id → Home allowed keys id) _ tracks.changed
    intro call keys record calls kept grows placed change held id differs
    by_cases same : id = record.id
    · subst same
      apply within.home_of_change calls change _ placed
      intro other known
      exact ((tracks.homes other known).extends kept).extends grows
    · rw [Table.find?_insert_of_ne _ same] at differs
      exact (held id differs).extends grows
  obtain ⟨ordered, kept, changed⟩ := answered
  refine ⟨expected_answering ks op state, ordered, ?_, changed⟩
  intro id known
  rcases home_of_learned known with before | found
  · exact (tracks.homes id before).extends kept
  · exact found.extends kept

end Operations

/-! ### Whole runs -/

section Runs

variable {app start : AppState} {arrival : Arrival code} {entry : ApiKeyEntry}

/-- Every operation of a run is orderly. -/
def OrderlyRun (ks : Keystore) (hashApiKey : String → SizedBytes 32) :
    AppState → List (Event code) → Prop
  | _, [] => True
  | app, event :: rest =>
      (∀ asked ∈ event.performed ks app, Orderly asked) ∧
        OrderlyRun ks hashApiKey (event.run ks hashApiKey app) rest

instance decidableOrderly (asked : Service × (AppState × Moments)) : Decidable (Orderly asked) :=
  match calls : asked.1.call? with
  | none => isTrue fun _ called => nomatch calls.symm.trans called
  | some call => decidable_of_iff
      (asked.2.1.world.keys.find? (KeyId.generate (asked.2.2 0).env.randomness.keyId) = none ∧
        (asked.2.2 0).env.process.flatOverride = false)
      ⟨fun holds _ _ => holds, fun orderly => orderly call calls⟩

instance decidableOrderlyRun (ks : Keystore) (hashApiKey : String → SizedBytes 32) :
    (app : AppState) → (events : List (Event code)) →
      Decidable (OrderlyRun ks hashApiKey app events)
  | _, [] => isTrue trivial
  | app, event :: rest =>
      have : Decidable (OrderlyRun ks hashApiKey (event.run ks hashApiKey app) rest) :=
        decidableOrderlyRun ks hashApiKey _ rest
      inferInstanceAs (Decidable ((∀ asked ∈ event.performed ks app, Orderly asked) ∧
        OrderlyRun ks hashApiKey (event.run ks hashApiKey app) rest))

theorem OrderlyRun.split {event : Event code} {earlier later : List (Event code)}
    (orderly : OrderlyRun ks hashApiKey start (earlier ++ event :: later)) :
    OrderlyRun ks hashApiKey start earlier ∧
      ∀ asked ∈ event.performed ks (playServer ks hashApiKey start earlier), Orderly asked := by
  induction earlier generalizing start with
  | nil => exact ⟨trivial, orderly.1⟩
  | cons first rest ih =>
      obtain ⟨before, after⟩ := ih orderly.2
      exact ⟨⟨orderly.1, before⟩, after⟩

/-- The records after a request are those that its route leaves. -/
theorem Arrival.keys_run (called : arrival.caller app = .ok entry) :
    (arrival.run ks hashApiKey app).2.world.keys =
      ((arrival.request.route entry.context).run (answering ks)
        (app, arrival.moments)).2.1.world.keys := by
  rw [Arrival.run, called]
  simp only
  generalize arrival.request = request
  cases request with
  | createApiKey req draw =>
      simp only [Request.answer]
      split <;> rfl
  | revokeApiKey id saved =>
      simp only [Request.answer]
      split <;> rfl
  | listApiKeys => rfl
  | _ => simp only [Request.answer, AppState.playRoute]

/-- What a response shows is what the route returns. -/
theorem Arrival.shown_run {body : Body code} {id : String}
    (called : arrival.caller app = .ok entry)
    (answered : (arrival.run ks hashApiKey app).1 = .ok body) (shown : id ∈ body.shown) :
    ((arrival.request.route entry.context).run (answering ks) (app, arrival.moments)).1 =
      .ok body := by
  rw [Arrival.run, called] at answered
  simp only at answered
  revert answered
  generalize arrival.request = request
  intro answered
  have nothing : ∀ {α : Type} {wrap : α → Body code} {result : Except ApiError α},
      outcomeOf wrap result = .ok body → (∀ value, (wrap value).shown = []) → False := by
    intro α wrap result made bare
    cases result with
    | error error => cases made
    | ok value =>
        cases made
        rw [bare value] at shown
        cases shown
  cases request with
  | listApiKeys => exact (nothing answered fun _ => rfl).elim
  | createApiKey req draw => exact (nothing answered fun _ => rfl).elim
  | revokeApiKey name saved => exact (nothing answered fun _ => rfl).elim
  | _ =>
      simp only [Request.answer, AppState.playRoute] at answered
      exact answered

/-- Orderly events keep the records in order. -/
theorem Ordered.event {event : Event code} (ordered : Ordered app.world.keys)
    (orderly : ∀ asked ∈ event.performed ks app, Orderly asked) :
    Ordered (event.run ks hashApiKey app).world.keys := by
  have serves : ∀ {op : Service} {state : AppState × Moments}, Ordered state.1.world.keys →
      Orderly (op, state) → Ordered (answering ks op state).2.1.world.keys := by
    intro op state ordered orderly
    exact (ordered.step ks orderly (fun _ => True) (fun _ _ _ _ _ _ _ _ _ => trivial) trivial).1
  cases event with
  | request arrival =>
      cases called : arrival.caller app with
      | error error =>
          rw [Event.run, Arrival.run, called]
          exact ordered
      | ok entry =>
          rw [Event.run, Arrival.keys_run called]
          simp only [Event.performed, called] at orderly
          apply performed_invariant fun state : AppState × Moments => Ordered state.1.world.keys
          · intro asked member ordered
            exact serves ordered (orderly asked member)
          · exact ordered
  | touch id now saved => exact ordered
  | sweep moment => exact serves ordered (orderly _ List.mem_cons_self)
  | restart boot =>
      rw [Event.run, keys_buildApp]
      exact ordered

theorem OrderlyRun.ordered {events : List (Event code)} (ordered : Ordered start.world.keys)
    (orderly : OrderlyRun ks hashApiKey start events) :
    Ordered (playServer ks hashApiKey start events).world.keys := by
  induction events generalizing start with
  | nil => exact ordered
  | cons event rest ih => exact ih (ordered.event orderly.1) orderly.2

theorem ordered_firstStart (ks : Keystore) (boot : Boot) :
    Ordered (firstStart ks boot).world.keys := by
  rw [firstStart, keys_buildApp]
  refine ⟨?_, .empty⟩
  intro id record found
  cases found

/-- The key whose secret an operation uses. -/
def Service.secretOf : Service → Option KeyId
  | .encryptAuthorized authz _ _ _ => some ⟨authz.keyId⟩
  | .decryptAuthorized _ blob _ _ => some ⟨blob.keyId⟩
  | .signAuthorized authz _ => some ⟨authz.keyId⟩
  | _ => none

/-- The request of a caller with these domains touches no key of another domain. -/
structure KeepsToDomains (ks : Keystore) (hashApiKey : String → SizedBytes 32) (allowed : List String)
    (app : AppState) (arrival : Arrival code) : Prop where
  /-- A key that is created or changed. -/
  changed : ∀ id, (arrival.run ks hashApiKey app).2.world.keys.find? id ≠ app.world.keys.find? id →
    Home allowed (arrival.run ks hashApiKey app).2.world.keys id
  /-- A key that is listed or read. -/
  shown : ∀ body, (arrival.run ks hashApiKey app).1 = .ok body → ∀ id ∈ body.shown,
    Home allowed (arrival.run ks hashApiKey app).2.world.keys ⟨id⟩
  /-- A key that is asked for its verifying key. Roots have no domain and are told of to every
  caller; what is told when a record on the way to the domain is not read is left open. -/
  told : ∀ id, arrival.request = .verifyingKey id →
    (arrival.run ks hashApiKey app).1 ≠ .err accessDenied →
    Home allowed app.world.keys ⟨id⟩ ∨
      (∃ record, app.world.keys.find? ⟨id⟩ = some record ∧ record.keyType = .root) ∨
      ¬ ReadsLineage (arrival.moments 1).env app.world.keys ⟨id⟩
  /-- A key that encrypts, decrypts or signs. -/
  used : ∀ asked ∈ (Event.request arrival).performed ks app, ∀ id, asked.1.secretOf = some id →
    Home allowed asked.2.1.world.keys id

/-- What the lookup of a verifying key lets a caller with a list of domains hear. -/
theorem verifyingKey_told {auth : AuthContext} {moments : Moments} {id : String}
    (restricted : auth.allowedDomains = some allowed) (ordered : Ordered app.world.keys)
    (heard : ((Request.verifyingKey id : Request code).answer ks hashApiKey auth moments app).1 ≠
      .err accessDenied) :
    Home allowed app.world.keys ⟨id⟩ ∨
      (∃ record, app.world.keys.find? ⟨id⟩ = some record ∧ record.keyType = .root) ∨
      ¬ ReadsLineage (moments 1).env app.world.keys ⟨id⟩ := by
  have silent : ((lookupReadableKeyOrDeny auth ⟨id⟩).run (answering ks) (app, moments)).1 ≠
      .err accessDenied := by
    intro denied
    exact heard (Request.answer_denied trivial rfl denied)
  cases found : app.world.keys.find? ⟨id⟩ with
  | none => exact absurd (lookup_missing restricted found) silent
  | some record =>
      by_cases root : record.keyType = .root
      · exact .inr (.inl ⟨record, rfl, root⟩)
      · obtain ⟨domain, -, resolves, -, -⟩ := ordered.placed.resolves_ten found root
        by_cases member : domain.text ∈ allowed
        · exact .inl ⟨domain, resolves, member⟩
        · right
          right
          cases fault : (moments 0).env.getFault ⟨id⟩ with
          | some error => exact absurd (lookup_failed restricted (get_faulted fault)) silent
          | none =>
              rcases lookup_foreign ks restricted fault found resolves member with
                ⟨-, denied⟩ | ⟨unread, -⟩
              · exact absurd denied silent
              · exact unread

/-- In a run from the first start, without the flat-hierarchy override, every request of a caller
with a list of domains is confined to these domains. -/
theorem tenant_confined (ks : Keystore) (code : AssertionCode)
    (hashApiKey : String → SizedBytes 32) (boot : Boot) (events : List (Event code))
    (orderly : OrderlyRun ks hashApiKey (firstStart ks boot) events)
    (earlier later : List (Event code)) (arrival : Arrival code)
    (split : events = earlier ++ .request arrival :: later) (entry : ApiKeyEntry)
    (called : arrival.caller (playServer ks hashApiKey (firstStart ks boot) earlier) = .ok entry)
    (allowed : List String) (restricted : entry.allowedDomains = some allowed) :
    KeepsToDomains ks hashApiKey allowed (playServer ks hashApiKey (firstStart ks boot) earlier)
      arrival := by
  subst split
  obtain ⟨before, asks⟩ := orderly.split
  have ordered := before.ordered (ordered_firstStart ks boot)
  generalize playServer ks hashApiKey (firstStart ks boot) earlier = app at called asks ordered ⊢
  have limited : entry.context.allowedDomains = some allowed := restricted
  have performs : (Event.request arrival).performed ks app =
      (arrival.request.route entry.context).performed (answering ks) (app, arrival.moments) := by
    rw [Event.performed, called]
  rw [performs] at asks
  -- nothing is known of any key when the route begins
  have meets : Confines allowed (fun _ => False) (arrival.request.route entry.context) ShowsHome :=
    Request.route_confines limited arrival.request
  have tracks : Tracks allowed app.world.keys (fun _ => False) (app, arrival.moments) :=
    ⟨ordered, fun _ known => known.elim, fun _ differs => absurd rfl differs⟩
  have step : ∀ home state op, Orderly (op, state) → Tracks allowed app.world.keys home state →
      op.Within home → op.Expected (answering ks op state).1 ∧
        Tracks allowed app.world.keys (learned allowed home op (answering ks op state).1)
          (answering ks op state).2 :=
    fun _ _ _ orderly tracks within => tracks.step orderly within
  obtain ⟨final, reached, returned⟩ := Meets.run step meets tracks asks
  constructor
  · intro id differs
    rw [Arrival.keys_run called] at differs ⊢
    exact reached.changed id differs
  · intro body answered id shown
    have routed := Arrival.shown_run called answered shown
    rw [routed] at returned
    rw [Arrival.keys_run called]
    exact reached.homes ⟨id⟩ (returned id shown)
  · intro id asked heard
    apply verifyingKey_told limited ordered
    rw [Arrival.run, called, asked] at heard
    exact heard
  · intro asked member id uses
    rw [performs] at member
    obtain ⟨home, related, within⟩ := Meets.of_mem_performed step meets tracks asks member
    apply related.homes
    generalize asked.1 = op at uses within
    cases op <;> cases uses <;> exact within

end Runs

/-! ### A caller of one domain -/

/-- The hash of the caller's API key. -/
def tenantHash : SizedBytes 32 := filled 32 1

/-- What the creation of the caller's API key draws. -/
def tenantDraw : KeyDraw := ⟨filled 32 1, filled 8 1, "", .ok ()⟩

/-- The caller may read the keys of the second key, a domain. -/
def tenantReq : CreateApiKeyReq := ⟨"tenant", ["read"], some [(keyNumbered 2).text]⟩

/-- The configured admin asks for something, and this number is drawn. -/
def adminDrawing (n : Nat) (request : Request noAssertions) : Event noAssertions :=
  .request ⟨some configuredHash, request, fun _ => quietMoment n⟩

/-- A root, a domain under it and the caller are created. -/
def tenantAdmitted : List (Event noAssertions) :=
  [adminDrawing 1 (.generateKey ⟨"root", "root", none, none⟩),
    adminDrawing 2 (.generateKey ⟨"domain", "domain", none, some (keyNumbered 1).text⟩),
    adminDrawing 3 (.createApiKey tenantReq tenantDraw)]

/-- The server that knows the caller. -/
def tenantServer : AppState :=
  playServer plainKeystore (fun _ => tenantHash) (firstStart plainKeystore quietBoot) tenantAdmitted

/-- The caller asks, and nothing fails. -/
def asTenant (request : Request noAssertions) : Arrival noAssertions :=
  ⟨some tenantHash, request, fun _ => quietMoment 4⟩

/-- The listing that the caller asks for is confined to its domain. -/
theorem tenant_listing_confined :
    KeepsToDomains plainKeystore (fun _ => tenantHash) [(keyNumbered 2).text] tenantServer
      (asTenant .listKeys) :=
  tenant_confined plainKeystore noAssertions (fun _ => tenantHash) quietBoot
    (tenantAdmitted ++ [.request (asTenant .listKeys)]) (by decide +kernel) tenantAdmitted []
    (asTenant .listKeys) rfl (newApiKeyEntry (fun _ => tenantHash) tenantReq [.read] tenantDraw)
    (by decide +kernel) [(keyNumbered 2).text] rfl

theorem not_resolvesTo_of_root {keys : Keys} {id domain : KeyId} {record : KeyMetadata} {left : Nat}
    (found : keys.find? id = some record) (root : record.keyType = .root) :
    ¬ ResolvesTo keys left id domain := by
  rintro (⟨found', isDomain⟩ | ⟨found', notDomain, notRoot, child, resolves⟩)
  · rw [found] at found'
    cases found'
    rw [root] at isDomain
    cases isDomain
  · rw [found] at found'
    cases found'
    exact notRoot root

/-- The caller of one domain asks for the verifying key of the root, which resolves to no domain,
and reads its type in the answer. -/
theorem root_told_to_tenant :
    OrderlyRun plainKeystore (fun _ => tenantHash) (firstStart plainKeystore quietBoot)
        (tenantAdmitted ++ [.request (asTenant (.verifyingKey (keyNumbered 1).text))]) ∧
      (∃ entry, (asTenant (.verifyingKey (keyNumbered 1).text)).caller tenantServer = .ok entry ∧
        entry.allowedDomains = some [(keyNumbered 2).text]) ∧
      ((asTenant (.verifyingKey (keyNumbered 1).text)).run plainKeystore (fun _ => tenantHash)
        tenantServer).1 = .err (err (s!"key {(keyNumbered 1).text} is type ROOT — " ++
          "verifying-key only available for Signing keys")) ∧
      ∀ domain, ¬ ResolvesTo tenantServer.world.keys 10 (keyNumbered 1) domain := by
  refine ⟨by decide +kernel, ⟨newApiKeyEntry (fun _ => tenantHash) tenantReq [.read] tenantDraw,
    by decide +kernel, rfl⟩, eq_err_of_error? (by decide +kernel), ?_⟩
  intro domain
  have typed : (tenantServer.world.keys.find? (keyNumbered 1)).map KeyMetadata.keyType =
      some .root := by decide +kernel
  obtain ⟨record, found, root⟩ := Option.map_eq_some_iff.mp typed
  exact not_resolvesTo_of_root found root

end Citadel.Api
