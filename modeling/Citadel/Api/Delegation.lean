import Citadel.Api.ApiKeys
import Citadel.Data.Outcome

/-!
# Runs of the API key routes

Any callers create and revoke API keys in any order, starting from the bootstrap store.
A scoped admin can hand on less than it has and nothing that could be handed on again,
so what it delegates stays inside its domains. The protection of the last admin is
weaker than it looks: it is content with a scoped admin.
-/

namespace Citadel.Api

variable {hashApiKey : String → SizedBytes 32} {store : ApiKeyStore}

/-- A request to one of the routes that change the store. -/
inductive KeyRequest where
  | create (req : CreateApiKeyReq) (draw : KeyDraw)
  | revoke (id : String) (saved : Except String Unit)

/-- The path below `/api/auth/`. -/
def KeyRequest.page : KeyRequest → String
  | .create _ _ => "keys"
  | .revoke id _ => "keys/" ++ id

/-- The method of a request. -/
def KeyRequest.method : KeyRequest → String
  | .create _ _ => "POST"
  | .revoke _ _ => "DELETE"

/-- What happens to the store: a caller makes a request, or the task that an earlier
request left behind notes the time. -/
inductive KeyCall where
  | request (presented : Option (SizedBytes 32)) (asked : KeyRequest)
  | touch (id now : String)

/-- The entry of the caller, when the middleware lets it through. -/
def KeyCall.caller (store : ApiKeyStore) : KeyCall → Option ApiKeyEntry
  | .request presented asked =>
      match requiredScope ("/api/auth/" ++ asked.page) asked.method with
      | none => none
      | some required => (authorizeRequest store required presented).toOption
  | .touch _ _ => none

/-- The store after a request of a caller. -/
def KeyRequest.run (hashApiKey : String → SizedBytes 32) (auth : AuthContext)
    (store : ApiKeyStore) : KeyRequest → ApiKeyStore
  | .create req draw => (createApiKey hashApiKey auth req draw store).2
  | .revoke id saved => (revokeApiKey auth id saved store).2

/-- The store after a call. -/
def KeyCall.run (hashApiKey : String → SizedBytes 32) (store : ApiKeyStore) :
    KeyCall → ApiKeyStore
  | .request presented asked =>
      match (KeyCall.request presented asked).caller store with
      | none => store
      | some entry => asked.run hashApiKey entry.context store
  | .touch id now => store.touch id now

/-- The store after a sequence of calls. -/
def playKeys (hashApiKey : String → SizedBytes 32) (start : ApiKeyStore) (calls : List KeyCall) :
    ApiKeyStore :=
  calls.foldl (KeyCall.run hashApiKey) start

theorem playKeys_append_singleton (start : ApiKeyStore) (calls : List KeyCall) (call : KeyCall) :
    playKeys hashApiKey start (calls ++ [call]) =
      call.run hashApiKey (playKeys hashApiKey start calls) := by
  simp [playKeys]

/-- An invariant of the calls holds after every sequence of them. -/
theorem playKeys_induction {motive : ApiKeyStore → Prop} {start : ApiKeyStore}
    (initial : motive start)
    (step : ∀ store call, motive store → motive (KeyCall.run hashApiKey store call))
    (calls : List KeyCall) : motive (playKeys hashApiKey start calls) := by
  induction calls using List.reverseRecOn with
  | nil => exact initial
  | append_singleton calls call ih =>
      rw [playKeys_append_singleton]
      exact step _ call ih

/-- A call adds a key. -/
def KeyCall.Creates (hashApiKey : String → SizedBytes 32) (store : ApiKeyStore) (call : KeyCall)
    (creator child : ApiKeyEntry) : Prop :=
  call.caller store = some creator ∧ (call.run hashApiKey store).keys = store.keys ++ [child]

/-- A call deactivates a key and leaves the others alone. -/
def KeyCall.Deactivates (hashApiKey : String → SizedBytes 32) (store : ApiKeyStore)
    (call : KeyCall) (actor target : ApiKeyEntry) : Prop :=
  call.caller store = some actor ∧ target.active = true ∧
    ∃ front rest, store.keys = front ++ target :: rest ∧
      (call.run hashApiKey store).keys = front ++ { target with active := false } :: rest

/-- The routes are for admins. -/
theorem KeyRequest.requiredScope (asked : KeyRequest) :
    Api.requiredScope ("/api/auth/" ++ asked.page) asked.method = some .admin := by
  apply requiredScope_auth
  intro same
  have letters := congrArg String.toList same
  cases asked with
  | create req draw => simp [page] at letters
  | revoke id saved => simp [page] at letters

/-- Only an admin gets to the routes. -/
theorem KeyCall.admin_of_caller {call : KeyCall} {entry : ApiKeyEntry}
    (called : call.caller store = some entry) : entry ∈ store.keys ∧ .admin ∈ entry.scopes := by
  cases call with
  | touch id now => cases called
  | request presented asked =>
      simp only [caller, asked.requiredScope, authorizeRequest] at called
      split at called
      · cases called
      · cases presented with
        | none => cases called
        | some hash =>
            cases found : store.authenticate hash with
            | none => simp [found, Except.toOption] at called
            | some candidate =>
                simp only [found] at called
                split at called
                · rename_i admitted
                  cases called
                  refine ⟨List.mem_of_find?_eq_some found, ?_⟩
                  simpa [hasScope] using admitted
                · cases called

/-- Everything that a call can do to the store. -/
inductive KeyCall.Effect (hashApiKey : String → SizedBytes 32) (store : ApiKeyStore)
    (call : KeyCall) : ApiKeyStore → Prop where
  | unchanged : Effect hashApiKey store call store
  | created {caller : ApiKeyEntry} {req : CreateApiKeyReq} {draw : KeyDraw} {scopes : List Scope}
      (called : call.caller store = some caller)
      (admitted : admitApiKey caller.context req = .ok scopes) :
      Effect hashApiKey store call (store.add (newApiKeyEntry hashApiKey req scopes draw))
  | deactivated {caller target : ApiKeyEntry} {presented : Option (SizedBytes 32)} {id : String}
      {saved : Except String Unit} (asked : call = .request presented (.revoke id saved))
      (called : call.caller store = some caller)
      (admitted : admitRevocation caller.context id store = .ok target) :
      Effect hashApiKey store call (store.deactivate id)
  | touched {id now : String} (asked : call = .touch id now) :
      Effect hashApiKey store call (store.touch id now)

theorem KeyCall.effect (hashApiKey : String → SizedBytes 32) (store : ApiKeyStore)
    (call : KeyCall) : call.Effect hashApiKey store (call.run hashApiKey store) := by
  cases call with
  | touch id now => exact .touched rfl
  | request presented asked =>
      rw [KeyCall.run]
      cases called : (KeyCall.request presented asked).caller store with
      | none => exact .unchanged
      | some caller =>
          cases asked with
          | create req draw =>
              simp only [KeyRequest.run, createApiKey]
              cases admitted : admitApiKey caller.context req with
              | error error => exact .unchanged
              | ok scopes =>
                  cases draw.saved <;> exact .created called admitted
          | revoke id saved =>
              simp only [KeyRequest.run, revokeApiKey]
              cases admitted : admitRevocation caller.context id store with
              | error error => exact .unchanged
              | ok target =>
                  cases saved <;> exact .deactivated rfl called admitted

/-- A loop that finds nothing to refuse. -/
theorem subset_of_find? {α : Type} [BEq α] [LawfulBEq α] {listed allowed : List α}
    (none : (listed.find? fun item => !allowed.contains item) = none) : listed ⊆ allowed := by
  intro item member
  simpa using List.find?_eq_none.mp none item member

/-- What a scoped admin may create. -/
theorem create_authorized {auth : AuthContext} {domains : List String} {scopes : List Scope}
    {allowed : Option (List String)} (confined : auth.allowedDomains = some domains)
    (passed : authorizeApiKeyAdminAction auth (.createApiKey scopes allowed) = .ok ()) :
    .admin ∉ scopes ∧ scopes ⊆ auth.scopes ∧ ∃ given, allowed = some given ∧ given ⊆ domains := by
  rw [authorizeApiKeyAdminAction, auth.isGlobalAdmin_of_domains confined] at passed
  obtain ⟨notGlobal, passed⟩ := Except.of_guard_eq_ok passed
  obtain ⟨notAdmin, passed⟩ := Except.of_guard_eq_ok passed
  obtain ⟨⟨⟩, domainsPassed, scopesPassed⟩ := Except.of_bind_eq_ok passed
  obtain ⟨given, rfl⟩ := Option.ne_none_iff_exists'.mp notGlobal
  refine ⟨notAdmin, ?_, given, rfl, ?_⟩
  · apply subset_of_find?
    rw [checkScopes] at scopesPassed
    split at scopesPassed
    · cases scopesPassed
    · assumption
  · apply subset_of_find?
    simp only [checkDomains, confined] at domainsPassed
    split at domainsPassed
    · cases domainsPassed
    · assumption

/-- What a scoped admin may revoke. -/
theorem revoke_authorized {auth : AuthContext} {domains : List String} {target : ApiKeyEntry}
    (confined : auth.allowedDomains = some domains)
    (passed : authorizeApiKeyAdminAction auth (.revokeApiKey target) = .ok ()) :
    target.isGlobalAdmin = false ∧
      ∀ given, target.allowedDomains = some given → given ⊆ domains := by
  rw [authorizeApiKeyAdminAction, auth.isGlobalAdmin_of_domains confined] at passed
  obtain ⟨notGlobal, passed⟩ := Except.of_guard_eq_ok passed
  refine ⟨by simpa using notGlobal, ?_⟩
  intro given scoping domain member
  simp only [checkRevoked, scoping, confined] at passed
  split at passed
  · rename_i inside
    simpa using List.all_eq_true.mp inside domain member
  · cases passed

/-- A new key passed both the authorization and the rules about its domains. -/
theorem of_admitApiKey {auth : AuthContext} {req : CreateApiKeyReq} {scopes : List Scope}
    (admitted : admitApiKey auth req = .ok scopes) :
    authorizeApiKeyAdminAction auth (.createApiKey scopes req.allowedDomains) = .ok () ∧
      checkScoping req.allowedDomains (scopes.contains .admin) = .ok () := by
  obtain ⟨-, admitted⟩ := Except.of_guard_eq_ok admitted
  obtain ⟨parsed, -, admitted⟩ := Except.of_bind_eq_ok admitted
  obtain ⟨-, admitted⟩ := Except.of_guard_eq_ok admitted
  obtain ⟨⟨⟩, authorized, admitted⟩ := Except.of_bind_eq_ok admitted
  obtain ⟨⟨⟩, scoping, same⟩ := Except.of_bind_eq_ok admitted
  cases same
  exact ⟨authorized, scoping⟩

/-- What a revocation has checked. -/
theorem of_admitRevocation {auth : AuthContext} {id : String} {target : ApiKeyEntry}
    (admitted : admitRevocation auth id store = .ok target) :
    (store.keys.find? fun entry => entry.id == id) = some target ∧
      authorizeApiKeyAdminAction auth (.revokeApiKey target) = .ok () ∧
      (.admin ∈ target.scopes → ∃ other ∈ store.keys, other.id ≠ id ∧ other.active = true ∧
        .admin ∈ other.scopes) := by
  rw [admitRevocation] at admitted
  split at admitted
  · cases admitted
  · rename_i found
    obtain ⟨⟨⟩, authorized, admitted⟩ := Except.of_bind_eq_ok admitted
    obtain ⟨-, admitted⟩ := Except.of_guard_eq_ok admitted
    obtain ⟨others, same⟩ := Except.of_guard_eq_ok admitted
    cases same
    refine ⟨found, authorized, fun isAdmin => ?_⟩
    have counted := Nat.pos_of_ne_zero fun none => others ⟨isAdmin, none⟩
    obtain ⟨other, member, counts⟩ := List.countP_pos_iff.mp counted
    simp only [Bool.and_eq_true, bne_iff_ne, List.contains_iff_mem] at counts
    exact ⟨other, member, counts.1.1, counts.1.2, counts.2⟩

theorem mem_updateFirst {wanted : ApiKeyEntry → Bool} {change : ApiKeyEntry → ApiKeyEntry}
    {keys : List ApiKeyEntry} {entry : ApiKeyEntry} (member : entry ∈ updateFirst wanted change keys) :
    entry ∈ keys ∨ ∃ old ∈ keys, entry = change old := by
  induction keys with
  | nil => cases member
  | cons first rest ih =>
      rw [updateFirst] at member
      split at member
      · rcases List.mem_cons.mp member with rfl | later
        · exact .inr ⟨first, by simp, rfl⟩
        · exact .inl (List.mem_cons_of_mem _ later)
      · rcases List.mem_cons.mp member with rfl | later
        · exact .inl (by simp)
        · rcases ih later with kept | ⟨old, kept, changed⟩
          · exact .inl (List.mem_cons_of_mem _ kept)
          · exact .inr ⟨old, List.mem_cons_of_mem _ kept, changed⟩

theorem updateFirst_of_none {wanted : ApiKeyEntry → Bool} {change : ApiKeyEntry → ApiKeyEntry}
    {keys : List ApiKeyEntry} (none : keys.find? wanted = none) :
    updateFirst wanted change keys = keys := by
  induction keys with
  | nil => rfl
  | cons first rest ih =>
      have unwanted := List.find?_eq_none.mp none first List.mem_cons_self
      have later : rest.find? wanted = .none := by rwa [List.find?_cons_of_neg unwanted] at none
      rw [updateFirst, if_neg unwanted, ih later]

theorem mem_updateFirst_of_found {wanted : ApiKeyEntry → Bool}
    {change : ApiKeyEntry → ApiKeyEntry} {keys : List ApiKeyEntry} {target : ApiKeyEntry}
    (found : keys.find? wanted = some target) : change target ∈ updateFirst wanted change keys := by
  induction keys with
  | nil => cases found
  | cons first rest ih =>
      rw [updateFirst]
      by_cases isWanted : wanted first = true
      · rw [List.find?_cons_of_pos isWanted] at found
        cases found
        simp [isWanted]
      · rw [List.find?_cons_of_neg isWanted] at found
        rw [if_neg isWanted]
        exact List.mem_cons_of_mem _ (ih found)

@[simp] theorem length_updateFirst (wanted : ApiKeyEntry → Bool)
    (change : ApiKeyEntry → ApiKeyEntry) (keys : List ApiKeyEntry) :
    (updateFirst wanted change keys).length = keys.length := by
  induction keys with
  | nil => rfl
  | cons first rest ih =>
      rw [updateFirst]
      split
      · rfl
      · simp [ih]

/-- The entry that an update changed is the first wanted one. -/
theorem find?_of_updateFirst {wanted : ApiKeyEntry → Bool} {change : ApiKeyEntry → ApiKeyEntry}
    {front rest : List ApiKeyEntry} {old new : ApiKeyEntry} (different : new ≠ old)
    (changed : updateFirst wanted change (front ++ old :: rest) = front ++ new :: rest) :
    (front ++ old :: rest).find? wanted = some old := by
  induction front with
  | nil =>
      rw [List.nil_append, updateFirst] at changed
      split at changed
      · rename_i isWanted
        simp [isWanted]
      · exact absurd (List.cons.inj changed).1.symm different
  | cons first front ih =>
      rw [List.cons_append, updateFirst] at changed
      split at changed
      · have tails := List.append_cancel_left (List.cons.inj changed).2
        exact absurd (List.cons.inj tails).1.symm different
      · rename_i unwanted
        rw [List.cons_append, List.find?_cons_of_neg unwanted]
        exact ih (List.cons.inj changed).2

/-- A key that was added was admitted, and its creator is an admin. -/
theorem KeyCall.Creates.admitted {call : KeyCall} {creator child : ApiKeyEntry}
    (creates : call.Creates hashApiKey store creator child) :
    .admin ∈ creator.scopes ∧ ∃ req scopes draw, admitApiKey creator.context req = .ok scopes ∧
      child = newApiKeyEntry hashApiKey req scopes draw := by
  obtain ⟨called, added⟩ := creates
  refine ⟨(admin_of_caller called).2, ?_⟩
  have effect := call.effect hashApiKey store
  generalize call.run hashApiKey store = after at added effect
  have longer := congrArg List.length added
  cases effect with
  | unchanged => simp at longer
  | created calledBy admitted =>
      obtain rfl := Option.some.inj (called.symm.trans calledBy)
      have last := List.append_cancel_left added
      exact ⟨_, _, _, admitted, (List.cons.inj last).1.symm⟩
  | deactivated asked calledBy admitted => simp [ApiKeyStore.deactivate] at longer
  | touched asked => simp [ApiKeyStore.touch] at longer

/-- A key that was deactivated was admitted for it. -/
theorem KeyCall.Deactivates.admitted {call : KeyCall} {actor target : ApiKeyEntry}
    (deactivates : call.Deactivates hashApiKey store actor target) :
    target ∈ store.keys ∧ ∃ id, admitRevocation actor.context id store = .ok target := by
  obtain ⟨called, active, front, rest, before, changed⟩ := deactivates
  have different : { target with active := false } ≠ target := by
    intro same
    have flags := congrArg ApiKeyEntry.active same
    rw [active] at flags
    cases flags
  refine ⟨by simp [before], ?_⟩
  have effect := call.effect hashApiKey store
  generalize call.run hashApiKey store = after at changed effect
  cases effect with
  | unchanged =>
      rw [before] at changed
      exact absurd (List.cons.inj (List.append_cancel_left changed)).1.symm different
  | created calledBy admitted =>
      have longer := congrArg List.length changed
      simp [ApiKeyStore.add, before] at longer
  | deactivated asked calledBy admitted =>
      obtain rfl := Option.some.inj (called.symm.trans calledBy)
      rw [ApiKeyStore.deactivate, before] at changed
      have found := (of_admitRevocation admitted).1
      rw [before, find?_of_updateFirst different changed] at found
      cases found
      exact ⟨_, admitted⟩
  | touched asked =>
      rw [asked] at called
      cases called

/-- Two states of one entry: only its activity and its last use change. -/
def ApiKeyEntry.SameKey (entry other : ApiKeyEntry) : Prop :=
  { entry with active := other.active, lastUsed := other.lastUsed } = other

theorem ApiKeyEntry.SameKey.scopes {entry other : ApiKeyEntry} (same : entry.SameKey other) :
    entry.scopes = other.scopes := by
  rw [← (show _ = other from same)]

theorem ApiKeyEntry.SameKey.allowedDomains {entry other : ApiKeyEntry}
    (same : entry.SameKey other) : entry.allowedDomains = other.allowedDomains := by
  rw [← (show _ = other from same)]

/-- A call of a run adds a key. -/
def CreatedIn (hashApiKey : String → SizedBytes 32) (start : ApiKeyStore) (calls : List KeyCall)
    (creator child : ApiKeyEntry) : Prop :=
  ∃ past call rest, calls = past ++ call :: rest ∧
    call.Creates hashApiKey (playKeys hashApiKey start past) creator child

/-- A call of a run deactivates a key. -/
def DeactivatedIn (hashApiKey : String → SizedBytes 32) (start : ApiKeyStore)
    (calls : List KeyCall) (actor target : ApiKeyEntry) : Prop :=
  ∃ past call rest, calls = past ++ call :: rest ∧
    call.Deactivates hashApiKey (playKeys hashApiKey start past) actor target

/-- The keys that go back to one key through a chain of creations, with their creators. -/
inductive Delegated (hashApiKey : String → SizedBytes 32) (start : ApiKeyStore)
    (calls : List KeyCall) (origin : ApiKeyEntry) : ApiKeyEntry → ApiKeyEntry → Prop where
  | direct {creator child : ApiKeyEntry} (created : CreatedIn hashApiKey start calls creator child)
      (same : creator.SameKey origin) : Delegated hashApiKey start calls origin creator child
  | chain {earlier middle creator child : ApiKeyEntry}
      (delegated : Delegated hashApiKey start calls origin earlier middle)
      (created : CreatedIn hashApiKey start calls creator child) (same : creator.SameKey middle) :
      Delegated hashApiKey start calls origin creator child

/-- Every key that is not an admin key is confined to some domains. -/
def Confined (store : ApiKeyStore) : Prop :=
  ∀ entry ∈ store.keys, .admin ∉ entry.scopes →
    ∃ domains, entry.allowedDomains = some domains ∧ domains ≠ []

theorem confined_bootstrapStore (hash : SizedBytes 32) (createdAt : String) :
    Confined (bootstrapStore hash createdAt) := by
  intro entry member notAdmin
  obtain rfl := List.mem_singleton.mp member
  simp [bootstrapEntry] at notAdmin

/-- An update that keeps scopes and domains keeps the keys confined. -/
theorem Confined.updateFirst {wanted : ApiKeyEntry → Bool} {change : ApiKeyEntry → ApiKeyEntry}
    (confined : Confined store) (scopes : ∀ entry, (change entry).scopes = entry.scopes)
    (domains : ∀ entry, (change entry).allowedDomains = entry.allowedDomains) :
    Confined ⟨Api.updateFirst wanted change store.keys⟩ := by
  intro entry member notAdmin
  rcases mem_updateFirst member with kept | ⟨old, kept, rfl⟩
  · exact confined entry kept notAdmin
  · rw [scopes] at notAdmin
    rw [domains]
    exact confined old kept notAdmin

/-- A key that passed the rules about domains is confined unless it is an admin key. -/
theorem domains_of_checkScoping {allowed : Option (List String)} {scopes : List Scope}
    (passed : checkScoping allowed (scopes.contains .admin) = .ok ()) (notAdmin : .admin ∉ scopes) :
    ∃ domains, allowed = some domains ∧ domains ≠ [] := by
  have plain : scopes.contains .admin = false := by simpa using notAdmin
  rw [plain] at passed
  match allowed with
  | none => cases passed
  | some [] => cases passed
  | some (first :: rest) => exact ⟨first :: rest, rfl, by simp⟩

theorem Confined.run (confined : Confined store) (call : KeyCall) :
    Confined (call.run hashApiKey store) := by
  have effect := call.effect hashApiKey store
  generalize call.run hashApiKey store = after at effect
  cases effect with
  | unchanged => exact confined
  | created called admitted =>
      intro entry member notAdmin
      rcases List.mem_append.mp member with old | new
      · exact confined entry old notAdmin
      · obtain rfl := List.mem_singleton.mp new
        exact domains_of_checkScoping (of_admitApiKey admitted).2 notAdmin
  | deactivated asked called admitted => exact confined.updateFirst (fun _ => rfl) fun _ => rfl
  | touched asked => exact confined.updateFirst (fun _ => rfl) fun _ => rfl

/-- A key that a scoped admin creates is less than its creator. -/
theorem KeyCall.Creates.confined {call : KeyCall} {creator child : ApiKeyEntry}
    {domains : List String} (creates : call.Creates hashApiKey store creator child)
    (scoping : creator.allowedDomains = some domains) :
    .admin ∉ child.scopes ∧ child.scopes ⊆ creator.scopes ∧
      ∃ given, child.allowedDomains = some given ∧ given ⊆ domains := by
  obtain ⟨-, req, scopes, draw, admitted, rfl⟩ := creates.admitted
  have context : creator.context.allowedDomains = some domains := scoping
  exact create_authorized context (of_admitApiKey admitted).1

/-- What goes back to a scoped admin is less than its creator. The chain is never longer
than one creation: what a scoped admin creates is no admin key. -/
theorem Delegated.confined {start : ApiKeyStore} {calls : List KeyCall}
    {origin creator child : ApiKeyEntry} {domains : List String}
    (delegated : Delegated hashApiKey start calls origin creator child)
    (scoping : origin.allowedDomains = some domains) :
    .admin ∉ child.scopes ∧ child.scopes ⊆ creator.scopes ∧
      ∃ given, child.allowedDomains = some given ∧ given ⊆ domains := by
  induction delegated with
  | direct created same =>
      obtain ⟨past, call, rest, -, creates⟩ := created
      exact creates.confined (same.allowedDomains.trans scoping)
  | chain delegated created same ih =>
      obtain ⟨past, call, rest, -, creates⟩ := created
      have isAdmin := creates.admitted.1
      rw [same.scopes] at isAdmin
      exact absurd isAdmin ih.1

/-- Whatever the callers do: a key without the admin scope is confined to some domains; a
key that goes back to a scoped admin is no admin key, has domains of that admin and scopes
of its creator; and a scoped admin deactivates only keys whose domains are all its own. -/
theorem delegation_confined (hashApiKey : String → SizedBytes 32) (hash : SizedBytes 32)
    (createdAt : String) (calls : List KeyCall) :
    Confined (playKeys hashApiKey (bootstrapStore hash createdAt) calls) ∧
    (∀ origin domains, .admin ∈ origin.scopes → origin.allowedDomains = some domains →
      ∀ creator child,
        Delegated hashApiKey (bootstrapStore hash createdAt) calls origin creator child →
        .admin ∉ child.scopes ∧ child.scopes ⊆ creator.scopes ∧
        ∃ given, child.allowedDomains = some given ∧ given ⊆ domains) ∧
    (∀ actor domains target, actor.allowedDomains = some domains →
      DeactivatedIn hashApiKey (bootstrapStore hash createdAt) calls actor target →
      ∃ given, target.allowedDomains = some given ∧ given ⊆ domains) := by
  have confined : ∀ calls, Confined (playKeys hashApiKey (bootstrapStore hash createdAt) calls) :=
    playKeys_induction (confined_bootstrapStore hash createdAt) fun store call kept => kept.run call
  refine ⟨confined calls, ?_, ?_⟩
  · intro origin domains isAdmin scoping creator child delegated
    exact delegated.confined scoping
  · rintro actor domains target scoping ⟨past, call, rest, -, deactivates⟩
    obtain ⟨member, id, admitted⟩ := deactivates.admitted
    have context : actor.context.allowedDomains = some domains := scoping
    obtain ⟨notGlobal, inside⟩ := revoke_authorized context (of_admitRevocation admitted).2.1
    cases given : target.allowedDomains with
    | some listed => exact ⟨listed, rfl, inside listed given⟩
    | none =>
        -- a key without domains is an admin key, and a global one
        have notAdmin : .admin ∉ target.scopes := by
          simpa [ApiKeyEntry.isGlobalAdmin, given] using notGlobal
        obtain ⟨listed, some, -⟩ := confined past target member notAdmin
        rw [given] at some
        cases some

/-- Some active key is a global admin key. -/
def HasGlobalAdmin (store : ApiKeyStore) : Prop :=
  ∃ entry ∈ store.keys, entry.active = true ∧ entry.isGlobalAdmin = true

/-- The call revokes no global admin key while the other active admin keys are all scoped:
when there are others, one of them is global. -/
def SparesLastGlobal (store : ApiKeyStore) (call : KeyCall) : Prop :=
  ∀ presented id saved, call = .request presented (.revoke id saved) →
    ∀ target, (store.keys.find? fun entry => entry.id == id) = some target →
      target.isGlobalAdmin = true →
      (∃ other ∈ store.keys, other.id ≠ id ∧ other.active = true ∧ .admin ∈ other.scopes) →
      ∃ other ∈ store.keys, other.id ≠ id ∧ other.active = true ∧ other.isGlobalAdmin = true

/-- An entry that is not the first wanted one survives an update. -/
theorem mem_updateFirst_of_other {wanted : ApiKeyEntry → Bool}
    {change : ApiKeyEntry → ApiKeyEntry} {keys : List ApiKeyEntry} {entry target : ApiKeyEntry}
    (member : entry ∈ keys) (found : keys.find? wanted = some target) (other : entry ≠ target) :
    entry ∈ updateFirst wanted change keys := by
  induction keys with
  | nil => cases member
  | cons first rest ih =>
      rw [updateFirst]
      by_cases isWanted : wanted first = true
      · rw [List.find?_cons_of_pos isWanted] at found
        cases found
        rcases List.mem_cons.mp member with rfl | later
        · exact absurd rfl other
        · rw [if_pos isWanted]
          exact List.mem_cons_of_mem _ later
      · rw [List.find?_cons_of_neg isWanted] at found
        rw [if_neg isWanted]
        rcases List.mem_cons.mp member with rfl | later
        · exact List.mem_cons_self
        · exact List.mem_cons_of_mem _ (ih later found)

/-- An update that keeps activity, scopes and domains keeps the global admins. -/
theorem HasGlobalAdmin.touch (has : HasGlobalAdmin store) (id now : String) :
    HasGlobalAdmin (store.touch id now) := by
  obtain ⟨entry, member, active, isGlobal⟩ := has
  cases found : store.keys.find? fun entry => entry.id == id with
  | none =>
      refine ⟨entry, ?_, active, isGlobal⟩
      have kept : (store.touch id now).keys = store.keys := by
        rw [ApiKeyStore.touch]
        exact updateFirst_of_none found
      rwa [kept]
  | some target =>
      by_cases same : entry = target
      · subst same
        exact ⟨{ entry with lastUsed := some now }, mem_updateFirst_of_found found, active, isGlobal⟩
      · exact ⟨entry, mem_updateFirst_of_other member found same, active, isGlobal⟩

/-- A call that spares the last global admin leaves one. -/
theorem HasGlobalAdmin.run {call : KeyCall} (has : HasGlobalAdmin store)
    (spares : SparesLastGlobal store call) : HasGlobalAdmin (call.run hashApiKey store) := by
  have effect := call.effect hashApiKey store
  generalize call.run hashApiKey store = after at effect
  cases effect with
  | unchanged => exact has
  | created called admitted =>
      obtain ⟨entry, member, active, isGlobal⟩ := has
      exact ⟨entry, List.mem_append_left _ member, active, isGlobal⟩
  | touched asked => exact has.touch _ _
  | deactivated asked called admitted =>
      obtain ⟨found, -, others⟩ := of_admitRevocation admitted
      rename_i target _ id _
      have targetId : target.id = id := by simpa using List.find?_some found
      -- the admin that stays: another global one, or any when the target is none itself
      by_cases targetGlobal : target.isGlobalAdmin = true
      · have targetAdmin : .admin ∈ target.scopes := by
          simp only [ApiKeyEntry.isGlobalAdmin, Bool.and_eq_true, List.contains_iff_mem]
            at targetGlobal
          exact targetGlobal.2
        obtain ⟨other, member, different, active, isGlobal⟩ :=
          spares _ _ _ asked target found targetGlobal (others targetAdmin)
        refine ⟨other, mem_updateFirst_of_other member found ?_, active, isGlobal⟩
        rintro rfl
        exact different targetId
      · obtain ⟨entry, member, active, isGlobal⟩ := has
        refine ⟨entry, mem_updateFirst_of_other member found ?_, active, isGlobal⟩
        rintro rfl
        exact targetGlobal isGlobal

/-- As long as no call revokes a global admin key with only scoped admins beside it, a
global admin remains. -/
theorem global_admin_remains (hashApiKey : String → SizedBytes 32) (hash : SizedBytes 32)
    (createdAt : String) (calls : List KeyCall)
    (spares : ∀ past call rest, calls = past ++ call :: rest →
      SparesLastGlobal (playKeys hashApiKey (bootstrapStore hash createdAt) past) call) :
    HasGlobalAdmin (playKeys hashApiKey (bootstrapStore hash createdAt) calls) := by
  induction calls using List.reverseRecOn with
  | nil => exact ⟨bootstrapEntry hash createdAt, List.mem_singleton.mpr rfl, rfl, rfl⟩
  | append_singleton calls call ih =>
      rw [playKeys_append_singleton]
      have before : HasGlobalAdmin (playKeys hashApiKey (bootstrapStore hash createdAt) calls) := by
        apply ih
        rintro past early rest rfl
        exact spares past early (rest ++ [call]) (by simp)
      exact before.run (spares calls call [] rfl)

/-- A hash that an operator may have configured. -/
def configuredHash : SizedBytes 32 := ⟨List.replicate 32 0, rfl⟩

/-- The configured admin asks for something. -/
def byBootstrap (asked : KeyRequest) : KeyCall := .request (some configuredHash) asked

/-- The creation of an admin key, for the domains given. -/
def createAdmin (allowedDomains : Option (List String)) : KeyRequest :=
  .create ⟨"admin", ["admin"], allowedDomains⟩
    ⟨⟨List.replicate 32 1, rfl⟩, ⟨List.replicate 8 1, rfl⟩, "", .ok ()⟩

/-- With a second global admin in place, the first may go. -/
theorem second_global_admin_remains :
    HasGlobalAdmin (playKeys (fun _ => configuredHash) (bootstrapStore configuredHash "")
      [byBootstrap (createAdmin none), byBootstrap (.revoke "ck_bootstrap" (.ok ()))]) := by
  apply global_admin_remains
  intro past call rest split
  match past, split with
  | [], split =>
      obtain ⟨rfl, -⟩ := List.cons.inj split
      intro presented id saved asked
      cases asked
  | [_], split =>
      obtain ⟨rfl, -⟩ := List.cons.inj (List.cons.inj split).2
      obtain ⟨rfl, -⟩ := List.cons.inj split
      intro presented id saved asked target found isGlobal others
      cases asked
      revert others
      decide +kernel
  | [_, _], split => simp at split
  | _ :: _ :: _ :: _, split => simp at split

/-- The configured admin creates a scoped admin and revokes itself: no global admin is
left, and none can be created any more. -/
theorem scoped_admin_suffices :
    ¬ HasGlobalAdmin (playKeys (fun _ => configuredHash) (bootstrapStore configuredHash "")
      [byBootstrap (createAdmin (some ["domain"])),
        byBootstrap (.revoke "ck_bootstrap" (.ok ()))]) := by
  unfold HasGlobalAdmin
  decide +kernel

end Citadel.Api
