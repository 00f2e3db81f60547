import Citadel.Core.Expiry

/-!
# Contexts and revocation

An enforcer looks at the status of a key when it issues a context and not again when it validates
one: there it checks the token and the lifetime, and the keystore checks the state of the key. So a
revocation ends the issue of contexts, and what was issued before lasts as long as it would have.
-/

namespace Citadel.Core

/-- What happened at an enforcer. -/
inductive Happening where
  | registered (keyId : String) (domainId : Option String)
  | revoked (keyId : String)
  | issued (issue : Issue) (request : Request) (context : AuthorizedContext)
  | accepted (context : AuthorizedContext) (reading : Reading)

/-- An enforcer with its history. A nonce is drawn once and is not zero, and what is validated was
issued before. -/
inductive Served (sha256 : Bytes → SizedBytes 32) : StateEnforcer → List Happening → Prop where
  | start (generation ttlMs clockSkewMs : Nat) :
      Served sha256 (.withConfig generation ttlMs clockSkewMs) []
  | registerKey {enforcer : StateEnforcer} {history : List Happening} (keyId : String)
      (domainId : Option String) (prior : Served sha256 enforcer history) :
      Served sha256 (enforcer.registerKey keyId domainId)
        (history ++ [.registered keyId domainId])
  | revokeKey {enforcer : StateEnforcer} {history : List Happening} (keyId : String)
      (prior : Served sha256 enforcer history) :
      Served sha256 (enforcer.revokeKey keyId) (history ++ [.revoked keyId])
  | issue {enforcer after : StateEnforcer} {history : List Happening} {issue : Issue}
      {request : Request} {context : AuthorizedContext} (prior : Served sha256 enforcer history)
      (nonzero : issue.nonce ≠ 0)
      (distinct : ∀ earlier other known, .issued earlier other known ∈ history →
        earlier.nonce ≠ issue.nonce)
      (granted : enforcer.answer sha256 issue request = (.ok context, after)) :
      Served sha256 after (history ++ [.issued issue request context])
  | deny {enforcer after : StateEnforcer} {history : List Happening} {issue : Issue}
      {request : Request} {denial : DenialReason} (prior : Served sha256 enforcer history)
      (denied : enforcer.answer sha256 issue request = (.error denial, after)) :
      Served sha256 after history
  | accept {enforcer after : StateEnforcer} {history : List Happening} {issue : Issue}
      {request : Request} {context : AuthorizedContext} {reading : Reading}
      (prior : Served sha256 enforcer history) (known : .issued issue request context ∈ history)
      (validated : context.validate enforcer reading = (.ok (), after)) :
      Served sha256 after (history ++ [.accepted context reading])
  | reject {enforcer after : StateEnforcer} {history : List Happening} {issue : Issue}
      {request : Request} {context : AuthorizedContext} {reading : Reading} {message : String}
      (prior : Served sha256 enforcer history) (known : .issued issue request context ∈ history)
      (rejected : context.validate enforcer reading = (.error message, after)) :
      Served sha256 after history

/-- A context is accepted within both lifetimes, and for the first time. -/
structure AcceptedLive (enforcer : StateEnforcer) (before : List Happening)
    (context : AuthorizedContext) (reading : Reading) (issue : Issue) (request : Request) :
    Prop where
  issued : .issued issue request context ∈ before
  first : ∀ earlier, .accepted context earlier ∉ before
  young : reading.nanos - issue.nanos < StateEnforcer.capabilityTokenTtlNanos
  within : StateEnforcer.ageMs issue reading ≤ (enforcer.ttlMs + enforcer.clockSkewMs) % 2 ^ 64

/-- What an enforcer holds says about its history, and what its history says about contexts. -/
structure Ledger (enforcer : StateEnforcer) (history : List Happening) : Prop where
  unique : ∀ issue request context issue' request' context',
    .issued issue request context ∈ history → .issued issue' request' context' ∈ history →
    context.capability.nonce = context'.capability.nonce →
    issue = issue' ∧ request = request' ∧ context = context'
  shown : ∀ issue request context, .issued issue request context ∈ history →
    context.capability.nonce = issue.nonce ∧ context.keyId = request.subject ∧
      context.timestampMs = issue.millis % 2 ^ 64
  waiting : ∀ nonce time, enforcer.issuedTokens nonce = some time →
    ∃ issue request context, .issued issue request context ∈ history ∧
      context.capability.nonce = nonce ∧ issue.nanos = time ∧
      ∀ reading, .accepted context reading ∉ history
  revoked : ∀ keyId, .revoked keyId ∈ history → keyId ∈ enforcer.revokedKeys
  refused : ∀ before keyId later, history = before ++ .revoked keyId :: later →
    ∀ issue request context, .issued issue request context ∈ later →
      request.subject ≠ keyId ∧ request.recipient ≠ some keyId
  accepted : ∀ before context reading later,
    history = before ++ .accepted context reading :: later →
    ∃ issue request, AcceptedLive enforcer before context reading issue request

theorem AcceptedLive.of_sameConfig {enforcer after : StateEnforcer} {before : List Happening}
    {context : AuthorizedContext} {reading : Reading} {issue : Issue} {request : Request}
    (live : AcceptedLive enforcer before context reading issue request)
    (config : StateEnforcer.SameConfig enforcer after) :
    AcceptedLive after before context reading issue request where
  issued := live.issued
  first := live.first
  young := live.young
  within := by
    rw [config.ttlMs, config.clockSkewMs]
    exact live.within

/-- Where a history that grew by one event is cut. -/
theorem cut_of_append_singleton {history before later : List Happening} {last event : Happening}
    (cut : history ++ [last] = before ++ event :: later) :
    (history = before ∧ last = event ∧ later = []) ∨
      ∃ rest, later = rest ++ [last] ∧ history = before ++ event :: rest := by
  rcases List.eq_nil_or_concat' later with rfl | ⟨rest, final, rfl⟩
  · obtain ⟨fronts, lasts⟩ := List.append_inj' cut rfl
    exact .inl ⟨fronts, (List.cons.inj lasts).1, rfl⟩
  · rw [← List.cons_append, ← List.append_assoc] at cut
    obtain ⟨fronts, lasts⟩ := List.append_inj' cut rfl
    obtain rfl := (List.cons.inj lasts).1
    exact .inr ⟨rest, rfl, fronts⟩

namespace Ledger

variable {sha256 : Bytes → SizedBytes 32} {enforcer after : StateEnforcer}
  {history : List Happening}

theorem start (generation ttlMs clockSkewMs : Nat) :
    Ledger (.withConfig generation ttlMs clockSkewMs) [] where
  unique _ _ _ _ _ _ member := nomatch member
  shown _ _ _ member := nomatch member
  waiting _ _ kept := nomatch kept
  revoked _ member := nomatch member
  refused before _ later cut := by simp at cut
  accepted before _ _ later cut := by simp at cut

/-- What was accepted was live, also for an enforcer that is configured alike. -/
theorem accepted_of_sameConfig (ledger : Ledger enforcer history)
    (config : StateEnforcer.SameConfig enforcer after) {before later : List Happening}
    {context : AuthorizedContext} {reading : Reading}
    (cut : history = before ++ .accepted context reading :: later) :
    ∃ issue request, AcceptedLive after before context reading issue request := by
  obtain ⟨issue, request, live⟩ := ledger.accepted before context reading later cut
  exact ⟨issue, request, live.of_sameConfig config⟩

/-- A step without an event may only drop tokens. -/
theorem quiet (ledger : Ledger enforcer history) (config : StateEnforcer.SameConfig enforcer after)
    (keys : after.revokedKeys = enforcer.revokedKeys)
    (tokens : ∀ nonce time, after.issuedTokens nonce = some time →
      enforcer.issuedTokens nonce = some time) : Ledger after history where
  unique := ledger.unique
  shown := ledger.shown
  waiting nonce time kept := ledger.waiting nonce time (tokens nonce time kept)
  revoked keyId member := by
    rw [keys]
    exact ledger.revoked keyId member
  refused := ledger.refused
  accepted _ _ _ _ cut := ledger.accepted_of_sameConfig config cut

/-- An event that issues nothing and accepts nothing. -/
theorem append_silent (ledger : Ledger enforcer history) {last : Happening}
    (issues : ∀ issue request context, last ≠ .issued issue request context)
    (accepts : ∀ context reading, last ≠ .accepted context reading)
    (config : StateEnforcer.SameConfig enforcer after)
    (tokens : after.issuedTokens = enforcer.issuedTokens)
    (revoked : ∀ keyId, .revoked keyId ∈ history ++ [last] → keyId ∈ after.revokedKeys) :
    Ledger after (history ++ [last]) := by
  have old : ∀ {issue request context}, .issued issue request context ∈ history ++ [last] →
      .issued issue request context ∈ history := by
    intro issue request context member
    rcases List.mem_append.mp member with earlier | new
    · exact earlier
    · exact absurd (List.mem_singleton.mp new).symm (issues issue request context)
  refine ⟨?_, ?_, ?_, revoked, ?_, ?_⟩
  · intro issue request context issue' request' context' first second
    exact ledger.unique _ _ _ _ _ _ (old first) (old second)
  · intro issue request context member
    exact ledger.shown _ _ _ (old member)
  · intro nonce time kept
    rw [tokens] at kept
    obtain ⟨issue, request, context, issued, same, moment, untouched⟩ :=
      ledger.waiting nonce time kept
    refine ⟨issue, request, context, List.mem_append_left _ issued, same, moment, ?_⟩
    intro reading member
    rcases List.mem_append.mp member with earlier | new
    · exact untouched reading earlier
    · exact accepts context reading (List.mem_singleton.mp new).symm
  · intro before keyId later cut issue request context member
    rcases cut_of_append_singleton cut with ⟨-, -, rfl⟩ | ⟨rest, rfl, inner⟩
    · exact absurd member List.not_mem_nil
    · rcases List.mem_append.mp member with earlier | new
      · exact ledger.refused before keyId rest inner issue request context earlier
      · exact absurd (List.mem_singleton.mp new).symm (issues issue request context)
  · intro before context reading later cut
    rcases cut_of_append_singleton cut with ⟨-, same, -⟩ | ⟨rest, -, inner⟩
    · exact absurd same (accepts context reading)
    · exact ledger.accepted_of_sameConfig config inner

/-- What was accepted was issued. -/
theorem issued_of_accepted (ledger : Ledger enforcer history) {context : AuthorizedContext}
    {reading : Reading} (accepted : .accepted context reading ∈ history) :
    ∃ issue request, .issued issue request context ∈ history := by
  obtain ⟨before, later, rfl⟩ := List.append_of_mem accepted
  obtain ⟨issue, request, live⟩ := ledger.accepted before context reading later rfl
  exact ⟨issue, request, List.mem_append_left _ live.issued⟩

/-- A context is issued for a key that was not revoked. -/
theorem issued (ledger : Ledger enforcer history) {issue : Issue} {request : Request}
    {context : AuthorizedContext}
    (distinct : ∀ earlier other known, .issued earlier other known ∈ history →
      earlier.nonce ≠ issue.nonce)
    (granted : StateEnforcer.Granted sha256 enforcer issue request context after) :
    Ledger after (history ++ [.issued issue request context]) := by
  have shown := granted.shown
  have registered : ∀ time, after.issuedTokens issue.nonce = some time → issue.nanos = time := by
    intro time kept
    have grant := granted.grant
    cases grant
    have stored := StateEnforcer.eq_some_of_retain kept
    rw [Function.update_self] at stored
    exact Option.some.inj stored
  have config : StateEnforcer.SameConfig enforcer after := by
    have grant := granted.grant
    cases grant
    exact ⟨rfl, rfl, rfl⟩
  have keys : after.revokedKeys = enforcer.revokedKeys := by
    have grant := granted.grant
    cases grant
    rfl
  have fresh : ∀ earlier other known, .issued earlier other known ∈ history →
      known.capability.nonce ≠ context.capability.nonce := by
    intro earlier other known member
    rw [(ledger.shown _ _ _ member).1, shown.nonce]
    exact distinct earlier other known member
  refine ⟨?_, ?_, ?_, ?_, ?_, ?_⟩
  · intro first firstRequest firstContext second secondRequest secondContext firstIssued
      secondIssued same
    simp only [List.mem_append, List.mem_singleton, Happening.issued.injEq]
      at firstIssued secondIssued
    rcases firstIssued with firstIssued | ⟨rfl, rfl, rfl⟩
    · rcases secondIssued with secondIssued | ⟨rfl, rfl, rfl⟩
      · exact ledger.unique _ _ _ _ _ _ firstIssued secondIssued same
      · exact absurd same (fresh _ _ _ firstIssued)
    · rcases secondIssued with secondIssued | ⟨rfl, rfl, rfl⟩
      · exact absurd same.symm (fresh _ _ _ secondIssued)
      · exact ⟨rfl, rfl, rfl⟩
  · intro first firstRequest firstContext member
    simp only [List.mem_append, List.mem_singleton, Happening.issued.injEq] at member
    rcases member with earlier | ⟨rfl, rfl, rfl⟩
    · exact ledger.shown _ _ _ earlier
    · exact ⟨shown.nonce, shown.key, shown.stamp⟩
  · intro nonce time kept
    rcases granted.tokens kept with rfl | earlier
    · refine ⟨issue, request, context, by simp, shown.nonce, registered time kept, ?_⟩
      intro reading member
      have accepted : .accepted context reading ∈ history := by simpa using member
      obtain ⟨old, other, issued⟩ := ledger.issued_of_accepted accepted
      exact fresh _ _ _ issued rfl
    · obtain ⟨old, other, known, issued, same, moment, untouched⟩ := ledger.waiting nonce time earlier
      exact ⟨old, other, known, List.mem_append_left _ issued, same, moment, by simpa using untouched⟩
  · intro keyId member
    rw [keys]
    exact ledger.revoked keyId (by simpa using member)
  · intro before keyId later cut old other known member
    rcases cut_of_append_singleton cut with ⟨-, -, rfl⟩ | ⟨rest, rfl, inner⟩
    · exact absurd member List.not_mem_nil
    · rcases List.mem_append.mp member with earlier | new
      · exact ledger.refused before keyId rest inner _ _ _ earlier
      · cases List.mem_singleton.mp new
        have gone : keyId ∈ enforcer.revokedKeys := by
          apply ledger.revoked
          rw [inner]
          simp
        obtain ⟨unrevoked, -⟩ := StateEnforcer.validateKey_eq_none_iff.mp granted.subject
        constructor
        · rintro rfl
          exact unrevoked gone
        · intro recipient
          exact (granted.recipient keyId recipient).2 gone
  · intro before other reading later cut
    rcases cut_of_append_singleton cut with ⟨-, same, -⟩ | ⟨rest, -, inner⟩
    · cases same
    · exact ledger.accepted_of_sameConfig config inner

/-- A context is accepted while its token waits. -/
theorem accept (ledger : Ledger enforcer history) {issue : Issue} {request : Request}
    {context : AuthorizedContext} {reading : Reading}
    (known : .issued issue request context ∈ history)
    (validated : context.validate enforcer reading = (.ok (), after)) :
    Ledger after (history ++ [.accepted context reading]) := by
  obtain ⟨checked, time, kept⟩ := StateEnforcer.token_of_validate validated
  have left := StateEnforcer.after_of_validate validated
  have config : StateEnforcer.SameConfig enforcer after := by
    rw [left]
    exact StateEnforcer.sameConfig_validateCapability _ _ _
  have keys : after.revokedKeys = enforcer.revokedKeys := by
    rw [left]
    exact (StateEnforcer.sameKeys_validateCapability _ _).revoked
  have live : AcceptedLive enforcer history context reading issue request := by
    obtain ⟨old, other, same, issued, nonce, rfl, untouched⟩ := ledger.waiting _ time kept
    obtain ⟨rfl, rfl, rfl⟩ := ledger.unique _ _ _ _ _ _ issued known nonce
    obtain ⟨nonzero, ours⟩ := StateEnforcer.ours_of_validateCapability checked
    have accepted : (same.validate enforcer reading).1 = .ok () := by rw [validated]
    obtain ⟨young, within⟩ := (StateEnforcer.validate_ok_iff (ledger.shown _ _ _ known).2.2 nonzero
      ours (.inl kept)).mp accepted
    exact ⟨known, untouched, young, within⟩
  have old : ∀ {earlier other context'},
      .issued earlier other context' ∈ history ++ [.accepted context reading] →
      .issued earlier other context' ∈ history := by
    intro earlier other context' member
    simpa using member
  refine ⟨?_, ?_, ?_, ?_, ?_, ?_⟩
  · intro first firstRequest firstContext second secondRequest secondContext firstIssued secondIssued
    exact ledger.unique _ _ _ _ _ _ (old firstIssued) (old secondIssued)
  · intro first firstRequest firstContext member
    exact ledger.shown _ _ _ (old member)
  · intro nonce stored waits
    rw [left] at waits
    obtain ⟨earlier, other⟩ := StateEnforcer.validateCapability_tokens waits
    obtain ⟨issued, asked, waiting, member, same, moment, untouched⟩ :=
      ledger.waiting nonce stored earlier
    refine ⟨issued, asked, waiting, List.mem_append_left _ member, same, moment, ?_⟩
    intro moment' accepted
    rcases List.mem_append.mp accepted with before | new
    · exact untouched moment' before
    · cases List.mem_singleton.mp new
      exact other checked same.symm
  · intro keyId member
    rw [keys]
    exact ledger.revoked keyId (by simpa using member)
  · intro before keyId later cut issued asked other member
    rcases cut_of_append_singleton cut with ⟨-, -, rfl⟩ | ⟨rest, rfl, inner⟩
    · exact absurd member List.not_mem_nil
    · exact ledger.refused before keyId rest inner _ _ _ (by simpa using member)
  · intro before other moment later cut
    rcases cut_of_append_singleton cut with ⟨rfl, same, -⟩ | ⟨rest, -, inner⟩
    · cases same
      exact ⟨issue, request, live.of_sameConfig config⟩
    · exact ledger.accepted_of_sameConfig config inner

end Ledger

/-- Every history of an enforcer is in its ledger. -/
theorem Served.ledger {sha256 : Bytes → SizedBytes 32} {enforcer : StateEnforcer}
    {history : List Happening} (served : Served sha256 enforcer history) :
    Ledger enforcer history := by
  induction served with
  | start generation ttlMs clockSkewMs => exact .start generation ttlMs clockSkewMs
  | registerKey keyId domainId prior ih =>
      refine ih.append_silent (fun _ _ _ => nofun) (fun _ _ => nofun) ⟨rfl, rfl, rfl⟩ rfl ?_
      intro other member
      exact ih.revoked other (by simpa using member)
  | revokeKey keyId prior ih =>
      refine ih.append_silent (fun _ _ _ => nofun) (fun _ _ => nofun) ⟨rfl, rfl, rfl⟩ rfl ?_
      intro other member
      rcases List.mem_append.mp member with earlier | new
      · exact Finset.mem_insert_of_mem (ih.revoked other earlier)
      · cases List.mem_singleton.mp new
        exact Finset.mem_insert_self _ _
  | issue prior nonzero distinct granted ih =>
      exact ih.issued distinct (StateEnforcer.granted_of_answer granted)
  | deny prior denied ih =>
      rw [StateEnforcer.eq_of_answer_error denied]
      exact ih
  | accept prior known validated ih => exact ih.accept known validated
  | reject prior known rejected ih =>
      rw [StateEnforcer.after_of_validate rejected]
      apply ih.quiet (StateEnforcer.sameConfig_validateCapability _ _ _)
      · exact (StateEnforcer.sameKeys_validateCapability _ _).revoked
      · intro nonce time kept
        exact (StateEnforcer.validateCapability_tokens kept).1

/-- After a revocation no context is issued for the key, and a context for it is accepted only if it
was issued before, for the first time, and within both lifetimes. -/
theorem contexts_after_revocation (sha256 : Bytes → SizedBytes 32) (enforcer : StateEnforcer)
    (history before later : List Happening) (keyId : String)
    (served : Served sha256 enforcer history)
    (cut : history = before ++ .revoked keyId :: later) :
    (∀ issue request context, .issued issue request context ∈ later →
      request.subject ≠ keyId ∧ request.recipient ≠ some keyId) ∧
    ∀ middle context reading rest, later = middle ++ .accepted context reading :: rest →
      context.keyId = keyId →
      ∃ issue request, .issued issue request context ∈ before ∧
        (∀ earlier, .accepted context earlier ∉ before ++ .revoked keyId :: middle) ∧
        reading.nanos - issue.nanos < StateEnforcer.capabilityTokenTtlNanos ∧
        StateEnforcer.ageMs issue reading ≤ (enforcer.ttlMs + enforcer.clockSkewMs) % 2 ^ 64 := by
  have ledger := served.ledger
  have refused := ledger.refused before keyId later cut
  refine ⟨refused, ?_⟩
  rintro middle context reading rest rfl same
  have inner :
      history = (before ++ .revoked keyId :: middle) ++ .accepted context reading :: rest := by
    rw [cut, List.append_assoc, List.cons_append]
  obtain ⟨issue, request, live⟩ := ledger.accepted _ context reading rest inner
  refine ⟨issue, request, ?_, live.first, live.young, live.within⟩
  rcases List.mem_append.mp live.issued with earlier | meanwhile
  · exact earlier
  · exfalso
    rcases List.mem_cons.mp meanwhile with head | between
    · cases head
    · have known : .issued issue request context ∈ history := by
        rw [inner]
        exact List.mem_append_left _ live.issued
      have named := (ledger.shown _ _ _ known).2.1
      exact (refused issue request context (List.mem_append_left _ between)).1 (named.symm.trans same)

namespace StateEnforcer

/-- A key, a context for it, the revocation of the key, and the context again. -/
def revokedOnce (context : AuthorizedContext) : List Happening :=
  [.registered "key" none, .issued issueAtStart (.decrypt "key" none) context, .revoked "key",
    .accepted context ⟨2 * 10 ^ 9, 2000⟩]

theorem served_revokedOnce : ∃ enforcer context,
    Served (fun _ => .zeros 32) enforcer (revokedOnce context) ∧ context.keyId = "key" := by
  obtain ⟨context, after, granted, last, validated, named⟩ : ∃ context after,
      oneKey.answer (fun _ => .zeros 32) issueAtStart (.decrypt "key" none) =
        (.ok context, after) ∧
      ∃ last, context.validate (after.revokeKey "key") ⟨2 * 10 ^ 9, 2000⟩ = (.ok (), last) ∧
        context.keyId = "key" := ⟨_, _, rfl, _, rfl, rfl⟩
  have fresh : Served (fun _ => .zeros 32) (.withConfig 1 60000 5000) [] := .start _ _ _
  have issued := (fresh.registerKey "key" none).issue (by decide) (by simp) granted
  have known : Happening.issued issueAtStart (.decrypt "key" none) context ∈
      [Happening.registered "key" none, .issued issueAtStart (.decrypt "key" none) context,
        .revoked "key"] := by simp
  exact ⟨last, context, (issued.revokeKey "key").accept known validated, named⟩

/-- A context for a key that is revoked is accepted two seconds after its issue. -/
theorem revoked_key_accepted :
    ∃ enforcer context, Served (fun _ => .zeros 32) enforcer (revokedOnce context) ∧
      context.keyId = "key" :=
  served_revokedOnce

/-- It was issued before the revocation. -/
theorem accepted_was_issued :
    ∃ enforcer context issue request, Served (fun _ => .zeros 32) enforcer (revokedOnce context) ∧
      Happening.issued issue request context ∈
        [Happening.registered "key" none, .issued issueAtStart (.decrypt "key" none) context] := by
  obtain ⟨enforcer, context, served, named⟩ := served_revokedOnce
  obtain ⟨-, accepted⟩ := contexts_after_revocation _ enforcer _
    [.registered "key" none, .issued issueAtStart (.decrypt "key" none) context]
    [.accepted context ⟨2 * 10 ^ 9, 2000⟩] "key" served rfl
  obtain ⟨issue, request, issued, -⟩ := accepted [] context ⟨2 * 10 ^ 9, 2000⟩ [] rfl named
  exact ⟨enforcer, context, issue, request, served, issued⟩

end StateEnforcer

end Citadel.Core
