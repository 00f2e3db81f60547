import Citadel.Core.Authority

/-!
# How long a context lasts

Two lifetimes end an authorization. The context ends with the configured time and tolerance, in
milliseconds since its issue. Its token leaves the registry sixty seconds after its issue, at
whichever operation cleans the registry next. The tokens were made to expire with contexts of the
default configuration, and they do not look at the configuration.
-/

namespace Citadel.Core

namespace Operation

/-- What an operation reads from the clock, in nanoseconds. -/
def moment : Operation → Option Nat
  | .registerKey _ _ => none
  | .revokeKey _ => none
  | .authorize issue _ => some issue.nanos
  | .validate _ reading => some reading.nanos

/-- The operation issues and validates other tokens than that of the nonce. -/
def Spares (nonce : Nat) : Operation → Prop
  | .registerKey _ _ => True
  | .revokeKey _ => True
  | .authorize issue _ => issue.nonce ≠ nonce
  | .validate context _ => context.capability.nonce ≠ nonce

end Operation

namespace StateEnforcer

variable {sha256 : Bytes → SizedBytes 32} {enforcer after : StateEnforcer} {issue : Issue}
  {nonce issuedAt now : Nat}

/-- The configuration and the generation of an enforcer stay. -/
structure SameConfig (enforcer after : StateEnforcer) : Prop where
  generation : after.generation = enforcer.generation
  ttlMs : after.ttlMs = enforcer.ttlMs
  clockSkewMs : after.clockSkewMs = enforcer.clockSkewMs

theorem SameConfig.trans {between : StateEnforcer} (first : SameConfig enforcer between)
    (second : SameConfig between after) : SameConfig enforcer after where
  generation := second.generation.trans first.generation
  ttlMs := second.ttlMs.trans first.ttlMs
  clockSkewMs := second.clockSkewMs.trans first.clockSkewMs

theorem sameConfig_answer (enforcer : StateEnforcer) (issue : Issue) (request : Request) :
    SameConfig enforcer (enforcer.answer sha256 issue request).2 := by
  cases answered : enforcer.answer sha256 issue request with
  | mk outcome after =>
      cases outcome with
      | error denial =>
          rw [eq_of_answer_error answered]
          exact ⟨rfl, rfl, rfl⟩
      | ok context =>
          have grant := (granted_of_answer answered).grant
          cases grant
          exact ⟨rfl, rfl, rfl⟩

theorem sameConfig_validateCapability (enforcer : StateEnforcer) (token : CapabilityToken)
    (nowNanos : Nat) : SameConfig enforcer (enforcer.validateCapability token nowNanos).2 := by
  unfold validateCapability
  split
  · exact ⟨rfl, rfl, rfl⟩
  · split
    · exact ⟨rfl, rfl, rfl⟩
    · exact ⟨rfl, rfl, rfl⟩

theorem sameConfig_apply (enforcer : StateEnforcer) (operation : Operation) :
    SameConfig enforcer (operation.apply sha256 enforcer) := by
  cases operation with
  | registerKey keyId domainId => exact ⟨rfl, rfl, rfl⟩
  | revokeKey keyId => exact ⟨rfl, rfl, rfl⟩
  | authorize issue request => exact sameConfig_answer enforcer issue request
  | validate context reading =>
      rw [Operation.apply, validate_snd]
      exact sameConfig_validateCapability enforcer context.capability reading.nanos

theorem sameConfig_performed (enforcer : StateEnforcer) (operations : List Operation) :
    SameConfig enforcer (performed sha256 enforcer operations) := by
  induction operations generalizing enforcer with
  | nil => exact ⟨rfl, rfl, rfl⟩
  | cons operation rest ih =>
      exact (sameConfig_apply enforcer operation).trans (ih (operation.apply sha256 enforcer))

/-- A token is in the registry, or it was dropped because its time is over by now. -/
def Waits (tokens : Nat → Option Nat) (nonce issuedAt now : Nat) : Prop :=
  tokens nonce = some issuedAt ∨
    tokens nonce = none ∧ capabilityTokenTtlNanos ≤ now - issuedAt

/-- Cleaning the registry drops no token before its time. -/
theorem Waits.retain {tokens : Nat → Option Nat} {moment : Nat}
    (waits : Waits tokens nonce issuedAt now) (earlier : moment ≤ now) :
    Waits (retain tokens moment) nonce issuedAt now := by
  rcases waits with kept | ⟨gone, late⟩
  · by_cases young : moment - issuedAt < capabilityTokenTtlNanos
    · exact .inl (by simp [StateEnforcer.retain, kept, young])
    · have outlived : capabilityTokenTtlNanos ≤ moment - issuedAt := Nat.not_lt.mp young
      refine .inr ⟨by simp [StateEnforcer.retain, kept, outlived], ?_⟩
      omega
  · exact .inr ⟨by simp [StateEnforcer.retain, gone], late⟩

/-- Other tokens come and go beside it. -/
theorem Waits.update {tokens : Nat → Option Nat} {other : Nat} {value : Option Nat}
    (waits : Waits tokens nonce issuedAt now) (differs : other ≠ nonce) :
    Waits (Function.update tokens other value) nonce issuedAt now := by
  unfold Waits
  rw [Function.update_of_ne differs.symm]
  exact waits

theorem waits_apply {operation : Operation}
    (waits : Waits enforcer.issuedTokens nonce issuedAt now) (spares : operation.Spares nonce)
    (earlier : ∀ moment, operation.moment = some moment → moment ≤ now) :
    Waits (operation.apply sha256 enforcer).issuedTokens nonce issuedAt now := by
  cases operation with
  | registerKey keyId domainId => exact waits
  | revokeKey keyId => exact waits
  | authorize issue request =>
      have inTime : issue.nanos ≤ now := earlier _ rfl
      change Waits (enforcer.answer sha256 issue request).2.issuedTokens nonce issuedAt now
      cases answered : enforcer.answer sha256 issue request with
      | mk outcome after =>
          cases outcome with
          | error denial =>
              rw [eq_of_answer_error answered]
              exact waits
          | ok context =>
              have grant := (granted_of_answer answered).grant
              cases grant
              exact (waits.update spares).retain inTime
  | validate context reading =>
      have inTime : reading.nanos ≤ now := earlier _ rfl
      rw [Operation.apply, validate_snd]
      unfold validateCapability
      split
      · exact waits
      · split
        · exact waits
        · exact (waits.retain inTime).update spares

/-- Whatever happens to other contexts, a token waits until its time is over. -/
theorem waits_performed {operations : List Operation}
    (waits : Waits enforcer.issuedTokens nonce issuedAt now)
    (spares : ∀ operation ∈ operations, operation.Spares nonce)
    (earlier : ∀ operation ∈ operations, ∀ moment, operation.moment = some moment →
      moment ≤ now) :
    Waits (performed sha256 enforcer operations).issuedTokens nonce issuedAt now := by
  induction operations generalizing enforcer with
  | nil => exact waits
  | cons operation rest ih =>
      apply ih
      · exact waits_apply waits (spares _ List.mem_cons_self) (earlier _ List.mem_cons_self)
      · exact fun later member => spares later (.tail _ member)
      · exact fun later member => earlier later (.tail _ member)

/-- A token that waits is accepted before its time is over. -/
theorem validateCapability_of_waits {token : CapabilityToken} (nonzero : token.nonce ≠ 0)
    (ours : token.enforcerGeneration = enforcer.generation)
    (waits : Waits enforcer.issuedTokens token.nonce issuedAt now) :
    (enforcer.validateCapability token now).1 = decide (now - issuedAt < capabilityTokenTtlNanos) := by
  rw [validateCapability, if_neg nonzero, if_neg (not_not.mpr ours)]
  rcases waits with kept | ⟨gone, late⟩
  · by_cases young : now - issuedAt < capabilityTokenTtlNanos
    · simp [retain, kept, young]
    · simp [retain, kept, young]
  · simp [retain, gone, Nat.not_lt.mpr late]

/-- An accepted token has a nonce and was issued by the enforcer. -/
theorem ours_of_validateCapability {token : CapabilityToken} {nowNanos : Nat}
    (accepted : (enforcer.validateCapability token nowNanos).1 = true) :
    token.nonce ≠ 0 ∧ token.enforcerGeneration = enforcer.generation := by
  unfold validateCapability at accepted
  split at accepted
  · cases accepted
  · rename_i nonzero
    split at accepted
    · cases accepted
    · rename_i ours
      exact ⟨nonzero, not_not.mp ours⟩

/-- What a context shows of its issue. -/
structure Shown (enforcer : StateEnforcer) (issue : Issue) (request : Request)
    (context : AuthorizedContext) : Prop where
  nonce : context.capability.nonce = issue.nonce
  generation : context.capability.enforcerGeneration = enforcer.generation
  key : context.keyId = request.subject
  stamp : context.timestampMs = issue.millis % 2 ^ 64

theorem Granted.shown {request : Request} {context : AuthorizedContext}
    (granted : Granted sha256 enforcer issue request context after) :
    Shown enforcer issue request context := by
  have grant := granted.grant
  cases grant
  exact ⟨rfl, rfl, rfl, rfl⟩

/-- The milliseconds since the issue of a context, as the code counts them. -/
def ageMs (issue : Issue) (reading : Reading) : Nat :=
  reading.millis % 2 ^ 64 - issue.millis % 2 ^ 64

/-- A context is accepted exactly if neither lifetime is over. -/
theorem validate_ok_iff {context : AuthorizedContext} {reading : Reading}
    (stamped : context.timestampMs = issue.millis % 2 ^ 64)
    (nonzero : context.capability.nonce ≠ 0)
    (ours : context.capability.enforcerGeneration = enforcer.generation)
    (waits : Waits enforcer.issuedTokens context.capability.nonce issuedAt reading.nanos) :
    (context.validate enforcer reading).1 = .ok () ↔
      reading.nanos - issuedAt < capabilityTokenTtlNanos ∧
        ageMs issue reading ≤ (enforcer.ttlMs + enforcer.clockSkewMs) % 2 ^ 64 := by
  have accepted := validateCapability_of_waits nonzero ours waits
  unfold AuthorizedContext.validate
  split
  rename_i found after checked
  rw [checked] at accepted
  dsimp only at accepted
  rw [accepted]
  by_cases young : reading.nanos - issuedAt < capabilityTokenTtlNanos
  · rw [decide_eq_true young, if_neg (by simp)]
    simp only [stamped, young, true_and, ageMs]
    split
    · rename_i old
      simp only [reduceCtorEq, false_iff]
      exact Nat.not_le.mpr old
    · rename_i fresh
      simp only [true_iff]
      exact Nat.not_lt.mp fresh
  · rw [decide_eq_false young, if_pos rfl]
    simp [young]

/-- The condition under which the two lifetimes agree with the configured one: their sum is a 64-bit
number; a context whose token still lives is past the sum as the code counts only if it is past the
sum, which no overflow of the clock hides; and a context whose token is dropped is past the sum. -/
def LifetimesAgree (enforcer : StateEnforcer) (issue : Issue) (reading : Reading) : Prop :=
  enforcer.ttlMs + enforcer.clockSkewMs < 2 ^ 64 ∧
    (reading.nanos - issue.nanos < capabilityTokenTtlNanos →
      reading.millis - issue.millis ≤ enforcer.ttlMs + enforcer.clockSkewMs ∨
        enforcer.ttlMs + enforcer.clockSkewMs < ageMs issue reading) ∧
    (capabilityTokenTtlNanos ≤ reading.nanos - issue.nanos →
      enforcer.ttlMs + enforcer.clockSkewMs < reading.millis - issue.millis)

/-- The code never counts more milliseconds than there are. -/
theorem ageMs_le {reading : Reading} (ordered : issue.millis ≤ reading.millis) :
    ageMs issue reading ≤ reading.millis - issue.millis := by
  have first := Nat.div_add_mod issue.millis (2 ^ 64)
  have last := Nat.div_add_mod reading.millis (2 ^ 64)
  have order : issue.millis / 2 ^ 64 ≤ reading.millis / 2 ^ 64 := Nat.div_le_div_right ordered
  unfold ageMs
  omega

/-- Whatever other contexts are issued and validated in between, a context that was not used yet
validates exactly within the configured time and tolerance, and their sum does not overflow, if and
only if the two lifetimes agree. -/
theorem context_expiry_iff (enforcer : StateEnforcer) (issue : Issue) (request : Request)
    (context : AuthorizedContext) (after : StateEnforcer)
    (granted : enforcer.answer sha256 issue request = (.ok context, after))
    (nonzero : issue.nonce ≠ 0) (between : List Operation)
    (spares : ∀ operation ∈ between, operation.Spares issue.nonce) (reading : Reading)
    (earlier : ∀ operation ∈ between, ∀ moment, operation.moment = some moment →
      moment ≤ reading.nanos)
    (ordered : issue.millis ≤ reading.millis) :
    (((context.validate (performed sha256 after between) reading).1 = .ok () ↔
        reading.millis - issue.millis ≤ enforcer.ttlMs + enforcer.clockSkewMs) ∧
      enforcer.ttlMs + enforcer.clockSkewMs < 2 ^ 64) ↔
      LifetimesAgree enforcer issue reading := by
  have config : SameConfig enforcer (performed sha256 after between) := by
    have answered : SameConfig enforcer (enforcer.answer sha256 issue request).2 :=
      sameConfig_answer enforcer issue request
    rw [granted] at answered
    exact answered.trans (sameConfig_performed after between)
  have registered : after.issuedTokens issue.nonce = some issue.nanos := by
    have grant := (granted_of_answer granted).grant
    cases grant
    simp [retain, capabilityTokenTtlNanos]
  have shown := Granted.shown (granted_of_answer granted)
  have valid : (context.validate (performed sha256 after between) reading).1 = .ok () ↔
      reading.nanos - issue.nanos < capabilityTokenTtlNanos ∧
        ageMs issue reading ≤ (enforcer.ttlMs + enforcer.clockSkewMs) % 2 ^ 64 := by
    rw [← config.ttlMs, ← config.clockSkewMs]
    apply validate_ok_iff shown.stamp
    · rw [shown.nonce]
      exact nonzero
    · rw [shown.generation, config.generation]
    · rw [shown.nonce]
      exact waits_performed (.inl registered) spares earlier
  have counted := ageMs_le ordered
  rw [valid]
  constructor
  · rintro ⟨agrees, fits⟩
    rw [Nat.mod_eq_of_lt fits] at agrees
    refine ⟨fits, ?_, ?_⟩
    · intro young
      by_contra differs
      push Not at differs
      exact absurd (agrees.mp ⟨young, differs.2⟩) (Nat.not_le.mpr differs.1)
    · intro outlived
      by_contra within
      obtain ⟨young, -⟩ := agrees.mpr (Nat.not_lt.mp within)
      omega
  · rintro ⟨fits, live, dropped⟩
    rw [Nat.mod_eq_of_lt fits]
    refine ⟨?_, fits⟩
    constructor
    · rintro ⟨young, counts⟩
      rcases live young with within | beyond
      · exact within
      · omega
    · intro within
      by_contra refused
      have outlived : capabilityTokenTtlNanos ≤ reading.nanos - issue.nanos := by omega
      have beyond := dropped outlived
      omega

/-- The default configuration, with one key. -/
def oneKey : StateEnforcer := (withConfig 1 60000 5000).registerKey "key" none

/-- A context of the time 0. -/
def issueAtStart : Issue := ⟨1, 0, 0⟩

/-- A context is refused after 62 seconds, although it may be 65 seconds old. -/
theorem refused_within_tolerance :
    ∃ context after, oneKey.answer (fun _ => .zeros 32) issueAtStart (.decrypt "key" none) =
        (.ok context, after) ∧
      (context.validate after ⟨62 * 10 ^ 9, 62000⟩).1 ≠ .ok () ∧
      62000 - issueAtStart.millis ≤ oneKey.ttlMs + oneKey.clockSkewMs := by
  have granted : oneKey.answer (fun _ => .zeros 32) issueAtStart (.decrypt "key" none) =
      (.ok _, _) := rfl
  refine ⟨_, _, granted, ?_, by decide⟩
  decide

/-- A context is accepted after 59 seconds, while another one is issued. -/
theorem accepted_in_time :
    ∃ context after, oneKey.answer (fun _ => .zeros 32) issueAtStart (.decrypt "key" none) =
        (.ok context, after) ∧
      (((context.validate (performed (fun _ => .zeros 32) after
          [.authorize ⟨2, 10 ^ 9, 1000⟩ (.decrypt "key" none)]) ⟨59 * 10 ^ 9, 59000⟩).1 = .ok () ↔
        59000 - issueAtStart.millis ≤ oneKey.ttlMs + oneKey.clockSkewMs) ∧
        oneKey.ttlMs + oneKey.clockSkewMs < 2 ^ 64) := by
  have granted : oneKey.answer (fun _ => .zeros 32) issueAtStart (.decrypt "key" none) =
      (.ok _, _) := rfl
  refine ⟨_, _, granted, ?_⟩
  apply (context_expiry_iff oneKey issueAtStart (.decrypt "key" none) _ _ granted (by decide) _ ?_
    ⟨59 * 10 ^ 9, 59000⟩ ?_ (by decide)).mpr
  · refine ⟨by decide, fun _ => .inl (by decide), ?_⟩
    intro outlived
    exact absurd outlived (by decide)
  · intro operation member
    rw [List.mem_singleton.mp member]
    exact show (2 : Nat) ≠ 1 by decide
  · intro operation member moment read
    rw [List.mem_singleton.mp member] at read
    cases read
    decide

end StateEnforcer

end Citadel.Core
