import Citadel.Data.Float64
import Citadel.Keystore.Error
import Citadel.Program.Basic

/-!
# Policies, their evaluation and their adaptation to the threat level

Durations are nanoseconds. A verdict is computed at one reading of the clock. The
evaluation divides by the lifetime in whole seconds for a log line, so it can
panic; that outcome is part of the model.
-/

namespace Citadel

/-- One second. -/
def second : Nat := 10 ^ 9

/-- `Duration::from_secs`. -/
def fromSecs (seconds : Nat) : Nat := seconds * second

/-- `Duration::as_secs`. -/
def asSecs (duration : Nat) : Nat := duration / second

/-- `chrono::Duration::MAX`, the milliseconds of a signed 64-bit integer. -/
def chronoMax : Nat := (2 ^ 63 - 1) * 10 ^ 6

/-- `chrono::Duration::from_std(..).unwrap_or(chrono::Duration::MAX)`. -/
def chronoFromStd (duration : Nat) : Nat := min duration chronoMax

/-- `chrono::Duration::num_seconds`. -/
def numSeconds (elapsed : Int) : Int := elapsed.tdiv second

/-- `chrono::Duration::num_hours`. -/
def numHours (elapsed : Int) : Int := (numSeconds elapsed).tdiv 3600

/-- `chrono::Duration::num_days`. -/
def numDays (elapsed : Int) : Int := (numSeconds elapsed).tdiv 86400

/-- `format_duration`. -/
def formatDuration (elapsed : Int) : String :=
  if 0 < numDays elapsed then s!"{numDays elapsed}d" else s!"{numHours elapsed}h"

/-- `format_std_duration`. -/
def formatStdDuration (duration : Nat) : String :=
  if 0 < asSecs duration / 86400 then s!"{asSecs duration / 86400}d"
  else s!"{asSecs duration / 3600}h"

/-- What causes a key to need rotation (`RotationTrigger`). -/
inductive RotationTrigger where
  | age (limit : Nat)
  | usageCount (limit : Nat)
  | externalSignal (signal : String)
  | parentRotated
  deriving DecidableEq, Repr

/-- `KeyPolicy`. -/
structure KeyPolicy where
  id : PolicyId
  name : String
  appliesTo : List KeyType
  rotationTriggers : List RotationTrigger
  rotationGracePeriod : Nat
  maxLifetime : Option Nat
  maxUsageCount : Option Nat
  autoRotate : Bool
  minVersionsRetained : Nat
  enforceCryptoperiod : Bool
  deriving DecidableEq, Repr

/-- The result of evaluating a policy (`PolicyVerdict`). -/
inductive PolicyVerdict where
  | compliant
  | rotationNeeded (reason : String)
  | warning (reason : String)
  | usageLimitExceeded (count limit : Nat)
  | expired (ageDays : Int) (limitDays : Nat)
  deriving DecidableEq, Repr

/-- `is_expired`. -/
def PolicyVerdict.isExpired : PolicyVerdict → Bool
  | .expired _ _ => true
  | _ => false

/-- The hard stop of an enforced cryptoperiod. Past four fifths of the lifetime the
code computes a percentage for its log, dividing by the lifetime in seconds. -/
def cryptoperiodVerdict (policy : KeyPolicy) (key : KeyMetadata) (now : Nat) :
    Except Abort (Option PolicyVerdict) :=
  match policy.enforceCryptoperiod, policy.maxLifetime, key.activatedAt with
  | true, some maxLifetime, some activated =>
      let age : Int := now - activated
      let maxLifetimeChrono := chronoFromStd maxLifetime
      let warnThreshold :=
        chronoFromStd (fromSecs (Float64.fourFifths.scaleU64 (asSecs maxLifetime)))
      if maxLifetimeChrono ≤ age then
        .ok (some (.expired (numDays age) (asSecs maxLifetime / 86400)))
      else if warnThreshold ≤ age ∧ numSeconds maxLifetimeChrono = 0 then
        .error (.panic "attempt to divide by zero")
      else .ok none
  | _, _, _ => .ok none

/-- The usage limit and the warning at nine tenths of it. -/
def usageVerdict (policy : KeyPolicy) (key : KeyMetadata) : Option PolicyVerdict :=
  match policy.maxUsageCount with
  | none => none
  | some maxCount =>
      if maxCount ≤ key.usageCount then some (.usageLimitExceeded key.usageCount maxCount)
      else if Float64.nineTenths.scaleU64 maxCount ≤ key.usageCount then
        some (.warning s!"usage {key.usageCount}/{maxCount} ({key.usageCount * 100 % 2 ^ 64 / maxCount}%)")
      else none

/-- The first age trigger that fires or warns. -/
def ageVerdict (triggers : List RotationTrigger) (age : Int) : PolicyVerdict :=
  match triggers with
  | [] => .compliant
  | .age maxAge :: rest =>
      if chronoFromStd maxAge ≤ age then
        .rotationNeeded s!"age {formatDuration age} exceeds max {formatStdDuration maxAge}"
      else if chronoFromStd (fromSecs (Float64.nineTenths.scaleU64 (asSecs maxAge))) ≤ age then
        .warning s!"age {formatDuration age} approaching max {formatStdDuration maxAge}"
      else ageVerdict rest age
  | _ :: rest => ageVerdict rest age

/-- `policy::evaluate`. -/
def evaluate (policy : KeyPolicy) (key : KeyMetadata) (now : Nat) : Except Abort PolicyVerdict :=
  if key.state ≠ .active then .ok .compliant
  else
    match cryptoperiodVerdict policy key now with
    | .error why => .error why
    | .ok (some verdict) => .ok verdict
    | .ok none =>
        match usageVerdict policy key with
        | some verdict => .ok verdict
        | none =>
            match key.activatedAt with
            | none => .ok .compliant
            | some activated => .ok (ageVerdict policy.rotationTriggers ((now : Int) - activated))

/-- A verdict that lets an encryption through keeps the usage below the limit. -/
theorem usageCount_lt_of_evaluate {policy : KeyPolicy} {key : KeyMetadata} {now limit : Nat}
    {verdict : PolicyVerdict} (active : key.state = .active)
    (limited : policy.maxUsageCount = some limit)
    (evaluated : evaluate policy key now = .ok verdict) (allowed : verdict.isExpired = false)
    (within : ∀ count max, verdict ≠ .usageLimitExceeded count max) :
    key.usageCount < limit := by
  by_contra reached
  have exceeded : usageVerdict policy key = some (.usageLimitExceeded key.usageCount limit) := by
    simp only [usageVerdict, limited]
    exact if_pos (Nat.not_lt.mp reached)
  rw [evaluate, if_neg (by simp [active]), exceeded] at evaluated
  split at evaluated
  · cases evaluated
  · rename_i found period
    cases evaluated
    -- the cryptoperiod check can only return the verdict `expired`
    unfold cryptoperiodVerdict at period
    split at period
    · simp only at period
      split at period
      · cases period
        cases allowed
      · split at period <;> cases period
    · cases period
  · cases evaluated
    exact within _ _ rfl

theorem isExpired_usageVerdict {policy : KeyPolicy} {key : KeyMetadata} {verdict : PolicyVerdict}
    (found : usageVerdict policy key = some verdict) : verdict.isExpired = false := by
  unfold usageVerdict at found
  split at found
  · cases found
  · split at found
    · cases found
      rfl
    · split at found
      · cases found
        rfl
      · cases found

theorem isExpired_ageVerdict (triggers : List RotationTrigger) (age : Int) :
    (ageVerdict triggers age).isExpired = false := by
  induction triggers with
  | nil => rfl
  | cons trigger rest ih =>
      cases trigger with
      | age limit =>
          unfold ageVerdict
          split
          · rfl
          · split
            · rfl
            · exact ih
      | usageCount limit => exact ih
      | externalSignal signal => exact ih
      | parentRotated => exact ih

/-- Whether a key is expired does not depend on how often it was used. -/
theorem isExpired_evaluate_congr {policy : KeyPolicy} {key other : KeyMetadata} {now : Nat}
    {verdict : PolicyVerdict} (evaluated : evaluate policy key now = .ok verdict)
    (allowed : verdict.isExpired = false) (sameState : other.state = key.state)
    (sameActivation : other.activatedAt = key.activatedAt) :
    ∃ found, evaluate policy other now = .ok found ∧ found.isExpired = false := by
  have samePeriod : cryptoperiodVerdict policy other now = cryptoperiodVerdict policy key now := by
    simp only [cryptoperiodVerdict, sameActivation]
  unfold evaluate at evaluated ⊢
  rw [sameState, samePeriod, sameActivation]
  split at evaluated
  · rename_i inactive
    rw [if_pos inactive]
    exact ⟨_, rfl, rfl⟩
  · rename_i active
    rw [if_neg active]
    split at evaluated
    · cases evaluated
    · rename_i found period
      cases evaluated
      exact ⟨_, rfl, allowed⟩
    · rename_i period
      cases used : usageVerdict policy other with
      | some found => exact ⟨found, rfl, isExpired_usageVerdict used⟩
      | none =>
          cases key.activatedAt with
          | none => exact ⟨_, rfl, rfl⟩
          | some activated => exact ⟨_, rfl, isExpired_ageVerdict _ _⟩

/-- `ThreatLevel`. -/
inductive ThreatLevel where
  | low
  | guarded
  | elevated
  | high
  | critical
  deriving DecidableEq, Repr

/-- The numeric value of a level. -/
def ThreatLevel.value : ThreatLevel → Nat
  | .low => 1
  | .guarded => 2
  | .elevated => 3
  | .high => 4
  | .critical => 5

/-- `ThreatLevel::label`. -/
def ThreatLevel.label : ThreatLevel → String
  | .low => "LOW"
  | .guarded => "GUARDED"
  | .elevated => "ELEVATED"
  | .high => "HIGH"
  | .critical => "CRITICAL"

def floorRotationAge : Nat := fromSecs 86400
def floorGracePeriod : Nat := fromSecs 43200
def floorMaxLifetime : Nat := fromSecs (30 * 86400)
def floorUsageCount : Nat := 100

/-- `ScalingFactors`. -/
structure ScalingFactors where
  age : Float64
  grace : Float64
  lifetime : Float64
  usage : Float64

/-- `PolicyAdapter::scaling_factor`. -/
def scalingFactor : ThreatLevel → ScalingFactors
  | .low => ⟨.one, .one, .one, .one⟩
  | .guarded => ⟨.threeQuarters, .fourFifths, .fourFifths, .fourFifths⟩
  | .elevated => ⟨.half, .half, .threeFifths, .threeFifths⟩
  | .high => ⟨.threeTenths, .threeTenths, .twoFifths, .twoFifths⟩
  | .critical => ⟨.oneFifth, .oneTenth, .quarter, .quarter⟩

/-- A duration scaled in whole seconds, not below the floor and not above itself. -/
def scaleDuration (factor : Float64) (floor base : Nat) : Nat :=
  min (max (fromSecs (factor.scaleU64 (asSecs base))) floor) base

/-- `PolicyAdapter::adapt`. -/
def adapt (base : KeyPolicy) (level : ThreatLevel) : KeyPolicy :=
  let factor := scalingFactor level
  { base with
    rotationTriggers := base.rotationTriggers.map fun
      | .age limit => .age (scaleDuration factor.age floorRotationAge limit)
      | other => other
    rotationGracePeriod := scaleDuration factor.grace floorGracePeriod base.rotationGracePeriod
    maxLifetime := base.maxLifetime.map (scaleDuration factor.lifetime floorMaxLifetime)
    maxUsageCount := base.maxUsageCount.map fun count =>
      min (max (factor.usage.scaleU64 count) floorUsageCount) count
    autoRotate := if ThreatLevel.value .elevated ≤ level.value then true else base.autoRotate
    name := s!"{base.name} [threat:{level.label}]" }

/-- Adaptation never raises a usage limit. -/
theorem adapt_maxUsageCount {base : KeyPolicy} {level : ThreatLevel} {limit : Nat}
    (limited : base.maxUsageCount = some limit) :
    ∃ adapted, (adapt base level).maxUsageCount = some adapted ∧ adapted ≤ limit := by
  have scaled : (adapt base level).maxUsageCount =
      some (min (max ((scalingFactor level).usage.scaleU64 limit) floorUsageCount) limit) := by
    simp only [adapt, limited, Option.map_some]
  exact ⟨_, scaled, Nat.min_le_right _ _⟩

end Citadel
