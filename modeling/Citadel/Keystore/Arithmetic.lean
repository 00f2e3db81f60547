import Citadel.Data.Checked
import Citadel.Keystore.Verdicts

/-!
# The arithmetic of an evaluation

The evaluation of a policy with every operation on integers checked. What is computed for a log or
a reason counts as much as what decides: the percentage of a lifetime divides by its whole seconds,
and that of a usage multiplies the counter by a hundred.
-/

namespace Citadel

/-- What lies between two moments of `chrono`, whose years end before 262143 on both sides. -/
structure Elapsed where
  nanos : Int
  inRange : nanos.natAbs ≤ 524286 * 366 * 86400 * second
  deriving DecidableEq, Repr

/-- `format_std_duration`. -/
def checkedFormatStdDuration (duration : Nat) : Except ArithmeticFault String := do
  let days ← divU64 (asSecs duration) 86400
  if 0 < days then .ok s!"{days}d"
  else do
    let hours ← divU64 (asSecs duration) 3600
    .ok s!"{hours}h"

/-- The hard stop of an enforced cryptoperiod, with the two percentages of its log line. -/
def checkedPeriod (policy : KeyPolicy) (age : Option Elapsed) :
    Except ArithmeticFault (Option PolicyVerdict) :=
  match policy.enforceCryptoperiod, policy.maxLifetime, age with
  | true, some maxLifetime, some age =>
      let maxLifetimeChrono := chronoFromStd maxLifetime
      let warnThreshold :=
        chronoFromStd (fromSecs (Float64.fourFifths.scaleU64 (asSecs maxLifetime)))
      if maxLifetimeChrono ≤ age.nanos then do
        let limitDays ← divU64 (asSecs maxLifetime) 86400
        .ok (some (.expired (numDays age.nanos) limitDays))
      else if warnThreshold ≤ age.nanos then do
        let scaled ← mulI64 (numSeconds age.nanos) 100
        let _ ← divI64 scaled (numSeconds maxLifetimeChrono)
        let _ ← divU64 (asSecs maxLifetime) 86400
        .ok none
      else .ok none
  | _, _, _ => .ok none

/-- The usage limit, with the percentage of its warning. -/
def checkedUsage (policy : KeyPolicy) (key : KeyMetadata) :
    Except ArithmeticFault (Option PolicyVerdict) :=
  match policy.maxUsageCount with
  | none => .ok none
  | some maxCount =>
      if maxCount ≤ key.usageCount then .ok (some (.usageLimitExceeded key.usageCount maxCount))
      else if Float64.nineTenths.scaleU64 maxCount ≤ key.usageCount then do
        let scaled ← mulU64 key.usageCount 100
        let percent ← divU64 scaled maxCount
        .ok (some (.warning s!"usage {key.usageCount}/{maxCount} ({percent}%)"))
      else .ok none

/-- The age triggers, with the durations of their reasons. -/
def checkedAge (triggers : List RotationTrigger) (age : Elapsed) :
    Except ArithmeticFault PolicyVerdict :=
  match triggers with
  | [] => .ok .compliant
  | .age maxAge :: rest =>
      if chronoFromStd maxAge ≤ age.nanos then do
        let limit ← checkedFormatStdDuration maxAge
        .ok (.rotationNeeded s!"age {formatDuration age.nanos} exceeds max {limit}")
      else if chronoFromStd (fromSecs (Float64.nineTenths.scaleU64 (asSecs maxAge))) ≤ age.nanos then do
        let limit ← checkedFormatStdDuration maxAge
        .ok (.warning s!"age {formatDuration age.nanos} approaching max {limit}")
      else checkedAge rest age
  | _ :: rest => checkedAge rest age

/-- `policy::evaluate` at the age that a key has. -/
def checkedEvaluate (policy : KeyPolicy) (key : KeyMetadata) (age : Option Elapsed) :
    Except ArithmeticFault PolicyVerdict :=
  if key.state ≠ .active then .ok .compliant
  else do
    let period ← checkedPeriod policy age
    match period with
    | some verdict => .ok verdict
    | none => do
        let usage ← checkedUsage policy key
        match usage with
        | some verdict => .ok verdict
        | none =>
            match age with
            | none => .ok .compliant
            | some age => checkedAge policy.rotationTriggers age

/-! ### What can go wrong -/

section Faults

variable (policy : KeyPolicy) (key : KeyMetadata) (age : Option Elapsed)

/-- The lifetime is enforced and over. -/
def LifetimeOver : Prop :=
  policy.enforceCryptoperiod = true ∧ ∃ elapsed lifetime, age = some elapsed ∧
    policy.maxLifetime = some lifetime ∧ (chronoFromStd lifetime : Int) ≤ elapsed.nanos

/-- The key is within an enforced lifetime of no whole second. -/
def WithinSecond : Prop :=
  policy.enforceCryptoperiod = true ∧ ∃ elapsed lifetime, age = some elapsed ∧
    policy.maxLifetime = some lifetime ∧ lifetime < second ∧ 0 ≤ elapsed.nanos ∧
    elapsed.nanos < lifetime

/-- The usage is near its limit, and a hundred times the usage is no 64-bit number. -/
def CountsTooFar : Prop :=
  ∃ limit, policy.maxUsageCount = some limit ∧ key.usageCount < limit ∧
    Float64.nineTenths.scaleU64 limit ≤ key.usageCount ∧ 2 ^ 64 ≤ key.usageCount * 100

end Faults

variable {policy : KeyPolicy} {key : KeyMetadata} {age : Option Elapsed}

theorem checkedFormatStdDuration_eq (duration : Nat) :
    checkedFormatStdDuration duration = .ok (formatStdDuration duration) := by
  have days : divU64 (asSecs duration) 86400 = .ok (asSecs duration / 86400) :=
    divU64_eq_ok (by decide)
  have hours : divU64 (asSecs duration) 3600 = .ok (asSecs duration / 3600) :=
    divU64_eq_ok (by decide)
  simp only [checkedFormatStdDuration, days, hours, formatStdDuration, bind, Except.bind]
  split <;> rfl

/-- Nothing goes wrong among the age triggers. -/
theorem checkedAge_eq (triggers : List RotationTrigger) (age : Elapsed) :
    checkedAge triggers age = .ok (ageVerdict triggers age.nanos) := by
  induction triggers with
  | nil => rfl
  | cons trigger rest ih =>
      cases trigger with
      | age limit =>
          simp only [checkedAge, ageVerdict, checkedFormatStdDuration_eq, ih, bind, Except.bind]
          split
          · rfl
          · split <;> rfl
      | usageCount limit => exact ih
      | externalSignal signal => exact ih
      | parentRotated => exact ih

/-- The seconds of an age fit a hundred times. -/
theorem Elapsed.percent_fits (age : Elapsed) : FitsI64 (numSeconds age.nanos * 100) := by
  have bound := age.inRange
  have size : (numSeconds age.nanos).natAbs ≤ 524286 * 366 * 86400 := by
    rw [numSeconds, Int.natAbs_tdiv]
    exact Nat.div_le_of_le_mul (by rw [Nat.mul_comm]; exact bound)
  unfold FitsI64
  omega

/-- The percentage of the lifetime goes wrong exactly for a lifetime of no whole second. -/
theorem checkedPeriod_eq (policy : KeyPolicy) (age : Option Elapsed) :
    (WithinSecond policy age ∧ checkedPeriod policy age = .error .divisionByZero) ∨
      (LifetimeOver policy age ∧ ∃ verdict, checkedPeriod policy age = .ok (some verdict)) ∨
      (¬ WithinSecond policy age ∧ ¬ LifetimeOver policy age ∧
        checkedPeriod policy age = .ok none) := by
  unfold checkedPeriod
  split
  · rename_i lifetime elapsed enforced limited
    have over_iff : LifetimeOver policy (some elapsed) ↔
        (chronoFromStd lifetime : Int) ≤ elapsed.nanos := by
      constructor
      · rintro ⟨-, found, limit, same, limit_eq, reached⟩
        cases same
        cases limited.symm.trans limit_eq
        exact reached
      · intro reached
        exact ⟨enforced, elapsed, lifetime, rfl, limited, reached⟩
    have within_iff : WithinSecond policy (some elapsed) ↔
        lifetime < second ∧ 0 ≤ elapsed.nanos ∧ elapsed.nanos < lifetime := by
      constructor
      · rintro ⟨-, found, limit, same, limit_eq, within⟩
        cases same
        cases limited.symm.trans limit_eq
        exact within
      · intro within
        exact ⟨enforced, elapsed, lifetime, rfl, limited, within⟩
    simp only
    split
    · rename_i reached
      rw [divU64_eq_ok (by decide)]
      exact .inr (.inl ⟨over_iff.mpr reached, _, rfl⟩)
    · rename_i unreached
      have pending := mt over_iff.mp unreached
      split
      · rename_i near
        rw [mulI64_eq_ok elapsed.percent_fits]
        by_cases short : lifetime < second
        · rw [logThreshold_of_short short] at near
          rw [chronoFromStd_of_short short] at unreached
          have zero : numSeconds (chronoFromStd lifetime) = 0 :=
            (numSeconds_eq_zero lifetime).mpr short
          refine .inl ⟨within_iff.mpr ⟨short, near, not_le.mp unreached⟩, ?_⟩
          rw [zero]
          rfl
        · have positive : 0 < numSeconds (chronoFromStd lifetime) := by
            have nonzero := mt (numSeconds_eq_zero lifetime).mp short
            have nonneg : 0 ≤ numSeconds (chronoFromStd lifetime) :=
              Int.tdiv_nonneg (Int.natCast_nonneg _) (Int.natCast_nonneg _)
            omega
          have old : 0 ≤ elapsed.nanos := (Int.natCast_nonneg _).trans near
          have percent : 0 ≤ numSeconds elapsed.nanos * 100 := by
            have whole : 0 ≤ numSeconds elapsed.nanos :=
              Int.tdiv_nonneg old (Int.natCast_nonneg _)
            omega
          refine .inr (.inr ⟨fun within => short (within_iff.mp within).1, pending, ?_⟩)
          simp only [bind, Except.bind, divI64_eq_ok elapsed.percent_fits percent positive]
          rw [divU64_eq_ok (by decide)]
      · rename_i far
        refine .inr (.inr ⟨?_, pending, rfl⟩)
        rw [within_iff]
        rintro ⟨short, old, young⟩
        rw [logThreshold_of_short short] at far
        exact far old
  · rename_i free
    refine .inr (.inr ⟨?_, ?_, rfl⟩)
    · rintro ⟨enforced, elapsed, lifetime, aged, limited, -⟩
      exact free lifetime elapsed enforced limited aged
    · rintro ⟨enforced, elapsed, lifetime, aged, limited, -⟩
      exact free lifetime elapsed enforced limited aged

/-- The percentage of a usage goes wrong exactly for counters beyond a hundredth of their type. -/
theorem checkedUsage_eq (policy : KeyPolicy) (key : KeyMetadata) :
    (CountsTooFar policy key ∧ checkedUsage policy key = .error .overflow) ∨
      (¬ CountsTooFar policy key ∧ checkedUsage policy key = .ok (usageVerdict policy key)) := by
  cases limited : policy.maxUsageCount with
  | none =>
      have unlimited : ¬ CountsTooFar policy key := by
        rintro ⟨limit, found, -⟩
        cases limited.symm.trans found
      refine .inr ⟨unlimited, ?_⟩
      simp only [checkedUsage, usageVerdict, limited]
  | some limit =>
      have far_iff : CountsTooFar policy key ↔ key.usageCount < limit ∧
          Float64.nineTenths.scaleU64 limit ≤ key.usageCount ∧ 2 ^ 64 ≤ key.usageCount * 100 := by
        constructor
        · rintro ⟨found, same, far⟩
          cases limited.symm.trans same
          exact far
        · intro far
          exact ⟨limit, limited, far⟩
      rw [far_iff]
      simp only [checkedUsage, usageVerdict, limited]
      by_cases reached : limit ≤ key.usageCount
      · rw [if_pos reached, if_pos reached]
        exact .inr ⟨fun far => absurd far.1 (Nat.not_lt.mpr reached), rfl⟩
      · rw [if_neg reached, if_neg reached]
        have below : key.usageCount < limit := Nat.lt_of_not_le reached
        by_cases near : Float64.nineTenths.scaleU64 limit ≤ key.usageCount
        · rw [if_pos near, if_pos near]
          by_cases large : 2 ^ 64 ≤ key.usageCount * 100
          · refine .inl ⟨⟨below, near, large⟩, ?_⟩
            rw [mulU64, if_neg (Nat.not_lt.mpr large)]
            rfl
          · have small : key.usageCount * 100 < 2 ^ 64 := Nat.lt_of_not_le large
            have positive : 0 < limit := Nat.lt_of_le_of_lt (Nat.zero_le _) below
            refine .inr ⟨fun far => large far.2.2, ?_⟩
            rw [mulU64, if_pos small, Nat.mod_eq_of_lt small]
            simp only [bind, Except.bind, divU64_eq_ok positive]
        · rw [if_neg near, if_neg near]
          exact .inr ⟨fun counts => near counts.2.1, rfl⟩

/-- A lifetime that is over is not the lifetime of no whole second that the key is within. -/
theorem not_withinSecond_of_over (passed : LifetimeOver policy age) : ¬ WithinSecond policy age := by
  obtain ⟨-, elapsed, lifetime, aged, limited, reached⟩ := passed
  rintro ⟨-, elapsed', lifetime', aged', limited', short, -, young⟩
  cases aged.symm.trans aged'
  cases limited.symm.trans limited'
  rw [chronoFromStd_of_short short] at reached
  exact absurd young (Int.not_lt.mpr reached)

/-- No operation of an evaluation fails exactly if the key is not active, or its lifetime is over, or
neither percentage goes wrong. -/
theorem evaluate_faultless_iff (policy : KeyPolicy) (key : KeyMetadata) (age : Option Elapsed) :
    (∀ fault, checkedEvaluate policy key age ≠ .error fault) ↔
      key.state ≠ .active ∨ LifetimeOver policy age ∨
        (¬ WithinSecond policy age ∧ ¬ CountsTooFar policy key) := by
  by_cases inactive : key.state ≠ .active
  · unfold checkedEvaluate
    rw [if_pos inactive]
    simp [inactive]
  · unfold checkedEvaluate
    rw [if_neg inactive]
    rcases checkedPeriod_eq policy age with ⟨within, failed⟩ | ⟨passed, verdict, ended⟩ |
      ⟨whole, pending, silent⟩
    · have young : ¬ LifetimeOver policy age := fun passed => not_withinSecond_of_over passed within
      simp [failed, bind, Except.bind, inactive, young, within]
    · simp [ended, bind, Except.bind, passed]
    · rcases checkedUsage_eq policy key with ⟨far, failed⟩ | ⟨near, answered⟩
      · simp [silent, failed, bind, Except.bind, inactive, pending, far]
      · rw [silent, answered]
        constructor
        · intro _
          exact .inr (.inr ⟨whole, near⟩)
        · intro _ fault
          simp only [bind, Except.bind]
          cases usageVerdict policy key with
          | some verdict => exact nofun
          | none =>
              cases age with
              | none => exact nofun
              | some elapsed =>
                  simp only [checkedAge_eq]
                  exact nofun

/-- What the checked cryptoperiod says is what the cryptoperiod says. -/
theorem cryptoperiodVerdict_of_checked {now : Nat} {verdict : Option PolicyVerdict}
    (aged : age.map Elapsed.nanos = key.ageAt now)
    (checked : checkedPeriod policy age = .ok verdict) :
    cryptoperiodVerdict policy key now = .ok verdict := by
  cases enforced : policy.enforceCryptoperiod with
  | false =>
      simp only [checkedPeriod, enforced] at checked
      simp only [cryptoperiodVerdict, enforced, Except.ok.inj checked]
  | true =>
      cases limited : policy.maxLifetime with
      | none =>
          simp only [checkedPeriod, enforced, limited] at checked
          simp only [cryptoperiodVerdict, enforced, limited, Except.ok.inj checked]
      | some lifetime =>
          cases active : key.activatedAt with
          | none =>
              have unaged : age = none := by
                simpa [KeyMetadata.ageAt, active] using aged
              simp only [checkedPeriod, enforced, limited, unaged] at checked
              simp only [cryptoperiodVerdict, enforced, limited, active, Except.ok.inj checked]
          | some activated =>
              have elapsed : ∃ elapsed, age = some elapsed ∧
                  elapsed.nanos = (now : Int) - activated := by
                simpa [KeyMetadata.ageAt, active] using aged
              obtain ⟨elapsed, rfl, nanos⟩ := elapsed
              simp only [checkedPeriod, enforced, limited, nanos] at checked
              simp only [cryptoperiodVerdict, enforced, limited, active]
              split at checked
              · rename_i reached
                rw [if_pos reached]
                rw [divU64_eq_ok (by decide)] at checked
                rw [← Except.ok.inj checked]
              · rename_i unreached
                rw [if_neg unreached]
                split at checked
                · obtain ⟨scaled, -, checked⟩ := Except.of_bind_eq_ok checked
                  obtain ⟨percent, divided, checked⟩ := Except.of_bind_eq_ok checked
                  obtain ⟨days, -, checked⟩ := Except.of_bind_eq_ok checked
                  have whole : numSeconds (chronoFromStd lifetime) ≠ 0 := by
                    intro zero
                    rw [zero, divI64_zero] at divided
                    cases divided
                  rw [if_neg fun near => whole near.2, Except.ok.inj checked]
                · rename_i far
                  rw [if_neg fun near => far near.1, Except.ok.inj checked]

/-- An evaluation without a fault has the verdict of `evaluate`. -/
theorem evaluate_of_checked {now : Nat} {verdict : PolicyVerdict}
    (aged : age.map Elapsed.nanos = key.ageAt now)
    (checked : checkedEvaluate policy key age = .ok verdict) :
    evaluate policy key now = .ok verdict := by
  unfold checkedEvaluate at checked
  rw [evaluate]
  split at checked
  · rename_i inactive
    rw [if_pos inactive, ← Except.ok.inj checked]
  · rename_i active
    rw [if_neg active]
    obtain ⟨period, evaluated, checked⟩ := Except.of_bind_eq_ok checked
    rw [cryptoperiodVerdict_of_checked aged evaluated]
    cases period with
    | some found => rw [← Except.ok.inj checked]
    | none =>
        obtain ⟨usage, counted, checked⟩ := Except.of_bind_eq_ok checked
        rcases checkedUsage_eq policy key with ⟨-, failed⟩ | ⟨-, answered⟩
        · cases failed.symm.trans counted
        · rw [Except.ok.inj (answered.symm.trans counted)]
          cases usage with
          | some found => rw [← Except.ok.inj checked]
          | none =>
              cases active : key.activatedAt with
              | none =>
                  have unaged : age = none := by
                    simpa [KeyMetadata.ageAt, active] using aged
                  rw [unaged] at checked
                  rw [← Except.ok.inj checked]
              | some activated =>
                  have elapsed : ∃ elapsed, age = some elapsed ∧
                      elapsed.nanos = (now : Int) - activated := by
                    simpa [KeyMetadata.ageAt, active] using aged
                  obtain ⟨elapsed, rfl, nanos⟩ := elapsed
                  have said : checkedAge policy.rotationTriggers elapsed = .ok verdict := checked
                  rw [checkedAge_eq, nanos] at said
                  rw [← Except.ok.inj said]

/-! ### Two failing evaluations -/

/-- An enforced lifetime of half a second. -/
def halfSecond : KeyPolicy :=
  { twoAges with rotationTriggers := [], maxLifetime := some (second / 2), enforceCryptoperiod := true }

/-- The largest usage limit. -/
def largestLimit : KeyPolicy :=
  { twoAges with rotationTriggers := [], maxUsageCount := some (2 ^ 64 - 1) }

/-- A quarter of a second. -/
def quarterSecond : Elapsed := ⟨second / 4, by decide⟩

/-- A key in use within its half second divides by zero, and one that was used almost as often as
can be counted overflows. -/
theorem evaluate_faults :
    checkedEvaluate halfSecond (keyInUse 0) (some quarterSecond) = .error .divisionByZero ∧
      checkedEvaluate largestLimit (keyInUse (2 ^ 64 - 2)) (some quarterSecond) =
        .error .overflow := by
  decide +kernel

end Citadel
