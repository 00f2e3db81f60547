import Citadel.Keystore.Verdicts
import Mathlib.Algebra.Order.Floor.Semiring
import Mathlib.Data.Rat.Floor
import Mathlib.Tactic.NormNum

/-!
# Adapted limits

A threat level scales the age triggers, the grace period, the lifetime and the usage limit
of a policy, each by a factor of its own and not below a floor of its own. Here the factors
are exact. Every limit then only gets shorter as the level rises; the verdicts do not follow
the limits, since a shorter limit can warn where a longer one was silent.
-/

namespace Citadel

/-! ### Scaling -/

/-- What each kind of limit is scaled to: in whole seconds, and in uses. -/
structure Scaling where
  age : Nat → Nat
  grace : Nat → Nat
  lifetime : Nat → Nat
  usage : Nat → Nat

/-- A duration scaled in whole seconds, not below the floor and not above itself. -/
def scaleSeconds (scale : Nat → Nat) (floor base : Nat) : Nat :=
  min (max (fromSecs (scale (asSecs base))) floor) base

/-- `PolicyAdapter::adapt`, with the scaling left open. -/
def adaptBy (scaling : Scaling) (base : KeyPolicy) (level : ThreatLevel) : KeyPolicy :=
  { base with
    rotationTriggers := base.rotationTriggers.map fun
      | .age limit => .age (scaleSeconds scaling.age floorRotationAge limit)
      | other => other
    rotationGracePeriod := scaleSeconds scaling.grace floorGracePeriod base.rotationGracePeriod
    maxLifetime := base.maxLifetime.map (scaleSeconds scaling.lifetime floorMaxLifetime)
    maxUsageCount := base.maxUsageCount.map fun count =>
      min (max (scaling.usage count) floorUsageCount) count
    autoRotate := if ThreatLevel.value .elevated ≤ level.value then true else base.autoRotate
    name := s!"{base.name} [threat:{level.label}]" }

/-- The scaling of the code, in doubles. -/
def doubleScaling (level : ThreatLevel) : Scaling where
  age := (scalingFactor level).age.scaleU64
  grace := (scalingFactor level).grace.scaleU64
  lifetime := (scalingFactor level).lifetime.scaleU64
  usage := (scalingFactor level).usage.scaleU64

theorem adapt_eq_adaptBy (base : KeyPolicy) (level : ThreatLevel) :
    adapt base level = adaptBy (doubleScaling level) base level := rfl

/-- The factors of a level. -/
structure ExactFactors where
  age : Rat
  grace : Rat
  lifetime : Rat
  usage : Rat

/-- `PolicyAdapter::scaling_factor`, as exact numbers. -/
def exactFactors : ThreatLevel → ExactFactors
  | .low => ⟨1, 1, 1, 1⟩
  | .guarded => ⟨75 / 100, 8 / 10, 8 / 10, 8 / 10⟩
  | .elevated => ⟨5 / 10, 5 / 10, 6 / 10, 6 / 10⟩
  | .high => ⟨3 / 10, 3 / 10, 4 / 10, 4 / 10⟩
  | .critical => ⟨2 / 10, 1 / 10, 25 / 100, 25 / 100⟩

/-- A count scaled by an exact factor, cut to a whole number. -/
def scaleExactly (factor : Rat) (count : Nat) : Nat := ⌊(count : Rat) * factor⌋₊

/-- The scaling of a level with exact factors. -/
def exactScaling (level : ThreatLevel) : Scaling where
  age := scaleExactly (exactFactors level).age
  grace := scaleExactly (exactFactors level).grace
  lifetime := scaleExactly (exactFactors level).lifetime
  usage := scaleExactly (exactFactors level).usage

/-- The policy adapted with exact factors. -/
def adaptExact (base : KeyPolicy) (level : ThreatLevel) : KeyPolicy :=
  adaptBy (exactScaling level) base level

/-! ### Comparing limits -/

/-- Two triggers of one kind whose ages are related. -/
inductive TriggerRelated (ages : Nat → Nat → Prop) : RotationTrigger → RotationTrigger → Prop where
  | age {tight loose : Nat} (related : ages tight loose) :
      TriggerRelated ages (.age tight) (.age loose)
  | usageCount (limit : Nat) : TriggerRelated ages (.usageCount limit) (.usageCount limit)
  | externalSignal (signal : String) :
      TriggerRelated ages (.externalSignal signal) (.externalSignal signal)
  | parentRotated : TriggerRelated ages .parentRotated .parentRotated

/-- Two policies that agree but for their names and their automatic rotation, and whose
limits are related one by one. -/
structure LimitsRelated (ages graces lifetimes usages : Nat → Nat → Prop)
    (tight loose : KeyPolicy) : Prop where
  id : tight.id = loose.id
  appliesTo : tight.appliesTo = loose.appliesTo
  triggers : List.Forall₂ (TriggerRelated ages) tight.rotationTriggers loose.rotationTriggers
  grace : graces tight.rotationGracePeriod loose.rotationGracePeriod
  lifetime : Option.Rel lifetimes tight.maxLifetime loose.maxLifetime
  usage : Option.Rel usages tight.maxUsageCount loose.maxUsageCount
  minVersionsRetained : tight.minVersionsRetained = loose.minVersionsRetained
  enforceCryptoperiod : tight.enforceCryptoperiod = loose.enforceCryptoperiod

/-- The limits of the first policy are not larger. -/
abbrev NotLooser : KeyPolicy → KeyPolicy → Prop :=
  LimitsRelated (· ≤ ·) (· ≤ ·) (· ≤ ·) (· ≤ ·)

/-- A limit lies between the floor, or the base where that is smaller, and the base. -/
def WithinFloor (floor adapted base : Nat) : Prop := min floor base ≤ adapted ∧ adapted ≤ base

/-- A limit of whole seconds is unchanged. -/
def KeepsWholeSeconds (adapted base : Nat) : Prop := second ∣ base → adapted = base

section Related

variable {ages graces lifetimes usages : Nat → Nat → Prop}

/-- A scaled option is related to the option it comes from. -/
theorem optionRel_map {related : Nat → Nat → Prop} {scale : Nat → Nat}
    (each : ∀ limit, related (scale limit) limit) (found : Option Nat) :
    Option.Rel related (found.map scale) found := by
  cases found with
  | none => exact .none
  | some limit => exact .some (each limit)

/-- Two scalings of one option are related. -/
theorem optionRel_map_map {related : Nat → Nat → Prop} {first second : Nat → Nat}
    (each : ∀ limit, related (first limit) (second limit)) (found : Option Nat) :
    Option.Rel related (found.map first) (found.map second) := by
  cases found with
  | none => exact .none
  | some limit => exact .some (each limit)

/-- An adapted policy is related to its base as its limits are. -/
theorem adaptBy_related_base {scaling : Scaling}
    (age : ∀ limit, ages (scaleSeconds scaling.age floorRotationAge limit) limit)
    (grace : ∀ limit, graces (scaleSeconds scaling.grace floorGracePeriod limit) limit)
    (lifetime : ∀ limit, lifetimes (scaleSeconds scaling.lifetime floorMaxLifetime limit) limit)
    (usage : ∀ limit, usages (min (max (scaling.usage limit) floorUsageCount) limit) limit)
    (base : KeyPolicy) (level : ThreatLevel) :
    LimitsRelated ages graces lifetimes usages (adaptBy scaling base level) base where
  id := rfl
  appliesTo := rfl
  triggers := by
    rw [adaptBy, List.forall₂_map_left_iff, List.forall₂_same]
    intro trigger member
    cases trigger with
    | age limit => exact .age (age limit)
    | usageCount limit => exact .usageCount limit
    | externalSignal signal => exact .externalSignal signal
    | parentRotated => exact .parentRotated
  grace := grace base.rotationGracePeriod
  lifetime := optionRel_map lifetime base.maxLifetime
  usage := optionRel_map usage base.maxUsageCount
  minVersionsRetained := rfl
  enforceCryptoperiod := rfl

/-- Two adaptations of one policy are related as their limits are. -/
theorem adaptBy_related {first second : Scaling}
    (age : ∀ limit, ages (scaleSeconds first.age floorRotationAge limit)
      (scaleSeconds second.age floorRotationAge limit))
    (grace : ∀ limit, graces (scaleSeconds first.grace floorGracePeriod limit)
      (scaleSeconds second.grace floorGracePeriod limit))
    (lifetime : ∀ limit, lifetimes (scaleSeconds first.lifetime floorMaxLifetime limit)
      (scaleSeconds second.lifetime floorMaxLifetime limit))
    (usage : ∀ limit, usages (min (max (first.usage limit) floorUsageCount) limit)
      (min (max (second.usage limit) floorUsageCount) limit))
    (base : KeyPolicy) (level other : ThreatLevel) :
    LimitsRelated ages graces lifetimes usages (adaptBy first base level)
      (adaptBy second base other) where
  id := rfl
  appliesTo := rfl
  triggers := by
    rw [adaptBy, adaptBy, List.forall₂_map_left_iff, List.forall₂_map_right_iff, List.forall₂_same]
    intro trigger member
    cases trigger with
    | age limit => exact .age (age limit)
    | usageCount limit => exact .usageCount limit
    | externalSignal signal => exact .externalSignal signal
    | parentRotated => exact .parentRotated
  grace := grace base.rotationGracePeriod
  lifetime := optionRel_map_map lifetime base.maxLifetime
  usage := optionRel_map_map usage base.maxUsageCount
  minVersionsRetained := rfl
  enforceCryptoperiod := rfl

end Related

/-! ### Adapted limits -/

/-- A scaled duration stays above the floor, or above itself, and never grows. -/
theorem scaleSeconds_withinFloor (scale : Nat → Nat) (floor base : Nat) :
    WithinFloor floor (scaleSeconds scale floor base) base := by
  unfold WithinFloor scaleSeconds
  omega

/-- A smaller scaling gives a smaller duration. -/
theorem scaleSeconds_le {tight loose : Nat → Nat} (smaller : ∀ count, tight count ≤ loose count)
    (floor base : Nat) : scaleSeconds tight floor base ≤ scaleSeconds loose floor base := by
  have seconds : fromSecs (tight (asSecs base)) ≤ fromSecs (loose (asSecs base)) :=
    Nat.mul_le_mul_right second (smaller _)
  unfold scaleSeconds
  omega

theorem scaleExactly_one (count : Nat) : scaleExactly 1 count = count := by
  rw [scaleExactly, mul_one, Nat.floor_natCast]

/-- A smaller factor scales to a smaller count. -/
theorem scaleExactly_le {tight loose : Rat} (smaller : tight ≤ loose) (count : Nat) :
    scaleExactly tight count ≤ scaleExactly loose count := by
  apply Nat.floor_le_floor
  exact mul_le_mul_of_nonneg_left smaller (Nat.cast_nonneg count)

/-- A factor of one keeps whole seconds. -/
theorem scaleSeconds_one (floor : Nat) (base : Nat) :
    KeepsWholeSeconds (scaleSeconds (scaleExactly 1) floor base) base := by
  intro whole
  have kept : fromSecs (asSecs base) = base := Nat.div_mul_cancel whole
  rw [scaleSeconds, scaleExactly_one, kept]
  omega

/-- Every factor falls as the level rises. -/
theorem exactFactors_le {a b : ThreatLevel} (rises : a.value ≤ b.value) :
    (exactFactors b).age ≤ (exactFactors a).age ∧ (exactFactors b).grace ≤ (exactFactors a).grace ∧
      (exactFactors b).lifetime ≤ (exactFactors a).lifetime ∧
      (exactFactors b).usage ≤ (exactFactors a).usage := by
  cases a <;> cases b <;> first
    | exact absurd rises (by decide)
    | (simp only [exactFactors]; norm_num)

/-- The limits at a higher level are not larger. -/
theorem adaptExact_notLooser (base : KeyPolicy) {a b : ThreatLevel} (rises : a.value ≤ b.value) :
    NotLooser (adaptExact base b) (adaptExact base a) := by
  obtain ⟨age, grace, lifetime, usage⟩ := exactFactors_le rises
  apply adaptBy_related
  · exact fun limit => scaleSeconds_le (scaleExactly_le age) _ limit
  · exact fun limit => scaleSeconds_le (scaleExactly_le grace) _ limit
  · exact fun limit => scaleSeconds_le (scaleExactly_le lifetime) _ limit
  · intro limit
    have scaled : (exactScaling b).usage limit ≤ (exactScaling a).usage limit :=
      scaleExactly_le usage limit
    omega

/-- Every adapted limit lies between its floor and its base. -/
theorem adaptBy_withinFloor (scaling : Scaling) (base : KeyPolicy) (level : ThreatLevel) :
    LimitsRelated (WithinFloor floorRotationAge) (WithinFloor floorGracePeriod)
      (WithinFloor floorMaxLifetime) (WithinFloor floorUsageCount)
      (adaptBy scaling base level) base := by
  apply adaptBy_related_base
  · exact scaleSeconds_withinFloor _ _
  · exact scaleSeconds_withinFloor _ _
  · exact scaleSeconds_withinFloor _ _
  · intro limit
    unfold WithinFloor
    omega

/-- The lowest level keeps limits of whole seconds, and counts. -/
theorem adaptExact_low (base : KeyPolicy) :
    LimitsRelated KeepsWholeSeconds KeepsWholeSeconds KeepsWholeSeconds Eq
      (adaptExact base .low) base := by
  apply adaptBy_related_base
  · exact scaleSeconds_one _
  · exact scaleSeconds_one _
  · exact scaleSeconds_one _
  · intro limit
    have kept : (exactScaling .low).usage limit = limit := scaleExactly_one limit
    omega

/-- Adaptation keeps every limit between its floor and its base, shortens it as the level
rises, changes nothing else but the name and the automatic rotation, and at the lowest level
leaves limits of whole seconds as they are. -/
theorem adapted_limits (base : KeyPolicy) (a b : ThreatLevel) (rises : a.value ≤ b.value) :
    (∀ level, LimitsRelated (WithinFloor floorRotationAge) (WithinFloor floorGracePeriod)
      (WithinFloor floorMaxLifetime) (WithinFloor floorUsageCount) (adaptExact base level) base) ∧
    NotLooser (adaptExact base b) (adaptExact base a) ∧
    LimitsRelated KeepsWholeSeconds KeepsWholeSeconds KeepsWholeSeconds Eq
      (adaptExact base .low) base :=
  ⟨fun level => adaptBy_withinFloor _ base level, adaptExact_notLooser base rises,
    adaptExact_low base⟩

theorem adapted_limits_guarded :
    NotLooser (adaptExact twoAges .guarded) (adaptExact twoAges .low) :=
  (adapted_limits twoAges .low .guarded (by decide)).2.1

/-! ### What a rising level blocks -/

/-- The verdict of an evaluation blocks decryption. -/
def BlocksDecryption (outcome : Except Abort PolicyVerdict) : Prop :=
  ∃ verdict, outcome = .ok verdict ∧ verdict.isExpired = true

section Escalation

variable {tight loose : KeyPolicy} {key : KeyMetadata} {now : Nat}

/-- A decryption under an active key is blocked by the end of the cryptoperiod. -/
theorem blocksDecryption_iff (active : key.state = .active) {policy : KeyPolicy} :
    BlocksDecryption (evaluate policy key now) ↔ LifetimeReached policy key now := by
  have evaluated : Evaluated policy key now (evaluate policy key now) := evaluate_evaluated active
  generalize evaluate policy key now = outcome at evaluated
  cases evaluated <;> simp_all [BlocksDecryption, PolicyVerdict.isExpired]

/-- A key that is not active is not evaluated. -/
theorem evaluate_of_inactive {policy : KeyPolicy} (inactive : key.state ≠ .active) :
    evaluate policy key now = .ok .compliant := by
  rw [evaluate, if_pos inactive]

theorem chronoFromStd_mono {short long : Nat} (le : short ≤ long) :
    (chronoFromStd short : Int) ≤ chronoFromStd long := by
  unfold chronoFromStd
  omega

theorem LifetimeReached.tighten (notLooser : NotLooser tight loose)
    (reached : LifetimeReached loose key now) : LifetimeReached tight key now := by
  obtain ⟨enforced, age, lifetime, aged, limited, reached⟩ := reached
  have limits := notLooser.lifetime
  rw [limited] at limits
  generalize given : tight.maxLifetime = found at limits
  cases limits with
  | @some shorter _ le =>
      refine ⟨notLooser.enforceCryptoperiod.trans enforced, age, shorter, aged, given, ?_⟩
      exact le_trans (chronoFromStd_mono le) reached

theorem UsageReached.tighten (notLooser : NotLooser tight loose)
    (reached : UsageReached loose key) : UsageReached tight key := by
  obtain ⟨limit, limited, reached⟩ := reached
  have limits := notLooser.usage
  rw [limited] at limits
  generalize given : tight.maxUsageCount = found at limits
  cases limits with
  | @some smaller _ le => exact ⟨smaller, given, le_trans le reached⟩

/-- Every age trigger has one that is not later in the tighter list. -/
theorem exists_earlier_trigger {tight loose : List RotationTrigger} {limit : Nat}
    (related : List.Forall₂ (TriggerRelated (· ≤ ·)) tight loose) (member : .age limit ∈ loose) :
    ∃ earlier ≤ limit, .age earlier ∈ tight := by
  induction related with
  | nil => exact absurd member (by simp)
  | cons first rest ih =>
      rcases List.mem_cons.mp member with same | inside
      · cases same
        cases first with
        | @age earlier _ le => exact ⟨earlier, le, List.mem_cons_self⟩
      · obtain ⟨earlier, le, found⟩ := ih inside
        exact ⟨earlier, le, .tail _ found⟩

theorem AgeReached.tighten (notLooser : NotLooser tight loose)
    (reached : AgeReached loose key now) : AgeReached tight key now := by
  obtain ⟨age, limit, aged, member, reached⟩ := reached
  obtain ⟨earlier, le, found⟩ := exists_earlier_trigger notLooser.triggers member
  exact ⟨age, earlier, aged, found, le_trans (chronoFromStd_mono le) reached⟩

/-- Adaptation keeps a lifetime below one second, which is below the floor. -/
theorem scaleSeconds_of_short {scale : Nat → Nat} {lifetime : Nat}
    (short : lifetime < second ∨ scaleSeconds scale floorMaxLifetime lifetime < second) :
    scaleSeconds scale floorMaxLifetime lifetime = lifetime := by
  have floored : second ≤ floorMaxLifetime := by decide
  unfold scaleSeconds at short ⊢
  omega

/-- Adaptation does not change where the log divides by zero. -/
theorem logDivides_adaptBy (scaling : Scaling) (base : KeyPolicy) (level : ThreatLevel) :
    LogDivides (adaptBy scaling base level) key now ↔ LogDivides base key now := by
  constructor
  · rintro ⟨enforced, age, lifetime, aged, limited, short, old, young⟩
    obtain ⟨original, stored, rfl⟩ := Option.map_eq_some_iff.mp limited
    have kept : scaleSeconds scaling.lifetime floorMaxLifetime original = original :=
      scaleSeconds_of_short (.inr short)
    rw [kept] at short young
    exact ⟨enforced, age, original, aged, stored, short, old, young⟩
  · rintro ⟨enforced, age, lifetime, aged, limited, short, old, young⟩
    refine ⟨enforced, age, lifetime, aged, ?_, short, old, young⟩
    rw [adaptBy, limited, Option.map_some, scaleSeconds_of_short (.inl short)]

/-- The limits at the higher level warn of what the lower level blocks: of an age trigger
that is reached, with nothing else that blocks. -/
structure Softened (lower higher : KeyPolicy) (key : KeyMetadata) (now : Nat) : Prop where
  active : key.state = .active
  defined : ¬ LogDivides lower key now
  reached : AgeReached lower key now
  unmasked : ¬ Masked lower key now
  unexpired : ¬ LifetimeReached higher key now
  unused : ¬ UsageReached higher key
  masked : Masked higher key now

end Escalation

/-- A higher level blocks whatever a lower one blocks, exactly unless it warns of an age
trigger that the lower one enforced. -/
theorem escalation_keeps_blocks_iff (base : KeyPolicy) (key : KeyMetadata) (now : Nat)
    (a b : ThreatLevel) (rises : a.value ≤ b.value) :
    ((BlocksEncryption (evaluate (adaptExact base a) key now) →
        BlocksEncryption (evaluate (adaptExact base b) key now)) ∧
      (BlocksDecryption (evaluate (adaptExact base a) key now) →
        BlocksDecryption (evaluate (adaptExact base b) key now))) ↔
      ¬ Softened (adaptExact base a) (adaptExact base b) key now := by
  have notLooser := adaptExact_notLooser base rises
  have sameLog : LogDivides (adaptExact base b) key now ↔ LogDivides (adaptExact base a) key now :=
    (logDivides_adaptBy _ base b).trans (logDivides_adaptBy _ base a).symm
  by_cases active : key.state = .active
  · rw [blocksEncryption_iff active, blocksEncryption_iff active, blocksDecryption_iff active,
      blocksDecryption_iff active, sameLog]
    constructor
    · rintro ⟨keeps, -⟩ softened
      rcases keeps (.inr ⟨softened.defined, .inr ⟨softened.reached, softened.unmasked⟩⟩) with
        ended | ⟨-, used | ⟨-, unmasked⟩⟩
      · exact softened.unexpired ended
      · exact softened.unused used
      · exact unmasked softened.masked
    · intro kept
      refine ⟨?_, LifetimeReached.tighten notLooser⟩
      rintro (ended | ⟨defined, used | ⟨reached, unmasked⟩⟩)
      · exact .inl (ended.tighten notLooser)
      · exact .inr ⟨defined, .inl (used.tighten notLooser)⟩
      · by_contra unblocked
        push Not at unblocked
        obtain ⟨unexpired, passed⟩ := unblocked
        obtain ⟨unused, masked⟩ := passed defined
        exact kept ⟨active, defined, reached, unmasked, unexpired, unused,
          masked (reached.tighten notLooser)⟩
  · rw [evaluate_of_inactive active, evaluate_of_inactive active]
    exact ⟨fun _ softened => active softened.active, fun _ => ⟨id, id⟩⟩

/-- A policy that rotates after 30 days and allows a thousand uses. -/
def monthOrThousand : KeyPolicy :=
  { twoAges with
    rotationTriggers := [.age (fromSecs (30 * 86400))]
    maxUsageCount := some 1000 }

/-- After 31 days. -/
def day31 : Nat := fromSecs (31 * 86400)

theorem monthOrThousand_low_usage :
    (adaptExact monthOrThousand .low).maxUsageCount = some 1000 := by
  have kept : (exactScaling .low).usage 1000 = 1000 := scaleExactly_one 1000
  rw [adaptExact, adaptBy, monthOrThousand, Option.map_some, kept]
  rfl

theorem monthOrThousand_guarded_usage :
    (adaptExact monthOrThousand .guarded).maxUsageCount = some 800 := by
  have scaled : (exactScaling .guarded).usage 1000 = 800 := by
    change ⌊((1000 : Nat) : Rat) * (8 / 10)⌋₊ = 800
    rw [Nat.floor_eq_iff (by norm_num)]
    norm_num
  rw [adaptExact, adaptBy, monthOrThousand, Option.map_some, scaled]
  rfl

theorem monthOrThousand_low :
    (adaptExact monthOrThousand .low).rotationTriggers = [.age (fromSecs (30 * 86400))] := by
  have kept : scaleSeconds (scaleExactly 1) floorRotationAge (fromSecs (30 * 86400)) =
      fromSecs (30 * 86400) := scaleSeconds_one _ _ (by decide)
  exact congrArg (fun limit => [RotationTrigger.age limit]) kept

/-- At the lowest level 750 uses are far from a thousand. -/
theorem monthOrThousand_low_unmasked :
    ¬ Masked (adaptExact monthOrThousand .low) (keyInUse 750) day31 := by
  rintro (⟨limit, limited, -, near⟩ | ⟨age, aged, warns⟩)
  · cases monthOrThousand_low_usage.symm.trans limited
    exact absurd near (by decide +kernel)
  · cases aged
    rw [monthOrThousand_low, warnsFirst_cons_age] at warns
    exact absurd warns.1 (by decide)

theorem monthOrThousand_softened :
    Softened (adaptExact monthOrThousand .low) (adaptExact monthOrThousand .guarded)
      (keyInUse 750) day31 where
  active := rfl
  defined := by
    rintro ⟨enforced, -⟩
    cases enforced
  reached := by
    refine ⟨day31, fromSecs (30 * 86400), by decide, ?_, by decide⟩
    rw [monthOrThousand_low]
    exact List.mem_singleton_self _
  unmasked := monthOrThousand_low_unmasked
  unexpired := by
    rintro ⟨enforced, -⟩
    cases enforced
  unused := by
    rintro ⟨limit, limited, reached⟩
    cases monthOrThousand_guarded_usage.symm.trans limited
    exact absurd reached (by decide)
  masked := .inl ⟨800, monthOrThousand_guarded_usage, by decide, by decide +kernel⟩

/-- After 31 days and 750 uses the lowest level blocks encryption, and the next level, whose
usage limit is 800, only warns. -/
theorem rising_level_unblocks :
    BlocksEncryption (evaluate (adaptExact monthOrThousand .low) (keyInUse 750) day31) ∧
      ¬ BlocksEncryption (evaluate (adaptExact monthOrThousand .guarded) (keyInUse 750) day31) := by
  have softened := monthOrThousand_softened
  rw [blocksEncryption_iff softened.active, blocksEncryption_iff softened.active]
  constructor
  · exact .inr ⟨softened.defined, .inr ⟨softened.reached, softened.unmasked⟩⟩
  · rintro (ended | ⟨-, used | ⟨-, unmasked⟩⟩)
    · exact softened.unexpired ended
    · exact softened.unused used
    · exact unmasked softened.masked

theorem monthOrThousand_not_kept :
    ¬ ((BlocksEncryption (evaluate (adaptExact monthOrThousand .low) (keyInUse 750) day31) →
        BlocksEncryption (evaluate (adaptExact monthOrThousand .guarded) (keyInUse 750) day31)) ∧
      (BlocksDecryption (evaluate (adaptExact monthOrThousand .low) (keyInUse 750) day31) →
        BlocksDecryption (evaluate (adaptExact monthOrThousand .guarded) (keyInUse 750) day31))) := by
  rw [escalation_keeps_blocks_iff monthOrThousand (keyInUse 750) day31 .low .guarded (by decide),
    not_not]
  exact monthOrThousand_softened

end Citadel
