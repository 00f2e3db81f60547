import Citadel.Keystore.Encryption

/-!
# What blocks an encryption

An evaluation of a policy looks at the cryptoperiod, then at the usage limit, then at the
age triggers in their order, and the first of them that has something to say decides. A
limit says something before it is reached: from nine tenths of it on it warns. So a warning
can speak before a limit that is reached.
-/

namespace Citadel

/-- `needs_rotation`. -/
def PolicyVerdict.needsRotation : PolicyVerdict → Bool
  | .rotationNeeded _ => true
  | .usageLimitExceeded _ _ => true
  | _ => false

/-- The age of a key that was activated. -/
def KeyMetadata.ageAt (key : KeyMetadata) (now : Nat) : Option Int :=
  key.activatedAt.map fun activated : Nat => (now : Int) - activated

/-- The age from which an age trigger warns. -/
def ageWarning (limit : Nat) : Nat :=
  chronoFromStd (fromSecs (Float64.nineTenths.scaleU64 (asSecs limit)))

section Limits

variable (policy : KeyPolicy) (key : KeyMetadata) (now : Nat)

/-- The cryptoperiod is enforced and over. -/
def LifetimeReached : Prop :=
  policy.enforceCryptoperiod = true ∧ ∃ age lifetime, key.ageAt now = some age ∧
    policy.maxLifetime = some lifetime ∧ (chronoFromStd lifetime : Int) ≤ age

/-- The usage limit is reached. -/
def UsageReached : Prop :=
  ∃ limit, policy.maxUsageCount = some limit ∧ limit ≤ key.usageCount

/-- The usage limit is not reached, but nine tenths of it are. -/
def UsageNear : Prop :=
  ∃ limit, policy.maxUsageCount = some limit ∧ key.usageCount < limit ∧
    Float64.nineTenths.scaleU64 limit ≤ key.usageCount

/-- An age trigger is reached. The code measures with durations of `chrono`, which end at
some 292 million years. -/
def AgeReached : Prop :=
  ∃ age limit, key.ageAt now = some age ∧ .age limit ∈ policy.rotationTriggers ∧
    (chronoFromStd limit : Int) ≤ age

/-- An age trigger that warns comes before every one that is reached. -/
def WarnsFirst (triggers : List RotationTrigger) (age : Int) : Prop :=
  ∃ before limit after, triggers = before ++ .age limit :: after ∧
    (∀ earlier, .age earlier ∈ before → age < chronoFromStd earlier) ∧
    age < chronoFromStd limit ∧ (ageWarning limit : Int) ≤ age

/-- The evaluation divides by a lifetime of no whole second, for its log. -/
def LogDivides : Prop :=
  policy.enforceCryptoperiod = true ∧ ∃ age lifetime, key.ageAt now = some age ∧
    policy.maxLifetime = some lifetime ∧ lifetime < second ∧ 0 ≤ age ∧ age < lifetime

/-- A warning comes before the age triggers that are reached. -/
def Masked : Prop :=
  UsageNear policy key ∨
    ∃ age, key.ageAt now = some age ∧ WarnsFirst policy.rotationTriggers age

end Limits

section Triggers

variable {triggers : List RotationTrigger} {age : Int}

theorem warnsFirst_nil : ¬ WarnsFirst [] age := by
  rintro ⟨before, limit, after, split, -⟩
  simp at split

/-- A trigger of another kind neither warns nor is reached. -/
theorem warnsFirst_cons_other {trigger : RotationTrigger}
    (other : ∀ limit, trigger ≠ .age limit) :
    WarnsFirst (trigger :: triggers) age ↔ WarnsFirst triggers age := by
  constructor
  · rintro ⟨before, limit, after, split, earlier, pending, near⟩
    cases before with
    | nil =>
        cases split
        exact absurd rfl (other limit)
    | cons first rest =>
        cases split
        exact ⟨rest, limit, after, rfl, fun limit member => earlier limit (.tail _ member), pending,
          near⟩
  · rintro ⟨before, limit, after, rfl, earlier, pending, near⟩
    refine ⟨trigger :: before, limit, after, rfl, ?_, pending, near⟩
    intro earlierLimit member
    rcases List.mem_cons.mp member with same | inside
    · exact absurd same.symm (other earlierLimit)
    · exact earlier earlierLimit inside

/-- The first age trigger warns, or it is not reached and a later one warns first. -/
theorem warnsFirst_cons_age {limit : Nat} :
    WarnsFirst (.age limit :: triggers) age ↔
      age < chronoFromStd limit ∧ ((ageWarning limit : Int) ≤ age ∨ WarnsFirst triggers age) := by
  constructor
  · rintro ⟨before, found, after, split, earlier, pending, near⟩
    cases before with
    | nil =>
        cases split
        exact ⟨pending, .inl near⟩
    | cons first rest =>
        cases split
        refine ⟨earlier limit List.mem_cons_self, .inr ⟨rest, found, after, rfl, ?_, pending, near⟩⟩
        exact fun limit member => earlier limit (.tail _ member)
  · rintro ⟨pending, near | ⟨before, found, after, rfl, earlier, below, near⟩⟩
    · exact ⟨[], limit, triggers, rfl, by simp, pending, near⟩
    · refine ⟨.age limit :: before, found, after, rfl, ?_, below, near⟩
      intro earlierLimit member
      rcases List.mem_cons.mp member with same | inside
      · cases same
        exact pending
      · exact earlier earlierLimit inside

/-- What the age triggers say. -/
inductive AgeSays (triggers : List RotationTrigger) (age : Int) : PolicyVerdict → Prop where
  | rotate {reason : String} (unmasked : ¬ WarnsFirst triggers age)
      (reached : ∃ limit, .age limit ∈ triggers ∧ (chronoFromStd limit : Int) ≤ age) :
      AgeSays triggers age (.rotationNeeded reason)
  | warn {reason : String} (warns : WarnsFirst triggers age) : AgeSays triggers age (.warning reason)
  | silent (unmasked : ¬ WarnsFirst triggers age)
      (pending : ∀ limit, .age limit ∈ triggers → age < chronoFromStd limit) :
      AgeSays triggers age .compliant

/-- A trigger of another kind changes nothing. -/
theorem AgeSays.cons_other {trigger : RotationTrigger} {verdict : PolicyVerdict}
    (other : ∀ limit, trigger ≠ .age limit) (spoken : AgeSays triggers age verdict) :
    AgeSays (trigger :: triggers) age verdict := by
  cases spoken with
  | rotate unmasked reached =>
      obtain ⟨limit, member, reached⟩ := reached
      exact .rotate ((warnsFirst_cons_other other).not.mpr unmasked) ⟨limit, .tail _ member, reached⟩
  | warn warns => exact .warn ((warnsFirst_cons_other other).mpr warns)
  | silent unmasked pending =>
      refine .silent ((warnsFirst_cons_other other).not.mpr unmasked) ?_
      intro limit member
      rcases List.mem_cons.mp member with same | inside
      · exact absurd same.symm (other limit)
      · exact pending limit inside

theorem ageVerdict_says (triggers : List RotationTrigger) (age : Int) :
    AgeSays triggers age (ageVerdict triggers age) := by
  induction triggers with
  | nil => exact .silent warnsFirst_nil (by simp)
  | cons trigger rest ih =>
      cases trigger with
      | age limit =>
          rw [ageVerdict]
          split
          · rename_i reached
            refine .rotate ?_ ⟨limit, List.mem_cons_self, reached⟩
            rw [warnsFirst_cons_age]
            omega
          · rename_i pending
            have below : age < chronoFromStd limit := by omega
            split
            · rename_i near
              exact .warn (warnsFirst_cons_age.mpr ⟨below, .inl near⟩)
            · rename_i far
              have quiet : ¬ (ageWarning limit : Int) ≤ age := far
              generalize ageVerdict rest age = verdict at ih
              cases ih with
              | rotate unmasked reached =>
                  obtain ⟨found, member, reached⟩ := reached
                  refine .rotate ?_ ⟨found, .tail _ member, reached⟩
                  simp [warnsFirst_cons_age, quiet, unmasked]
              | warn warns => exact .warn (warnsFirst_cons_age.mpr ⟨below, .inr warns⟩)
              | silent unmasked pending =>
                  refine .silent ?_ ?_
                  · simp [warnsFirst_cons_age, quiet, unmasked]
                  · intro found member
                    rcases List.mem_cons.mp member with same | inside
                    · cases same
                      exact below
                    · exact pending found inside
      | usageCount limit => exact ih.cons_other nofun
      | externalSignal signal => exact ih.cons_other nofun
      | parentRotated => exact ih.cons_other nofun

end Triggers

section Evaluation

variable {policy : KeyPolicy} {key : KeyMetadata} {now : Nat}

/-- What the cryptoperiod says. -/
inductive PeriodSays (policy : KeyPolicy) (key : KeyMetadata) (now : Nat) :
    Except Abort (Option PolicyVerdict) → Prop where
  | ended {ageDays : Int} {limitDays : Nat} (reached : LifetimeReached policy key now) :
      PeriodSays policy key now (.ok (some (.expired ageDays limitDays)))
  | divides {why : Abort} (unreached : ¬ LifetimeReached policy key now)
      (divides : LogDivides policy key now) : PeriodSays policy key now (.error why)
  | silent (unreached : ¬ LifetimeReached policy key now) (defined : ¬ LogDivides policy key now) :
      PeriodSays policy key now (.ok none)

/-- The log divides by zero exactly for lifetimes below one second. -/
theorem numSeconds_eq_zero (lifetime : Nat) :
    numSeconds (chronoFromStd lifetime) = 0 ↔ lifetime < second := by
  have whole : numSeconds (chronoFromStd lifetime) = ((chronoFromStd lifetime / second : Nat) : Int) :=
    Int.ofNat_tdiv _ _ |>.symm
  have large : second ≤ chronoMax := by decide
  rw [whole, Int.natCast_eq_zero, Nat.div_eq_zero_iff_lt (by decide), chronoFromStd]
  omega

/-- A lifetime of no whole second is logged from the start. -/
theorem logThreshold_of_short {lifetime : Nat} (short : lifetime < second) :
    chronoFromStd (fromSecs (Float64.fourFifths.scaleU64 (asSecs lifetime))) = 0 := by
  rw [asSecs, Nat.div_eq_of_lt short]
  decide

theorem chronoFromStd_of_short {lifetime : Nat} (short : lifetime < second) :
    chronoFromStd lifetime = lifetime := by
  have large : second ≤ chronoMax := by decide
  rw [chronoFromStd]
  omega

/-- Without an enforced lifetime the cryptoperiod says nothing. -/
theorem PeriodSays.none (free : policy.enforceCryptoperiod = false ∨ policy.maxLifetime = none ∨
    key.ageAt now = none) : PeriodSays policy key now (.ok none) := by
  apply silent
  · rintro ⟨enforced, age, lifetime, aged, limited, -⟩
    rcases free with off | off | off
    · exact absurd (off.symm.trans enforced) (by simp)
    · exact absurd (off.symm.trans limited) (by simp)
    · exact absurd (off.symm.trans aged) (by simp)
  · rintro ⟨enforced, age, lifetime, aged, limited, -⟩
    rcases free with off | off | off
    · exact absurd (off.symm.trans enforced) (by simp)
    · exact absurd (off.symm.trans limited) (by simp)
    · exact absurd (off.symm.trans aged) (by simp)

theorem cryptoperiodVerdict_says (policy : KeyPolicy) (key : KeyMetadata) (now : Nat) :
    PeriodSays policy key now (cryptoperiodVerdict policy key now) := by
  unfold cryptoperiodVerdict
  split
  · rename_i lifetime activated enforced limited active
    have aged : key.ageAt now = some ((now : Int) - activated) := by
      rw [KeyMetadata.ageAt, active, Option.map_some]
    have reached_iff : LifetimeReached policy key now ↔
        (chronoFromStd lifetime : Int) ≤ (now : Int) - activated := by
      constructor
      · rintro ⟨-, age, found, same, limit, reached⟩
        cases aged.symm.trans same
        cases limited.symm.trans limit
        exact reached
      · intro reached
        exact ⟨enforced, _, lifetime, aged, limited, reached⟩
    simp only
    split
    · rename_i reached
      exact .ended (reached_iff.mpr reached)
    · rename_i unreached
      have pending : ¬ LifetimeReached policy key now := mt reached_iff.mp unreached
      split
      · rename_i divides
        obtain ⟨near, zero⟩ := divides
        have short := (numSeconds_eq_zero lifetime).mp zero
        refine .divides pending ⟨enforced, _, lifetime, aged, limited, short, ?_, ?_⟩
        · rw [logThreshold_of_short short] at near
          exact near
        · rw [chronoFromStd_of_short short] at unreached
          exact not_le.mp unreached
      · rename_i whole
        refine .silent pending ?_
        rintro ⟨-, age, found, same, limit, short, old, young⟩
        cases aged.symm.trans same
        cases limited.symm.trans limit
        refine whole ⟨?_, (numSeconds_eq_zero lifetime).mpr short⟩
        rw [logThreshold_of_short short]
        exact old
  · rename_i free
    apply PeriodSays.none
    cases enforced : policy.enforceCryptoperiod with
    | false => exact .inl rfl
    | true =>
        cases limited : policy.maxLifetime with
        | none => exact .inr (.inl rfl)
        | some lifetime =>
            cases active : key.activatedAt with
            | none => exact .inr (.inr (by simp [KeyMetadata.ageAt, active]))
            | some activated => exact absurd active (free lifetime activated enforced limited)

/-- The usage limit and its warning. -/
inductive UsageSays (policy : KeyPolicy) (key : KeyMetadata) : Option PolicyVerdict → Prop where
  | ended {count limit : Nat} (reached : UsageReached policy key) :
      UsageSays policy key (some (.usageLimitExceeded count limit))
  | near {reason : String} (unreached : ¬ UsageReached policy key) (near : UsageNear policy key) :
      UsageSays policy key (some (.warning reason))
  | silent (unreached : ¬ UsageReached policy key) (far : ¬ UsageNear policy key) :
      UsageSays policy key none

theorem usageVerdict_says (policy : KeyPolicy) (key : KeyMetadata) :
    UsageSays policy key (usageVerdict policy key) := by
  unfold usageVerdict
  split
  · rename_i unlimited
    refine .silent ?_ ?_
    · rintro ⟨limit, limited, -⟩
      cases unlimited.symm.trans limited
    · rintro ⟨limit, limited, -⟩
      cases unlimited.symm.trans limited
  · rename_i limit limited
    have reached_iff : UsageReached policy key ↔ limit ≤ key.usageCount := by
      constructor
      · rintro ⟨found, same, reached⟩
        cases limited.symm.trans same
        exact reached
      · intro reached
        exact ⟨limit, limited, reached⟩
    have near_iff : UsageNear policy key ↔ key.usageCount < limit ∧
        Float64.nineTenths.scaleU64 limit ≤ key.usageCount := by
      constructor
      · rintro ⟨found, same, near⟩
        cases limited.symm.trans same
        exact near
      · intro near
        exact ⟨limit, limited, near⟩
    split
    · rename_i reached
      exact .ended (reached_iff.mpr reached)
    · rename_i unreached
      split
      · rename_i near
        exact .near (mt reached_iff.mp unreached) (near_iff.mpr ⟨Nat.not_le.mp unreached, near⟩)
      · rename_i far
        exact .silent (mt reached_iff.mp unreached) fun near => far (near_iff.mp near).2

/-- What an evaluation of an active key says. -/
inductive Evaluated (policy : KeyPolicy) (key : KeyMetadata) (now : Nat) :
    Except Abort PolicyVerdict → Prop where
  | expired {ageDays : Int} {limitDays : Nat} (reached : LifetimeReached policy key now) :
      Evaluated policy key now (.ok (.expired ageDays limitDays))
  | divides {why : Abort} (unreached : ¬ LifetimeReached policy key now)
      (divides : LogDivides policy key now) : Evaluated policy key now (.error why)
  | exceeded {count limit : Nat} (unreached : ¬ LifetimeReached policy key now)
      (defined : ¬ LogDivides policy key now) (reached : UsageReached policy key) :
      Evaluated policy key now (.ok (.usageLimitExceeded count limit))
  | rotate {reason : String} (unreached : ¬ LifetimeReached policy key now)
      (defined : ¬ LogDivides policy key now) (unused : ¬ UsageReached policy key)
      (unmasked : ¬ Masked policy key now) (reached : AgeReached policy key now) :
      Evaluated policy key now (.ok (.rotationNeeded reason))
  | warn {reason : String} (unreached : ¬ LifetimeReached policy key now)
      (defined : ¬ LogDivides policy key now) (unused : ¬ UsageReached policy key)
      (masked : Masked policy key now) : Evaluated policy key now (.ok (.warning reason))
  | compliant (unreached : ¬ LifetimeReached policy key now)
      (defined : ¬ LogDivides policy key now) (unused : ¬ UsageReached policy key)
      (unmasked : ¬ Masked policy key now) (young : ¬ AgeReached policy key now) :
      Evaluated policy key now (.ok .compliant)

theorem evaluate_evaluated (active : key.state = .active) :
    Evaluated policy key now (evaluate policy key now) := by
  have period := cryptoperiodVerdict_says policy key now
  have usage := usageVerdict_says policy key
  rw [evaluate, if_neg (not_not.mpr active)]
  generalize cryptoperiodVerdict policy key now = said at period
  cases period with
  | ended reached => exact .expired reached
  | divides unreached divides => exact .divides unreached divides
  | silent unreached defined =>
      generalize usageVerdict policy key = found at usage
      cases usage with
      | ended reached => exact .exceeded unreached defined reached
      | near unused near => exact .warn unreached defined unused (.inl near)
      | silent unused far =>
          simp only
          split
          · rename_i inactive
            have ageless : key.ageAt now = none := by rw [KeyMetadata.ageAt, inactive, Option.map_none]
            refine .compliant unreached defined unused ?_ ?_
            · rintro (near | ⟨age, aged, -⟩)
              · exact far near
              · cases ageless.symm.trans aged
            · rintro ⟨age, limit, aged, -⟩
              cases ageless.symm.trans aged
          · rename_i activated activation
            have aged : key.ageAt now = some ((now : Int) - activated) := by
              rw [KeyMetadata.ageAt, activation, Option.map_some]
            have masked_iff : Masked policy key now ↔
                WarnsFirst policy.rotationTriggers ((now : Int) - activated) := by
              constructor
              · rintro (near | ⟨age, same, warns⟩)
                · exact absurd near far
                · cases aged.symm.trans same
                  exact warns
              · intro warns
                exact .inr ⟨_, aged, warns⟩
            have said := ageVerdict_says policy.rotationTriggers ((now : Int) - activated)
            generalize ageVerdict policy.rotationTriggers ((now : Int) - activated) = verdict at said
            cases said with
            | rotate unmasked reached =>
                obtain ⟨limit, member, reached⟩ := reached
                exact .rotate unreached defined unused (mt masked_iff.mp unmasked)
                  ⟨_, limit, aged, member, reached⟩
            | warn warns => exact .warn unreached defined unused (masked_iff.mpr warns)
            | silent unmasked pending =>
                refine .compliant unreached defined unused (mt masked_iff.mp unmasked) ?_
                rintro ⟨age, limit, same, member, reached⟩
                cases aged.symm.trans same
                exact absurd (pending limit member) (not_lt.mpr reached)

/-- The verdict of an evaluation blocks encryption. -/
def BlocksEncryption (outcome : Except Abort PolicyVerdict) : Prop :=
  ∃ verdict, outcome = .ok verdict ∧ (encryptionBlock verdict).isSome = true

/-- The verdict of an evaluation needs a rotation. -/
def NeedsRotation (outcome : Except Abort PolicyVerdict) : Prop :=
  ∃ verdict, outcome = .ok verdict ∧ verdict.needsRotation = true

/-- An encryption under an active key is blocked by what is reached, unless a warning comes
first. -/
theorem blocksEncryption_iff (active : key.state = .active) :
    BlocksEncryption (evaluate policy key now) ↔
      LifetimeReached policy key now ∨ ¬ LogDivides policy key now ∧
        (UsageReached policy key ∨ AgeReached policy key now ∧ ¬ Masked policy key now) := by
  have evaluated : Evaluated policy key now (evaluate policy key now) := evaluate_evaluated active
  generalize evaluate policy key now = outcome at evaluated
  cases evaluated <;> simp_all [BlocksEncryption, encryptionBlock]

theorem needsRotation_iff (active : key.state = .active) :
    NeedsRotation (evaluate policy key now) ↔
      ¬ LifetimeReached policy key now ∧ ¬ LogDivides policy key now ∧
        (UsageReached policy key ∨ AgeReached policy key now ∧ ¬ Masked policy key now) := by
  have evaluated : Evaluated policy key now (evaluate policy key now) := evaluate_evaluated active
  generalize evaluate policy key now = outcome at evaluated
  cases evaluated <;> simp_all [NeedsRotation, PolicyVerdict.needsRotation]

/-- A key warns exactly if a warning comes before everything that is reached. -/
theorem warning_iff (active : key.state = .active) :
    (∃ reason, evaluate policy key now = .ok (.warning reason)) ↔
      ¬ LifetimeReached policy key now ∧ ¬ LogDivides policy key now ∧
        ¬ UsageReached policy key ∧ Masked policy key now := by
  have evaluated : Evaluated policy key now (evaluate policy key now) := evaluate_evaluated active
  generalize evaluate policy key now = outcome at evaluated
  cases evaluated <;> simp_all

end Evaluation

/-- A limit is reached and does not block: the log divides by zero, or a warning comes first. -/
def Unenforced (policy : KeyPolicy) (key : KeyMetadata) (now : Nat) : Prop :=
  ¬ LifetimeReached policy key now ∧ (UsageReached policy key ∨ AgeReached policy key now) ∧
    (LogDivides policy key now ∨ ¬ UsageReached policy key ∧ Masked policy key now)

/-- The usage limit and the age triggers of a policy block encryption once they are reached,
and a key only warns before that, exactly if none of them is passed over. -/
theorem limits_enforced_iff (policy : KeyPolicy) (key : KeyMetadata) (now : Nat)
    (active : key.state = .active) :
    ((AgeReached policy key now ∨ UsageReached policy key →
        BlocksEncryption (evaluate policy key now)) ∧
      ∀ reason, evaluate policy key now = .ok (.warning reason) →
        ¬ AgeReached policy key now ∧ ¬ UsageReached policy key ∧ ¬ LifetimeReached policy key now) ↔
      ¬ Unenforced policy key now := by
  rw [blocksEncryption_iff active, Unenforced]
  constructor
  · rintro ⟨blocks, -⟩ ⟨unreached, reached, why⟩
    rcases blocks reached.symm with ended | ⟨defined, usage | ⟨age, unmasked⟩⟩
    · exact unreached ended
    · rcases why with divides | ⟨unused, -⟩
      · exact defined divides
      · exact unused usage
    · rcases why with divides | ⟨-, masked⟩
      · exact defined divides
      · exact unmasked masked
  · intro enforced
    constructor
    · intro reached
      by_contra unblocked
      push Not at unblocked
      obtain ⟨unreached, passed⟩ := unblocked
      apply enforced
      refine ⟨unreached, reached.symm, ?_⟩
      by_cases divides : LogDivides policy key now
      · exact .inl divides
      · obtain ⟨unused, masked⟩ := passed divides
        exact .inr ⟨unused, masked (reached.resolve_right unused)⟩
    · intro reason warned
      obtain ⟨unreached, -, unused, masked⟩ := (warning_iff active).mp ⟨reason, warned⟩
      refine ⟨?_, unused, unreached⟩
      intro age
      exact enforced ⟨unreached, .inr age, .inr ⟨unused, masked⟩⟩

/-- A policy that rotates after 100 days, and after 30 days. -/
def twoAges : KeyPolicy where
  id := ⟨"two-ages"⟩
  name := "two ages"
  appliesTo := [.dataEncrypting]
  rotationTriggers := [.age (fromSecs (100 * 86400)), .age (fromSecs (30 * 86400))]
  rotationGracePeriod := 0
  maxLifetime := none
  maxUsageCount := none
  autoRotate := false
  minVersionsRetained := 1
  enforceCryptoperiod := false

/-- A data key in use since the time 0. -/
def keyInUse (usageCount : Nat) : KeyMetadata :=
  { Keystore.newRecord ⟨"key"⟩ "orders" .dataEncrypting none none 0
      (Keystore.firstVersion 0 "" ⟨.plaintext "", none, none⟩) with
    state := .active
    activatedAt := some 0
    usageCount := usageCount }

/-- After 95 days. -/
def day95 : Nat := fromSecs (95 * 86400)

theorem twoAges_masked : Masked twoAges (keyInUse 0) day95 :=
  .inr ⟨day95, by decide, [], fromSecs (100 * 86400), [.age (fromSecs (30 * 86400))], rfl, by simp,
    by decide, by decide +kernel⟩

theorem twoAges_reached : AgeReached twoAges (keyInUse 0) day95 :=
  ⟨day95, fromSecs (30 * 86400), by decide, by decide, by decide⟩

theorem twoAges_unreached : ¬ LifetimeReached twoAges (keyInUse 0) day95 := by
  rintro ⟨enforced, -⟩
  cases enforced

theorem twoAges_defined : ¬ LogDivides twoAges (keyInUse 0) day95 := by
  rintro ⟨enforced, -⟩
  cases enforced

theorem twoAges_unused : ¬ UsageReached twoAges (keyInUse 0) := by
  rintro ⟨limit, limited, -⟩
  cases limited

/-- The trigger of 30 days is reached, the one of 100 days warns. -/
theorem reached_age_only_warns :
    (keyInUse 0).state = .active ∧ AgeReached twoAges (keyInUse 0) day95 ∧
      ∃ reason, evaluate twoAges (keyInUse 0) day95 = .ok (.warning reason) :=
  ⟨rfl, twoAges_reached, (warning_iff rfl).mpr
    ⟨twoAges_unreached, twoAges_defined, twoAges_unused, twoAges_masked⟩⟩

/-- At the same moment the exact condition fails. -/
theorem twoAges_not_enforced :
    ¬ ((AgeReached twoAges (keyInUse 0) day95 ∨ UsageReached twoAges (keyInUse 0) →
        BlocksEncryption (evaluate twoAges (keyInUse 0) day95)) ∧
      ∀ reason, evaluate twoAges (keyInUse 0) day95 = .ok (.warning reason) →
        ¬ AgeReached twoAges (keyInUse 0) day95 ∧ ¬ UsageReached twoAges (keyInUse 0) ∧
          ¬ LifetimeReached twoAges (keyInUse 0) day95) := by
  rw [limits_enforced_iff twoAges (keyInUse 0) day95 rfl, not_not]
  exact ⟨twoAges_unreached, .inr twoAges_reached, .inr ⟨twoAges_unused, twoAges_masked⟩⟩

/-- A policy, adapted to a threat level if one is given. -/
def policyAt (base : KeyPolicy) : Option ThreatLevel → KeyPolicy
  | none => base
  | some level => adapt base level

/-- A usage trigger is reached. -/
def UsageTriggerReached (policy : KeyPolicy) (key : KeyMetadata) : Prop :=
  ∃ limit, .usageCount limit ∈ policy.rotationTriggers ∧ limit ≤ key.usageCount

/-- Something other than a usage trigger makes a key need rotation. -/
def RotatesOtherwise (policy : KeyPolicy) (key : KeyMetadata) (now : Nat) : Prop :=
  ¬ LifetimeReached policy key now ∧ ¬ LogDivides policy key now ∧
    (UsageReached policy key ∨ AgeReached policy key now ∧ ¬ Masked policy key now)

/-- The usage triggers that a policy declares are enforced for a key exactly if none of them is
reached, or something else makes the key need rotation. -/
theorem usage_trigger_enforced_iff (base : KeyPolicy) (level : Option ThreatLevel)
    (key : KeyMetadata) (now : Nat) (active : key.state = .active) :
    (∀ limit, .usageCount limit ∈ base.rotationTriggers → limit ≤ key.usageCount →
        NeedsRotation (evaluate (policyAt base level) key now)) ↔
      ¬ UsageTriggerReached base key ∨ RotatesOtherwise (policyAt base level) key now := by
  rw [needsRotation_iff active]
  constructor
  · intro enforced
    by_cases reached : UsageTriggerReached base key
    · obtain ⟨limit, declared, used⟩ := reached
      exact .inr (enforced limit declared used)
    · exact .inl reached
  · rintro (unreached | otherwise) limit declared used
    · exact absurd ⟨limit, declared, used⟩ unreached
    · exact otherwise

/-- A policy that rotates after ten uses. -/
def tenUses : KeyPolicy := { twoAges with rotationTriggers := [.usageCount 10] }

/-- After a thousand uses the key is compliant. -/
theorem usage_trigger_ignored :
    (keyInUse 1000).state = .active ∧ .usageCount 10 ∈ tenUses.rotationTriggers ∧
      10 ≤ (keyInUse 1000).usageCount ∧ evaluate tenUses (keyInUse 1000) 0 = .ok .compliant :=
  ⟨rfl, by decide, by decide, by decide⟩

/-- A policy that rotates after ten uses and after twenty, and is limited to a hundred. -/
def limitedUses : KeyPolicy :=
  { tenUses with
    rotationTriggers := [.usageCount 10, .usageCount 20]
    maxUsageCount := some 100 }

/-- With that limit the key, which has reached both triggers, needs rotation, also when the
threat is high. -/
theorem usage_limit_rotates :
    10 ≤ (keyInUse 1000).usageCount ∧ 20 ≤ (keyInUse 1000).usageCount ∧
      NeedsRotation (evaluate (policyAt limitedUses (some .high)) (keyInUse 1000) 0) := by
  have otherwise : RotatesOtherwise (policyAt limitedUses (some .high)) (keyInUse 1000) 0 := by
    refine ⟨?_, ?_, .inl ⟨_, rfl, by decide +kernel⟩⟩
    · rintro ⟨enforced, -⟩
      cases enforced
    · rintro ⟨enforced, -⟩
      cases enforced
  have enforced := (usage_trigger_enforced_iff limitedUses (some .high) (keyInUse 1000) 0 rfl).mpr
    (.inr otherwise)
  exact ⟨by decide, by decide, enforced 10 (.head _) (by decide)⟩

end Citadel
