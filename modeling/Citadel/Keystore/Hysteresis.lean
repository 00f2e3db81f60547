import Citadel.Data.Band
import Citadel.Keystore.Escalation
import Mathlib.Algebra.Order.Field.Rat
import Mathlib.Order.Fin.Basic

/-!
# The level follows the score

The thresholds turn a score into a level, and the relaxed thresholds into one that is not below
it. Without an override the assessor keeps its level inside this band.
-/

namespace Citadel

theorem ThreatLevel.value_injective : Function.Injective ThreatLevel.value := by
  intro left right same
  cases left <;> cases right <;> first | rfl | exact absurd same (by decide)

/-- Levels are ordered as their values are. -/
instance : LinearOrder ThreatLevel :=
  LinearOrder.lift' ThreatLevel.value ThreatLevel.value_injective

theorem ThreatLevel.lt_iff {left right : ThreatLevel} : left < right ↔ left.value < right.value :=
  Iff.rfl

section Band

variable {double : DoubleArithmetic}

namespace ThreatAssessor

/-- A level is below that of the score exactly if a threshold above it is reached. -/
theorem lt_levelAt_iff {thresholds : Fin 4 → double.Value} {score : double.Value}
    {level : ThreatLevel} : level < levelAt thresholds score ↔
      ∃ step : Fin 4, level.value < step.val + 2 ∧ double.le (thresholds step) score = true := by
  have steps : (∃ step : Fin 4, level.value < step.val + 2 ∧
        double.le (thresholds step) score = true) ↔
      (level.value < 2 ∧ double.le (thresholds 0) score = true) ∨
        (level.value < 3 ∧ double.le (thresholds 1) score = true) ∨
        (level.value < 4 ∧ double.le (thresholds 2) score = true) ∨
        (level.value < 5 ∧ double.le (thresholds 3) score = true) := by
    simp [Fin.exists_fin_succ]
  have positive : 0 < level.value := by cases level <;> decide
  rw [steps, ThreatLevel.lt_iff, levelAt]
  clear steps
  -- one case for each level, with the thresholds above it missed
  split
  · grind [ThreatLevel.value]
  · split
    · grind [ThreatLevel.value]
    · split
      · grind [ThreatLevel.value]
      · split <;> grind [ThreatLevel.value]

/-- Whatever the one thresholds admit the others admit as well. -/
theorem levelAt_le {thresholds thresholds' : Fin 4 → double.Value} {score score' : double.Value}
    (reaches : ∀ step, double.le (thresholds step) score = true →
      double.le (thresholds' step) score' = true) :
    levelAt thresholds score ≤ levelAt thresholds' score' := by
  apply le_of_forall_lt
  intro level below
  obtain ⟨step, short, reached⟩ := lt_levelAt_iff.mp below
  exact lt_levelAt_iff.mpr ⟨step, short, reaches step reached⟩

end ThreatAssessor

namespace ThreatConfig

/-- The thresholds that a score has to miss before the level falls. -/
def relaxedThresholds (config : ThreatConfig double) (step : Fin 4) : double.Value :=
  double.mul (config.thresholds step) (double.sub (double.nearest 1) config.hysteresis)

/-- A score that reaches a threshold reaches the relaxed one. -/
def Banded (config : ThreatConfig double) : Prop :=
  ∀ step score, double.le (config.thresholds step) score = true →
    double.le (config.relaxedThresholds step) score = true

/-- The levels that a score leaves alone. -/
def band {config : ThreatConfig double} (banded : config.Banded) (score : double.Value) :
    Band ThreatLevel where
  low := ThreatAssessor.levelAt config.thresholds score
  high := ThreatAssessor.levelAt config.relaxedThresholds score
  ordered := ThreatAssessor.levelAt_le fun step => banded step score

end ThreatConfig

namespace ThreatAssessor

variable {threat : ThreatAssessor double}

/-- The computed level follows the band of the score. -/
theorem computedLevel_eq (threat : ThreatAssessor double) (banded : threat.config.Banded) (now : Nat) :
    threat.computedLevel now =
      (ThreatConfig.band banded (threat.computeScore now)).hold threat.currentLevel := by
  rw [Band.hold_eq]
  rfl

/-- Without an override the level follows the band of the score. -/
theorem level_recomputeLevel (threat : ThreatAssessor double) (banded : threat.config.Banded)
    (free : threat.manualOverride = none) (now : Nat) :
    (threat.recomputeLevel now).currentLevel =
      (ThreatConfig.band banded (threat.computeScore now)).hold threat.currentLevel := by
  change threat.manualOverride.getD (threat.computedLevel now) = _
  rw [free, Option.getD_none, computedLevel_eq threat banded]

/-- A recomputation at the same score changes nothing more. -/
theorem recomputeLevel_idem (banded : threat.config.Banded) (now : Nat) :
    (threat.recomputeLevel now).recomputeLevel now = threat.recomputeLevel now := by
  have same : (threat.recomputeLevel now).computedLevel now =
      (ThreatConfig.band banded (threat.computeScore now)).hold
        (threat.recomputeLevel now).currentLevel :=
    computedLevel_eq (threat.recomputeLevel now) banded now
  change ThreatAssessor.mk _ _ _ _ = ThreatAssessor.mk _ _ _ _
  congr 1
  change threat.manualOverride.getD ((threat.recomputeLevel now).computedLevel now) =
    threat.manualOverride.getD (threat.computedLevel now)
  rw [same]
  change threat.manualOverride.getD ((ThreatConfig.band banded (threat.computeScore now)).hold
    (threat.manualOverride.getD (threat.computedLevel now))) = _
  cases threat.manualOverride with
  | none =>
      change (ThreatConfig.band banded (threat.computeScore now)).hold (threat.computedLevel now) =
        threat.computedLevel now
      rw [computedLevel_eq threat banded, Band.hold_hold]
  | some level => rfl

/-- The assessor after its level was recomputed for one window of events after the other. -/
def refreshed (threat : ThreatAssessor double)
    (windows : List (List (ThreatEvent double) × Nat)) : ThreatAssessor double :=
  windows.foldl (fun threat window =>
    ({ threat with events := window.1 } : ThreatAssessor double).recomputeLevel window.2) threat

theorem config_refreshed (threat : ThreatAssessor double)
    (windows : List (List (ThreatEvent double) × Nat)) :
    (threat.refreshed windows).config = threat.config ∧
      (threat.refreshed windows).manualOverride = threat.manualOverride := by
  induction windows generalizing threat with
  | nil => exact ⟨rfl, rfl⟩
  | cons window rest ih =>
      exact ih (({ threat with events := window.1 } : ThreatAssessor double).recomputeLevel window.2)

/-- The level after one more window. -/
theorem level_refreshed_append (banded : threat.config.Banded)
    (free : threat.manualOverride = none) (windows : List (List (ThreatEvent double) × Nat))
    (events : List (ThreatEvent double)) (now : Nat) :
    (threat.refreshed (windows ++ [(events, now)])).currentLevel =
      (ThreatConfig.band banded
        (({ threat with events } : ThreatAssessor double).computeScore now)).hold
        (threat.refreshed windows).currentLevel := by
  obtain ⟨config, override⟩ := threat.config_refreshed windows
  have last : threat.refreshed (windows ++ [(events, now)]) =
      ({ threat.refreshed windows with events } : ThreatAssessor double).recomputeLevel now := by
    simp only [refreshed, List.foldl_append, List.foldl_cons, List.foldl_nil]
  have same : ({ threat.refreshed windows with events } : ThreatAssessor double) =
      { threat with events, currentLevel := (threat.refreshed windows).currentLevel } := by
    rw [ThreatAssessor.mk.injEq]
    exact ⟨config, rfl, rfl, override⟩
  rw [last, same]
  exact level_recomputeLevel { threat with
    events, currentLevel := (threat.refreshed windows).currentLevel } banded free now

end ThreatAssessor

end Band

/-! ### Exact scores -/

namespace ThreatConfig

/-- A threshold as the number it is. -/
def threshold (config : ThreatConfig exactArithmetic) (step : Fin 4) : Rat :=
  config.thresholds step

/-- The width of the band as the number it is. -/
def width (config : ThreatConfig exactArithmetic) : Rat := config.hysteresis

/-- Thresholds that are not negative and ascend, and a hysteresis between nothing and all. -/
structure Ladder (config : ThreatConfig exactArithmetic) : Prop where
  nonneg : ∀ step, 0 ≤ config.threshold step
  ascending : Monotone config.threshold
  width_nonneg : 0 ≤ config.width
  width_le_one : config.width ≤ 1

/-- The relaxed thresholds of a ladder are not above it. -/
theorem Ladder.banded {config : ThreatConfig exactArithmetic} (ladder : config.Ladder) :
    config.Banded := by
  intro step (score : Rat) reached
  have above : config.threshold step ≤ score := of_decide_eq_true reached
  have relaxed : config.threshold step * (1 - config.width) ≤ config.threshold step :=
    mul_le_of_le_one_right (ladder.nonneg step) (sub_le_self 1 ladder.width_nonneg)
  exact decide_eq_true (p := config.threshold step * (1 - config.width) ≤ score)
    (relaxed.trans above)

end ThreatConfig

namespace ThreatAssessor

/-- The score as the number it is. -/
def score (threat : ThreatAssessor exactArithmetic) (now : Nat) : Rat := threat.computeScore now

/-- The level that thresholds give to a score. -/
def levelOf (thresholds : Fin 4 → Rat) (score : Rat) : ThreatLevel :=
  @levelAt exactArithmetic thresholds score

/-- Every number is the score of some window. -/
theorem exists_window (threat : ThreatAssessor exactArithmetic) (number : Rat) (now : Nat) :
    ∃ events, ({ threat with events } : ThreatAssessor exactArithmetic).score now = number := by
  refine ⟨[⟨now, .heartbeat, number⟩], ?_⟩
  have fresh : (now - now) / fromSecs 60 = 0 := by simp
  simp only [score, computeScore, List.foldl_cons, List.foldl_nil, fresh]
  let rate : Rat := threat.config.decayRate
  change 0 + number * rate ^ ((0 : Nat) : Rat).num.toNat = number
  simp

/-- Without an override, the level is the stored one raised to what the score asks for and lowered
to what the relaxed thresholds still hold. So it stays where it is at a score that stays, rises
only at a score that reaches a threshold above it, and falls only at one that misses the relaxed
threshold of its own. -/
theorem level_follows_score (threat : ThreatAssessor exactArithmetic)
    (ladder : threat.config.Ladder) (free : threat.manualOverride = none) :
    (∀ now, (threat.recomputeLevel now).currentLevel =
        min (max threat.currentLevel (levelOf threat.config.threshold (threat.score now)))
          (levelOf (fun step => threat.config.threshold step * (1 - threat.config.width))
            (threat.score now)) ∧
      (threat.recomputeLevel now).recomputeLevel now = threat.recomputeLevel now) ∧
    (∀ (windows : List (List (ThreatEvent exactArithmetic) × Nat))
        (events : List (ThreatEvent exactArithmetic)) (now : Nat),
      let score := ({ threat with events } : ThreatAssessor exactArithmetic).score now
      let before := (threat.refreshed windows).currentLevel
      let after := (threat.refreshed (windows ++ [(events, now)])).currentLevel
      (before < after → ∃ step : Fin 4, before.value < step.val + 2 ∧
          threat.config.threshold step ≤ score) ∧
        (after < before → ∃ step : Fin 4, before.value = step.val + 2 ∧
          score < threat.config.threshold step * (1 - threat.config.width))) ∧
    ∀ (score : Rat) (now : Nat), ∃ events,
      ({ threat with events } : ThreatAssessor exactArithmetic).score now = score := by
  constructor
  · intro now
    exact ⟨level_recomputeLevel threat ladder.banded free now, recomputeLevel_idem ladder.banded now⟩
  · constructor
    · intro windows events now score before after
      have followed : after = (ThreatConfig.band ladder.banded score).hold before :=
        level_refreshed_append ladder.banded free windows events now
      constructor
      · intro rises
        rw [followed] at rises
        obtain ⟨below, -⟩ := Band.lt_low_of_lt_hold rises
        obtain ⟨step, short, reached⟩ := lt_levelAt_iff.mp below
        exact ⟨step, short, of_decide_eq_true reached⟩
      · intro falls
        rw [followed] at falls
        obtain ⟨above, -⟩ := Band.high_lt_of_hold_lt falls
        have valued : ThreatLevel.value (ThreatConfig.band ladder.banded score).high <
            before.value := above
        have atLeast : 0 < ThreatLevel.value (ThreatConfig.band ladder.banded score).high := by
          cases (ThreatConfig.band ladder.banded score).high <;> decide
        have atMost : before.value ≤ 5 := by cases before <;> decide
        refine ⟨⟨before.value - 2, by omega⟩, by dsimp only; omega, ?_⟩
        -- had the score reached it, the relaxed thresholds would hold the level
        by_contra missed
        have held : (ThreatConfig.band ladder.banded score).high <
            (ThreatConfig.band ladder.banded score).high := by
          apply lt_levelAt_iff.mpr
          refine ⟨⟨before.value - 2, by omega⟩, by dsimp only; omega, ?_⟩
          exact decide_eq_true (p := threat.config.threshold ⟨before.value - 2, _⟩ *
            (1 - threat.config.width) ≤ score) (not_lt.mp missed)
        exact lt_irrefl _ held
    · intro number now
      exact threat.exists_window number now

end ThreatAssessor

theorem ThreatConfig.default_ladder : (ThreatConfig.default exactArithmetic).Ladder where
  nonneg := by decide +kernel
  ascending := by
    intro step step'
    revert step step'
    decide +kernel
  width_nonneg := by decide +kernel
  width_le_one := by decide +kernel

/-- A window with one severe advisory. -/
def severeWindow : List (ThreatEvent exactArithmetic) := [⟨0, .externalAdvisory, (20 : Rat)⟩]

/-- The level rises with a severe advisory, at a score that reaches a threshold, and falls
when it is gone, at one that misses the relaxed threshold. -/
theorem ThreatAssessor.level_rises_and_falls :
    (freshAssessor.refreshed [(severeWindow, 0)]).currentLevel = .elevated ∧
      (freshAssessor.refreshed [(severeWindow, 0), ([], 1)]).currentLevel = .low ∧
      (∃ step : Fin 4, 1 < step.val + 2 ∧ freshAssessor.config.threshold step ≤ 20) ∧
      ∃ step : Fin 4, 3 = step.val + 2 ∧
        0 < freshAssessor.config.threshold step * (1 - freshAssessor.config.width) := by
  have raised : (freshAssessor.refreshed [(severeWindow, 0)]).currentLevel = .elevated := by
    decide +kernel
  have lowered : (freshAssessor.refreshed [(severeWindow, 0), ([], 1)]).currentLevel = .low := by
    decide +kernel
  have severe : ({ freshAssessor with events := severeWindow } :
      ThreatAssessor exactArithmetic).score 0 = 20 := by decide +kernel
  have empty : ({ freshAssessor with events := [] } : ThreatAssessor exactArithmetic).score 1 = 0 :=
    rfl
  obtain ⟨-, follows, -⟩ := level_follows_score freshAssessor ThreatConfig.default_ladder rfl
  refine ⟨raised, lowered, ?_, ?_⟩
  · obtain ⟨step, below, reached⟩ := (follows [] severeWindow 0).1 (by
      rw [List.nil_append, raised]
      decide)
    exact ⟨step, below, severe ▸ reached⟩
  · obtain ⟨step, same, missed⟩ := (follows [(severeWindow, 0)] [] 1).2 (by
      rw [List.singleton_append, raised, lowered]
      decide)
    rw [raised] at same
    exact ⟨step, same, empty ▸ missed⟩

end Citadel
