import Citadel.Keystore.Threat
import Mathlib.Logic.Function.Iterate

/-!
# Manual escalation

A manual escalation fixes the level one above the stored one, and from then on the computed
level is ignored until the override is cleared. So the response is the stronger one as long
as the events alone do not ask for more than the fixed level; once they do, the response
without the escalation is the stronger one.
-/

namespace Citadel

/-- A call on an assessor that can change what it holds. -/
inductive ThreatCall (double : DoubleArithmetic) where
  | recordEvent (event : ThreatEvent double) (now : Nat)
  | recordEvents (events : List (ThreatEvent double)) (now : Nat)
  | currentLevel (now : Nat)
  | reset

section Escalation

variable {double : DoubleArithmetic}

/-- The assessor after a call. -/
def ThreatAssessor.play (threat : ThreatAssessor double) :
    ThreatCall double → ThreatAssessor double
  | .recordEvent event now => threat.recordEvent event now
  | .recordEvents events now => threat.recordEvents events now
  | .currentLevel now => (threat.readLevel now).2
  | .reset => threat.reset

/-- The assessor after a history of calls. -/
def ThreatAssessor.run (threat : ThreatAssessor double) (calls : List (ThreatCall double)) :
    ThreatAssessor double :=
  calls.foldl ThreatAssessor.play threat

/-- When a call computes the level anew. -/
def ThreatCall.moment : ThreatCall double → Option Nat
  | .recordEvent _ now | .recordEvents _ now | .currentLevel now => some now
  | .reset => none

/-- The call is no manual de-escalation and no reset. -/
def ThreatCall.KeepsOverride : ThreatCall double → Prop
  | .recordEvent event _ => event.kind ≠ .manualDeescalation
  | .recordEvents _ _ | .currentLevel _ => True
  | .reset => False

/-- The call is a manual escalation. -/
def ThreatCall.escalates : ThreatCall double → Bool
  | .recordEvent event _ => event.kind = .manualEscalation
  | _ => false

namespace ThreatAssessor

variable {threat other : ThreatAssessor double} {calls : List (ThreatCall double)} {now : Nat}

/-- The level that the score alone asks for. -/
def rawLevel (threat : ThreatAssessor double) (now : Nat) : ThreatLevel :=
  levelAt threat.config.thresholds (threat.computeScore now)

/-- What is read is the level that the reading leaves. -/
theorem readLevel_eq (threat : ThreatAssessor double) (now : Nat) :
    (threat.readLevel now).1 = (threat.recomputeLevel now).currentLevel := by
  change threat.manualOverride.getD (threat.manualOverride.getD (threat.computedLevel now)) =
    threat.manualOverride.getD (threat.computedLevel now)
  cases threat.manualOverride <;> rfl

/-- An override is also the stored level. -/
def Settled (threat : ThreatAssessor double) : Prop :=
  ∀ level, threat.manualOverride = some level → threat.currentLevel = level

/-- Every call that computes the level settles the assessor. -/
theorem settled_recomputeLevel (threat : ThreatAssessor double) (now : Nat) :
    (threat.recomputeLevel now).Settled := by
  intro level overridden
  change threat.manualOverride.getD (threat.computedLevel now) = level
  have kept : threat.manualOverride = some level := overridden
  rw [kept, Option.getD_some]

theorem settled_play (threat : ThreatAssessor double) (call : ThreatCall double) :
    (threat.play call).Settled := by
  cases call with
  | recordEvent event now => exact settled_recomputeLevel _ now
  | recordEvents events now => exact settled_recomputeLevel _ now
  | currentLevel now => exact settled_recomputeLevel _ now
  | reset => exact fun level overridden => absurd overridden (by simp [play, reset])

/-- An assessor is settled after every history. -/
theorem settled_run (settled : threat.Settled) : (threat.run calls).Settled := by
  induction calls generalizing threat with
  | nil => exact settled
  | cons call rest ih => exact ih (settled_play threat call)

/-- A computed level is not above both the stored one and the one the score asks for. -/
theorem computedLevel_le {level : ThreatLevel} (stored : threat.currentLevel.value ≤ level.value)
    (raw : (threat.rawLevel now).value ≤ level.value) :
    (threat.computedLevel now).value ≤ level.value := by
  unfold computedLevel
  simp only
  split
  · exact raw
  · split
    · omega
    · exact stored

/-- A score above the stored level is followed at once. -/
theorem computedLevel_of_lt (above : threat.currentLevel.value < (threat.rawLevel now).value) :
    threat.computedLevel now = threat.rawLevel now :=
  if_pos above

/-- Without an override, the score asks for no more than the level. -/
def Within (threat : ThreatAssessor double) (fixed : ThreatLevel) (now : Nat) : Prop :=
  threat.manualOverride = none → (threat.rawLevel now).value ≤ fixed.value

/-- Whenever a history computes the level, the score asks for no more than the given one. -/
def StaysWithin (fixed : ThreatLevel) : ThreatAssessor double → List (ThreatCall double) → Prop
  | _, [] => True
  | threat, call :: rest =>
      (∀ now, call.moment = some now → (threat.play call).Within fixed now) ∧
        StaysWithin fixed (threat.play call) rest

/-- A call that keeps the override records something and computes the level. -/
theorem play_eq_recomputeLevel {call : ThreatCall double} (kept : call.KeepsOverride)
    (threat : ThreatAssessor double) :
    ∃ (recorded : ThreatAssessor double) (now : Nat), call.moment = some now ∧
      threat.play call = recorded.recomputeLevel now ∧
      recorded.currentLevel = threat.currentLevel ∧
      recorded.manualOverride =
        if call.escalates then some threat.currentLevel.escalated else threat.manualOverride := by
  cases call with
  | recordEvent event now =>
      obtain ⟨timestamp, kind, severity⟩ := event
      cases kind with
      | manualDeescalation => exact absurd rfl kept
      | _ => exact ⟨_, now, rfl, rfl, rfl, rfl⟩
  | recordEvents events now => exact ⟨_, now, rfl, rfl, rfl, rfl⟩
  | currentLevel now => exact ⟨threat, now, rfl, rfl, rfl, rfl⟩
  | reset => exact kept.elim

/-- A fixed level stays, raised by each further manual escalation. -/
theorem overridden_play {call : ThreatCall double} (kept : call.KeepsOverride)
    (overridden : threat.manualOverride = some threat.currentLevel) :
    (threat.play call).manualOverride = some (threat.play call).currentLevel ∧
      (threat.play call).currentLevel =
        if call.escalates then threat.currentLevel.escalated else threat.currentLevel := by
  obtain ⟨recorded, now, -, played, -, override⟩ := play_eq_recomputeLevel kept threat
  have fixes : recorded.manualOverride =
      some (if call.escalates then threat.currentLevel.escalated else threat.currentLevel) := by
    rw [override, overridden]
    split <;> rfl
  rw [played, recomputeLevel, fixes]
  exact ⟨rfl, rfl⟩

/-- After a history, a fixed level is raised once for each manual escalation in it. -/
theorem overridden_run (kept : ∀ call ∈ calls, call.KeepsOverride)
    (overridden : threat.manualOverride = some threat.currentLevel) :
    (threat.run calls).manualOverride = some (threat.run calls).currentLevel ∧
      (threat.run calls).currentLevel =
        ThreatLevel.escalated^[calls.countP ThreatCall.escalates] threat.currentLevel := by
  induction calls generalizing threat with
  | nil => exact ⟨overridden, rfl⟩
  | cons call rest ih =>
      obtain ⟨fixed, level⟩ := overridden_play (kept call List.mem_cons_self) overridden
      obtain ⟨still, raised⟩ := ih (fun later member => kept later (.tail _ member)) fixed
      refine ⟨still, ?_⟩
      change ((threat.play call).run rest).currentLevel = _
      rw [raised, level, List.countP_cons]
      split
      · rw [Function.iterate_succ_apply]
      · rfl

end ThreatAssessor

theorem ThreatLevel.escalated_mono {first second : ThreatLevel}
    (le : first.value ≤ second.value) :
    first.escalated.value ≤ second.escalated.value := by
  cases first <;> cases second <;> revert le <;> decide

theorem ThreatLevel.le_escalated (level : ThreatLevel) : level.value ≤ level.escalated.value := by
  cases level <;> decide

/-- An assessor whose level was fixed is not below one that was left alone. -/
structure Covers (fixed : ThreatLevel) (escalated alone : ThreatAssessor double) : Prop where
  overridden : escalated.manualOverride = some escalated.currentLevel
  fixed_le : fixed.value ≤ escalated.currentLevel.value
  covers : alone.currentLevel.value ≤ escalated.currentLevel.value
  settled : alone.Settled
  /-- Until the other is escalated too, the level is the fixed one. -/
  fixed_eq : alone.manualOverride = none → escalated.currentLevel = fixed

/-- Each call keeps the cover while the score asks for no more than the fixed level. -/
theorem Covers.play {fixed : ThreatLevel} {escalated alone : ThreatAssessor double}
    {call : ThreatCall double} (covers : Covers fixed escalated alone)
    (kept : call.KeepsOverride)
    (within : ∀ now, call.moment = some now → (alone.play call).Within fixed now) :
    Covers fixed (escalated.play call) (alone.play call) := by
  obtain ⟨overridden, level⟩ := ThreatAssessor.overridden_play kept covers.overridden
  obtain ⟨recorded, now, moment, played, stored, override⟩ :=
    ThreatAssessor.play_eq_recomputeLevel kept alone
  have raised : escalated.currentLevel.value ≤ (escalated.play call).currentLevel.value := by
    rw [level]
    split
    · exact ThreatLevel.le_escalated _
    · exact le_rfl
  have sameOverride : (alone.play call).manualOverride = recorded.manualOverride := by
    rw [played, ThreatAssessor.recomputeLevel]
  refine ⟨overridden, le_trans covers.fixed_le raised, ?_, ThreatAssessor.settled_play alone call,
    ?_⟩
  · cases found : recorded.manualOverride with
    | none =>
        -- the level is computed, from a stored level and a score that are both covered
        have computed : (alone.play call).currentLevel = recorded.computedLevel now := by
          rw [played, ThreatAssessor.recomputeLevel, found, Option.getD_none]
        have score : (recorded.rawLevel now).value ≤ fixed.value := by
          have bounded := within now moment (sameOverride.trans found)
          rw [played] at bounded
          exact bounded
        rw [computed]
        apply ThreatAssessor.computedLevel_le
        · rw [stored]
          exact le_trans covers.covers raised
        · exact le_trans score (le_trans covers.fixed_le raised)
    | some other =>
        have computed : (alone.play call).currentLevel = other := by
          rw [played, ThreatAssessor.recomputeLevel, found, Option.getD_some]
        rw [computed, level]
        rw [override] at found
        split at found
        · cases found
          rw [if_pos (by assumption)]
          exact ThreatLevel.escalated_mono covers.covers
        · rw [if_neg (by assumption), ← covers.settled other found]
          exact covers.covers
  · intro free
    rw [sameOverride, override] at free
    split at free
    · cases free
    · rw [level, if_neg (by assumption)]
      exact covers.fixed_eq free

/-- A history keeps the cover while the scores ask for no more than the fixed level. -/
theorem Covers.run {fixed : ThreatLevel} {escalated alone : ThreatAssessor double}
    {calls : List (ThreatCall double)} (covers : Covers fixed escalated alone)
    (kept : ∀ call ∈ calls, call.KeepsOverride) (within : alone.StaysWithin fixed calls) :
    Covers fixed (escalated.run calls) (alone.run calls) := by
  induction calls generalizing escalated alone with
  | nil => exact covers
  | cons call rest ih =>
      obtain ⟨now, later⟩ := within
      exact ih (covers.play (kept call List.mem_cons_self) now)
        (fun call member => kept call (.tail _ member)) later

/-- A manual escalation fixes the level one above the stored one, and each further one raises
it by one, until it is cleared. The level with the escalation is then at least the level
without it, at every moment at which no score has asked for more than the fixed level; from
the first moment at which one does, the level without the escalation is higher. -/
theorem manual_escalation_raises (config : ThreatConfig double)
    (before after : List (ThreatCall double)) (event : ThreatEvent double) (moment now : Nat)
    (escalation : event.kind = .manualEscalation)
    (kept : ∀ call ∈ after, call.KeepsOverride) :
    let alone := (ThreatAssessor.new config).run before
    let fixed := alone.currentLevel.escalated
    let escalated := alone.recordEvent event moment
    ((escalated.run after).readLevel now).1 =
        ThreatLevel.escalated^[after.countP ThreatCall.escalates] fixed ∧
      (alone.StaysWithin fixed after →
        ((alone.run after).Within fixed now →
          ((alone.run after).readLevel now).1.value ≤
            ((escalated.run after).readLevel now).1.value) ∧
        (¬ (alone.run after).Within fixed now →
          ((escalated.run after).readLevel now).1.value <
            ((alone.run after).readLevel now).1.value)) := by
  intro alone fixed escalated
  have settled : alone.Settled := ThreatAssessor.settled_run nofun
  have kept_event : (ThreatCall.recordEvent event moment).KeepsOverride := by
    rw [ThreatCall.KeepsOverride, escalation]
    decide
  have first : escalated.manualOverride = some fixed ∧ escalated.currentLevel = fixed := by
    simp [escalated, ThreatAssessor.recordEvent, ThreatAssessor.recomputeLevel,
      ThreatAssessor.pruneOldEvents, escalation, fixed]
  have overridden : escalated.manualOverride = some escalated.currentLevel := by
    rw [first.1, first.2]
  obtain ⟨still, raised⟩ := ThreatAssessor.overridden_run kept overridden
  have reading : ((escalated.run after).recomputeLevel now).currentLevel =
      (escalated.run after).currentLevel := by
    rw [ThreatAssessor.recomputeLevel, still, Option.getD_some]
  rw [ThreatAssessor.readLevel_eq, ThreatAssessor.readLevel_eq, reading]
  refine ⟨by rw [raised, first.2], ?_⟩
  intro scores
  have begun : Covers fixed escalated alone :=
    { overridden
      fixed_le := by rw [first.2]
      covers := by
        rw [first.2]
        exact ThreatLevel.le_escalated _
      settled
      fixed_eq := fun _ => first.2 }
  have covers := begun.run kept scores
  constructor
  · intro within
    have final : Covers fixed ((escalated.run after).play (.currentLevel now))
        ((alone.run after).play (.currentLevel now)) := by
      apply covers.play (show ThreatCall.KeepsOverride (.currentLevel now) from trivial)
      intro found same
      cases same
      exact within
    rw [← reading]
    exact final.covers
  · intro exceeded
    obtain ⟨free, above⟩ := Classical.not_imp.mp exceeded
    have level := covers.fixed_eq free
    have below : (alone.run after).currentLevel.value <
        ((alone.run after).rawLevel now).value := by
      have stored := covers.covers
      rw [level] at stored
      omega
    have computed : ((alone.run after).recomputeLevel now).currentLevel =
        (alone.run after).rawLevel now := by
      rw [ThreatAssessor.recomputeLevel, free, Option.getD_none,
        ThreatAssessor.computedLevel_of_lt below]
    rw [computed, level]
    omega

end Escalation

/-- An operator raises the level by one. -/
def operatorEscalates : ThreatEvent exactArithmetic :=
  .new .manualEscalation (exactArithmetic.nearest 0) 0

/-- An advisory of full severity. -/
def advisory : ThreatCall exactArithmetic :=
  .recordEvent (.new .externalAdvisory (exactArithmetic.nearest 10) 0) 0

/-- Two advisories lead to the third level, and after a manual escalation to the second only. -/
theorem escalation_caps_level :
    operatorEscalates.kind = .manualEscalation ∧
      (∀ call ∈ [advisory, advisory], call.KeepsOverride) ∧
      ((freshAssessor.run [advisory, advisory]).readLevel 0).1 = .elevated ∧
      (((freshAssessor.recordEvent operatorEscalates 0).run [advisory, advisory]).readLevel 0).1 =
        .guarded := by
  refine ⟨rfl, ?_, by decide +kernel, by decide +kernel⟩
  intro call member
  simp only [List.mem_cons, List.not_mem_nil, or_false, or_self] at member
  cases member
  exact nofun

theorem advisory_asks :
    ((freshAssessor.play advisory).rawLevel 0).value ≤ ThreatLevel.value .guarded := by
  decide +kernel

/-- One advisory asks for no more than the escalation. -/
theorem escalation_covers_advisory :
    ((freshAssessor.run [advisory]).readLevel 0).1.value ≤
      (((freshAssessor.recordEvent operatorEscalates 0).run [advisory]).readLevel 0).1.value := by
  have kept : ∀ call ∈ [advisory], call.KeepsOverride := by
    intro call member
    cases List.mem_singleton.mp member
    exact nofun
  obtain ⟨-, covered⟩ := manual_escalation_raises (.default exactArithmetic) [] [advisory]
    operatorEscalates 0 0 rfl kept
  obtain ⟨covers, -⟩ := covered ⟨fun now same free => by cases same; exact advisory_asks, trivial⟩
  exact covers fun free => advisory_asks

end Citadel
