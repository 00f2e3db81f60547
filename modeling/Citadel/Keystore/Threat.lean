import Citadel.Keystore.Policy
import Mathlib.Data.Rat.Init

/-!
# The threat assessor

The assessor keeps the recent security events and the level it last arrived at. Its
score adds up the severities of the events, each decayed by its age in minutes; the
level follows the score, upwards at the thresholds and downwards only a band below
them. Reading the level refreshes it, so a reader can change what later readers see.

The arithmetic of doubles is a parameter. The history of level changes and the audit
records are written and never read by the code that decides the level.
-/

namespace Citadel

/-- The operations on `f64` that the assessor uses. -/
structure DoubleArithmetic where
  Value : Type
  /-- The double nearest to a number: literals and casts of integers. -/
  nearest : Rat → Value
  add : Value → Value → Value
  sub : Value → Value → Value
  mul : Value → Value → Value
  powf : Value → Value → Value
  lt : Value → Value → Bool
  le : Value → Value → Bool

/-- `ThreatEventKind`. -/
inductive ThreatEventKind where
  | decryptionFailure
  | rapidAccessPattern
  | anomalousAccess
  | externalAdvisory
  | authFailure
  | keyEnumeration
  | manualEscalation
  | manualDeescalation
  | heartbeat
  deriving DecidableEq, Repr

section Assessor

variable {double : DoubleArithmetic}

/-- `ThreatEvent`, without its detail. -/
structure ThreatEvent (double : DoubleArithmetic) where
  timestamp : Nat
  kind : ThreatEventKind
  severity : double.Value

/-- `f64::clamp`. -/
def DoubleArithmetic.clamp (double : DoubleArithmetic) (value low high : double.Value) :
    double.Value :=
  let raised := if double.lt value low then low else value
  if double.lt high raised then high else raised

/-- `ThreatEvent::new`. -/
def ThreatEvent.new (kind : ThreatEventKind) (severity : double.Value) (now : Nat) :
    ThreatEvent double :=
  ⟨now, kind, double.clamp severity (double.nearest 0) (double.nearest 10)⟩

/-- `ThreatConfig`. -/
structure ThreatConfig (double : DoubleArithmetic) where
  window : Nat
  decayRate : double.Value
  thresholds : Fin 4 → double.Value
  maxEvents : Nat
  hysteresis : double.Value

/-- `ThreatConfig::default`. -/
def ThreatConfig.default (double : DoubleArithmetic) : ThreatConfig double where
  window := fromSecs 3600
  decayRate := double.nearest (95 / 100)
  thresholds
    | 0 => double.nearest 5
    | 1 => double.nearest 15
    | 2 => double.nearest 30
    | 3 => double.nearest 50
  maxEvents := 10000
  hysteresis := double.nearest (2 / 10)

/-- `ThreatAssessor`. -/
structure ThreatAssessor (double : DoubleArithmetic) where
  config : ThreatConfig double
  events : List (ThreatEvent double)
  currentLevel : ThreatLevel
  manualOverride : Option ThreatLevel

/-- The level one above, up to the highest. -/
def ThreatLevel.escalated : ThreatLevel → ThreatLevel
  | .low => .guarded
  | .guarded => .elevated
  | .elevated => .high
  | .high => .critical
  | .critical => .critical

namespace ThreatAssessor

/-- `ThreatAssessor::new`. -/
def new (config : ThreatConfig double) : ThreatAssessor double := ⟨config, [], .low, none⟩

/-- `compute_score`. An event from the future counts as new. -/
def computeScore (threat : ThreatAssessor double) (now : Nat) : double.Value :=
  threat.events.foldl (fun score event =>
    let ageMinutes := (now - event.timestamp) / fromSecs 60
    let decay := double.powf threat.config.decayRate (double.nearest ageMinutes)
    double.add score (double.mul event.severity decay)) (double.nearest 0)

/-- The highest level whose threshold the score reaches. -/
def levelAt (thresholds : Fin 4 → double.Value) (score : double.Value) : ThreatLevel :=
  if double.le (thresholds 3) score then .critical
  else if double.le (thresholds 2) score then .high
  else if double.le (thresholds 1) score then .elevated
  else if double.le (thresholds 0) score then .guarded
  else .low

/-- The level that the score asks for. -/
def computedLevel (threat : ThreatAssessor double) (now : Nat) : ThreatLevel :=
  let score := threat.computeScore now
  let rawLevel := levelAt threat.config.thresholds score
  let relaxed := double.sub (double.nearest 1) threat.config.hysteresis
  let deEscalationLevel := levelAt (fun step => double.mul (threat.config.thresholds step) relaxed)
    score
  if threat.currentLevel.value < rawLevel.value then rawLevel
  else if deEscalationLevel.value < threat.currentLevel.value then deEscalationLevel
  else threat.currentLevel

/-- `recompute_level`. -/
def recomputeLevel (threat : ThreatAssessor double) (now : Nat) : ThreatAssessor double :=
  { threat with currentLevel := threat.manualOverride.getD (threat.computedLevel now) }

/-- `prune_old_events`. -/
def pruneOldEvents (threat : ThreatAssessor double) (now : Nat) : ThreatAssessor double :=
  let recent := threat.events.dropWhile fun event => event.timestamp + threat.config.window < now
  { threat with events := recent.drop (recent.length - threat.config.maxEvents) }

/-- `record_event`. -/
def recordEvent (threat : ThreatAssessor double) (event : ThreatEvent double) (now : Nat) :
    ThreatAssessor double :=
  let manualOverride :=
    match event.kind with
    | .manualEscalation => some threat.currentLevel.escalated
    | .manualDeescalation => none
    | _ => threat.manualOverride
  let recorded := { threat with manualOverride, events := threat.events ++ [event] }
  (recorded.pruneOldEvents now).recomputeLevel now

/-- `record_events`. -/
def recordEvents (threat : ThreatAssessor double) (events : List (ThreatEvent double))
    (now : Nat) : ThreatAssessor double :=
  let recorded := { threat with events := threat.events ++ events }
  (recorded.pruneOldEvents now).recomputeLevel now

/-- `reset`. -/
def reset (threat : ThreatAssessor double) : ThreatAssessor double :=
  { threat with events := [], manualOverride := none, currentLevel := .low }

/-- The level in force, as it is stored. -/
def storedLevel (threat : ThreatAssessor double) : ThreatLevel :=
  threat.manualOverride.getD threat.currentLevel

/-- `current_level`, which refreshes what it reads. -/
def readLevel (threat : ThreatAssessor double) (now : Nat) : ThreatLevel × ThreatAssessor double :=
  ((threat.recomputeLevel now).storedLevel, threat.recomputeLevel now)

/-- The stored level is the one that a refresh would arrive at. -/
def UpToDate (threat : ThreatAssessor double) (now : Nat) : Prop :=
  threat.recomputeLevel now = threat

theorem upToDate_iff {threat : ThreatAssessor double} {now : Nat} : threat.UpToDate now ↔
      threat.manualOverride.getD (threat.computedLevel now) = threat.currentLevel := by
  constructor
  · intro upToDate
    exact congrArg ThreatAssessor.currentLevel upToDate
  · intro same
    rw [UpToDate, recomputeLevel, same]

/-- A reading of a level that is up to date changes nothing. -/
theorem UpToDate.readLevel {threat : ThreatAssessor double} {now : Nat}
    (upToDate : threat.UpToDate now) : threat.readLevel now = (threat.storedLevel, threat) := by
  rw [ThreatAssessor.readLevel, upToDate]

end ThreatAssessor

end Assessor

/-- Exact arithmetic. The assessor raises to whole powers only. -/
def exactArithmetic : DoubleArithmetic where
  Value := Rat
  nearest value := value
  add left right := left + right
  sub left right := left - right
  mul left right := left * right
  powf base exponent := base ^ exponent.num.toNat
  lt left right := left < right
  le left right := left ≤ right

/-- A new assessor of the default configuration. -/
def freshAssessor : ThreatAssessor exactArithmetic := .new (.default exactArithmetic)

end Citadel
