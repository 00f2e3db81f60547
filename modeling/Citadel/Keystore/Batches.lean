import Citadel.Data.Window
import Citadel.Keystore.Hysteresis

/-!
# Events in a batch

`record_events` keeps the events of a batch, prunes once and computes the level once.
`record_event` does all of it for each event. Without manual events both leave the same override,
and the same window unless the batch is cut where the single events are not. The level follows
one band in the one case and a band for each event in the other, so a stored level that is due to
fall falls further when the events come one by one.
-/

namespace Citadel

variable {double : DoubleArithmetic}

/-- The event is too old for the window. -/
def ThreatConfig.stale (config : ThreatConfig double) (now : Nat) (event : ThreatEvent double) :
    Bool :=
  decide (event.timestamp + config.window < now)

namespace ThreatAssessor

variable {threat : ThreatAssessor double} {event : ThreatEvent double}
  {events : List (ThreatEvent double)} {now : Nat}

/-- The assessor with the given events behind its own, pruned. -/
def kept (threat : ThreatAssessor double) (events : List (ThreatEvent double)) (now : Nat) :
    ThreatAssessor double :=
  ({ threat with events := threat.events ++ events } : ThreatAssessor double).pruneOldEvents now

end ThreatAssessor

end Citadel
