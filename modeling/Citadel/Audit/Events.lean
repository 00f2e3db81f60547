import Citadel.Audit.Log
import Citadel.Keystore.Types

/-!
# Audit events

What the keystore records: an action, the key it was on with its type and state, and who
asked. An event is made where it is recorded, so its timestamp is the instant at which it
is recorded; `EventDraft` is what the code gives beside it.
-/

namespace Citadel.Audit

/-- `AuditAction`, as far as the operations on keys record it. -/
inductive AuditAction where
  | keyGenerated
  | keyActivated
  | keyRotated (newVersion : Nat)
  | keyExpired (reason : String)
  | keyRevoked (reason : String)
  | keyDestroyed
  | encryptionPerformed (keyVersion : Nat)
  | decryptionPerformed (keyVersion : Nat)
  | decryptionFailed (keyVersion : Nat)
  | policyEvaluated (verdict : String)
  | expirationCheckRun (expiredCount warningCount : Nat)
  | keyRewrapped (oldParentId newParentId : Option String) (newParentVersion : Option Nat)
  | hierarchyViolation (parentId parentState childId : String)
  | replayDetected (keyVersion : Nat)
  | signingPerformed (keyVersion payloadBytes : Nat)
  | signingFailed (keyVersion : Nat) (reason : String)
  | verificationPerformed (keyVersion : Nat) (valid : Bool)
  deriving DecidableEq, Repr

/-- An event without its timestamp and its place in a chain. -/
structure EventDraft where
  keyId : Option KeyId
  keyType : Option KeyType
  keyState : Option KeyState
  action : AuditAction
  actor : String
  success : Bool
  detail : Option String
  deriving DecidableEq, Repr

/-- `AuditEvent::key_event`. -/
def keyEvent (keyId : KeyId) (keyType : KeyType) (keyState : KeyState) (action : AuditAction) :
    EventDraft :=
  { keyId := some keyId
    keyType := some keyType
    keyState := some keyState
    action := action
    actor := "system"
    success := true
    detail := none }

/-- `AuditEvent::system_event`. -/
def systemEvent (action : AuditAction) : EventDraft :=
  { keyId := none
    keyType := none
    keyState := none
    action := action
    actor := "system"
    success := true
    detail := none }

/-- The fields of an event that its chain leaves alone. -/
structure EventBody extends EventDraft where
  timestamp : Nat
  deriving DecidableEq, Repr

/-- An event made at an instant, before a sink numbers it. -/
def stampedAt (now : Nat) (draft : EventDraft) : AuditEvent EventBody :=
  { body := { draft with timestamp := now }
    sequence := none
    prevHash := none }

end Citadel.Audit
