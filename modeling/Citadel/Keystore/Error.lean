import Citadel.Keystore.Types

/-!
# Errors and reports of the keystore
-/

namespace Citadel

/-- `KeystoreError`. -/
inductive KeystoreError where
  | keyNotFound (id : KeyId)
  | invalidTransition (id : KeyId) (current target : KeyState)
  | policyViolation (message : String)
  | storageError (message : String)
  | envelopeError (message : String)
  | duplicateKey (id : KeyId)
  | keyDestroyed (id : KeyId)
  | notActive (id : KeyId)
  | notDecryptable (id : KeyId)
  | policyNotFound (id : String)
  | parentKeyNotFound (parentId : KeyId)
  | hierarchyViolation (message : String)
  deriving DecidableEq, Repr

/-- `Display for KeystoreError`. -/
def KeystoreError.display : KeystoreError → String
  | .keyNotFound id => s!"key not found: {id.text}"
  | .invalidTransition id current target =>
      s!"invalid transition for {id.text}: {current.display} → {target.display}"
  | .policyViolation message => s!"policy violation: {message}"
  | .storageError message => s!"storage error: {message}"
  | .envelopeError message => s!"envelope error: {message}"
  | .duplicateKey id => s!"duplicate key: {id.text}"
  | .keyDestroyed id => s!"key destroyed: {id.text}"
  | .notActive id => s!"key not active: {id.text}"
  | .notDecryptable id => s!"key cannot decrypt: {id.text}"
  | .policyNotFound id => s!"policy not found: {id}"
  | .parentKeyNotFound parentId =>
      s!"parent key not found: {parentId.text} (wrapping_key_id references a missing key)"
  | .hierarchyViolation message => s!"hierarchy violation: {message}"

/-- `GenerateError`, `LifecycleError`, `RotateError`, `ExpireError`, `RewrapError`
and `CascadeError` all wrap one `KeystoreError`; `EncryptError`, `DecryptError` and
`SignError` wrap a text. -/
inductive CallError where
  | generate (error : KeystoreError)
  | lifecycle (error : KeystoreError)
  | rotate (error : KeystoreError)
  | expire (error : KeystoreError)
  | rewrap (error : KeystoreError)
  | cascade (error : KeystoreError)
  | keystore (error : KeystoreError)
  | encrypt (message : String)
  | decrypt (message : String)
  | sign (message : String)
  deriving DecidableEq, Repr

/-- The text of an error. -/
def CallError.display : CallError → String
  | .generate error => error.display
  | .lifecycle error => error.display
  | .rotate error => error.display
  | .expire error => error.display
  | .rewrap error => s!"rewrap error: {error.display}"
  | .cascade error => s!"cascade error: {error.display}"
  | .keystore error => error.display
  | .encrypt message => s!"encrypt: {message}"
  | .decrypt message => s!"decrypt: {message}"
  | .sign message => s!"SignError: {message}"

/-- `ReplayError`. -/
structure ReplayError where
  message : String
  deriving DecidableEq, Repr

/-- Why a key expires (`ExpirationSource`). -/
inductive ExpirationSource where
  | gracePeriodExpired
  | maxLifetimeExceeded
  deriving DecidableEq, Repr

/-- Whether a key expires (`ExpirationDecision`). -/
inductive ExpirationDecision where
  | notNeeded
  | required (reason : String) (source : ExpirationSource)
  | warning (reason : String) (remaining : Nat) (source : ExpirationSource)
  deriving DecidableEq, Repr

/-- The outcome of a sweep over all keys (`ExpirationReport`). -/
structure ExpirationReport where
  expired : List (KeyId × ExpirationSource)
  warnings : List (KeyId × String × Nat)
  failed : List (KeyId × String)
  skipped : Nat
  deriving DecidableEq, Repr

/-- `ExpirationReport::default`. -/
def ExpirationReport.default : ExpirationReport := ⟨[], [], [], 0⟩

end Citadel
