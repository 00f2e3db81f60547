import Citadel.Keystore.Replays
import Citadel.Keystore.Threat

/-!
# The keystore with its threat assessor

Elsewhere the threat level is whatever the environment says. Here it is read from the
assessor that the keystore holds, and what the keystore does to the assessor is part of
a step: every reading of the level refreshes it, and a decryption whose envelope does
not open records an event. `decryptReporting` is the code of `decrypt` that also tells
whether that event was recorded (`decrypt_eq`).

While the stored level is up to date both readings of the code agree
(`run_monitored`).
-/

namespace Citadel

open Envelope Program

variable {double : DoubleArithmetic} {ε α : Type}

/-- A keystore's state and its assessor. -/
structure Monitored (double : DoubleArithmetic) where
  world : World
  threat : ThreatAssessor double

/-- Play one operation; `current_threat_level` asks the assessor. -/
def handleMonitored (env : Env) : (op : Op) → Monitored double → op.Ret × Monitored double
  | .currentThreatLevel, state =>
      let reading := state.threat.readLevel state.world.now
      (reading.1, { state with threat := reading.2 })
  | op, state => ((handle env op state.world).1, { state with world := (handle env op state.world).2 })

/-- The environment in which the level is the one stored by the assessor. -/
def Monitored.env (state : Monitored double) (env : Env) : Env :=
  { env with level := state.threat.storedLevel }

/-- No operation moves the clock. -/
theorem now_handle (env : Env) (op : Op) (world : World) :
    (handle env op world).2.now = world.now := by
  cases op with
  | put record =>
      simp only [handle, handlePut]
      split <;> rfl
  | _ => rfl

/-- While the level is up to date, a program runs as it does at that level. -/
theorem run_monitored {env : Env} {state : Monitored double}
    (upToDate : state.threat.UpToDate state.world.now) (program : Prog ε α) :
    program.run (handleMonitored env) state =
      ((program.run (handle (state.env env)) state.world).1,
        ⟨(program.run (handle (state.env env)) state.world).2, state.threat⟩) := by
  let related (left : Monitored double) (right : World) : Prop :=
    left = ⟨right, state.threat⟩ ∧ right.now = state.world.now
  have step : ∀ op left right, True → related left right →
      (handleMonitored env op left).1 = (handle (state.env env) op right).1 ∧
        related (handleMonitored env op left).2 (handle (state.env env) op right).2 := by
    rintro op left right - ⟨rfl, sameTime⟩
    have later := now_handle (state.env env) op right
    cases op with
    | currentThreatLevel =>
        have reads := (sameTime ▸ upToDate : state.threat.UpToDate right.now).readLevel
        simp only [handleMonitored, reads]
        exact ⟨rfl, rfl, sameTime⟩
    | _ => exact ⟨rfl, rfl, later.trans sameTime⟩
  have start : related state state.world := ⟨rfl, rfl⟩
  obtain ⟨same, ends, -⟩ := (uses_any program).runBoth step start
  exact Prod.ext same ends

namespace Keystore

variable (ks : Keystore)

/-- What `decrypt` does once it holds the claim. An envelope that does not open is
answered with `none`. -/
def openReporting (keyId : KeyId) (version : KeyVersion) (domainId : KeyId) (ciphertext : Bytes)
    (cacheKey : Bytes) (aad : Aad) (context : Context) : Prog String (Option Bytes) := do
  let unwrapped ← Program.attempt (ks.unwrapKeyVersion keyId version)
  match unwrapped with
  | .error _ => releaseAndFail cacheKey
  | .ok skBytes =>
      match SecretKey.fromBytes ks.crypto skBytes with
      | .error _ => releaseAndFail cacheKey
      | .ok sk =>
          match Envelope.open ks.crypto sk ciphertext (domainBoundAad domainId aad) context with
          | .error _ => do
              let _ ← replayRelease cacheKey
              .ret none
          | .ok plaintext => .ret (some plaintext)

/-- `decrypt`, which answers `none` on the path that records a threat event. -/
def decryptReporting (blob : EncryptedBlob) (aad : Aad) (context : Context) :
    Prog String (Option Bytes) := do
  let keyId : KeyId := ⟨blob.keyId⟩
  let record ← (get keyId).mapErr fun _ => "operation failed"
  if record.state.canDecrypt = false then .fail "operation failed"
  else
    let verdict ← ks.evaluateEffective record
    if verdict.any PolicyVerdict.isExpired then .fail "operation failed"
    else
      let version ← Program.ofOption "operation failed" (record.getVersion blob.keyVersion)
      let ciphertext ← Program.ofExcept (fun _ => "operation failed")
        (hexDecode (utf8 blob.ciphertextHex))
      if ciphertext.length < aeadTagBytes then .fail "operation failed"
      else
        let domainId ← (resolveDomainForKey keyId).mapErr fun _ => "operation failed"
        let nonce ← Program.ofExcept (fun _ => "operation failed") (envelopeNonce ciphertext)
        let cacheKey := deriveReplayKey ks.crypto domainId.text blob.keyId blob.keyVersion nonce
          (aeadTag ciphertext)
        let claimed ← replayClaim cacheKey
        match claimed with
        | .ok true => ks.openReporting keyId version domainId ciphertext cacheKey aad context
        | .ok false => .fail "operation failed"
        | .error _ => .fail "operation failed"

variable {ks}

theorem openClaimed_eq (keyId : KeyId) (version : KeyVersion) (domainId : KeyId)
    (ciphertext : Bytes) (cacheKey : Bytes) (aad : Aad) (context : Context) :
    ks.openClaimed keyId version domainId ciphertext cacheKey aad context =
      ks.openReporting keyId version domainId ciphertext cacheKey aad context >>=
        Program.ofOption "operation failed" := by
  rw [openReporting, bind_assoc, openClaimed]
  refine bind_congr fun unwrapped => ?_
  cases unwrapped with
  | error problem => rfl
  | ok skBytes =>
      dsimp only
      cases SecretKey.fromBytes ks.crypto skBytes with
      | error problem => rfl
      | ok key =>
          dsimp only
          cases Envelope.open ks.crypto key ciphertext (domainBoundAad domainId aad) context with
          | error problem => rfl
          | ok plaintext => rfl

/-- `decrypt` is the reporting code with the report turned into the error the caller
sees. -/
theorem decrypt_eq (blob : EncryptedBlob) (aad : Aad) (context : Context) :
    ks.decrypt blob aad context =
      (ks.decryptReporting blob aad context >>= Program.ofOption "operation failed").mapErr
        .decrypt := by
  rw [decrypt]
  refine congrArg _ ?_
  rw [decryptReporting, bind_assoc]
  refine bind_congr fun record => ?_
  split
  · rfl
  rw [bind_assoc]
  refine bind_congr fun verdict => ?_
  split
  · rfl
  rw [bind_assoc]
  refine bind_congr fun version => ?_
  rw [bind_assoc]
  refine bind_congr fun ciphertext => ?_
  split
  · rfl
  rw [bind_assoc]
  refine bind_congr fun domainId => ?_
  rw [bind_assoc]
  refine bind_congr fun nonce => ?_
  simp only [openClaimed_eq, replayClaim, call_bind, perform_bind]
  refine congrArg _ (funext fun claimed => ?_)
  rcases claimed with problem | _ | _ <;> rfl

end Keystore

/-- `record_threat_event`, of an event made at this moment. -/
def Monitored.recordThreatEvent (state : Monitored double) (kind : ThreatEventKind)
    (severity : double.Value) : Monitored double :=
  { state with
    threat := state.threat.recordEvent (.new kind severity state.world.now) state.world.now }

/-- The end of a decryption: an envelope that did not open is an event of severity 3.0. -/
def settleReport : Outcome String (Option Bytes) × Monitored double →
    Outcome CallError CallValue × Monitored double
  | (.ok (some plaintext), state) => (.ok (.plaintext plaintext), state)
  | (.ok none, state) =>
      (.err (.decrypt "operation failed"),
        state.recordThreatEvent .decryptionFailure (double.nearest 3))
  | (.err error, state) => (.err (.decrypt error), state)
  | (.aborted why, state) => (.aborted why, state)

/-- Play a call alone on a monitored keystore. -/
def Call.runMonitored (ks : Keystore) (env : Env) (call : Call) (state : Monitored double) :
    Outcome CallError CallValue × Monitored double :=
  match call with
  | .decrypt blob aad context =>
      settleReport ((ks.decryptReporting blob aad context).run (handleMonitored env) state)
  | call => (call.prog ks (state.world.keys.entries.length + 1)).run (handleMonitored env) state

/-- A call on a monitored keystore is the call of the code, and an event if it reports one. -/
theorem Call.runMonitored_eq (ks : Keystore) (env : Env) (call : Call) (state : Monitored double) :
    let played := (call.prog ks (state.world.keys.entries.length + 1)).run (handleMonitored env) state
    (call.runMonitored ks env state).1 = played.1 ∧
      (call.runMonitored ks env state).2.world = played.2.world := by
  cases call with
  | decrypt blob aad context =>
      simp only [runMonitored, prog, Keystore.decrypt_eq, run_bind, run_mapErr]
      rcases (ks.decryptReporting blob aad context).run (handleMonitored env) state with
        ⟨(_ | plaintext) | error | why, after⟩
      · exact ⟨rfl, rfl⟩
      · exact ⟨rfl, rfl⟩
      · exact ⟨rfl, rfl⟩
      · exact ⟨rfl, rfl⟩
  | _ => exact ⟨rfl, rfl⟩

/-- What is done to a monitored keystore. -/
inductive Action (double : DoubleArithmetic) where
  | call (call : Call)
  | threatLevel
  | recordThreatEvent (kind : ThreatEventKind) (severity : double.Value)
  | recordThreatEvents (events : List (ThreatEvent double))
  | resetThreatState

/-- One step of a run. -/
structure MonitoredStep (double : DoubleArithmetic) where
  now : Nat
  env : Env
  action : Action double

/-- The state in which a step is played. -/
def Monitored.at (state : Monitored double) (now : Nat) : Monitored double :=
  { state with world := { state.world with now := now } }

/-- What an action leaves. -/
def Action.play (ks : Keystore) (env : Env) (state : Monitored double) :
    Action double → Monitored double
  | .call request => (request.runMonitored ks env state).2
  | .threatLevel => { state with threat := (state.threat.readLevel state.world.now).2 }
  | .recordThreatEvent kind severity => state.recordThreatEvent kind severity
  | .recordThreatEvents events =>
      { state with threat := state.threat.recordEvents events state.world.now }
  | .resetThreatState => { state with threat := state.threat.reset }

/-- What a step leaves. -/
def MonitoredStep.play (ks : Keystore) (step : MonitoredStep double) (state : Monitored double) :
    Monitored double :=
  step.action.play ks step.env (state.at step.now)

end Citadel
