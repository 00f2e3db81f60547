import Citadel.Data.TextLines
import Citadel.Data.HashChain

/-!
# The audit log

`IntegrityChainSink` numbers the events of one process and links each to the hash of the
line before it; `FileAuditSink` appends the lines to a file that outlives the process.
`cmd_verify_chain` reads the file back.

What becomes of an event besides its chain fields is settled by the serialization, so the
other fields are a parameter. `LogFormat` is what the code takes from its libraries.
-/

namespace Citadel.Audit

/-- `serde_json::Number`. -/
inductive Number where
  | posInt (value : UInt64)
  | negInt (value : Int64)
  | float (bits : UInt64)
  deriving DecidableEq, Repr

/-- `serde_json::Value`. -/
inductive Value where
  | null
  | bool (value : Bool)
  | number (value : Number)
  | string (value : String)
  | array (items : List Value)
  | object (fields : List (String × Value))

namespace Value

/-- `Value::get` with the name of a field. -/
def get (key : String) : Value → Option Value
  | .object fields => fields.lookup key
  | _ => none

/-- `Value::as_u64`. -/
def asU64 : Value → Option Nat
  | .number (.posInt value) => some value.toNat
  | _ => none

/-- `Value::as_str`. -/
def asStr : Value → Option String
  | .string value => some value
  | _ => none

end Value

/-- `AuditEvent`: the chain fields, and all the others. -/
structure AuditEvent (Body : Type) where
  body : Body
  sequence : Option Nat
  prevHash : Option String
  deriving DecidableEq, Repr

/-- `serde_json::to_string` for an event, `serde_json::from_str` and `Sha256::digest`. -/
structure LogFormat (Body : Type) where
  serialize : AuditEvent Body → String
  parse : String → Option Value
  sha256 : Bytes → SizedBytes 32

/-- What the genesis hash is the hash of. -/
def genesisText : String := "citadel-audit-genesis"

/-- The event has a number and the hash of a predecessor. -/
structure Stamp {Body : Type} (event : AuditEvent Body) : Prop where
  sequence : ∃ sequence, sequence < 2 ^ 64 ∧ event.sequence = some sequence
  prevHash : ∃ digest : SizedBytes 32, event.prevHash = some (hexEncode digest.1)

/-- What the code relies on: a stamped event becomes one line of JSON and is read back
with its stamp, and the text behind the genesis hash is not JSON. -/
structure LogFormat.Lawful {Body : Type} (format : LogFormat Body) : Prop where
  fields : ∀ event, Stamp event → ∃ value, format.parse (format.serialize event) = some value ∧
    (value.get "sequence").bind Value.asU64 = event.sequence ∧
    (value.get "prev_hash").bind Value.asStr = event.prevHash
  braced : ∀ event, Stamp event →
    ∃ inner, format.serialize event = "\x7b" ++ inner ++ "\x7d"
  oneLine : ∀ event, Stamp event → '\n' ∉ (format.serialize event).toList
  genesis : format.parse genesisText = none

namespace LogFormat

variable {Body : Type} (format : LogFormat Body)

/-- A digest as the log shows it. -/
def hash (text : String) : String :=
  hexEncode (format.sha256 (utf8 text)).1

/-- The hash before the first event. -/
def genesis : String :=
  format.hash genesisText

end LogFormat

/-- `ChainState`. The sequence number is 64-bit. -/
structure ChainState where
  sequence : Nat
  prevHash : String
  deriving DecidableEq, Repr

namespace ChainState

variable {Body : Type} (format : LogFormat Body)

/-- The state of a sink that was just made (`IntegrityChainSink::new`). -/
def new : ChainState := ⟨0, format.genesis⟩

/-- What `IntegrityChainSink::record` does while it holds the lock: stamp the event and
move the chain on. -/
def link (state : ChainState) (event : AuditEvent Body) : AuditEvent Body × ChainState :=
  let stamped := { event with sequence := some state.sequence, prevHash := some state.prevHash }
  (stamped, ⟨(state.sequence + 1) % 2 ^ 64, format.hash (format.serialize stamped)⟩)

end ChainState

section Sinks

variable {Body : Type} (format : LogFormat Body)

/-- `FileAuditSink::record`, for a file that can be opened and written. The first line
creates the file. -/
def FileAuditSink.record (file : Option Bytes) (event : AuditEvent Body) : Option Bytes :=
  some (file.getD [] ++ utf8 (format.serialize event) ++ [10])

/-- `IntegrityChainSink::record` over a `FileAuditSink`. -/
def IntegrityChainSink.record (state : ChainState) (file : Option Bytes)
    (event : AuditEvent Body) : ChainState × Option Bytes :=
  let (stamped, next) := state.link format event
  (next, FileAuditSink.record format file stamped)

/-- One sink records events one after another. -/
def recordAll (state : ChainState) (file : Option Bytes) :
    List (AuditEvent Body) → ChainState × Option Bytes
  | [] => (state, file)
  | event :: rest =>
      let (next, written) := IntegrityChainSink.record format state file event
      recordAll next written rest

/-- A process opens the log through a sink of its own (`open_keystore`, `create_keystore`)
and records events. -/
def processRun (file : Option Bytes) (events : List (AuditEvent Body)) : Option Bytes :=
  (recordAll format (.new format) file events).2

/-- The log after a sequence of processes. -/
def afterRuns (runs : List (List (AuditEvent Body))) : Option Bytes :=
  runs.foldl (processRun format) none

end Sinks

/-- `&text[..count]`; it panics inside of a character. -/
def slice (text : String) (count : Nat) : Option String :=
  decodeUtf8 ((utf8 text).take count)

/-- What `cmd_verify_chain` prints. -/
inductive Report where
  | notFound
  | empty
  | invalidJson (event verified : Nat)
  | broken (event : Nat) (sequence : Option Nat) (expected got : String) (verified : Nat)
  | panicked
  | intact (verified : Nat) (lastHash : String)
  deriving DecidableEq, Repr

/-- The exit code of `cmd_verify_chain`. A panic ends the process with 101. -/
def Report.exitCode : Report → Nat
  | .notFound => 1
  | .empty => 0
  | .invalidJson _ _ => 1
  | .broken _ _ _ _ _ => 1
  | .panicked => 101
  | .intact _ _ => 0

/-- The log is taken for untampered. -/
def Report.Accepts (report : Report) : Prop :=
  report.exitCode = 0

instance (report : Report) : Decidable report.Accepts :=
  inferInstanceAs (Decidable (report.exitCode = 0))

section Verification

variable {Body : Type} (format : LogFormat Body)

/-- The chain fields of a line; an event without a predecessor hash has an empty one. -/
def chainFields (event : Value) : Option Nat × String :=
  ((event.get "sequence").bind Value.asU64, ((event.get "prev_hash").bind Value.asStr).getD "")

/-- The loop of `cmd_verify_chain`. Lines without chain fields are counted and passed
over: they may be older than the chain. -/
def verifyFrom (index : Nat) (expectedPrev : String) (verified : Nat) : List String → Report
  | [] =>
      match slice expectedPrev 16 with
      | some digits => .intact verified digits
      | none => .panicked
  | line :: rest =>
      match format.parse line with
      | none => .invalidJson (index + 1) verified
      | some event =>
          let (seq, prevHash) := chainFields event
          if seq.isNone ∨ prevHash.isEmpty then
            verifyFrom (index + 1) expectedPrev (verified + 1) rest
          else if prevHash ≠ expectedPrev then
            match slice expectedPrev 8, slice prevHash (min 8 prevHash.utf8ByteSize) with
            | some expected, some got => .broken (index + 1) seq expected got verified
            | _, _ => .panicked
          else verifyFrom (index + 1) (format.hash line) (verified + 1) rest

/-- The events that `cmd_verify_chain` sees in a file. -/
def eventLines (file : Bytes) : List String :=
  (readable file).filter fun line => ¬ isBlank line

/-- `cmd_verify_chain`. -/
def cmdVerifyChain (file : Option Bytes) : Report :=
  match file with
  | none => .notFound
  | some file =>
      if (eventLines file).isEmpty then .empty
      else verifyFrom format 0 format.genesis 0 (eventLines file)

end Verification

end Citadel.Audit
