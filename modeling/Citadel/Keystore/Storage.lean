import Citadel.Data.Table
import Citadel.Envelope.Sdk
import Citadel.Keystore.ReplayStore
import Citadel.Program.Interleaving

/-!
# What the keystore acts on

`Op` lists every effect of the keystore's code: the calls of its storage backend
and replay store, the clock, the threat level, the process environment and the
random source. `World` is the state those calls act on and `Env` everything else
that decides their answers: which storage calls fail, in which order a listing
comes back, what is drawn at random. `handle` plays one operation; the sequential
reading plays a whole call in one `Env`, the interleaved one (`sharedWorld`) picks
a new `Env` for every operation.

Audit records and threat events are write-only for this code and are left out:
the threat level is whatever the `Env` says.
-/

namespace Citadel

open Envelope

/-- What one call may draw from the system's random source. -/
structure Randomness where
  keyId : SizedBytes 16
  keypair : KeygenSeed
  wrapNonce : SizedBytes 12
  sealing : SealCoins EncapsulationCoins
  signingSeed : SizedBytes 32

/-- The environment variables the keystore reads. -/
structure ProcessEnv where
  /-- `CITADEL_ALLOW_PLAINTEXT_KEYS` is `1`. -/
  allowPlaintextKeys : Bool
  /-- `CITADEL_ALLOW_FLAT_DEKS` is `1`. -/
  allowFlatDeks : Bool
  /-- `CITADEL_ENV` is `development`. -/
  development : Bool
  deriving DecidableEq, Repr

/-- Plaintext storage needs both of its variables. -/
def ProcessEnv.devMode (process : ProcessEnv) : Bool :=
  process.allowPlaintextKeys && process.development

/-- The flat-hierarchy override needs both of its variables. -/
def ProcessEnv.flatOverride (process : ProcessEnv) : Bool :=
  process.allowFlatDeks && process.development

/-- The effects of the keystore's code. -/
inductive Op where
  | get (id : KeyId)
  | put (record : KeyMetadata)
  | overwriteKeyFile (id : KeyId)
  | listByState (state : KeyState)
  | listByParent (parentId : KeyId)
  | claim (key : Bytes)
  | release (key : Bytes)
  | utcNow
  | currentThreatLevel
  | processEnv
  | osRng

/-- The type of the answer to an operation. -/
@[reducible] def Op.Ret : Op → Type
  | .get _ => Except KeystoreError (Option KeyMetadata)
  | .put _ => Except KeystoreError Unit
  | .overwriteKeyFile _ => Except KeystoreError Unit
  | .listByState _ => Except KeystoreError (List KeyMetadata)
  | .listByParent _ => Except KeystoreError (List KeyMetadata)
  | .claim _ => Except ReplayError Bool
  | .release _ => Except ReplayError Unit
  | .utcNow => Nat
  | .currentThreatLevel => ThreatLevel
  | .processEnv => ProcessEnv
  | .osRng => Randomness

/-- The code of the keystore. -/
abbrev Prog := Program Op Op.Ret

section Effects

variable {ε : Type}

/-- `storage.get`. -/
abbrev storageGet (id : KeyId) : Prog ε (Except KeystoreError (Option KeyMetadata)) :=
  Program.call (Op.get id)

/-- `storage.put`. -/
abbrev storagePut (record : KeyMetadata) : Prog ε (Except KeystoreError Unit) :=
  Program.call (Op.put record)

/-- `storage.overwrite_key_file`. -/
abbrev storageOverwriteKeyFile (id : KeyId) : Prog ε (Except KeystoreError Unit) :=
  Program.call (Op.overwriteKeyFile id)

/-- `storage.list_by_state`. -/
abbrev storageListByState (state : KeyState) : Prog ε (Except KeystoreError (List KeyMetadata)) :=
  Program.call (Op.listByState state)

/-- `storage.list_by_parent`. -/
abbrev storageListByParent (parentId : KeyId) :
    Prog ε (Except KeystoreError (List KeyMetadata)) :=
  Program.call (Op.listByParent parentId)

/-- `replay_cache.claim`. -/
abbrev replayClaim (key : Bytes) : Prog ε (Except ReplayError Bool) :=
  Program.call (Op.claim key)

/-- `replay_cache.release`. -/
abbrev replayRelease (key : Bytes) : Prog ε (Except ReplayError Unit) :=
  Program.call (Op.release key)

/-- `Utc::now`. -/
abbrev utcNow : Prog ε Nat := Program.call Op.utcNow

/-- `current_threat_level`. -/
abbrev currentThreatLevel : Prog ε ThreatLevel := Program.call Op.currentThreatLevel

/-- `std::env::var`. -/
abbrev processEnv : Prog ε ProcessEnv := Program.call Op.processEnv

/-- `OsRng`. -/
abbrev osRng : Prog ε Randomness := Program.call Op.osRng

end Effects

/-- The persisted records. -/
abbrev Keys := Table KeyId KeyMetadata KeyMetadata.id

/-- The state of one keystore: the clock, the records and the replay store. -/
structure World where
  now : Nat
  keys : Keys
  replay : ReplayStore

/-- How a `put` ends: a write can also reach its place and then fail, when the
directory cannot be synced. -/
inductive PutOutcome where
  | stored
  | refused (error : KeystoreError)
  | storedThenFailed (error : KeystoreError)
  deriving DecidableEq, Repr

/-- What decides the answers to a call besides the state. -/
structure Env where
  level : ThreatLevel
  process : ProcessEnv
  randomness : Randomness
  getFault : KeyId → Option KeystoreError
  putOutcome : KeyId → PutOutcome
  overwriteFault : KeyId → Option KeystoreError
  listFault : Option KeystoreError
  /-- The order in which a listing comes back. -/
  order : List KeyMetadata → List KeyMetadata
  order_perm : ∀ records, (order records).Perm records
  flushed : Except ReplayError Unit

/-- Nothing fails. -/
structure Env.Reliable (env : Env) : Prop where
  get : ∀ id, env.getFault id = none
  put : ∀ id, env.putOutcome id = .stored
  overwrite : ∀ id, env.overwriteFault id = none
  list : env.listFault = none
  flush : env.flushed = .ok ()

/-- A `put` that reports an error stored nothing. -/
def Env.AtomicPut (env : Env) : Prop :=
  ∀ id, env.putOutcome id = .stored ∨ ∃ error, env.putOutcome id = .refused error

theorem Env.Reliable.atomicPut {env : Env} (reliable : env.Reliable) : env.AtomicPut :=
  fun id => .inl (reliable.put id)

/-- The answer of a call that may fail. -/
def faulty {α : Type} (fault : Option KeystoreError) (value : α) : Except KeystoreError α :=
  match fault with
  | some error => .error error
  | none => .ok value

/-- A storage answer that is not an error is the stored value. -/
theorem eq_of_faulty_eq_ok {α : Type} {fault : Option KeystoreError} {value answer : α}
    (answered : faulty fault value = .ok answer) : answer = value := by
  cases fault with
  | none =>
      cases answered
      rfl
  | some error => cases answered

/-- The effect of a `put`. -/
def handlePut (outcome : PutOutcome) (record : KeyMetadata) (world : World) :
    Except KeystoreError Unit × World :=
  match outcome with
  | .stored => (.ok (), { world with keys := world.keys.insert record })
  | .refused error => (.error error, world)
  | .storedThenFailed error => (.error error, { world with keys := world.keys.insert record })

/-- Play one operation. Overwriting the key file is the trait's default, which
leaves the stored record alone. -/
def handle (env : Env) : (op : Op) → World → op.Ret × World
  | .get id, world => (faulty (env.getFault id) (world.keys.find? id), world)
  | .put record, world => handlePut (env.putOutcome record.id) record world
  | .overwriteKeyFile id, world => (faulty (env.overwriteFault id) (), world)
  | .listByState state, world =>
      (faulty env.listFault (env.order (world.keys.entries.filter fun record =>
        record.state = state)), world)
  | .listByParent parentId, world =>
      (faulty env.listFault (env.order (world.keys.entries.filter fun record =>
        record.parentId = some parentId)), world)
  | .claim key, world =>
      ((world.replay.claim key world.now env.flushed).1,
        { world with replay := (world.replay.claim key world.now env.flushed).2 })
  | .release key, world =>
      ((world.replay.release key world.now env.flushed).1,
        { world with replay := (world.replay.release key world.now env.flushed).2 })
  | .utcNow, world => (world.now, world)
  | .currentThreatLevel, world => (env.level, world)
  | .processEnv, world => (env.process, world)
  | .osRng, world => (env.randomness, world)

/-- What one operation meets. -/
structure Turn where
  now : Nat
  env : Env

/-- The turns of the operations of a call, in order. -/
abbrev Turns := Nat → Turn

/-- Play one operation in its turn. -/
def handleTurn (op : Op) (state : World × Turns) : op.Ret × (World × Turns) :=
  let (answer, after) := handle (state.2 0).env op { state.1 with now := (state.2 0).now }
  (answer, after, fun position => state.2 (position + 1))

/-- The world seen by concurrent callers: every operation is atomic and may meet
any admitted environment, and the clock only moves forward. -/
@[reducible] def sharedWorld (admits : Env → Prop) : SharedWorld Op Op.Ret where
  State := World
  Answers before op answer after := ∃ env, admits env ∧ handle env op before = (answer, after)
  Drifts before after := ∃ later, before.now ≤ later ∧ after = { before with now := later }

/-- The operations that leave the records and the replay store alone. -/
def Op.Reads : Op → Prop
  | .put _ => False
  | .claim _ => False
  | .release _ => False
  | _ => True

/-- A reading operation leaves the world as it was. -/
theorem handle_of_reads {env : Env} {op : Op} (reads : op.Reads) (world : World) :
    (handle env op world).2 = world := by
  cases op with
  | put record => exact reads.elim
  | claim key => exact reads.elim
  | release key => exact reads.elim
  | _ => rfl

/-- A `put` leaves every other key alone. -/
theorem find?_handlePut_of_ne {outcome : PutOutcome} {record : KeyMetadata} {world : World}
    {id : KeyId} (different : id ≠ record.id) :
    (handlePut outcome record world).2.keys.find? id = world.keys.find? id := by
  cases outcome with
  | stored => exact Table.find?_insert_of_ne _ different
  | refused error => rfl
  | storedThenFailed error => exact Table.find?_insert_of_ne _ different

/-- A listing that came back holds exactly the stored records it was asked for, each
once. -/
theorem listing_spec {env : Env} {world : World} {wanted : KeyMetadata → Bool}
    {listed : List KeyMetadata}
    (answered : faulty env.listFault (env.order (world.keys.entries.filter wanted)) = .ok listed) :
    (listed.map KeyMetadata.id).Nodup ∧ ∀ record, record ∈ listed ↔
      world.keys.find? record.id = some record ∧ wanted record = true := by
  have same := eq_of_faulty_eq_ok answered
  have permuted : listed.Perm (world.keys.entries.filter wanted) := same ▸ env.order_perm _
  constructor
  · have kept : ((world.keys.entries.filter wanted).map KeyMetadata.id).Nodup :=
      world.keys.distinct.sublist (List.filter_sublist.map KeyMetadata.id)
    exact (permuted.map KeyMetadata.id).nodup_iff.mpr kept
  · intro record
    rw [permuted.mem_iff, List.mem_filter, Table.mem_entries_iff]

end Citadel
