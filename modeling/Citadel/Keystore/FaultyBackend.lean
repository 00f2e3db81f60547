import Citadel.Data.Faults
import Citadel.Keystore.Lifecycle
import Citadel.Keystore.FileBackend

/-!
# The file backend on a disk that fails

The calls of the file backend once more, now with every operation on files that they make, each
of which may fail. `fileHandle` plays the operations of the keystore on such files.
-/

namespace Citadel

open Paths

/-- An operation on files in `get`, `overwrite_key_file` or `put`. -/
inductive FileOp where
  | getExists
  | getRead
  | overwriteExists
  | overwriteMetadata
  | overwriteOpen
  | overwriteWrite
  | overwriteSync
  | overwriteOpenDir
  | overwriteSyncDir
  | putOpen
  | putWrite
  | putSync
  | putRename
  | putOpenDir
  | putSyncDir
  deriving DecidableEq, Repr

/-- Which operations fail, and how. -/
abbrev Faults := FileOp → Option Fault

namespace FaultyBackend

variable (faults : Faults) (format : KeyFormat) (backend : FileBackend)

/-- `write_restricted`. -/
def writeRestricted (opening writing syncing : FileOp) (path : String) (data : Bytes) :
    Method Disk String Unit := do
  Disk.attempt (faults opening) (Disk.write path [])
  Disk.writeAll (faults writing) path data
  Disk.attempt (faults syncing) (pure ())

/-- The directory of a file that is there is opened and synced. -/
def syncDirectory (opening syncing : FileOp) : Method Disk KeystoreError Unit := do
  (Disk.attempt (faults opening) (pure ())).mapErr fun error => .storageError s!"open dir: {error}"
  (Disk.attempt (faults syncing) (pure ())).mapErr fun error => .storageError s!"dir fsync: {error}"

/-- `read_key_file`. -/
def readKeyFile (path : String) : Method Disk KeystoreError KeyMetadata := do
  let data ← (Disk.attempt (faults .getRead) (Disk.readToString path)).mapErr fun error =>
    .storageError s!"read: {error}"
  ofExcept ((format.fromStr .deserialize data).mapError fun error =>
    (.storageError s!"parse: {error}" : KeystoreError))

/-- `get`. -/
def get (id : KeyId) : Method Disk KeystoreError (Option KeyMetadata) := do
  let path := backend.keyPath id
  if (← Disk.testExists (faults .getExists) path) = false then return none
  else do
    let record ← readKeyFile faults format path
    return some record

/-- `overwrite_key_file`. -/
def overwriteKeyFile (id : KeyId) : Method Disk KeystoreError Unit := do
  let path := backend.keyPath id
  if (← Disk.testExists (faults .overwriteExists) path) = false then return ()
  else do
    let length ← (Disk.attempt (faults .overwriteMetadata) (Disk.metadataLen path)).mapErr
      fun error => .storageError s!"metadata: {error}"
    if length = 0 then return ()
    else do
      (writeRestricted faults .overwriteOpen .overwriteWrite .overwriteSync path
        (List.replicate length 0)).mapErr fun error => .storageError s!"overwrite: {error}"
      syncDirectory faults .overwriteOpenDir .overwriteSyncDir

/-- `put`. -/
def put (record : KeyMetadata) : Method Disk KeystoreError Unit := do
  let path := backend.keyPath record.id
  let json ← ofExcept ((format.toStringPretty SecretKeyMaterial.serialize record).mapError
    fun error => (.storageError s!"serialize: {error}" : KeystoreError))
  let tmp := withExtension path "tmp"
  (writeRestricted faults .putOpen .putWrite .putSync tmp (utf8 json)).mapErr
    fun error => .storageError s!"write: {error}"
  (Disk.attempt (faults .putRename) (Disk.rename tmp path)).mapErr
    fun error => .storageError s!"rename: {error}"
  syncDirectory faults .putOpenDir .putSyncDir

end FaultyBackend

/-- What the keystore sees beside its own process: the files, the clock and the replay store. -/
structure FileWorld where
  system : FileSystem
  now : Nat
  replay : ReplayStore

/-- Play a call of the backend. -/
def FileWorld.play {α : Type} (world : FileWorld) (call : Method Disk KeystoreError α) :
    Except KeystoreError α × FileWorld :=
  ((call.play ⟨world.system, []⟩).1,
    { world with system := (call.play ⟨world.system, []⟩).2.system })

/-- Play one operation of the keystore over the file backend. Listings do not fail here. -/
def fileHandle (faults : Faults) (format : KeyFormat) (backend : FileBackend) (env : Env) :
    (op : Op) → FileWorld → op.Ret × FileWorld
  | .get id, world => world.play (FaultyBackend.get faults format backend id)
  | .put record, world => world.play (FaultyBackend.put faults format backend record)
  | .overwriteKeyFile id, world => world.play (FaultyBackend.overwriteKeyFile faults backend id)
  | .listByState state, world => world.play (backend.listByState format state)
  | .listByParent parentId, world => world.play (backend.listByParent format parentId)
  | .claim key, world =>
      ((world.replay.claim key world.now env.flushed).1,
        { world with replay := (world.replay.claim key world.now env.flushed).2 })
  | .release key, world =>
      ((world.replay.release key world.now env.flushed).1,
        { world with replay := (world.replay.release key world.now env.flushed).2 })
  | .utcNow, world => (world.now, world)
  | .currentThreatLevel, world => (env.level, world)
  | .processEnv, world => (env.process, world)
  | .osRng, world => (env.randomness, world)

end Citadel
