import Citadel.Data.Disk
import Citadel.Keystore.KeyFile

/-!
# The storage backends

Both backends answer the same calls. The one in memory looks a record up under its
identifier; the file backend puts the identifier into a path, as it is, and lets the file
system find what the path leads to. Locks and the syncing of files and directories change
nothing that a caller sees and are left out.
-/

namespace Citadel

open Paths

/-- A call of `StorageBackend`. -/
inductive StorageCall where
  | get (id : KeyId)
  | put (record : KeyMetadata)
  | delete (id : KeyId)
  | list
  | listByState (state : KeyState)
  | listByParent (parentId : KeyId)
  deriving DecidableEq, Repr

/-- What a call returns. -/
inductive StorageAnswer where
  | found (record : Option KeyMetadata)
  | done
  | records (records : List KeyMetadata)
  deriving DecidableEq, Repr

namespace InMemoryBackend

/-- `get`. -/
def get (id : KeyId) : Method Keys KeystoreError (Option KeyMetadata) := do
  let keys ← MonadState.get
  return keys.find? id

/-- `put`. -/
def put (record : KeyMetadata) : Method Keys KeystoreError Unit :=
  modify fun keys => keys.insert record

/-- `delete`. -/
def delete (id : KeyId) : Method Keys KeystoreError Unit :=
  modify fun keys => keys.erase id

/-- `list`. -/
def list : Method Keys KeystoreError (List KeyMetadata) := do
  let keys ← MonadState.get
  return keys.entries

/-- `list_by_state`. -/
def listByState (state : KeyState) : Method Keys KeystoreError (List KeyMetadata) := do
  let keys ← MonadState.get
  return keys.entries.filter fun record => record.state = state

/-- `list_by_parent`. -/
def listByParent (parentId : KeyId) : Method Keys KeystoreError (List KeyMetadata) := do
  let keys ← MonadState.get
  return keys.entries.filter fun record => record.parentId = some parentId

/-- A call on the map. -/
def perform : StorageCall → Method Keys KeystoreError StorageAnswer
  | .get id => do return .found (← get id)
  | .put record => do
      put record
      return .done
  | .delete id => do
      delete id
      return .done
  | .list => do return .records (← list)
  | .listByState state => do return .records (← listByState state)
  | .listByParent parentId => do return .records (← listByParent parentId)

end InMemoryBackend

/-- `FileBackend`: the directory it keeps its files in. -/
structure FileBackend where
  dir : String
  deriving DecidableEq, Repr

namespace FileBackend

variable (format : KeyFormat) (backend : FileBackend)

/-- `key_path`. -/
def keyPath (id : KeyId) : String := join backend.dir s!"{id.text}.json"

/-- `read_key_file`. -/
def readKeyFile (path : String) : Method Disk KeystoreError KeyMetadata := do
  let data ← (Disk.readToString path).mapErr fun error => .storageError s!"read: {error}"
  ofExcept ((format.fromStr .deserialize data).mapError fun error =>
    (.storageError s!"parse: {error}" : KeystoreError))

/-- `get`. -/
def get (id : KeyId) : Method Disk KeystoreError (Option KeyMetadata) := do
  let path := backend.keyPath id
  if (← Disk.pathExists path) = false then return none
  else do
    let record ← readKeyFile format path
    return some record

/-- `put`. -/
def put (record : KeyMetadata) : Method Disk KeystoreError Unit := do
  let path := backend.keyPath record.id
  let json ← ofExcept ((format.toStringPretty SecretKeyMaterial.serialize record).mapError
    fun error => (.storageError s!"serialize: {error}" : KeystoreError))
  let tmp := withExtension path "tmp"
  (Disk.write tmp (utf8 json)).mapErr fun error => .storageError s!"write: {error}"
  (Disk.rename tmp path).mapErr fun error => .storageError s!"rename: {error}"

/-- `delete`. -/
def delete (id : KeyId) : Method Disk KeystoreError Unit := do
  let path := backend.keyPath id
  if (← Disk.pathExists path) = false then return ()
  else (Disk.removeFile path).mapErr fun error => .storageError s!"delete: {error}"

/-- The loop of `list` over the entries. -/
def readEntries : List String → Method Disk KeystoreError (List KeyMetadata)
  | [] => return []
  | path :: rest =>
      if extension path = some "json" then do
        let record ← readKeyFile format path
        let records ← readEntries rest
        return record :: records
      else readEntries rest

/-- `list`. -/
def list : Method Disk KeystoreError (List KeyMetadata) := do
  let entries ← (Disk.readDir backend.dir).mapErr fun error => .storageError s!"readdir: {error}"
  readEntries format entries

/-- `list_by_state`. -/
def listByState (state : KeyState) : Method Disk KeystoreError (List KeyMetadata) := do
  let records ← backend.list format
  return records.filter fun record => record.state = state

/-- `list_by_parent`. -/
def listByParent (parentId : KeyId) : Method Disk KeystoreError (List KeyMetadata) := do
  let records ← backend.list format
  return records.filter fun record => record.parentId = some parentId

/-- A call on the files. -/
def perform : StorageCall → Method Disk KeystoreError StorageAnswer
  | .get id => do return .found (← backend.get format id)
  | .put record => do
      backend.put format record
      return .done
  | .delete id => do
      backend.delete id
      return .done
  | .list => do return .records (← backend.list format)
  | .listByState state => do return .records (← backend.listByState format state)
  | .listByParent parentId => do return .records (← backend.listByParent format parentId)

/-- A call by itself: what it returns, and the disk with the locations that it touched. -/
def answer (call : StorageCall) (system : FileSystem) :
    Except KeystoreError StorageAnswer × Disk :=
  (backend.perform format call).play ⟨system, []⟩

end FileBackend

/-- The answer of the backend in memory, and the map that it leaves. -/
def InMemoryBackend.answer (call : StorageCall) (keys : Keys) :
    Except KeystoreError StorageAnswer × Keys :=
  (InMemoryBackend.perform call).play keys

end Citadel
