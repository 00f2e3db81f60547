import Citadel.Keystore.BackendRefinement
import Citadel.Keystore.FaultyBackend

/-!
# Destructions that fail halfway

A destruction overwrites the live file with zeros, writes the new record beside it and renames
that over it. Until the live file is opened for writing nothing has changed. From there on a
failure leaves a file of zeros, which is no record, and after the renaming it leaves the
destroyed record.
-/

namespace Citadel

open Envelope Paths Method Program FileBackend

/-! ### Which operations fail -/

namespace Faults

variable (faults : Faults)

/-- The record is read. -/
def Reads : Prop := faults .getExists = none ∧ faults .getRead = none

/-- The live file is opened for overwriting. -/
def Opens : Prop := faults .overwriteMetadata = none ∧ faults .overwriteOpen = none

/-- An overwriting that was begun is finished. -/
def Finishes : Prop :=
  faults .overwriteWrite = none ∧ faults .overwriteSync = none ∧
    faults .overwriteOpenDir = none ∧ faults .overwriteSyncDir = none

/-- The new record is renamed over the live file. -/
def Renames : Prop :=
  faults .putOpen = none ∧ faults .putWrite = none ∧ faults .putSync = none ∧
    faults .putRename = none

/-- The renaming is synced. -/
def Syncs : Prop := faults .putOpenDir = none ∧ faults .putSyncDir = none

/-- Nothing fails once the live file has been opened for overwriting, nor, if the overwriting was
skipped, once the new record has been renamed over it. -/
def Spares : Prop :=
  faults.Reads →
    (faults .overwriteExists = none → faults.Opens →
      faults.Finishes ∧ faults.Renames ∧ faults.Syncs) ∧
    (faults .overwriteExists ≠ none → faults.Renames → faults.Syncs)

end Faults

/-! ### The files of one key -/

/-- What the live file of a key holds, if it is there. -/
def liveContent (home : Location) (id : KeyId) (system : FileSystem) : Option Bytes :=
  (system.files.find? (fileOf home id "json")).map File.content

theorem find?_of_liveContent {home : Location} {id : KeyId} {system : FileSystem} {content : Bytes}
    (live : liveContent home id system = some content) :
    system.files.find? (fileOf home id "json") = some ⟨fileOf home id "json", content⟩ := by
  obtain ⟨file, isFile, rfl⟩ := Option.map_eq_some_iff.mp live
  rw [isFile, ← Table.key_of_find? isFile]

/-- Only the files of one key differ, and its live file holds these bytes. -/
structure Leaves (home : Location) (id : KeyId) (content : Option Bytes)
    (system later : FileSystem) : Prop where
  same : later = { system with files := later.files }
  others : ∀ location, location ≠ fileOf home id "json" → location ≠ fileOf home id "tmp" →
    later.files.find? location = system.files.find? location
  live : liveContent home id later = content

section Leaves

variable {home : Location} {id : KeyId} {content other : Option Bytes} {bytes : Bytes}
  {system later last : FileSystem} {backend : FileBackend}

theorem Leaves.refl (live : liveContent home id system = content) :
    Leaves home id content system system :=
  ⟨rfl, fun _ _ _ => rfl, live⟩

theorem Leaves.trans (first : Leaves home id content system later)
    (second : Leaves home id other later last) : Leaves home id other system last := by
  constructor
  · have same := second.same
    rw [first.same] at same
    exact same
  · intro location notLive notTmp
    rw [second.others location notLive notTmp, first.others location notLive notTmp]
  · exact second.live

theorem Leaves.locate (leaves : Leaves home id content system later) (path : String) :
    later.locate path = system.locate path := by
  rw [leaves.same]
  rfl

theorem Leaves.dirs (leaves : Leaves home id content system later) : later.dirs = system.dirs := by
  rw [leaves.same]

theorem Leaves.ready (leaves : Leaves home id content system later)
    (ready : backend.Ready home system) : backend.Ready home later := by
  rw [leaves.same]
  exact ⟨ready.leads, ready.isDir, ready.flat, ready.takes⟩

/-- Writing the live file. -/
theorem Leaves.store_live : Leaves home id (some bytes) system
    (system.store ⟨fileOf home id "json", bytes⟩) := by
  constructor
  · rfl
  · intro location notLive notTmp
    rw [FileSystem.find?_store, if_neg notLive]
  · rw [liveContent, FileSystem.find?_store, if_pos rfl]
    rfl

/-- Writing the temporary file. -/
theorem Leaves.store_tmp (bytes : Bytes) (live : liveContent home id system = content) :
    Leaves home id content system (system.store ⟨fileOf home id "tmp", bytes⟩) := by
  constructor
  · rfl
  · intro location notLive notTmp
    rw [FileSystem.find?_store, if_neg notTmp]
  · rw [liveContent, FileSystem.find?_store, if_neg fileOf_json_ne_tmp]
    exact live

/-- Renaming the temporary file over the live one. -/
theorem Leaves.renamed : Leaves home id (some bytes) system
    ((system.remove (fileOf home id "tmp")).store ⟨fileOf home id "json", bytes⟩) := by
  constructor
  · rfl
  · intro location notLive notTmp
    rw [FileSystem.find?_store, if_neg notLive, FileSystem.find?_remove, if_neg notTmp]
  · rw [liveContent, FileSystem.find?_store, if_pos rfl]
    rfl

end Leaves

/-! ### Playing one call -/

section Calls

variable {faults : Faults} {format : KeyFormat} {backend : FileBackend} {home : Location}
  {id own : KeyId} {record : KeyMetadata} {text : String} {disk : Disk} {content : Bytes}

/-- Where a syncing of the directory ends. -/
theorem play_syncDirectory (faults : Faults) (opening syncing : FileOp) (disk : Disk) :
    ∃ result, (FaultyBackend.syncDirectory faults opening syncing).play disk = (result, disk) ∧
      (result = .ok () ↔ faults opening = none ∧ faults syncing = none) := by
  unfold FaultyBackend.syncDirectory
  rw [play_bind, play_mapErr]
  cases opens : faults opening with
  | some fault => exact ⟨_, rfl, by simp⟩
  | none =>
      cases syncs : faults syncing with
      | some fault => exact ⟨_, rfl, by simp [Except.mapError_error]⟩
      | none => exact ⟨_, rfl, by simp [Except.mapError_ok]⟩

/-- Where a restricted writing that is refused ends. -/
theorem play_writeRestricted_of_refused {opening : FileOp} (writing syncing : FileOp)
    (path : String) (data : Bytes) (disk : Disk) (fails : faults opening ≠ none) :
    ∃ error, (FaultyBackend.writeRestricted faults opening writing syncing path data).play disk =
      (.error error, disk) := by
  obtain ⟨fault, fails⟩ := Option.ne_none_iff_exists'.mp fails
  unfold FaultyBackend.writeRestricted
  rw [fails]
  exact ⟨fault.error, rfl⟩

/-- Where a restricted writing ends that has opened its file. -/
theorem play_writeRestricted {opening : FileOp} (writing syncing : FileOp) {path : String}
    {location : Location} (data : Bytes) (leads : disk.system.locate path = some location)
    (flat : location ∉ disk.system.dirs) (opens : faults opening = none) :
    ∃ result written touched,
      (FaultyBackend.writeRestricted faults opening writing syncing path data).play disk =
        (result, ⟨(disk.system.store ⟨location, []⟩).store ⟨location, written⟩, touched⟩) ∧
      (result = .ok () ↔ faults writing = none ∧ faults syncing = none) ∧
      (faults writing = none → written = data) ∧ ∃ count, written = data.take count := by
  have opened : (Disk.write path []).play disk = (.ok (),
      (⟨disk.system.store ⟨location, []⟩, disk.touched⟩ : Disk).touching location) :=
    Disk.play_write leads flat
  have leadsLater : ((⟨disk.system.store ⟨location, []⟩, disk.touched⟩ : Disk).touching
      location).system.locate path = some location := leads
  unfold FaultyBackend.writeRestricted
  rw [opens, play_bind_of_ok ((Disk.play_attempt_none _).trans opened), play_bind]
  cases writes : faults writing with
  | some fault =>
      have failed : (Disk.writeAll (some fault) path data).play _ = _ :=
        Disk.play_writeAll_some leadsLater flat
      rw [failed]
      exact ⟨_, _, _, rfl, by simp, by simp, _, rfl⟩
  | none =>
      have written : (Disk.writeAll none path data).play _ = _ :=
        Disk.play_write leadsLater flat
      rw [written]
      cases syncs : faults syncing with
      | some fault => exact ⟨_, _, _, rfl, by simp, fun _ => rfl, _, List.take_length.symm⟩
      | none => exact ⟨_, _, _, rfl, by simp, fun _ => rfl, _, List.take_length.symm⟩

/-- What an overwriting leaves in the live file. -/
inductive Overwrote (faults : Faults) (before : Bytes) :
    Except KeystoreError Unit → Bytes → Prop where
  | skipped (absent : faults .overwriteExists ≠ none) : Overwrote faults before (.ok ()) before
  | refused {error : KeystoreError} (present : faults .overwriteExists = none)
      (refused : ¬ faults.Opens) : Overwrote faults before (.error error) before
  | broken {error : KeystoreError} (count : Nat) (present : faults .overwriteExists = none)
      (opens : faults.Opens) (broken : ¬ faults.Finishes) :
      Overwrote faults before (.error error) (List.replicate count 0)
  | finished (count : Nat) (present : faults .overwriteExists = none) (opens : faults.Opens)
      (finishes : faults.Finishes) : Overwrote faults before (.ok ()) (List.replicate count 0)

theorem play_overwriteKeyFile (faults : Faults) (ready : backend.Ready home disk.system)
    (leads : disk.system.locate (backend.keyPath id) = some (fileOf home own "json"))
    (holds : liveContent home own disk.system = some content) (filled : content ≠ []) :
    ∃ result written after,
      (FaultyBackend.overwriteKeyFile faults backend id).play disk = (result, after) ∧
        Overwrote faults content result written ∧
        Leaves home own (some written) disk.system after.system := by
  have live := find?_of_liveContent holds
  unfold FaultyBackend.overwriteKeyFile
  cases present : faults .overwriteExists with
  | some fault =>
      exact ⟨_, _, _, rfl, .skipped (present ▸ Option.some_ne_none fault), .refl holds⟩
  | none =>
      have found : disk.system.found (backend.keyPath id) = some (fileOf home own "json") := by
        rw [FileSystem.found_eq_some]
        exact ⟨leads, by simp [FileSystem.occupied, live]⟩
      have tested : (Disk.testExists none (backend.keyPath id) : Method Disk KeystoreError Bool).play
          disk = (.ok true, disk.touching (fileOf home own "json")) :=
        Disk.play_pathExists_of_found found
      rw [play_bind_of_ok tested, if_neg (by decide), play_bind, play_mapErr]
      have unchanged : (disk.touching (fileOf home own "json")).system = disk.system := rfl
      generalize disk.touching (fileOf home own "json") = seen at unchanged
      rw [← unchanged] at ready leads live holds ⊢
      cases measures : faults .overwriteMetadata with
      | some fault =>
          refine ⟨_, _, _, rfl, .refused present ?_, .refl holds⟩
          rintro ⟨none, -⟩
          cases measures.symm.trans none
      | none =>
          have measured : (Disk.metadataLen (backend.keyPath id)).play seen =
              (.ok content.length, seen.touching (fileOf home own "json")) :=
            Disk.play_metadataLen leads (ready.flat _) live
          have long : content.length ≠ 0 := by rwa [Ne, List.length_eq_zero_iff]
          rw [Disk.play_attempt_none, measured]
          simp only [Except.mapError_ok, if_neg long]
          rw [play_bind, play_mapErr]
          have unchanged : (seen.touching (fileOf home own "json")).system = seen.system := rfl
          generalize seen.touching (fileOf home own "json") = measuredDisk at unchanged
          rw [← unchanged] at ready leads live holds ⊢
          cases opens : faults .overwriteOpen with
          | some fault =>
              obtain ⟨error, refused⟩ := play_writeRestricted_of_refused .overwriteWrite
                .overwriteSync (backend.keyPath id) (List.replicate content.length 0) measuredDisk
                (opens ▸ Option.some_ne_none fault)
              rw [refused]
              refine ⟨_, _, _, rfl, .refused present ?_, .refl holds⟩
              rintro ⟨-, none⟩
              cases opens.symm.trans none
          | none =>
              obtain ⟨result, written, touched, played, succeeds, -, count, cut⟩ :=
                play_writeRestricted .overwriteWrite .overwriteSync
                  (List.replicate content.length 0) leads (ready.flat _) opens
              have zeros : written = List.replicate (min count content.length) 0 := by
                rw [cut, List.take_replicate]
              have leaves : Leaves home own (some written) measuredDisk.system
                  ((measuredDisk.system.store ⟨fileOf home own "json", []⟩).store
                    ⟨fileOf home own "json", written⟩) :=
                Leaves.store_live.trans Leaves.store_live
              rw [played]
              cases result with
              | error error =>
                  refine ⟨_, _, _, rfl, zeros ▸ .broken _ present ⟨measures, opens⟩ ?_, leaves⟩
                  rintro ⟨writes, syncs, -⟩
                  cases succeeds.mpr ⟨writes, syncs⟩
              | ok done =>
                  obtain ⟨writes, syncs⟩ := succeeds.mp rfl
                  obtain ⟨result, synced, directory⟩ :=
                    play_syncDirectory faults .overwriteOpenDir .overwriteSyncDir ⟨_, touched⟩
                  refine ⟨_, _, _, synced, ?_, leaves⟩
                  rw [zeros]
                  cases result with
                  | error error =>
                      refine .broken _ present ⟨measures, opens⟩ ?_
                      rintro ⟨-, -, opensDir, syncsDir⟩
                      cases directory.mpr ⟨opensDir, syncsDir⟩
                  | ok done =>
                      obtain ⟨opensDir, syncsDir⟩ := directory.mp rfl
                      exact .finished _ present ⟨measures, opens⟩ ⟨writes, syncs, opensDir, syncsDir⟩

/-- What a storing leaves in the live file. -/
inductive Stored (faults : Faults) (before : Option Bytes) (after : Bytes) :
    Except KeystoreError Unit → Option Bytes → Prop where
  | refused {error : KeystoreError} (refused : ¬ faults.Renames) :
      Stored faults before after (.error error) before
  | unsynced {error : KeystoreError} (renames : faults.Renames) (unsynced : ¬ faults.Syncs) :
      Stored faults before after (.error error) (some after)
  | stored (renames : faults.Renames) (syncs : faults.Syncs) :
      Stored faults before after (.ok ()) (some after)

theorem play_put (faults : Faults) (ready : backend.Ready home disk.system)
    (storable : record.Storable)
    (writes : format.toStringPretty SecretKeyMaterial.serialize record = .ok text) :
    ∃ result written after,
      (FaultyBackend.put faults format backend record).play disk = (result, after) ∧
        Stored faults (liveContent home record.id disk.system) (utf8 text) result written ∧
        Leaves home record.id written disk.system after.system := by
  obtain ⟨leads, leadsTmp⟩ := ready.locate_storable storable
  unfold FaultyBackend.put
  rw [writes]
  simp only [Except.mapError_ok, play_ofExcept_ok_bind]
  rw [play_bind, play_mapErr]
  cases opens : faults .putOpen with
  | some fault =>
      obtain ⟨error, refused⟩ := play_writeRestricted_of_refused .putWrite .putSync
        (withExtension (backend.keyPath record.id) "tmp") (utf8 text) disk
        (opens ▸ Option.some_ne_none fault)
      rw [refused]
      refine ⟨_, _, _, rfl, .refused ?_, .refl rfl⟩
      rintro ⟨none, -⟩
      cases opens.symm.trans none
  | none =>
      obtain ⟨result, written, touched, played, succeeds, whole, -⟩ :=
        play_writeRestricted .putWrite .putSync (utf8 text) leadsTmp (ready.flat _) opens
      have first : Leaves home record.id (liveContent home record.id disk.system) disk.system
          (disk.system.store ⟨fileOf home record.id "tmp", []⟩) := .store_tmp [] rfl
      have leaves := first.trans (Leaves.store_tmp written first.live)
      have ready := leaves.ready ready
      have isTmp : ((disk.system.store ⟨fileOf home record.id "tmp", []⟩).store
          ⟨fileOf home record.id "tmp", written⟩).files.find? (fileOf home record.id "tmp") =
            some ⟨fileOf home record.id "tmp", written⟩ := by
        rw [FileSystem.find?_store, if_pos rfl]
      rw [← leaves.locate] at leads leadsTmp
      rw [played]
      generalize (disk.system.store ⟨fileOf home record.id "tmp", []⟩).store
        ⟨fileOf home record.id "tmp", written⟩ = beside at *
      cases result with
      | error error =>
          refine ⟨_, _, _, rfl, .refused ?_, leaves⟩
          rintro ⟨-, writes, syncs, -⟩
          cases succeeds.mpr ⟨writes, syncs⟩
      | ok done =>
          obtain ⟨writes, syncs⟩ := succeeds.mp rfl
          obtain rfl := whole writes
          simp only [Except.mapError_ok]
          rw [play_bind, play_mapErr]
          cases renames : faults .putRename with
          | some fault =>
              refine ⟨_, _, _, rfl, .refused ?_, leaves⟩
              rintro ⟨-, -, -, none⟩
              cases renames.symm.trans none
          | none =>
              rw [Disk.play_attempt_none, Disk.play_rename leadsTmp leads (ready.flat _)
                (ready.flat _) isTmp]
              obtain ⟨result, synced, directory⟩ :=
                play_syncDirectory faults .putOpenDir .putSyncDir ⟨_, _⟩
              refine ⟨_, _, _, synced, ?_, leaves.trans .renamed⟩
              cases result with
              | error error =>
                  refine .unsynced ⟨opens, writes, syncs, renames⟩ ?_
                  rintro ⟨opensDir, syncsDir⟩
                  cases directory.mpr ⟨opensDir, syncsDir⟩
              | ok done =>
                  obtain ⟨opensDir, syncsDir⟩ := directory.mp rfl
                  exact .stored ⟨opens, writes, syncs, renames⟩ ⟨opensDir, syncsDir⟩

/-- Where a reading ends. It leaves the files as they are. -/
theorem play_get (faults : Faults) (ready : backend.Ready home disk.system)
    (leads : disk.system.locate (backend.keyPath id) = some (fileOf home own "json"))
    (holds : liveContent home own disk.system = some (utf8 text))
    (parses : format.fromStr .deserialize text = .ok record) :
    ∃ result after, (FaultyBackend.get faults format backend id).play disk = (result, after) ∧
      after.system = disk.system ∧
      (faults.Reads → result = .ok (some record)) ∧
      (¬ faults.Reads → result = .ok none ∨ ∃ error, result = .error error) := by
  have live := find?_of_liveContent holds
  unfold FaultyBackend.get
  cases present : faults .getExists with
  | some fault =>
      refine ⟨_, _, rfl, rfl, ?_, fun _ => Or.inl rfl⟩
      rintro ⟨none, -⟩
      cases present.symm.trans none
  | none =>
      have found : disk.system.found (backend.keyPath id) = some (fileOf home own "json") := by
        rw [FileSystem.found_eq_some]
        exact ⟨leads, by simp [FileSystem.occupied, live]⟩
      have tested : (Disk.testExists none (backend.keyPath id) : Method Disk KeystoreError Bool).play
          disk = (.ok true, disk.touching (fileOf home own "json")) :=
        Disk.play_pathExists_of_found found
      rw [play_bind_of_ok tested, if_neg (by decide)]
      cases reads : faults .getRead with
      | some fault =>
          have failed : (FaultyBackend.readKeyFile faults format (backend.keyPath id)).play
              (disk.touching (fileOf home own "json")) =
                (.error (.storageError s!"read: {fault.error}"),
                  disk.touching (fileOf home own "json")) := by
            unfold FaultyBackend.readKeyFile
            rw [reads]
            rfl
          rw [play_bind, failed]
          refine ⟨_, _, rfl, rfl, ?_, fun _ => Or.inr ⟨_, rfl⟩⟩
          rintro ⟨-, none⟩
          cases reads.symm.trans none
      | none =>
          have read : (FaultyBackend.readKeyFile faults format (backend.keyPath id)).play
              (disk.touching (fileOf home own "json")) =
                (.ok record, (disk.touching (fileOf home own "json")).touching
                  (fileOf home own "json")) := by
            unfold FaultyBackend.readKeyFile
            rw [reads]
            exact play_readKeyFile leads (ready.flat _) live parses
          rw [play_bind_of_ok read]
          exact ⟨_, _, rfl, rfl, fun _ => rfl, fun unread => absurd ⟨present, reads⟩ unread⟩

end Calls

/-! ### A whole destruction -/

/-- How a destruction ends, and what it leaves in the live file. -/
inductive DestroyEnded (faults : Faults) (before after : Bytes) :
    Outcome CallError Unit → Bytes → Prop where
  | destroyed (spares : faults.Spares) : DestroyEnded faults before after (.ok ()) after
  | kept {error : CallError} (spares : faults.Spares) :
      DestroyEnded faults before after (.err error) before
  | zeroed {error : CallError} (count : Nat) (harms : ¬ faults.Spares) :
      DestroyEnded faults before after (.err error) (List.replicate count 0)
  | replaced {error : CallError} (harms : ¬ faults.Spares) (unsynced : ¬ faults.Syncs) :
      DestroyEnded faults before after (.err error) after

section Destruction

variable {faults : Faults} {format : KeyFormat} {backend : FileBackend} {env : Env}
  {home : Location} {world : FileWorld} {id : KeyId} {record : KeyMetadata} {text newText : String}

/-- How an outcome of the storage is reported. -/
def reported : Except KeystoreError Unit → Outcome CallError Unit
  | .ok () => .ok ()
  | .error error => .err (.lifecycle error)

/-- What storing leaves after an overwriting that succeeded. -/
theorem Overwrote.ended {before after middle : Bytes} {written : Option Bytes}
    {result : Except KeystoreError Unit} (overwrote : Overwrote faults before (.ok ()) middle)
    (stored : Stored faults (some middle) after result written) (reads : faults.Reads) :
    ∃ bytes, written = some bytes ∧ DestroyEnded faults before after (reported result) bytes := by
  cases overwrote with
  | skipped absent =>
      cases stored with
      | refused refused =>
          refine ⟨_, rfl, .kept ?_⟩
          intro reads
          exact ⟨fun present => absurd present absent, fun _ renames => absurd renames refused⟩
      | unsynced renames unsynced =>
          refine ⟨_, rfl, .replaced ?_ unsynced⟩
          intro spares
          exact unsynced ((spares reads).2 absent renames)
      | stored renames syncs =>
          refine ⟨_, rfl, .destroyed ?_⟩
          intro reads
          exact ⟨fun present => absurd present absent, fun _ _ => syncs⟩
  | finished count present opens finishes =>
      cases stored with
      | refused refused =>
          refine ⟨_, rfl, .zeroed count ?_⟩
          intro spares
          exact refused ((spares reads).1 present opens).2.1
      | unsynced renames unsynced =>
          refine ⟨_, rfl, .replaced ?_ unsynced⟩
          intro spares
          exact unsynced ((spares reads).1 present opens).2.2
      | stored renames syncs =>
          refine ⟨_, rfl, .destroyed ?_⟩
          intro reads
          exact ⟨fun _ _ => ⟨finishes, renames, syncs⟩, fun absent => absurd present absent⟩

/-- What an overwriting that fails leaves. -/
theorem Overwrote.ended_of_error {before after written : Bytes} {error : KeystoreError}
    (overwrote : Overwrote faults before (.error error) written) (reads : faults.Reads) :
    DestroyEnded faults before after (reported (.error error)) written := by
  cases overwrote with
  | refused present refused =>
      apply DestroyEnded.kept
      intro reads
      exact ⟨fun _ opens => absurd opens refused, fun absent => absurd present absent⟩
  | broken count present opens broken =>
      apply DestroyEnded.zeroed count
      intro spares
      exact broken ((spares reads).1 present opens).1

/-- What a destruction of a stored key does. -/
theorem destroy_ends (faults : Faults) (env : Env) (ready : backend.Ready home world.system)
    (leads : world.system.locate (backend.keyPath id) = some (fileOf home record.id "json"))
    (holds : liveContent home record.id world.system = some (utf8 text)) (filled : utf8 text ≠ [])
    (parses : format.fromStr .deserialize text = .ok record)
    (edge : record.state.canTransitionTo .destroyed = true)
    (storable : (Keystore.destroyedRecord record world.now world.now).Storable)
    (writes : format.toStringPretty SecretKeyMaterial.serialize
      (Keystore.destroyedRecord record world.now world.now) = .ok newText) :
    ∃ result written later,
      (Keystore.destroy id).run (fileHandle faults format backend env) world =
        (result, { world with system := later }) ∧
      Leaves home record.id (some written) world.system later ∧
      DestroyEnded faults (utf8 text) (utf8 newText) result written := by
  have seen : (⟨world.system, []⟩ : Disk).system = world.system := rfl
  rw [← seen] at ready leads holds
  obtain ⟨got, after, played, same, reads, unread⟩ := play_get faults ready leads holds parses
  have unchanged : ({ world with system := after.system } : FileWorld) = world := by rw [same]
  have answered : fileHandle faults format backend env (.get id) world = (got, world) := by
    rw [fileHandle, FileWorld.play, played, unchanged]
  rw [Keystore.destroy, run_mapErr, run_bind]
  by_cases isRead : faults.Reads
  · have read : (Keystore.get id).run (fileHandle faults format backend env) world =
        (.ok record, world) := by
      rw [Keystore.get, storageGet, call_bind, run_perform, answered, reads isRead]
      rfl
    obtain ⟨first, middle, overwritten, plays, overwrote, leaves⟩ :=
      play_overwriteKeyFile faults ready leads holds filled
    have overwrites : fileHandle faults format backend env (.overwriteKeyFile id) world =
        (first, { world with system := overwritten.system }) := by
      rw [fileHandle, FileWorld.play, plays]
    rw [read, andThen_ok, if_neg (by simp [edge])]
    -- the clock is read twice and leaves the world alone
    suffices ended : ∃ result written later,
        (storageOverwriteKeyFile id >>= fun overwritten =>
          Program.ofExcept (fun error : KeystoreError => error) overwritten >>= fun _ =>
            storagePut (Keystore.destroyedRecord record world.now world.now) >>= fun stored =>
              Program.ofExcept (fun error : KeystoreError => error) stored).run
            (fileHandle faults format backend env) world =
          (result, { world with system := later }) ∧
        Leaves home record.id (some written) world.system later ∧
        DestroyEnded faults (utf8 text) (utf8 newText) (result.mapErr .lifecycle) written by
      obtain ⟨result, written, later, ran, left, ends⟩ := ended
      refine ⟨_, _, _, ?_, left, ends⟩
      exact congrArg (fun ended : Outcome KeystoreError Unit × FileWorld =>
        (ended.1.mapErr CallError.lifecycle, ended.2)) ran
    rw [storageOverwriteKeyFile, call_bind, run_perform, overwrites]
    cases first with
    | error error => exact ⟨.err error, _, _, rfl, leaves, overwrote.ended_of_error isRead⟩
    | ok done =>
        have ready := leaves.ready ready
        have seen : (⟨overwritten.system, []⟩ : Disk).system = overwritten.system := rfl
        rw [← seen] at ready
        obtain ⟨second, written, stored, plays, ends, left⟩ :=
          play_put faults ready storable writes
        have puts : fileHandle faults format backend env
            (.put (Keystore.destroyedRecord record world.now world.now))
            { world with system := overwritten.system } =
              (second, { world with system := stored.system }) := by
          rw [fileHandle, FileWorld.play, plays]
        have before : liveContent home (Keystore.destroyedRecord record world.now world.now).id
            overwritten.system = some middle := leaves.live
        rw [seen, before] at ends
        obtain ⟨bytes, rfl, ended⟩ := overwrote.ended ends isRead
        change ∃ result written later, (storagePut _ >>= fun stored =>
          Program.ofExcept (fun error : KeystoreError => error) stored).run _ _ = _ ∧ _
        rw [storagePut, call_bind, run_perform, puts]
        cases second with
        | error error => exact ⟨.err error, _, _, rfl, leaves.trans left, ended⟩
        | ok value => exact ⟨.ok (), _, _, rfl, leaves.trans left, ended⟩
  · have failed : ∃ error, (Keystore.get id).run (fileHandle faults format backend env) world =
        (.err error, world) := by
      rw [Keystore.get, storageGet, call_bind, run_perform, answered]
      rcases unread isRead with absent | ⟨error, failed⟩
      · rw [absent]
        exact ⟨_, rfl⟩
      · rw [failed]
        exact ⟨_, rfl⟩
    obtain ⟨error, failed⟩ := failed
    rw [failed]
    exact ⟨_, _, _, rfl, .refl holds, .kept fun reads => absurd reads isRead⟩

end Destruction

end Citadel
