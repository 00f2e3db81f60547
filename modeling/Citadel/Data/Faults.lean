import Citadel.Data.Disk

/-!
# Calls on files that fail

A call that means something can fail all the same: the disk is full, or does not answer. It then
leaves the disk as it was, except that a write may have put down some of its bytes.
-/

namespace Citadel

/-- How a call fails: its error, and the number of bytes that a write put down before. -/
structure Fault where
  written : Nat
  error : String
  deriving DecidableEq, Repr

namespace Disk

open Method

variable {ε α : Type} {disk : Disk} {path : String} {location : Location}

/-- A call that does nothing when it fails. -/
def attempt (fault : Option Fault) (call : Method Disk String α) : Method Disk String α :=
  match fault with
  | some fault => throw fault.error
  | none => call

/-- `Path::exists` takes a failure for an absence. -/
def testExists (fault : Option Fault) (path : String) : Method Disk ε Bool :=
  match fault with
  | some _ => return false
  | none => pathExists path

/-- The length that `fs::metadata` reports; a directory has one too. -/
def metadataLen (path : String) : Method Disk String Nat := do
  let location ← follow path
  let disk ← get
  if location ∈ disk.system.dirs then return 4096
  else do
    let file ← openFile location
    return file.content.length

/-- `write_all` into a file that was just truncated. -/
def writeAll (fault : Option Fault) (path : String) (data : Bytes) : Method Disk String Unit :=
  match fault with
  | some fault => do
      write path (data.take fault.written)
      throw fault.error
  | none => write path data

theorem play_attempt_none (call : Method Disk String α) :
    (attempt none call).play disk = call.play disk := rfl

/-- A call succeeds when no fault hits it and it succeeds without one. -/
theorem play_attempt_eq_ok {fault : Option Fault} {call : Method Disk String α} {later : Disk}
    {value : α} : (attempt fault call).play disk = (.ok value, later) ↔
      fault = none ∧ call.play disk = (.ok value, later) := by
  cases fault with
  | none => simp [attempt]
  | some fault => simp [attempt]

theorem play_metadataLen {file : File} (leads : disk.system.locate path = some location)
    (flat : location ∉ disk.system.dirs)
    (isFile : disk.system.files.find? location = some file) :
    (metadataLen path).play disk = (.ok file.content.length, disk.touching location) := by
  unfold metadataLen
  rw [play_bind_of_ok (play_follow leads), play_get_bind, if_neg flat,
    play_bind_of_ok (play_openFile flat isFile)]
  rfl

/-- A write that is hit leaves a prefix. -/
theorem play_writeAll_some {data : Bytes} {fault : Fault}
    (leads : disk.system.locate path = some location) (flat : location ∉ disk.system.dirs) :
    (writeAll (some fault) path data).play disk = (.error fault.error,
      (⟨disk.system.store ⟨location, data.take fault.written⟩, disk.touched⟩ : Disk).touching
        location) := by
  unfold writeAll
  rw [play_bind_of_ok (play_write leads flat)]
  rfl

/-- A write succeeds only when it is not hit. -/
theorem play_writeAll_eq_ok {fault : Option Fault} {data : Bytes} {later : Disk} {value : Unit} :
    (writeAll fault path data).play disk = (.ok value, later) ↔
      fault = none ∧ (write path data).play disk = (.ok value, later) := by
  cases fault with
  | none => simp [writeAll]
  | some fault =>
      unfold writeAll
      rw [play_bind_eq_ok]
      constructor
      · rintro ⟨_, _, -, wrong⟩
        cases wrong
      · rintro ⟨wrong, -⟩
        cases wrong

/-- A write that succeeded went to a place that is no directory. -/
theorem play_write_eq_ok {data : Bytes} {later : Disk} {value : Unit} :
    (write path data).play disk = (.ok value, later) ↔
      ∃ location, disk.system.locate path = some location ∧ location ∉ disk.system.dirs ∧
        later = (⟨disk.system.store ⟨location, data⟩, disk.touched⟩ : Disk).touching location := by
  constructor
  · intro written
    cases leads : disk.system.locate path with
    | none => simp [write, follow, leads] at written
    | some location =>
        by_cases flat : location ∈ disk.system.dirs
        · simp [write, follow, leads, flat] at written
        · rw [play_write leads flat] at written
          cases written
          exact ⟨location, rfl, flat, rfl⟩
  · rintro ⟨location, leads, flat, rfl⟩
    exact play_write leads flat

/-- What a write leaves, whether it succeeds or not. -/
theorem play_write_system (path : String) (data : Bytes) (disk : Disk) :
    ((write path data).play disk).2.system = disk.system ∨
      ∃ location, disk.system.locate path = some location ∧
        ((write path data).play disk).2.system = disk.system.store ⟨location, data⟩ := by
  cases leads : disk.system.locate path with
  | none =>
      left
      simp [write, follow, leads]
  | some location =>
      by_cases flat : location ∈ disk.system.dirs
      · left
        simp [write, follow, leads, flat]
      · right
        rw [play_write leads flat]
        exact ⟨location, rfl, rfl⟩

/-- A path leads elsewhere than to a location, where nothing has changed. -/
structure Apart (path : String) (location : Location) (system : FileSystem) (disk : Disk) :
    Prop where
  elsewhere : system.locate path ≠ some location
  same : disk.system = { system with files := disk.system.files }
  kept : disk.system.files.find? location = system.files.find? location

section Apart

variable {system : FileSystem}

theorem Apart.locate (apart : Apart path location system disk) :
    disk.system.locate = system.locate := by
  rw [apart.same]
  rfl

theorem Apart.dirs (apart : Apart path location system disk) : disk.system.dirs = system.dirs := by
  rw [apart.same]

/-- Writing to the path leaves the location as it was. -/
theorem Apart.write (apart : Apart path location system disk) (data : Bytes) :
    Apart path location system ((write path data).play disk).2 := by
  rcases play_write_system path data disk with same | ⟨other, leads, same⟩
  · constructor
    · exact apart.elsewhere
    · rw [same]
      exact apart.same
    · rw [same]
      exact apart.kept
  · rw [apart.locate] at leads
    constructor
    · exact apart.elsewhere
    · rw [same, FileSystem.store, apart.same]
    · rw [same, FileSystem.find?_store, if_neg]
      · exact apart.kept
      · rintro rfl
        exact apart.elsewhere leads

/-- The file there reads as before. -/
theorem Apart.readToString {other : String} (apart : Apart path location system disk)
    (leads : system.locate other = some location) :
    ((readToString other).play ⟨disk.system, []⟩).1 = ((readToString other).play ⟨system, []⟩).1 := by
  have leadsNow : (⟨disk.system, []⟩ : Disk).system.locate other = some location :=
    (congrFun apart.locate other).trans leads
  have leadsThen : (⟨system, []⟩ : Disk).system.locate other = some location := leads
  unfold Disk.readToString
  rw [play_bind_of_ok (play_follow leadsNow), play_bind_of_ok (play_follow leadsThen)]
  by_cases isDir : location ∈ system.dirs
  · simp [openFile, apart.dirs, isDir]
  · have flat : location ∉ (⟨disk.system, []⟩ : Disk).system.dirs := apart.dirs ▸ isDir
    have flatThen : location ∉ (⟨system, []⟩ : Disk).system.dirs := isDir
    cases isFile : system.files.find? location with
    | none => simp [openFile, flat, isDir, apart.kept, isFile]
    | some file =>
        have isFileNow : (⟨disk.system, []⟩ : Disk).system.files.find? location = some file :=
          apart.kept.trans isFile
        have isFileThen : (⟨system, []⟩ : Disk).system.files.find? location = some file := isFile
        rw [play_bind_of_ok (play_openFile flat isFileNow),
          play_bind_of_ok (play_openFile flatThen isFileThen)]
        cases decodeUtf8 file.content with
        | none => rfl
        | some text => rfl

theorem Apart.attempt {call : Method Disk String α} (apart : Apart path location system disk)
    (keeps : Apart path location system (call.play disk).2) (fault : Option Fault) :
    Apart path location system ((attempt fault call).play disk).2 := by
  cases fault with
  | none => exact keeps
  | some fault => exact apart

theorem Apart.writeAll (apart : Apart path location system disk) (fault : Option Fault)
    (data : Bytes) : Apart path location system ((writeAll fault path data).play disk).2 := by
  cases fault with
  | none => exact apart.write data
  | some fault =>
      have kept := apart.write (data.take fault.written)
      unfold Disk.writeAll
      rw [play_bind]
      split
      · rename_i ran
        rw [ran] at kept
        exact kept
      · rename_i ran
        rw [ran] at kept
        exact kept

theorem play_follow_eq_ok {later : Disk} :
    (follow path).play disk = (.ok location, later) ↔
      disk.system.locate path = some location ∧ later = disk := by
  cases leads : disk.system.locate path with
  | none => simp [follow, leads]
  | some other =>
      rw [play_follow leads]
      constructor
      · intro same
        cases same
        exact ⟨rfl, rfl⟩
      · rintro ⟨same, rfl⟩
        cases same
        rfl

theorem play_openFile_system (location : Location) (disk : Disk) :
    ((openFile location).play disk).2.system = disk.system := by
  by_cases flat : location ∈ disk.system.dirs
  · simp [openFile, flat]
  · cases isFile : disk.system.files.find? location with
    | none => simp [openFile, flat, isFile]
    | some file =>
        rw [play_openFile flat isFile]
        rfl

/-- A rename that succeeded went to a place that is no directory. -/
theorem place_of_rename {source target : String} {later : Disk} {value : Unit}
    (renamed : (rename source target).play disk = (.ok value, later)) :
    ∃ destination, disk.system.locate target = some destination ∧
      destination ∉ disk.system.dirs := by
  unfold rename at renamed
  obtain ⟨start, _, followed, followingTo⟩ := play_bind_eq_ok.mp renamed
  obtain ⟨-, rfl⟩ := play_follow_eq_ok.mp followed
  obtain ⟨destination, _, followedTo, opening⟩ := play_bind_eq_ok.mp followingTo
  obtain ⟨leadsTo, rfl⟩ := play_follow_eq_ok.mp followedTo
  obtain ⟨file, last, opened, storing⟩ := play_bind_eq_ok.mp opening
  have kept := congrArg (fun ended => ended.2.system.dirs) opened
  simp only [play_openFile_system] at kept
  refine ⟨destination, leadsTo, fun isDir => ?_⟩
  rw [play_get_bind, if_pos (kept ▸ isDir)] at storing
  cases storing

/-- A rename that fails has renamed nothing. -/
theorem play_rename_error {source target error : String}
    (failed : ((rename source target).play disk).1 = .error error) :
    ((rename source target).play disk).2.system = disk.system := by
  cases leads : disk.system.locate source with
  | none => simp [rename, follow, leads]
  | some location =>
      cases leadsTo : disk.system.locate target with
      | none =>
          unfold rename
          rw [play_bind_of_ok (play_follow leads)]
          simp [follow, leadsTo]
      | some destination =>
          unfold rename at failed ⊢
          rw [play_bind_of_ok (play_follow leads), play_bind_of_ok (play_follow leadsTo)] at failed ⊢
          by_cases flat : location ∈ disk.system.dirs
          · simp [openFile, flat]
          · cases isFile : disk.system.files.find? location with
            | none => simp [openFile, flat, isFile]
            | some file =>
                rw [play_bind_of_ok (play_openFile flat isFile)] at failed ⊢
                by_cases flatTo : destination ∈ disk.system.dirs
                · simp [touching, flatTo]
                · simp only [play_get_bind, touching, if_neg flatTo, play_modify_bind] at failed
                  cases failed

end Apart

end Disk

end Citadel
