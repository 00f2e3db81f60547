import Citadel.Data.Paths
import Citadel.Data.Stateful
import Citadel.Data.Table
import Citadel.Data.TextLines

/-!
# Files on a disk

A path is followed from directory to directory; there are no symbolic links. The calls
on files report what the system would and record every location that they found or left
something at. Nothing fails but a call that cannot mean anything: a path that leads
nowhere, a directory that is opened as a file.
-/

namespace Citadel

open Paths

/-- Where a path leads: the names from the root down. -/
abbrev Location := List String

/-- A file. -/
structure File where
  location : Location
  content : Bytes
  deriving DecidableEq, Repr

/-- What a process sees of the disk. -/
structure FileSystem where
  /-- The working directory. -/
  cwd : Location
  dirs : List Location
  files : Table Location File File.location
  /-- The system looks a path up at all: no name on it is too long. -/
  admits : String → Bool
  /-- Why a path leads nowhere, as the system puts it. -/
  failure : String → String
  /-- The order in which a directory is read. -/
  order : List String → List String
  order_perm : ∀ names, (order names).Perm names

/-- The name of an entry of a directory. -/
def nameIn (home location : Location) : Option String :=
  if location.dropLast = home then location.getLast? else none

/-- The name of an entry is what stands after its directory. -/
theorem nameIn_eq_some {home location : Location} {name : String} :
    nameIn home location = some name ↔ location = home ++ [name] := by
  unfold nameIn
  constructor
  · intro named
    split at named
    · rename_i same
      rw [← same]
      exact (List.dropLast_append_getLast? name named).symm
    · cases named
  · intro same
    simp [same]

/-- Locations in a listing are found by comparing. -/
instance decidableListed (location : Location) (dirs : List Location) :
    Decidable (location ∈ dirs) := inferInstance

namespace FileSystem

variable (system : FileSystem)

/-- Follow one piece of a path from where the pieces before it lead. -/
def enter (current : Location) (piece : String) : Option Location :=
  if current ∉ system.dirs then none
  else if piece = "" ∨ piece = "." then some current
  else if piece = ".." then some current.dropLast
  else some (current ++ [piece])

/-- The location that a path leads to; nothing need be there. -/
def locate (path : String) : Option Location :=
  if path = "" ∨ system.admits path = false then none
  else (pieces path).foldlM system.enter (if isAbsolute path then [] else system.cwd)

/-- Whether there is a file or a directory. -/
def occupied (location : Location) : Bool :=
  decide (location ∈ system.dirs) || (system.files.find? location).isSome

/-- The location of what a path leads to. -/
def found (path : String) : Option Location := (system.locate path).filter system.occupied

/-- The names of the entries of a directory. -/
def namesIn (home : Location) : List String :=
  (system.files.entries.map File.location ++ system.dirs).filterMap (nameIn home)

/-- The system with a file written. -/
def store (file : File) : FileSystem := { system with files := system.files.insert file }

/-- The system with a file removed. -/
def remove (location : Location) : FileSystem :=
  { system with files := system.files.erase location }

@[simp] theorem locate_store (file : File) : (system.store file).locate = system.locate := rfl

@[simp] theorem locate_remove (location : Location) :
    (system.remove location).locate = system.locate := rfl

theorem find?_store (file : File) (location : Location) :
    (system.store file).files.find? location =
      if location = file.location then some file else system.files.find? location :=
  Table.find?_insert system.files file location

theorem find?_remove (removed location : Location) :
    (system.remove removed).files.find? location =
      if location = removed then none else system.files.find? location :=
  Table.find?_erase system.files removed location

variable {system}

theorem enter_name {current : Location} {name : String} (isDir : current ∈ system.dirs)
    (isName : IsName name) : system.enter current name = some (current ++ [name]) := by
  simp [enter, isDir, isName.notEmpty, isName.notHere, isName.notUp]

theorem enter_empty {current : Location} (isDir : current ∈ system.dirs) :
    system.enter current "" = some current := by
  simp [enter, isDir]

/-- Only directories are entered. -/
theorem mem_of_enter {current next : Location} {piece : String}
    (entered : system.enter current piece = some next) : current ∈ system.dirs := by
  by_contra outside
  simp [enter, outside] at entered

/-- The pieces up to the last one lead to a directory. -/
theorem foldlM_enter_name {start location : Location} {before : List String} {name : String}
    (isName : IsName name)
    (leads : (before ++ [name]).foldlM system.enter start = some location) :
    ∃ parent, before.foldlM system.enter start = some parent ∧ parent ∈ system.dirs ∧
      location = parent ++ [name] := by
  rw [List.foldlM_append] at leads
  obtain ⟨parent, first, last⟩ := Option.bind_eq_some_iff.mp leads
  have entered : system.enter parent name = some location := by simpa using last
  have isDir := mem_of_enter entered
  rw [enter_name isDir isName] at entered
  cases entered
  exact ⟨parent, first, isDir, rfl⟩

/-- A path to a name leads into some directory. -/
theorem locate_name {path name : String} {location : Location} {before : List String}
    (leads : system.locate path = some location) (cut : pieces path = before ++ [name])
    (isName : IsName name) : ∃ parent, location = parent ++ [name] := by
  unfold locate at leads
  split at leads
  · cases leads
  · rw [cut] at leads
    obtain ⟨parent, -, -, same⟩ := foldlM_enter_name isName leads
    exact ⟨parent, same⟩

/-- A name behind the path of a directory leads to that entry of the directory. -/
theorem locate_join {path name : String} {home : Location}
    (leads : system.locate path = some home) (isDir : home ∈ system.dirs)
    (isName : IsName name) (admitted : system.admits (join path name) = true) :
    system.locate (join path name) = some (home ++ [name]) := by
  have joined := join_of_isName isName path
  unfold locate at leads ⊢
  split at leads
  · cases leads
  · rename_i usable
    obtain ⟨notEmpty, -⟩ := not_or.mp usable
    have anywhere : ∀ rest, isAbsolute (path ++ rest) = isAbsolute path := by
      intro rest
      cases characters : path.toList with
      | nil => exact absurd (String.toList_injective characters) notEmpty
      | cons first others => simp [isAbsolute, characters]
    have filled : join path name ≠ "" := by
      intro empty
      rw [joined] at empty
      exact isName.notEmpty (by simpa using (String.append_eq_empty_iff.mp empty).2)
    rw [if_neg (by simp [filled, admitted])]
    rw [joined]
    have atEnd : system.enter home name = some (home ++ [name]) := enter_name isDir isName
    unfold withSeparator
    split
    · rename_i already
      have slash := already.resolve_left notEmpty
      obtain ⟨before, same⟩ : ∃ before, path.toList = before ++ ['/'] :=
        ⟨_, (List.dropLast_append_getLast? _ slash).symm⟩
      have cut : pieces path = pieces (String.ofList before) ++ [""] :=
        pieces_append (by simpa using same) (by simp)
      have cutName : pieces (path ++ name) = pieces (String.ofList before) ++ [name] :=
        pieces_append (by simp [same]) isName.whole
      rw [cut, List.foldlM_append] at leads
      obtain ⟨parent, first, last⟩ := Option.bind_eq_some_iff.mp leads
      have entered : system.enter parent "" = some home := by simpa using last
      rw [enter_empty (mem_of_enter entered)] at entered
      cases entered
      rw [cutName, anywhere, List.foldlM_append, first]
      simpa using atEnd
    · have cutName : pieces (path ++ "/" ++ name) = pieces path ++ [name] := by
        have cut : pieces (path ++ "/" ++ name) = pieces (String.ofList path.toList) ++ [name] :=
          pieces_append (by simp) isName.whole
        rwa [String.ofList_toList] at cut
      rw [cutName, String.append_assoc, anywhere, List.foldlM_append, leads]
      simpa using atEnd

/-- A path is found when it leads to something that is there. -/
theorem found_eq_some {path : String} {location : Location} :
    system.found path = some location ↔
      system.locate path = some location ∧ system.occupied location = true :=
  Option.filter_eq_some_iff

/-- The names in a directory are those of what is there. -/
theorem mem_namesIn {home : Location} {name : String} :
    name ∈ system.namesIn home ↔ system.occupied (home ++ [name]) = true := by
  have stored : home ++ [name] ∈ system.files.entries.map File.location ↔
      (system.files.find? (home ++ [name])).isSome = true := by
    rw [Option.isSome_iff_exists]
    constructor
    · intro member
      obtain ⟨file, isFile, same⟩ := List.mem_map.mp member
      exact ⟨file, same ▸ Table.mem_entries_iff.mp isFile⟩
    · rintro ⟨file, isFile⟩
      exact List.mem_map.mpr ⟨file, Table.mem_of_find? isFile, Table.key_of_find? isFile⟩
  unfold namesIn occupied
  rw [List.mem_filterMap, Bool.or_eq_true, decide_eq_true_iff, ← stored, or_comm,
    ← List.mem_append]
  constructor
  · rintro ⟨location, member, named⟩
    rwa [← nameIn_eq_some.mp named]
  · intro member
    exact ⟨_, member, nameIn_eq_some.mpr rfl⟩

/-- No two files of a directory have one name. -/
theorem nodup_namesIn {home : Location} (flat : ∀ name, home ++ [name] ∉ system.dirs) :
    (system.namesIn home).Nodup := by
  have none : system.dirs.filterMap (nameIn home) = [] := by
    rw [List.filterMap_eq_nil_iff]
    intro location member
    cases named : nameIn home location with
    | none => rfl
    | some name => exact absurd (nameIn_eq_some.mp named ▸ member) (flat name)
  rw [namesIn, List.filterMap_append, none, List.append_nil]
  apply List.Nodup.filterMap _ system.files.distinct
  intro left right name leftNamed rightNamed
  rw [Option.mem_def, nameIn_eq_some] at leftNamed rightNamed
  rw [leftNamed, rightNamed]

end FileSystem

/-- A disk and the locations touched so far. -/
structure Disk where
  system : FileSystem
  touched : List Location

namespace Disk

/-- The disk after one more location was touched. -/
def touching (disk : Disk) (location : Location) : Disk :=
  { disk with touched := disk.touched ++ [location] }

section Calls

variable {ε : Type}

/-- The error of an open at which nothing is. -/
def notFound : String := "No such file or directory (os error 2)"

/-- The error of a directory that is not one. -/
def notADirectory : String := "Not a directory (os error 20)"

/-- The error of a file that is a directory. -/
def isADirectory : String := "Is a directory (os error 21)"

/-- The error of a file that is no text. -/
def invalidUtf8 : String := "stream did not contain valid UTF-8"

/-- Record a location. -/
def touch (location : Location) : Method Disk ε Unit :=
  modify fun disk => disk.touching location

/-- The location of a path, or why there is none. -/
def follow (path : String) : Method Disk String Location := do
  let disk ← get
  match disk.system.locate path with
  | none => throw (disk.system.failure path)
  | some location => return location

/-- `Path::exists`. -/
def pathExists (path : String) : Method Disk ε Bool := do
  let disk ← get
  match disk.system.found path with
  | none => return false
  | some location =>
      touch location
      return true

/-- The file at a location. -/
def openFile (location : Location) : Method Disk String File := do
  let disk ← get
  if location ∈ disk.system.dirs then throw isADirectory
  match disk.system.files.find? location with
  | none => throw notFound
  | some file =>
      touch location
      return file

/-- `fs::read_to_string`. -/
def readToString (path : String) : Method Disk String String := do
  let location ← follow path
  let file ← openFile location
  match decodeUtf8 file.content with
  | none => throw invalidUtf8
  | some text => return text

/-- Create a file or replace its content. -/
def write (path : String) (content : Bytes) : Method Disk String Unit := do
  let location ← follow path
  let disk ← get
  if location ∈ disk.system.dirs then throw isADirectory
  modify fun disk => { disk with system := disk.system.store ⟨location, content⟩ }
  touch location

/-- `fs::rename`, of a file. -/
def rename (source target : String) : Method Disk String Unit := do
  let location ← follow source
  let destination ← follow target
  let file ← openFile location
  let disk ← get
  if destination ∈ disk.system.dirs then throw isADirectory
  modify fun disk =>
    { disk with system := (disk.system.remove location).store ⟨destination, file.content⟩ }
  touch destination

/-- `fs::remove_file`. -/
def removeFile (path : String) : Method Disk String Unit := do
  let location ← follow path
  let _file ← openFile location
  modify fun disk => { disk with system := disk.system.remove location }

/-- `fs::read_dir`: the paths of the entries. -/
def readDir (path : String) : Method Disk String (List String) := do
  let location ← follow path
  let disk ← get
  if location ∈ disk.system.dirs then
    touch location
    return (disk.system.order (disk.system.namesIn location)).map (join path)
  else throw (if disk.system.occupied location then notADirectory else notFound)

end Calls

section Rules

open Method

variable {ε : Type} {disk : Disk} {path : String} {location : Location} {file : File}

theorem play_follow (leads : disk.system.locate path = some location) :
    (follow path).play disk = (.ok location, disk) := by
  simp [follow, leads]

theorem play_pathExists_of_vacant (vacant : disk.system.found path = none) :
    (pathExists path : Method Disk ε Bool).play disk = (.ok false, disk) := by
  simp [pathExists, vacant]

theorem play_pathExists_of_found (leads : disk.system.found path = some location) :
    (pathExists path : Method Disk ε Bool).play disk = (.ok true, disk.touching location) := by
  simp [pathExists, leads, touch]
  rfl

theorem play_openFile (flat : location ∉ disk.system.dirs)
    (isFile : disk.system.files.find? location = some file) :
    (openFile location).play disk = (.ok file, disk.touching location) := by
  simp [openFile, flat, isFile, touch]
  rfl

/-- Reading a file of text. -/
theorem play_readToString {text : String} (leads : disk.system.locate path = some location)
    (flat : location ∉ disk.system.dirs)
    (isFile : disk.system.files.find? location = some file)
    (isText : decodeUtf8 file.content = some text) :
    (readToString path).play disk = (.ok text, disk.touching location) := by
  unfold readToString
  rw [play_bind_of_ok (play_follow leads), play_bind_of_ok (play_openFile flat isFile), isText]
  rfl

theorem play_write {content : Bytes} (leads : disk.system.locate path = some location)
    (flat : location ∉ disk.system.dirs) :
    (write path content).play disk =
      (.ok (), (⟨disk.system.store ⟨location, content⟩, disk.touched⟩ : Disk).touching
        location) := by
  unfold write
  rw [play_bind_of_ok (play_follow leads)]
  simp [flat, touch]
  rfl

theorem play_rename {system : FileSystem} {touched : List Location} {source : String}
    {destination : Location} {content : Bytes} (leads : system.locate source = some location)
    (leadsTo : system.locate path = some destination) (flat : location ∉ system.dirs)
    (flatTo : destination ∉ system.dirs)
    (isFile : system.files.find? location = some ⟨location, content⟩) :
    (rename source path).play ⟨system, touched⟩ =
      (.ok (), ⟨(system.remove location).store ⟨destination, content⟩,
        touched ++ [location, destination]⟩) := by
  have followed : (follow source).play ⟨system, touched⟩ = (.ok location, ⟨system, touched⟩) :=
    play_follow leads
  have followedTo : (follow path).play ⟨system, touched⟩ = (.ok destination, ⟨system, touched⟩) :=
    play_follow leadsTo
  have opened : (openFile location).play ⟨system, touched⟩ =
      (.ok ⟨location, content⟩, ⟨system, touched ++ [location]⟩) := play_openFile flat isFile
  unfold rename
  rw [play_bind_of_ok followed, play_bind_of_ok followedTo, play_bind_of_ok opened]
  simp [flatTo, touch]
  change (Except.ok (), Disk.touching _ destination) = _
  simp [touching]

theorem play_removeFile (leads : disk.system.locate path = some location)
    (flat : location ∉ disk.system.dirs)
    (isFile : disk.system.files.find? location = some file) :
    (removeFile path).play disk =
      (.ok (), (⟨disk.system.remove location, disk.touched⟩ : Disk).touching location) := by
  unfold removeFile
  rw [play_bind_of_ok (play_follow leads), play_bind_of_ok (play_openFile flat isFile)]
  rfl

/-- A removal forgets no location. -/
theorem mem_touched_removeFile (member : location ∈ disk.touched) :
    location ∈ ((removeFile path).play disk).2.touched := by
  unfold removeFile
  cases leads : disk.system.locate path with
  | none =>
      have lost : (follow path).play disk = (.error (disk.system.failure path), disk) := by
        simp [follow, leads]
      rw [play_bind, lost]
      exact member
  | some target =>
      rw [play_bind_of_ok (play_follow leads), play_bind]
      by_cases isDir : target ∈ disk.system.dirs
      · have refused : (openFile target).play disk = (.error isADirectory, disk) := by
          simp [openFile, isDir]
        rw [refused]
        exact member
      · cases isFile : disk.system.files.find? target with
        | none =>
            have missing : (openFile target).play disk = (.error notFound, disk) := by
              simp [openFile, isDir, isFile]
            rw [missing]
            exact member
        | some file =>
            rw [play_openFile isDir isFile]
            exact List.mem_append_left _ member

/-- Reading a directory gives the paths of its entries, in some order. -/
theorem play_readDir (leads : disk.system.locate path = some location)
    (isDir : location ∈ disk.system.dirs) :
    (readDir path).play disk =
      (.ok ((disk.system.order (disk.system.namesIn location)).map (join path)),
        disk.touching location) := by
  unfold readDir
  rw [play_bind_of_ok (play_follow leads)]
  simp [isDir, touch]
  rfl

end Rules

end Disk

end Citadel
