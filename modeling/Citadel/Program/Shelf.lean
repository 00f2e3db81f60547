import Citadel.Data.Volume
import Citadel.Program.Interleaving

/-!
# Files, access by access

The accesses that programs make to the files of a directory, and what each may answer and
do. Every access may fail, a write after any part of it. The directory is listed lazily: a
listing is opened and then yields one name at a time while others go on changing the
directory. All that it promises is that a name which stays where it is gets yielded before
the end.
-/

namespace Citadel

/-- What is done to files. -/
inductive FileAccess where
  /-- Take the lock of the writers. -/
  | lock
  /-- Release the lock. -/
  | unlock
  /-- Open for writing, and create or empty the file. -/
  | create (name : String)
  /-- Write everything to an open file. -/
  | writeAll (file : Nat) (data : Bytes)
  /-- Sync an open file. -/
  | syncAll (file : Nat)
  | rename (source destination : String)
  | removeFile (name : String)
  /-- Open the directory. -/
  | openDir
  /-- Sync the directory. -/
  | syncDir
  /-- Look whether a name is there. -/
  | stat (name : String)
  /-- Open a listing of the directory. -/
  | readDir
  /-- The next name of a listing, if there is one. -/
  | nextEntry (listing : Nat)
  /-- Open for reading. -/
  | openFile (name : String)
  /-- Read everything from an open file. -/
  | readAll (file : Nat)
  deriving DecidableEq, Repr

/-- The type of the answer; an error is a text. -/
@[reducible] def FileAccess.Ret : FileAccess → Type
  | .lock => Unit
  | .unlock => Unit
  | .create _ => Except String Nat
  | .openFile _ => Except String Nat
  | .readAll _ => Except String Bytes
  | .stat _ => Except String Bool
  | .readDir => Except String Nat
  | .nextEntry _ => Except String (Option String)
  | _ => Except String Unit

/-- The answer is an error. -/
def FileAccess.fails : (access : FileAccess) → access.Ret → Bool
  | .create _, .error _ => true
  | .writeAll _ _, .error _ => true
  | .syncAll _, .error _ => true
  | .rename _ _, .error _ => true
  | .removeFile _, .error _ => true
  | .openDir, .error _ => true
  | .syncDir, .error _ => true
  | .stat _, .error _ => true
  | .readDir, .error _ => true
  | .nextEntry _, .error _ => true
  | .openFile _, .error _ => true
  | .readAll _, .error _ => true
  | _, _ => false

/-- The names that a listing yields. -/
def FileAccess.yields : (access : FileAccess) → access.Ret → List String
  | .nextEntry _, .ok (some name) => [name]
  | _, _ => []

/-- The answer says that a listing has come to its end. -/
def FileAccess.ends : (access : FileAccess) → access.Ret → Bool
  | .nextEntry _, .ok none => true
  | _, _ => false

/-- The changes that an access makes of the files. -/
def FileAccess.adds (volume : Volume) : (access : FileAccess) → access.Ret → List Replacement
  | .rename source destination, .ok _ => [⟨destination, volume.contentOf source⟩]
  | .removeFile name, .ok _ => [⟨name, none⟩]
  | _, _ => []

/-- The listings of a directory. -/
structure Listings where
  /-- How many were opened. -/
  opened : Nat
  /-- The names that a listing has still to yield: they were there when it was opened, and
  nothing has been done to them since. -/
  owes : Nat → String → Bool

namespace Listings

variable (listings : Listings)

/-- A new listing owes every name that is there. -/
def list (directory : Directory) : Listings where
  opened := listings.opened + 1
  owes := Function.update listings.owes listings.opened fun name => (directory name).isSome

/-- A listing has yielded a name. -/
def yield (listing : Nat) (name : String) : Listings :=
  { listings with
    owes := Function.update listings.owes listing
      (Function.update (listings.owes listing) name false) }

/-- Entries of the directory have changed. No listing owes their names any longer. -/
def touch (names : List String) : Listings :=
  { listings with owes := fun listing name => listings.owes listing name && !names.contains name }

/-- The listings after an access. -/
def next (directory : Directory) : (access : FileAccess) → access.Ret → Listings
  | .readDir, .ok _ => listings.list directory
  | .nextEntry listing, .ok (some name) => listings.yield listing name
  | .rename source destination, .ok _ => listings.touch [source, destination]
  | .removeFile name, .ok _ => listings.touch [name]
  | _, _ => listings

variable {listings} {directory : Directory} {access : FileAccess} {answer : access.Ret}
  {listing : Nat} {name : String}

/-- Listings are never closed. -/
theorem opened_le_next : listings.opened ≤ (listings.next directory access answer).opened := by
  unfold next
  split
  · exact Nat.le_succ _
  all_goals exact le_rfl

/-- What a listing owes, it owes until it yields it, or the name is renamed or changed. -/
theorem owes_next {volume : Volume} (owed : listings.owes listing name = true)
    (old : listing < listings.opened) (unmoved : ∀ destination, access ≠ .rename name destination)
    (unchanged : ∀ change ∈ access.adds volume answer, change.name ≠ name) :
    (listings.next directory access answer).owes listing name = true ∨
      access = .nextEntry listing ∧ name ∈ access.yields answer := by
  cases access with
  | rename source destination =>
      cases answer with
      | error error => exact .inl owed
      | ok done =>
          have other : name ≠ source := fun same => unmoved destination (same ▸ rfl)
          have elsewhere : name ≠ destination := fun same =>
            unchanged _ (List.mem_singleton_self _) same.symm
          exact .inl (by simp [next, touch, owed, other, elsewhere])
  | removeFile removed =>
      cases answer with
      | error error => exact .inl owed
      | ok done =>
          have elsewhere : name ≠ removed := fun same =>
            unchanged _ (List.mem_singleton_self _) same.symm
          exact .inl (by simp [next, touch, owed, elsewhere])
  | readDir =>
      cases answer with
      | error error => exact .inl owed
      | ok fresh =>
          have earlier : listing ≠ listings.opened := Nat.ne_of_lt old
          exact .inl (by simp [next, list, owed, earlier])
  | nextEntry asked =>
      rcases answer with error | _ | yielded
      · exact .inl owed
      · exact .inl owed
      · by_cases mine : listing = asked
        · subst mine
          by_cases same : name = yielded
          · exact .inr ⟨rfl, List.mem_singleton.mpr same⟩
          · exact .inl (by simp [next, yield, owed, same])
        · exact .inl (by simp [next, yield, owed, mine])
  | _ => exact .inl owed

end Listings

/-- The files after an access. A call that fails changes nothing, but a write that fails may
have written any part. -/
def Volume.perform (volume : Volume) (part : Bytes) : (access : FileAccess) → access.Ret → Volume
  | .create name, .ok _ => volume.create name
  | .writeAll file data, .ok _ => volume.write file data
  | .writeAll file _, .error _ => volume.write file part
  | .syncAll file, .ok _ => volume.sync file
  | .rename source destination, .ok _ => volume.rename source destination
  | .removeFile name, .ok _ => volume.remove name
  | .syncDir, .ok _ => volume.syncDirectory
  | _, _ => volume

/-- The lock after an access. -/
def FileAccess.locks (locked : Bool) : FileAccess → Bool
  | .lock => true
  | .unlock => false
  | _ => locked

/-- The files, the lock of the writers, and the listings of the directory. -/
structure Shelf where
  volume : Volume
  locked : Bool
  listings : Listings

namespace Shelf

/-- The files when a process starts. -/
def fresh (volume : Volume) : Shelf := ⟨volume, false, ⟨0, fun _ _ => false⟩⟩

/-- What an answer says of the files. A listing may yield anything, also a name that is gone
or that it has yielded before, but at its end it owes nothing. -/
def Tells (shelf : Shelf) : (access : FileAccess) → access.Ret → Prop
  | .lock, _ => shelf.locked = false
  | .create name, .ok file => file = shelf.volume.target name
  | .rename source _, .ok _ => (shelf.volume.directory source).isSome
  | .removeFile name, .ok _ => (shelf.volume.directory name).isSome
  | .stat name, .ok found => found = (shelf.volume.directory name).isSome
  | .readDir, .ok listing => listing = shelf.listings.opened
  | .nextEntry listing, .ok none => ∀ name, shelf.listings.owes listing name = false
  | .openFile name, .ok file => shelf.volume.directory name = some file
  | .readAll file, .ok data => data = (shelf.volume.node file).content
  | _, _ => True

/-- The files after an access. -/
def next (shelf : Shelf) (part : Bytes) (access : FileAccess) (answer : access.Ret) : Shelf where
  volume := shelf.volume.perform part access answer
  locked := access.locks shelf.locked
  listings := shelf.listings.next shelf.volume.directory access answer

/-- What an access may answer and do. -/
def Answers (shelf : Shelf) (access : FileAccess) (answer : access.Ret) (after : Shelf) : Prop :=
  shelf.Tells access answer ∧ ∃ part, after = shelf.next part access answer

end Shelf

/-- The files shared by all callers. -/
@[reducible] def shelves : SharedWorld FileAccess FileAccess.Ret where
  State := Shelf
  Answers := Shelf.Answers
  Drifts before after := after = before

end Citadel
