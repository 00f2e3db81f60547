import Citadel.Data.Bytes
import Mathlib.Logic.Function.Basic

/-!
# A directory that survives a crash

The files of one directory as processes see them, and what of them is on the disk. A write
goes to the file that is open, and reaches the disk when the file is synced; until then
the disk may hold anything of it. Entries of the directory change in memory and reach the
disk in their order, a rename as one change, at the latest when the directory is synced.

`Crashes` says what may be found after the power went out.
-/

namespace Citadel

/-- Which file each name leads to. -/
abbrev Directory := String → Option Nat

/-- A file. -/
structure Node where
  content : Bytes
  /-- The disk has this content. -/
  synced : Bool
  deriving DecidableEq, Repr

/-- The files of a directory. -/
structure Volume where
  directory : Directory
  /-- The directories since it was last synced, which the disk may still have. -/
  older : List Directory
  node : Nat → Node
  /-- The number of the next file. -/
  next : Nat

namespace Volume

/-- The content behind a name of a directory. -/
def contentIn (volume : Volume) (directory : Directory) (name : String) : Option Bytes :=
  (directory name).map fun file => (volume.node file).content

/-- The content behind a name. -/
def contentOf (volume : Volume) (name : String) : Option Bytes :=
  volume.contentIn volume.directory name

/-- What may be on the disk as the directory. -/
def directories (volume : Volume) : List Directory := volume.directory :: volume.older

/-- Change the directory. -/
def setDirectory (volume : Volume) (directory : Directory) : Volume :=
  { volume with directory := directory, older := volume.directories }

/-- Change what is in a file. -/
def setNode (volume : Volume) (file : Nat) (node : Node) : Volume :=
  { volume with node := Function.update volume.node file node }

/-- The file that opening a name for writing opens. -/
def target (volume : Volume) (name : String) : Nat :=
  (volume.directory name).getD volume.next

/-- A new file, without a name. -/
def allocate (volume : Volume) : Volume :=
  { volume.setNode volume.next ⟨[], false⟩ with next := volume.next + 1 }

/-- Open a name for writing, with nothing in the file. -/
def create (volume : Volume) (name : String) : Volume :=
  match volume.directory name with
  | some file => volume.setNode file ⟨[], false⟩
  | none => volume.allocate.setDirectory (Function.update volume.directory name (some volume.next))

/-- Write to an open file. -/
def write (volume : Volume) (file : Nat) (content : Bytes) : Volume :=
  volume.setNode file ⟨content, false⟩

/-- Sync a file. -/
def sync (volume : Volume) (file : Nat) : Volume :=
  volume.setNode file { volume.node file with synced := true }

/-- Give a file the name of another, which is replaced. -/
def rename (volume : Volume) (source destination : String) : Volume :=
  volume.setDirectory (Function.update (Function.update volume.directory source none) destination
    (volume.directory source))

/-- Remove a name. -/
def remove (volume : Volume) (name : String) : Volume :=
  volume.setDirectory (Function.update volume.directory name none)

/-- Sync the directory. -/
def syncDirectory (volume : Volume) : Volume := { volume with older := [] }

/-- What may be found after a crash: one of the directories, and behind its names the
files that were synced; of the others, anything. -/
structure Crashes (before after : Volume) : Prop where
  directory : after.directory ∈ before.directories
  older : after.older = []
  node : ∀ file, (before.node file).synced = true → after.node file = before.node file
  synced : ∀ file, (after.node file).synced = true
  next : after.next = before.next

section Changes

variable {volume : Volume} {directory : Directory} {name : String} {file other : Nat} {node : Node}

@[simp] theorem setDirectory_directory :
    (volume.setDirectory directory).directory = directory := rfl

@[simp] theorem setDirectory_node : (volume.setDirectory directory).node = volume.node := rfl

@[simp] theorem setDirectory_next : (volume.setDirectory directory).next = volume.next := rfl

@[simp] theorem setNode_directory : (volume.setNode file node).directory = volume.directory := rfl

@[simp] theorem setNode_older : (volume.setNode file node).older = volume.older := rfl

@[simp] theorem setNode_next : (volume.setNode file node).next = volume.next := rfl

@[simp] theorem directories_setNode :
    (volume.setNode file node).directories = volume.directories := rfl

@[simp] theorem directories_setDirectory :
    (volume.setDirectory directory).directories = directory :: volume.directories := rfl

theorem mem_directories : volume.directory ∈ volume.directories := List.mem_cons_self

theorem setNode_self : (volume.setNode file node).node file = node := Function.update_self _ _ _

theorem setNode_of_ne (different : other ≠ file) :
    (volume.setNode file node).node other = volume.node other :=
  Function.update_of_ne different _ _

/-- A name that leads elsewhere leads to what it did. -/
theorem contentIn_setNode (elsewhere : directory name ≠ some file) :
    (volume.setNode file node).contentIn directory name = volume.contentIn directory name := by
  unfold contentIn
  cases leads : directory name with
  | none => rfl
  | some found =>
      have different : found ≠ file := by
        rintro rfl
        exact elsewhere leads
      rw [Option.map_some, Option.map_some, setNode_of_ne different]

@[simp] theorem directories_allocate : volume.allocate.directories = volume.directories := rfl

@[simp] theorem contentIn_setDirectory {new : Directory} :
    (volume.setDirectory new).contentIn directory name = volume.contentIn directory name := rfl

end Changes

end Volume

/-- The names that readers look at, and those that only writers use. -/
structure Naming where
  isPublic : String → Prop
  isScratch : String → Prop
  apart : ∀ name, isScratch name → ¬ isPublic name

/-- A change of one public file: what is in it now, if it is there. -/
structure Replacement where
  name : String
  content : Option Bytes
  deriving DecidableEq, Repr

/-- What is behind a name after some changes. -/
def contentAfter (start : String → Option Bytes) (changes : List Replacement) (name : String) :
    Option Bytes :=
  changes.foldl (fun content change => if change.name = name then change.content else content)
    (start name)

@[simp] theorem contentAfter_nil (start : String → Option Bytes) (name : String) :
    contentAfter start [] name = start name := rfl

/-- What one more change does to a content. -/
theorem contentAfter_snoc (start : String → Option Bytes) (changes : List Replacement)
    (change : Replacement) (name : String) : contentAfter start (changes ++ [change]) name =
      if change.name = name then change.content else contentAfter start changes name := by
  rw [contentAfter, List.foldl_append]
  rfl

/-- What is behind a name was there from the start or was put there by a change. -/
theorem contentAfter_eq (start : String → Option Bytes) (changes : List Replacement)
    (name : String) : contentAfter start changes name = start name ∨
      ∃ change ∈ changes, change.name = name ∧
        contentAfter start changes name = change.content := by
  induction changes using List.reverseRecOn with
  | nil => exact .inl rfl
  | append_singleton changes change ih =>
      rw [contentAfter_snoc]
      by_cases same : change.name = name
      · rw [if_pos same]
        exact .inr ⟨change, List.mem_append_right _ (List.mem_singleton_self _), same, rfl⟩
      · rw [if_neg same]
        refine ih.imp_right ?_
        rintro ⟨earlier, member, named, content⟩
        exact ⟨earlier, List.mem_append_left _ member, named, content⟩

/-- If all changes of a name are the same, then one is enough. -/
theorem contentAfter_of_mem {start : String → Option Bytes} {changes : List Replacement}
    {change : Replacement} (member : change ∈ changes)
    (only : ∀ other ∈ changes, other.name = change.name → other = change) :
    contentAfter start changes change.name = change.content := by
  induction changes using List.reverseRecOn with
  | nil => cases member
  | append_singleton changes last ih =>
      rw [contentAfter_snoc]
      by_cases same : last.name = change.name
      · rw [if_pos same, only last (List.mem_append_right _ (List.mem_singleton_self _)) same]
      · rw [if_neg same]
        rcases List.mem_append.mp member with earlier | now
        · exact ih earlier fun other within => only other (List.mem_append_left _ within)
        · rw [List.mem_singleton.mp now] at same
          exact absurd rfl same

/-- The changes of a directory, and how many of them the disk has for certain. -/
structure History where
  changes : List Replacement
  durable : Nat

namespace Volume

/-- Public and scratch names do not share files, and public files are synced. -/
structure Sound (naming : Naming) (volume : Volume) : Prop where
  below : ∀ directory ∈ volume.directories, ∀ name file, directory name = some file →
    file < volume.next
  apart : ∀ directory ∈ volume.directories, ∀ scratch name file, naming.isScratch scratch →
    naming.isPublic name → directory scratch = some file → directory name ≠ some file
  unpublished : ∀ directory ∈ volume.directories, ∀ scratch name file, naming.isScratch scratch →
    naming.isPublic name → volume.directory scratch = some file → directory name ≠ some file
  single : ∀ directory ∈ volume.directories, ∀ scratch other file, naming.isScratch scratch →
    naming.isScratch other → directory scratch = some file → directory other = some file →
      scratch = other
  durable : ∀ directory ∈ volume.directories, ∀ name file, naming.isPublic name →
    directory name = some file → (volume.node file).synced = true

/-- The public files are as the changes left them, and on the disk as some of the changes
left them, in order. -/
structure Follows (naming : Naming) (start : String → Option Bytes) (history : History)
    (volume : Volume) : Prop where
  now : ∀ name, naming.isPublic name →
    volume.contentOf name = contentAfter start history.changes name
  onDisk : ∀ directory ∈ volume.directories, ∃ count, history.durable ≤ count ∧
    count ≤ history.changes.length ∧ ∀ name, naming.isPublic name →
      volume.contentIn directory name = contentAfter start (history.changes.take count) name

/-- A directory without files. -/
def empty : Volume := ⟨fun _ => none, [], fun _ => ⟨[], true⟩, 0⟩

theorem sound_empty {naming : Naming} : empty.Sound naming := by
  have nothing : ∀ directory ∈ empty.directories, ∀ name file, directory name ≠ some file := by
    intro directory member name file named
    rw [List.mem_singleton.mp member] at named
    cases named
  constructor
  · exact fun directory member name file named => absurd named (nothing directory member name file)
  · exact fun directory member scratch name file _ _ named =>
      absurd named (nothing directory member scratch file)
  · intro directory member scratch name file _ _ named
    cases named
  · exact fun directory member scratch other file _ _ named =>
      absurd named (nothing directory member scratch file)
  · exact fun directory member name file _ named =>
      absurd named (nothing directory member name file)

theorem follows_empty {naming : Naming} : empty.Follows naming (fun _ => none) ⟨[], 0⟩ := by
  refine ⟨fun name _ => rfl, fun directory member => ⟨0, le_rfl, le_rfl, fun name _ => ?_⟩⟩
  rw [List.mem_singleton.mp member]
  rfl

section Changes

variable {naming : Naming} {start : String → Option Bytes} {history : History}
  {volume after : Volume} {scratch destination : String} {file : Nat} {node : Node}

/-- Changing a file behind a scratch name keeps everything public. -/
theorem Sound.setNode (sound : volume.Sound naming) (isScratch : naming.isScratch scratch)
    (leads : volume.directory scratch = some file) : (volume.setNode file node).Sound naming where
  below := sound.below
  apart := sound.apart
  unpublished := sound.unpublished
  single := sound.single
  durable := by
    intro directory member name found isPublic named
    have different : found ≠ file := by
      rintro rfl
      exact sound.unpublished directory member scratch name found isScratch isPublic leads named
    rw [setNode_of_ne different]
    exact sound.durable directory member name found isPublic named

/-- Writing to a scratch file publishes nothing. -/
theorem Follows.setNode (follows : volume.Follows naming start history)
    (sound : volume.Sound naming) (isScratch : naming.isScratch scratch)
    (leads : volume.directory scratch = some file) :
    (volume.setNode file node).Follows naming start history := by
  have same : ∀ directory ∈ volume.directories, ∀ name, naming.isPublic name →
      (volume.setNode file node).contentIn directory name = volume.contentIn directory name :=
    fun directory member name isPublic => contentIn_setNode
      (sound.unpublished directory member scratch name file isScratch isPublic leads)
  constructor
  · intro name isPublic
    exact (same _ mem_directories name isPublic).trans (follows.now name isPublic)
  · intro directory member
    obtain ⟨count, least, most, reads⟩ := follows.onDisk directory member
    refine ⟨count, least, most, fun name isPublic => ?_⟩
    exact (same directory member name isPublic).trans (reads name isPublic)

/-- A name that is opened for writing leads to the file that was opened. -/
theorem create_directory_self : (volume.create scratch).directory scratch =
    some (volume.target scratch) := by
  unfold create target
  split
  · rename_i leads
    rw [setNode_directory, leads]
    rfl
  · rename_i absent
    rw [absent]
    exact Function.update_self _ _ _

theorem Sound.allocate (sound : volume.Sound naming) : volume.allocate.Sound naming where
  below := by
    intro directory member name found named
    exact (sound.below directory member name found named).trans (Nat.lt_succ_self _)
  apart := sound.apart
  unpublished := sound.unpublished
  single := sound.single
  durable := by
    intro directory member name found isPublic named
    have different : found ≠ volume.next :=
      Nat.ne_of_lt (sound.below directory member name found named)
    exact (congrArg Node.synced (setNode_of_ne different)).trans
      (sound.durable directory member name found isPublic named)

/-- A new number publishes nothing. -/
theorem Follows.allocate (follows : volume.Follows naming start history)
    (sound : volume.Sound naming) : volume.allocate.Follows naming start history := by
  have same : ∀ directory ∈ volume.directories, ∀ name,
      volume.allocate.contentIn directory name = volume.contentIn directory name :=
    fun directory member name => contentIn_setNode fun named =>
      lt_irrefl _ (sound.below directory member name _ named)
  constructor
  · intro name isPublic
    exact (same _ mem_directories name).trans (follows.now name isPublic)
  · intro directory member
    obtain ⟨count, least, most, reads⟩ := follows.onDisk directory member
    refine ⟨count, least, most, fun name isPublic => ?_⟩
    exact (same directory member name).trans (reads name isPublic)

/-- A new directory is sound if what it adds is. -/
theorem Sound.setDirectory {new : Directory} (sound : volume.Sound naming)
    (below : ∀ name found, new name = some found → found < volume.next)
    (unpublished : ∀ directory ∈ new :: volume.directories, ∀ scratch name found,
      naming.isScratch scratch → naming.isPublic name → new scratch = some found →
        directory name ≠ some found)
    (single : ∀ left right found, naming.isScratch left → naming.isScratch right →
      new left = some found → new right = some found → left = right)
    (durable : ∀ name found, naming.isPublic name → new name = some found →
      (volume.node found).synced = true) : (volume.setDirectory new).Sound naming where
  below := List.forall_mem_cons.mpr ⟨below, sound.below⟩
  apart := List.forall_mem_cons.mpr ⟨unpublished new List.mem_cons_self, sound.apart⟩
  unpublished := unpublished
  single := List.forall_mem_cons.mpr ⟨single, sound.single⟩
  durable := List.forall_mem_cons.mpr ⟨durable, sound.durable⟩

/-- A directory with the same public files. -/
theorem Follows.setDirectory {new : Directory} (follows : volume.Follows naming start history)
    (same : ∀ name, naming.isPublic name → new name = volume.directory name) :
    (volume.setDirectory new).Follows naming start history := by
  have now : ∀ name, naming.isPublic name →
      volume.contentIn new name = contentAfter start history.changes name := by
    intro name isPublic
    unfold contentIn
    rw [same name isPublic]
    exact follows.now name isPublic
  obtain ⟨count, least, most, -⟩ := follows.onDisk _ mem_directories
  refine ⟨now, List.forall_mem_cons.mpr ⟨?_, follows.onDisk⟩⟩
  refine ⟨history.changes.length, least.trans most, le_rfl, ?_⟩
  rw [List.take_length]
  exact now

/-- A directory with one public file replaced. -/
theorem Follows.replace {new : Directory} {change : Replacement}
    (follows : volume.Follows naming start history)
    (changed : ∀ name, naming.isPublic name → volume.contentIn new name =
      if change.name = name then change.content else volume.contentOf name) :
    (volume.setDirectory new).Follows naming start
      ⟨history.changes ++ [change], history.durable⟩ := by
  have now : ∀ name, naming.isPublic name →
      volume.contentIn new name = contentAfter start (history.changes ++ [change]) name := by
    intro name isPublic
    rw [contentAfter_snoc, changed name isPublic, follows.now name isPublic]
  have grown : history.changes.length ≤ (history.changes ++ [change]).length := by
    rw [List.length_append]
    exact Nat.le_add_right _ _
  obtain ⟨count, least, most, -⟩ := follows.onDisk _ mem_directories
  refine ⟨now, List.forall_mem_cons.mpr ⟨?_, fun directory member => ?_⟩⟩
  · refine ⟨_, least.trans (most.trans grown), le_rfl, ?_⟩
    rw [List.take_length]
    exact now
  · obtain ⟨count, least, most, reads⟩ := follows.onDisk directory member
    refine ⟨count, least, most.trans grown, ?_⟩
    rw [List.take_append_of_le_length most]
    exact reads

/-- Creating a scratch file keeps the volume sound. -/
theorem Sound.create (sound : volume.Sound naming) (isScratch : naming.isScratch scratch) :
    (volume.create scratch).Sound naming := by
  unfold Volume.create
  split
  · rename_i leads
    exact sound.setNode isScratch leads
  · -- the new file has no other name
    have unused : ∀ directory ∈ volume.directories, ∀ name,
        directory name ≠ some volume.next := fun directory member name named =>
      lt_irrefl _ (sound.below directory member name _ named)
    have elsewhere : ∀ {name found}, name ≠ scratch →
        Function.update volume.directory scratch (some volume.next) name = some found →
          volume.directory name = some found := by
      intro name found different named
      rwa [Function.update_of_ne different] at named
    have here : ∀ {found}, Function.update volume.directory scratch (some volume.next) scratch =
        some found → found = volume.next := by
      intro found named
      rw [Function.update_self] at named
      exact (Option.some.inj named).symm
    have public_ne : ∀ {name}, naming.isPublic name → name ≠ scratch := by
      rintro name isPublic rfl
      exact naming.apart _ isScratch isPublic
    refine sound.allocate.setDirectory ?_ ?_ ?_ ?_
    · intro name found named
      by_cases same : name = scratch
      · subst same
        rw [here named]
        exact Nat.lt_succ_self _
      · exact (sound.below _ mem_directories name found (elsewhere same named)).trans
          (Nat.lt_succ_self _)
    · intro directory member other name found otherScratch isPublic named
      have before : ∀ past ∈ volume.directories, past name ≠ some found := by
        intro past within
        by_cases same : other = scratch
        · subst same
          rw [here named]
          exact unused past within name
        · exact sound.unpublished past within other name found otherScratch isPublic
            (elsewhere same named)
      rcases List.mem_cons.mp member with rfl | past
      · rw [Function.update_of_ne (public_ne isPublic)]
        exact before _ mem_directories
      · exact before directory past
    · intro left right found leftScratch rightScratch leftNamed rightNamed
      by_cases leftSame : left = scratch
      · by_cases rightSame : right = scratch
        · rw [leftSame, rightSame]
        · subst leftSame
          rw [here leftNamed] at rightNamed
          exact absurd (elsewhere rightSame rightNamed) (unused _ mem_directories right)
      · by_cases rightSame : right = scratch
        · subst rightSame
          rw [here rightNamed] at leftNamed
          exact absurd (elsewhere leftSame leftNamed) (unused _ mem_directories left)
        · exact sound.single _ mem_directories left right found leftScratch rightScratch
            (elsewhere leftSame leftNamed) (elsewhere rightSame rightNamed)
    · intro name found isPublic named
      exact sound.allocate.durable _ mem_directories name found isPublic
        (elsewhere (public_ne isPublic) named)

/-- Creating a scratch file publishes nothing. -/
theorem Follows.create (follows : volume.Follows naming start history)
    (sound : volume.Sound naming) (isScratch : naming.isScratch scratch) :
    (volume.create scratch).Follows naming start history := by
  unfold Volume.create
  split
  · rename_i leads
    exact follows.setNode sound isScratch leads
  · refine (follows.allocate sound).setDirectory fun name isPublic => ?_
    have different : name ≠ scratch := by
      rintro rfl
      exact naming.apart _ isScratch isPublic
    exact Function.update_of_ne different _ _

/-- What a rename of a synced scratch file leaves. -/
theorem Sound.rename (sound : volume.Sound naming) (isScratch : naming.isScratch scratch)
    (isPublic : naming.isPublic destination) (leads : volume.directory scratch = some file)
    (synced : (volume.node file).synced = true) :
    (volume.rename scratch destination).Sound naming := by
  have scratch_ne : ∀ {name}, naming.isScratch name → name ≠ destination := by
    rintro name also rfl
    exact naming.apart name also isPublic
  have public_ne : ∀ {name}, naming.isPublic name → name ≠ scratch := by
    rintro name also rfl
    exact naming.apart name isScratch also
  have renamed : ∀ {name found}, Function.update (Function.update volume.directory scratch none)
      destination (volume.directory scratch) name = some found →
        name = destination ∧ found = file ∨
          name ≠ scratch ∧ volume.directory name = some found := by
    intro name found named
    by_cases same : name = destination
    · subst same
      rw [Function.update_self, leads] at named
      exact .inl ⟨rfl, (Option.some.inj named).symm⟩
    · rw [Function.update_of_ne same] at named
      by_cases gone : name = scratch
      · subst gone
        rw [Function.update_self] at named
        cases named
      · rw [Function.update_of_ne gone] at named
        exact .inr ⟨gone, named⟩
  have kept : ∀ {name found}, naming.isScratch name →
      Function.update (Function.update volume.directory scratch none) destination
        (volume.directory scratch) name = some found →
          name ≠ scratch ∧ volume.directory name = some found := by
    intro name found also named
    rcases renamed named with ⟨same, -⟩ | other
    · exact absurd same (scratch_ne also)
    · exact other
  refine sound.setDirectory ?_ ?_ ?_ ?_
  · intro name found named
    rcases renamed named with ⟨-, rfl⟩ | ⟨-, old⟩
    · exact sound.below _ mem_directories scratch found leads
    · exact sound.below _ mem_directories name found old
  · intro directory member other name found otherScratch also named
    obtain ⟨different, old⟩ := kept otherScratch named
    rcases List.mem_cons.mp member with rfl | past
    · intro alsoNamed
      rcases renamed alsoNamed with ⟨-, rfl⟩ | ⟨-, oldName⟩
      · exact different (sound.single _ mem_directories other scratch found otherScratch isScratch
          old leads)
      · exact sound.unpublished _ mem_directories other name found otherScratch also old oldName
    · exact sound.unpublished directory past other name found otherScratch also old
  · intro left right found leftScratch rightScratch leftNamed rightNamed
    exact sound.single _ mem_directories left right found leftScratch rightScratch
      (kept leftScratch leftNamed).2 (kept rightScratch rightNamed).2
  · intro name found also named
    rcases renamed named with ⟨-, rfl⟩ | ⟨-, old⟩
    · exact synced
    · exact sound.durable _ mem_directories name found also old

/-- Renaming a scratch file publishes its content. -/
theorem Follows.rename (follows : volume.Follows naming start history)
    (isScratch : naming.isScratch scratch) :
    (volume.rename scratch destination).Follows naming start
      ⟨history.changes ++ [⟨destination, volume.contentOf scratch⟩], history.durable⟩ := by
  refine follows.replace fun name isPublic => ?_
  unfold contentOf contentIn
  by_cases same : destination = name
  · subst same
    rw [if_pos rfl, Function.update_self]
  · have different : name ≠ scratch := by
      rintro rfl
      exact naming.apart name isScratch isPublic
    rw [if_neg same, Function.update_of_ne (Ne.symm same), Function.update_of_ne different]

theorem Sound.remove (sound : volume.Sound naming) (name : String) :
    (volume.remove name).Sound naming := by
  have old : ∀ {other found}, Function.update volume.directory name none other = some found →
      volume.directory other = some found := by
    intro other found named
    by_cases same : other = name
    · subst same
      rw [Function.update_self] at named
      cases named
    · rwa [Function.update_of_ne same] at named
  refine sound.setDirectory ?_ ?_ ?_ ?_
  · intro other found named
    exact sound.below _ mem_directories other found (old named)
  · intro directory member scratch other found isScratch isPublic named
    rcases List.mem_cons.mp member with rfl | past
    · intro alsoNamed
      exact sound.unpublished _ mem_directories scratch other found isScratch isPublic (old named)
        (old alsoNamed)
    · exact sound.unpublished directory past scratch other found isScratch isPublic (old named)
  · intro left right found leftScratch rightScratch leftNamed rightNamed
    exact sound.single _ mem_directories left right found leftScratch rightScratch
      (old leftNamed) (old rightNamed)
  · intro other found isPublic named
    exact sound.durable _ mem_directories other found isPublic (old named)

/-- Removing a name publishes its absence. -/
theorem Follows.remove (follows : volume.Follows naming start history) (name : String) :
    (volume.remove name).Follows naming start
      ⟨history.changes ++ [⟨name, none⟩], history.durable⟩ := by
  refine follows.replace fun other isPublic => ?_
  unfold contentOf contentIn
  by_cases same : name = other
  · subst same
    rw [if_pos rfl, Function.update_self]
    rfl
  · rw [if_neg same, Function.update_of_ne (Ne.symm same)]

theorem Sound.syncDirectory (sound : volume.Sound naming) : volume.syncDirectory.Sound naming := by
  have within : ∀ directory ∈ volume.syncDirectory.directories, directory ∈ volume.directories := by
    intro directory member
    rw [List.mem_singleton.mp member]
    exact mem_directories
  constructor
  · exact fun directory member => sound.below directory (within directory member)
  · exact fun directory member => sound.apart directory (within directory member)
  · exact fun directory member => sound.unpublished directory (within directory member)
  · exact fun directory member => sound.single directory (within directory member)
  · exact fun directory member => sound.durable directory (within directory member)

/-- Syncing the directory makes all changes durable. -/
theorem Follows.syncDirectory (follows : volume.Follows naming start history) :
    volume.syncDirectory.Follows naming start ⟨history.changes, history.changes.length⟩ := by
  refine ⟨follows.now, fun directory member => ⟨_, le_rfl, le_rfl, ?_⟩⟩
  rw [List.mem_singleton.mp member, List.take_length]
  exact follows.now

/-- A volume is sound after a crash. -/
theorem Sound.crash (sound : volume.Sound naming) (crashes : Crashes volume after) :
    after.Sound naming := by
  have only : ∀ directory ∈ after.directories, directory = after.directory := by
    intro directory member
    rw [directories, crashes.older] at member
    exact List.mem_singleton.mp member
  have within := crashes.directory
  constructor
  · intro directory member name found named
    rw [only directory member] at named
    rw [crashes.next]
    exact sound.below _ within name found named
  · intro directory member scratch name found isScratch isPublic named
    rw [only directory member] at named ⊢
    exact sound.apart _ within scratch name found isScratch isPublic named
  · intro directory member scratch name found isScratch isPublic named
    rw [only directory member]
    exact sound.apart _ within scratch name found isScratch isPublic named
  · intro directory member left right found leftScratch rightScratch leftNamed rightNamed
    rw [only directory member] at leftNamed rightNamed
    exact sound.single _ within left right found leftScratch rightScratch leftNamed rightNamed
  · exact fun _ _ _ found _ _ => crashes.synced found

/-- What is found after a crash: the files as they were after some of the changes, in their
order, at least those that are durable. -/
theorem Follows.crash (follows : volume.Follows naming start history)
    (sound : volume.Sound naming) (crashes : Crashes volume after) :
    ∃ count, history.durable ≤ count ∧ count ≤ history.changes.length ∧
      after.Follows naming start ⟨history.changes.take count, count⟩ := by
  obtain ⟨count, least, most, reads⟩ := follows.onDisk _ crashes.directory
  have found : ∀ name, naming.isPublic name →
      after.contentOf name = contentAfter start (history.changes.take count) name := by
    intro name isPublic
    rw [← reads name isPublic, contentOf, contentIn, contentIn]
    cases leads : after.directory name with
    | none => rfl
    | some file =>
        rw [Option.map_some, Option.map_some, crashes.node file
          (sound.durable _ crashes.directory name file isPublic leads)]
  refine ⟨count, least, most, found, ?_⟩
  intro directory member
  rw [directories, crashes.older] at member
  rw [List.mem_singleton.mp member]
  refine ⟨count, le_rfl, (List.length_take_of_le most).ge, ?_⟩
  rw [List.take_take, min_self]
  exact found

end Changes

end Volume

end Citadel
