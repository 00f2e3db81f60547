import Citadel.Program.Shelf

/-!
# Replacing files under a lock

Writers take a lock, write a scratch file, sync it, and give it the name of the file that
it replaces; readers take no lock. `replacing` is the contract of such writers and
readers. Whatever the interleaving, the files then change as a whole and one at a time
(`Published`), and every caller knows what it has changed (`Accounts`).
-/

namespace Citadel

/-- How far a writer has come. -/
inductive Stage where
  /-- It does not have the lock. -/
  | outside
  /-- It has the lock. -/
  | inside
  /-- It has opened a scratch file. -/
  | opened (scratch : String) (file : Nat)
  /-- It has written this to the scratch file. -/
  | written (scratch : String) (file : Nat) (data : Bytes)
  /-- It has synced the scratch file with this in it. -/
  | ready (scratch : String) (file : Nat) (data : Bytes)
  deriving DecidableEq, Repr

/-- What an access does to the stage of its caller. -/
def Stage.next : Stage → (access : FileAccess) → access.Ret → Stage
  | .outside, .lock, _ => .inside
  | _, .unlock, _ => .outside
  | .inside, .create name, .ok file => .opened name file
  | .opened scratch file, .writeAll _ data, .ok _ => .written scratch file data
  | .written scratch file data, .syncAll _, .ok _ => .ready scratch file data
  | .ready _ _ _, .rename _ _, .ok _ => .inside
  | stage, _, _ => stage

/-- The changes that an access makes. -/
def Stage.makes : Stage → (access : FileAccess) → access.Ret → List Replacement
  | .ready _ _ data, .rename _ destination, .ok _ => [⟨destination, some data⟩]
  | _, .removeFile name, .ok _ => [⟨name, none⟩]
  | _, _, _ => []

/-- What a caller has done and seen. -/
structure Progress where
  stage : Stage
  /-- The changes that it has made. -/
  made : List Replacement
  /-- Those that it made before it last synced the directory. -/
  kept : List Replacement
  /-- The file that it has open for reading. -/
  handle : Option (String × Nat)
  /-- What it has found behind names. -/
  seen : List (String × Option Bytes)
  /-- The listing that it has opened. -/
  listing : Option Nat
  /-- The names that were yielded to it. -/
  named : List String
  /-- Its listing has come to its end. -/
  listed : Bool
  /-- An access has failed. -/
  failed : Bool

namespace Progress

/-- A caller that has done nothing. -/
def start : Progress := ⟨.outside, [], [], none, [], none, [], false, false⟩

/-- The accesses that a caller may perform; `mayReplace` says which changes it may make. -/
def allows (naming : Naming) (mayReplace : Replacement → Prop) (progress : Progress) :
    FileAccess → Prop
  | .lock => progress.stage = .outside
  | .unlock => progress.stage ≠ .outside
  | .create name => progress.stage = .inside ∧ naming.isScratch name
  | .writeAll file _ => ∃ scratch, progress.stage = .opened scratch file
  | .syncAll file => ∃ scratch data, progress.stage = .written scratch file data
  | .rename source destination => ∃ file data, progress.stage = .ready source file data ∧
      naming.isPublic destination ∧ mayReplace ⟨destination, some data⟩
  | .removeFile name =>
      progress.stage = .inside ∧ naming.isPublic name ∧ mayReplace ⟨name, none⟩
  | .openDir => progress.stage = .inside
  | .syncDir => progress.stage = .inside
  | .stat name => naming.isPublic name
  | .readDir => progress.listing = none
  | .nextEntry listing => progress.listing = some listing
  | .openFile name => naming.isPublic name
  | .readAll file => ∃ name, progress.handle = some (name, file)

/-- What an access does to the progress of its caller. -/
def next (progress : Progress) (access : FileAccess) (answer : access.Ret) : Progress where
  stage := progress.stage.next access answer
  made := progress.made ++ progress.stage.makes access answer
  kept :=
    match access, answer with
    | .syncDir, .ok _ => progress.made
    | _, _ => progress.kept
  handle :=
    match access, answer with
    | .openFile name, .ok file => some (name, file)
    | _, _ => progress.handle
  seen := progress.seen ++
    match access, answer with
    | .stat name, .ok false => [(name, none)]
    | .readAll _, .ok data => progress.handle.toList.map fun opened => (opened.1, some data)
    | _, _ => []
  listing :=
    match access, answer with
    | .readDir, .ok listing => some listing
    | _, _ => progress.listing
  named := progress.named ++ access.yields answer
  listed := progress.listed || access.ends answer
  failed := progress.failed || access.fails answer

end Progress

/-- The contract of a caller. -/
@[reducible] def replacing (naming : Naming) (mayReplace : Replacement → Prop) :
    Contract FileAccess FileAccess.Ret where
  Ghost := Progress
  Allows progress := progress.allows naming mayReplace
  Expects _ _ _ := True
  after := Progress.next

/-- What an access adds to the history. -/
def History.next (history : History) (volume : Volume) :
    (access : FileAccess) → access.Ret → History
  | .rename source destination, .ok _ =>
      ⟨history.changes ++ [⟨destination, volume.contentOf source⟩], history.durable⟩
  | .removeFile name, .ok _ => ⟨history.changes ++ [⟨name, none⟩], history.durable⟩
  | .syncDir, .ok _ => ⟨history.changes, history.changes.length⟩
  | _, _ => history

/-- An access adds its change to the history. -/
theorem History.changes_next (history : History) (volume : Volume) (access : FileAccess)
    (answer : access.Ret) : (history.next volume access answer).changes =
      history.changes ++ access.adds volume answer := by
  cases access with
  | rename source destination =>
      cases answer with
      | error error => exact (List.append_nil _).symm
      | ok done => rfl
  | removeFile name =>
      cases answer with
      | error error => exact (List.append_nil _).symm
      | ok done => rfl
  | syncDir => cases answer <;> exact (List.append_nil _).symm
  | _ => exact (List.append_nil _).symm

section Histories

variable {ι ε α : Type}

/-- The history after a trace. -/
def History.along (first : History) (trace : List (Entry Shelf ι FileAccess FileAccess.Ret ε α)) :
    History :=
  trace.foldl (fun history entry =>
    match entry.event with
    | .performed _ access answer => history.next entry.before.volume access answer
    | _ => history) first

variable (first : History) (trace : List (Entry Shelf ι FileAccess FileAccess.Ret ε α))
  {before : Shelf}

theorem History.along_append (rest : List (Entry Shelf ι FileAccess FileAccess.Ret ε α)) :
    first.along (trace ++ rest) = (first.along trace).along rest :=
  List.foldl_append

theorem History.along_performed {caller : ι} {access : FileAccess} {answer : access.Ret} :
    first.along (trace ++ [⟨before, .performed caller access answer⟩]) =
      (first.along trace).next before.volume access answer := by
  rw [along, List.foldl_append]
  rfl

theorem History.along_returned {caller : ι} {outcome : Outcome ε α} :
    first.along (trace ++ [⟨before, .returned caller outcome⟩]) = first.along trace := by
  rw [along, List.foldl_append]
  rfl

theorem History.along_drifted :
    first.along (trace ++ [⟨before, .drifted⟩]) = first.along trace := by
  rw [along, List.foldl_append]
  rfl

end Histories

/-- What the files hold for a writer. -/
def Stage.Fits (naming : Naming) (volume : Volume) : Stage → Prop
  | .outside => True
  | .inside => True
  | .opened scratch file => naming.isScratch scratch ∧ volume.directory scratch = some file
  | .written scratch file data => naming.isScratch scratch ∧
      volume.directory scratch = some file ∧ (volume.node file).content = data
  | .ready scratch file data => naming.isScratch scratch ∧
      volume.directory scratch = some file ∧ volume.node file = ⟨data, true⟩

/-- At most one writer has the lock. -/
structure Exclusive {ι : Type} (locked : Bool) (stages : ι → Stage) : Prop where
  free : locked = false → ∀ caller, stages caller = .outside
  alone : ∀ caller other, stages caller ≠ .outside → stages other ≠ .outside → caller = other

/-- The files are published by the writer that has the lock. -/
structure Published {ι : Type} (naming : Naming) (start : String → Option Bytes)
    (history : History) (shelf : Shelf) (stages : ι → Stage) : Prop where
  sound : shelf.volume.Sound naming
  follows : shelf.volume.Follows naming start history
  exclusive : Exclusive shelf.locked stages
  fits : ∀ caller, (stages caller).Fits naming shelf.volume

section Writers

variable {ι : Type} {naming : Naming} {start : String → Option Bytes} {history : History}
  {shelf after : Shelf} {stages : ι → Stage} {caller : ι}

/-- The others do not have the lock. -/
theorem Published.others (published : Published naming start history shelf stages)
    (within : stages caller ≠ .outside) {other : ι} (different : other ≠ caller) :
    stages other = .outside := by
  by_contra also
  exact different (published.exclusive.alone other caller also within)

/-- A scratch file that is ready holds what its writer has written. -/
theorem Published.contentOf_ready {source : String} {file : Nat} {data : Bytes}
    (published : Published naming start history shelf stages)
    (ready : stages caller = .ready source file data) :
    shelf.volume.contentOf source = some data := by
  have fits := published.fits caller
  rw [ready] at fits
  rw [Volume.contentOf, Volume.contentIn, fits.2.1, Option.map_some, fits.2.2]

variable [DecidableEq ι]

/-- The caller that holds the lock may go on. -/
theorem Exclusive.move {locked : Bool} (exclusive : Exclusive locked stages) {stage : Stage}
    (within : stages caller ≠ .outside) :
    Exclusive locked (Function.update stages caller stage) where
  free := fun unlocked => absurd (exclusive.free unlocked caller) within
  alone := by
    intro left right leftWithin rightWithin
    have only : ∀ other, Function.update stages caller stage other ≠ .outside → other = caller := by
      intro other otherWithin
      by_contra different
      rw [Function.update_of_ne different] at otherWithin
      exact different (exclusive.alone other caller otherWithin within)
    rw [only left leftWithin, only right rightWithin]

/-- The writer that has the lock takes a step. -/
theorem Published.move {stage : Stage} {next : History}
    (published : Published naming start history shelf stages) (within : stages caller ≠ .outside)
    (unchanged : after.locked = shelf.locked) (sound : after.volume.Sound naming)
    (follows : after.volume.Follows naming start next) (fits : stage.Fits naming after.volume) :
    Published naming start next after (Function.update stages caller stage) where
  sound := sound
  follows := follows
  exclusive := unchanged ▸ published.exclusive.move within
  fits := by
    intro other
    by_cases same : other = caller
    · subst same
      rwa [Function.update_self]
    · rw [Function.update_of_ne same, published.others within same]
      trivial

/-- An access that leaves the files and the lock as they are. -/
theorem Published.look {stage : Stage} (published : Published naming start history shelf stages)
    (same : stages caller = stage) (files : after.volume = shelf.volume)
    (unchanged : after.locked = shelf.locked) :
    Published naming start history after (Function.update stages caller stage) := by
  obtain ⟨volume, locked, listings⟩ := after
  cases files
  cases unchanged
  rw [← same, Function.update_eq_self]
  exact ⟨published.sound, published.follows, published.exclusive, published.fits⟩

/-- A writer takes the lock. -/
theorem Published.enter (published : Published naming start history shelf stages)
    (unlocked : shelf.locked = false) {listings : Listings} :
    Published naming start history ⟨shelf.volume, true, listings⟩
      (Function.update stages caller .inside) := by
  have free := published.exclusive.free unlocked
  have only : ∀ other, Function.update stages caller .inside other ≠ .outside →
      other = caller := by
    intro other within
    by_contra different
    rw [Function.update_of_ne different] at within
    exact within (free other)
  refine ⟨published.sound, published.follows, ⟨fun locked => (by cases locked), ?_⟩, ?_⟩
  · intro left right leftWithin rightWithin
    rw [only left leftWithin, only right rightWithin]
  · intro other
    by_cases same : other = caller
    · subst same
      rw [Function.update_self]
      trivial
    · rw [Function.update_of_ne same, free other]
      trivial

/-- The writer that has the lock releases it. -/
theorem Published.leave (published : Published naming start history shelf stages)
    (within : stages caller ≠ .outside) {listings : Listings} :
    Published naming start history ⟨shelf.volume, false, listings⟩
      (Function.update stages caller .outside) := by
  have out : ∀ other, Function.update stages caller .outside other = .outside := by
    intro other
    by_cases same : other = caller
    · subst same
      exact Function.update_self _ _ _
    · rw [Function.update_of_ne same]
      exact published.others within same
  refine ⟨published.sound, published.follows, ⟨fun _ => out, ?_⟩, fun other => ?_⟩
  · intro left right leftWithin
    exact absurd (out left) leftWithin
  · rw [out other]
    trivial

/-- The writer that has the lock opens a scratch file. -/
theorem Published.create (published : Published naming start history shelf stages)
    (inside : stages caller = .inside) {scratch : String} (isScratch : naming.isScratch scratch)
    (same : after.volume = shelf.volume.create scratch) (unchanged : after.locked = shelf.locked) :
    Published naming start history after (Function.update stages caller
      (.opened scratch (shelf.volume.target scratch))) := by
  have within : stages caller ≠ .outside := inside ▸ Stage.noConfusion
  refine published.move within unchanged ?_ ?_ ?_
  · rw [same]
    exact published.sound.create isScratch
  · rw [same]
    exact published.follows.create published.sound isScratch
  · rw [same]
    exact ⟨isScratch, Volume.create_directory_self⟩

/-- What a writer does to its scratch file does not concern the public ones. -/
theorem Published.scribble {stage : Stage} {scratch : String} {file : Nat} {node : Node}
    (published : Published naming start history shelf stages) (within : stages caller ≠ .outside)
    (isScratch : naming.isScratch scratch) (leads : shelf.volume.directory scratch = some file)
    (same : after.volume = shelf.volume.setNode file node) (unchanged : after.locked = shelf.locked)
    (fits : stage.Fits naming (shelf.volume.setNode file node)) :
    Published naming start history after (Function.update stages caller stage) := by
  refine published.move within unchanged ?_ ?_ (same ▸ fits)
  · rw [same]
    exact published.sound.setNode isScratch leads
  · rw [same]
    exact published.follows.setNode published.sound isScratch leads

/-- The writer that has the lock writes to its scratch file. -/
theorem Published.write (published : Published naming start history shelf stages)
    {scratch : String} {file : Nat} (opened : stages caller = .opened scratch file) {data : Bytes}
    (same : after.volume = shelf.volume.write file data) (unchanged : after.locked = shelf.locked) :
    Published naming start history after
      (Function.update stages caller (.written scratch file data)) := by
  have within : stages caller ≠ .outside := opened ▸ Stage.noConfusion
  have fits := published.fits caller
  rw [opened] at fits
  obtain ⟨isScratch, leads⟩ := fits
  exact published.scribble within isScratch leads same unchanged
    ⟨isScratch, leads, congrArg Node.content Volume.setNode_self⟩

/-- A write that failed leaves the scratch file open, with any content. -/
theorem Published.spoil (published : Published naming start history shelf stages)
    {scratch : String} {file : Nat} (opened : stages caller = .opened scratch file) {part : Bytes}
    (same : after.volume = shelf.volume.write file part) (unchanged : after.locked = shelf.locked) :
    Published naming start history after
      (Function.update stages caller (.opened scratch file)) := by
  have within : stages caller ≠ .outside := opened ▸ Stage.noConfusion
  have fits := published.fits caller
  rw [opened] at fits
  obtain ⟨isScratch, leads⟩ := fits
  exact published.scribble within isScratch leads same unchanged ⟨isScratch, leads⟩

/-- The writer that has the lock syncs its scratch file. -/
theorem Published.sync (published : Published naming start history shelf stages)
    {scratch : String} {file : Nat} {data : Bytes}
    (written : stages caller = .written scratch file data)
    (same : after.volume = shelf.volume.sync file) (unchanged : after.locked = shelf.locked) :
    Published naming start history after
      (Function.update stages caller (.ready scratch file data)) := by
  have within : stages caller ≠ .outside := written ▸ Stage.noConfusion
  have fits := published.fits caller
  rw [written] at fits
  obtain ⟨isScratch, leads, content⟩ := fits
  exact published.scribble within isScratch leads same unchanged
    ⟨isScratch, leads, Volume.setNode_self.trans (congrArg (Node.mk · true) content)⟩

/-- The writer that has the lock gives its scratch file a public name. -/
theorem Published.rename (published : Published naming start history shelf stages)
    {source destination : String} {file : Nat} {data : Bytes}
    (ready : stages caller = .ready source file data) (isPublic : naming.isPublic destination)
    (same : after.volume = shelf.volume.rename source destination)
    (unchanged : after.locked = shelf.locked) :
    Published naming start
      ⟨history.changes ++ [⟨destination, shelf.volume.contentOf source⟩], history.durable⟩ after
      (Function.update stages caller .inside) := by
  have within : stages caller ≠ .outside := ready ▸ Stage.noConfusion
  have fits := published.fits caller
  rw [ready] at fits
  obtain ⟨isScratch, leads, node⟩ := fits
  refine published.move within unchanged ?_ ?_ trivial
  · rw [same]
    exact published.sound.rename isScratch isPublic leads (congrArg Node.synced node)
  · rw [same]
    exact published.follows.rename isScratch

/-- The writer that has the lock removes a file. -/
theorem Published.remove (published : Published naming start history shelf stages)
    (inside : stages caller = .inside) {name : String}
    (same : after.volume = shelf.volume.remove name) (unchanged : after.locked = shelf.locked) :
    Published naming start ⟨history.changes ++ [⟨name, none⟩], history.durable⟩ after
      (Function.update stages caller .inside) := by
  have within : stages caller ≠ .outside := inside ▸ Stage.noConfusion
  refine published.move within unchanged ?_ ?_ trivial
  · rw [same]
    exact published.sound.remove name
  · rw [same]
    exact published.follows.remove name

/-- The writer that has the lock syncs the directory. -/
theorem Published.syncDirectory (published : Published naming start history shelf stages)
    (inside : stages caller = .inside) (same : after.volume = shelf.volume.syncDirectory)
    (unchanged : after.locked = shelf.locked) :
    Published naming start ⟨history.changes, history.changes.length⟩ after
      (Function.update stages caller .inside) := by
  have within : stages caller ≠ .outside := inside ▸ Stage.noConfusion
  refine published.move within unchanged ?_ ?_ trivial
  · rw [same]
    exact published.sound.syncDirectory
  · rw [same]
    exact published.follows.syncDirectory

/-- One access. -/
theorem Published.step {mayReplace : Replacement → Prop} {progress : Progress}
    {access : FileAccess} {answer : access.Ret}
    (published : Published naming start history shelf stages)
    (own : stages caller = progress.stage) (allowed : progress.allows naming mayReplace access)
    (answers : shelf.Answers access answer after) :
    Published naming start (history.next shelf.volume access answer) after
      (Function.update stages caller (progress.stage.next access answer)) := by
  obtain ⟨tells, part, rfl⟩ := answers
  cases access with
  | lock =>
      rw [show progress.stage = .outside from allowed]
      exact published.enter tells
  | unlock =>
      have leaves : progress.stage.next .unlock answer = .outside := by
        cases progress.stage <;> rfl
      rw [leaves]
      exact published.leave (own ▸ allowed)
  | create name =>
      obtain ⟨inside, isScratch⟩ := allowed
      rw [inside] at own ⊢
      cases answer with
      | error error => exact published.look own rfl rfl
      | ok file =>
          cases tells
          exact published.create own isScratch rfl rfl
  | writeAll file data =>
      obtain ⟨scratch, opened⟩ := allowed
      rw [opened] at own ⊢
      cases answer with
      | error error => exact published.spoil own rfl rfl
      | ok done => exact published.write own rfl rfl
  | syncAll file =>
      obtain ⟨scratch, data, written⟩ := allowed
      rw [written] at own ⊢
      cases answer with
      | error error => exact published.look own rfl rfl
      | ok done => exact published.sync own rfl rfl
  | rename source destination =>
      obtain ⟨file, data, ready, isPublic, -⟩ := allowed
      rw [ready] at own ⊢
      cases answer with
      | error error => exact published.look own rfl rfl
      | ok done => exact published.rename own isPublic rfl rfl
  | removeFile name =>
      obtain ⟨inside, -, -⟩ := allowed
      rw [inside] at own ⊢
      cases answer with
      | error error => exact published.look own rfl rfl
      | ok done => exact published.remove own rfl rfl
  | syncDir =>
      rw [show progress.stage = .inside from allowed] at own ⊢
      cases answer with
      | error error => exact published.look own rfl rfl
      | ok done => exact published.syncDirectory own rfl rfl
  | _ => exact published.look (own.trans (by cases progress.stage <;> rfl)) rfl rfl

end Writers

section Accounting

variable {ι ε α : Type}

/-- The changes that a caller has made. -/
def changesBy [DecidableEq ι] (caller : ι)
    (trace : List (Entry Shelf ι FileAccess FileAccess.Ret ε α)) : List Replacement :=
  trace.flatMap fun entry =>
    match entry.event with
    | .performed actor access answer =>
        if actor = caller then access.adds entry.before.volume answer else []
    | _ => []

/-- An access of a caller has failed. -/
def FailedBy (caller : ι) (trace : List (Entry Shelf ι FileAccess FileAccess.Ret ε α)) : Prop :=
  ∃ entry ∈ trace, ∃ access answer, entry.event = .performed caller access answer ∧
    access.fails answer = true

/-- The callers know what they have done, and but for earlier changes there are no others. -/
structure Accounts [DecidableEq ι] (mayReplace : ι → Replacement → Prop) (first : History)
    (trace : List (Entry Shelf ι FileAccess FileAccess.Ret ε α)) (progresses : ι → Progress) :
    Prop where
  made : ∀ caller, (progresses caller).made = changesBy caller trace
  failed : ∀ caller, (progresses caller).failed = true → FailedBy caller trace
  kept : ∀ caller, ∀ change ∈ (progresses caller).kept,
    change ∈ (first.along trace).changes.take (first.along trace).durable
  meant : ∀ change ∈ (first.along trace).changes,
    change ∈ first.changes ∨ ∃ caller, mayReplace caller change

variable {history first : History} {volume : Volume} {access : FileAccess} {answer : access.Ret}
  {change : Replacement} {shelf after : Shelf} {caller other : ι}
  {trace : List (Entry Shelf ι FileAccess FileAccess.Ret ε α)}

/-- A failure of the past stays one. -/
theorem FailedBy.snoc (failed : FailedBy caller trace)
    (entry : Entry Shelf ι FileAccess FileAccess.Ret ε α) : FailedBy caller (trace ++ [entry]) := by
  obtain ⟨which, member, rest⟩ := failed
  exact ⟨which, List.mem_append_left _ member, rest⟩

variable {naming : Naming} {start : String → Option Bytes} {progresses : ι → Progress}
  {mayReplace : ι → Replacement → Prop}

/-- What a writer believes to change is what an access changes. -/
theorem Published.makes_eq
    (published : Published naming start history shelf fun other => (progresses other).stage)
    (allowed : (progresses caller).allows naming (mayReplace caller) access) :
    (progresses caller).stage.makes access answer = access.adds shelf.volume answer := by
  cases access with
  | rename source destination =>
      obtain ⟨file, data, ready, -, -⟩ := allowed
      have content := published.contentOf_ready ready
      rw [ready]
      cases answer with
      | error error => rfl
      | ok done =>
          rw [FileAccess.adds, content]
          rfl
  | removeFile name =>
      obtain ⟨inside, -, -⟩ := allowed
      rw [inside]
      cases answer <;> rfl
  | _ => cases (progresses caller).stage <;> rfl

/-- Every change was allowed. -/
theorem Published.mayReplace_of_adds
    (published : Published naming start history shelf fun other => (progresses other).stage)
    (allowed : (progresses caller).allows naming (mayReplace caller) access)
    (adds : change ∈ access.adds shelf.volume answer) : mayReplace caller change := by
  cases access with
  | rename source destination =>
      obtain ⟨file, data, ready, -, may⟩ := allowed
      cases answer with
      | error error => cases adds
      | ok done =>
          rw [List.mem_singleton.mp adds, published.contentOf_ready ready]
          exact may
  | removeFile name =>
      obtain ⟨-, -, may⟩ := allowed
      cases answer with
      | error error => cases adds
      | ok done =>
          rw [List.mem_singleton.mp adds]
          exact may
  | _ => cases adds

variable [DecidableEq ι]

/-- A caller's access adds its change. -/
theorem changesBy_self : changesBy caller (trace ++ [⟨shelf, .performed caller access answer⟩]) =
    changesBy caller trace ++ access.adds shelf.volume answer := by
  rw [changesBy, List.flatMap_append, List.flatMap_singleton]
  exact congrArg (changesBy caller trace ++ ·) (if_pos rfl)

theorem changesBy_other (different : other ≠ caller) :
    changesBy other (trace ++ [⟨shelf, .performed caller access answer⟩]) =
      changesBy other trace := by
  rw [changesBy, List.flatMap_append, List.flatMap_singleton]
  exact (congrArg (changesBy other trace ++ ·) (if_neg different.symm)).trans (List.append_nil _)

/-- Other steps make no changes. -/
theorem changesBy_pass {entry : Entry Shelf ι FileAccess FileAccess.Ret ε α}
    (passes : ∀ actor access answer, entry.event ≠ .performed actor access answer) :
    changesBy caller (trace ++ [entry]) = changesBy caller trace := by
  rw [changesBy, List.flatMap_append, List.flatMap_singleton]
  obtain ⟨before, event⟩ := entry
  cases event with
  | performed actor access answer => exact absurd rfl (passes actor access answer)
  | returned actor outcome => exact List.append_nil _
  | drifted => exact List.append_nil _

/-- The changes of a caller are in the history. -/
theorem mem_along_of_changesBy (made : change ∈ changesBy caller trace) :
    change ∈ (first.along trace).changes := by
  induction trace using List.reverseRecOn with
  | nil => cases made
  | append_singleton trace entry ih =>
      obtain ⟨before, event⟩ := entry
      cases event with
      | performed actor access answer =>
          rw [History.along_performed, History.changes_next]
          by_cases own : caller = actor
          · subst own
            rw [changesBy_self] at made
            exact List.mem_append.mpr ((List.mem_append.mp made).imp_left ih)
          · rw [changesBy_other own] at made
            exact List.mem_append_left _ (ih made)
      | returned actor outcome =>
          rw [changesBy_pass (by simp)] at made
          rw [History.along_returned]
          exact ih made
      | drifted =>
          rw [changesBy_pass (by simp)] at made
          rw [History.along_drifted]
          exact ih made

/-- What is durable stays durable. -/
theorem History.mem_take_next (member : change ∈ history.changes.take history.durable) :
    change ∈ (history.next volume access answer).changes.take
      (history.next volume access answer).durable := by
  unfold History.next
  split
  · rw [List.take_append]
    exact List.mem_append_left _ member
  · rw [List.take_append]
    exact List.mem_append_left _ member
  · rw [List.take_length]
    exact List.mem_of_mem_take member
  · exact member

/-- One access, with the changes that each caller has made. -/
theorem Accounts.step (accounts : Accounts mayReplace first trace progresses)
    (published : Published naming start (first.along trace) shelf
      fun other => (progresses other).stage)
    (allowed : (progresses caller).allows naming (mayReplace caller) access) :
    Accounts mayReplace first (trace ++ [⟨shelf, .performed caller access answer⟩])
      (Function.update progresses caller ((progresses caller).next access answer)) := by
  constructor
  · intro other
    by_cases own : other = caller
    · subst own
      rw [Function.update_self, changesBy_self, ← accounts.made other,
        ← published.makes_eq allowed]
      rfl
    · rw [Function.update_of_ne own, changesBy_other own]
      exact accounts.made other
  · intro other failed
    by_cases own : other = caller
    · subst own
      rw [Function.update_self] at failed
      rcases (Bool.or_eq_true _ _).mp failed with earlier | now
      · exact (accounts.failed other earlier).snoc _
      · exact ⟨_, List.mem_append_right _ (List.mem_singleton_self _), access, answer, rfl, now⟩
    · rw [Function.update_of_ne own] at failed
      exact (accounts.failed other failed).snoc _
  · rw [History.along_performed]
    intro other change member
    by_cases own : other = caller
    · subst own
      rw [Function.update_self] at member
      have before : change ∈ (progresses other).kept →
          change ∈ ((first.along trace).next shelf.volume access answer).changes.take
            ((first.along trace).next shelf.volume access answer).durable :=
        fun kept => History.mem_take_next (accounts.kept other change kept)
      cases access with
      | syncDir =>
          cases answer with
          | error error => exact before member
          | ok done =>
              -- everything that was changed so far is on the disk
              change change ∈ (first.along trace).changes.take (first.along trace).changes.length
              rw [List.take_length]
              have made : change ∈ (progresses other).made := member
              rw [accounts.made other] at made
              exact mem_along_of_changesBy made
      | _ => exact before member
    · rw [Function.update_of_ne own] at member
      exact History.mem_take_next (accounts.kept other change member)
  · rw [History.along_performed, History.changes_next]
    intro change member
    rcases List.mem_append.mp member with earlier | now
    · exact accounts.meant change earlier
    · exact .inr ⟨caller, published.mayReplace_of_adds allowed now⟩

end Accounting

end Citadel
