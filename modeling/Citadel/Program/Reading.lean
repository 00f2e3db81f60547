import Citadel.Program.Replacing

/-!
# Reading files that others replace

Readers take no lock. What a caller has read behind a name was published there at one
moment of the call (`Readers`), and a listing that came to its end has every name that
stayed as it was meanwhile (`Listers`). `Consistent` collects what holds of the files and
of all callers after a trace.
-/

namespace Citadel

/-- A file is old and no scratch name leads to it. -/
structure Volume.Settled (naming : Naming) (volume : Volume) (file : Nat) : Prop where
  old : file < volume.next
  unused : ∀ scratch, naming.isScratch scratch → volume.directory scratch ≠ some file

section Reading

variable {ι ε α : Type}

/-- The public files satisfied this at some moment, at which the caller made an access. -/
def AtSomeMoment (start : String → Option Bytes) (first : History)
    (trace : List (Entry Shelf ι FileAccess FileAccess.Ret ε α)) (caller : ι)
    (holds : (String → Option Bytes) → Prop) : Prop :=
  ∃ past entry rest, trace = past ++ entry :: rest ∧ entry.event.caller? = some caller ∧
    holds (contentAfter start (first.along past).changes)

/-- What callers have open and have read was published. -/
structure Readers (naming : Naming) (start : String → Option Bytes) (first : History)
    (trace : List (Entry Shelf ι FileAccess FileAccess.Ret ε α)) (volume : Volume)
    (progresses : ι → Progress) : Prop where
  handle : ∀ caller name file, (progresses caller).handle = some (name, file) →
    AtSomeMoment start first trace caller (fun files =>
      files name = some (volume.node file).content) ∧ volume.Settled naming file
  seen : ∀ caller name content, (name, content) ∈ (progresses caller).seen →
    AtSomeMoment start first trace caller fun files => files name = content

variable {start : String → Option Bytes} {first : History} {naming : Naming}
  {trace : List (Entry Shelf ι FileAccess FileAccess.Ret ε α)} {caller : ι} {name : String}
  {content : Option Bytes} {holds : (String → Option Bytes) → Prop}

/-- A moment of the past stays one. -/
theorem AtSomeMoment.snoc (moment : AtSomeMoment start first trace caller holds)
    (entry : Entry Shelf ι FileAccess FileAccess.Ret ε α) :
    AtSomeMoment start first (trace ++ [entry]) caller holds := by
  obtain ⟨past, now, rest, rfl, own, found⟩ := moment
  exact ⟨past, now, rest ++ [entry], by rw [List.append_assoc, List.cons_append], own, found⟩

theorem AtSomeMoment.imp {weaker : (String → Option Bytes) → Prop}
    (moment : AtSomeMoment start first trace caller holds)
    (implies : ∀ files, holds files → weaker files) :
    AtSomeMoment start first trace caller weaker := by
  obtain ⟨past, now, rest, same, own, found⟩ := moment
  exact ⟨past, now, rest, same, own, implies _ found⟩

section Settled

variable {volume : Volume} {file other : Nat} {node : Node}

/-- Writing to a scratch file leaves settled files alone. -/
theorem Volume.Settled.setNode (settled : volume.Settled naming file) {scratch : String}
    (isScratch : naming.isScratch scratch) (leads : volume.directory scratch = some other) :
    (volume.setNode other node).Settled naming file ∧
      ((volume.setNode other node).node file).content = (volume.node file).content := by
  have different : file ≠ other := by
    rintro rfl
    exact settled.unused scratch isScratch leads
  exact ⟨⟨settled.old, settled.unused⟩, congrArg Node.content (setNode_of_ne different)⟩

theorem Volume.Settled.create (settled : volume.Settled naming file) {scratch : String}
    (isScratch : naming.isScratch scratch) : (volume.create scratch).Settled naming file ∧
      ((volume.create scratch).node file).content = (volume.node file).content := by
  unfold Volume.create
  split
  · rename_i leads
    exact settled.setNode isScratch leads
  · have different : file ≠ volume.next := Nat.ne_of_lt settled.old
    refine ⟨⟨settled.old.trans (Nat.lt_succ_self _), fun name also named => ?_⟩,
      congrArg Node.content (setNode_of_ne different)⟩
    by_cases same : name = scratch
    · subst same
      rw [setDirectory_directory, Function.update_self] at named
      exact different (Option.some.inj named).symm
    · rw [setDirectory_directory, Function.update_of_ne same] at named
      exact settled.unused name also named

/-- A settled file stays settled when another takes its name. -/
theorem Volume.Settled.rename (settled : volume.Settled naming file) {source destination : String}
    (isPublic : naming.isPublic destination) :
    (volume.rename source destination).Settled naming file where
  old := settled.old
  unused := by
    intro name isScratch named
    have different : name ≠ destination := by
      rintro rfl
      exact naming.apart name isScratch isPublic
    rw [Volume.rename, setDirectory_directory, Function.update_of_ne different] at named
    by_cases same : name = source
    · subst same
      rw [Function.update_self] at named
      cases named
    · rw [Function.update_of_ne same] at named
      exact settled.unused name isScratch named

theorem Volume.Settled.remove (settled : volume.Settled naming file) (name : String) :
    (volume.remove name).Settled naming file where
  old := settled.old
  unused := by
    intro other isScratch named
    by_cases same : other = name
    · subst same
      rw [Volume.remove, setDirectory_directory, Function.update_self] at named
      cases named
    · rw [Volume.remove, setDirectory_directory, Function.update_of_ne same] at named
      exact settled.unused other isScratch named

/-- A settled file keeps its content. -/
theorem Volume.Settled.step {mayReplace : Replacement → Prop} {shelf after : Shelf}
    {stages : ι → Stage} {progress : Progress} {access : FileAccess} {answer : access.Ret}
    {history : History} (settled : shelf.volume.Settled naming file)
    (published : Published naming start history shelf stages)
    (own : stages caller = progress.stage) (allowed : progress.allows naming mayReplace access)
    (answers : shelf.Answers access answer after) : after.volume.Settled naming file ∧
      (after.volume.node file).content = (shelf.volume.node file).content := by
  obtain ⟨-, part, rfl⟩ := answers
  have fits := published.fits caller
  rw [own] at fits
  cases access with
  | create name =>
      cases answer with
      | error error => exact ⟨settled, rfl⟩
      | ok opened => exact settled.create allowed.2
  | writeAll written data =>
      obtain ⟨scratch, stage⟩ := allowed
      rw [stage] at fits
      cases answer with
      | error error => exact settled.setNode fits.1 fits.2
      | ok done => exact settled.setNode fits.1 fits.2
  | syncAll synced =>
      obtain ⟨scratch, data, stage⟩ := allowed
      rw [stage] at fits
      cases answer with
      | error error => exact ⟨settled, rfl⟩
      | ok done => exact settled.setNode fits.1 fits.2.1
  | rename source destination =>
      obtain ⟨_, _, -, isPublic, -⟩ := allowed
      cases answer with
      | error error => exact ⟨settled, rfl⟩
      | ok done => exact ⟨settled.rename isPublic, rfl⟩
  | removeFile name =>
      cases answer with
      | error error => exact ⟨settled, rfl⟩
      | ok done => exact ⟨settled.remove name, rfl⟩
  | syncDir =>
      cases answer with
      | error error => exact ⟨settled, rfl⟩
      | ok done => exact ⟨⟨settled.old, settled.unused⟩, rfl⟩
  | _ => exact ⟨settled, rfl⟩

end Settled

variable {shelf after : Shelf} {progresses : ι → Progress} {mayReplace : Replacement → Prop}
  {access : FileAccess} {answer : access.Ret}

/-- What holds of the files is true of what was published at that moment. -/
theorem AtSomeMoment.now (found : holds (contentAfter start (first.along trace).changes)) :
    AtSomeMoment start first (trace ++ [⟨shelf, .performed caller access answer⟩]) caller holds :=
  ⟨trace, _, [], rfl, rfl, found⟩

/-- A file that was just opened behind a public name. -/
theorem Volume.Sound.settled {volume : Volume} {file : Nat} (sound : volume.Sound naming)
    (isPublic : naming.isPublic name) (leads : volume.directory name = some file) :
    volume.Settled naming file where
  old := sound.below _ Volume.mem_directories name file leads
  unused scratch isScratch also :=
    sound.unpublished _ Volume.mem_directories scratch name file isScratch isPublic also leads

/-- What was open stays open, with its content. -/
theorem Readers.kept (readers : Readers naming start first trace shelf.volume progresses)
    (published : Published naming start (first.along trace) shelf
      fun other => (progresses other).stage)
    (allowed : (progresses caller).allows naming mayReplace access)
    (answers : shelf.Answers access answer after) {other : ι} {file : Nat}
    (isOpen : (progresses other).handle = some (name, file)) :
    AtSomeMoment start first (trace ++ [⟨shelf, .performed caller access answer⟩]) other
        (fun files => files name = some (after.volume.node file).content) ∧
      after.volume.Settled naming file := by
  obtain ⟨seen, settled⟩ := readers.handle other name file isOpen
  obtain ⟨settles, same⟩ := settled.step published rfl allowed answers
  rw [same]
  exact ⟨seen.snoc _, settles⟩

/-- What a caller has open after an access. -/
theorem Readers.opens (readers : Readers naming start first trace shelf.volume progresses)
    (published : Published naming start (first.along trace) shelf
      fun other => (progresses other).stage)
    (allowed : (progresses caller).allows naming mayReplace access)
    (answers : shelf.Answers access answer after) {file : Nat}
    (isOpen : ((progresses caller).next access answer).handle = some (name, file)) :
    AtSomeMoment start first (trace ++ [⟨shelf, .performed caller access answer⟩]) caller
        (fun files => files name = some (after.volume.node file).content) ∧
      after.volume.Settled naming file := by
  cases access with
  | openFile opened =>
      cases answer with
      | error error => exact readers.kept published allowed answers isOpen
      | ok found =>
          cases isOpen
          obtain ⟨leads, part, rfl⟩ := answers
          have leads : shelf.volume.directory name = some file := leads
          have isPublic : naming.isPublic name := allowed
          have content : shelf.volume.contentOf name = some (shelf.volume.node file).content := by
            rw [Volume.contentOf, Volume.contentIn, leads, Option.map_some]
          exact ⟨.now ((published.follows.now name isPublic).symm.trans content),
            published.sound.settled isPublic leads⟩
  | _ => exact readers.kept published allowed answers isOpen

/-- What an access finds behind a name is there now or was there when the file was opened. -/
theorem Readers.finds (readers : Readers naming start first trace shelf.volume progresses)
    (published : Published naming start (first.along trace) shelf
      fun other => (progresses other).stage)
    (allowed : (progresses caller).allows naming mayReplace access)
    (answers : shelf.Answers access answer after)
    (found : (name, content) ∈ ((progresses caller).next access answer).seen) :
    AtSomeMoment start first (trace ++ [⟨shelf, .performed caller access answer⟩]) caller
      fun files => files name = content := by
  rcases List.mem_append.mp found with earlier | last
  · exact (readers.seen caller name content earlier).snoc _
  · cases access with
    | stat looked =>
        rcases answer with error | _ | _
        · cases last
        · cases List.mem_singleton.mp last
          have absent : false = (shelf.volume.directory name).isSome := answers.1
          have nothing : shelf.volume.contentOf name = none := by
            rw [Volume.contentOf, Volume.contentIn,
              Option.isNone_iff_eq_none.mp (Option.isSome_eq_false_iff.mp absent.symm)]
            rfl
          exact .now ((published.follows.now name allowed).symm.trans nothing)
        · cases last
    | readAll file =>
        cases answer with
        | error error => cases last
        | ok data =>
            obtain ⟨opened, isOpen⟩ := allowed
            change (name, content) ∈ ((progresses caller).handle.toList.map _) at last
            rw [isOpen] at last
            cases List.mem_singleton.mp last
            rw [show data = (shelf.volume.node file).content from answers.1]
            exact (readers.handle caller opened file isOpen).1.snoc _
    | _ => cases last

/-- One access of a caller, with what readers know. -/
theorem Readers.step [DecidableEq ι]
    (readers : Readers naming start first trace shelf.volume progresses)
    (published : Published naming start (first.along trace) shelf
      fun other => (progresses other).stage)
    (allowed : (progresses caller).allows naming mayReplace access)
    (answers : shelf.Answers access answer after) :
    Readers naming start first (trace ++ [⟨shelf, .performed caller access answer⟩]) after.volume
      (Function.update progresses caller ((progresses caller).next access answer)) := by
  constructor
  · intro other name file isOpen
    by_cases own : other = caller
    · subst own
      rw [Function.update_self] at isOpen
      exact readers.opens published allowed answers isOpen
    · rw [Function.update_of_ne own] at isOpen
      exact readers.kept published allowed answers isOpen
  · intro other name content member
    by_cases own : other = caller
    · subst own
      rw [Function.update_self] at member
      exact readers.finds published allowed answers member
    · rw [Function.update_of_ne own] at member
      exact (readers.seen other name content member).snoc _

/-- The changes in a trace. -/
def changesIn (trace : List (Entry Shelf ι FileAccess FileAccess.Ret ε α)) : List Replacement :=
  trace.flatMap fun entry =>
    match entry.event with
    | .performed _ access answer => access.adds entry.before.volume answer
    | _ => []

/-- The names that were yielded to a caller. -/
def namesTo [DecidableEq ι] (caller : ι)
    (trace : List (Entry Shelf ι FileAccess FileAccess.Ret ε α)) : List String :=
  trace.flatMap fun entry =>
    match entry.event with
    | .performed actor access answer => if actor = caller then access.yields answer else []
    | _ => []

/-- A public name that was there after `past`, and was not changed during the rest. -/
structure StaysPut (naming : Naming) (start : String → Option Bytes) (first : History)
    (past during : List (Entry Shelf ι FileAccess FileAccess.Ret ε α)) (name : String) : Prop where
  isPublic : naming.isPublic name
  there : (contentAfter start (first.along past).changes name).isSome
  unchanged : ∀ change ∈ changesIn during, change.name ≠ name

/-- Every public name that stays as it is from one access of the caller to another is among
these. -/
def Complete (naming : Naming) (start : String → Option Bytes) (first : History)
    (trace : List (Entry Shelf ι FileAccess FileAccess.Ret ε α)) (caller : ι)
    (names : List String) : Prop :=
  ∃ past opening during closing rest,
    trace = past ++ opening :: (during ++ closing :: rest) ∧
      opening.event.caller? = some caller ∧ closing.event.caller? = some caller ∧
      ∀ name, StaysPut naming start first past (opening :: during) name → name ∈ names

/-- What listings owe their callers, and what they have yielded to them. -/
structure Listers [DecidableEq ι] (naming : Naming) (start : String → Option Bytes)
    (first : History) (trace : List (Entry Shelf ι FileAccess FileAccess.Ret ε α))
    (listings : Listings) (progresses : ι → Progress) : Prop where
  named : ∀ caller, (progresses caller).named = namesTo caller trace
  /-- No two callers have the same listing. -/
  apart : ∀ caller other listing, (progresses caller).listing = some listing →
    (progresses other).listing = some listing → caller = other
  old : ∀ caller listing, (progresses caller).listing = some listing → listing < listings.opened
  owing : ∀ caller listing, (progresses caller).listing = some listing →
    ∃ past opening during, trace = past ++ opening :: during ∧
      opening.event.caller? = some caller ∧
      ∀ name, StaysPut naming start first past (opening :: during) name →
        name ∈ (progresses caller).named ∨ listings.owes listing name = true
  ended : ∀ caller, (progresses caller).listed = true →
    Complete naming start first trace caller (progresses caller).named

section Listing

variable {listings : Listings} {history : History}
  {past : List (Entry Shelf ι FileAccess FileAccess.Ret ε α)}

theorem changesIn_append (rest : List (Entry Shelf ι FileAccess FileAccess.Ret ε α)) :
    changesIn (trace ++ rest) = changesIn trace ++ changesIn rest :=
  List.flatMap_append

/-- A caller is told the names that its own accesses yield. -/
theorem namesTo_self [DecidableEq ι] :
    namesTo caller (trace ++ [⟨shelf, .performed caller access answer⟩]) =
    namesTo caller trace ++ access.yields answer := by
  rw [namesTo, List.flatMap_append, List.flatMap_singleton]
  exact congrArg (namesTo caller trace ++ ·) (if_pos rfl)

theorem namesTo_other [DecidableEq ι] {other : ι} (different : other ≠ caller) :
    namesTo other (trace ++ [⟨shelf, .performed caller access answer⟩]) =
      namesTo other trace := by
  rw [namesTo, List.flatMap_append, List.flatMap_singleton]
  exact (congrArg (namesTo other trace ++ ·) (if_neg different.symm)).trans (List.append_nil _)

/-- A name that stays as it is to the end has stayed so before. -/
theorem StaysPut.before (during : List (Entry Shelf ι FileAccess FileAccess.Ret ε α))
    {rest : List (Entry Shelf ι FileAccess FileAccess.Ret ε α)}
    (stays : StaysPut naming start first past (during ++ rest) name) :
    StaysPut naming start first past during name where
  isPublic := stays.isPublic
  there := stays.there
  unchanged change member :=
    stays.unchanged change (changesIn_append rest ▸ List.mem_append_left _ member)

/-- What is complete stays so. -/
theorem Complete.snoc {names more : List String}
    (complete : Complete naming start first trace caller names) (subset : names ⊆ more)
    (entry : Entry Shelf ι FileAccess FileAccess.Ret ε α) :
    Complete naming start first (trace ++ [entry]) caller more := by
  obtain ⟨past, opening, during, closing, rest, rfl, opens, closes, every⟩ := complete
  exact ⟨past, opening, during, closing, rest ++ [entry],
    by simp only [List.append_assoc, List.cons_append], opens, closes,
    fun name stays => subset (every name stays)⟩

/-- Other steps do not concern the listings. -/
theorem Listers.pass [DecidableEq ι] {entry : Entry Shelf ι FileAccess FileAccess.Ret ε α}
    (listers : Listers naming start first trace listings progresses)
    (passes : ∀ actor access answer, entry.event ≠ .performed actor access answer) :
    Listers naming start first (trace ++ [entry]) listings progresses where
  named := by
    intro caller
    rw [listers.named caller, namesTo, namesTo, List.flatMap_append, List.flatMap_singleton]
    obtain ⟨before, event⟩ := entry
    cases event with
    | performed actor access answer => exact absurd rfl (passes actor access answer)
    | returned actor outcome => exact (List.append_nil _).symm
    | drifted => exact (List.append_nil _).symm
  apart := listers.apart
  old := listers.old
  owing := by
    intro caller listing mine
    obtain ⟨past, opening, during, rfl, opens, owed⟩ := listers.owing caller listing mine
    exact ⟨past, opening, during ++ [entry],
      by rw [List.append_assoc, List.cons_append], opens,
      fun name stays => owed name (StaysPut.before (opening :: during) stays)⟩
  ended := fun caller ended => (listers.ended caller ended).snoc (List.Subset.refl _) entry

/-- The listing that a caller has after an access: the one that it had, or a new one. -/
theorem Progress.listing_next {progress : Progress} {listing : Nat}
    (mine : (progress.next access answer).listing = some listing)
    (tells : shelf.Tells access answer) : progress.listing = some listing ∨
      listing = shelf.listings.opened ∧
        listing < (shelf.listings.next shelf.volume.directory access answer).opened ∧
        (shelf.listings.next shelf.volume.directory access answer).owes listing =
          fun name => (shelf.volume.directory name).isSome := by
  cases access with
  | readDir =>
      cases answer with
      | error error => exact .inl mine
      | ok opened =>
          cases mine
          cases tells
          exact .inr ⟨rfl, Nat.lt_succ_self _, Function.update_self _ _ _⟩
  | _ => exact .inl mine

/-- Public names are not renamed. -/
theorem Published.unmoved (published : Published naming start history shelf
      fun other => (progresses other).stage)
    (allowed : (progresses caller).allows naming mayReplace access)
    (isPublic : naming.isPublic name) (destination : String) :
    access ≠ .rename name destination := by
  rintro rfl
  obtain ⟨file, data, ready, -, -⟩ := allowed
  have fits := published.fits caller
  simp only [ready] at fits
  exact naming.apart name fits.1 isPublic

/-- A name that is there is owed by a listing that is opened now. -/
theorem Published.owed (published : Published naming start history shelf
      fun other => (progresses other).stage) (isPublic : naming.isPublic name)
    (there : (contentAfter start history.changes name).isSome) :
    (shelf.volume.directory name).isSome = true := by
  rw [← published.follows.now name isPublic, Volume.contentOf, Volume.contentIn,
    Option.isSome_map] at there
  exact there

variable [DecidableEq ι]

/-- What is owed to a caller is still owed after an access, or has been yielded to it. -/
theorem Listers.still_owed (listers : Listers naming start first trace shelf.listings progresses)
    (published : Published naming start (first.along trace) shelf
      fun other => (progresses other).stage)
    (allowed : (progresses caller).allows naming mayReplace access) {other : ι} {listing : Nat}
    (mine : (progresses other).listing = some listing) (isPublic : naming.isPublic name)
    (unchanged : ∀ change ∈ access.adds shelf.volume answer, change.name ≠ name)
    (owed : shelf.listings.owes listing name = true) :
    (shelf.listings.next shelf.volume.directory access answer).owes listing name = true ∨
      other = caller ∧ name ∈ access.yields answer := by
  rcases Listings.owes_next owed (listers.old other listing mine)
    (published.unmoved allowed isPublic) unchanged with still | ⟨rfl, yielded⟩
  · exact .inl still
  · exact .inr ⟨listers.apart other caller listing mine allowed, yielded⟩

/-- A listing at its end has yielded what it owed. -/
theorem Listers.ends (listers : Listers naming start first trace shelf.listings progresses)
    (tells : shelf.Tells access answer)
    (allowed : (progresses caller).allows naming mayReplace access)
    (now : access.ends answer = true) :
    Complete naming start first (trace ++ [⟨shelf, .performed caller access answer⟩]) caller
      ((progresses caller).next access answer).named := by
  cases access with
  | nextEntry listing =>
      rcases answer with error | _ | name
      · cases now
      · obtain ⟨past, opening, during, rfl, opens, owed⟩ :=
          listers.owing caller listing allowed
        refine ⟨past, opening, during, _, [], by rw [List.append_assoc, List.cons_append], opens,
          rfl, fun name stays => List.mem_append_left _ ?_⟩
        rcases owed name stays with named | still
        · exact named
        · rw [tells name] at still
          cases still
      · cases now
  | _ => cases now

/-- One access of a caller, with what listings know. -/
theorem Listers.step (listers : Listers naming start first trace shelf.listings progresses)
    (published : Published naming start (first.along trace) shelf
      fun other => (progresses other).stage)
    (allowed : (progresses caller).allows naming mayReplace access)
    (answers : shelf.Answers access answer after) :
    Listers naming start first (trace ++ [⟨shelf, .performed caller access answer⟩])
      after.listings
      (Function.update progresses caller ((progresses caller).next access answer)) := by
  obtain ⟨tells, part, rfl⟩ := answers
  -- the listing of a caller is the one that it had, or one that it has just opened
  have had : ∀ {other listing}, (Function.update progresses caller
      ((progresses caller).next access answer) other).listing = some listing →
        (progresses other).listing = some listing ∨
          other = caller ∧ listing = shelf.listings.opened ∧
            listing < (shelf.listings.next shelf.volume.directory access answer).opened ∧
            (shelf.listings.next shelf.volume.directory access answer).owes listing =
              fun name => (shelf.volume.directory name).isSome := by
    intro other listing has
    by_cases own : other = caller
    · subst own
      rw [Function.update_self] at has
      exact (Progress.listing_next has tells).imp_right fun fresh => ⟨rfl, fresh⟩
    · rw [Function.update_of_ne own] at has
      exact .inl has
  have grows : ∀ other, (progresses other).named ⊆ (Function.update progresses caller
      ((progresses caller).next access answer) other).named := by
    intro other
    by_cases own : other = caller
    · subst own
      rw [Function.update_self]
      exact List.subset_append_left _ _
    · rw [Function.update_of_ne own]
      exact List.Subset.refl _
  constructor
  · intro other
    by_cases own : other = caller
    · subst own
      rw [Function.update_self, namesTo_self, ← listers.named other]
      rfl
    · rw [Function.update_of_ne own, namesTo_other own]
      exact listers.named other
  · intro left right listing leftHas rightHas
    rcases had leftHas with leftHad | ⟨rfl, rfl, -⟩
    · rcases had rightHas with rightHad | ⟨rfl, rfl, -⟩
      · exact listers.apart left right listing leftHad rightHad
      · exact absurd (listers.old left _ leftHad) (Nat.lt_irrefl _)
    · rcases had rightHas with rightHad | ⟨rfl, -⟩
      · exact absurd (listers.old right _ rightHad) (Nat.lt_irrefl _)
      · rfl
  · intro other listing has
    rcases had has with earlier | ⟨-, -, below, -⟩
    · exact (listers.old other listing earlier).trans_le Listings.opened_le_next
    · exact below
  · intro other listing has
    rcases had has with earlier | ⟨rfl, rfl, -, owes⟩
    · obtain ⟨past, opening, during, rfl, opens, owed⟩ := listers.owing other listing earlier
      refine ⟨past, opening, during ++ [⟨shelf, .performed caller access answer⟩],
        by rw [List.append_assoc, List.cons_append], opens, fun name stays => ?_⟩
      have unchanged : ∀ change ∈ access.adds shelf.volume answer, change.name ≠ name := by
        intro change member
        refine stays.unchanged change ?_
        rw [← List.cons_append, changesIn_append]
        exact List.mem_append_right _ (List.mem_append_left _ member)
      rcases owed name (StaysPut.before (opening :: during) stays) with named | still
      · exact .inl (grows other named)
      · rcases listers.still_owed published allowed earlier stays.isPublic unchanged still with
          after | ⟨rfl, yielded⟩
        · exact .inr after
        · rw [Function.update_self]
          exact .inl (List.mem_append_right _ yielded)
    · refine ⟨trace, _, [], rfl, rfl, fun name stays => .inr ?_⟩
      rw [show (shelf.next part access answer).listings.owes shelf.listings.opened = _ from owes]
      exact published.owed stays.isPublic stays.there
  · intro other ended
    by_cases own : other = caller
    · subst own
      rw [Function.update_self] at ended ⊢
      rcases (Bool.or_eq_true _ _).mp ended with earlier | now
      · exact (listers.ended other earlier).snoc (List.subset_append_left _ _) _
      · exact listers.ends tells allowed now
    · rw [Function.update_of_ne own] at ended ⊢
      exact (listers.ended other ended).snoc (List.Subset.refl _) _

end Listing

end Reading

section Interleaved

variable {ι ε α : Type} [DecidableEq ι] {naming : Naming} {start : String → Option Bytes}
  {first : History} {mayReplace : ι → Replacement → Prop}
  {post : ι → Progress → Outcome ε α → Prop}
  {begin pool : Pool ι Shelf FileAccess FileAccess.Ret ε α}
  {trace : List (Entry Shelf ι FileAccess FileAccess.Ret ε α)}

/-- What the callers have done and seen. -/
def progressesOf (naming : Naming) (mayReplace : ι → Replacement → Prop)
    (trace : List (Entry Shelf ι FileAccess FileAccess.Ret ε α)) (caller : ι) : Progress :=
  (replacing naming (mayReplace caller)).ghostOf .start caller trace

/-- An access moves the progress of its caller. -/
theorem progressesOf_performed {before : Shelf} {caller : ι} {access : FileAccess}
    {answer : access.Ret} :
    progressesOf naming mayReplace (trace ++ [⟨before, .performed caller access answer⟩]) =
      Function.update (progressesOf naming mayReplace trace) caller
        ((progressesOf naming mayReplace trace caller).next access answer) := by
  funext other
  by_cases same : other = caller
  · subst same
    rw [Function.update_self, progressesOf, Contract.ghostOf_performed_self]
    rfl
  · rw [Function.update_of_ne same, progressesOf, Contract.ghostOf_performed_other (Ne.symm same)]
    rfl

theorem progressesOf_returned {before : Shelf} {caller : ι} {outcome : Outcome ε α} :
    progressesOf naming mayReplace (trace ++ [⟨before, .returned caller outcome⟩]) =
      progressesOf naming mayReplace trace := by
  funext other
  rw [progressesOf, Contract.ghostOf_returned]
  rfl

theorem progressesOf_drifted {before : Shelf} :
    progressesOf naming mayReplace (trace ++ [⟨before, .drifted⟩]) =
      progressesOf naming mayReplace trace := by
  funext other
  rw [progressesOf, Contract.ghostOf_drifted]
  rfl

/-- The files, the accounts and the readers agree with the trace. -/
structure Consistent (naming : Naming) (mayReplace : ι → Replacement → Prop)
    (start : String → Option Bytes) (first : History)
    (trace : List (Entry Shelf ι FileAccess FileAccess.Ret ε α)) (shelf : Shelf) : Prop where
  published : Published naming start (first.along trace) shelf fun caller =>
    (progressesOf naming mayReplace trace caller).stage
  accounts : Accounts mayReplace first trace (progressesOf naming mayReplace trace)
  readers : Readers naming start first trace shelf.volume (progressesOf naming mayReplace trace)
  listers : Listers naming start first trace shelf.listings (progressesOf naming mayReplace trace)

/-- Nothing has been read at the start. -/
theorem consistent_initial {volume : Volume} (sound : volume.Sound naming)
    (follows : volume.Follows naming start first) :
    Consistent naming mayReplace start first
      ([] : List (Entry Shelf ι FileAccess FileAccess.Ret ε α)) (.fresh volume) where
  published :=
    { sound := sound
      follows := follows
      exclusive := ⟨fun _ _ => rfl, fun _ _ within => absurd rfl within⟩
      fits := fun _ => trivial }
  accounts :=
    { made := fun _ => rfl
      failed := fun _ failed => by cases failed
      kept := fun _ _ member => by cases member
      meant := fun _ member => .inl member }
  readers :=
    { handle := fun _ _ _ isOpen => by cases isOpen
      seen := fun _ _ _ member => by cases member }
  listers :=
    { named := fun _ => rfl
      apart := fun _ _ _ mine => by cases mine
      old := fun _ _ mine => by cases mine
      owing := fun _ _ mine => by cases mine
      ended := fun _ ended => by cases ended }

/-- One access in an interleaving. -/
theorem Consistent.step {shelf after : Shelf} {caller : ι} {access : FileAccess}
    {answer : access.Ret} (consistent : Consistent naming mayReplace start first trace shelf)
    (allowed : (progressesOf naming mayReplace trace caller).allows naming (mayReplace caller)
      access) (answers : shelf.Answers access answer after) :
    Consistent naming mayReplace start first
      (trace ++ [⟨shelf, .performed caller access answer⟩]) after := by
  have stages : (fun other => (progressesOf naming mayReplace
      (trace ++ [⟨shelf, .performed caller access answer⟩]) other).stage) =
        Function.update (fun other => (progressesOf naming mayReplace trace other).stage) caller
          ((progressesOf naming mayReplace trace caller).stage.next access answer) := by
    funext other
    rw [progressesOf_performed]
    by_cases same : other = caller
    · subst same
      rw [Function.update_self, Function.update_self]
      rfl
    · rw [Function.update_of_ne same, Function.update_of_ne same]
  constructor
  · rw [History.along_performed, stages]
    exact consistent.published.step rfl allowed answers
  · rw [progressesOf_performed]
    exact consistent.accounts.step consistent.published allowed
  · rw [progressesOf_performed]
    exact consistent.readers.step consistent.published allowed answers
  · rw [progressesOf_performed]
    exact consistent.listers.step consistent.published allowed answers

/-- A step that no caller takes on the files. -/
theorem Consistent.pass {shelf : Shelf} {entry : Entry Shelf ι FileAccess FileAccess.Ret ε α}
    (consistent : Consistent naming mayReplace start first trace shelf)
    (passes : ∀ actor access answer, entry.event ≠ .performed actor access answer)
    (history : first.along (trace ++ [entry]) = first.along trace)
    (progresses : progressesOf naming mayReplace (trace ++ [entry]) =
      progressesOf naming mayReplace trace) :
    Consistent naming mayReplace start first (trace ++ [entry]) shelf := by
  constructor
  · rw [history, progresses]
    exact consistent.published
  · rw [progresses]
    constructor
    · intro other
      rw [changesBy_pass passes]
      exact consistent.accounts.made other
    · exact fun other failed => (consistent.accounts.failed other failed).snoc _
    · rw [history]
      exact consistent.accounts.kept
    · rw [history]
      exact consistent.accounts.meant
  · rw [progresses]
    constructor
    · intro other name file isOpen
      obtain ⟨moment, settled⟩ := consistent.readers.handle other name file isOpen
      exact ⟨moment.snoc _, settled⟩
    · exact fun other name content member =>
        (consistent.readers.seen other name content member).snoc _
  · rw [progresses]
    exact consistent.listers.pass passes

/-- Whatever the interleaving, the files agree with the trace, and every caller keeps to
its contract. -/
theorem consistent_of_runs {volume : Volume} (sound : volume.Sound naming)
    (follows : volume.Follows naming start first) (begins : begin.shared = .fresh volume)
    (initially : ∀ caller, Pool.ThreadMeets (replacing naming (mayReplace caller)) .start
      (post caller) (begin.thread caller))
    (runs : Pool.Runs shelves begin trace pool) :
    Consistent naming mayReplace start first trace pool.shared ∧ ∀ caller,
      Pool.ThreadMeets (replacing naming (mayReplace caller))
        (progressesOf naming mayReplace trace caller) (post caller) (pool.thread caller) := by
  refine Pool.Runs.rely (Consistent naming mayReplace start first) ?_ initially ?_ ?_ ?_ ?_ runs
  · intro trace shared caller state access answer after consistent answers
    trivial
  · rw [begins]
    exact consistent_initial sound follows
  · intro trace shared caller access answer after consistent allowed answers
    exact consistent.step allowed answers
  · intro trace shared caller outcome consistent ended
    exact consistent.pass (by simp) (History.along_returned first trace) progressesOf_returned
  · intro trace shared after consistent drifts
    obtain rfl : after = shared := drifts
    exact consistent.pass (by simp) (History.along_drifted first trace) progressesOf_drifted

end Interleaved

end Citadel
