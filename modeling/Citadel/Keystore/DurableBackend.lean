import Citadel.Keystore.BackendRefinement
import Citadel.Program.Reading

/-!
# The file backend, access by access

The calls of the file backend once more, as the accesses to files that they are made of:
what a call writes is synced before it gets its name, and the directory is synced after
that. Every access may fail, and the accesses of different calls interleave.
-/

namespace Citadel

open Paths Program

namespace DurableBackend

variable (format : KeyFormat) (backend : FileBackend)

/-- `write_restricted`. -/
def writeRestricted (path : String) (data : Bytes) :
    Program FileAccess FileAccess.Ret String Unit := do
  let file ← ofExcept id (← call (.create path))
  ofExcept id (← call (.writeAll file data))
  ofExcept id (← call (.syncAll file))

/-- `fs::read_to_string`. -/
def readToString (path : String) : Program FileAccess FileAccess.Ret String String := do
  let file ← ofExcept id (← call (.openFile path))
  let content ← ofExcept id (← call (.readAll file))
  ofOption Disk.invalidUtf8 (decodeUtf8 content)

/-- `read_key_file`. -/
def readKeyFile (path : String) : Program FileAccess FileAccess.Ret KeystoreError KeyMetadata := do
  let data ← (readToString path).mapErr fun error => .storageError s!"read: {error}"
  ofExcept (fun error => .storageError s!"parse: {error}") (format.fromStr .deserialize data)

/-- What runs while the guard of `mutation_lock` lives. -/
def guarded {α : Type} (body : Program FileAccess FileAccess.Ret KeystoreError α) :
    Program FileAccess FileAccess.Ret KeystoreError α := do
  let _ ← call .lock
  let result ← body.attempt
  let _ ← call .unlock
  ofExcept id result

/-- `Path::exists`. A look that fails says that the file is not there. -/
def pathExists (path : String) : Program FileAccess FileAccess.Ret KeystoreError Bool := do
  let found : Except String Bool ← call (FileAccess.stat path)
  match found with
  | .ok found => return found
  | .error _ => return false

/-- `get`. -/
def get (id : KeyId) : Program FileAccess FileAccess.Ret KeystoreError (Option KeyMetadata) := do
  let path := backend.keyPath id
  if (← pathExists path) = false then return none
  else do
    let record ← readKeyFile format path
    return some record

/-- `put`. -/
def put (record : KeyMetadata) : Program FileAccess FileAccess.Ret KeystoreError Unit :=
  guarded do
    let path := backend.keyPath record.id
    let json ← ofExcept (fun error => .storageError s!"serialize: {error}")
      (format.toStringPretty SecretKeyMaterial.serialize record)
    let tmp := withExtension path "tmp"
    (writeRestricted tmp (utf8 json)).mapErr fun error => .storageError s!"write: {error}"
    ofExcept (fun error => .storageError s!"rename: {error}") (← call (.rename tmp path))
    ofExcept (fun error => .storageError s!"open dir: {error}") (← call .openDir)
    ofExcept (fun error => .storageError s!"dir fsync: {error}") (← call .syncDir)

/-- `delete`. The directory is not synced. -/
def delete (id : KeyId) : Program FileAccess FileAccess.Ret KeystoreError Unit :=
  guarded do
    let path := backend.keyPath id
    if (← pathExists path) = false then return ()
    else ofExcept (fun error => .storageError s!"delete: {error}") (← call (.removeFile path))

/-- The loop of `list` over the entries, for at most this many of them. -/
def readEntries (listing : Nat) :
    Nat → Program FileAccess FileAccess.Ret KeystoreError (List KeyMetadata)
  | 0 => .abort .outOfFuel
  | bound + 1 => do
      let entry ← ofExcept (fun error => .storageError s!"entry: {error}")
        (← call (.nextEntry listing))
      match entry with
      | none => return []
      | some path =>
          if extension path = some "json" then do
            let record ← readKeyFile format path
            let records ← readEntries listing bound
            return record :: records
          else readEntries listing bound

/-- `list`. -/
def list (bound : Nat) : Program FileAccess FileAccess.Ret KeystoreError (List KeyMetadata) := do
  let listing ← ofExcept (fun error => .storageError s!"readdir: {error}") (← call .readDir)
  readEntries format listing bound

/-- A call of the backend. -/
def perform (bound : Nat) :
    StorageCall → Program FileAccess FileAccess.Ret KeystoreError StorageAnswer
  | .get id => do return .found (← get format backend id)
  | .put record => do
      put format backend record
      return .done
  | .delete id => do
      delete backend id
      return .done
  | .list => do return .records (← list format bound)
  | .listByState state => do
      return .records ((← list format bound).filter fun record => record.state = state)
  | .listByParent parentId => do
      return .records ((← list format bound).filter fun record => record.parentId = some parentId)

/-- The names of the files of keys, and of the files that become such. -/
def naming : Naming where
  isPublic name := extension name = some "json"
  isScratch name := extension name = some "tmp"
  apart := by
    intro name isScratch isPublic
    rw [isScratch] at isPublic
    exact absurd (Option.some.inj isPublic) (by decide)

/-- The changes that a call may make. -/
def mayReplace : StorageCall → Replacement → Prop
  | .put record, change => ∃ text,
      format.toStringPretty SecretKeyMaterial.serialize record = .ok text ∧
        change = ⟨backend.keyPath record.id, some (utf8 text)⟩
  | .delete id, change => change = ⟨backend.keyPath id, none⟩
  | _, _ => False

/-- The content of a file is the text of a record. -/
def Decodes (content : Bytes) (record : KeyMetadata) : Prop :=
  ∃ text, decodeUtf8 content = some text ∧ format.fromStr .deserialize text = .ok record

/-- A record has been found behind a name. -/
def Found (progress : Progress) (path : String) (record : KeyMetadata) : Prop :=
  ∃ content, (path, some content) ∈ progress.seen ∧ Decodes format content record

/-- What has been found is not the text of a record. -/
def Unreadable (progress : Progress) : Prop :=
  ∃ path content, (path, some content) ∈ progress.seen ∧ ∀ record, ¬ Decodes format content record

/-- The records of a listing. -/
def Listing (progress : Progress) (records : List KeyMetadata) : Prop :=
  progress.listed = true ∧ List.Forall₂ (Found format progress)
    (progress.named.filter fun name => extension name = some "json") records

/-- A call that lists the directory. -/
def ListsFiles : StorageCall → Prop
  | .list => True
  | .listByState _ => True
  | .listByParent _ => True
  | _ => False

/-- What an answer says of what the call has done and seen. -/
def Reports : StorageCall → Progress → StorageAnswer → Prop
  | .get id, progress, answer => progress.made = [] ∧
      (answer = .found none ∧
          ((backend.keyPath id, none) ∈ progress.seen ∨ progress.failed = true) ∨
        ∃ record, answer = .found (some record) ∧
          Found format progress (backend.keyPath id) record)
  | .put record, progress, answer => answer = .done ∧ progress.kept = progress.made ∧
      ∃ change, progress.made = [change] ∧ mayReplace format backend (.put record) change
  | .delete id, progress, answer => answer = .done ∧
      (progress.made = [⟨backend.keyPath id, none⟩] ∨
        progress.made = [] ∧
          ((backend.keyPath id, none) ∈ progress.seen ∨ progress.failed = true))
  | .list, progress, answer => progress.made = [] ∧
      ∃ records, answer = .records records ∧ Listing format progress records
  | .listByState state, progress, answer => progress.made = [] ∧
      ∃ records, answer = .records (records.filter fun record => record.state = state) ∧
        Listing format progress records
  | .listByParent parentId, progress, answer => progress.made = [] ∧
      ∃ records, answer = .records (records.filter fun record => record.parentId = some parentId) ∧
        Listing format progress records

/-- What a call has done when it returns, or when it stops after its bound of entries. -/
def Returns (bound : Nat) (request : StorageCall) (progress : Progress) :
    Outcome KeystoreError StorageAnswer → Prop
  | .ok answer => Reports format backend request progress answer
  | .err _ => (progress.made = [] ∨
      ∃ change, progress.made = [change] ∧ mayReplace format backend request change) ∧
        (progress.failed = true ∨ Unreadable format progress)
  | .aborted why => ListsFiles request ∧ why = .outOfFuel ∧ progress.named.length = bound

section Meeting

variable {format backend} {may : Replacement → Prop} {path : String} {progress after : Progress}
  {data : Bytes}

/-- Nothing has been changed, and nothing that was seen is forgotten. -/
structure Looks (progress after : Progress) : Prop where
  stage : after.stage = progress.stage
  made : after.made = progress.made
  seen : ∀ found ∈ progress.seen, found ∈ after.seen

/-- Files may have been read. -/
structure Reads (progress after : Progress) : Prop extends Looks progress after where
  listing : after.listing = progress.listing
  named : after.named = progress.named

theorem Looks.rfl : Looks progress progress := ⟨.refl _, .refl _, fun _ member => member⟩

theorem Looks.trans {last : Progress} (first : Looks progress after) (second : Looks after last) :
    Looks progress last where
  stage := second.stage.trans first.stage
  made := second.made.trans first.made
  seen := fun found member => second.seen found (first.seen found member)

theorem Reads.trans {last : Progress} (first : Reads progress after) (second : Reads after last) :
    Reads progress last where
  toLooks := first.toLooks.trans second.toLooks
  listing := second.listing.trans first.listing
  named := second.named.trans first.named

theorem Found.mono {record : KeyMetadata} (found : Found format progress path record)
    (looks : Looks progress after) : Found format after path record := by
  obtain ⟨content, member, decodes⟩ := found
  exact ⟨content, looks.seen _ member, decodes⟩

/-- An access that makes no change. -/
theorem looks_next {access : FileAccess} {answer : access.Ret}
    (stages : progress.stage.next access answer = progress.stage)
    (makes : progress.stage.makes access answer = []) :
    Looks progress (progress.next access answer) where
  stage := stages
  made := (congrArg (progress.made ++ ·) makes).trans (List.append_nil _)
  seen := fun _ member => List.mem_append_left _ member

/-- A file is opened for reading. -/
theorem reads_openFile (path : String) (outside : progress.stage = .outside)
    (opened : Except String Nat) :
    Reads progress (progress.next (.openFile path) opened) where
  toLooks := looks_next (by rw [outside]; rfl) (by rw [outside]; rfl)
  listing := rfl
  named := List.append_nil _

/-- An open file is read. -/
theorem reads_readAll (file : Nat) (outside : progress.stage = .outside)
    (read : Except String Bytes) : Reads progress (progress.next (.readAll file) read) where
  toLooks := looks_next (by rw [outside]; rfl) (by rw [outside]; rfl)
  listing := rfl
  named := List.append_nil _

/-- A listing goes on. -/
theorem looks_nextEntry (listing : Nat) (outside : progress.stage = .outside)
    (entry : Except String (Option String)) :
    Looks progress (progress.next (.nextEntry listing) entry) :=
  looks_next (by rw [outside]; rfl) (by rw [outside]; rfl)

theorem meets_readToString (format : KeyFormat) (outside : progress.stage = .outside)
    (isPublic : extension path = some "json") :
    (readToString path).Meets (replacing naming may) progress fun after outcome =>
      Reads progress after ∧ match outcome with
        | .ok text => ∃ content, (path, some content) ∈ after.seen ∧ decodeUtf8 content = some text
        | .err _ => after.failed = true ∨ Unreadable format after
        | .aborted _ => False := by
  refine ⟨isPublic, fun opened _ => ?_⟩
  have opens := reads_openFile path outside opened
  cases opened with
  | error error => exact ⟨opens, .inl (Bool.or_true _)⟩
  | ok file =>
      refine ⟨⟨path, rfl⟩, fun read _ => ?_⟩
      have reads := opens.trans (reads_readAll file (opens.stage.trans outside) read)
      cases read with
      | error error => exact ⟨reads, .inl (Bool.or_true _)⟩
      | ok content =>
          have seen : (path, some content) ∈ ((progress.next (.openFile path) (.ok file)).next
              (.readAll file) (.ok content)).seen :=
            List.mem_append_right _ (List.mem_singleton_self _)
          change (ofOption Disk.invalidUtf8 (decodeUtf8 content)).Meets _ _ _
          cases isText : decodeUtf8 content with
          | none =>
              have fails : ∀ record, ¬ Decodes format content record := by
                rintro record ⟨text, found, -⟩
                rw [isText] at found
                cases found
              exact ⟨reads, .inr ⟨path, content, seen, fails⟩⟩
          | some text => exact ⟨reads, content, seen, isText⟩

theorem meets_readKeyFile (outside : progress.stage = .outside)
    (isPublic : extension path = some "json") :
    (readKeyFile format path).Meets (replacing naming may) progress fun after outcome =>
      Reads progress after ∧ match outcome with
        | .ok record => Found format after path record
        | .err _ => after.failed = true ∨ Unreadable format after
        | .aborted _ => False := by
  apply Meets.bind
  apply Meets.mapErr
  refine (meets_readToString format outside isPublic).mono fun after outcome told => ?_
  cases outcome with
  | aborted why => exact told
  | err error => exact told
  | ok text =>
      obtain ⟨reads, content, seen, isText⟩ := told
      change (ofExcept _ (format.fromStr .deserialize text)).Meets _ _ _
      cases parses : format.fromStr .deserialize text with
      | ok record => exact ⟨reads, content, seen, text, isText, parses⟩
      | error error =>
          have fails : ∀ record, ¬ Decodes format content record := by
            rintro record ⟨other, found, parsed⟩
            rw [isText] at found
            cases found
            rw [parses] at parsed
            cases parsed
          exact ⟨reads, .inr ⟨path, content, seen, fails⟩⟩

theorem meets_get {bound : Nat} {id : KeyId}
    (isPublic : extension (backend.keyPath id) = some "json") :
    (perform format backend bound (.get id)).Meets (replacing naming may) .start
      (Returns format backend bound (.get id)) := by
  apply Meets.bind
  refine ⟨isPublic, fun found _ => ?_⟩
  rcases found with error | _ | _
  · exact ⟨rfl, .inl ⟨rfl, .inr rfl⟩⟩
  · exact ⟨rfl, .inl ⟨rfl, .inl (List.mem_singleton_self _)⟩⟩
  · have outside : (Progress.start.next (.stat (backend.keyPath id)) (.ok true)).stage =
        .outside := rfl
    change (readKeyFile format (backend.keyPath id) >>= fun record => pure (some record)).Meets
      (replacing naming may) _ (bindPost _ (Returns format backend bound (.get id)))
    apply Meets.bind
    refine (meets_readKeyFile outside isPublic).mono fun after outcome told => ?_
    obtain ⟨reads, told⟩ := told
    cases outcome with
    | aborted why => exact told.elim
    | err error => exact ⟨.inl reads.made, told⟩
    | ok record => exact ⟨reads.made, .inr ⟨record, rfl, told⟩⟩

/-- What the loop over the entries of a listing has found. -/
theorem meets_readEntries {listing : Nat} (bound : Nat) (outside : progress.stage = .outside)
    (mine : progress.listing = some listing) :
    (readEntries format listing bound).Meets (replacing naming may) progress fun after outcome =>
      Looks progress after ∧ match outcome with
        | .ok records => after.listed = true ∧ ∃ names, after.named = progress.named ++ names ∧
            List.Forall₂ (Found format after)
              (names.filter fun name => extension name = some "json") records
        | .err _ => after.failed = true ∨ Unreadable format after
        | .aborted why => why = .outOfFuel ∧
            after.named.length = progress.named.length + bound := by
  induction bound generalizing progress with
  | zero => exact ⟨.rfl, rfl, rfl⟩
  | succ bound ih =>
      refine ⟨mine, fun entry _ => ?_⟩
      have looks := looks_nextEntry listing outside entry
      rcases entry with error | _ | name
      · exact ⟨looks, .inl (Bool.or_true _)⟩
      · exact ⟨looks, Bool.or_true _, [], rfl, .nil⟩
      · by_cases isPublic : extension name = some "json"
        · change (if extension name = some "json" then _ else _ : Program _ _ _ _).Meets _ _ _
          rw [if_pos isPublic]
          apply Meets.bind
          refine (meets_readKeyFile (looks.stage.trans outside) isPublic).mono
            fun middle outcome told => ?_
          obtain ⟨reads, told⟩ := told
          cases outcome with
          | aborted why => exact told.elim
          | err error => exact ⟨looks.trans reads.toLooks, told⟩
          | ok record =>
              apply Meets.bind
              refine (ih (reads.stage.trans (looks.stage.trans outside))
                (reads.listing.trans mine)).mono fun after outcome later => ?_
              obtain ⟨more, later⟩ := later
              have whole := (looks.trans reads.toLooks).trans more
              cases outcome with
              | aborted why =>
                  obtain ⟨spent, count⟩ := later
                  refine ⟨whole, spent, ?_⟩
                  rw [count, reads.named]
                  change (progress.named ++ [name]).length + bound = _
                  rw [List.length_append, List.length_singleton]
                  omega
              | err error => exact ⟨whole, later⟩
              | ok records =>
                  obtain ⟨ended, names, named, found⟩ := later
                  refine ⟨whole, ended, name :: names, ?_, ?_⟩
                  · rw [named, reads.named]
                    exact List.append_assoc progress.named [name] names
                  · rw [List.filter_cons_of_pos (by simpa using isPublic)]
                    exact .cons (told.mono more) found
        · change (if extension name = some "json" then _ else _ : Program _ _ _ _).Meets _ _ _
          rw [if_neg isPublic]
          refine (ih (looks.stage.trans outside) mine).mono fun after outcome later => ?_
          obtain ⟨more, later⟩ := later
          cases outcome with
          | aborted why =>
              obtain ⟨spent, count⟩ := later
              refine ⟨looks.trans more, spent, ?_⟩
              rw [count]
              change (progress.named ++ [name]).length + bound = _
              rw [List.length_append, List.length_singleton]
              omega
          | err error => exact ⟨looks.trans more, later⟩
          | ok records =>
              obtain ⟨ended, names, named, found⟩ := later
              refine ⟨looks.trans more, ended, name :: names, ?_, ?_⟩
              · rw [named]
                exact List.append_assoc progress.named [name] names
              · rw [List.filter_cons_of_neg (by simpa using isPublic)]
                exact found

theorem meets_list {bound : Nat} :
    (list format bound).Meets (replacing naming may) .start fun after outcome =>
      after.made = [] ∧ match outcome with
        | .ok records => Listing format after records
        | .err _ => after.failed = true ∨ Unreadable format after
        | .aborted why => why = .outOfFuel ∧ after.named.length = bound := by
  refine ⟨rfl, fun listed _ => ?_⟩
  cases listed with
  | error error => exact ⟨rfl, .inl rfl⟩
  | ok listing =>
      have outside : (Progress.start.next .readDir (.ok listing)).stage = .outside := rfl
      refine (meets_readEntries bound outside rfl).mono fun after outcome told => ?_
      obtain ⟨looks, told⟩ := told
      refine ⟨looks.made, ?_⟩
      cases outcome with
      | aborted why => exact ⟨told.1, told.2.trans (Nat.zero_add _)⟩
      | err error => exact told
      | ok records =>
          obtain ⟨ended, names, named, found⟩ := told
          refine ⟨ended, ?_⟩
          rw [named]
          exact found

/-- A listing that is filtered or not. -/
theorem meets_listed {bound : Nat} {request : StorageCall}
    {answer : List KeyMetadata → StorageAnswer} (lists : ListsFiles request)
    (reports : ∀ progress records, progress.made = [] → Listing format progress records →
      Reports format backend request progress (answer records)) :
    (list format bound >>= fun records => pure (answer records) :
      Program FileAccess FileAccess.Ret KeystoreError StorageAnswer).Meets (replacing naming may)
        .start (Returns format backend bound request) := by
  apply Meets.bind
  refine meets_list.mono fun after outcome told => ?_
  obtain ⟨made, told⟩ := told
  cases outcome with
  | aborted why => exact ⟨lists, told⟩
  | err error => exact ⟨.inl made, told⟩
  | ok records => exact reports after records made told

theorem next_unlock : progress.next .unlock () = { progress with stage := .outside } := by
  cases stages : progress.stage <;> simp [Progress.next, stages, Stage.next, Stage.makes,
    FileAccess.fails, FileAccess.yields, FileAccess.ends]

theorem meets_guarded {α : Type} {body : Program FileAccess FileAccess.Ret KeystoreError α}
    {post : Progress → Outcome KeystoreError α → Prop}
    (meets : body.Meets (replacing naming may) (Progress.start.next .lock ())
      fun after outcome => after.stage ≠ .outside ∧ (∀ why, outcome ≠ .aborted why) ∧
        post { after with stage := .outside } outcome) :
    (guarded body).Meets (replacing naming may) .start post := by
  refine ⟨rfl, fun _ _ => ?_⟩
  apply Meets.bind
  apply Meets.bind
  apply Meets.attempt
  refine meets.mono fun after outcome told => ?_
  obtain ⟨within, running, told⟩ := told
  rw [← next_unlock] at told
  cases outcome with
  | aborted why => exact absurd rfl (running why)
  | ok value => exact ⟨within, fun _ _ => told⟩
  | err error => exact ⟨within, fun _ _ => told⟩

theorem meets_writeRestricted (isScratch : extension path = some "tmp") :
    (writeRestricted path data).Meets (replacing naming may) (Progress.start.next .lock ())
      fun after outcome => after.made = [] ∧ match outcome with
        | .ok _ => ∃ file, after = ⟨.ready path file data, [], [], none, [], none, [], false, false⟩
        | .err _ => after.stage ≠ .outside ∧ after.failed = true
        | .aborted _ => False := by
  refine ⟨⟨rfl, isScratch⟩, fun created _ => ?_⟩
  cases created with
  | error error => exact ⟨rfl, Stage.noConfusion, rfl⟩
  | ok file =>
      refine ⟨⟨path, rfl⟩, fun written _ => ?_⟩
      cases written with
      | error error => exact ⟨rfl, Stage.noConfusion, rfl⟩
      | ok done =>
          refine ⟨⟨path, data, rfl⟩, fun synced _ => ?_⟩
          cases synced with
          | error error => exact ⟨rfl, Stage.noConfusion, rfl⟩
          | ok done => exact ⟨rfl, file, rfl⟩

theorem meets_delete {bound : Nat} {id : KeyId}
    (isPublic : extension (backend.keyPath id) = some "json") :
    (perform format backend bound (.delete id)).Meets
      (replacing naming (mayReplace format backend (.delete id))) .start
      (Returns format backend bound (.delete id)) := by
  apply Meets.bind
  apply meets_guarded
  refine ⟨isPublic, fun found _ => ?_⟩
  rcases found with error | _ | _
  · exact ⟨Stage.noConfusion, by simp, rfl, .inr ⟨rfl, .inr rfl⟩⟩
  · exact ⟨Stage.noConfusion, by simp, rfl, .inr ⟨rfl, .inl (List.mem_singleton_self _)⟩⟩
  · refine ⟨⟨rfl, isPublic, rfl⟩, fun removed _ => ?_⟩
    cases removed with
    | error error => exact ⟨Stage.noConfusion, by simp, .inl rfl, .inl rfl⟩
    | ok done => exact ⟨Stage.noConfusion, by simp, rfl, .inl rfl⟩

theorem meets_put {bound : Nat} {record : KeyMetadata}
    (isPublic : extension (backend.keyPath record.id) = some "json")
    (isScratch : extension (withExtension (backend.keyPath record.id) "tmp") = some "tmp")
    {text : String}
    (written : format.toStringPretty SecretKeyMaterial.serialize record = .ok text) :
    (perform format backend bound (.put record)).Meets
      (replacing naming (mayReplace format backend (.put record))) .start
      (Returns format backend bound (.put record)) := by
  have mayWrite : mayReplace format backend (.put record)
      ⟨backend.keyPath record.id, some (utf8 text)⟩ := ⟨text, written, rfl⟩
  apply Meets.bind
  apply meets_guarded
  rw [written]
  apply Meets.bind
  apply Meets.bind
  apply Meets.mapErr
  refine (meets_writeRestricted isScratch).mono fun after outcome told => ?_
  obtain ⟨made, told⟩ := told
  cases outcome with
  | aborted why => exact told.elim
  | err error =>
      exact ⟨told.1, by simp, .inl made, .inl told.2⟩
  | ok done =>
      obtain ⟨file, rfl⟩ := told
      refine ⟨⟨file, utf8 text, rfl, isPublic, mayWrite⟩, fun renamed _ => ?_⟩
      cases renamed with
      | error error => exact ⟨Stage.noConfusion, by simp, .inl rfl, .inl rfl⟩
      | ok done =>
          refine ⟨rfl, fun opened _ => ?_⟩
          cases opened with
          | error error =>
              exact ⟨Stage.noConfusion, by simp, .inr ⟨_, rfl, mayWrite⟩,
                .inl rfl⟩
          | ok done =>
              refine ⟨rfl, fun synced _ => ?_⟩
              cases synced with
              | error error =>
                  exact ⟨Stage.noConfusion, by simp,
                    .inr ⟨_, rfl, mayWrite⟩, .inl rfl⟩
              | ok done =>
                  exact ⟨Stage.noConfusion, by simp, rfl, rfl, _, rfl,
                    mayWrite⟩

/-- A call whose files have their own names. -/
def Usable : StorageCall → Prop
  | .get id => '/' ∉ id.text.toList ∧ id.text ≠ ""
  | .put record => record.Storable
  | .delete id => '/' ∉ id.text.toList ∧ id.text ≠ ""
  | _ => True

theorem extension_keyPath {id : KeyId} (whole : '/' ∉ id.text.toList) (notEmpty : id.text ≠ "") :
    extension (backend.keyPath id) = some "json" := by
  rw [keyPath_eq]
  exact extension_join _ whole notEmpty isExtension_json

/-- Every call keeps to its contract. -/
theorem meets_perform (lawful : format.Lawful) {bound : Nat} {request : StorageCall}
    (usable : Usable request) :
    (perform format backend bound request).Meets
      (replacing naming (mayReplace format backend request)) .start
      (Returns format backend bound request) := by
  cases request with
  | get id => exact meets_get (extension_keyPath usable.1 usable.2)
  | delete id => exact meets_delete (extension_keyPath usable.1 usable.2)
  | put record =>
      obtain ⟨whole, notEmpty⟩ := KeyMetadata.Storable.plain usable
      obtain ⟨text, written, -⟩ := lawful.reads usable
      refine meets_put (extension_keyPath whole notEmpty) ?_ written
      rw [keyPath_eq, withExtension_join _ whole notEmpty isExtension_json isExtension_tmp]
      exact extension_join _ whole notEmpty isExtension_tmp
  | list =>
      exact meets_listed trivial fun progress records made listing => ⟨made, records, rfl, listing⟩
  | listByState state =>
      exact meets_listed trivial fun progress records made listing => ⟨made, records, rfl, listing⟩
  | listByParent parentId =>
      exact meets_listed trivial fun progress records made listing => ⟨made, records, rfl, listing⟩

end Meeting

end DurableBackend

end Citadel
