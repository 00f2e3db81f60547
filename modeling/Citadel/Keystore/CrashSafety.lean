import Citadel.Keystore.DurableBackend
import Citadel.Program.PowerCuts

/-!
# Records survive crashes

A store whose processes run one after the other over the same directory, each serving any
calls at once, until it ends, is killed, or the power goes out. Records change as a whole:
an answer is right for the files as they were at one moment of its call, an error means
that an access to files failed, and a record whose `put` returned is there whatever happens
after that. A look at a file that fails tells the store that the file is not there, so then
an answer may be that there is no record.
-/

namespace Citadel

open Paths Program

namespace DurableBackend

variable (format : KeyFormat) (backend : FileBackend) (bound : Nat) {ι : Type}

/-- Every caller makes one call; a listing stops after its bound of entries. -/
def serve (requests : ι → StorageCall) (caller : ι) :
    Program FileAccess FileAccess.Ret KeystoreError StorageAnswer :=
  perform format backend bound (requests caller)

/-- The files of all calls have their own names. -/
def AllUsable (requests : ι → StorageCall) : Prop := ∀ caller, Usable (requests caller)

/-- The record behind a name. -/
def recordIn (files : String → Option Bytes) (path : String) : Option KeyMetadata :=
  (files path).bind fun content => (decodeUtf8 content).bind fun text =>
    (format.fromStr .deserialize text).toOption

section Answers

variable [DecidableEq ι] (history : History)
  (trace : List (Entry Shelf ι FileAccess FileAccess.Ret KeystoreError StorageAnswer)) (caller : ι)

/-- The records of a listing: every file that stays as it is while the listing is read is
among those that were yielded, and each of these is read at a moment of its own. -/
def Lists (records : List KeyMetadata) : Prop :=
  Complete naming (fun _ => none) history trace caller (namesTo caller trace) ∧
    List.Forall₂ (fun path record => AtSomeMoment (fun _ => none) history trace caller fun files =>
      recordIn format files path = some record)
        ((namesTo caller trace).filter fun name => extension name = some "json") records

/-- What an answer says of the files, and what the call has changed. That there is no record
may also be the answer when an access to files failed. -/
def Answered : StorageCall → StorageAnswer → Prop
  | .get id, answer => changesBy caller trace = [] ∧
      (AtSomeMoment (fun _ => none) history trace caller (fun files =>
          answer = .found (recordIn format files (backend.keyPath id))) ∨
        answer = .found none ∧ FailedBy caller trace)
  | .put record, answer => answer = .done ∧ ∃ change, changesBy caller trace = [change] ∧
      mayReplace format backend (.put record) change ∧
        change ∈ (history.along trace).changes.take (history.along trace).durable
  | .delete id, answer => answer = .done ∧
      (changesBy caller trace = [⟨backend.keyPath id, none⟩] ∨ changesBy caller trace = [] ∧
        (AtSomeMoment (fun _ => none) history trace caller (fun files =>
            files (backend.keyPath id) = none) ∨ FailedBy caller trace))
  | .list, answer => changesBy caller trace = [] ∧
      ∃ records, answer = .records records ∧ Lists format history trace caller records
  | .listByState state, answer => changesBy caller trace = [] ∧
      ∃ records, answer = .records (records.filter fun record => record.state = state) ∧
        Lists format history trace caller records
  | .listByParent parentId, answer => changesBy caller trace = [] ∧
      ∃ records, answer = .records (records.filter fun record => record.parentId = some parentId) ∧
        Lists format history trace caller records

/-- A call that returned. A call that failed has changed nothing or all that it should, and
an access to files has failed. Only a listing may stop early, after its bound of entries. -/
def Right (request : StorageCall) : Outcome KeystoreError StorageAnswer → Prop
  | .ok answer => Answered format backend history trace caller request answer
  | .err _ => (changesBy caller trace = [] ∨ ∃ change, changesBy caller trace = [change] ∧
      mayReplace format backend request change) ∧ FailedBy caller trace
  | .aborted why => ListsFiles request ∧ why = .outOfFuel ∧
      (namesTo caller trace).length = bound

end Answers

section Whole

variable {format backend bound} {request : StorageCall} {change : Replacement} {content : Bytes}
  {path : String} {record : KeyMetadata}

theorem recordIn_eq_some {files : String → Option Bytes} (found : files path = some content)
    (decodes : Decodes format content record) : recordIn format files path = some record := by
  obtain ⟨text, isText, parses⟩ := decodes
  rw [recordIn, found, Option.bind_some, isText, Option.bind_some, parses]
  rfl

/-- What a call writes is the text of its record. -/
theorem decodes_of_mayReplace (lawful : format.Lawful) (usable : Usable request)
    (may : mayReplace format backend request change) (written : change.content = some content) :
    ∃ record, Decodes format content record := by
  cases request with
  | put record =>
      obtain ⟨text, encoded, rfl⟩ := may
      obtain ⟨same, spelled, read⟩ := lawful.reads usable
      rw [encoded] at spelled
      cases spelled
      cases written
      exact ⟨record, text, decodeUtf8_utf8 text, read⟩
  | delete id =>
      cases may
      cases written
  | get id => exact may.elim
  | list => exact may.elim
  | listByState state => exact may.elim
  | listByParent parentId => exact may.elim

variable {history : History} {requests : ι → StorageCall} {caller : ι}
  {trace : List (Entry Shelf ι FileAccess FileAccess.Ret KeystoreError StorageAnswer)}

/-- Every file that is found at some moment is whole. -/
theorem decodes_of_moment
    (whole : ∀ change ∈ (history.along trace).changes, ∀ content, change.content = some content →
      ∃ record, Decodes format content record)
    (moment : AtSomeMoment (fun _ => none) history trace caller fun files =>
      files path = some content) : ∃ record, Decodes format content record := by
  obtain ⟨past, entry, rest, rfl, -, found⟩ := moment
  rcases contentAfter_eq (fun _ => none) (history.along past).changes path with nothing | changed
  · rw [nothing] at found
    cases found
  · obtain ⟨change, member, -, same⟩ := changed
    apply whole change
    · rw [History.along_append]
      exact History.mem_along member _
    · rw [← same, found]

variable [DecidableEq ι] {shelf : Shelf} {may : ι → Replacement → Prop}

/-- A record that was found was the record behind the name at some moment. -/
theorem moment_of_found (consistent : Consistent naming may (fun _ => none) history trace shelf)
    (found : Found format (progressesOf naming may trace caller) path record) :
    AtSomeMoment (fun _ => none) history trace caller fun files =>
      recordIn format files path = some record := by
  obtain ⟨content, seen, decodes⟩ := found
  exact (consistent.readers.seen caller path (some content) seen).imp fun files here =>
    recordIn_eq_some here decodes

theorem lists_of_listing {records : List KeyMetadata}
    (consistent : Consistent naming may (fun _ => none) history trace shelf)
    (listing : Listing format (progressesOf naming may trace caller) records) :
    Lists format history trace caller records := by
  obtain ⟨ended, found⟩ := listing
  have complete := consistent.listers.ended caller ended
  rw [consistent.listers.named caller] at complete found
  exact ⟨complete, found.imp fun path record => moment_of_found consistent⟩

/-- What a call knows when it returns is true of the files. -/
theorem right_of_returns {outcome : Outcome KeystoreError StorageAnswer}
    (consistent : Consistent naming (fun caller => mayReplace format backend (requests caller))
      (fun _ => none) history trace shelf)
    (whole : ∀ change ∈ (history.along trace).changes, ∀ content, change.content = some content →
      ∃ record, Decodes format content record)
    (returns : Returns format backend bound (requests caller) (progressesOf naming
      (fun caller => mayReplace format backend (requests caller)) trace caller) outcome) :
    Right format backend bound history trace caller (requests caller) outcome := by
  have made := consistent.accounts.made caller
  have kept := consistent.accounts.kept caller
  have missing : ∀ {path}, (path, none) ∈ (progressesOf naming
      (fun caller => mayReplace format backend (requests caller)) trace caller).seen →
        AtSomeMoment (fun _ => none) history trace caller fun files => files path = none :=
    fun seen => consistent.readers.seen caller _ none seen
  cases outcome with
  | aborted why =>
      obtain ⟨lists, spent, count⟩ := returns
      exact ⟨lists, spent, consistent.listers.named caller ▸ count⟩
  | err error =>
      obtain ⟨changed, failed | ⟨path, content, seen, different⟩⟩ := returns
      · exact ⟨made ▸ changed, consistent.accounts.failed caller failed⟩
      · have moment := consistent.readers.seen caller path (some content) seen
        obtain ⟨record, decodes⟩ := decodes_of_moment whole moment
        exact absurd decodes (different record)
  | ok answer =>
      unfold Right
      cases request : requests caller with
      | get id =>
          rw [request] at returns
          obtain ⟨unchanged, ⟨rfl, seen | failed⟩ | ⟨record, rfl, found⟩⟩ := returns
          · refine ⟨made ▸ unchanged, .inl ((missing seen).imp fun files absent => ?_)⟩
            rw [recordIn, absent]
            rfl
          · exact ⟨made ▸ unchanged, .inr ⟨rfl, consistent.accounts.failed caller failed⟩⟩
          · refine ⟨made ▸ unchanged,
              .inl ((moment_of_found consistent found).imp fun files here => ?_)⟩
            rw [here]
      | put record =>
          rw [request] at returns
          obtain ⟨rfl, synced, change, changed, may⟩ := returns
          refine ⟨rfl, change, made ▸ changed, may, kept change ?_⟩
          rw [synced, changed]
          exact List.mem_singleton_self _
      | delete id =>
          rw [request] at returns
          obtain ⟨rfl, changed | ⟨unchanged, seen | failed⟩⟩ := returns
          · exact ⟨rfl, .inl (made ▸ changed)⟩
          · exact ⟨rfl, .inr ⟨made ▸ unchanged, .inl (missing seen)⟩⟩
          · exact ⟨rfl, .inr ⟨made ▸ unchanged, .inr (consistent.accounts.failed caller failed)⟩⟩
      | list =>
          rw [request] at returns
          obtain ⟨unchanged, records, rfl, listing⟩ := returns
          exact ⟨made ▸ unchanged, records, rfl, lists_of_listing consistent listing⟩
      | listByState state =>
          rw [request] at returns
          obtain ⟨unchanged, records, rfl, listing⟩ := returns
          exact ⟨made ▸ unchanged, records, rfl, lists_of_listing consistent listing⟩
      | listByParent parentId =>
          rw [request] at returns
          obtain ⟨unchanged, records, rfl, listing⟩ := returns
          exact ⟨made ▸ unchanged, records, rfl, lists_of_listing consistent listing⟩

end Whole

section Together

variable {start pool : Pool Bool Shelf FileAccess FileAccess.Ret KeystoreError StorageAnswer}
  {trace : List (Entry Shelf Bool FileAccess FileAccess.Ret KeystoreError StorageAnswer)}
  {record : KeyMetadata} {text : String} {volume : Volume}

/-- One access of a caller. -/
theorem does (caller : Bool) (access : FileAccess)
    {next : access.Ret → Program FileAccess FileAccess.Ret KeystoreError StorageAnswer}
    (answer : access.Ret) (runs : Pool.Runs shelves start trace pool)
    (waiting : pool.thread caller = .running (.perform access next))
    (tells : pool.shared.Tells access answer) :
    Pool.Runs shelves start (trace ++ [⟨pool.shared, .performed caller access answer⟩])
      ⟨pool.shared.next [] access answer,
        Function.update pool.thread caller (.running (next answer))⟩ :=
  runs.step (.perform waiting ⟨tells, [], rfl⟩)

/-- A call returns. -/
theorem ends (caller : Bool) (outcome : Outcome KeystoreError StorageAnswer)
    {program : Program FileAccess FileAccess.Ret KeystoreError StorageAnswer}
    (runs : Pool.Runs shelves start trace pool)
    (waiting : pool.thread caller = .running program) (ended : program.outcome? = some outcome) :
    Pool.Runs shelves start (trace ++ [⟨pool.shared, .returned caller outcome⟩])
      ⟨pool.shared, Function.update pool.thread caller (.finished outcome)⟩ :=
  runs.step (.return waiting ended)

/-- A directory after a file was replaced, and the directory synced. -/
def replaced (volume : Volume) (path tmp : String) (data : Bytes) : Volume :=
  ((((volume.create tmp).write (volume.target tmp) data).sync (volume.target tmp)).rename tmp
    path).syncDirectory

/-- The directory of the examples. -/
def keysDirectory : FileBackend := ⟨"/keys"⟩

/-- One caller makes a call beside another that lists the directory. -/
def besideList (request : StorageCall) : Bool → StorageCall
  | true => request
  | false => .list

/-- A process that answers both. -/
def answering (request : StorageCall) (volume : Volume) :
    Pool Bool Shelf FileAccess FileAccess.Ret KeystoreError StorageAnswer :=
  ⟨.fresh volume,
    fun caller => .running (serve numberFormat keysDirectory 2 (besideList request) caller)⟩

/-- A record is stored while the directory, empty at first, is listed. -/
theorem put_beside_list (volume : Volume) (nothing : ∀ name, volume.directory name = none)
    (written : numberFormat.toStringPretty SecretKeyMaterial.serialize record = .ok text) :
    ∃ told last, Pool.Runs shelves (answering (.put record) volume) told last ∧
      Returned told true (.ok .done) ∧ Returned told false (.ok (.records [])) ∧
      last.shared.volume = replaced volume (keysDirectory.keyPath record.id)
        (withExtension (keysDirectory.keyPath record.id) "tmp") (utf8 text) := by
  have first : Pool.Runs shelves (answering (.put record) volume) [] _ := .refl
  have listing := does false .readDir (.ok 0) first rfl rfl
  have locked := does true .lock () listing rfl rfl
  rw [written] at locked
  have created := does true (.create (withExtension (keysDirectory.keyPath record.id) "tmp"))
    (.ok (volume.target (withExtension (keysDirectory.keyPath record.id) "tmp"))) locked rfl rfl
  have filled := does true
    (.writeAll (volume.target (withExtension (keysDirectory.keyPath record.id) "tmp"))
      (utf8 text)) (.ok ()) created rfl trivial
  have synced := does true
    (.syncAll (volume.target (withExtension (keysDirectory.keyPath record.id) "tmp")))
    (.ok ()) filled rfl trivial
  have leads : (volume.create (withExtension (keysDirectory.keyPath record.id) "tmp")).directory
      (withExtension (keysDirectory.keyPath record.id) "tmp") = some _ :=
    Volume.create_directory_self
  have renamed := does true (.rename (withExtension (keysDirectory.keyPath record.id) "tmp")
    (keysDirectory.keyPath record.id)) (.ok ()) synced rfl (Option.isSome_of_eq_some leads)
  have listed := does false (.nextEntry 0) (.ok none) renamed rfl (by
    intro name
    change ((volume.directory name).isSome && _) = false
    rw [nothing name]
    rfl)
  have opened := does true .openDir (.ok ()) listed rfl trivial
  have durable := does true .syncDir (.ok ()) opened rfl trivial
  have unlocked := does true .unlock () durable rfl trivial
  have told := ends false _ (ends true _ unlocked rfl rfl) rfl rfl
  exact ⟨_, _, told,
    ⟨_, List.mem_append_left _ (List.mem_append_right _ (List.mem_singleton_self _))⟩,
    ⟨_, List.mem_append_right _ (List.mem_singleton_self _)⟩, rfl⟩

/-- The text of a record is read as that record. -/
theorem parse_written (parses : numberFormat.fromStr .deserialize text = .ok record) :
    ((ofOption Disk.invalidUtf8 (decodeUtf8 (utf8 text))).mapErr (fun error =>
        KeystoreError.storageError s!"read: {error}") >>= fun data =>
      ofExcept (fun error => .storageError s!"parse: {error}")
        (numberFormat.fromStr .deserialize data) :
      Program FileAccess FileAccess.Ret KeystoreError KeyMetadata) = .ret record := by
  rw [decodeUtf8_utf8]
  change ofExcept _ (numberFormat.fromStr .deserialize text) = _
  rw [parses]
  rfl

/-- The only file of a directory is got and listed at once. -/
theorem get_beside_list {file : Nat} {path : String} (isJson : extension path = some "json")
    (same : keysDirectory.keyPath record.id = path) (leads : volume.directory path = some file)
    (only : ∀ name, name ≠ path → volume.directory name = none)
    (content : (volume.node file).content = utf8 text)
    (parses : numberFormat.fromStr .deserialize text = .ok record) :
    ∃ told last, Pool.Runs shelves (answering (.get record.id) volume) told last ∧
      Returned told true (.ok (.found (some record))) ∧
      Returned told false (.ok (.records [record])) := by
  -- the entry is a key file, and the text of a file is that of the record
  have isRead : ((if extension path = some "json" then do
        let record ← readKeyFile numberFormat path
        let records ← readEntries numberFormat 0 1
        return record :: records
      else readEntries numberFormat 0 1) >>= fun records => pure (StorageAnswer.records records)) =
      readKeyFile numberFormat path >>= fun record =>
        readEntries numberFormat 0 1 >>= fun records =>
          pure (StorageAnswer.records (record :: records)) := by
    rw [if_pos isJson, bind_assoc]
    exact congrArg (readKeyFile numberFormat path >>= ·) (funext fun _ => bind_assoc _ _ _)
  have isRecord : ∀ rest : KeyMetadata → Program FileAccess FileAccess.Ret KeystoreError
      StorageAnswer, _ := fun rest => congrArg (· >>= rest) (parse_written parses)
  have first : Pool.Runs shelves (answering (.get record.id) volume) [] _ := .refl
  have listing := does false .readDir (.ok 0) first rfl rfl
  have found := does true (.stat (keysDirectory.keyPath record.id)) (.ok true) listing rfl (by
    rw [same]
    exact (Option.isSome_of_eq_some leads).symm)
  have named := does false (.nextEntry 0) (.ok (some path)) found rfl trivial
  have opened := does true (.openFile (keysDirectory.keyPath record.id)) (.ok file) named rfl (by
    rw [same]
    exact leads)
  have alsoOpened := does false (.openFile path) (.ok file) opened
    (congrArg Thread.running isRead) leads
  have read := does true (.readAll file) (.ok (utf8 text)) alsoOpened rfl content.symm
  have alsoRead := does false (.readAll file) (.ok (utf8 text)) read rfl content.symm
  have got := ends true (.ok (.found (some record))) alsoRead rfl
    (congrArg (fun read : Program FileAccess FileAccess.Ret KeystoreError KeyMetadata =>
      outcome? ((read >>= fun record => pure (some record)) >>= fun found =>
        pure (StorageAnswer.found found))) (parse_written parses))
  have listed := does false (.nextEntry 0) (.ok none) got
    (congrArg Thread.running (isRecord _)) (by
      intro name
      change Function.update (fun name => (volume.directory name).isSome) path false name = false
      by_cases here : name = path
      · rw [here, Function.update_self]
      · rw [Function.update_of_ne here, only name here]
        rfl)
  have told := ends false _ listed rfl rfl
  exact ⟨_, _, told,
    ⟨_, List.mem_append_left _ (List.mem_append_left _
      (List.mem_append_right _ (List.mem_singleton_self _)))⟩,
    ⟨_, List.mem_append_right _ (List.mem_singleton_self _)⟩⟩

variable {path tmp : String} {data : Bytes}

theorem replaced_directory (volume : Volume) : (replaced volume path tmp data).directory path =
    some (volume.target tmp) :=
  (Function.update_self _ _ _).trans Volume.create_directory_self

/-- Nothing else is in a directory that was empty. -/
theorem replaced_empty_of_ne {name : String} (different : name ≠ path) :
    (replaced .empty path tmp data).directory name = none := by
  refine (Function.update_of_ne different _ _).trans ?_
  by_cases same : name = tmp
  · rw [same]
    exact Function.update_self _ _ _
  · refine (Function.update_of_ne same _ _).trans ?_
    exact Function.update_of_ne same _ _

theorem replaced_node (volume : Volume) :
    (replaced volume path tmp data).node (volume.target tmp) = ⟨data, true⟩ :=
  Volume.setNode_self.trans (congrArg (Node.mk · true) (congrArg Node.content Volume.setNode_self))

/-- A power cut finds everything on the disk. -/
theorem crashes_replaced : Volume.Crashes (replaced .empty path tmp data)
    (replaced .empty path tmp data) where
  directory := Volume.mem_directories
  older := rfl
  node := fun _ _ => rfl
  synced := by
    intro file
    by_cases same : file = 0
    · rw [same]
      exact congrArg Node.synced (replaced_node .empty)
    · have untouched : (replaced .empty path tmp data).node file = ⟨[], true⟩ :=
        (Volume.setNode_of_ne same).trans ((Volume.setNode_of_ne same).trans
          (Volume.setNode_of_ne same))
      rw [untouched]
  next := rfl

/-- A record is stored while the directory is listed, the power goes out, and the record is
got while the directory is listed. -/
theorem stored_then_read : ∃ record told volume trace pool, record.Storable ∧
    Lives (serve numberFormat keysDirectory 2) AllUsable .empty
      [.life (besideList (.put record)) told, .powerCut] volume ∧
    Returned told true (.ok .done) ∧
    Pool.Runs shelves (answering (.get record.id) volume) trace pool ∧
    Returned trace true (.ok (.found (some record))) ∧
    Returned trace false (.ok (.records [record])) := by
  obtain ⟨record, produced⟩ := exists_produced
  have storable := produced.storable
  obtain ⟨text, written, read⟩ := numberFormat_lawful.reads storable
  obtain ⟨told, last, stores, stored, -, leaves⟩ :=
    put_beside_list .empty (fun _ => rfl) written
  have usable : AllUsable (besideList (.put record)) := fun
    | true => storable
    | false => trivial
  have lives : Lives (serve numberFormat keysDirectory 2) AllUsable .empty
      ([] ++ [.life (besideList (.put record)) told]) last.shared.volume :=
    .life .new usable stores
  rw [leaves] at lives
  obtain ⟨trace, pool, gets, got, listed⟩ := get_beside_list
    (extension_keyPath storable.plain.1 storable.plain.2) rfl (replaced_directory .empty)
    (fun name different => replaced_empty_of_ne different)
    (congrArg Node.content (replaced_node .empty)) read
  exact ⟨record, told, _, trace, pool, storable, lives.powerCut crashes_replaced, stored, gets, got,
    listed⟩

end Together

section Recovery

variable {format backend bound} {volume : Volume} {history : History}
  {episodes : List (Episode (ι → StorageCall) ι KeystoreError StorageAnswer)}

/-- What a call must satisfy when it returns. -/
def served (format : KeyFormat) (backend : FileBackend) (bound : Nat)
    (requests : ι → StorageCall) (caller : ι) :
    Progress → Outcome KeystoreError StorageAnswer → Prop :=
  Returns format backend bound (requests caller)

theorem meets_serve (lawful : format.Lawful) (requests : ι → StorageCall)
    (usable : AllUsable requests) (caller : ι) :
    (serve format backend bound requests caller).Meets
      (replacing naming (mayReplace format backend (requests caller))) .start
      (served format backend bound requests caller) :=
  meets_perform lawful (usable caller)

variable [DecidableEq ι]

/-- Nothing but whole records is ever written. -/
theorem whole_of_chronicle (lawful : format.Lawful)
    (lives : Lives (serve format backend bound) AllUsable .empty episodes volume)
    (chronicle : Chronicle naming
      (fun requests caller => mayReplace format backend (requests caller))
      (served format backend bound) episodes history) {change : Replacement}
    (member : change ∈ history.changes) {content : Bytes}
    (written : change.content = some content) :
    ∃ record, Decodes format content record := by
  obtain ⟨requests, trace, caller, life, may⟩ := chronicle.meant change member
  exact decodes_of_mayReplace lawful (lives.isUsable_of_mem life caller) may written

/-- Whatever happened to the directory since it was new, the files are what is left of the
changes that calls made of them: whole records, in order, and among them every record whose
`put` returned. -/
theorem puts_survive (lawful : format.Lawful)
    (lives : Lives (serve format backend bound) AllUsable .empty episodes volume) :
    ∃ history, Remains episodes history ∧
      (∀ path, extension path = some "json" →
        volume.contentOf path = contentAfter (fun _ => none) history.changes path) ∧
      (∀ change ∈ history.changes, (∃ requests trace caller, .life requests trace ∈ episodes ∧
        mayReplace format backend (requests caller) change) ∧
        ∀ content, change.content = some content → ∃ record, Decodes format content record) ∧
      ∀ requests trace caller record answer, .life requests trace ∈ episodes →
        requests caller = .put record → Returned trace caller (.ok answer) →
          ∃ change ∈ history.changes.take history.durable,
            mayReplace format backend (.put record) change := by
  obtain ⟨history, remains, chronicle, -, follows⟩ :=
    lives.remains Volume.sound_empty Volume.follows_empty (meets_serve lawful)
  refine ⟨history, remains, follows.now, fun change member => ⟨chronicle.meant change member, ?_⟩,
    ?_⟩
  · exact fun content written => whole_of_chronicle lawful lives chronicle member written
  · intro requests trace caller record answer life request returned
    have told := chronicle.returned requests trace life caller _ returned
    unfold served at told
    rw [request] at told
    obtain ⟨-, synced, change, changed, may⟩ := told
    refine ⟨change, chronicle.kept requests trace life caller change ?_, may⟩
    rw [synced, changed]
    exact List.mem_singleton_self _

/-- A record that was stored while the directory was listed is left after the power went
out. -/
theorem stored_survives : ∃ record told volume history,
    Lives (serve numberFormat keysDirectory 2) AllUsable .empty
      [.life (besideList (.put record)) told, .powerCut] volume ∧
    Remains [.life (besideList (.put record)) told, .powerCut] history ∧
    ∃ change ∈ history.changes.take history.durable,
      mayReplace numberFormat keysDirectory (.put record) change := by
  obtain ⟨record, told, volume, trace, pool, storable, lives, stored, gets, got, listed⟩ :=
    stored_then_read
  obtain ⟨history, remains, -, -, kept⟩ := puts_survive numberFormat_lawful lives
  exact ⟨record, told, volume, history, lives, remains,
    kept _ told true record .done List.mem_cons_self rfl stored⟩

/-- A life that starts from what is left, with what its calls have done. -/
theorem exists_history (lawful : format.Lawful) {requests : ι → StorageCall}
    (lives : Lives (serve format backend bound) AllUsable .empty episodes volume)
    (usable : AllUsable requests)
    {trace : List (Entry Shelf ι FileAccess FileAccess.Ret KeystoreError StorageAnswer)}
    {pool : Pool ι Shelf FileAccess FileAccess.Ret KeystoreError StorageAnswer}
    (runs : Pool.Runs shelves
      ⟨.fresh volume, fun caller => .running (serve format backend bound requests caller)⟩
      trace pool) :
    ∃ history, Remains episodes history ∧
      Chronicle naming (fun requests caller => mayReplace format backend (requests caller))
        (served format backend bound) episodes history ∧
      Consistent naming (fun caller => mayReplace format backend (requests caller)) (fun _ => none)
        history trace pool.shared ∧
      ∀ caller outcome, Returned trace caller outcome →
        Right format backend bound history trace caller (requests caller) outcome := by
  obtain ⟨history, remains, chronicle, consistent, keeping⟩ :=
    lives.runs Volume.sound_empty Volume.follows_empty (meets_serve lawful) usable runs
  refine ⟨history, remains, chronicle, consistent, fun caller outcome returned => ?_⟩
  have ended := keeping caller
  rw [runs.finished_of_returned returned] at ended
  refine right_of_returns consistent ?_ ended
  intro change member content written
  rcases consistent.accounts.meant change member with earlier | ⟨other, may⟩
  · exact whole_of_chronicle lawful lives chronicle earlier written
  · exact decodes_of_mayReplace lawful (usable other) may written

/-- In every life, after whatever happened before, and in every interleaving of its calls,
every call that returns is right. -/
theorem answers_are_right (lawful : format.Lawful) {requests : ι → StorageCall}
    (lives : Lives (serve format backend bound) AllUsable .empty episodes volume)
    (usable : AllUsable requests)
    {trace : List (Entry Shelf ι FileAccess FileAccess.Ret KeystoreError StorageAnswer)}
    {pool : Pool ι Shelf FileAccess FileAccess.Ret KeystoreError StorageAnswer}
    (runs : Pool.Runs shelves
      ⟨.fresh volume, fun caller => .running (serve format backend bound requests caller)⟩
      trace pool) :
    ∃ history, Remains episodes history ∧ ∀ caller outcome, Returned trace caller outcome →
      Right format backend bound history trace caller (requests caller) outcome := by
  obtain ⟨history, remains, -, -, right⟩ := exists_history lawful lives usable runs
  exact ⟨history, remains, right⟩

/-- What is got and listed after the power went out was there at moments of the calls. -/
theorem got_is_right : ∃ record told volume trace pool history,
    Lives (serve numberFormat keysDirectory 2) AllUsable .empty
      [.life (besideList (.put record)) told, .powerCut] volume ∧
    Pool.Runs shelves (answering (.get record.id) volume) trace pool ∧
    Right numberFormat keysDirectory 2 history trace true (.get record.id)
      (.ok (.found (some record))) ∧
    Right numberFormat keysDirectory 2 history trace false .list (.ok (.records [record])) := by
  obtain ⟨record, told, volume, trace, pool, storable, lives, stored, gets, got, listed⟩ :=
    stored_then_read
  have usable : AllUsable (besideList (.get record.id)) := fun
    | true => storable.plain
    | false => trivial
  obtain ⟨history, -, right⟩ := answers_are_right numberFormat_lawful lives usable gets
  exact ⟨record, told, volume, trace, pool, history, lives, gets, right true _ got,
    right false _ listed⟩

/-- Different keys have different files. -/
theorem keyPath_inj {left right : KeyId} (leftWhole : '/' ∉ left.text.toList)
    (rightWhole : '/' ∉ right.text.toList) (same : backend.keyPath left = backend.keyPath right) :
    left = right := by
  rw [keyPath_eq, keyPath_eq, join_of_isName (isName_dotted leftWhole isExtension_json),
    join_of_isName (isName_dotted rightWhole isExtension_json)] at same
  have characters := congrArg String.toList same
  simp only [String.toList_append] at characters
  have texts := List.append_cancel_right (List.append_cancel_right
    (List.append_cancel_left characters))
  cases left
  cases right
  exact congrArg KeyId.mk (String.toList_injective texts)

/-- A call that does not change this key, but that it may store this record. -/
def Spares (record : KeyMetadata) (request : StorageCall) : Prop :=
  request ≠ .delete record.id ∧ ∀ other, request = .put other → other.id = record.id →
    other = record

/-- The only change of the file that sparing calls may make. -/
theorem Spares.eq_of_mayReplace {record : KeyMetadata} {request : StorageCall}
    {change other : Replacement} (spares : Spares record request) (usable : Usable request)
    (storable : record.Storable) (mine : mayReplace format backend (.put record) change)
    (may : mayReplace format backend request other) (same : other.name = change.name) :
    other = change := by
  obtain ⟨text, written, rfl⟩ := mine
  cases request with
  | put stored =>
      obtain ⟨spelled, alsoWritten, rfl⟩ := may
      have equal : stored.id = record.id :=
        keyPath_inj (KeyMetadata.Storable.plain usable).1 storable.plain.1 same
      rw [spares.2 stored rfl equal, written] at alsoWritten
      cases alsoWritten
      rw [spares.2 stored rfl equal]
  | delete id =>
      cases may
      exact absurd (congrArg StorageCall.delete (keyPath_inj usable.1 storable.plain.1 same))
        spares.1
  | get id => exact may.elim
  | list => exact may.elim
  | listByState state => exact may.elim
  | listByParent parentId => exact may.elim

/-- A record whose `put` returned in some life is what every later life gets for its key,
unless a call stored something else there or an access to files fails: then the call may
fail, or say that there is no record. -/
theorem acknowledged_record_is_read_back (lawful : format.Lawful) {record : KeyMetadata}
    {requests earlier : ι → StorageCall}
    (lives : Lives (serve format backend bound) AllUsable .empty episodes volume)
    (usable : AllUsable requests)
    {trace told : List (Entry Shelf ι FileAccess FileAccess.Ret KeystoreError StorageAnswer)}
    {pool : Pool ι Shelf FileAccess FileAccess.Ret KeystoreError StorageAnswer}
    (runs : Pool.Runs shelves
      ⟨.fresh volume, fun caller => .running (serve format backend bound requests caller)⟩
      trace pool)
    (spared : ∀ caller, Spares record (requests caller))
    (sparedBefore : ∀ past story, .life past story ∈ episodes → ∀ caller,
      Spares record (past caller))
    {writer : ι} {answer : StorageAnswer} (life : .life earlier told ∈ episodes)
    (asked : earlier writer = .put record) (stored : Returned told writer (.ok answer))
    {reader : ι} {outcome : Outcome KeystoreError StorageAnswer}
    (asks : requests reader = .get record.id) (returned : Returned trace reader outcome) :
    outcome = .ok (.found (some record)) ∨
      (outcome = .ok (.found none) ∨ ∃ error, outcome = .err error) ∧ FailedBy reader trace := by
  obtain ⟨history, -, chronicle, consistent, right⟩ := exists_history lawful lives usable runs
  have storable : record.Storable := by
    have usableThen := lives.isUsable_of_mem life writer
    rwa [asked] at usableThen
  -- the change that the `put` made is durable
  have kept : ∃ change ∈ history.changes, mayReplace format backend (.put record) change := by
    have put := chronicle.returned earlier told life writer _ stored
    unfold served at put
    rw [asked] at put
    obtain ⟨-, synced, change, changed, may⟩ := put
    refine ⟨change, List.mem_of_mem_take (chronicle.kept earlier told life writer change ?_), may⟩
    rw [synced, changed]
    exact List.mem_singleton_self _
  obtain ⟨change, member, mine⟩ := kept
  -- and no other change of the file is ever made
  have only : ∀ other ∈ (history.along trace).changes, other.name = change.name →
      other = change := by
    intro other within same
    rcases consistent.accounts.meant other within with before | ⟨caller, may⟩
    · obtain ⟨past, story, caller, lived, may⟩ := chronicle.meant other before
      exact (sparedBefore past story lived caller).eq_of_mayReplace
        (lives.isUsable_of_mem lived caller) storable mine may same
    · exact (spared caller).eq_of_mayReplace (usable caller) storable mine may same
  have right := right reader outcome returned
  rw [asks] at right
  cases outcome with
  | aborted why => exact right.1.elim
  | err error => exact .inr ⟨.inr ⟨error, rfl⟩, right.2⟩
  | ok got =>
      obtain ⟨-, ⟨past, entry, rest, rfl, -, rfl⟩ | ⟨rfl, failed⟩⟩ := right
      rotate_left
      · exact .inr ⟨.inl rfl, failed⟩
      left
      have content : contentAfter (fun _ => none) (history.along past).changes change.name =
          change.content := by
        refine contentAfter_of_mem (History.mem_along member past) fun other within => only other ?_
        rw [History.along_append]
        exact History.mem_along within _
      obtain ⟨text, written, rfl⟩ := mine
      obtain ⟨same, spelled, read⟩ := lawful.reads storable
      rw [written] at spelled
      cases spelled
      rw [recordIn_eq_some content ⟨text, decodeUtf8_utf8 text, read⟩]

/-- A record that was stored is read back after the power went out, beside a listing. -/
theorem stored_is_read_back : ∃ record told volume trace pool outcome,
    Lives (serve numberFormat keysDirectory 2) AllUsable .empty
      [.life (besideList (.put record)) told, .powerCut] volume ∧
    Pool.Runs shelves (answering (.get record.id) volume) trace pool ∧
    Returned trace true outcome ∧ (outcome = .ok (.found (some record)) ∨
      (outcome = .ok (.found none) ∨ ∃ error, outcome = .err error) ∧ FailedBy true trace) := by
  obtain ⟨record, told, volume, trace, pool, storable, lives, stored, gets, got, listed⟩ :=
    stored_then_read
  have lists : Spares record .list := by
    refine ⟨StorageCall.noConfusion, fun other same => ?_⟩
    cases same
  have reads : ∀ caller, Spares record (besideList (.get record.id) caller) := by
    rintro ⟨⟩
    · exact lists
    · refine ⟨StorageCall.noConfusion, fun other same => ?_⟩
      cases same
  have writes : ∀ caller, Spares record (besideList (.put record) caller) := by
    rintro ⟨⟩
    · exact lists
    · refine ⟨StorageCall.noConfusion, fun other same _ => ?_⟩
      cases same
      rfl
  have usable : AllUsable (besideList (.get record.id)) := fun
    | true => storable.plain
    | false => trivial
  refine ⟨record, told, volume, trace, pool, _, lives, gets, got,
    acknowledged_record_is_read_back numberFormat_lawful lives usable gets reads ?_
      List.mem_cons_self rfl stored rfl got⟩
  intro past story member caller
  rcases List.mem_cons.mp member with same | later
  · cases same
    exact writes caller
  · cases List.mem_singleton.mp later

end Recovery

end DurableBackend

end Citadel
