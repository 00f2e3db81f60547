import Citadel.Keystore.FileBackend
import Citadel.Keystore.Growth
import Mathlib.Logic.Equiv.List
import Mathlib.Tactic.DeriveEncodable

/-!
# Files for a map

On identifiers that are plain file names the file backend answers as the one in memory and
touches no files but those of the key it was asked for. An identifier with a separator in it
is followed to wherever it leads: the two backends agree on it exactly when nothing is there.
-/

namespace Citadel

open Paths Method

/-- The same answer, lists up to order. -/
def StorageAnswer.Same : StorageAnswer → StorageAnswer → Prop
  | .records left, .records right => left.Perm right
  | left, right => left = right

/-- The same result. -/
def SameResult : Except KeystoreError StorageAnswer → Except KeystoreError StorageAnswer → Prop
  | .ok left, .ok right => left.Same right
  | .error left, .error right => left = right
  | _, _ => False

/-- The file of a key in a directory. -/
def fileOf (home : Location) (id : KeyId) (ext : String) : Location :=
  home ++ [id.text ++ "." ++ ext]

/-- The locations that are a call's own: the files of the key it names, the directory and
its entries for a listing. -/
def StorageCall.Owns (home : Location) : StorageCall → Location → Prop
  | .get id, location => location = fileOf home id "json"
  | .put record, location =>
      location = fileOf home record.id "json" ∨ location = fileOf home record.id "tmp"
  | .delete id, location => location = fileOf home id "json"
  | .list, location => location = home ∨ ∃ name, location = home ++ [name]
  | .listByState _, location => location = home ∨ ∃ name, location = home ++ [name]
  | .listByParent _, location => location = home ∨ ∃ name, location = home ++ [name]

namespace FileBackend

/-- The files answer a call as the map does, and nothing but its own files is touched. -/
structure Agrees (format : KeyFormat) (backend : FileBackend) (home : Location)
    (call : StorageCall) (system : FileSystem) (keys : Keys) : Prop where
  result : SameResult (backend.answer format call system).1 (InMemoryBackend.answer call keys).1
  own : ∀ location ∈ (backend.answer format call system).2.touched, call.Owns home location

/-- Every call of a run is answered alike, each backend going on from its own state. -/
def Refines (format : KeyFormat) (backend : FileBackend) (home : Location) :
    List StorageCall → FileSystem → Keys → Prop
  | [], _, _ => True
  | call :: rest, system, keys =>
      backend.Agrees format home call system keys ∧
        backend.Refines format home rest (backend.answer format call system).2.system
          (InMemoryBackend.answer call keys).2

/-- An identifier with a separator leads to nothing. -/
def Confined (backend : FileBackend) (system : FileSystem) : StorageCall → Prop
  | .get id => '/' ∈ id.text.toList → system.found (backend.keyPath id) = none
  | .delete id => '/' ∈ id.text.toList → system.found (backend.keyPath id) = none
  | _ => True

/-- Every call of a run is confined. -/
def AllConfined (format : KeyFormat) (backend : FileBackend) :
    List StorageCall → FileSystem → Prop
  | [], _ => True
  | call :: rest, system =>
      backend.Confined system call ∧
        backend.AllConfined format rest (backend.answer format call system).2.system

/-- The directory is there, holds no directories, and takes the files of every key. -/
structure Ready (backend : FileBackend) (home : Location) (system : FileSystem) : Prop where
  leads : system.locate backend.dir = some home
  isDir : home ∈ system.dirs
  flat : ∀ name, home ++ [name] ∉ system.dirs
  takes : ∀ random, system.admits (join backend.dir ((KeyId.generate random).text ++ ".json")) =
    true ∧ system.admits (join backend.dir ((KeyId.generate random).text ++ ".tmp")) = true

/-- The directory holds the records of the map, each in its own file, and no other file. -/
structure Mirrors (format : KeyFormat) (backend : FileBackend) (home : Location)
    (system : FileSystem) (keys : Keys) : Prop where
  ready : backend.Ready home system
  stored : ∀ id record, keys.find? id = some record → record.Storable ∧ ∃ text,
    system.files.find? (fileOf home id "json") = some ⟨fileOf home id "json", utf8 text⟩ ∧
      format.fromStr .deserialize text = .ok record
  only : ∀ name file, system.files.find? (home ++ [name]) = some file →
    ∃ id record, keys.find? id = some record ∧ name = id.text ++ "." ++ "json"

end FileBackend

open FileBackend

theorem isExtension_json : IsExtension "json" := ⟨by decide, by decide, by decide⟩

theorem isExtension_tmp : IsExtension "tmp" := ⟨by decide, by decide, by decide⟩

/-- Different keys have different files. -/
theorem fileOf_inj {home : Location} {left right : KeyId} {ext : String} :
    fileOf home left ext = fileOf home right ext ↔ left = right := by
  constructor
  · intro same
    have names := List.singleton_inj.mp (List.append_cancel_left same)
    have characters := congrArg String.toList names
    simp only [String.toList_append] at characters
    have texts := List.append_cancel_right (List.append_cancel_right characters)
    cases left
    cases right
    exact congrArg KeyId.mk (String.toList_injective texts)
  · rintro rfl
    rfl

/-- No key's file is the temporary file of another. -/
theorem fileOf_json_ne_tmp {home : Location} {left right : KeyId} :
    fileOf home left "json" ≠ fileOf home right "tmp" := by
  intro same
  have names := List.singleton_inj.mp (List.append_cancel_left same)
  have ends := congrArg (fun name => name.toList.getLast?) names
  simp at ends

theorem keyPath_eq (backend : FileBackend) (id : KeyId) :
    backend.keyPath id = join backend.dir (id.text ++ "." ++ "json") := by
  rw [keyPath, String.append_assoc]
  rfl

/-- A generated identifier in the form of a plain file name. -/
theorem KeyMetadata.Storable.plain {record : KeyMetadata} (storable : record.Storable) :
    '/' ∉ record.id.text.toList ∧ record.id.text ≠ "" := by
  obtain ⟨random, generated⟩ := storable.generated
  rw [generated]
  exact ⟨KeyId.slash_not_mem_generate random, KeyId.generate_ne_empty random⟩

section Following

variable {backend : FileBackend} {home : Location} {system : FileSystem} {id : KeyId}

/-- A plain identifier leads to its own file. -/
theorem FileBackend.Ready.locate (ready : backend.Ready home system) {ext : String}
    (isExtension : IsExtension ext) (whole : '/' ∉ id.text.toList)
    (admitted : system.admits (join backend.dir (id.text ++ "." ++ ext)) = true) :
    system.locate (join backend.dir (id.text ++ "." ++ ext)) = some (fileOf home id ext) :=
  FileSystem.locate_join ready.leads ready.isDir (isName_dotted whole isExtension) admitted

theorem FileBackend.Ready.locate_plain (ready : backend.Ready home system)
    (whole : '/' ∉ id.text.toList) {location : Location}
    (leads : system.locate (backend.keyPath id) = some location) :
    location = fileOf home id "json" := by
  rw [keyPath_eq] at leads
  have admitted : system.admits (join backend.dir (id.text ++ "." ++ "json")) = true := by
    unfold FileSystem.locate at leads
    split at leads
    · cases leads
    · rename_i usable
      simpa using (not_or.mp usable).2
  rw [ready.locate isExtension_json whole admitted] at leads
  exact (Option.some.inj leads).symm

/-- The files of a storable record can be followed to. -/
theorem FileBackend.Ready.locate_storable (ready : backend.Ready home system)
    {record : KeyMetadata} (storable : record.Storable) :
    system.locate (backend.keyPath record.id) = some (fileOf home record.id "json") ∧
      system.locate (withExtension (backend.keyPath record.id) "tmp") =
        some (fileOf home record.id "tmp") := by
  obtain ⟨whole, notEmpty⟩ := storable.plain
  obtain ⟨random, generated⟩ := storable.generated
  have takes := ready.takes random
  rw [← generated] at takes
  rw [keyPath_eq, withExtension_join _ whole notEmpty isExtension_json isExtension_tmp]
  constructor
  · apply ready.locate isExtension_json whole
    rw [String.append_assoc]
    exact takes.1
  · apply ready.locate isExtension_tmp whole
    rw [String.append_assoc]
    exact takes.2

/-- An identifier with a separator does not lead to a file of its own. -/
theorem ne_fileOf_of_slash (slash : '/' ∈ id.text.toList) {location : Location}
    (leads : system.locate (backend.keyPath id) = some location) :
    location ≠ fileOf home id "json" := by
  obtain ⟨before, after, same, whole⟩ := exists_last_separator slash
  have own : ∃ front, (backend.keyPath id).toList =
      front ++ '/' :: (String.ofList after ++ "." ++ "json").toList := by
    rw [keyPath_eq]
    unfold join
    split
    · exact ⟨before, by simp [same]⟩
    · exact ⟨(withSeparator backend.dir).toList ++ before, by simp [same]⟩
  have isName : IsName (String.ofList after ++ "." ++ "json") :=
    isName_dotted (by simpa using whole) isExtension_json
  obtain ⟨front, cut⟩ := own
  obtain ⟨parent, rfl⟩ := FileSystem.locate_name leads (pieces_append cut isName.whole) isName
  intro equal
  have names := List.append_inj_right' equal rfl
  have slashes : '/' ∈ (String.ofList after ++ "." ++ "json").toList := by
    rw [List.singleton_inj.mp names]
    simp [slash]
  exact isName.whole slashes

end Following

section Playing

variable {format : KeyFormat} {backend : FileBackend} {home : Location} {disk : Disk}
  {system : FileSystem} {keys : Keys} {record : KeyMetadata} {path : String} {location : Location}

theorem play_readKeyFile {text : String} (leads : disk.system.locate path = some location)
    (flat : location ∉ disk.system.dirs)
    (isFile : disk.system.files.find? location = some ⟨location, utf8 text⟩)
    (parses : format.fromStr .deserialize text = .ok record) :
    (readKeyFile format path).play disk = (.ok record, disk.touching location) := by
  unfold readKeyFile
  have read : (Disk.readToString path).play disk = (.ok text, disk.touching location) :=
    Disk.play_readToString leads flat isFile (decodeUtf8_utf8 text)
  rw [play_bind_of_ok (play_mapErr_of_ok read), parses]
  rfl

theorem play_get_of_vacant {id : KeyId} (vacant : system.found (backend.keyPath id) = none) :
    backend.answer format (.get id) system = (.ok (.found none), ⟨system, []⟩) := by
  have tested : (Disk.pathExists (backend.keyPath id) : Method Disk KeystoreError Bool).play
      ⟨system, []⟩ = (.ok false, ⟨system, []⟩) := Disk.play_pathExists_of_vacant vacant
  have got : (backend.get format id).play ⟨system, []⟩ = (.ok none, ⟨system, []⟩) := by
    unfold FileBackend.get
    rw [play_bind_of_ok tested]
    rfl
  unfold FileBackend.answer FileBackend.perform
  rw [play_bind_of_ok got]
  rfl

theorem play_delete_of_vacant {id : KeyId} (vacant : system.found (backend.keyPath id) = none) :
    backend.answer format (.delete id) system = (.ok .done, ⟨system, []⟩) := by
  have tested : (Disk.pathExists (backend.keyPath id) : Method Disk KeystoreError Bool).play
      ⟨system, []⟩ = (.ok false, ⟨system, []⟩) := Disk.play_pathExists_of_vacant vacant
  have deleted : (backend.delete id).play ⟨system, []⟩ = (.ok (), ⟨system, []⟩) := by
    unfold FileBackend.delete
    rw [play_bind_of_ok tested]
    rfl
  unfold FileBackend.answer FileBackend.perform
  rw [play_bind_of_ok deleted]
  rfl

/-- Whatever is found is read, and whatever reading it gives is not that nothing is there. -/
theorem get_ne_none_of_found {id : KeyId}
    (leads : system.found (backend.keyPath id) = some location) :
    (backend.answer format (.get id) system).1 ≠ .ok (.found none) := by
  have tested : (Disk.pathExists (backend.keyPath id) : Method Disk KeystoreError Bool).play
      ⟨system, []⟩ = (.ok true, (⟨system, []⟩ : Disk).touching location) :=
    Disk.play_pathExists_of_found leads
  unfold FileBackend.answer FileBackend.perform FileBackend.get
  rw [play_bind, play_bind_of_ok tested, if_neg (by decide), play_bind]
  cases (readKeyFile format (backend.keyPath id)).play
      ((⟨system, []⟩ : Disk).touching location) with
  | mk result later =>
      cases result with
      | ok read => simp
      | error error => simp

/-- A removal touches what it was led to. -/
theorem mem_touched_delete {id : KeyId}
    (leads : system.found (backend.keyPath id) = some location) :
    location ∈ (backend.answer format (.delete id) system).2.touched := by
  have tested : (Disk.pathExists (backend.keyPath id) : Method Disk KeystoreError Bool).play
      ⟨system, []⟩ = (.ok true, (⟨system, []⟩ : Disk).touching location) :=
    Disk.play_pathExists_of_found leads
  have kept : location ∈ ((Disk.removeFile (backend.keyPath id)).play
      ((⟨system, []⟩ : Disk).touching location)).2.touched :=
    Disk.mem_touched_removeFile (List.mem_append_right _ List.mem_cons_self)
  unfold FileBackend.answer FileBackend.perform FileBackend.delete
  rw [play_bind, play_bind_of_ok tested, if_neg (by decide), play_mapErr]
  cases removed : (Disk.removeFile (backend.keyPath id)).play
      ((⟨system, []⟩ : Disk).touching location) with
  | mk result later =>
      rw [removed] at kept
      cases result with
      | ok done => exact kept
      | error error => exact kept

end Playing

/-- The directory after a record was stored. -/
def filed (home : Location) (id : KeyId) (text : String) (system : FileSystem) : FileSystem :=
  ((system.store ⟨fileOf home id "tmp", utf8 text⟩).remove (fileOf home id "tmp")).store
    ⟨fileOf home id "json", utf8 text⟩

/-- The temporary file is gone again. -/
theorem find?_filed (home : Location) (id : KeyId) (text : String) (system : FileSystem)
    (location : Location) :
    (filed home id text system).files.find? location =
      if location = fileOf home id "json" then some ⟨fileOf home id "json", utf8 text⟩
      else if location = fileOf home id "tmp" then none
      else system.files.find? location := by
  unfold filed
  rw [FileSystem.find?_store, FileSystem.find?_remove, FileSystem.find?_store]
  split
  · rfl
  · split
    · rfl
    · rfl

namespace FileBackend.Mirrors

variable {format : KeyFormat} {backend : FileBackend} {home : Location} {system : FileSystem}
  {keys : Keys} {id : KeyId} {record : KeyMetadata}

/-- A stored key has a plain identifier. -/
theorem plain (mirrors : backend.Mirrors format home system keys)
    (found : keys.find? id = some record) : '/' ∉ id.text.toList := by
  have storable := (mirrors.stored id record found).1
  rw [← Table.key_of_find? found]
  exact storable.plain.1

/-- A stored key leads to its file. -/
theorem locate (mirrors : backend.Mirrors format home system keys)
    (found : keys.find? id = some record) :
    system.locate (backend.keyPath id) = some (fileOf home id "json") := by
  have storable := (mirrors.stored id record found).1
  rw [← Table.key_of_find? found]
  exact (mirrors.ready.locate_storable storable).1

theorem found (mirrors : backend.Mirrors format home system keys)
    (found : keys.find? id = some record) :
    system.found (backend.keyPath id) = some (fileOf home id "json") := by
  obtain ⟨-, text, isFile, -⟩ := mirrors.stored id record found
  rw [FileSystem.found_eq_some]
  refine ⟨mirrors.locate found, ?_⟩
  simp [FileSystem.occupied, isFile]

/-- A plain identifier of no key leads to nothing. -/
theorem vacant_of_plain (mirrors : backend.Mirrors format home system keys)
    (absent : keys.find? id = none) (whole : '/' ∉ id.text.toList) :
    system.found (backend.keyPath id) = none := by
  cases leads : system.found (backend.keyPath id) with
  | none => rfl
  | some location =>
      obtain ⟨located, occupied⟩ := FileSystem.found_eq_some.mp leads
      have own := mirrors.ready.locate_plain whole located
      rw [own, FileSystem.occupied, Bool.or_eq_true, decide_eq_true_iff] at occupied
      rcases occupied with isDir | isFile
      · exact absurd isDir (mirrors.ready.flat _)
      · obtain ⟨file, stored⟩ := Option.isSome_iff_exists.mp isFile
        obtain ⟨other, record, found, named⟩ := mirrors.only _ file stored
        have same : fileOf home id "json" = fileOf home other "json" := by
          unfold fileOf
          rw [named]
        rw [fileOf_inj.mp same, found] at absent
        cases absent

/-- An identifier of no key leads to nothing unless it leaves the directory. -/
theorem vacant (mirrors : backend.Mirrors format home system keys)
    (absent : keys.find? id = none)
    (confined : '/' ∈ id.text.toList → system.found (backend.keyPath id) = none) :
    system.found (backend.keyPath id) = none := by
  by_cases slash : '/' ∈ id.text.toList
  · exact confined slash
  · exact mirrors.vacant_of_plain absent slash

/-- A stored key is read from its file, whatever path leads there. -/
theorem reads (mirrors : backend.Mirrors format home system keys)
    (found : keys.find? id = some record) {path : String}
    (leads : system.locate path = some (fileOf home id "json")) (touched : List Location) :
    (readKeyFile format path).play ⟨system, touched⟩ =
      (.ok record, ⟨system, touched ++ [fileOf home id "json"]⟩) := by
  obtain ⟨-, text, isFile, parses⟩ := mirrors.stored id record found
  exact play_readKeyFile leads (mirrors.ready.flat _) isFile parses

/-- The directory after one file was written, seen from the map. -/
theorem of_files (mirrors : backend.Mirrors format home system keys) {later : FileSystem}
    {after : Keys} (same : later = { system with files := later.files })
    (stored : ∀ id record, after.find? id = some record → record.Storable ∧ ∃ text,
      later.files.find? (fileOf home id "json") = some ⟨fileOf home id "json", utf8 text⟩ ∧
        format.fromStr .deserialize text = .ok record)
    (only : ∀ name file, later.files.find? (home ++ [name]) = some file →
      ∃ id record, after.find? id = some record ∧ name = id.text ++ "." ++ "json") :
    backend.Mirrors format home later after := by
  have ready := mirrors.ready
  rw [same] at stored only ⊢
  exact ⟨⟨ready.leads, ready.isDir, ready.flat, ready.takes⟩, stored, only⟩

/-- Every identifier that leads to the file of a key is answered with that key. -/
theorem get_of_leads (mirrors : backend.Mirrors format home system keys)
    (found : keys.find? id = some record) {other : KeyId}
    (leads : system.locate (backend.keyPath other) = some (fileOf home id "json")) :
    backend.answer format (.get other) system = (.ok (.found (some record)),
      ⟨system, [fileOf home id "json", fileOf home id "json"]⟩) := by
  obtain ⟨-, text, isFile, -⟩ := mirrors.stored id record found
  have occupied : system.occupied (fileOf home id "json") = true := by
    simp [FileSystem.occupied, isFile]
  have tested : (Disk.pathExists (backend.keyPath other) : Method Disk KeystoreError Bool).play
      ⟨system, []⟩ = (.ok true, ⟨system, [fileOf home id "json"]⟩) :=
    Disk.play_pathExists_of_found (FileSystem.found_eq_some.mpr ⟨leads, occupied⟩)
  have got : (backend.get format other).play ⟨system, []⟩ = (.ok (some record),
      ⟨system, [fileOf home id "json", fileOf home id "json"]⟩) := by
    unfold FileBackend.get
    rw [play_bind_of_ok tested, if_neg (by decide), play_bind_of_ok (mirrors.reads found leads _)]
    rfl
  unfold FileBackend.answer perform
  rw [play_bind_of_ok got]
  rfl

theorem agrees_get (mirrors : backend.Mirrors format home system keys)
    (confined : backend.Confined system (.get id)) :
    backend.Agrees format home (.get id) system keys ∧
      backend.Mirrors format home (backend.answer format (.get id) system).2.system
        (InMemoryBackend.answer (.get id) keys).2 := by
  have inMemory : InMemoryBackend.answer (.get id) keys = (.ok (.found (keys.find? id)), keys) :=
    rfl
  cases found : keys.find? id with
  | none =>
      have played : backend.answer format (.get id) system = _ :=
        play_get_of_vacant (mirrors.vacant found confined)
      constructor
      · constructor
        · rw [played, inMemory, found]
          rfl
        · rw [played]
          nofun
      · rw [played]
        exact mirrors
  | some record =>
      have played := mirrors.get_of_leads found (mirrors.locate found)
      constructor
      · constructor
        · rw [played, inMemory, found]
          rfl
        · rw [played]
          intro location member
          change location = fileOf home id "json"
          simpa using member
      · rw [played]
        exact mirrors

/-- An identifier that leads out of its file is answered differently. -/
theorem not_agrees_get (mirrors : backend.Mirrors format home system keys)
    (loose : ¬ backend.Confined system (.get id)) :
    ¬ backend.Agrees format home (.get id) system keys := by
  obtain ⟨slash, leads⟩ := Classical.not_imp.mp loose
  have absent : keys.find? id = none := by
    cases found : keys.find? id with
    | none => rfl
    | some record => exact absurd slash (mirrors.plain found)
  obtain ⟨location, leads⟩ := Option.ne_none_iff_exists'.mp leads
  intro agrees
  have result := agrees.result
  have inMemory : InMemoryBackend.answer (.get id) keys = (.ok (.found none), keys) := by
    rw [← absent]
    rfl
  have differs : (backend.answer format (.get id) system).1 ≠ _ := get_ne_none_of_found leads
  rw [inMemory] at result
  cases answered : (backend.answer format (.get id) system).1 with
  | error error =>
      rw [answered] at result
      exact result
  | ok answer =>
      rw [answered] at result differs
      apply differs
      have same : answer = .found none := by
        cases answer with
        | records records => cases result
        | _ => exact result
      rw [same]

theorem play_put (mirrors : backend.Mirrors format home system keys) (storable : record.Storable)
    {text : String}
    (writes : format.toStringPretty SecretKeyMaterial.serialize record = .ok text) :
    backend.answer format (.put record) system =
      (.ok .done, ⟨filed home record.id text system, [fileOf home record.id "tmp",
        fileOf home record.id "tmp", fileOf home record.id "json"]⟩) := by
  obtain ⟨leads, leadsTmp⟩ := mirrors.ready.locate_storable storable
  have isTmp : (system.store ⟨fileOf home record.id "tmp", utf8 text⟩).files.find?
      (fileOf home record.id "tmp") = some ⟨fileOf home record.id "tmp", utf8 text⟩ := by
    rw [FileSystem.find?_store, if_pos rfl]
  have written : (Disk.write (withExtension (backend.keyPath record.id) "tmp") (utf8 text)).play
      ⟨system, []⟩ = (.ok (), ⟨system.store ⟨fileOf home record.id "tmp", utf8 text⟩,
        [fileOf home record.id "tmp"]⟩) :=
    Disk.play_write leadsTmp (mirrors.ready.flat _)
  have leadsLater : ∀ path, (system.store ⟨fileOf home record.id "tmp", utf8 text⟩).locate path =
      system.locate path := fun path => by rw [FileSystem.locate_store]
  have renamed : (Disk.rename (withExtension (backend.keyPath record.id) "tmp")
      (backend.keyPath record.id)).play ⟨system.store ⟨fileOf home record.id "tmp", utf8 text⟩,
        [fileOf home record.id "tmp"]⟩ =
      (.ok (), ⟨filed home record.id text system, [fileOf home record.id "tmp",
        fileOf home record.id "tmp", fileOf home record.id "json"]⟩) :=
    Disk.play_rename (by rw [leadsLater, leadsTmp]) (by rw [leadsLater, leads])
      (mirrors.ready.flat _) (mirrors.ready.flat _) isTmp
  have stored : (backend.put format record).play ⟨system, []⟩ =
      (.ok (), ⟨filed home record.id text system, [fileOf home record.id "tmp",
        fileOf home record.id "tmp", fileOf home record.id "json"]⟩) := by
    unfold put
    rw [writes]
    simp only [Except.mapError_ok, play_ofExcept_ok_bind]
    rw [play_bind_of_ok (play_mapErr_of_ok written)]
    exact play_mapErr_of_ok renamed
  unfold FileBackend.answer perform
  rw [play_bind_of_ok stored]
  rfl

theorem agrees_put (lawful : format.Lawful) (mirrors : backend.Mirrors format home system keys)
    (storable : record.Storable) :
    backend.Agrees format home (.put record) system keys ∧
      backend.Mirrors format home (backend.answer format (.put record) system).2.system
        (InMemoryBackend.answer (.put record) keys).2 := by
  obtain ⟨text, writes, parses⟩ := lawful.reads storable
  have played := mirrors.play_put storable writes
  have inMemory : InMemoryBackend.answer (.put record) keys = (.ok .done, keys.insert record) :=
    rfl
  rw [played, inMemory]
  constructor
  · constructor
    · rw [played, inMemory]
      rfl
    · rw [played]
      intro location member
      change location = fileOf home record.id "json" ∨ location = fileOf home record.id "tmp"
      rcases List.mem_cons.mp member with tmp | rest
      · exact Or.inr tmp
      · rcases List.mem_cons.mp rest with tmp | json
        · exact Or.inr tmp
        · exact Or.inl (List.mem_singleton.mp json)
  · apply mirrors.of_files rfl
    · intro id stored found
      rw [Table.find?_insert] at found
      split at found
      · rename_i same
        cases found
        refine ⟨storable, text, ?_, parses⟩
        rw [find?_filed, same, if_pos rfl]
      · rename_i different
        obtain ⟨isStorable, other, isFile, reads⟩ := mirrors.stored id stored found
        refine ⟨isStorable, other, ?_, reads⟩
        rw [find?_filed, if_neg (different ∘ fileOf_inj.mp), if_neg fileOf_json_ne_tmp]
        exact isFile
    · intro name file isFile
      rw [find?_filed] at isFile
      have isStored : (keys.insert record).find? record.id = some record :=
        Table.find?_insert_self keys record
      split at isFile
      · rename_i same
        exact ⟨record.id, record, isStored, List.singleton_inj.mp (List.append_cancel_left same)⟩
      · split at isFile
        · cases isFile
        · obtain ⟨id, old, found, named⟩ := mirrors.only name file isFile
          by_cases same : id = record.id
          · exact ⟨record.id, record, isStored, same ▸ named⟩
          · refine ⟨id, old, ?_, named⟩
            rw [Table.find?_insert_of_ne keys same]
            exact found

theorem delete_of_stored (mirrors : backend.Mirrors format home system keys)
    (found : keys.find? id = some record) :
    backend.answer format (.delete id) system = (.ok .done,
      ⟨system.remove (fileOf home id "json"),
        [fileOf home id "json", fileOf home id "json"]⟩) := by
  obtain ⟨-, text, isFile, -⟩ := mirrors.stored id record found
  have tested : (Disk.pathExists (backend.keyPath id) : Method Disk KeystoreError Bool).play
      ⟨system, []⟩ = (.ok true, ⟨system, [fileOf home id "json"]⟩) :=
    Disk.play_pathExists_of_found (mirrors.found found)
  have removed : (Disk.removeFile (backend.keyPath id)).play
      ⟨system, [fileOf home id "json"]⟩ = (.ok (), ⟨system.remove (fileOf home id "json"),
        [fileOf home id "json", fileOf home id "json"]⟩) :=
    Disk.play_removeFile (mirrors.locate found) (mirrors.ready.flat _) isFile
  have deleted : (backend.delete id).play ⟨system, []⟩ = (.ok (),
      ⟨system.remove (fileOf home id "json"),
        [fileOf home id "json", fileOf home id "json"]⟩) := by
    unfold FileBackend.delete
    rw [play_bind_of_ok tested, if_neg (by decide)]
    exact play_mapErr_of_ok removed
  unfold FileBackend.answer perform
  rw [play_bind_of_ok deleted]
  rfl

/-- The map and the directory without a key. -/
theorem of_delete (mirrors : backend.Mirrors format home system keys) :
    backend.Mirrors format home (system.remove (fileOf home id "json")) (keys.erase id) := by
  apply mirrors.of_files rfl
  · intro other record found
    rw [Table.find?_erase] at found
    split at found
    · cases found
    · rename_i different
      obtain ⟨storable, text, isFile, reads⟩ := mirrors.stored other record found
      refine ⟨storable, text, ?_, reads⟩
      rw [FileSystem.find?_remove, if_neg (different ∘ fileOf_inj.mp)]
      exact isFile
  · intro name file isFile
    rw [FileSystem.find?_remove] at isFile
    split at isFile
    · cases isFile
    · rename_i different
      obtain ⟨other, record, found, named⟩ := mirrors.only name file isFile
      refine ⟨other, record, ?_, named⟩
      rw [Table.find?_erase, if_neg]
      · exact found
      · rintro rfl
        apply different
        rw [named]
        rfl

/-- Deleting a key that is not there changes nothing. -/
theorem of_delete_absent (mirrors : backend.Mirrors format home system keys)
    (absent : keys.find? id = none) : backend.Mirrors format home system (keys.erase id) := by
  have same : ∀ other, (keys.erase id).find? other = keys.find? other := by
    intro other
    rw [Table.find?_erase]
    split
    · rename_i equal
      rw [equal, absent]
    · rfl
  constructor
  · exact mirrors.ready
  · intro other record found
    rw [same] at found
    exact mirrors.stored other record found
  · intro name file isFile
    obtain ⟨other, record, found, named⟩ := mirrors.only name file isFile
    exact ⟨other, record, (same other).trans found, named⟩

theorem agrees_delete (mirrors : backend.Mirrors format home system keys)
    (confined : backend.Confined system (.delete id)) :
    backend.Agrees format home (.delete id) system keys ∧
      backend.Mirrors format home (backend.answer format (.delete id) system).2.system
        (InMemoryBackend.answer (.delete id) keys).2 := by
  have inMemory : InMemoryBackend.answer (.delete id) keys = (.ok .done, keys.erase id) := rfl
  cases found : keys.find? id with
  | none =>
      have played : backend.answer format (.delete id) system = _ :=
        play_delete_of_vacant (mirrors.vacant found confined)
      rw [played, inMemory]
      constructor
      · constructor
        · rw [played, inMemory]
          rfl
        · rw [played]
          nofun
      · exact mirrors.of_delete_absent found
  | some record =>
      have played := mirrors.delete_of_stored found
      rw [played, inMemory]
      constructor
      · constructor
        · rw [played, inMemory]
          rfl
        · rw [played]
          intro location member
          change location = fileOf home id "json"
          simpa using member
      · exact mirrors.of_delete

/-- An identifier that leads out of its file removes another file than its own. -/
theorem not_agrees_delete (loose : ¬ backend.Confined system (.delete id)) :
    ¬ backend.Agrees format home (.delete id) system keys := by
  obtain ⟨slash, leads⟩ := Classical.not_imp.mp loose
  obtain ⟨location, leads⟩ := Option.ne_none_iff_exists'.mp leads
  intro agrees
  have own : location = fileOf home id "json" := agrees.own location (mem_touched_delete leads)
  exact ne_fileOf_of_slash slash (FileSystem.found_eq_some.mp leads).1 own

/-- The files of stored keys are read back one after the other. -/
theorem play_readEntries (mirrors : backend.Mirrors format home system keys) {names : List String}
    (isStored : ∀ name ∈ names, ∃ id record, keys.find? id = some record ∧
      name = id.text ++ "." ++ "json") :
    ∃ records, names = records.map (fun record => record.id.text ++ "." ++ "json") ∧
      (∀ record ∈ records, keys.find? record.id = some record) ∧
      ∀ touched, (readEntries format (names.map (join backend.dir))).play ⟨system, touched⟩ =
        (.ok records, ⟨system, touched ++
          records.map fun record => fileOf home record.id "json"⟩) := by
  induction names with
  | nil =>
      refine ⟨[], rfl, List.forall_mem_nil _, fun touched => ?_⟩
      rw [List.map_nil, List.map_nil, List.append_nil]
      rfl
  | cons name rest ih =>
      obtain ⟨id, record, found, named⟩ := isStored name List.mem_cons_self
      obtain ⟨records, names, stored, plays⟩ :=
        ih fun other member => isStored other (List.mem_cons_of_mem _ member)
      have own : record.id = id := Table.key_of_find? found
      have storable := (mirrors.stored id record found).1.plain
      rw [own] at storable
      have path : join backend.dir name = backend.keyPath id := by rw [keyPath_eq, named]
      refine ⟨record :: records, by rw [names, List.map_cons, own, named], ?_, ?_⟩
      · intro other member
        rcases List.mem_cons.mp member with rfl | later
        · rw [own]
          exact found
        · exact stored other later
      · intro touched
        have isJson : extension (backend.keyPath id) = some "json" := by
          rw [keyPath_eq]
          exact extension_join _ storable.1 storable.2 isExtension_json
        rw [List.map_cons, path, readEntries, if_pos isJson,
          play_bind_of_ok (mirrors.reads found (mirrors.locate found) touched), play_bind_of_ok (plays _),
          List.map_cons, own, List.append_assoc]
        rfl

/-- A listing of the directory is the list of the stored records in some order. -/
theorem play_list (mirrors : backend.Mirrors format home system keys) :
    ∃ records touched, (backend.list format).play ⟨system, []⟩ = (.ok records, ⟨system, touched⟩) ∧
      records.Perm keys.entries ∧
      ∀ location ∈ touched, location = home ∨ ∃ name, location = home ++ [name] := by
  have ready := mirrors.ready
  have occupied : ∀ name, name ∈ system.order (system.namesIn home) ↔
      system.occupied (home ++ [name]) = true := fun name => by
    rw [(system.order_perm _).mem_iff, FileSystem.mem_namesIn]
  have isStored : ∀ name ∈ system.order (system.namesIn home), ∃ id record,
      keys.find? id = some record ∧ name = id.text ++ "." ++ "json" := by
    intro name member
    have present := (occupied name).mp member
    rw [FileSystem.occupied, Bool.or_eq_true, decide_eq_true_iff] at present
    obtain ⟨file, isFile⟩ := Option.isSome_iff_exists.mp (present.resolve_left (ready.flat name))
    exact mirrors.only name file isFile
  obtain ⟨records, names, stored, plays⟩ := mirrors.play_readEntries isStored
  have listed : (Disk.readDir backend.dir).play ⟨system, []⟩ =
      (.ok ((system.order (system.namesIn home)).map (join backend.dir)), ⟨system, [home]⟩) :=
    Disk.play_readDir ready.leads ready.isDir
  refine ⟨records, [home] ++ records.map fun record => fileOf home record.id "json", ?_, ?_, ?_⟩
  · unfold FileBackend.list
    rw [play_bind_of_ok (play_mapErr_of_ok listed)]
    exact plays [home]
  · have distinct : records.Nodup := by
      apply List.Nodup.of_map fun record : KeyMetadata => record.id.text ++ "." ++ "json"
      rw [← names, (system.order_perm _).nodup_iff]
      exact FileSystem.nodup_namesIn ready.flat
    rw [List.perm_ext_iff_of_nodup distinct (List.Nodup.of_map KeyMetadata.id keys.distinct)]
    intro record
    constructor
    · intro member
      exact Table.mem_entries_iff.mpr (stored record member)
    · intro member
      have found := Table.mem_entries_iff.mp member
      obtain ⟨-, text, isFile, -⟩ := mirrors.stored _ record found
      have present : record.id.text ++ "." ++ "json" ∈ system.order (system.namesIn home) := by
        rw [occupied, FileSystem.occupied]
        have isFile' := isFile
        unfold fileOf at isFile'
        rw [isFile']
        simp
      rw [names] at present
      obtain ⟨other, isListed, same⟩ := List.mem_map.mp present
      have sameFile : fileOf home other.id "json" = fileOf home record.id "json" := by
        unfold fileOf
        rw [same]
      have again := stored other isListed
      rw [fileOf_inj.mp sameFile, found] at again
      cases again
      exact isListed
  · intro location member
    rcases List.mem_append.mp member with isHome | isFile
    · exact Or.inl (List.mem_singleton.mp isHome)
    · obtain ⟨record, -, same⟩ := List.mem_map.mp isFile
      exact Or.inr ⟨_, same.symm⟩

/-- A call that lists and keeps what it is asked for. -/
theorem agrees_listing (mirrors : backend.Mirrors format home system keys) {call : StorageCall}
    (wanted : List KeyMetadata → List KeyMetadata)
    (owns : ∀ location, call.Owns home location ↔
      location = home ∨ ∃ name, location = home ++ [name])
    (keeps : ∀ left right : List KeyMetadata, left.Perm right → (wanted left).Perm (wanted right))
    (onDisk : ∀ records after, (backend.list format).play ⟨system, []⟩ = (.ok records, after) →
      backend.answer format call system = (.ok (.records (wanted records)), after))
    (inMemory : InMemoryBackend.answer call keys = (.ok (.records (wanted keys.entries)), keys)) :
    backend.Agrees format home call system keys ∧
      backend.Mirrors format home (backend.answer format call system).2.system
        (InMemoryBackend.answer call keys).2 := by
  obtain ⟨records, touched, listed, same, own⟩ := mirrors.play_list
  have played := onDisk records _ listed
  rw [played, inMemory]
  constructor
  · constructor
    · rw [played, inMemory]
      exact keeps _ _ same
    · rw [played]
      intro location member
      exact (owns location).mpr (own location member)
  · exact mirrors

theorem agrees_list (mirrors : backend.Mirrors format home system keys) :
    backend.Agrees format home .list system keys ∧
      backend.Mirrors format home (backend.answer format .list system).2.system
        (InMemoryBackend.answer .list keys).2 := by
  apply mirrors.agrees_listing (fun records => records) (fun _ => Iff.rfl) (fun _ _ same => same)
    ?_ rfl
  intro records after listed
  unfold FileBackend.answer perform
  rw [play_bind_of_ok listed]
  rfl

theorem agrees_listByState (mirrors : backend.Mirrors format home system keys)
    (state : KeyState) : backend.Agrees format home (.listByState state) system keys ∧
      backend.Mirrors format home (backend.answer format (.listByState state) system).2.system
        (InMemoryBackend.answer (.listByState state) keys).2 := by
  apply mirrors.agrees_listing (fun records => records.filter fun record => record.state = state)
    (fun _ => Iff.rfl) (fun _ _ same => same.filter _) ?_ rfl
  intro records after listed
  unfold FileBackend.answer perform FileBackend.listByState
  rw [play_bind, play_bind_of_ok listed]
  rfl

theorem agrees_listByParent (mirrors : backend.Mirrors format home system keys)
    (parentId : KeyId) : backend.Agrees format home (.listByParent parentId) system keys ∧
      backend.Mirrors format home (backend.answer format (.listByParent parentId) system).2.system
        (InMemoryBackend.answer (.listByParent parentId) keys).2 := by
  apply mirrors.agrees_listing
    (fun records => records.filter fun record => record.parentId = some parentId)
    (fun _ => Iff.rfl) (fun _ _ same => same.filter _) ?_ rfl
  intro records after listed
  unfold FileBackend.answer perform FileBackend.listByParent
  rw [play_bind, play_bind_of_ok listed]
  rfl

/-- A confined call is answered alike and keeps the files and the map together. -/
theorem agrees (lawful : format.Lawful) (mirrors : backend.Mirrors format home system keys)
    {call : StorageCall} (storable : ∀ record, call = .put record → record.Storable)
    (confined : backend.Confined system call) :
    backend.Agrees format home call system keys ∧
      backend.Mirrors format home (backend.answer format call system).2.system
        (InMemoryBackend.answer call keys).2 := by
  cases call with
  | get id => exact mirrors.agrees_get confined
  | put record => exact mirrors.agrees_put lawful (storable record rfl)
  | delete id => exact mirrors.agrees_delete confined
  | list => exact mirrors.agrees_list
  | listByState state => exact mirrors.agrees_listByState state
  | listByParent parentId => exact mirrors.agrees_listByParent parentId

/-- A call is answered alike only when it is confined. -/
theorem confined_of_agrees (mirrors : backend.Mirrors format home system keys)
    {call : StorageCall} (agrees : backend.Agrees format home call system keys) :
    backend.Confined system call := by
  cases call with
  | get id =>
      by_contra loose
      exact mirrors.not_agrees_get loose agrees
  | delete id =>
      by_contra loose
      exact not_agrees_delete loose agrees
  | _ => trivial

end FileBackend.Mirrors

section Runs

variable {format : KeyFormat} {backend : FileBackend} {home : Location}

/-- From a directory that mirrors the map, the files go on answering as the map does exactly
as long as every call is confined. -/
theorem FileBackend.Mirrors.refines_iff (lawful : format.Lawful) {calls : List StorageCall}
    (storable : ∀ record, .put record ∈ calls → record.Storable) {system : FileSystem}
    {keys : Keys} (mirrors : backend.Mirrors format home system keys) :
    backend.Refines format home calls system keys ↔ backend.AllConfined format calls system := by
  induction calls generalizing system keys with
  | nil => exact Iff.rfl
  | cons call rest ih =>
      have first : ∀ record, call = .put record → record.Storable :=
        fun record same => storable record (same ▸ List.mem_cons_self)
      have later : ∀ record, .put record ∈ rest → record.Storable :=
        fun record member => storable record (List.mem_cons_of_mem _ member)
      constructor
      · rintro ⟨agrees, refines⟩
        have confined := mirrors.confined_of_agrees agrees
        have kept := (mirrors.agrees lawful first confined).2
        exact ⟨confined, (ih later kept).mp refines⟩
      · rintro ⟨confined, confines⟩
        obtain ⟨agrees, kept⟩ := mirrors.agrees lawful first confined
        exact ⟨agrees, (ih later kept).mpr confines⟩

/-- An empty directory mirrors the empty map. -/
theorem FileBackend.Ready.mirrors {system : FileSystem} (ready : backend.Ready home system)
    (vacant : ∀ name, system.files.find? (home ++ [name]) = none) :
    backend.Mirrors format home system Table.empty := by
  constructor
  · exact ready
  · intro id record found
    cases found
  · intro name file isFile
    rw [vacant name] at isFile
    cases isFile

end Runs

instance encodableChar : Encodable Char := .ofLeftInverse Char.toNat Char.ofNat Char.ofNat_toNat

instance encodableString : Encodable String :=
  .ofLeftInverse String.toList String.ofList fun _ => String.ofList_toList

deriving instance Encodable for KeyId
deriving instance Encodable for PolicyId
deriving instance Encodable for KeyType
deriving instance Encodable for KeyState
deriving instance Encodable for SecretKeyMaterial
deriving instance Encodable for WrapAlgorithm
deriving instance Encodable for WrappingMode
deriving instance Encodable for KeyVersion
deriving instance Encodable for KeyMetadata

/-- The record that a number encodes. -/
def recordOf (number : Nat) : Option KeyMetadata := Encodable.decode number

/-- The digits of a number that encodes the record, with the texts of the secret material
in it. -/
def numberFormat : KeyFormat where
  toStringPretty serialize record :=
    .ok (String.ofList (Nat.toDigits 10 (Encodable.encode
      (record.mapMaterial fun material => .plaintext (serialize material)))))
  fromStr deserialize text :=
    match recordOf (Nat.ofDigitChars 10 text.toList 0) with
    | none => .error "no record"
    | some record =>
        .ok (record.mapMaterial fun
          | .plaintext raw => deserialize raw
          | material => material)

theorem numberFormat_lawful : numberFormat.Lawful where
  roundTrip serialize deserialize record := by
    refine ⟨_, rfl, ?_⟩
    have read : ∀ number, Nat.ofDigitChars 10
        (String.ofList (Nat.toDigits 10 number)).toList 0 = number := by
      intro number
      rw [String.toList_ofList, Nat.ofDigitChars_ten_toDigits]
    simp only [numberFormat, read, recordOf, Encodable.encodek]
    simp [KeyMetadata.mapMaterial, Function.comp_def]

/-- A disk with one empty directory. -/
def emptyDisk : FileSystem where
  cwd := []
  dirs := [[], ["keys"]]
  files := .empty
  admits _ := true
  failure _ := Disk.notFound
  order names := names
  order_perm names := .refl names

theorem emptyDisk_ready : FileBackend.Ready ⟨"/keys"⟩ ["keys"] emptyDisk where
  leads := by decide
  isDir := by decide
  flat name := by simp [emptyDisk]
  takes _ := ⟨rfl, rfl⟩

/-- A dot and a separator before the name of a file lead to the same file. -/
theorem locate_dotted {name : String} (isName : IsName name) :
    emptyDisk.locate (join "/keys" ("./" ++ name)) = some (["keys"] ++ [name]) := by
  have joined : join "/keys" ("./" ++ name) = "/keys/./" ++ name := by
    have relative : isAbsolute ("./" ++ name) = false := by simp [isAbsolute]
    rw [join, relative, ← String.append_assoc]
    rfl
  have cut : pieces ("/keys/./" ++ name) = ["", "keys", "."] ++ [name] := by
    have before : ("/keys/./" ++ name).toList = "/keys/.".toList ++ '/' :: name.toList := by
      simp
    rw [pieces_append before isName.whole]
    rfl
  have leads : ["", "keys", "."].foldlM emptyDisk.enter [] = some ["keys"] := by decide
  have absolute : isAbsolute ("/keys/./" ++ name) = true := by simp [isAbsolute]
  have filled : "/keys/./" ++ name ≠ "" := by
    intro empty
    exact absurd (String.append_eq_empty_iff.mp empty).1 (by decide)
  rw [joined, FileSystem.locate, if_neg (by simp [filled, emptyDisk]), cut, absolute,
    List.foldlM_append, if_pos rfl, leads]
  have entered : emptyDisk.enter ["keys"] name = some (["keys"] ++ [name]) :=
    FileSystem.enter_name (by decide) isName
  simpa using entered

/-- A record of the keystore without a master key. -/
theorem exists_produced : ∃ record, Produced plainKeystore record := by
  obtain ⟨world, reachable, grove, -⟩ := exists_line plainKeystore_growable anyStep
    (.memory ⟨1, []⟩) .active .active .active .active (by decide) (fun _ _ _ _ _ _ _ => trivial)
  obtain ⟨record, version, found, -⟩ := grove.planted 3 _ rfl
  exact ⟨record, reachable.produced found⟩

/-- Over every run of calls from an empty directory the file backend answers as the one in
memory and touches nothing but its own files, exactly if no `get` and no `delete` of the run
has an identifier with a separator that leads to something. -/
theorem file_backend_refines_iff {format : KeyFormat} {backend : FileBackend}
    {home : Location} (ks : Keystore) (lawful : format.Lawful) {system : FileSystem}
    (ready : backend.Ready home system)
    (vacant : ∀ name, system.files.find? (home ++ [name]) = none) (calls : List StorageCall)
    (produced : ∀ record, .put record ∈ calls → Produced ks record) :
    backend.Refines format home calls system Table.empty ↔
      backend.AllConfined format calls system :=
  (ready.mirrors vacant).refines_iff lawful fun record member => (produced record member).storable

/-- A record is stored, read, listed and deleted again, after a look at what is not there. -/
theorem file_backend_keeps_record :
    ∃ record, Produced plainKeystore record ∧
      FileBackend.Refines numberFormat ⟨"/keys"⟩ ["keys"]
        [.get ⟨"a/b"⟩, .put record, .get record.id, .list, .delete record.id]
        emptyDisk Table.empty := by
  obtain ⟨record, produced⟩ := exists_produced
  have whole := produced.storable.plain.1
  refine ⟨record, produced, (file_backend_refines_iff plainKeystore numberFormat_lawful
    emptyDisk_ready (fun _ => rfl) _ ?_).mpr ?_⟩
  · intro other member
    have same : other = record := by simpa using member
    rw [same]
    exact produced
  · refine ⟨fun _ => by decide, trivial, fun slash => absurd slash whole, trivial,
      fun slash => absurd slash whole, trivial⟩

/-- After a record was stored, its identifier behind a dot and a separator finds it in the
files and not in memory. -/
theorem dotted_identifier_finds_record :
    ∃ record, Produced plainKeystore record ∧
      let dotted : KeyId := ⟨"./" ++ record.id.text⟩
      let stored := (FileBackend.answer numberFormat ⟨"/keys"⟩ (.put record) emptyDisk).2.system
      (FileBackend.answer numberFormat ⟨"/keys"⟩ (.get dotted) stored).1 =
          .ok (.found (some record)) ∧
        (InMemoryBackend.answer (.get dotted) (Table.empty.insert record)).1 = .ok (.found none) ∧
        ¬ FileBackend.Refines numberFormat ⟨"/keys"⟩ ["keys"] [.put record, .get dotted]
          emptyDisk Table.empty := by
  obtain ⟨record, produced⟩ := exists_produced
  have storable := produced.storable
  have mirrors : FileBackend.Mirrors numberFormat ⟨"/keys"⟩ ["keys"] emptyDisk Table.empty :=
    emptyDisk_ready.mirrors fun _ => rfl
  obtain ⟨-, later⟩ := mirrors.agrees_put numberFormat_lawful storable
  have found : (Table.empty.insert record : Keys).find? record.id = some record :=
    Table.find?_insert_self _ _
  have leads : (FileBackend.answer numberFormat ⟨"/keys"⟩ (.put record) emptyDisk).2.system.locate
      (FileBackend.keyPath ⟨"/keys"⟩ ⟨"./" ++ record.id.text⟩) =
      some (fileOf ["keys"] record.id "json") := by
    obtain ⟨text, writes, -⟩ := numberFormat_lawful.reads storable
    have spelled : "./" ++ record.id.text ++ "." ++ "json" =
        "./" ++ (record.id.text ++ "." ++ "json") := by simp only [String.append_assoc]
    rw [mirrors.play_put storable writes, keyPath_eq]
    change emptyDisk.locate (join "/keys" ("./" ++ record.id.text ++ "." ++ "json")) = _
    rw [spelled]
    exact locate_dotted (isName_dotted storable.plain.1 isExtension_json)
  have onDisk := later.get_of_leads found leads
  have absent : (Table.empty.insert record : Keys).find? ⟨"./" ++ record.id.text⟩ = none := by
    rw [Table.find?_insert_of_ne, Table.find?_empty]
    intro same
    have slash : '/' ∈ record.id.text.toList := by
      rw [← same]
      simp
    exact storable.plain.1 slash
  have inMemory : (InMemoryBackend.answer (.get ⟨"./" ++ record.id.text⟩)
      (Table.empty.insert record)).1 = .ok (.found none) := by
    rw [← absent]
    rfl
  refine ⟨record, produced, by rw [onDisk], inMemory, ?_⟩
  rintro ⟨-, agrees, -⟩
  have result := agrees.result
  rw [onDisk] at result
  have differs : SameResult (.ok (.found (some record))) (.ok (.found none)) := inMemory ▸ result
  cases differs

end Citadel
