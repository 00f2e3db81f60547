import Citadel.Keystore.DestroyFaults

/-!
# When a failed destruction changes nothing

The store stays listable through puts that fail anywhere and through destructions that fail
before the live file is opened for writing. Only temporary files are left behind, which a listing
passes over.
-/

namespace Citadel

open Envelope Paths Method Program FileBackend

/-- No text of zero bytes is a record. -/
structure KeyFormat.Strict (format : KeyFormat) : Prop where
  zeros : ∀ deserialize count, ∃ error,
    format.fromStr deserialize (String.ofList (List.replicate count '\x00')) = .error error

/-- The directory holds the records of the map, each in its own file, and beside them no more
than temporary files. -/
structure KeepsKeys (format : KeyFormat) (backend : FileBackend) (home : Location)
    (system : FileSystem) (keys : Keys) : Prop where
  ready : backend.Ready home system
  stored : ∀ id record, keys.find? id = some record → record.Storable ∧ ∃ text,
    liveContent home id system = some (utf8 text) ∧ format.fromStr .deserialize text = .ok record
  only : ∀ name file, system.files.find? (home ++ [name]) = some file →
    (∃ id record, keys.find? id = some record ∧ name = id.text ++ "." ++ "json") ∨
      ∃ random, name = (KeyId.generate random).text ++ "." ++ "tmp"

/-- If the path of an identifier leads to anything, then to the file of a key. -/
def Stays (backend : FileBackend) (home : Location) (system : FileSystem) (id : KeyId) : Prop :=
  ∀ location, system.found (backend.keyPath id) = some location →
    ∃ own, location = fileOf home own "json"

/-- A plain identifier stays in the directory. -/
theorem Stays.of_plain {backend : FileBackend} {home : Location} {system : FileSystem} {id : KeyId}
    (ready : backend.Ready home system) (whole : '/' ∉ id.text.toList) :
    Stays backend home system id := by
  intro location leads
  exact ⟨id, ready.locate_plain whole (FileSystem.found_eq_some.mp leads).1⟩

namespace KeepsKeys

variable {format : KeyFormat} {backend : FileBackend} {home : Location}
  {system later : FileSystem} {keys : Keys} {id : KeyId} {record : KeyMetadata}
  {text : String} {content : Option Bytes}

/-- An empty directory keeps no keys. -/
theorem empty (ready : backend.Ready home system)
    (vacant : ∀ name, system.files.find? (home ++ [name]) = none) :
    KeepsKeys format backend home system Table.empty := by
  constructor
  · exact ready
  · intro id record found
    cases found
  · intro name file isFile
    rw [vacant name] at isFile
    cases isFile

/-- The live files of other keys are left alone. -/
theorem liveContent_of_ne (leaves : Leaves home record.id content system later)
    (different : id ≠ record.id) : liveContent home id later = liveContent home id system := by
  rw [liveContent, liveContent, leaves.others _ (different ∘ fileOf_inj.mp) fileOf_json_ne_tmp]

/-- Nothing but the temporary file of a key has changed. -/
theorem of_same (keeps : KeepsKeys format backend home system keys) (storable : record.Storable)
    (leaves : Leaves home record.id (liveContent home record.id system) system later) :
    KeepsKeys format backend home later keys := by
  constructor
  · exact leaves.ready keeps.ready
  · intro id other found
    obtain ⟨isStorable, text, holds, parses⟩ := keeps.stored id other found
    refine ⟨isStorable, text, ?_, parses⟩
    by_cases same : id = record.id
    · rw [same, leaves.live, ← same]
      exact holds
    · rw [liveContent_of_ne leaves same]
      exact holds
  · intro name file isFile
    by_cases isTmp : home ++ [name] = fileOf home record.id "tmp"
    · obtain ⟨random, generated⟩ := storable.generated
      obtain rfl := List.singleton_inj.mp (List.append_cancel_left isTmp)
      exact Or.inr ⟨random, by rw [generated]⟩
    · by_cases isLive : home ++ [name] = fileOf home record.id "json"
      · have live : liveContent home record.id system = some file.content := by
          rw [← leaves.live, liveContent, ← isLive, isFile]
          rfl
        exact keeps.only name _ (isLive ▸ find?_of_liveContent live)
      · rw [leaves.others _ isLive isTmp] at isFile
        exact keeps.only name file isFile

/-- A record was stored. -/
theorem of_stored (keeps : KeepsKeys format backend home system keys) (storable : record.Storable)
    (leaves : Leaves home record.id (some (utf8 text)) system later)
    (parses : format.fromStr .deserialize text = .ok record) :
    KeepsKeys format backend home later (keys.insert record) := by
  constructor
  · exact leaves.ready keeps.ready
  · intro id other found
    rw [Table.find?_insert] at found
    split at found
    · rename_i same
      obtain rfl := Option.some.inj found
      exact ⟨storable, text, same ▸ leaves.live, parses⟩
    · rename_i different
      obtain ⟨isStorable, text, holds, reads⟩ := keeps.stored id other found
      refine ⟨isStorable, text, ?_, reads⟩
      rw [liveContent_of_ne leaves different]
      exact holds
  · intro name file isFile
    by_cases isTmp : home ++ [name] = fileOf home record.id "tmp"
    · obtain ⟨random, generated⟩ := storable.generated
      obtain rfl := List.singleton_inj.mp (List.append_cancel_left isTmp)
      exact Or.inr ⟨random, by rw [generated]⟩
    · by_cases isLive : home ++ [name] = fileOf home record.id "json"
      · obtain rfl := List.singleton_inj.mp (List.append_cancel_left isLive)
        exact Or.inl ⟨record.id, record, Table.find?_insert_self _ _, rfl⟩
      · rw [leaves.others _ isLive isTmp] at isFile
        rcases keeps.only name file isFile with ⟨id, other, found, named⟩ | tmp
        · refine Or.inl ⟨id, other, ?_, named⟩
          rw [Table.find?_insert_of_ne]
          · exact found
          · rintro rfl
            exact isLive (named ▸ rfl)
        · exact Or.inr tmp

/-- An identifier that leads to something leads to a stored key. -/
theorem exists_key (keeps : KeepsKeys format backend home system keys)
    (stays : Stays backend home system id) {location : Location}
    (leads : system.found (backend.keyPath id) = some location) :
    ∃ record, keys.find? record.id = some record ∧
      system.locate (backend.keyPath id) = some (fileOf home record.id "json") := by
  obtain ⟨own, rfl⟩ := stays location leads
  obtain ⟨located, occupied⟩ := FileSystem.found_eq_some.mp leads
  rw [FileSystem.occupied, Bool.or_eq_true, decide_eq_true_iff] at occupied
  obtain ⟨file, isFile⟩ :=
    Option.isSome_iff_exists.mp (occupied.resolve_left (keeps.ready.flat _))
  rcases keeps.only _ file isFile with ⟨other, record, found, named⟩ | ⟨random, named⟩
  · have same : fileOf home own "json" = fileOf home other "json" := by rw [fileOf, named, fileOf]
    obtain rfl := Table.key_of_find? found
    exact ⟨record, found, same ▸ located⟩
  · have same : fileOf home own "json" = fileOf home (.generate random) "tmp" := by
      rw [fileOf, named, fileOf]
    exact absurd same fileOf_json_ne_tmp

/-- A key is read from its file, whatever path leads there. -/
theorem reads (keeps : KeepsKeys format backend home system keys)
    (found : keys.find? id = some record) {path : String}
    (leads : system.locate path = some (fileOf home id "json")) (touched : List Location) :
    (readKeyFile format path).play ⟨system, touched⟩ =
      (.ok record, ⟨system, touched ++ [fileOf home id "json"]⟩) := by
  obtain ⟨-, text, holds, parses⟩ := keeps.stored id record found
  exact play_readKeyFile leads (keeps.ready.flat _) (find?_of_liveContent holds) parses

/-- The entries of the directory are read; temporary files are passed over. -/
theorem lists_entries (keeps : KeepsKeys format backend home system keys) {names : List String}
    (listed : ∀ name ∈ names,
      (∃ id record, keys.find? id = some record ∧ name = id.text ++ "." ++ "json") ∨
        ∃ random, name = (KeyId.generate random).text ++ "." ++ "tmp") (touched : List Location) :
    ∃ records after, (readEntries format (names.map (join backend.dir))).play ⟨system, touched⟩ =
      (.ok records, after) := by
  induction names generalizing touched with
  | nil => exact ⟨[], _, rfl⟩
  | cons name rest ih =>
      have later := fun touched => ih (fun name member => listed name
        (List.mem_cons_of_mem _ member)) touched
      rw [List.map_cons, readEntries]
      rcases listed name List.mem_cons_self with ⟨id, record, found, rfl⟩ | ⟨random, rfl⟩
      · obtain rfl := Table.key_of_find? found
        have storable := (keeps.stored _ record found).1
        have leads := (keeps.ready.locate_storable storable).1
        rw [keyPath_eq] at leads
        rw [if_pos (extension_join _ storable.plain.1 storable.plain.2 isExtension_json),
          play_bind_of_ok (keeps.reads found leads touched)]
        obtain ⟨records, after, played⟩ := later (touched ++ [fileOf home record.id "json"])
        rw [play_bind_of_ok played]
        exact ⟨_, _, rfl⟩
      · have passed : extension (join backend.dir ((KeyId.generate random).text ++ "." ++ "tmp")) ≠
            some "json" := by
          rw [extension_join _ (KeyId.slash_not_mem_generate random)
            (KeyId.generate_ne_empty random) isExtension_tmp]
          decide
        rw [if_neg passed]
        exact later touched

/-- The whole directory is listed. -/
theorem lists (keeps : KeepsKeys format backend home system keys) :
    ∃ records, (backend.answer format .list system).1 = .ok (.records records) := by
  have occupied : ∀ name ∈ system.order (system.namesIn home),
      (∃ id record, keys.find? id = some record ∧ name = id.text ++ "." ++ "json") ∨
        ∃ random, name = (KeyId.generate random).text ++ "." ++ "tmp" := by
    intro name member
    rw [(system.order_perm _).mem_iff, FileSystem.mem_namesIn, FileSystem.occupied,
      Bool.or_eq_true, decide_eq_true_iff] at member
    obtain ⟨file, isFile⟩ :=
      Option.isSome_iff_exists.mp (member.resolve_left (keeps.ready.flat name))
    exact keeps.only name file isFile
  obtain ⟨records, after, played⟩ := keeps.lists_entries occupied [home]
  have opened : (Disk.readDir backend.dir).play ⟨system, []⟩ =
      (.ok ((system.order (system.namesIn home)).map (join backend.dir)), ⟨system, [home]⟩) :=
    Disk.play_readDir keeps.ready.leads keeps.ready.isDir
  have listed : (backend.list format).play ⟨system, []⟩ = (.ok records, after) := by
    unfold FileBackend.list
    rw [play_bind_of_ok (play_mapErr_of_ok opened)]
    exact played
  refine ⟨records, ?_⟩
  unfold FileBackend.answer FileBackend.perform
  rw [play_bind_of_ok listed]
  rfl

end KeepsKeys

/-! ### Reading one key -/

section Answers

variable {format : KeyFormat} {backend : FileBackend} {home : Location} {system : FileSystem}
  {id own : KeyId} {text : String} {count : Nat}

/-- What is read of a live file. -/
theorem answer_get (ready : backend.Ready home system)
    (leads : system.locate (backend.keyPath id) = some (fileOf home own "json"))
    (holds : liveContent home own system = some (utf8 text)) :
    (backend.answer format (.get id) system).1 =
      match format.fromStr .deserialize text with
      | .ok record => .ok (.found (some record))
      | .error error => .error (.storageError s!"parse: {error}") := by
  have live := find?_of_liveContent holds
  have found : system.found (backend.keyPath id) = some (fileOf home own "json") := by
    rw [FileSystem.found_eq_some]
    exact ⟨leads, by simp [FileSystem.occupied, live]⟩
  have tested : (Disk.pathExists (backend.keyPath id) : Method Disk KeystoreError Bool).play
      ⟨system, []⟩ = (.ok true, (⟨system, []⟩ : Disk).touching (fileOf home own "json")) :=
    Disk.play_pathExists_of_found found
  have read : (Disk.readToString (backend.keyPath id)).play
      ((⟨system, []⟩ : Disk).touching (fileOf home own "json")) = (.ok text, _) :=
    Disk.play_readToString leads (ready.flat _) live (decodeUtf8_utf8 text)
  unfold FileBackend.answer FileBackend.perform FileBackend.get
  rw [play_bind, play_bind_of_ok tested, if_neg (by decide), readKeyFile, play_bind,
    play_bind_of_ok (play_mapErr_of_ok read)]
  cases format.fromStr .deserialize text with
  | ok record => rfl
  | error error => rfl

theorem utf8_zeros (count : Nat) :
    utf8 (String.ofList (List.replicate count '\x00')) = List.replicate count 0 := by
  induction count with
  | zero => rfl
  | succ count ih =>
      have first : String.ofList (List.replicate (count + 1) '\x00') =
          String.singleton '\x00' ++ String.ofList (List.replicate count '\x00') := by
        rw [List.replicate_succ, ← List.singleton_append, String.ofList_append]
        rfl
      rw [first, utf8_append, ih]
      rfl

/-- A live file of zeros is not read. -/
theorem answer_get_of_zeros (strict : format.Strict) (ready : backend.Ready home system)
    (leads : system.locate (backend.keyPath id) = some (fileOf home own "json"))
    (holds : liveContent home own system = some (List.replicate count 0)) :
    ∃ error, (backend.answer format (.get id) system).1 = .error error := by
  rw [← utf8_zeros] at holds
  obtain ⟨error, fails⟩ := strict.zeros .deserialize count
  rw [answer_get ready leads holds, fails]
  exact ⟨_, rfl⟩

end Answers

/-! ### Runs -/

/-- The disks that the keystore leaves when it starts with an empty directory and no destruction
fails once the live file has been opened. Everything else may fail at any time. -/
inductive FileReached (ks : Keystore) (format : KeyFormat) (backend : FileBackend)
    (home : Location) : FileSystem → Prop where
  | empty {system : FileSystem} (ready : backend.Ready home system)
      (vacant : ∀ name, system.files.find? (home ++ [name]) = none) :
      FileReached ks format backend home system
  | put {system : FileSystem} (prior : FileReached ks format backend home system)
      (record : KeyMetadata) (produced : Produced ks record) (faults : Faults) :
      FileReached ks format backend home
        ((FaultyBackend.put faults format backend record).play ⟨system, []⟩).2.system
  | destroy {system : FileSystem} (prior : FileReached ks format backend home system) (id : KeyId)
      (stays : Stays backend home system id) (faults : Faults) (env : Env) (now : Nat)
      (replay : ReplayStore)
      (spares : ∀ record, (backend.answer format (.get id) system).1 = .ok (.found (some record)) →
        record.state.canTransitionTo .destroyed = true → faults.Spares) :
      FileReached ks format backend home
        ((Keystore.destroy id).run (fileHandle faults format backend env)
          ⟨system, now, replay⟩).2.system

section Runs

variable {ks : Keystore} {format : KeyFormat} {backend : FileBackend} {home : Location}
  {system : FileSystem} {keys : Keys} {id : KeyId} {record : KeyMetadata} {world : FileWorld}

/-- A destruction of a key that is not there changes nothing. -/
theorem destroy_of_vacant (faults : Faults) (env : Env)
    (vacant : world.system.found (backend.keyPath id) = none) :
    ∃ error, (Keystore.destroy id).run (fileHandle faults format backend env) world =
      (.err error, world) := by
  have tested : (Disk.testExists (faults .getExists) (backend.keyPath id) :
      Method Disk KeystoreError Bool).play ⟨world.system, []⟩ = (.ok false, ⟨world.system, []⟩) := by
    cases faults .getExists with
    | some fault => rfl
    | none => exact Disk.play_pathExists_of_vacant vacant
  have answered : fileHandle faults format backend env (.get id) world = (.ok none, world) := by
    rw [fileHandle, FileWorld.play, FaultyBackend.get, play_bind_of_ok tested]
    rfl
  rw [Keystore.destroy, run_mapErr, run_bind, Keystore.get, storageGet, call_bind, run_perform,
    answered]
  exact ⟨_, rfl⟩

/-- A destruction that the state of the key does not permit changes nothing. -/
theorem destroy_of_not_permitted (faults : Faults) (env : Env)
    (keeps : KeepsKeys format backend home world.system keys)
    (found : keys.find? record.id = some record)
    (leads : world.system.locate (backend.keyPath id) = some (fileOf home record.id "json"))
    (edge : record.state.canTransitionTo .destroyed = false) :
    ∃ error, (Keystore.destroy id).run (fileHandle faults format backend env) world =
      (.err error, world) := by
  obtain ⟨-, text, holds, parses⟩ := keeps.stored _ record found
  have ready := keeps.ready
  have seen : (⟨world.system, []⟩ : Disk).system = world.system := rfl
  rw [← seen] at ready leads holds
  obtain ⟨got, after, played, same, reads, unread⟩ := play_get faults ready leads holds parses
  have unchanged : ({ world with system := after.system } : FileWorld) = world := by rw [same]
  have answered : fileHandle faults format backend env (.get id) world = (got, world) := by
    rw [fileHandle, FileWorld.play, played, unchanged]
  rw [Keystore.destroy, run_mapErr, run_bind, Keystore.get, storageGet, call_bind, run_perform,
    answered]
  by_cases isRead : faults.Reads
  · have refused : ∀ (continuation : KeyMetadata → Prog KeystoreError Unit),
        andThen (fileHandle faults format backend env) continuation
          ((Program.ofExcept (fun error : KeystoreError => error)
            (Except.ok (some record) : Except KeystoreError (Option KeyMetadata)) >>=
              ofOption (.keyNotFound id)).run (fileHandle faults format backend env) world) =
          (continuation record).run (fileHandle faults format backend env) world := fun _ => rfl
    rw [reads isRead]
    refine ⟨.lifecycle (.invalidTransition id record.state .destroyed), ?_⟩
    rw [refused, if_pos edge]
    rfl
  · rcases unread isRead with absent | ⟨error, failed⟩
    · rw [absent]
      exact ⟨_, rfl⟩
    · rw [failed]
      exact ⟨_, rfl⟩

/-- What is read is a stored record. -/
theorem KeepsKeys.of_readable (keeps : KeepsKeys format backend home system keys)
    (stays : Stays backend home system id)
    (readable : (backend.answer format (.get id) system).1 = .ok (.found (some record))) :
    keys.find? record.id = some record ∧
      system.locate (backend.keyPath id) = some (fileOf home record.id "json") := by
  cases leads : system.found (backend.keyPath id) with
  | none =>
      rw [play_get_of_vacant leads] at readable
      cases readable
  | some location =>
      obtain ⟨other, found, located⟩ := keeps.exists_key stays leads
      obtain ⟨-, text, holds, parses⟩ := keeps.stored _ other found
      rw [answer_get keeps.ready located holds, parses] at readable
      cases readable
      exact ⟨found, located⟩

/-- A stored record is read. -/
theorem KeepsKeys.readable (keeps : KeepsKeys format backend home system keys)
    (found : keys.find? record.id = some record)
    (located : system.locate (backend.keyPath id) = some (fileOf home record.id "json")) :
    (backend.answer format (.get id) system).1 = .ok (.found (some record)) := by
  obtain ⟨-, text, holds, parses⟩ := keeps.stored _ record found
  rw [answer_get keeps.ready located holds, parses]

/-- The destroyed record of a storable one. -/
theorem KeyMetadata.Storable.destroyed (storable : record.Storable) (destroyed updated : Nat) :
    (Keystore.destroyedRecord record destroyed updated).Storable := by
  refine ⟨storable.generated, ?_⟩
  intro version member
  obtain ⟨old, -, rfl⟩ := List.mem_map.mp member
  trivial

/-- What a permitted destruction of a stored key does. -/
theorem KeepsKeys.destroy_ends (keeps : KeepsKeys format backend home world.system keys)
    (lawful : format.Lawful) (strict : format.Strict) (faults : Faults) (env : Env)
    (found : keys.find? record.id = some record)
    (leads : world.system.locate (backend.keyPath id) = some (fileOf home record.id "json"))
    (edge : record.state.canTransitionTo .destroyed = true) :
    ∃ text newText result written later,
      liveContent home record.id world.system = some (utf8 text) ∧
      format.fromStr .deserialize newText =
        .ok (Keystore.destroyedRecord record world.now world.now) ∧
      (Keystore.destroy id).run (fileHandle faults format backend env) world =
        (result, { world with system := later }) ∧
      Leaves home record.id (some written) world.system later ∧
      DestroyEnded faults (utf8 text) (utf8 newText) result written := by
  obtain ⟨storable, text, holds, parses⟩ := keeps.stored _ record found
  obtain ⟨newText, writes, reads⟩ := lawful.reads (storable.destroyed world.now world.now)
  have filled : utf8 text ≠ [] := by
    intro empty
    obtain ⟨error, fails⟩ := strict.zeros .deserialize 0
    have same : text = String.ofList (List.replicate 0 '\x00') := by
      apply utf8_injective
      rw [empty, utf8_zeros]
      rfl
    rw [← same, parses] at fails
    cases fails
  obtain ⟨result, written, later, ran, leaves, ends⟩ := Citadel.destroy_ends faults env keeps.ready
    leads holds filled parses edge (storable.destroyed _ _) writes
  exact ⟨text, newText, result, written, later, holds, reads, ran, leaves, ends⟩

/-- The reached disks keep their keys. -/
theorem FileReached.exists_keeps (lawful : format.Lawful) (strict : format.Strict)
    (reached : FileReached ks format backend home system) :
    ∃ keys, KeepsKeys format backend home system keys := by
  induction reached with
  | empty ready vacant => exact ⟨_, .empty ready vacant⟩
  | @put system prior record produced faults ih =>
      obtain ⟨keys, keeps⟩ := ih
      have storable := produced.storable
      obtain ⟨text, writes, parses⟩ := lawful.reads storable
      have ready : backend.Ready home (⟨system, []⟩ : Disk).system := keeps.ready
      obtain ⟨result, written, after, played, stored, leaves⟩ :=
        play_put faults ready storable writes
      rw [played]
      cases stored with
      | refused refused => exact ⟨keys, keeps.of_same storable leaves⟩
      | unsynced renames unsynced => exact ⟨_, keeps.of_stored storable leaves parses⟩
      | stored renames syncs => exact ⟨_, keeps.of_stored storable leaves parses⟩
  | @destroy system prior id stays faults env now replay spares ih =>
      obtain ⟨keys, keeps⟩ := ih
      have keeps : KeepsKeys format backend home (⟨system, now, replay⟩ : FileWorld).system keys := keeps
      cases leads : system.found (backend.keyPath id) with
      | none =>
          obtain ⟨error, ran⟩ : ∃ error, (Keystore.destroy id).run
              (fileHandle faults format backend env) ⟨system, now, replay⟩ =
                (.err error, ⟨system, now, replay⟩) := destroy_of_vacant faults env leads
          rw [ran]
          exact ⟨keys, keeps⟩
      | some location =>
          obtain ⟨record, found, located⟩ := keeps.exists_key stays leads
          cases edge : record.state.canTransitionTo .destroyed with
          | false =>
              obtain ⟨error, ran⟩ := destroy_of_not_permitted faults env keeps found located edge
              rw [ran]
              exact ⟨keys, keeps⟩
          | true =>
              obtain ⟨text, newText, result, written, later, holds, parses, ran, leaves, ends⟩ :=
                keeps.destroy_ends lawful strict faults env found located edge
              have storable := (keeps.stored _ record found).1
              rw [ran]
              cases ends with
              | destroyed spared =>
                  exact ⟨_, keeps.of_stored (storable.destroyed _ _) leaves parses⟩
              | kept spared => exact ⟨keys, keeps.of_same storable (holds ▸ leaves)⟩
              | zeroed count harms =>
                  exact absurd (spares record (keeps.readable found located) edge) harms
              | replaced harms unsynced =>
                  exact absurd (spares record (keeps.readable found located) edge) harms

/-- One live file of zeros makes the listing fail. -/
theorem KeepsKeys.entries_fail (keeps : KeepsKeys format backend home system keys)
    (strict : format.Strict)
    {later : FileSystem} {count : Nat}
    (leaves : Leaves home record.id (some (List.replicate count 0)) system later)
    {names : List String} (listed : ∀ name ∈ names,
      (∃ id record, keys.find? id = some record ∧ name = id.text ++ "." ++ "json") ∨
        ∃ random, name = (KeyId.generate random).text ++ "." ++ "tmp")
    (member : record.id.text ++ "." ++ "json" ∈ names) (touched : List Location) :
    ∃ error after, (readEntries format (names.map (join backend.dir))).play ⟨later, touched⟩ =
      (.error error, after) := by
  have ready := leaves.ready keeps.ready
  induction names generalizing touched with
  | nil => cases member
  | cons name rest ih =>
      have further : record.id.text ++ "." ++ "json" ∈ rest → ∀ touched, ∃ error after,
          (readEntries format (rest.map (join backend.dir))).play ⟨later, touched⟩ =
            (.error error, after) :=
        fun inRest => ih (fun name member => listed name (List.mem_cons_of_mem _ member)) inRest
      rw [List.map_cons, readEntries]
      rcases listed name List.mem_cons_self with ⟨id, other, stored, rfl⟩ | ⟨random, rfl⟩
      · obtain rfl := Table.key_of_find? stored
        obtain ⟨storable, text, holds, parses⟩ := keeps.stored _ other stored
        have leads := (ready.locate_storable storable).1
        rw [keyPath_eq] at leads
        rw [if_pos (extension_join _ storable.plain.1 storable.plain.2 isExtension_json)]
        by_cases own : other.id = record.id
        · rw [own] at leads ⊢
          have live := leaves.live
          rw [← utf8_zeros] at live
          obtain ⟨error, fails⟩ := strict.zeros .deserialize count
          have read : (Disk.readToString (join backend.dir (record.id.text ++ "." ++ "json"))).play
              ⟨later, touched⟩ = (.ok _, _) :=
            Disk.play_readToString leads (ready.flat _) (find?_of_liveContent live)
              (decodeUtf8_utf8 _)
          have failed : (readKeyFile format (join backend.dir (record.id.text ++ "." ++ "json"))).play
              ⟨later, touched⟩ = (.error (.storageError s!"parse: {error}"),
                (⟨later, touched⟩ : Disk).touching (fileOf home record.id "json")) := by
            unfold readKeyFile
            rw [play_bind_of_ok (play_mapErr_of_ok read), fails]
            rfl
          rw [play_bind, failed]
          exact ⟨_, _, rfl⟩
        · rw [← KeepsKeys.liveContent_of_ne leaves own] at holds
          have read : (readKeyFile format (join backend.dir (other.id.text ++ "." ++ "json"))).play
              ⟨later, touched⟩ = (.ok other, ⟨later, touched ++ [fileOf home other.id "json"]⟩) :=
            play_readKeyFile leads (ready.flat _) (find?_of_liveContent holds) parses
          have inRest : record.id.text ++ "." ++ "json" ∈ rest := by
            rcases List.mem_cons.mp member with same | inRest
            · have files : fileOf home other.id "json" = fileOf home record.id "json" := by
                rw [fileOf, ← same, fileOf]
              exact absurd (fileOf_inj.mp files) own
            · exact inRest
          obtain ⟨error, after, failed⟩ := further inRest (touched ++ [fileOf home other.id "json"])
          rw [play_bind_of_ok read, play_bind, failed]
          exact ⟨_, _, rfl⟩
      · have tmp : extension (join backend.dir ((KeyId.generate random).text ++ "." ++ "tmp")) =
            some "tmp" :=
          extension_join _ (KeyId.slash_not_mem_generate random)
            (KeyId.generate_ne_empty random) isExtension_tmp
        have inRest : record.id.text ++ "." ++ "json" ∈ rest := by
          rcases List.mem_cons.mp member with same | inRest
          · have files : fileOf home record.id "json" = fileOf home (.generate random) "tmp" := by
              rw [fileOf, same, fileOf]
            exact absurd files fileOf_json_ne_tmp
          · exact inRest
        rw [if_neg (by rw [tmp]; decide)]
        exact further inRest touched

/-- What may be in the directory after a call on a stored key. -/
theorem KeepsKeys.only_of_leaves (keeps : KeepsKeys format backend home system keys)
    {later : FileSystem} {content : Option Bytes} (found : keys.find? record.id = some record)
    (leaves : Leaves home record.id content system later) (name : String) (file : File)
    (isFile : later.files.find? (home ++ [name]) = some file) :
    (∃ id record, keys.find? id = some record ∧ name = id.text ++ "." ++ "json") ∨
      ∃ random, name = (KeyId.generate random).text ++ "." ++ "tmp" := by
  by_cases isTmp : home ++ [name] = fileOf home record.id "tmp"
  · obtain ⟨random, generated⟩ := (keeps.stored _ record found).1.generated
    obtain rfl := List.singleton_inj.mp (List.append_cancel_left isTmp)
    exact Or.inr ⟨random, by rw [generated]⟩
  · by_cases isLive : home ++ [name] = fileOf home record.id "json"
    · obtain rfl := List.singleton_inj.mp (List.append_cancel_left isLive)
      exact Or.inl ⟨record.id, record, found, rfl⟩
    · rw [leaves.others _ isLive isTmp] at isFile
      exact keeps.only name file isFile

/-- A live file of zeros takes the whole listing down. -/
theorem KeepsKeys.list_fails (keeps : KeepsKeys format backend home system keys)
    (strict : format.Strict)
    {later : FileSystem} {count : Nat} (found : keys.find? record.id = some record)
    (leaves : Leaves home record.id (some (List.replicate count 0)) system later) :
    ∃ error, (backend.answer format .list later).1 = .error error := by
  have ready := leaves.ready keeps.ready
  have occupied : ∀ name, name ∈ later.order (later.namesIn home) ↔
      later.occupied (home ++ [name]) = true := fun name => by
    rw [(later.order_perm _).mem_iff, FileSystem.mem_namesIn]
  have listed : ∀ name ∈ later.order (later.namesIn home),
      (∃ id record, keys.find? id = some record ∧ name = id.text ++ "." ++ "json") ∨
        ∃ random, name = (KeyId.generate random).text ++ "." ++ "tmp" := by
    intro name member
    rw [occupied, FileSystem.occupied, Bool.or_eq_true, decide_eq_true_iff] at member
    obtain ⟨file, isFile⟩ := Option.isSome_iff_exists.mp (member.resolve_left (ready.flat name))
    exact keeps.only_of_leaves found leaves name file isFile
  have member : record.id.text ++ "." ++ "json" ∈ later.order (later.namesIn home) := by
    have live := find?_of_liveContent leaves.live
    rw [fileOf] at live
    rw [occupied, FileSystem.occupied, live, Option.isSome_some, Bool.or_true]
  obtain ⟨error, after, failed⟩ := keeps.entries_fail strict leaves listed member [home]
  have opened : (Disk.readDir backend.dir).play ⟨later, []⟩ =
      (.ok ((later.order (later.namesIn home)).map (join backend.dir)), ⟨later, [home]⟩) :=
    Disk.play_readDir ready.leads ready.isDir
  have fails : (backend.list format).play ⟨later, []⟩ = (.error error, after) := by
    unfold FileBackend.list
    rw [play_bind_of_ok (play_mapErr_of_ok opened)]
    exact failed
  refine ⟨error, ?_⟩
  unfold FileBackend.answer FileBackend.perform
  rw [play_bind, fails]

/-- A destruction that fails leaves the record as it was and the store listable, exactly if
nothing fails once the live file has been opened for overwriting nor, when the overwriting was
skipped, once the new record has been renamed over it. -/
theorem destroy_atomic_iff (ks : Keystore) (lawful : format.Lawful) (strict : format.Strict)
    (reached : FileReached ks format backend home system) (stays : Stays backend home system id)
    (readable : (backend.answer format (.get id) system).1 = .ok (.found (some record)))
    (faults : Faults) (env : Env) (now : Nat) (replay : ReplayStore) :
    let ended := (Keystore.destroy id).run (fileHandle faults format backend env)
      ⟨system, now, replay⟩
    ((∃ error, ended.1 = .err error) →
        (backend.answer format (.get id) ended.2.system).1 = .ok (.found (some record)) ∧
          ∃ records, (backend.answer format .list ended.2.system).1 = .ok (.records records)) ↔
      (record.state.canTransitionTo .destroyed = true → faults.Spares) := by
  intro ended
  obtain ⟨keys, keeps⟩ := reached.exists_keeps lawful strict
  obtain ⟨found, located⟩ := keeps.of_readable stays readable
  have keeps : KeepsKeys format backend home (⟨system, now, replay⟩ : FileWorld).system keys := keeps
  cases edge : record.state.canTransitionTo .destroyed with
  | false =>
      obtain ⟨error, ran⟩ := destroy_of_not_permitted faults env keeps found located edge
      have after : ended = (.err error, ⟨system, now, replay⟩) := ran
      rw [after]
      exact iff_of_true (fun _ => ⟨readable, keeps.lists⟩) (fun impossible => nomatch impossible)
  | true =>
      obtain ⟨text, newText, result, written, later, holds, parses, ran, leaves, ends⟩ :=
        keeps.destroy_ends lawful strict faults env found located edge
      have storable := (keeps.stored _ record found).1
      have after : ended = (result, ⟨later, now, replay⟩) := ran
      have located : later.locate (backend.keyPath id) = some (fileOf home record.id "json") := by
        rw [leaves.locate]
        exact located
      rw [after]
      cases ends with
      | destroyed spared =>
          refine iff_of_true ?_ fun _ => spared
          rintro ⟨error, failed⟩
          cases failed
      | kept spared =>
          have kept := keeps.of_same storable (holds ▸ leaves)
          exact iff_of_true (fun _ => ⟨kept.readable found located, kept.lists⟩) fun _ => spared
      | zeroed count harms =>
          refine iff_of_false ?_ fun spares => harms (spares rfl)
          intro intact
          obtain ⟨still, -⟩ := intact ⟨_, rfl⟩
          obtain ⟨error, fails⟩ :=
            answer_get_of_zeros strict (leaves.ready keeps.ready) located leaves.live
          rw [fails] at still
          cases still
      | replaced harms unsynced =>
          refine iff_of_false ?_ fun spares => harms (spares rfl)
          intro intact
          obtain ⟨still, -⟩ := intact ⟨_, rfl⟩
          rw [answer_get (leaves.ready keeps.ready) located leaves.live, parses] at still
          have same : record.state = .destroyed := by
            have records := StorageAnswer.found.inj (Except.ok.inj still)
            rw [← Option.some.inj records]
            rfl
          rw [same] at edge
          cases edge

end Runs

/-! ### A store with one key -/

/-- The number format behind an opening brace. -/
def bracedFormat : KeyFormat where
  toStringPretty serialize record :=
    (numberFormat.toStringPretty serialize record).map fun text => String.ofList ('\x7b' :: text.toList)
  fromStr deserialize text :=
    match text.toList with
    | '\x7b' :: rest => numberFormat.fromStr deserialize (String.ofList rest)
    | _ => .error "expected value"

theorem bracedFormat_lawful : bracedFormat.Lawful where
  roundTrip serialize deserialize record := by
    obtain ⟨text, writes, reads⟩ := numberFormat_lawful.roundTrip serialize deserialize record
    refine ⟨String.ofList ('\x7b' :: text.toList), ?_, ?_⟩
    · simp only [bracedFormat, writes, Except.map]
    · simp only [bracedFormat, String.toList_ofList, String.ofList_toList, reads]

theorem bracedFormat_strict : bracedFormat.Strict where
  zeros deserialize count := by
    refine ⟨"expected value", ?_⟩
    unfold bracedFormat
    cases count with
    | zero => rfl
    | succ count => simp [List.replicate_succ]

/-- Nothing fails. -/
def noFaults : Faults := fun _ => none

/-- One operation fails. -/
def failsAt (failing : FileOp) : Faults := fun op =>
  if op = failing then some ⟨0, "No space left on device (os error 28)"⟩ else none

/-- A record that may be destroyed, stored in the empty directory. -/
theorem exists_stored : ∃ record system,
    FileReached plainKeystore bracedFormat ⟨"/keys"⟩ ["keys"] system ∧
    record.state.canTransitionTo .destroyed = true ∧
    Stays ⟨"/keys"⟩ ["keys"] system record.id ∧
    (FileBackend.answer bracedFormat ⟨"/keys"⟩ (.get record.id) system).1 =
      .ok (.found (some record)) := by
  obtain ⟨world, reachable, grove, -⟩ := exists_line plainKeystore_growable anyStep
    (.memory ⟨1, []⟩) .active .active .active .pending (by decide) (fun _ _ _ _ _ _ _ => trivial)
  obtain ⟨record, version, stored, planted⟩ := grove.planted 3 _ rfl
  have produced := reachable.produced stored
  have storable := produced.storable
  obtain ⟨text, writes, parses⟩ := bracedFormat_lawful.reads storable
  have start : FileReached plainKeystore bracedFormat ⟨"/keys"⟩ ["keys"] emptyDisk :=
    .empty emptyDisk_ready fun _ => rfl
  have ready : FileBackend.Ready ⟨"/keys"⟩ ["keys"] (⟨emptyDisk, []⟩ : Disk).system :=
    emptyDisk_ready
  obtain ⟨result, written, after, played, ends, leaves⟩ := play_put noFaults ready storable writes
  have whole : written = some (utf8 text) := by
    cases ends with
    | refused refused => exact absurd ⟨rfl, rfl, rfl, rfl⟩ refused
    | unsynced renames unsynced => rfl
    | stored renames syncs => rfl
  have keeps := (KeepsKeys.empty emptyDisk_ready fun _ => rfl).of_stored storable (whole ▸ leaves) parses
  have reached := start.put record produced noFaults
  rw [played] at reached
  have pending : record.state = .pending := planted.state
  refine ⟨record, after.system, reached, by rw [pending]; rfl, ?_, ?_⟩
  · exact .of_plain keeps.ready storable.plain.1
  · exact keeps.readable (Table.find?_insert_self _ _) (keeps.ready.locate_storable storable).1

/-- A destruction that cannot measure the live file fails and changes nothing. -/
theorem failed_measuring_keeps_record : ∃ record system,
    FileReached plainKeystore bracedFormat ⟨"/keys"⟩ ["keys"] system ∧
    (FileBackend.answer bracedFormat ⟨"/keys"⟩ (.get record.id) system).1 =
      .ok (.found (some record)) ∧
    let ended := (Keystore.destroy record.id).run
      (fileHandle (failsAt .overwriteMetadata) bracedFormat ⟨"/keys"⟩ (quietEnv 0))
      ⟨system, 0, .memory ⟨1, []⟩⟩
    (∃ error, ended.1 = .err error) →
      (FileBackend.answer bracedFormat ⟨"/keys"⟩ (.get record.id) ended.2.system).1 =
          .ok (.found (some record)) ∧
        ∃ records, (FileBackend.answer bracedFormat ⟨"/keys"⟩ .list ended.2.system).1 =
          .ok (.records records) := by
  obtain ⟨record, system, reached, edge, stays, readable⟩ := exists_stored
  refine ⟨record, system, reached, readable, ?_⟩
  apply (destroy_atomic_iff plainKeystore bracedFormat_lawful bracedFormat_strict reached stays
    readable (failsAt .overwriteMetadata) (quietEnv 0) 0 (.memory ⟨1, []⟩)).mpr
  intro _ _
  refine ⟨?_, fun absent => absurd rfl absent⟩
  rintro - ⟨measures, -⟩
  cases measures

/-- A destruction that fails at its first write of zeros loses the record, and with it the
listing. -/
theorem failed_overwriting_loses_record : ∃ record system,
    FileReached plainKeystore bracedFormat ⟨"/keys"⟩ ["keys"] system ∧
    (FileBackend.answer bracedFormat ⟨"/keys"⟩ (.get record.id) system).1 =
      .ok (.found (some record)) ∧
    let ended := (Keystore.destroy record.id).run
      (fileHandle (failsAt .overwriteWrite) bracedFormat ⟨"/keys"⟩ (quietEnv 0))
      ⟨system, 0, .memory ⟨1, []⟩⟩
    (∃ error, ended.1 = .err error) ∧
      (∃ error, (FileBackend.answer bracedFormat ⟨"/keys"⟩ (.get record.id) ended.2.system).1 =
        .error error) ∧
      ∃ error, (FileBackend.answer bracedFormat ⟨"/keys"⟩ .list ended.2.system).1 =
        .error error := by
  obtain ⟨record, system, reached, edge, stays, readable⟩ := exists_stored
  refine ⟨record, system, reached, readable, ?_⟩
  obtain ⟨keys, keeps⟩ := reached.exists_keeps bracedFormat_lawful bracedFormat_strict
  obtain ⟨found, located⟩ := keeps.of_readable stays readable
  have harms : ¬ (failsAt .overwriteWrite).Spares := by
    intro spares
    obtain ⟨⟨writes, -⟩, -⟩ := (spares ⟨rfl, rfl⟩).1 rfl ⟨rfl, rfl⟩
    cases writes
  have keeps : KeepsKeys bracedFormat ⟨"/keys"⟩ ["keys"]
    (⟨system, 0, .memory ⟨1, []⟩⟩ : FileWorld).system keys := keeps
  obtain ⟨text, newText, result, written, later, holds, parses, ran, leaves, ends⟩ :=
    keeps.destroy_ends bracedFormat_lawful bracedFormat_strict (failsAt .overwriteWrite)
      (quietEnv 0) found located edge
  intro ended
  have after : ended = (result, ⟨later, 0, .memory ⟨1, []⟩⟩) := ran
  rw [after]
  cases ends with
  | destroyed spared => exact absurd spared harms
  | kept spared => exact absurd spared harms
  | replaced harms unsynced => exact absurd ⟨rfl, rfl⟩ unsynced
  | zeroed count harms =>
      have located : later.locate (FileBackend.keyPath ⟨"/keys"⟩ record.id) =
          some (fileOf ["keys"] record.id "json") := by
        rw [leaves.locate]
        exact located
      refine ⟨⟨_, rfl⟩, ?_, keeps.list_fails bracedFormat_strict found leaves⟩
      exact answer_get_of_zeros bracedFormat_strict (leaves.ready keeps.ready) located leaves.live

end Citadel
