import Citadel.Api.Delegation
import Citadel.Data.Faults

/-!
# The file of the API keys

The routes that create and revoke keys change the store in memory and save it then, on a disk
whose calls may fail. Nothing takes the change back when they do, so the request that answers
with an error has happened in memory, and the file does not know of it.
-/

namespace Citadel.Api

open Method

/-- The texts of key stores, as the JSON library writes and reads them. -/
structure StoreFormat where
  toStringPretty : ApiKeyStore → Except String String
  fromStr : String → Except String ApiKeyStore

/-- What was written reads back. -/
def StoreFormat.Lawful (format : StoreFormat) : Prop :=
  ∀ {store text}, format.toStringPretty store = .ok text → format.fromStr text = .ok store

/-- An operation on files in `ApiKeyStore::save`. -/
inductive SaveOp where
  | openTmp
  | setPermissions
  | writeAll
  | syncAll
  | rename
  deriving DecidableEq, Repr

/-- Which operations of a save fail, and how. -/
abbrev SaveFaults := SaveOp → Option Fault

/-- `ApiKeyStore::save`. -/
def ApiKeyStore.save (faults : SaveFaults) (format : StoreFormat) (path : String)
    (store : ApiKeyStore) : Method Disk String Unit := do
  let data ← ofExcept ((format.toStringPretty store).mapError fun error => s!"serialize: {error}")
  let tmp := path ++ ".tmp"
  (Disk.attempt (faults .openTmp) (Disk.write tmp [])).mapErr fun error => s!"open tmp {tmp}: {error}"
  (Disk.attempt (faults .setPermissions) (pure ())).mapErr fun error => s!"chmod {tmp}: {error}"
  (Disk.writeAll (faults .writeAll) tmp (utf8 data)).mapErr fun error => s!"write {tmp}: {error}"
  (Disk.attempt (faults .syncAll) (pure ())).mapErr fun error => s!"fsync {tmp}: {error}"
  (Disk.attempt (faults .rename) (Disk.rename tmp path)).mapErr fun error =>
    s!"rename {tmp} → {path}: {error}"

/-- The API keys of a server: the store in memory, and the disk with the file of it. -/
structure KeyState where
  store : ApiKeyStore
  system : FileSystem

/-- What is around the key store of a server. -/
structure KeyServer where
  hashApiKey : String → SizedBytes 32
  format : StoreFormat
  /-- `state.api_keys_path`. -/
  path : String

namespace KeyServer

variable (server : KeyServer) (faults : SaveFaults)

/-- `store.save(&state.api_keys_path)`. -/
def save : Method KeyState String Unit := fun state =>
  let (result, disk) := (state.store.save faults server.format server.path).play ⟨state.system, []⟩
  (result, { state with system := disk.system })

/-- `create_api_key`. Of what is drawn, how the save ends is not read. -/
def createApiKey (auth : AuthContext) (req : CreateApiKeyReq) (draw : KeyDraw) :
    Method KeyState ApiError CreatedApiKey := do
  let scopes ← ofExcept (admitApiKey auth req)
  modify fun state =>
    { state with store := state.store.add (newApiKeyEntry server.hashApiKey req scopes draw) }
  (server.save faults).mapErr fun error => err500 s!"failed to save: {error}"
  return ⟨generateKeyId draw.id, req.name, hexEncode draw.secret.1, scopes⟩

/-- `revoke_api_key`. -/
def revokeApiKey (auth : AuthContext) (id : String) : Method KeyState ApiError Unit := do
  let state ← get
  let _target ← ofExcept (admitRevocation auth id state.store)
  modify fun state => { state with store := state.store.deactivate id }
  (server.save faults).mapErr fun error => err500 s!"failed to save: {error}"

end KeyServer

/-- A request to one of the two routes. -/
inductive KeyOrder where
  | create (req : CreateApiKeyReq) (draw : KeyDraw)
  | revoke (id : String)

/-- The answer to a request, without its body, and the state after it. -/
def KeyServer.play (server : KeyServer) (faults : SaveFaults) (auth : AuthContext)
    (state : KeyState) : KeyOrder → Except ApiError Unit × KeyState
  | .create req draw =>
      let (result, after) := (server.createApiKey faults auth req draw).play state
      (result.map fun _ => (), after)
  | .revoke id => (server.revokeApiKey faults auth id).play state

/-- The checks of a request, with the store that it saves when they pass. -/
def KeyOrder.checked (hashApiKey : String → SizedBytes 32) (auth : AuthContext)
    (store : ApiKeyStore) : KeyOrder → Except ApiError ApiKeyStore
  | .create req draw => (admitApiKey auth req).map fun scopes =>
      store.add (newApiKeyEntry hashApiKey req scopes draw)
  | .revoke id => (admitRevocation auth id store).map fun _ => store.deactivate id

/-- The file of the store reads as the store in memory. -/
def KeyServer.Agrees (server : KeyServer) (state : KeyState) : Prop :=
  ∃ text, ((Disk.readToString server.path).play ⟨state.system, []⟩).1 = .ok text ∧
    server.format.fromStr text = .ok state.store

section Save

variable {faults : SaveFaults} {format : StoreFormat} {path : String} {store : ApiKeyStore}
  {disk : Disk}

/-- The two paths of a save lead to places where files can be. -/
structure SavePlace (path : String) (system : FileSystem) (tmp home : Location) : Prop where
  leadsTmp : system.locate (path ++ ".tmp") = some tmp
  leads : system.locate path = some home
  flatTmp : tmp ∉ system.dirs
  flat : home ∉ system.dirs

/-- Nothing is in the way of a save: no operation fails, the store has a text, and there are
places for the files. -/
structure Saves (faults : SaveFaults) (format : StoreFormat) (path : String)
    (system : FileSystem) (store : ApiKeyStore) : Prop where
  works : ∀ op, faults op = none
  written : ∃ text, format.toStringPretty store = .ok text
  placed : ∃ tmp home, SavePlace path system tmp home

/-- The files after a save. -/
def savedSystem (system : FileSystem) (tmp home : Location) (text : String) : FileSystem :=
  (((system.store ⟨tmp, []⟩).store ⟨tmp, utf8 text⟩).remove tmp).store ⟨home, utf8 text⟩

theorem SavePlace.play_save {tmp home : Location} {text : String}
    (place : SavePlace path disk.system tmp home) (works : ∀ op, faults op = none)
    (written : format.toStringPretty store = .ok text) :
    ((store.save faults format path).play disk).1 = .ok () ∧
      ((store.save faults format path).play disk).2.system =
        savedSystem disk.system tmp home text := by
  obtain ⟨leadsTmp, leads, flatTmp, flat⟩ := place
  let opened : Disk := (⟨disk.system.store ⟨tmp, []⟩, disk.touched⟩ : Disk).touching tmp
  let filled : Disk := (⟨opened.system.store ⟨tmp, utf8 text⟩, opened.touched⟩ : Disk).touching tmp
  have first : (Disk.attempt none (Disk.write (path ++ ".tmp") [])).play disk = (.ok (), opened) :=
    Disk.play_write leadsTmp flatTmp
  have second : (Disk.writeAll none (path ++ ".tmp") (utf8 text)).play opened = (.ok (), filled) :=
    Disk.play_write leadsTmp flatTmp
  have third : (Disk.attempt none (Disk.rename (path ++ ".tmp") path)).play filled =
      (.ok (), ⟨(filled.system.remove tmp).store ⟨home, utf8 text⟩,
        filled.touched ++ [tmp, home]⟩) := by
    have isFile : filled.system.files.find? tmp = some ⟨tmp, utf8 text⟩ :=
      (FileSystem.find?_store opened.system ⟨tmp, utf8 text⟩ tmp).trans (if_pos rfl)
    have source : filled.system.locate (path ++ ".tmp") = some tmp := leadsTmp
    exact Disk.play_rename source leads flatTmp flat isFile
  have quiet : ∀ disk, (Disk.attempt none (pure ()) : Method Disk String Unit).play disk =
      (.ok (), disk) := fun _ => rfl
  have ran : (store.save faults format path).play disk =
      (.ok (), ⟨(filled.system.remove tmp).store ⟨home, utf8 text⟩,
        filled.touched ++ [tmp, home]⟩) := by
    unfold ApiKeyStore.save
    simp only [works, written, Except.mapError_ok]
    rw [play_ofExcept_ok_bind, play_bind_of_ok (play_mapErr_of_ok first),
      play_bind_of_ok (play_mapErr_of_ok (quiet opened)),
      play_bind_of_ok (play_mapErr_of_ok second),
      play_bind_of_ok (play_mapErr_of_ok (quiet filled))]
    exact play_mapErr_of_ok third
  rw [ran]
  exact ⟨rfl, rfl⟩

/-- A save succeeds exactly when nothing is in its way. -/
theorem save_ok_iff : ((store.save faults format path).play disk).1 = .ok () ↔
    Saves faults format path disk.system store := by
  constructor
  · intro saved
    have ran : (store.save faults format path).play disk =
        (.ok (), ((store.save faults format path).play disk).2) := by
      rw [← saved]
    unfold ApiKeyStore.save at ran
    simp only [play_bind_eq_ok, play_mapErr_eq_ok, play_ofExcept_eq_ok, Disk.play_attempt_eq_ok,
      Disk.play_writeAll_eq_ok, Disk.play_write_eq_ok] at ran
    obtain ⟨text, _, ⟨written, rfl⟩, _, opened, ⟨opens, tmp, leadsTmp, flatTmp, created⟩, _, _,
      ⟨changes, quiet⟩, _, filled, ⟨fills, _, -, -, wrote⟩, _, _, ⟨syncs, quietToo⟩, renames,
      renamed⟩ := ran
    cases quiet
    cases quietToo
    obtain ⟨home, leads, flat⟩ := Disk.place_of_rename renamed
    subst wrote created
    refine ⟨?_, ?_, tmp, home, leadsTmp, leads, flatTmp, flat⟩
    · intro op
      cases op <;> assumption
    · cases texts : format.toStringPretty store with
      | error error =>
          rw [texts] at written
          cases written
      | ok text => exact ⟨text, rfl⟩
  · rintro ⟨works, ⟨text, written⟩, tmp, home, place⟩
    exact (place.play_save works written).1

/-- A save that fails has not touched the file: it only got as far as the temporary one. -/
theorem save_error_keeps {tmp home : Location} {error : String}
    (leadsTmp : disk.system.locate (path ++ ".tmp") = some tmp) (apart : tmp ≠ home)
    (failed : ((store.save faults format path).play disk).1 = .error error) :
    Disk.Apart (path ++ ".tmp") home disk.system ((store.save faults format path).play disk).2 := by
  let holds := Disk.Apart (path ++ ".tmp") home disk.system
  have start : holds disk := by
    refine ⟨?_, rfl, rfl⟩
    rw [leadsTmp]
    rintro ⟨⟩
    exact apart rfl
  have translated : ∀ {α : Type} (call : Method Disk String α) (translate : String → String),
      (∀ disk, holds disk → holds (call.play disk).2) →
      ∀ disk, holds disk → holds ((call.mapErr translate).play disk).2 := by
    intro α call translate keeps disk before
    rw [play_mapErr]
    exact keeps disk before
  have silent : ∀ fault disk, holds disk →
      holds ((Disk.attempt fault (pure ()) : Method Disk String Unit).play disk).2 := by
    intro fault disk before
    cases fault with
    | none => exact before
    | some fault => exact before
  unfold ApiKeyStore.save at failed ⊢
  -- one statement after the other keeps the file, up to the rename
  refine play_bind_error_keeps ?_ (fun data => play_bind_error_keeps (translated _ _ ?_)
    (fun _ => play_bind_error_keeps (translated _ _ (silent _)) (fun _ =>
      play_bind_error_keeps (translated _ _ ?_) (fun _ => play_bind_error_keeps
        (translated _ _ (silent _)) (fun _ => ?_))))) disk start error failed
  · intro disk before
    cases format.toStringPretty store with
    | error error => exact before
    | ok text => exact before
  · intro disk before
    exact before.attempt (before.write _) _
  · intro disk before
    exact before.writeAll _ _
  · intro disk before error failed
    rw [play_mapErr] at failed ⊢
    cases fault : faults .rename with
    | some fault => exact before
    | none =>
        rw [fault, Disk.play_attempt_none] at failed
        rw [Disk.play_attempt_none]
        cases renamed : ((Disk.rename (path ++ ".tmp") path).play disk).1 with
        | ok value =>
            rw [renamed] at failed
            cases failed
        | error error =>
            have same := Disk.play_rename_error renamed
            refine ⟨before.elsewhere, ?_, ?_⟩
            · rw [same]
              exact before.same
            · rw [same]
              exact before.kept

end Save

section Requests

variable {server : KeyServer} {faults : SaveFaults} {auth : AuthContext} {state : KeyState}
  {order : KeyOrder} {changed : ApiKeyStore}

theorem KeyServer.play_save (server : KeyServer) (faults : SaveFaults) (state : KeyState) :
    (server.save faults).play state =
      (((state.store.save faults server.format server.path).play ⟨state.system, []⟩).1,
        { state with system :=
          ((state.store.save faults server.format server.path).play ⟨state.system, []⟩).2.system }) :=
  rfl

/-- An update shows where it was made. -/
theorem find?_updateFirst {wanted : ApiKeyEntry → Bool} {change : ApiKeyEntry → ApiKeyEntry}
    {keys : List ApiKeyEntry} {target : ApiKeyEntry} (found : keys.find? wanted = some target)
    (still : wanted (change target) = true) :
    (updateFirst wanted change keys).find? wanted = some (change target) := by
  induction keys with
  | nil => cases found
  | cons entry rest ih =>
      by_cases hit : wanted entry = true
      · rw [List.find?_cons_of_pos hit] at found
        cases found
        rw [updateFirst, if_pos hit, List.find?_cons_of_pos still]
      · rw [List.find?_cons_of_neg hit] at found
        rw [updateFirst, if_neg hit, List.find?_cons_of_neg hit]
        exact ih found

/-- After a revocation in memory the checks take it for done. -/
theorem revoked_of_admitted {id : String} {store : ApiKeyStore} {target : ApiKeyEntry}
    (admitted : admitRevocation auth id store = .ok target) :
    admitRevocation auth id (store.deactivate id) =
      .error (err s!"API key '{id}' already revoked") := by
  obtain ⟨found, authorized, -⟩ := of_admitRevocation admitted
  have named : (target.id == id) = true :=
    List.find?_some (p := fun entry : ApiKeyEntry => entry.id == id) found
  have again : (store.deactivate id).keys.find? (fun entry => entry.id == id) =
      some { target with active := false } := find?_updateFirst found named
  have permitted : authorizeApiKeyAdminAction auth
      (.revokeApiKey { target with active := false }) = .ok () := authorized
  unfold admitRevocation
  rw [again]
  simp only
  rw [permitted]
  rfl

/-- A request that its checks refuse does nothing. -/
theorem KeyServer.play_of_refused {error : ApiError} (faults : SaveFaults)
    (refused : order.checked server.hashApiKey auth state.store = .error error) :
    server.play faults auth state order = (.error error, state) := by
  cases order with
  | create req draw =>
      simp only [KeyOrder.checked] at refused
      simp only [play, createApiKey]
      cases admitted : admitApiKey auth req with
      | error other =>
          rw [admitted] at refused
          cases refused
          rfl
      | ok scopes =>
          rw [admitted] at refused
          cases refused
  | revoke id =>
      simp only [KeyOrder.checked] at refused
      simp only [play, revokeApiKey, play_get_bind]
      cases admitted : admitRevocation auth id state.store with
      | error other =>
          rw [admitted] at refused
          cases refused
          rfl
      | ok target =>
          rw [admitted] at refused
          cases refused

/-- A creation that passes its checks. -/
theorem KeyServer.createApiKey_of_admitted {req : CreateApiKeyReq} {scopes : List Scope}
    {draw : KeyDraw} {result : Except String Unit} {disk : Disk}
    (checked : admitApiKey auth req = .ok scopes)
    (saved : ((state.store.add (newApiKeyEntry server.hashApiKey req scopes draw)).save faults
      server.format server.path).play ⟨state.system, []⟩ = (result, disk)) :
    (server.createApiKey faults auth req draw).play state =
      ((result.mapError fun error => err500 s!"failed to save: {error}").map fun _ =>
        ⟨generateKeyId draw.id, req.name, hexEncode draw.secret.1, scopes⟩,
        ⟨state.store.add (newApiKeyEntry server.hashApiKey req scopes draw), disk.system⟩) := by
  unfold createApiKey
  rw [checked, play_ofExcept_ok_bind, play_modify_bind, play_bind, play_mapErr, server.play_save,
    saved]
  cases result with
  | error error => rfl
  | ok value => rfl

/-- A request that passes its checks changes the store in memory, however the save ends. -/
theorem KeyServer.play_of_admitted (faults : SaveFaults)
    (admitted : order.checked server.hashApiKey auth state.store = .ok changed) :
    server.play faults auth state order =
      (((changed.save faults server.format server.path).play ⟨state.system, []⟩).1.mapError
          fun error => err500 s!"failed to save: {error}",
        ⟨changed, ((changed.save faults server.format server.path).play
          ⟨state.system, []⟩).2.system⟩) := by
  cases order with
  | create req draw =>
      simp only [KeyOrder.checked] at admitted
      simp only [play]
      cases checked : admitApiKey auth req with
      | error other =>
          rw [checked] at admitted
          cases admitted
      | ok scopes =>
          rw [checked] at admitted
          cases admitted
          cases saved : ((state.store.add (newApiKeyEntry server.hashApiKey req scopes draw)).save
            faults server.format server.path).play ⟨state.system, []⟩ with
          | mk result disk =>
              rw [server.createApiKey_of_admitted checked saved]
              cases result with
              | error error => rfl
              | ok value => rfl
  | revoke id =>
      simp only [KeyOrder.checked] at admitted
      simp only [play, revokeApiKey, play_get_bind]
      cases checked : admitRevocation auth id state.store with
      | error other =>
          rw [checked] at admitted
          cases admitted
      | ok target =>
          rw [checked] at admitted
          cases admitted
          rw [play_ofExcept_ok_bind, play_modify_bind, play_mapErr, server.play_save]

/-- Where a request goes on to save, it saves something else than there was. -/
theorem KeyOrder.checked_changes {hashApiKey : String → SizedBytes 32} {store : ApiKeyStore}
    (admitted : order.checked hashApiKey auth store = .ok changed) : changed ≠ store := by
  cases order with
  | create req draw =>
      simp only [checked] at admitted
      cases checked : admitApiKey auth req with
      | error error =>
          rw [checked] at admitted
          cases admitted
      | ok scopes =>
          rw [checked] at admitted
          cases admitted
          intro same
          have lengths := congrArg (fun store => store.keys.length) same
          simp [ApiKeyStore.add] at lengths
  | revoke id =>
      simp only [checked] at admitted
      cases checked : admitRevocation auth id store with
      | error error =>
          rw [checked] at admitted
          cases admitted
      | ok target =>
          rw [checked] at admitted
          cases admitted
          intro same
          have again := revoked_of_admitted checked
          have unchanged : store.deactivate id = store := same
          rw [unchanged, checked] at again
          cases again

/-- The routes on a disk are the routes that are told how the save ends. -/
theorem KeyServer.createApiKey_play (server : KeyServer) (faults : SaveFaults) (auth : AuthContext)
    (req : CreateApiKeyReq) (draw : KeyDraw) (state : KeyState) :
    let ended := (server.createApiKey faults auth req draw).play state
    let saved := ((ended.2.store.save faults server.format server.path).play ⟨state.system, []⟩).1
    (ended.1, ended.2.store) =
      Api.createApiKey server.hashApiKey auth req { draw with saved := saved } state.store := by
  cases checked : admitApiKey auth req with
  | error error =>
      unfold createApiKey Api.createApiKey
      rw [checked]
      rfl
  | ok scopes =>
      cases saved : ((state.store.add (newApiKeyEntry server.hashApiKey req scopes draw)).save
        faults server.format server.path).play ⟨state.system, []⟩ with
      | mk result disk =>
          rw [server.createApiKey_of_admitted checked saved]
          simp only [saved, Api.createApiKey, checked]
          cases result with
          | error error => rfl
          | ok value => rfl

theorem KeyServer.revokeApiKey_play (server : KeyServer) (faults : SaveFaults) (auth : AuthContext)
    (id : String) (state : KeyState) :
    let ended := (server.revokeApiKey faults auth id).play state
    let saved := ((ended.2.store.save faults server.format server.path).play ⟨state.system, []⟩).1
    (ended.1, ended.2.store) = Api.revokeApiKey auth id saved state.store := by
  unfold revokeApiKey Api.revokeApiKey
  rw [play_get_bind]
  cases checked : admitRevocation auth id state.store with
  | error error => rfl
  | ok target =>
      simp only [play_ofExcept_ok_bind, play_modify_bind, play_mapErr, server.play_save]
      cases ((state.store.deactivate id).save faults server.format server.path).play
        ⟨state.system, []⟩ with
      | mk result disk => cases result <;> rfl

/-- After a request that succeeds the file reads as the store in memory. -/
theorem KeyServer.agrees_of_ok (lawful : server.format.Lawful)
    (succeeded : (server.play faults auth state order).1 = .ok ()) :
    server.Agrees (server.play faults auth state order).2 := by
  cases admitted : order.checked server.hashApiKey auth state.store with
  | error refusal =>
      rw [server.play_of_refused faults admitted] at succeeded
      cases succeeded
  | ok changed =>
      rw [server.play_of_admitted faults admitted] at succeeded ⊢
      cases saved : ((changed.save faults server.format server.path).play ⟨state.system, []⟩).1 with
      | error error =>
          rw [saved] at succeeded
          cases succeeded
      | ok value =>
          obtain ⟨works, ⟨text, written⟩, tmp, home, place⟩ := save_ok_iff.mp saved
          have after := (place.play_save works written).2
          refine ⟨text, ?_, lawful written⟩
          simp only
          rw [after]
          have isFile : (savedSystem state.system tmp home text).files.find? home =
              some ⟨home, utf8 text⟩ := (FileSystem.find?_store _ _ home).trans (if_pos rfl)
          have leads : (savedSystem state.system tmp home text).locate server.path = some home :=
            place.leads
          have flat : home ∉ (savedSystem state.system tmp home text).dirs := place.flat
          have read : (Disk.readToString server.path).play
              ⟨savedSystem state.system tmp home text, []⟩ = _ :=
            Disk.play_readToString leads flat isFile (decodeUtf8_utf8 text)
          rw [read]

/-- After a request whose save failed, a file that agreed before does not agree any more. -/
theorem KeyServer.not_agrees_of_failed_save {tmp home : Location} (agreed : server.Agrees state)
    (admitted : order.checked server.hashApiKey auth state.store = .ok changed)
    (unsaved : ¬ Saves faults server.format server.path state.system changed)
    (leadsTmp : state.system.locate (server.path ++ ".tmp") = some tmp)
    (leads : state.system.locate server.path = some home) (apart : tmp ≠ home) :
    ¬ server.Agrees (server.play faults auth state order).2 := by
  obtain ⟨text, read, parsed⟩ := agreed
  rw [server.play_of_admitted faults admitted]
  rintro ⟨later, readLater, parsedLater⟩
  cases saved : ((changed.save faults server.format server.path).play ⟨state.system, []⟩).1 with
  | ok value => exact unsaved (save_ok_iff.mp saved)
  | error error =>
      have kept := save_error_keeps leadsTmp apart saved
      have same := kept.readToString leads
      have sameText := (readLater.symm.trans same).trans read
      cases sameText
      have sameStore := parsedLater.symm.trans parsed
      exact KeyOrder.checked_changes admitted (Except.ok.inj sameStore)

/-- A request has left no trace: the store in memory is as before, memory and file agree if
they did, and asked again the checks decide as they did. -/
structure KeyServer.Unharmed (server : KeyServer) (auth : AuthContext) (order : KeyOrder)
    (before after : KeyState) : Prop where
  kept : after.store = before.store
  agrees : server.Agrees before → server.Agrees after
  retried : order.checked server.hashApiKey auth after.store =
    order.checked server.hashApiKey auth before.store

/-- A request that answers with an error leaves no trace exactly when its checks refuse it or
nothing is in the way of the save: the change in memory is never taken back. -/
theorem failed_request_harmless_iff (server : KeyServer) (faults : SaveFaults)
    (auth : AuthContext) (state : KeyState) (order : KeyOrder) :
    (∀ error, (server.play faults auth state order).1 = .error error →
      server.Unharmed auth order state (server.play faults auth state order).2) ↔
    ∀ changed, order.checked server.hashApiKey auth state.store = .ok changed →
      Saves faults server.format server.path state.system changed := by
  have decides : ∀ changed : ApiKeyStore,
      ((changed.save faults server.format server.path).play ⟨state.system, []⟩).1 = .ok () ↔
        Saves faults server.format server.path state.system changed := fun _ => save_ok_iff
  constructor
  · intro harmless changed admitted
    have played := server.play_of_admitted faults admitted
    apply (decides changed).mp
    cases saved : ((changed.save faults server.format server.path).play ⟨state.system, []⟩).1 with
    | ok value => rfl
    | error error =>
        rw [saved] at played
        have kept := (harmless _ (congrArg Prod.fst played)).kept
        rw [played] at kept
        exact absurd kept (KeyOrder.checked_changes admitted)
  · intro saves error failed
    cases admitted : order.checked server.hashApiKey auth state.store with
    | error refusal =>
        rw [server.play_of_refused faults admitted]
        exact ⟨rfl, id, rfl⟩
    | ok changed =>
        have saved := (decides changed).mpr (saves changed admitted)
        rw [server.play_of_admitted faults admitted, saved] at failed
        cases failed

end Requests

/-- An admin key. -/
def adminEntry (id : String) : ApiKeyEntry :=
  ⟨id, "operator", hexEncode (List.replicate 32 7), [.admin], "2026-01-01T00:00:00+00:00", true, none,
    none⟩

/-- Texts that tell which keys are active. -/
def activityFormat : StoreFormat where
  toStringPretty store := .ok (String.intercalate "," (store.keys.map fun entry =>
    if entry.active then entry.id else "-" ++ entry.id))
  fromStr _ := .error "expected value at line 1 column 1"

/-- A server with two admin keys, whose file is on an empty disk. -/
def twoAdmins : KeyState where
  store := ⟨[bootstrapEntry (.zeros 32) "2026-01-01T00:00:00+00:00", adminEntry "ck_0707"]⟩
  system :=
    { cwd := []
      dirs := [[], ["data"]]
      files := .empty
      admits := fun _ => true
      failure := fun _ => Disk.notFound
      order := fun names => names
      order_perm := fun names => .refl names }

/-- A server that keeps its keys there. -/
def diskServer : KeyServer := ⟨fun _ => .zeros 32, activityFormat, "/data/api-keys.json"⟩

/-- There is no space left for the temporary file. -/
def fullDisk : SaveFaults := fun op =>
  if op = .writeAll then some ⟨0, "No space left on device (os error 28)"⟩ else none

/-- A revocation that cannot be saved is answered with an error and has happened in memory. Asked
again when there is space, it is refused as already done. -/
theorem failed_revocation_not_retried :
    let caller := (bootstrapEntry (.zeros 32) "2026-01-01T00:00:00+00:00").context
    let ended := diskServer.play fullDisk caller twoAdmins (.revoke "ck_0707")
    ended.1 = .error (err500 ("failed to save: write /data/api-keys.json.tmp: " ++
        "No space left on device (os error 28)")) ∧
      ended.2.store ≠ twoAdmins.store ∧
      (diskServer.play (fun _ => none) caller ended.2 (.revoke "ck_0707")).1 =
        .error (err "API key 'ck_0707' already revoked") := by
  refine ⟨rfl, by decide, rfl⟩

end Citadel.Api
