import Citadel.Envelope.Canonical
import Citadel.Keystore.BackendRefinement

/-!
# Backups

A backup is a header in the clear and all records of the keystore as one encrypted text. The key of
the cipher comes from the master key and the time in the header, and the time is associated data
as well. So a cipher that opens only what was encrypted makes `restore_backup` accept the backups
that `create_backup` returned under the same master key, and no other bytes.
-/

namespace Citadel

open Envelope

/-- `BACKUP_MAGIC`. -/
def backupMagic : Bytes := [67, 84, 68, 76, 66, 65, 75]

/-- `BACKUP_VERSION`. -/
def backupVersion : UInt8 := 1

/-- `HEADER_LEN`: magic, version, timestamp and nonce. -/
def backupHeaderLen : Nat := 7 + 1 + 8 + 12

/-- `BackupPayload`. -/
structure BackupPayload where
  schemaVersion : Nat
  createdAt : Nat
  keys : List KeyMetadata
  keyCount : Nat
  deriving DecidableEq, Repr

/-- The payload with the secret material of its records replaced. -/
def BackupPayload.mapMaterial (payload : BackupPayload)
    (change : SecretKeyMaterial → SecretKeyMaterial) : BackupPayload :=
  { payload with keys := payload.keys.map fun record => record.mapMaterial change }

/-- The derived serialisation of a payload, given that of the secret material in it
(`serde_json`). -/
structure BackupFormat where
  toVec : (SecretKeyMaterial → String) → BackupPayload → Except String Bytes
  fromSlice : (String → SecretKeyMaterial) → Bytes → Except String BackupPayload

/-- The derived fields are read back as they were written. -/
structure BackupFormat.Lawful (format : BackupFormat) : Prop where
  roundTrip : ∀ serialize deserialize payload, ∃ bytes,
    format.toVec serialize payload = .ok bytes ∧
      format.fromSlice deserialize bytes =
        .ok (payload.mapMaterial fun material => deserialize (serialize material))

/-- What a creation reads from the clock and draws at random. -/
structure BackupDraw where
  /-- `now_unix`. -/
  nowUnix : UInt64
  /-- `Utc::now`. -/
  createdAt : Nat
  nonce : SizedBytes 12

/-- The bytes of a timestamp. -/
def stampBytes (timestamp : Nat) : SizedBytes 8 := ⟨beBytes 8 timestamp, beBytes_length 8 timestamp⟩

/-- `{:?}` of a byte slice. -/
def debugBytes (bytes : Bytes) : String :=
  "[" ++ String.intercalate ", " (bytes.map fun byte => toString byte.toNat) ++ "]"

section Code

variable (crypto : Crypto) (format : BackupFormat)

/-- The wrapping key of one backup. -/
def backupWrapKey (masterKey : SizedBytes 32) (stamp : SizedBytes 8) : SizedBytes 32 :=
  crypto.hkdfSha256 none masterKey.1 (utf8 "citadel-backup-v1:" ++ stamp.1)

/-- The bytes of a backup file. -/
def backupFile (stamp : SizedBytes 8) (nonce : SizedBytes 12) (ciphertext : Bytes) : Bytes :=
  backupMagic ++ ([backupVersion] ++ (stamp.1 ++ (nonce.1 ++ ciphertext)))

/-- `create_backup`. -/
def createBackup (draw : BackupDraw) (keys : List KeyMetadata) (masterKey : SizedBytes 32) :
    Except String Bytes := do
  let payload : BackupPayload := ⟨1, draw.createdAt, keys, keys.length⟩
  let json ← (format.toVec SecretKeyMaterial.serialize payload).mapError fun error =>
    s!"serialize: {error}"
  let stamp := stampBytes draw.nowUnix.toNat
  let wrapKey := backupWrapKey crypto masterKey stamp
  match crypto.aesGcmEncrypt wrapKey draw.nonce json stamp.1 with
  | none => .error "AES-256-GCM encryption failed"
  | some ciphertext => .ok (backupFile stamp draw.nonce ciphertext)

/-- `slice.try_into().unwrap()`. -/
def intoArray (count : Nat) (bytes : Bytes) : Except Abort (SizedBytes count) :=
  (toSized count bytes).mapError fun _ => .panic
    "called `Result::unwrap()` on an `Err` value: TryFromSliceError(())"

/-- `decrypt_backup` from the header on. -/
def openBackup (timestamp : Nat) (nonce : SizedBytes 12) (ciphertext : Bytes)
    (masterKey : SizedBytes 32) : Except String BackupPayload :=
  let stamp := stampBytes timestamp
  match crypto.aesGcmDecrypt (backupWrapKey crypto masterKey stamp) nonce ciphertext stamp.1 with
  | none => .error "AES-256-GCM decryption failed — wrong master key or corrupted backup"
  | some plaintext => (format.fromSlice .deserialize plaintext).mapError fun error =>
      s!"backup payload parse failed: {error}"

/-- `decrypt_backup`, with a panic for every slice that is out of range. -/
def decryptBackup (data : Bytes) (masterKey : SizedBytes 32) :
    Except Abort (Except String BackupPayload) :=
  if data.length < backupHeaderLen + 16 then .ok (.error "backup file too short")
  else do
    let found ← WireV2.range data 0 7
    if found ≠ backupMagic then
      .ok (.error (s!"invalid magic bytes; expected {debugBytes backupMagic}, " ++
        s!"got {debugBytes found}"))
    else do
      let version ← WireV2.index data 7
      if version ≠ backupVersion then
        .ok (.error (s!"unsupported backup version {version.toNat}; " ++
          s!"expected {backupVersion.toNat}"))
      else do
        let stamp ← intoArray 8 (← WireV2.range data 8 16)
        let timestamp := beNat stamp.1
        let nonce ← intoArray 12 (← WireV2.range data 16 28)
        let ciphertext ← WireV2.rangeFrom data 28
        .ok (openBackup crypto format timestamp nonce ciphertext masterKey)

/-- `verify_backup`. -/
def verifyBackup (data : Bytes) (masterKey : SizedBytes 32) :
    Except Abort (Except String (Nat × Nat)) := do
  let payload ← decryptBackup crypto format data masterKey
  return payload.map fun payload => (payload.keyCount, payload.createdAt)

/-- `restore_backup`. -/
def restoreBackup (data : Bytes) (masterKey : SizedBytes 32) :
    Except Abort (Except String (List KeyMetadata)) := do
  let payload ← decryptBackup crypto format data masterKey
  return payload.map BackupPayload.keys

end Code

section File

variable {crypto : Crypto} {format : BackupFormat} {data ciphertext : Bytes}
  {masterKey : SizedBytes 32} {stamp : SizedBytes 8} {nonce : SizedBytes 12}
  {payload : BackupPayload}

/-- A timestamp is written as the bytes that it was read from. -/
theorem stampBytes_beNat (stamp : SizedBytes 8) : stampBytes (beNat stamp.1) = stamp := by
  apply Subtype.ext
  have written := beBytes_beNat stamp.1
  rwa [stamp.2] at written

theorem intoArray_of_length {count : Nat} {bytes : Bytes} (exact : bytes.length = count) :
    intoArray count bytes = .ok ⟨bytes, exact⟩ := by
  rw [intoArray, WireV2.toSized_of_length exact]
  rfl

/-- A file that is long enough is read without a panic. -/
theorem decryptBackup_of_long (long : backupHeaderLen + 16 ≤ data.length)
    (stampSize : (slice data 8 16).length = 8) (nonceSize : (slice data 16 28).length = 12) :
    decryptBackup crypto format data masterKey = .ok (
      if slice data 0 7 ≠ backupMagic then
        .error (s!"invalid magic bytes; expected {debugBytes backupMagic}, " ++
          s!"got {debugBytes (slice data 0 7)}")
      else if byteAt data 7 ≠ backupVersion then
        .error (s!"unsupported backup version {(byteAt data 7).toNat}; " ++
          s!"expected {backupVersion.toNat}")
      else
        openBackup crypto format (beNat (slice data 8 16)) ⟨slice data 16 28, nonceSize⟩
          (data.drop 28) masterKey) := by
  have enough : 28 ≤ data.length := by
    rw [backupHeaderLen] at long
    omega
  rw [decryptBackup, if_neg (by omega), WireV2.range_of_le (by omega) (by omega), ok_bind]
  split
  · rfl
  · rw [WireV2.index_of_lt (by omega), ok_bind]
    split
    · rfl
    · rw [WireV2.range_of_le (by omega) (by omega), ok_bind, intoArray_of_length stampSize, ok_bind,
        WireV2.range_of_le (by omega) enough, ok_bind, intoArray_of_length nonceSize, ok_bind,
        WireV2.rangeFrom_of_le enough, ok_bind]

theorem slices_of_long (long : backupHeaderLen + 16 ≤ data.length) :
    (slice data 8 16).length = 8 ∧ (slice data 16 28).length = 12 := by
  rw [backupHeaderLen] at long
  constructor
  · rw [WireV2.slice_length (by omega)]
  · rw [WireV2.slice_length (by omega)]

/-- No slice of a file is out of range. -/
theorem exists_decryptBackup (crypto : Crypto) (format : BackupFormat) (data : Bytes)
    (masterKey : SizedBytes 32) :
    ∃ result, decryptBackup crypto format data masterKey = .ok result := by
  by_cases short : data.length < backupHeaderLen + 16
  · exact ⟨_, if_pos short⟩
  · have long := Nat.le_of_not_lt short
    obtain ⟨stampSize, nonceSize⟩ := slices_of_long long
    exact ⟨_, decryptBackup_of_long long stampSize nonceSize⟩

/-- The ciphertext is what comes after the header. -/
theorem drop_backupFile (stamp : SizedBytes 8) (nonce : SizedBytes 12) (ciphertext : Bytes) :
    (backupFile stamp nonce ciphertext).drop 28 = ciphertext := by
  have cut : backupFile stamp nonce ciphertext =
      (backupMagic ++ [backupVersion] ++ stamp.1 ++ nonce.1) ++ ciphertext := by
    simp [backupFile]
  rw [cut]
  apply List.drop_left'
  simp [backupMagic]

/-- A file with a ciphertext is opened with what its header says. -/
theorem decryptBackup_backupFile (tagged : 16 ≤ ciphertext.length) :
    decryptBackup crypto format (backupFile stamp nonce ciphertext) masterKey =
      .ok (openBackup crypto format (beNat stamp.1) nonce ciphertext masterKey) := by
  have long : backupHeaderLen + 16 ≤ (backupFile stamp nonce ciphertext).length := by
    simp [backupFile, backupHeaderLen, backupMagic]
    omega
  obtain ⟨stampSize, nonceSize⟩ := slices_of_long long
  rw [decryptBackup_of_long long stampSize nonceSize]
  have magic : slice (backupFile stamp nonce ciphertext) 0 7 = backupMagic := rfl
  have version : byteAt (backupFile stamp nonce ciphertext) 7 = backupVersion := rfl
  have stampRead : slice (backupFile stamp nonce ciphertext) 8 16 = stamp.1 := by
    have cut : backupFile stamp nonce ciphertext =
        (backupMagic ++ [backupVersion]) ++ (stamp.1 ++ (nonce.1 ++ ciphertext)) := by
      simp [backupFile]
    rw [cut]
    apply slice_append
    · rfl
    · rw [stamp.2]
  have nonceRead : slice (backupFile stamp nonce ciphertext) 16 28 = nonce.1 := by
    have cut : backupFile stamp nonce ciphertext =
        (backupMagic ++ [backupVersion] ++ stamp.1) ++ (nonce.1 ++ ciphertext) := by
      simp [backupFile]
    rw [cut]
    apply slice_append
    · simp [backupMagic]
    · rw [nonce.2]
  have nonceSame : (⟨slice (backupFile stamp nonce ciphertext) 16 28, nonceSize⟩ : SizedBytes 12) =
      nonce := Subtype.ext nonceRead
  rw [if_neg (not_not.mpr magic), if_neg (not_not.mpr version), stampRead, nonceSame, drop_backupFile]

/-- What opens is a file, and it opened with what its header says. -/
theorem backupFile_of_decryptBackup
    (opened : decryptBackup crypto format data masterKey = .ok (.ok payload)) :
    ∃ stamp nonce ciphertext, data = backupFile stamp nonce ciphertext ∧
      openBackup crypto format (beNat stamp.1) nonce ciphertext masterKey = .ok payload := by
  by_cases short : data.length < backupHeaderLen + 16
  · rw [decryptBackup, if_pos short] at opened
    cases opened
  · have long := Nat.le_of_not_lt short
    obtain ⟨stampSize, nonceSize⟩ := slices_of_long long
    rw [decryptBackup_of_long long stampSize nonceSize] at opened
    split at opened
    · cases opened
    · rename_i magic
      split at opened
      · cases opened
      · rename_i version
        refine ⟨⟨slice data 8 16, stampSize⟩, ⟨slice data 16 28, nonceSize⟩, data.drop 28, ?_,
          Except.ok.inj opened⟩
        rw [backupFile, ← not_not.mp magic, ← not_not.mp version]
        have inside : 7 < data.length := by
          rw [backupHeaderLen] at long
          omega
        have single : slice data 7 8 = [byteAt data 7] := by
          rw [WireV2.slice_cons (by omega) inside, WireV2.slice_self]
        rw [slice_append_drop data (by omega), slice_append_drop data (by omega), ← single,
          slice_append_drop data (by omega), slice_append_drop data (by omega), List.drop_zero]

end File

section Restore

variable {crypto : Crypto} {format : BackupFormat} {masterKey : SizedBytes 32}

/-- A payload of storable records is written and read back. -/
theorem BackupFormat.Lawful.reads (lawful : format.Lawful) (payload : BackupPayload)
    (storable : ∀ record ∈ payload.keys, record.Storable) : ∃ json,
    format.toVec SecretKeyMaterial.serialize payload = .ok json ∧
      format.fromSlice .deserialize json = .ok payload := by
  obtain ⟨json, written, read⟩ := lawful.roundTrip SecretKeyMaterial.serialize .deserialize payload
  refine ⟨json, written, read.trans (congrArg Except.ok ?_)⟩
  have same : payload.keys.map (fun record => record.mapMaterial fun material =>
      .deserialize material.serialize) = payload.keys := by
    conv_rhs => rw [← List.map_id payload.keys]
    apply List.map_congr_left
    intro record member
    exact (storable record member).mapMaterial
  rw [BackupPayload.mapMaterial, same]

/-- What a creation encrypts. -/
def payloadOf (draw : BackupDraw) (keys : List KeyMetadata) : BackupPayload :=
  ⟨1, draw.createdAt, keys, keys.length⟩

/-- A creation with its text at hand: the cipher takes it or refuses it. -/
theorem createBackup_of_json {draw : BackupDraw} {keys : List KeyMetadata} {json : Bytes}
    (written : format.toVec SecretKeyMaterial.serialize (payloadOf draw keys) = .ok json) :
    createBackup crypto format draw keys masterKey =
      match crypto.aesGcmEncrypt (backupWrapKey crypto masterKey (stampBytes draw.nowUnix.toNat))
        draw.nonce json (stampBytes draw.nowUnix.toNat).1 with
      | none => .error "AES-256-GCM encryption failed"
      | some ciphertext =>
          .ok (backupFile (stampBytes draw.nowUnix.toNat) draw.nonce ciphertext) := by
  unfold payloadOf at written
  unfold createBackup
  simp only [written]
  rfl

/-- What a creation that returned a file encrypted. -/
theorem createBackup_eq_ok {draw : BackupDraw} {keys : List KeyMetadata} {file : Bytes}
    (created : createBackup crypto format draw keys masterKey = .ok file) : ∃ json ciphertext,
    format.toVec SecretKeyMaterial.serialize (payloadOf draw keys) = .ok json ∧
      crypto.aesGcmEncrypt (backupWrapKey crypto masterKey (stampBytes draw.nowUnix.toNat))
        draw.nonce json (stampBytes draw.nowUnix.toNat).1 = some ciphertext ∧
      file = backupFile (stampBytes draw.nowUnix.toNat) draw.nonce ciphertext := by
  cases written : format.toVec SecretKeyMaterial.serialize (payloadOf draw keys) with
  | error error =>
      unfold payloadOf at written
      simp only [createBackup, written] at created
      cases created
  | ok json =>
      rw [createBackup_of_json written] at created
      split at created
      · cases created
      · rename_i ciphertext encrypted
        cases created
        exact ⟨json, ciphertext, rfl, encrypted, rfl⟩

/-- A backup of storable records opens under its master key with everything in it. -/
theorem decryptBackup_createBackup (cryptoLawful : crypto.Lawful) (lawful : format.Lawful)
    {draw : BackupDraw} {keys : List KeyMetadata} {file : Bytes}
    (storable : ∀ record ∈ keys, record.Storable)
    (created : createBackup crypto format draw keys masterKey = .ok file) :
    decryptBackup crypto format file masterKey = .ok (.ok (payloadOf draw keys)) := by
  obtain ⟨json, ciphertext, written, encrypted, rfl⟩ := createBackup_eq_ok created
  have size := cryptoLawful.aesGcmEncrypt_length _ _ _ _ _ encrypted
  have opened := cryptoLawful.aesGcmDecrypt_encrypt _ _ _ _ _ encrypted
  obtain ⟨json', written', read⟩ := lawful.reads (payloadOf draw keys) storable
  have sameJson := Except.ok.inj (written.symm.trans written')
  subst sameJson
  rw [decryptBackup_backupFile (by omega), openBackup, stampBytes_beNat, opened]
  simp only
  rw [read]
  rfl

/-- A backup that was created. -/
structure Backup (crypto : Crypto) (format : BackupFormat) where
  draw : BackupDraw
  keys : List KeyMetadata
  masterKey : SizedBytes 32
  file : Bytes
  returned : createBackup crypto format draw keys masterKey = .ok file

/-- What the cipher sealed for a backup. -/
def Backup.tuple (backup : Backup crypto format) : AeadTuple :=
  let stamp := stampBytes backup.draw.nowUnix.toNat
  ⟨backupWrapKey crypto backup.masterKey stamp, backup.draw.nonce, stamp.1, backup.file.drop 28⟩

/-- The master keys lead to different keys of the cipher. -/
def Envelope.Crypto.DerivesApart (crypto : Crypto) : Prop :=
  ∀ info, Function.Injective fun masterKey : SizedBytes 32 =>
    crypto.hkdfSha256 none masterKey.1 info

/-- What restores is a backup that was created under the same master key. -/
theorem backup_of_decryptBackup {log : Set (Backup crypto format)} (apart : crypto.DerivesApart)
    (ideal : crypto.OpensOnly
      {tuple | (∃ backup ∈ log, backup.tuple = tuple) ∨ tuple.associated.length ≠ 8})
    {data : Bytes} {payload : BackupPayload}
    (opened : decryptBackup crypto format data masterKey = .ok (.ok payload)) :
    ∃ backup ∈ log, backup.masterKey = masterKey ∧ backup.file = data := by
  obtain ⟨stamp, nonce, ciphertext, rfl, opens⟩ := backupFile_of_decryptBackup opened
  rw [openBackup, stampBytes_beNat] at opens
  cases decrypted : crypto.aesGcmDecrypt (backupWrapKey crypto masterKey stamp) nonce ciphertext
    stamp.1 with
  | none =>
      rw [decrypted] at opens
      cases opens
  | some plaintext =>
      rcases ideal _ _ _ _ _ decrypted with ⟨backup, logged, same⟩ | other
      · obtain ⟨json, encrypted, -, -, file⟩ := createBackup_eq_ok backup.returned
        have sameStamp : stampBytes backup.draw.nowUnix.toNat = stamp :=
          Subtype.ext (congrArg AeadTuple.associated same)
        have sameNonce : backup.draw.nonce = nonce := congrArg AeadTuple.nonce same
        have sameRest : backup.file.drop 28 = ciphertext := congrArg AeadTuple.ciphertext same
        have sameKey : backupWrapKey crypto backup.masterKey stamp =
            backupWrapKey crypto masterKey stamp := by
          rw [← sameStamp]
          exact (congrArg AeadTuple.key same).trans (by rw [sameStamp])
        rw [file, drop_backupFile] at sameRest
        refine ⟨backup, logged, apart _ sameKey, ?_⟩
        rw [file, sameStamp, sameNonce, sameRest]
      · exact absurd stamp.2 other

/-- A cipher that takes the text of a backup makes a file of it. -/
theorem exists_createBackup (encrypts : crypto.Encrypts) {draw : BackupDraw}
    {keys : List KeyMetadata} {json : Bytes}
    (written : format.toVec SecretKeyMaterial.serialize (payloadOf draw keys) = .ok json)
    (fits : json.length ≤ 2 ^ 36) :
    ∃ file, createBackup crypto format draw keys masterKey = .ok file := by
  have stampFits : (stampBytes draw.nowUnix.toNat).1.length ≤ 2 ^ 36 := by
    rw [(stampBytes draw.nowUnix.toNat).2]
    decide
  obtain ⟨ciphertext, encrypted⟩ := encrypts
    (backupWrapKey crypto masterKey (stampBytes draw.nowUnix.toNat)) draw.nonce json _ fits
    stampFits
  rw [createBackup_of_json written, encrypted]
  exact ⟨_, rfl⟩

/-- Whatever records the keystore produced, a backup of them is created if their text is no
longer than the cipher takes, and it restores under its master key to the same records. For
a cipher that opens only what backups sealed, any other bytes and a backup under another
master key are answered with an error, and never with a panic. -/
theorem backup_restores_only_backups (ks : Keystore) (crypto : Crypto) (lawful : format.Lawful) :
    (crypto.Lawful → crypto.Encrypts → ∀ keys masterKey draw,
      (∀ record ∈ keys, Produced ks record) →
      (∃ json, format.toVec SecretKeyMaterial.serialize (payloadOf draw keys) = .ok json ∧
        (json.length ≤ 2 ^ 36 →
          ∃ file, createBackup crypto format draw keys masterKey = .ok file)) ∧
      ∀ file, createBackup crypto format draw keys masterKey = .ok file →
        restoreBackup crypto format file masterKey = .ok (.ok keys) ∧
        verifyBackup crypto format file masterKey = .ok (.ok (keys.length, draw.createdAt))) ∧
    ∀ log : Set (Backup crypto format), crypto.DerivesApart →
      crypto.OpensOnly
        {tuple | (∃ backup ∈ log, backup.tuple = tuple) ∨ tuple.associated.length ≠ 8} →
      ∀ data masterKey, (∀ backup ∈ log, backup.masterKey = masterKey → backup.file ≠ data) →
        ∃ error, restoreBackup crypto format data masterKey = .ok (.error error) := by
  constructor
  · intro cryptoLawful encrypts keys masterKey draw produced
    have storable : ∀ record ∈ keys, record.Storable := fun record member =>
      (produced record member).storable
    constructor
    · obtain ⟨json, written, -⟩ := lawful.reads (payloadOf draw keys) storable
      exact ⟨json, written, exists_createBackup encrypts written⟩
    · intro file created
      have opened := decryptBackup_createBackup cryptoLawful lawful storable created
      rw [restoreBackup, verifyBackup, opened]
      exact ⟨rfl, rfl⟩
  · intro log apart ideal data masterKey other
    obtain ⟨result, opened⟩ := exists_decryptBackup crypto format data masterKey
    cases result with
    | error error =>
        refine ⟨error, ?_⟩
        rw [restoreBackup, opened]
        rfl
    | ok payload =>
        obtain ⟨backup, logged, sameKey, sameFile⟩ := backup_of_decryptBackup apart ideal opened
        exact absurd sameFile (other backup logged sameKey)

end Restore

deriving instance Encodable for BackupPayload

/-- The payload that a number encodes. -/
def payloadOfNumber (number : Nat) : Option BackupPayload := Encodable.decode number

/-- The digits of a number that encodes the payload, with the texts of the secret material
in it. -/
def numberBackup : BackupFormat where
  toVec serialize payload :=
    .ok (utf8 (String.ofList (Nat.toDigits 10 (Encodable.encode
      (payload.mapMaterial fun material => .plaintext (serialize material))))))
  fromSlice deserialize bytes :=
    match decodeUtf8 bytes with
    | none => .error "no text"
    | some text =>
        match payloadOfNumber (Nat.ofDigitChars 10 text.toList 0) with
        | none => .error "no payload"
        | some payload =>
            .ok (payload.mapMaterial fun
              | .plaintext raw => deserialize raw
              | material => material)

theorem numberBackup_lawful : numberBackup.Lawful where
  roundTrip serialize deserialize payload := by
    refine ⟨_, rfl, ?_⟩
    have read : ∀ number, Nat.ofDigitChars 10
        (String.ofList (Nat.toDigits 10 number)).toList 0 = number := by
      intro number
      rw [String.toList_ofList, Nat.ofDigitChars_ten_toDigits]
    simp only [numberBackup, decodeUtf8_utf8, read, payloadOfNumber, Encodable.encodek]
    simp [BackupPayload.mapMaterial, KeyMetadata.mapMaterial, Function.comp_def]

/-- The same behind a first byte, but for one payload that is written as a single byte. -/
def shortBackup (short : BackupPayload) : BackupFormat where
  toVec serialize payload :=
    if payload.mapMaterial (fun material => .plaintext (serialize material)) = short then .ok [0]
    else (numberBackup.toVec serialize payload).map (1 :: ·)
  fromSlice deserialize
    | [] => .error "nothing"
    | first :: rest =>
        if first = 0 then
          .ok (short.mapMaterial fun
            | .plaintext raw => deserialize raw
            | material => material)
        else numberBackup.fromSlice deserialize rest

theorem shortBackup_lawful (short : BackupPayload) : (shortBackup short).Lawful where
  roundTrip serialize deserialize payload := by
    by_cases isShort :
        payload.mapMaterial (fun material => .plaintext (serialize material)) = short
    · refine ⟨[0], if_pos isShort, ?_⟩
      simp only [shortBackup, ← isShort, if_true]
      simp [BackupPayload.mapMaterial, KeyMetadata.mapMaterial, Function.comp_def]
    · obtain ⟨bytes, written, read⟩ := numberBackup_lawful.roundTrip serialize deserialize payload
      refine ⟨1 :: bytes, (if_neg isShort).trans ?_, read⟩
      rw [written]
      rfl

/-- A cipher that takes one backup and opens no other. The master key derives itself. -/
def backupCrypto (draw : BackupDraw) (json : Bytes) : Crypto :=
  { registry [(.zeros 32, draw.nonce, json, (stampBytes draw.nowUnix.toNat).1)] with
    hkdfSha256 := fun _ key _ => if exact : key.length = 32 then ⟨key, exact⟩ else .zeros 32 }

section Lone

variable {draw : BackupDraw} {json : Bytes}

theorem backupCrypto_derivesApart : (backupCrypto draw json).DerivesApart := by
  intro info left right same
  have whole : ∀ key : SizedBytes 32, (backupCrypto draw json).hkdfSha256 none key.1 info = key :=
    fun key => dif_pos key.2
  exact (whole left).symm.trans (same.trans (whole right))

end Lone

/-- A backup of a record that the keystore produced is created and restores. With one more
byte it does not. -/
theorem lone_backup_restores : ∃ record short json file,
    let crypto := backupCrypto ⟨0, 0, .zeros 12⟩ json
    Produced plainKeystore record ∧
      (∃ plain,
        createBackup transparent (shortBackup short) ⟨0, 0, .zeros 12⟩ [record] (.zeros 32) =
          .ok plain ∧
        restoreBackup transparent (shortBackup short) plain (.zeros 32) = .ok (.ok [record])) ∧
      createBackup crypto numberBackup ⟨0, 0, .zeros 12⟩ [record] (.zeros 32) = .ok file ∧
      ∃ error, restoreBackup crypto numberBackup (file ++ [0]) (.zeros 32) =
        .ok (.error error) := by
  obtain ⟨record, produced⟩ := exists_produced
  have all : ∀ other ∈ [record], Produced plainKeystore other := by
    intro other member
    rw [List.mem_singleton.mp member]
    exact produced
  let draw : BackupDraw := ⟨0, 0, .zeros 12⟩
  let short := (payloadOf draw [record]).mapMaterial fun material => .plaintext material.serialize
  obtain ⟨restores, -⟩ := backup_restores_only_backups plainKeystore transparent
    (shortBackup_lawful short)
  obtain ⟨⟨text, writes, creates⟩, reads⟩ := restores transparent_lawful
    (fun _ _ message _ _ _ => ⟨message ++ List.replicate 16 0, rfl⟩) [record] (.zeros 32) draw all
  obtain rfl : [0] = text := Except.ok.inj ((if_pos rfl).symm.trans writes)
  obtain ⟨plain, created⟩ := creates (by decide)
  refine ⟨record, short, ?_⟩
  obtain ⟨json, written, -⟩ := numberBackup_lawful.reads (payloadOf draw [record])
    fun other member => (all other member).storable
  have encrypted : (backupCrypto draw json).aesGcmEncrypt (backupWrapKey (backupCrypto draw json)
      (.zeros 32) (stampBytes draw.nowUnix.toNat)) draw.nonce json
      (stampBytes draw.nowUnix.toNat).1 = some (json ++ List.replicate 16 0) :=
    registry_encrypts (List.mem_singleton.mpr rfl)
  have returned : createBackup (backupCrypto draw json) numberBackup draw [record] (.zeros 32) =
      .ok (backupFile (stampBytes draw.nowUnix.toNat) draw.nonce (json ++ List.replicate 16 0)) := by
    rw [createBackup_of_json written, encrypted]
  let backup : Backup (backupCrypto draw json) numberBackup :=
    ⟨draw, [record], .zeros 32, _, returned⟩
  have ideal : (backupCrypto draw json).OpensOnly {tuple |
      (∃ other ∈ ({backup} : Set _), other.tuple = tuple) ∨ tuple.associated.length ≠ 8} := by
    intro key nonce ciphertext associated plaintext decrypted
    obtain ⟨entered, rfl⟩ := registry_decrypt decrypted
    left
    refine ⟨backup, rfl, ?_⟩
    cases List.mem_singleton.mp entered
    have rest : backup.file.drop 28 = json ++ List.replicate 16 0 := drop_backupFile _ _ _
    rw [Backup.tuple, rest]
    rfl
  obtain ⟨-, refuses⟩ := backup_restores_only_backups plainKeystore (backupCrypto draw json)
    numberBackup_lawful
  refine ⟨json, backup.file, produced, ⟨plain, created, (reads plain created).1⟩,
    backup.returned, ?_⟩
  apply refuses {backup} backupCrypto_derivesApart ideal
  rintro other rfl _ same
  have longer := congrArg List.length same
  rw [List.length_append, List.length_singleton] at longer
  omega

end Citadel
