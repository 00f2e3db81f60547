import Citadel.Audit.Log

/-!
# A log format to run the model with

The events differ in one field, whether the action succeeded. The text is the one that
`serde_json` gives such an event; the parser reads texts of this form and no others. The
hash is the length of the text.
-/

namespace Citadel.Audit

/-- The fields before the one that differs, without the opening brace. -/
def plainStart : String :=
  "\"timestamp\":\"2026-01-01T00:00:00Z\",\"key_id\":null,\"key_type\":null," ++
    "\"key_state\":null,\"action\":\"KeyGenerated\",\"actor\":\"system\",\"success\":"

/-- The field that differs, up to the chain fields. -/
def plainSuccess (success : Bool) : String :=
  (if success then "true" else "false") ++ ",\"detail\":null"

/-- The text of an event. Chain fields that are missing are left out. -/
def plainSerialize (event : AuditEvent Bool) : String :=
  "\x7b" ++ (plainStart ++ (plainSuccess event.body ++
    ((match event.sequence with
      | some sequence => ",\"sequence\":" ++ String.ofList (Nat.toDigits 10 sequence)
      | none => "") ++
    ((match event.prevHash with
      | some prevHash => ",\"prev_hash\":\"" ++ prevHash ++ "\""
      | none => ""))))) ++ "\x7d"

/-- What follows a known beginning. -/
def dropStart (start text : List Char) : Option (List Char) :=
  if start.isPrefixOf text then some (text.drop start.length) else none

@[simp] theorem dropStart_append (start rest : List Char) :
    dropStart start (start ++ rest) = some rest := by
  simp [dropStart]

/-- Read the fields after the head. -/
def plainTail (success : Bool) (text : List Char) : Option Value := do
  let text ← dropStart ",\"sequence\":".toList text
  let digits := text.takeWhile Char.isDigit
  let text ← dropStart ",\"prev_hash\":\"".toList (text.dropWhile Char.isDigit)
  let prevHash := text.take 64
  if text.drop 64 ≠ "\"\x7d".toList then none
  else
    some (.object [("timestamp", .string "2026-01-01T00:00:00Z"), ("key_id", .null),
      ("key_type", .null), ("key_state", .null), ("action", .string "KeyGenerated"),
      ("actor", .string "system"), ("success", .bool success), ("detail", .null),
      ("sequence", .number (.posInt (UInt64.ofNat (Nat.ofDigitChars 10 digits 0)))),
      ("prev_hash", .string (String.ofList prevHash))])

/-- Read the field that differs and what follows. -/
def plainRest (text : List Char) : Option Value :=
  match dropStart (plainSuccess true).toList text with
  | some rest => plainTail true rest
  | none => (dropStart (plainSuccess false).toList text).bind (plainTail false)

/-- Read a text of this form. -/
def plainParse (text : String) : Option Value := do
  let text ← dropStart ['\x7b'] text.toList
  let text ← dropStart plainStart.toList text
  plainRest text

/-- The length of a text as its hash. -/
def lengthHash (bytes : Bytes) : SizedBytes 32 :=
  ⟨beBytes 8 bytes.length ++ List.replicate 24 0, by simp⟩

/-- The format. -/
def plainFormat : LogFormat Bool where
  serialize := plainSerialize
  parse := plainParse
  sha256 := lengthHash

theorem takeWhile_digits (number : Nat) (rest : List Char) :
    (Nat.toDigits 10 number ++ ',' :: rest).takeWhile Char.isDigit = Nat.toDigits 10 number := by
  rw [List.takeWhile_append_of_pos]
  · simp
  · intro digit member
    exact Nat.isDigit_of_mem_toDigits (by decide) (by decide) member

theorem dropWhile_digits (number : Nat) (rest : List Char) :
    (Nat.toDigits 10 number ++ ',' :: rest).dropWhile Char.isDigit = ',' :: rest := by
  rw [List.dropWhile_append_of_pos]
  · simp
  · intro digit member
    exact Nat.isDigit_of_mem_toDigits (by decide) (by decide) member

theorem plainTail_eq (success : Bool) (sequence : Nat) {hex : List Char}
    (length : hex.length = 64) :
    ∃ value, plainTail success (",\"sequence\":".toList ++ (Nat.toDigits 10 sequence ++
        (",\"prev_hash\":\"".toList ++ (hex ++ "\"\x7d".toList)))) = some value ∧
      (value.get "sequence").bind Value.asU64 = some (UInt64.ofNat sequence).toNat ∧
      (value.get "prev_hash").bind Value.asStr = some (String.ofList hex) := by
  have comma : ∀ rest, ",\"prev_hash\":\"".toList ++ rest =
      ',' :: ("\"prev_hash\":\"".toList ++ rest) := fun _ => rfl
  rw [plainTail, dropStart_append, Option.bind_eq_bind, Option.bind_some, comma,
    takeWhile_digits, dropWhile_digits, ← comma, dropStart_append, Option.bind_some,
    Nat.ofDigitChars_ten_toDigits]
  have taken : (hex ++ "\"\x7d".toList).take 64 = hex := by
    rw [← length, List.take_left]
  have dropped : (hex ++ "\"\x7d".toList).drop 64 = "\"\x7d".toList := by
    rw [← length, List.drop_left]
  rw [taken, dropped, if_neg (not_not.mpr rfl)]
  exact ⟨_, rfl, rfl, rfl⟩

/-- Both values of the field are read back. -/
theorem plainRest_append (success : Bool) (rest : List Char) :
    plainRest ((plainSuccess success).toList ++ rest) = plainTail success rest := by
  cases success with
  | true => rw [plainRest, dropStart_append]
  | false =>
      have other : dropStart (plainSuccess true).toList ((plainSuccess false).toList ++ rest) =
          none := rfl
      rw [plainRest, other, dropStart_append]
      rfl

theorem hexEncode_toList_length (digest : SizedBytes 32) :
    (hexEncode digest.1).toList.length = 64 := by
  simp [hexEncode]

theorem newline_not_mem_hexEncode (bytes : Bytes) : '\n' ∉ (hexEncode bytes).toList := by
  have digits : ∀ value < 16, Char.ofNat (hexDigit value).toNat ≠ '\n' := by decide
  simp only [hexEncode, hexBytes, String.toList_ofList, List.map_flatMap, List.mem_flatMap,
    List.map_cons, List.map_nil, List.mem_cons, List.not_mem_nil, or_false, not_exists, not_and,
    not_or]
  intro byte _
  have small := byte.toNat_lt
  exact ⟨(digits (byte.toNat / 16) (by omega)).symm, (digits (byte.toNat % 16) (by omega)).symm⟩

/-- The characters of a stamped event. -/
theorem plainSerialize_toList {event : AuditEvent Bool} {sequence : Nat} {prevHash : String}
    (isSequence : event.sequence = some sequence) (isHash : event.prevHash = some prevHash) :
    (plainSerialize event).toList = ['\x7b'] ++ (plainStart.toList ++
      ((plainSuccess event.body).toList ++ (",\"sequence\":".toList ++ (Nat.toDigits 10 sequence ++
        (",\"prev_hash\":\"".toList ++ (prevHash.toList ++ "\"\x7d".toList)))))) := by
  simp [plainSerialize, isSequence, isHash]

theorem plainFormat_lawful : plainFormat.Lawful where
  fields event stamp := by
    obtain ⟨sequence, small, isSequence⟩ := stamp.sequence
    obtain ⟨digest, isHash⟩ := stamp.prevHash
    obtain ⟨value, parsed, sequenceField, hashField⟩ := plainTail_eq event.body sequence
      (hexEncode_toList_length digest)
    rw [UInt64.toNat_ofNat_of_lt' small, ← isSequence] at sequenceField
    rw [String.ofList_toList, ← isHash] at hashField
    refine ⟨value, ?_, sequenceField, hashField⟩
    change plainParse (plainSerialize event) = some value
    rw [plainParse, plainSerialize_toList isSequence isHash, dropStart_append, Option.bind_eq_bind,
      Option.bind_some, dropStart_append, Option.bind_some, plainRest_append, parsed]
  braced event stamp := ⟨_, rfl⟩
  oneLine event stamp := by
    obtain ⟨sequence, small, isSequence⟩ := stamp.sequence
    obtain ⟨digest, isHash⟩ := stamp.prevHash
    change '\n' ∉ (plainSerialize event).toList
    rw [plainSerialize_toList isSequence isHash]
    have start : '\n' ∉ plainStart.toList := by decide +kernel
    have success : '\n' ∉ (plainSuccess event.body).toList := by
      cases event.body <;> decide
    have digits : '\n' ∉ Nat.toDigits 10 sequence := by
      intro member
      exact absurd (Nat.isDigit_of_mem_toDigits (by decide) (by decide) member) (by decide)
    simp [start, success, digits, newline_not_mem_hexEncode digest.1]
  genesis := rfl

end Citadel.Audit
