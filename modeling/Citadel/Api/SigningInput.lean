import Citadel.Api.Assertions
import Citadel.Data.Delimited
import Citadel.Data.Json

/-!
# What a signature covers

The signing input of an assertion is the compact text of an object with its fields, sorted by name
at every depth. It determines every field but the signature, and the claims up to the order in
which their objects are written.
-/

namespace Citadel.Api

/-- What the assertions take from the JSON library and the clock library: the numbers and their
texts, the conversion of integers, and `Utc::timestamp_opt`. -/
structure JsonLibrary where
  Number : Type
  printer : Json.Printer Number
  /-- `Number::from`. -/
  ofInt : Int → Number
  timestampOpt : Int → Option Int

/-- Values are told apart by their texts, and integers are told apart as values. -/
structure JsonLibrary.Lawful (json : JsonLibrary) : Prop where
  printer : json.printer.Lawful
  ofInt_injective : Function.Injective json.ofInt

/-- `serde_json::Value`: no object has a key twice. -/
def JsonLibrary.Value (json : JsonLibrary) : Type := {value : Json json.Number // value.Distinct}

/-- `serde_json::to_string` of an object. Its map keeps the keys sorted. -/
def JsonLibrary.objectToString (json : JsonLibrary) (fields : List (String × json.Value)) : String :=
  let object : Json json.Number := .object (fields.map fun field => (field.1, field.2.1))
  String.ofList (object.sorted.print json.printer)

/-- The libraries of the assertions, with the values of JSON. -/
def jsonLibraries (json : JsonLibrary) : AssertionLibraries where
  Value := json.Value
  string text := ⟨.string text, Json.distinct_string text⟩
  number value := ⟨.number (json.ofInt value), Json.distinct_number _⟩
  objectToString fields := .ok (json.objectToString fields)
  timestampOpt := json.timestampOpt

namespace CitadelAssertion

variable {json : JsonLibrary}

/-- Two assertions have the same fields but for the signature. -/
structure AgreesWith (left right : CitadelAssertion json.Value) : Prop where
  version : left.version = right.version
  suite : left.suite = right.suite
  signingKeyId : left.signingKeyId = right.signingKeyId
  signingKeyVersion : left.signingKeyVersion = right.signingKeyVersion
  issuedAt : left.issuedAt = right.issuedAt
  expiresAt : left.expiresAt = right.expiresAt
  assertionId : left.assertionId = right.assertionId
  publicClaims : left.publicClaims.1.Same right.publicClaims.1
  sealedClaimsHex : left.sealedClaimsHex = right.sealedClaimsHex
  sealedClaimsKeyId : left.sealedClaimsKeyId = right.sealedClaimsKeyId
  sealedClaimsKeyVersion : left.sealedClaimsKeyVersion = right.sealedClaimsKeyVersion

/-- The fields that are signed, as JSON. -/
def jsonFields (assertion : CitadelAssertion json.Value) : List (String × Json json.Number) :=
  (assertion.fields (jsonLibraries json)).map fun field => (field.1, field.2.1)

theorem canonicalSigningInput_json (assertion : CitadelAssertion json.Value) :
    assertion.canonicalSigningInput (jsonLibraries json) =
      .ok (utf8 (String.ofList
        ((Json.object assertion.jsonFields).sorted.print json.printer))) := rfl

/-- The names of the fields are distinct, whichever optional ones are there. -/
theorem names_jsonFields (assertion : CitadelAssertion json.Value) :
    (assertion.jsonFields.map Prod.fst).Nodup := by
  unfold jsonFields fields
  cases assertion.sealedClaimsHex <;> cases assertion.sealedClaimsKeyId <;>
    cases assertion.sealedClaimsKeyVersion <;> simp

theorem distinct_jsonFields (assertion : CitadelAssertion json.Value) :
    (Json.object assertion.jsonFields).Distinct := by
  apply Json.distinct_object assertion.names_jsonFields
  intro field member
  obtain ⟨signed, -, rfl⟩ := List.mem_map.mp member
  exact signed.2.2

/-- The input is determined by the value of the object that is signed. -/
theorem canonicalSigningInput_eq_iff_same (lawful : json.Lawful)
    (left right : CitadelAssertion json.Value) :
    left.canonicalSigningInput (jsonLibraries json) =
        right.canonicalSigningInput (jsonLibraries json) ↔
      (Json.object left.jsonFields).Same (.object right.jsonFields) := by
  rw [← Json.sorted_eq_iff_same left.distinct_jsonFields right.distinct_jsonFields,
    canonicalSigningInput_json, canonicalSigningInput_json]
  constructor
  · intro equal
    have texts := String.ofList_injective (utf8_injective (Except.ok.inj equal))
    exact Json.print_injective lawful.printer texts
  · intro equal
    rw [equal]

theorem lookup_sealedClaims (assertion : CitadelAssertion json.Value) :
    assertion.jsonFields.lookup "sealed_claims_hex" = assertion.sealedClaimsHex.map .string ∧
      assertion.jsonFields.lookup "sealed_claims_key_id" =
        assertion.sealedClaimsKeyId.map .string ∧
      assertion.jsonFields.lookup "sealed_claims_key_version" =
        assertion.sealedClaimsKeyVersion.map fun version : Nat => .number (json.ofInt version) := by
  unfold jsonFields fields
  cases assertion.sealedClaimsHex <;> cases assertion.sealedClaimsKeyId <;>
    cases assertion.sealedClaimsKeyVersion <;> exact ⟨rfl, rfl, rfl⟩

/-- An optional part is told apart from its absence and by its value. -/
theorem option_eq_of_sameParts {α : Type} {write : α → Json json.Number} {one other : Option α}
    (parts : Json.SameParts (one.map write) (other.map write))
    (apart : ∀ left right, (write left).Same (write right) → left = right) : one = other := by
  cases one with
  | none =>
      cases other with
      | none => rfl
      | some value => cases parts
  | some value =>
      cases other with
      | none => cases parts
      | some second => exact congrArg some (apart _ _ parts)

/-- What is signed shows every field. -/
theorem agreesWith_of_same (lawful : json.Lawful) {left right : CitadelAssertion json.Value}
    (same : (Json.object left.jsonFields).Same (.object right.jsonFields)) :
    left.AgreesWith right := by
  have found : ∀ name, Json.SameParts (left.jsonFields.lookup name) (right.jsonFields.lookup name) :=
    fun name => same.child (.key name)
  have text : ∀ one other : String, (Json.string one : Json json.Number).Same (.string other) →
      one = other := by
    intro one other values
    cases values.kind
    rfl
  have integer : ∀ one other : Int,
      (Json.number (json.ofInt one)).Same (.number (json.ofInt other)) → one = other := by
    intro one other values
    exact lawful.ofInt_injective (Json.Kind.number.inj values.kind)
  have natural : ∀ one other : Nat,
      (Json.number (json.ofInt one)).Same (.number (json.ofInt other)) → one = other := by
    intro one other values
    exact Int.ofNat_inj.mp (integer _ _ values)
  obtain ⟨leftHex, leftId, leftVersion⟩ := left.lookup_sealedClaims
  obtain ⟨rightHex, rightId, rightVersion⟩ := right.lookup_sealedClaims
  constructor
  · exact text _ _ (found "version")
  · exact text _ _ (found "suite")
  · exact text _ _ (found "signing_key_id")
  · exact natural _ _ (found "signing_key_version")
  · exact integer _ _ (found "issued_at")
  · exact integer _ _ (found "expires_at")
  · exact text _ _ (found "assertion_id")
  · exact found "public_claims"
  · exact option_eq_of_sameParts (leftHex ▸ rightHex ▸ found "sealed_claims_hex") text
  · exact option_eq_of_sameParts (leftId ▸ rightId ▸ found "sealed_claims_key_id") text
  · exact option_eq_of_sameParts (leftVersion ▸ rightVersion ▸ found "sealed_claims_key_version")
      natural

/-- The same fields are signed alike, in whatever order the claims are written. -/
theorem same_of_agreesWith {left right : CitadelAssertion json.Value}
    (agrees : left.AgreesWith right) :
    (Json.object left.jsonFields).Same (.object right.jsonFields) := by
  obtain ⟨version, suite, id, number, issued, expires, assertionId, claims, hex, keyId,
    keyVersion⟩ := agrees
  have alike : ∀ fields : List (String × Json json.Number),
      List.Forall₂ (fun field other => field.1 = other.1 ∧ field.2.Same other.2) fields fields :=
    fun fields => List.forall₂_same.mpr fun field _ => ⟨rfl, .refl field.2⟩
  apply Json.same_object
  unfold jsonFields fields
  rw [version, suite, id, number, issued, expires, assertionId, hex, keyId, keyVersion]
  -- the claims are the eighth field, and the only one that may be written differently
  exact .cons ⟨rfl, .refl _⟩ (.cons ⟨rfl, .refl _⟩ (.cons ⟨rfl, .refl _⟩ (.cons ⟨rfl, .refl _⟩
    (.cons ⟨rfl, .refl _⟩ (.cons ⟨rfl, .refl _⟩ (.cons ⟨rfl, .refl _⟩
      (.cons ⟨rfl, claims⟩ (alike _))))))))

/-- The signing inputs of two assertions are equal exactly when all their fields but the signature
are, with claims that show the same at every path. -/
theorem signing_input_eq_iff (lawful : json.Lawful) (left right : CitadelAssertion json.Value) :
    left.canonicalSigningInput (jsonLibraries json) =
        right.canonicalSigningInput (jsonLibraries json) ↔ left.AgreesWith right := by
  rw [canonicalSigningInput_eq_iff_same lawful]
  constructor
  · exact agreesWith_of_same lawful
  · exact same_of_agreesWith

end CitadelAssertion

/-! ### A JSON library of integers -/

/-- `\\u00` and the code of a control character. -/
def controlEscape (code : Nat) : List Char :=
  ['\\', 'u', '0', '0', Nat.digitChar (code / 16), Nat.digitChar (code % 16)]

/-- The escapes of the library. -/
def jsonEscape (character : Char) : List Char :=
  if character = '"' then ['\\', '"']
  else if character = '\\' then ['\\', '\\']
  else if 32 ≤ character.toNat then [character]
  else if character.toNat = 8 then ['\\', 'b']
  else if character.toNat = 9 then ['\\', 't']
  else if character.toNat = 10 then ['\\', 'n']
  else if character.toNat = 12 then ['\\', 'f']
  else if character.toNat = 13 then ['\\', 'r']
  else controlEscape character.toNat

/-- The decimal text of an integer. -/
def decimal (value : Int) : List Char :=
  if value < 0 then '-' :: Nat.toDigits 10 value.natAbs else Nat.toDigits 10 value.natAbs

/-- A JSON library whose numbers are integers. -/
def integerJson : JsonLibrary where
  Number := Int
  printer := ⟨jsonEscape, decimal⟩
  ofInt value := value
  timestampOpt := some

/-- The characters that are escaped. -/
def escapedChars : List Char := '"' :: '\\' :: (List.range 32).map Char.ofNat

theorem jsonEscape_cases (character : Char) :
    (jsonEscape character = [character] ∧ character ≠ '"' ∧ character ≠ '\\') ∨
      character ∈ escapedChars := by
  unfold jsonEscape
  by_cases quoted : character = '"'
  · right
    simp [escapedChars, quoted]
  · by_cases backslash : character = '\\'
    · right
      simp [escapedChars, backslash]
    · rw [if_neg quoted, if_neg backslash]
      by_cases printable : 32 ≤ character.toNat
      · left
        rw [if_pos printable]
        exact ⟨rfl, quoted, backslash⟩
      · right
        apply List.mem_cons_of_mem
        apply List.mem_cons_of_mem
        exact List.mem_map.mpr ⟨character.toNat, List.mem_range.mpr (by omega),
          Char.ofNat_toNat character⟩

theorem escaped_starts : ∀ character ∈ escapedChars,
    (jsonEscape character).head? = some '\\' ∧ 2 ≤ (jsonEscape character).length := by
  have checked : (escapedChars.all fun character => decide
      ((jsonEscape character).head? = some '\\' ∧ 2 ≤ (jsonEscape character).length)) = true := by
    decide
  intro character member
  exact of_decide_eq_true (List.all_eq_true.mp checked character member)

theorem escaped_apart : ∀ left ∈ escapedChars, ∀ right ∈ escapedChars,
    jsonEscape left <+: jsonEscape right → left = right := by
  have checked : (escapedChars.all fun left => escapedChars.all fun right =>
      decide (jsonEscape left <+: jsonEscape right → left = right)) = true := by
    decide +kernel
  intro left leftEscaped right rightEscaped
  have apart := List.all_eq_true.mp checked left leftEscaped
  exact of_decide_eq_true (List.all_eq_true.mp apart right rightEscaped)

/-- No escape begins another one. -/
theorem jsonEscape_apart {left right : Char} (front : jsonEscape left <+: jsonEscape right) :
    left = right := by
  rcases jsonEscape_cases left with ⟨leftPlain, -, leftBare⟩ | leftEscaped
  · rcases jsonEscape_cases right with ⟨rightPlain, -, -⟩ | rightEscaped
    · rw [leftPlain, rightPlain] at front
      simpa using front
    · obtain ⟨rest, same⟩ := front
      have head := (escaped_starts right rightEscaped).1
      rw [← same, leftPlain] at head
      exact absurd (Option.some.inj head) leftBare
  · rcases jsonEscape_cases right with ⟨rightPlain, -, -⟩ | rightEscaped
    · have long := (escaped_starts left leftEscaped).2
      have short := front.length_le
      rw [rightPlain, List.length_singleton] at short
      omega
    · exact escaped_apart left leftEscaped right rightEscaped front

theorem decimal_ne_nil (value : Int) : decimal value ≠ [] := by
  unfold decimal
  split
  · exact List.cons_ne_nil _ _
  · exact Nat.toDigits_ne_nil

theorem decimal_chars (value : Int) : ∀ character ∈ decimal value,
    Json.isNumberChar character = true := by
  have digits : ∀ number : Nat, ∀ character ∈ Nat.toDigits 10 number,
      Json.isNumberChar character = true := by
    intro number character member
    have digit := Nat.isDigit_of_mem_toDigits (by decide) (by decide) member
    simp [Json.isNumberChar, digit]
  intro character member
  unfold decimal at member
  split at member
  · rcases List.mem_cons.mp member with rfl | later
    · decide
    · exact digits _ _ later
  · exact digits _ _ member

theorem minus_ne_toDigits (number : Nat) (rest : List Char) :
    '-' :: rest ≠ Nat.toDigits 10 number := by
  intro same
  have digit := Nat.isDigit_of_mem_toDigits (b := 10) (n := number) (c := '-') (by decide)
    (by decide) (same ▸ List.mem_cons_self)
  exact absurd digit (by decide)

theorem decimal_injective : Function.Injective decimal := by
  intro left right same
  unfold decimal at same
  split at same
  · split at same
    · have sizes := toDigits_injective (List.cons.inj same).2
      omega
    · exact absurd same (minus_ne_toDigits _ _)
  · split at same
    · exact absurd same.symm (minus_ne_toDigits _ _)
    · have sizes := toDigits_injective same
      omega

theorem integerJson_lawful : integerJson.Lawful where
  printer :=
    { escape_starts := by
        intro character
        rcases jsonEscape_cases character with ⟨plain, bare, -⟩ | escaped
        · exact ⟨character, [], plain, bare⟩
        · have head := (escaped_starts character escaped).1
          obtain ⟨rest, starts⟩ := List.head?_eq_some_iff.mp head
          exact ⟨'\\', rest, starts, by decide⟩
      escape_apart := by
        intro left right leftRest rightRest equal
        have front : jsonEscape left <+: jsonEscape right ∨ jsonEscape right <+: jsonEscape left :=
          List.prefix_or_prefix_of_prefix ⟨leftRest, rfl⟩ ⟨rightRest, equal.symm⟩
        have same : left = right := by
          rcases front with before | after
          · exact jsonEscape_apart before
          · exact (jsonEscape_apart after).symm
        subst same
        exact ⟨rfl, List.append_cancel_left equal⟩
      number_ne_nil := decimal_ne_nil
      number_chars := decimal_chars
      number_injective := decimal_injective }
  ofInt_injective := fun _ _ same => same

/-- Claims whose objects are written in the order of their names. -/
def orderedClaims : Json Int :=
  .object [("a", .number 1), ("nested", .object [("x", .number 2), ("y", .string "3")])]

/-- The same claims, written in another order. -/
def reorderedClaims : Json Int :=
  .object [("nested", .object [("y", .string "3"), ("x", .number 2)]), ("a", .number 1)]

theorem orderedClaims_distinct : orderedClaims.Distinct := by
  have nested : (Json.object [("x", .number 2), ("y", .string "3")] : Json Int).Distinct :=
    Json.distinct_object (by decide) (List.forall_mem_cons.mpr ⟨Json.distinct_number _,
      List.forall_mem_singleton.mpr (Json.distinct_string _)⟩)
  exact Json.distinct_object (by decide) (List.forall_mem_cons.mpr ⟨Json.distinct_number _,
    List.forall_mem_singleton.mpr nested⟩)

theorem reorderedClaims_distinct : reorderedClaims.Distinct := by
  have nested : (Json.object [("y", .string "3"), ("x", .number 2)] : Json Int).Distinct :=
    Json.distinct_object (by decide) (List.forall_mem_cons.mpr ⟨Json.distinct_string _,
      List.forall_mem_singleton.mpr (Json.distinct_number _)⟩)
  exact Json.distinct_object (by decide) (List.forall_mem_cons.mpr ⟨nested,
    List.forall_mem_singleton.mpr (Json.distinct_number _)⟩)

/-- An assertion with these claims. -/
def claiming (claims : integerJson.Value) : CitadelAssertion integerJson.Value :=
  ⟨cnaVersion, "ml-dsa-65", "k", 1, 0, 60, "00", claims, none, some "d", none, ""⟩

/-- Claims that are written in two orders are signed alike. -/
theorem reordered_claims_signed_alike :
    (claiming ⟨orderedClaims, orderedClaims_distinct⟩).canonicalSigningInput
        (jsonLibraries integerJson) =
      (claiming ⟨reorderedClaims, reorderedClaims_distinct⟩).canonicalSigningInput
        (jsonLibraries integerJson) := by
  have same : orderedClaims.Same reorderedClaims :=
    (Json.sorted_eq_iff_same orderedClaims_distinct reorderedClaims_distinct).mp rfl
  exact (CitadelAssertion.signing_input_eq_iff integerJson_lawful _ _).mpr
    ⟨rfl, rfl, rfl, rfl, rfl, rfl, rfl, same, rfl, rfl, rfl⟩

end Citadel.Api
