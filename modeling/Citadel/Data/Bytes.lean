import Mathlib.Data.List.Basic
import Mathlib.Data.UInt

/-!
# Byte strings, big-endian integers and hexadecimal text

Byte strings are lists of bytes and fixed-size arrays are lists with a proof of
their length. Text is Lean's `String`, read through its UTF-8 bytes, because the
code slices and decodes text byte by byte.
-/

namespace Citadel

/-- A byte string (`Vec<u8>`, `&[u8]`). -/
abbrev Bytes := List UInt8

/-- A byte array of known size (`[u8; count]`). -/
abbrev SizedBytes (count : Nat) := {bytes : Bytes // bytes.length = count}

namespace SizedBytes

@[simp] theorem length {count : Nat} (bytes : SizedBytes count) : bytes.1.length = count :=
  bytes.2

/-- The array of zeros. -/
def zeros (count : Nat) : SizedBytes count :=
  ⟨List.replicate count 0, List.length_replicate⟩

end SizedBytes

/-- The bytes of a text. -/
def utf8 (text : String) : Bytes :=
  text.toByteArray.data.toList

@[simp] theorem utf8_append (left right : String) :
    utf8 (left ++ right) = utf8 left ++ utf8 right := by
  simp [utf8, String.toByteArray_append]

/-- Text is determined by its bytes. -/
theorem utf8_injective : Function.Injective utf8 := by
  intro left right equal
  apply String.toByteArray_inj.mp
  apply ByteArray.ext
  exact Array.toList_inj.mp equal

/-- The `width` low bytes of a number, most significant first (`to_be_bytes`). -/
def beBytes : Nat → Nat → Bytes
  | 0, _ => []
  | width + 1, value => beBytes width (value / 256) ++ [UInt8.ofNat value]

/-- The number a byte string spells, most significant byte first (`from_be_bytes`). -/
def beNat (bytes : Bytes) : Nat :=
  bytes.foldl (fun value byte => value * 256 + byte.toNat) 0

@[simp] theorem beBytes_length (width value : Nat) : (beBytes width value).length = width := by
  induction width generalizing value with
  | zero => rfl
  | succ width ih => simp [beBytes, ih]

theorem beNat_append_singleton (bytes : Bytes) (byte : UInt8) :
    beNat (bytes ++ [byte]) = beNat bytes * 256 + byte.toNat := by
  simp [beNat]

/-- Reading back what was written keeps the low bytes. -/
theorem beNat_beBytes (width value : Nat) : beNat (beBytes width value) = value % 256 ^ width := by
  induction width generalizing value with
  | zero => simp [beBytes, beNat, Nat.mod_one]
  | succ width ih =>
      rw [beBytes, beNat_append_singleton, ih, pow_succ', Nat.mod_mul]
      simp only [UInt8.toNat_ofNat']
      omega

/-- A number that fits is read back unchanged. -/
theorem beNat_beBytes_of_lt {width value : Nat} (fits : value < 256 ^ width) :
    beNat (beBytes width value) = value := by
  rw [beNat_beBytes, Nat.mod_eq_of_lt fits]

/-- The ASCII code of a lower-case hexadecimal digit. -/
def hexDigit (value : Nat) : UInt8 :=
  UInt8.ofNat (if value < 10 then 48 + value else 87 + value)

/-- The ASCII bytes of `hex::encode`. -/
def hexBytes (bytes : Bytes) : Bytes :=
  bytes.flatMap fun byte => [hexDigit (byte.toNat / 16), hexDigit (byte.toNat % 16)]

/-- `hex::encode`. -/
def hexEncode (bytes : Bytes) : String :=
  String.ofList ((hexBytes bytes).map fun byte => Char.ofNat byte.toNat)

/-- Why a text is not hexadecimal (`hex::FromHexError`). -/
inductive FromHexError where
  | oddLength
  | invalidHexCharacter (character : Char) (index : Nat)
  deriving DecidableEq, Repr

/-- The text of a `FromHexError`. -/
def FromHexError.display : FromHexError → String
  | .oddLength => "Odd number of digits"
  | .invalidHexCharacter character index =>
      s!"Invalid character '{character}' at position {index}"

/-- The value of one hexadecimal digit, of either case. -/
def hexValue (byte : UInt8) : Option Nat :=
  let code := byte.toNat
  if 65 ≤ code ∧ code ≤ 70 then some (code - 55)
  else if 97 ≤ code ∧ code ≤ 102 then some (code - 87)
  else if 48 ≤ code ∧ code ≤ 57 then some (code - 48)
  else none

/-- Decode the digit pairs of a text of even length. -/
def hexDecodePairs : Nat → Bytes → Except FromHexError Bytes
  | index, high :: low :: rest =>
      match hexValue high with
      | none => .error (.invalidHexCharacter (Char.ofNat high.toNat) index)
      | some highValue =>
          match hexValue low with
          | none => .error (.invalidHexCharacter (Char.ofNat low.toNat) (index + 1))
          | some lowValue =>
              (hexDecodePairs (index + 2) rest).map (UInt8.ofNat (highValue * 16 + lowValue) :: ·)
  | _, _ => .ok []

/-- `hex::decode`, on the bytes of a text. -/
def hexDecode (text : Bytes) : Except FromHexError Bytes :=
  if text.length % 2 ≠ 0 then .error .oddLength else hexDecodePairs 0 text

theorem hexDigit_toNat {value : Nat} (digit : value < 16) :
    (hexDigit value).toNat = if value < 10 then 48 + value else 87 + value := by
  unfold hexDigit
  split <;> simp only [UInt8.toNat_ofNat'] <;> omega

/-- A digit is read back. -/
theorem hexValue_hexDigit {value : Nat} (digit : value < 16) :
    hexValue (hexDigit value) = some value := by
  have code := hexDigit_toNat digit
  unfold hexValue
  split at code
  all_goals
    simp only [code]
    repeat' split
    all_goals simp_all
    all_goals omega

@[simp] theorem hexBytes_length (bytes : Bytes) :
    (hexBytes bytes).length = 2 * bytes.length := by
  induction bytes with
  | nil => rfl
  | cons byte rest ih =>
      simp only [hexBytes, List.flatMap_cons, List.length_append, List.length_cons,
        List.length_nil] at ih ⊢
      omega

/-- Every byte of a hexadecimal text is a digit. -/
theorem mem_hexBytes {bytes : Bytes} {byte : UInt8} (member : byte ∈ hexBytes bytes) :
    ∃ value < 16, byte = hexDigit value := by
  simp only [hexBytes, List.mem_flatMap, List.mem_cons, List.not_mem_nil, or_false] at member
  obtain ⟨source, -, digit⟩ := member
  have bound : source.toNat < 256 := source.toNat_lt
  rcases digit with high | low
  · exact ⟨source.toNat / 16, by omega, high⟩
  · exact ⟨source.toNat % 16, by omega, low⟩

theorem hexBytes_append (left right : Bytes) :
    hexBytes (left ++ right) = hexBytes left ++ hexBytes right := by
  simp [hexBytes]

/-- Hexadecimal text is ASCII. -/
theorem hexBytes_ascii {bytes : Bytes} {byte : UInt8} (member : byte ∈ hexBytes bytes) :
    byte.toNat < 128 := by
  obtain ⟨value, small, rfl⟩ := mem_hexBytes member
  rw [hexDigit_toNat small]
  split <;> omega

/-- Digits are read back, wherever they stand. -/
theorem hexDecodePairs_hexBytes (index : Nat) (bytes : Bytes) :
    hexDecodePairs index (hexBytes bytes) = .ok bytes := by
  induction bytes generalizing index with
  | nil => rfl
  | cons byte rest ih =>
      have bound : byte.toNat < 256 := byte.toNat_lt
      have high : byte.toNat / 16 < 16 := by omega
      have low : byte.toNat % 16 < 16 := by omega
      have joined : byte.toNat / 16 * 16 + byte.toNat % 16 = byte.toNat := by omega
      have split : hexBytes (byte :: rest) =
          hexDigit (byte.toNat / 16) :: hexDigit (byte.toNat % 16) :: hexBytes rest := rfl
      rw [split, hexDecodePairs]
      simp only [hexValue_hexDigit high, hexValue_hexDigit low, joined, ih]
      simp [Except.map]

/-- Decoding undoes encoding. -/
@[simp] theorem hexDecode_hexBytes (bytes : Bytes) : hexDecode (hexBytes bytes) = .ok bytes := by
  rw [hexDecode, if_neg, hexDecodePairs_hexBytes]
  rw [hexBytes_length]
  omega

private theorem utf8_ofList_ascii {codes : Bytes} (ascii : ∀ byte ∈ codes, byte.toNat < 128) :
    utf8 (String.ofList (codes.map fun byte => Char.ofNat byte.toNat)) = codes := by
  induction codes with
  | nil => rfl
  | cons byte rest ih =>
      have small : byte.toNat < 128 := ascii byte List.mem_cons_self
      have tail := ih fun other member => ascii other (List.mem_cons_of_mem _ member)
      have valid : byte.toNat.isValidChar := Or.inl (by omega)
      have code : (Char.ofNat byte.toNat).toNat = byte.toNat := by
        rw [Char.ofNat, dif_pos valid]
        rfl
      have size : (Char.ofNat byte.toNat).utf8Size = 1 := by
        rw [Char.utf8Size_eq_one_iff, UInt32.le_iff_toNat_le]
        change (Char.ofNat byte.toNat).toNat ≤ 127
        omega
      have head : utf8 (String.singleton (Char.ofNat byte.toNat)) = [byte] := by
        simp only [utf8, String.toByteArray_singleton, List.utf8Encode_singleton]
        rw [String.utf8EncodeChar_eq_singleton size]
        change [(Char.ofNat byte.toNat).val.toUInt8] = [byte]
        have narrowed : (Char.ofNat byte.toNat).val.toUInt8.toNat = byte.toNat := by
          rw [UInt32.toNat_toUInt8]
          change (Char.ofNat byte.toNat).toNat % 2 ^ 8 = byte.toNat
          omega
        rw [UInt8.toNat_inj.mp narrowed]
      rw [List.map_cons, String.ofList_cons, utf8_append, head, tail]
      rfl

/-- The bytes of an encoded text. -/
@[simp] theorem utf8_hexEncode (bytes : Bytes) : utf8 (hexEncode bytes) = hexBytes bytes :=
  utf8_ofList_ascii fun _ member => hexBytes_ascii member

/-- Different bytes have different digits. -/
theorem hexEncode_injective {left right : Bytes} (same : hexEncode left = hexEncode right) :
    left = right := by
  have decoded := congrArg (fun text => hexDecode (utf8 text)) same
  simpa using decoded

end Citadel
