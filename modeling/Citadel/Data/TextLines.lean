import Citadel.Data.Bytes

/-!
# Reading a file line by line

`BufRead::lines` cuts a file at the newlines, takes a carriage return off the end of a
line, and decodes each line as UTF-8. `readable` is what is left of a file by a reader
that stops at the first line that is no text.
-/

namespace Citadel

/-- The text that a byte string encodes. -/
def decodeUtf8 (bytes : Bytes) : Option String :=
  String.fromUTF8? ⟨bytes.toArray⟩

@[simp] theorem decodeUtf8_utf8 (text : String) : decodeUtf8 (utf8 text) = some text := by
  have bytes : (⟨(utf8 text).toArray⟩ : ByteArray) = text.toByteArray := by
    apply ByteArray.ext
    simp [utf8]
  rw [decodeUtf8, bytes, String.fromUTF8?, dif_pos text.isValidUTF8]
  rfl

/-- A text encodes to the bytes that it was decoded from. -/
theorem utf8_of_decodeUtf8 {bytes : Bytes} {text : String}
    (decoded : decodeUtf8 bytes = some text) : utf8 text = bytes := by
  unfold decodeUtf8 String.fromUTF8? at decoded
  split at decoded
  · cases decoded
    simp [utf8, String.fromUTF8]
  · cases decoded

/-- The bytes of a longer encoding are no newlines. -/
theorem ofNat_ne_newline {value : Nat} (high : 128 ≤ value % 256) :
    (10 : UInt8) ≠ UInt8.ofNat value := by
  intro same
  have equal := congrArg UInt8.toNat same
  rw [UInt8.toNat_ofNat'] at equal
  change 10 = value % 256 at equal
  omega

/-- Only a line feed has the byte of a line feed. -/
theorem newline_of_mem_utf8EncodeChar {character : Char}
    (member : (10 : UInt8) ∈ String.utf8EncodeChar character) : character = '\n' := by
  unfold String.utf8EncodeChar at member
  dsimp only at member
  split at member
  · rename_i small
    have equal := congrArg UInt8.toNat (List.mem_singleton.mp member)
    rw [UInt8.toNat_ofNat'] at equal
    change 10 = character.val.toNat % 256 at equal
    apply Char.ext
    apply UInt32.toNat_inj.mp
    change character.val.toNat = 10
    omega
  · exfalso
    split at member
    · simp only [List.mem_cons, List.not_mem_nil, or_false] at member
      rcases member with same | same
      · exact ofNat_ne_newline (by omega) same
      · exact ofNat_ne_newline (by omega) same
    · split at member
      · simp only [List.mem_cons, List.not_mem_nil, or_false] at member
        rcases member with same | same | same
        · exact ofNat_ne_newline (by omega) same
        · exact ofNat_ne_newline (by omega) same
        · exact ofNat_ne_newline (by omega) same
      · simp only [List.mem_cons, List.not_mem_nil, or_false] at member
        rcases member with same | same | same | same
        · exact ofNat_ne_newline (by omega) same
        · exact ofNat_ne_newline (by omega) same
        · exact ofNat_ne_newline (by omega) same
        · exact ofNat_ne_newline (by omega) same

/-- A newline among the bytes is a newline of the text. -/
theorem newline_of_mem_utf8 {text : String} (member : (10 : UInt8) ∈ utf8 text) :
    '\n' ∈ text.toList := by
  rw [utf8, ← String.ofList_toList (s := text), String.toByteArray_ofList] at member
  simp only [List.utf8Encode, List.data_toByteArray, List.mem_flatMap] at member
  obtain ⟨character, inside, encoded⟩ := member
  rw [newline_of_mem_utf8EncodeChar encoded] at inside
  exact inside

/-- `char::is_whitespace`. -/
def isWhitespace (character : Char) : Bool :=
  let code := character.toNat
  (9 ≤ code && code ≤ 13) || code == 0x20 || code == 0x85 || code == 0xA0 || code == 0x1680 ||
    (0x2000 ≤ code && code ≤ 0x200A) || code == 0x2028 || code == 0x2029 || code == 0x202F ||
    code == 0x205F || code == 0x3000

/-- Nothing is left of the text by `trim`. -/
def isBlank (text : String) : Bool :=
  text.toList.all isWhitespace

/-- Take a carriage return off the end of a line. -/
def stripReturn (line : Bytes) : Bytes :=
  if line.getLast? = some 13 then line.dropLast else line

/-- The lines after what was already read of the first one. -/
def linesFrom (start : Bytes) : Bytes → List Bytes
  | [] => if start = [] then [] else [start]
  | byte :: rest =>
      if byte = 10 then stripReturn start :: linesFrom [] rest else linesFrom (start ++ [byte]) rest

/-- The lines of a file, as bytes. -/
def rawLines (file : Bytes) : List Bytes :=
  linesFrom [] file

/-- The texts before the first line that is none (`map_while(Result::ok)`). -/
def decodeWhile : List Bytes → List String
  | [] => []
  | line :: rest =>
      match decodeUtf8 line with
      | some text => text :: decodeWhile rest
      | none => []

/-- `BufRead::lines` for a reader that stops at the first line that is no text. -/
def readable (file : Bytes) : List String :=
  decodeWhile (rawLines file)

/-- Bytes without a newline are read into the current line. -/
theorem linesFrom_append (start line rest : Bytes) (oneLine : (10 : UInt8) ∉ line) :
    linesFrom start (line ++ rest) = linesFrom (start ++ line) rest := by
  induction line generalizing start with
  | nil => simp
  | cons byte line ih =>
      rw [List.mem_cons, not_or] at oneLine
      rw [List.cons_append, linesFrom, if_neg (Ne.symm oneLine.1), ih _ oneLine.2]
      simp

/-- The first line of a file that starts with one. -/
theorem rawLines_cons {line rest : Bytes} (oneLine : (10 : UInt8) ∉ line)
    (unreturned : line.getLast? ≠ some 13) :
    rawLines (line ++ 10 :: rest) = line :: rawLines rest := by
  rw [rawLines, linesFrom_append [] line _ oneLine, List.nil_append, linesFrom, if_pos rfl,
    stripReturn, if_neg unreturned]
  rfl

/-- Lines that are all texts are read as a whole. -/
@[simp] theorem decodeWhile_map_utf8 (texts : List String) :
    decodeWhile (texts.map utf8) = texts := by
  induction texts with
  | nil => rfl
  | cons text texts ih => simp [decodeWhile, ih]

/-- What comes after the texts starts with a line that is none. -/
theorem eq_decodeWhile_append (lines : List Bytes) :
    ∃ rest, lines = (decodeWhile lines).map utf8 ++ rest ∧
      ∀ line, rest.head? = some line → decodeUtf8 line = none := by
  induction lines with
  | nil => exact ⟨[], rfl, nofun⟩
  | cons line lines ih =>
      cases decoded : decodeUtf8 line with
      | none =>
          refine ⟨line :: lines, by simp [decodeWhile, decoded], ?_⟩
          rintro other ⟨⟩
          exact decoded
      | some text =>
          obtain ⟨rest, cut, undecodable⟩ := ih
          refine ⟨rest, ?_, undecodable⟩
          simp only [decodeWhile, decoded, List.map_cons, List.cons_append,
            utf8_of_decodeUtf8 decoded, ← cut]

end Citadel
