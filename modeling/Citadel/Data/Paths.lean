import Mathlib.Data.List.Basic

/-!
# Paths as texts

A path is a text. Joining, extensions and the pieces between separators are functions on
that text, as the standard library has them: nothing is normalised, and an absolute path
that is joined to another replaces it.
-/

namespace Citadel.Paths

/-- Whether a path starts at the root. -/
def isAbsolute (path : String) : Bool := path.toList.head? = some '/'

/-- A path that a name can be written behind. -/
def withSeparator (path : String) : String :=
  if path = "" ∨ path.toList.getLast? = some '/' then path else path ++ "/"

/-- `Path::join`. -/
def join (path other : String) : String :=
  if isAbsolute other then other else withSeparator path ++ other

/-- The texts between the separators. -/
def pieces (path : String) : List String := (path.toList.splitOn '/').map String.ofList

/-- The path up to its last separator, and the name behind it. -/
def splitName (path : String) : List Char × List Char :=
  ((path.toList.reverse.dropWhile (· ≠ '/')).reverse,
    (path.toList.reverse.takeWhile (· ≠ '/')).reverse)

/-- A name before and after its last dot. A dot in front is part of the name. -/
def splitAtDot (name : List Char) : List Char × Option (List Char) :=
  if name = ['.', '.'] then (name, none)
  else
    match name.reverse.dropWhile (· ≠ '.') with
    | _ :: first :: before =>
        ((first :: before).reverse, some (name.reverse.takeWhile (· ≠ '.')).reverse)
    | _ => (name, none)

/-- `Path::extension`, for a path that ends in a name. -/
def extension (path : String) : Option String :=
  (splitAtDot (splitName path).2).2.map String.ofList

/-- `Path::with_extension`, for a path that ends in a name. -/
def withExtension (path ext : String) : String :=
  String.ofList ((splitName path).1 ++ (splitAtDot (splitName path).2).1) ++ "." ++ ext

/-- A text that names an entry of a directory. -/
structure IsName (name : String) : Prop where
  whole : '/' ∉ name.toList
  notEmpty : name ≠ ""
  notHere : name ≠ "."
  notUp : name ≠ ".."

/-- A text that can stand behind the last dot of a name. -/
structure IsExtension (ext : String) : Prop where
  whole : '/' ∉ ext.toList
  plain : '.' ∉ ext.toList
  long : 2 ≤ ext.toList.length

theorem toList_dotted (stem ext : String) :
    (stem ++ "." ++ ext).toList = stem.toList ++ '.' :: ext.toList := by
  simp

/-- The name of a file with an extension. -/
theorem isName_dotted {stem ext : String} (whole : '/' ∉ stem.toList)
    (isExtension : IsExtension ext) : IsName (stem ++ "." ++ ext) := by
  have long : 3 ≤ (stem ++ "." ++ ext).toList.length := by
    have extLong := isExtension.long
    rw [toList_dotted, List.length_append, List.length_cons]
    omega
  constructor
  · rw [toList_dotted]
    simp [whole, isExtension.whole]
  · intro same
    rw [same] at long
    exact absurd long (by decide)
  · intro same
    rw [same] at long
    exact absurd long (by decide)
  · intro same
    rw [same] at long
    exact absurd long (by decide)

/-- A text that is empty or ends in a separator. -/
def Ends (front : List Char) : Prop := front = [] ∨ ∃ before, front = before ++ ['/']

/-- It ends with a separator. -/
theorem ends_withSeparator (path : String) : Ends (withSeparator path).toList := by
  unfold withSeparator
  split
  · rename_i already
    rcases already with empty | slash
    · left
      simp [empty]
    · right
      exact ⟨_, (List.dropLast_append_getLast? _ slash).symm⟩
  · right
    exact ⟨path.toList, by simp⟩

/-- A name is put behind a separator. -/
theorem join_of_isName {name : String} (isName : IsName name) (path : String) :
    join path name = withSeparator path ++ name := by
  have relative : isAbsolute name = false := by
    unfold isAbsolute
    rw [decide_eq_false_iff_not]
    intro slash
    exact isName.whole (List.mem_of_mem_head? slash)
  simp [join, relative]

/-- The name behind the last separator is what it was put there. -/
theorem splitName_append {path : String} {front name : List Char}
    (same : path.toList = front ++ name) (ends : Ends front) (whole : '/' ∉ name) :
    splitName path = (front, name) := by
  have others : ∀ character ∈ name.reverse, decide (character ≠ '/') = true := by
    intro character member
    rw [decide_eq_true_iff]
    intro slash
    exact whole (slash ▸ List.mem_reverse.mp member)
  unfold splitName
  rw [same, List.reverse_append, List.takeWhile_append_of_pos others,
    List.dropWhile_append_of_pos others]
  rcases ends with rfl | ⟨before, rfl⟩
  · simp
  · simp

/-- A name with one dot is split at it. -/
theorem splitAtDot_dotted {stem ext : List Char} (notEmpty : stem ≠ []) (plain : '.' ∉ ext)
    (long : ext ≠ []) : splitAtDot (stem ++ '.' :: ext) = (stem, some ext) := by
  have others : ∀ character ∈ ext.reverse, decide (character ≠ '.') = true := by
    intro character member
    rw [decide_eq_true_iff]
    intro dot
    exact plain (dot ▸ List.mem_reverse.mp member)
  have notUp : stem ++ '.' :: ext ≠ ['.', '.'] := by
    intro same
    have lengths := congrArg List.length same
    have stemLength := List.length_pos_of_ne_nil notEmpty
    have extLength := List.length_pos_of_ne_nil long
    simp only [List.length_append, List.length_cons, List.length_nil] at lengths
    omega
  have reversed : (stem ++ '.' :: ext).reverse = ext.reverse ++ '.' :: stem.reverse := by
    simp
  have dropped : (stem ++ '.' :: ext).reverse.dropWhile (· ≠ '.') = '.' :: stem.reverse := by
    rw [reversed, List.dropWhile_append_of_pos others]
    rfl
  have taken : (stem ++ '.' :: ext).reverse.takeWhile (· ≠ '.') = ext.reverse := by
    rw [reversed, List.takeWhile_append_of_pos others]
    simp
  rw [splitAtDot, if_neg notUp, dropped, taken]
  cases shape : stem.reverse with
  | nil => exact absurd (List.reverse_eq_nil_iff.mp shape) notEmpty
  | cons first before => simp [← shape]

section Dotted

variable {stem ext other : String} (path : String)

/-- A file name behind a path is cut where it was put together. -/
theorem splitName_join (whole : '/' ∉ stem.toList) (isExtension : IsExtension ext) :
    splitName (join path (stem ++ "." ++ ext)) =
      ((withSeparator path).toList, stem.toList ++ '.' :: ext.toList) := by
  rw [join_of_isName (isName_dotted whole isExtension)]
  apply splitName_append
  · rw [String.toList_append, toList_dotted]
  · exact ends_withSeparator path
  · simp [whole, isExtension.whole]

theorem splitAtDot_extension (notEmpty : stem ≠ "") (isExtension : IsExtension ext) :
    splitAtDot (stem.toList ++ '.' :: ext.toList) = (stem.toList, some ext.toList) := by
  apply splitAtDot_dotted
  · simpa using notEmpty
  · exact isExtension.plain
  · intro none
    have long := isExtension.long
    rw [none] at long
    exact absurd long (by decide)

/-- The extension of a joined path is that of its name. -/
theorem extension_join (whole : '/' ∉ stem.toList) (notEmpty : stem ≠ "")
    (isExtension : IsExtension ext) :
    extension (join path (stem ++ "." ++ ext)) = some ext := by
  rw [extension, splitName_join path whole isExtension, splitAtDot_extension notEmpty isExtension,
    Option.map_some, String.ofList_toList]

/-- Replacing the extension keeps the directory and the stem. -/
theorem withExtension_join (whole : '/' ∉ stem.toList) (notEmpty : stem ≠ "")
    (isExtension : IsExtension ext) (isOther : IsExtension other) :
    withExtension (join path (stem ++ "." ++ ext)) other = join path (stem ++ "." ++ other) := by
  rw [withExtension, splitName_join path whole isExtension,
    splitAtDot_extension notEmpty isExtension, join_of_isName (isName_dotted whole isOther)]
  simp [String.append_assoc]

end Dotted

/-- A name behind a separator is the last piece. -/
theorem pieces_append {path : String} {before : List Char} {name : String}
    (same : path.toList = before ++ '/' :: name.toList) (whole : '/' ∉ name.toList) :
    pieces path = pieces (String.ofList before) ++ [name] := by
  rw [pieces, same, List.splitOn_append_cons_self, List.splitOn_eq_singleton whole]
  simp [pieces]

/-- A text is cut at its last separator. -/
theorem exists_last_separator {text : List Char} (slash : '/' ∈ text) :
    ∃ before after, text = before ++ '/' :: after ∧ '/' ∉ after := by
  induction text with
  | nil => cases slash
  | cons character rest ih =>
      by_cases later : '/' ∈ rest
      · obtain ⟨before, after, same, whole⟩ := ih later
        exact ⟨character :: before, after, by rw [same, List.cons_append], whole⟩
      · rcases List.mem_cons.mp slash with first | member
        · exact ⟨[], rest, by rw [first, List.nil_append], later⟩
        · exact absurd member later

end Citadel.Paths
