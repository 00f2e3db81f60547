import Mathlib.Data.List.Perm.Basic
import Mathlib.Data.List.Sort
import Mathlib.Data.String.Basic

/-!
# JSON values and their compact text

An object is written as a list of fields in some order. Two values are the same when they agree
at every path, whatever that order. Sorting the fields at every depth picks one value among
those that are the same, and the compact text of a value determines it, so the text of the
sorted value determines what is found at every path.
-/

namespace Citadel

/-- A value, with the fields of its objects in the order in which they were written. -/
inductive Json (Number : Type) where
  | null
  | bool (value : Bool)
  | number (value : Number)
  | string (text : String)
  | array (items : List (Json Number))
  | object (fields : List (String × Json Number))

namespace Json

variable {Number : Type}

/-- Induction on a value: an array holds for its items, an object for the values of its fields. -/
@[elab_as_elim] theorem induct {motive : Json Number → Prop} (null : motive .null)
    (bool : ∀ value, motive (.bool value)) (number : ∀ value, motive (.number value))
    (string : ∀ text, motive (.string text))
    (array : ∀ items, (∀ item ∈ items, motive item) → motive (.array items))
    (object : ∀ fields, (∀ field ∈ fields, motive field.2) → motive (.object fields)) :
    ∀ value, motive value
  | .null => null
  | .bool value => bool value
  | .number value => number value
  | .string text => string text
  | .array items => array items fun item _ =>
      induct null bool number string array object item
  | .object fields => object fields fun field _ =>
      induct null bool number string array object field.2
decreasing_by
  · rename_i member
    have smaller := List.sizeOf_lt_of_mem member
    simp only [Json.array.sizeOf_spec]
    omega
  · rename_i member
    have smaller := List.sizeOf_lt_of_mem member
    cases field
    simp only [Json.object.sizeOf_spec, Prod.mk.sizeOf_spec] at smaller ⊢
    omega

/-! ### Paths -/

/-- One step into a value. -/
inductive Step where
  | key (name : String)
  | index (position : Nat)

/-- What a value shows at once. -/
inductive Kind (Number : Type) where
  | null
  | bool (value : Bool)
  | number (value : Number)
  | string (text : String)
  | array
  | object

/-- What a value is, without its parts. -/
def kind : Json Number → Kind Number
  | .null => .null
  | .bool value => .bool value
  | .number value => .number value
  | .string text => .string text
  | .array _ => .array
  | .object _ => .object

/-- The part of a value that a step leads to. -/
def child : Json Number → Step → Option (Json Number)
  | .array items, .index position => items[position]?
  | .object fields, .key name => fields.lookup name
  | _, _ => none

/-- The part of a value that a path leads to. -/
def follow : Json Number → List Step → Option (Json Number)
  | value, [] => some value
  | value, step :: rest => (value.child step).bind fun part => part.follow rest

/-- Two values show the same at every path, in whatever order their fields are written. -/
def Same (left right : Json Number) : Prop :=
  ∀ path, (left.follow path).map kind = (right.follow path).map kind

/-- No object in a value has two fields of one name. -/
def Distinct (value : Json Number) : Prop :=
  ∀ path fields, value.follow path = some (.object fields) → (fields.map Prod.fst).Nodup

section Same

variable {left right other : Json Number}

theorem Same.refl (value : Json Number) : value.Same value := fun _ => rfl

theorem Same.symm (same : left.Same right) : right.Same left := fun path => (same path).symm

theorem Same.trans (first : left.Same right) (second : right.Same other) : left.Same other :=
  fun path => (first path).trans (second path)

theorem Same.kind (same : left.Same right) : left.kind = right.kind := Option.some.inj (same [])

/-- The parts at one step are the same, or both are missing. -/
def SameParts : Option (Json Number) → Option (Json Number) → Prop
  | none, none => True
  | some left, some right => left.Same right
  | _, _ => False

theorem Same.child (same : left.Same right) (step : Step) :
    SameParts (left.child step) (right.child step) := by
  have further : ∀ path, ((left.child step).bind fun part => part.follow path).map Json.kind =
      ((right.child step).bind fun part => part.follow path).map Json.kind :=
    fun path => same (step :: path)
  cases leftPart : left.child step with
  | none =>
      cases rightPart : right.child step with
      | none => trivial
      | some part =>
          have here := further []
          rw [leftPart, rightPart] at here
          cases here
  | some leftChild =>
      cases rightPart : right.child step with
      | none =>
          have here := further []
          rw [leftPart, rightPart] at here
          cases here
      | some rightChild =>
          intro path
          have here := further path
          rwa [leftPart, rightPart] at here

/-- Values of one kind with the same parts are the same. -/
theorem same_of_children (kinds : left.kind = right.kind)
    (parts : ∀ step, SameParts (left.child step) (right.child step)) : left.Same right := by
  intro path
  cases path with
  | nil => exact congrArg some kinds
  | cons step rest =>
      have same := parts step
      simp only [follow]
      cases leftPart : left.child step with
      | none =>
          cases rightPart : right.child step with
          | none => rfl
          | some part =>
              rw [leftPart, rightPart] at same
              cases same
      | some leftChild =>
          cases rightPart : right.child step with
          | none =>
              rw [leftPart, rightPart] at same
              cases same
          | some rightChild =>
              rw [leftPart, rightPart] at same
              exact same rest

/-- Objects with the same fields in one order are the same. -/
theorem same_object {fields others : List (String × Json Number)}
    (alike : List.Forall₂ (fun field other => field.1 = other.1 ∧ field.2.Same other.2) fields
      others) : (object fields).Same (object others) := by
  apply same_of_children
  · rfl
  rintro (name | position)
  · simp only [Json.child]
    induction alike with
    | nil => trivial
    | @cons field other fields others first _ ih =>
        obtain ⟨names, values⟩ := first
        rw [List.lookup_cons, List.lookup_cons, ← names]
        cases name == field.1 with
        | true => exact values
        | false => exact ih
  · trivial

/-- The parts of a value whose names are distinct. -/
theorem Distinct.child {value part : Json Number} (distinct : value.Distinct) (step : Step)
    (found : value.child step = some part) : part.Distinct := by
  intro path fields leads
  apply distinct (step :: path) fields
  rw [follow, found]
  exact leads

theorem Distinct.fields {fields : List (String × Json Number)}
    (distinct : (object fields).Distinct) : (fields.map Prod.fst).Nodup :=
  distinct [] fields rfl

/-- A value has distinct names when it has none twice itself, and its parts do not. -/
theorem distinct_of_children {value : Json Number}
    (own : ∀ fields, value = .object fields → (fields.map Prod.fst).Nodup)
    (parts : ∀ step part, value.child step = some part → part.Distinct) : value.Distinct := by
  intro path fields leads
  cases path with
  | nil => exact own fields (Option.some.inj leads)
  | cons step rest =>
      rw [follow] at leads
      obtain ⟨part, found, followed⟩ := Option.bind_eq_some_iff.mp leads
      exact parts step part found rest fields followed

/-- An object of distinct names and distinct values. -/
theorem distinct_object {fields : List (String × Json Number)}
    (names : (fields.map Prod.fst).Nodup) (values : ∀ field ∈ fields, field.2.Distinct) :
    (object fields).Distinct := by
  apply distinct_of_children
  · rintro _ ⟨⟩
    exact names
  · rintro (name | position) part found
    · obtain ⟨before, after, rfl, -⟩ := List.lookup_eq_some_iff.mp found
      exact values (name, part) (by simp)
    · cases found

theorem distinct_number (value : Number) : (number value).Distinct := by
  apply distinct_of_children
  · rintro _ ⟨⟩
  · rintro (name | position) part ⟨⟩

theorem distinct_string (text : String) : (string text : Json Number).Distinct := by
  apply distinct_of_children
  · rintro _ ⟨⟩
  · rintro (name | position) part ⟨⟩

end Same

/-! ### Fields as a table -/

section Lookup

variable {α : Type} {fields others : List (String × α)}

/-- A field is found under its name, when no other has that name. -/
theorem mem_iff_lookup (distinct : (fields.map Prod.fst).Nodup) {name : String} {value : α} :
    (name, value) ∈ fields ↔ fields.lookup name = some value := by
  induction fields with
  | nil => simp
  | cons field rest ih =>
      obtain ⟨first, found⟩ := field
      rw [List.map_cons, List.nodup_cons] at distinct
      by_cases here : name = first
      · subst here
        rw [List.lookup_cons_self]
        constructor
        · intro member
          rcases List.mem_cons.mp member with same | later
          · rw [(Prod.mk.inj same).2]
          · exact absurd (List.mem_map_of_mem later) distinct.1
        · intro same
          rw [Option.some.inj same]
          exact List.mem_cons_self
      · rw [List.lookup_cons, beq_eq_false_iff_ne.mpr here, ← ih distinct.2, List.mem_cons]
        constructor
        · intro member
          exact member.resolve_left fun same => here (Prod.mk.inj same).1
        · intro later
          exact Or.inr later

/-- Fields in any order are found alike. -/
theorem lookup_of_perm (perm : fields.Perm others) (distinct : (fields.map Prod.fst).Nodup)
    (name : String) : fields.lookup name = others.lookup name := by
  have others_distinct : (others.map Prod.fst).Nodup := (perm.map Prod.fst).nodup_iff.mp distinct
  apply Option.ext
  intro value
  rw [← mem_iff_lookup distinct, ← mem_iff_lookup others_distinct, perm.mem_iff]

/-- Fields that are found alike differ in their order only. -/
theorem perm_of_lookup (distinct : (fields.map Prod.fst).Nodup)
    (others_distinct : (others.map Prod.fst).Nodup)
    (same : ∀ name, fields.lookup name = others.lookup name) : fields.Perm others := by
  rw [List.perm_ext_iff_of_nodup distinct.of_map others_distinct.of_map]
  rintro ⟨name, value⟩
  rw [mem_iff_lookup distinct, mem_iff_lookup others_distinct, same]

theorem lookup_map {β : Type} (change : α → β) (fields : List (String × α)) (name : String) :
    (fields.map fun field => (field.1, change field.2)).lookup name =
      (fields.lookup name).map change := by
  induction fields with
  | nil => rfl
  | cons field rest ih =>
      rw [List.map_cons, List.lookup_cons, List.lookup_cons, ih]
      cases name == field.1 <;> rfl

/-- The fields in the order of their names. -/
def byName (fields : List (String × α)) : List (String × α) :=
  fields.insertionSort fun left right => left.1 ≤ right.1

theorem byName_perm (fields : List (String × α)) : (byName fields).Perm fields :=
  List.perm_insertionSort _ fields

theorem byName_sorted (fields : List (String × α)) :
    (byName fields).Pairwise fun left right => left.1 ≤ right.1 := by
  have total : Std.Total fun left right : String × α => left.1 ≤ right.1 :=
    ⟨fun left right => le_total left.1 right.1⟩
  have trans : IsTrans (String × α) fun left right => left.1 ≤ right.1 :=
    ⟨fun _ _ _ => le_trans⟩
  exact List.pairwise_insertionSort _ fields

/-- Fields that differ in their order only are sorted to one list. -/
theorem byName_eq_of_perm (distinct : (fields.map Prod.fst).Nodup) (perm : fields.Perm others) :
    byName fields = byName others := by
  apply List.Perm.eq_of_pairwise _ (byName_sorted fields) (byName_sorted others)
  · exact (byName_perm fields).trans (perm.trans (byName_perm others).symm)
  · intro left right leftMem rightMem before after
    have name : left.1 = right.1 := le_antisymm before after
    have leftFound := (mem_iff_lookup distinct).mp ((byName_perm fields).mem_iff.mp leftMem)
    have rightFound := (mem_iff_lookup distinct).mp
      (perm.mem_iff.mpr ((byName_perm others).mem_iff.mp rightMem))
    rw [← name, leftFound] at rightFound
    exact Prod.ext name (Option.some.inj rightFound)

end Lookup

/-! ### Sorting at every depth -/

mutual

/-- The value with the fields of every object in the order of their names. -/
def sorted : Json Number → Json Number
  | .null => .null
  | .bool value => .bool value
  | .number value => .number value
  | .string text => .string text
  | .array items => .array (sortedItems items)
  | .object fields => .object (byName (sortedFields fields))

def sortedItems : List (Json Number) → List (Json Number)
  | [] => []
  | item :: rest => item.sorted :: sortedItems rest

def sortedFields : List (String × Json Number) → List (String × Json Number)
  | [] => []
  | (name, value) :: rest => (name, value.sorted) :: sortedFields rest

end

theorem sortedItems_eq_map (items : List (Json Number)) : sortedItems items = items.map sorted := by
  induction items with
  | nil => rfl
  | cons item rest ih => rw [sortedItems, ih, List.map_cons]

theorem sortedFields_eq_map (fields : List (String × Json Number)) :
    sortedFields fields = fields.map fun field => (field.1, field.2.sorted) := by
  induction fields with
  | nil => rfl
  | cons field rest ih => rw [sortedFields, ih, List.map_cons]

theorem names_sortedFields (fields : List (String × Json Number)) :
    (sortedFields fields).map Prod.fst = fields.map Prod.fst := by
  rw [sortedFields_eq_map, List.map_map]
  rfl

/-- A field is found where it was, with its value sorted. -/
theorem lookup_sortedFields (fields : List (String × Json Number)) (name : String) :
    (sortedFields fields).lookup name = (fields.lookup name).map sorted := by
  rw [sortedFields_eq_map, lookup_map]

/-- Sorting changes nothing that is found. -/
theorem same_sorted (value : Json Number) (distinct : value.Distinct) :
    value.Same value.sorted := by
  induction value using induct with
  | null => exact .refl _
  | bool value => exact .refl _
  | number value => exact .refl _
  | string text => exact .refl _
  | array items ih =>
      apply same_of_children
      · rfl
      rintro (name | position)
      · trivial
      · simp only [child, sorted, sortedItems_eq_map, List.getElem?_map]
        cases found : items[position]? with
        | none => trivial
        | some item =>
            exact ih item (List.mem_of_getElem? found) (distinct.child (.index position) found)
  | object fields ih =>
      apply same_of_children
      · rfl
      rintro (name | position)
      · have names : ((sortedFields fields).map Prod.fst).Nodup := by
          rw [names_sortedFields]
          exact distinct.fields
        simp only [child, sorted]
        rw [← lookup_of_perm (byName_perm _).symm names, lookup_sortedFields]
        cases found : fields.lookup name with
        | none => trivial
        | some value =>
            exact ih (name, value) ((mem_iff_lookup distinct.fields).mpr found)
              (distinct.child (.key name) found)
      · trivial

/-- Parts that are the same are sorted the same way. -/
theorem map_sorted_eq {left right : Option (Json Number)} (same : SameParts left right)
    (sorts : ∀ value other, left = some value → right = some other → value.Same other →
      value.sorted = other.sorted) : left.map sorted = right.map sorted := by
  cases left with
  | none =>
      cases right with
      | none => rfl
      | some other => cases same
  | some value =>
      cases right with
      | none => cases same
      | some other => exact congrArg some (sorts value other rfl rfl same)

/-- Values that are the same are sorted to one value. -/
theorem sorted_eq_of_same {left right : Json Number} (same : left.Same right)
    (leftDistinct : left.Distinct) (rightDistinct : right.Distinct) :
    left.sorted = right.sorted := by
  induction left using induct generalizing right with
  | null => cases right <;> cases same.kind; rfl
  | bool value => cases right <;> cases same.kind; rfl
  | number value => cases right <;> cases same.kind; rfl
  | string text => cases right <;> cases same.kind; rfl
  | array items ih =>
      cases right with
      | array others =>
          rw [sorted, sorted, sortedItems_eq_map, sortedItems_eq_map]
          congr 1
          apply List.ext_getElem?
          intro position
          rw [List.getElem?_map, List.getElem?_map]
          apply map_sorted_eq (same.child (.index position))
          intro value other found foundOther sameParts
          exact ih value (List.mem_of_getElem? found) sameParts
            (leftDistinct.child (.index position) found)
            (rightDistinct.child (.index position) foundOther)
      | _ => cases same.kind
  | object fields ih =>
      cases right with
      | object others =>
          rw [sorted, sorted]
          congr 1
          have names : ((sortedFields fields).map Prod.fst).Nodup := by
            rw [names_sortedFields]
            exact leftDistinct.fields
          have otherNames : ((sortedFields others).map Prod.fst).Nodup := by
            rw [names_sortedFields]
            exact rightDistinct.fields
          apply byName_eq_of_perm names
          apply perm_of_lookup names otherNames
          intro name
          rw [lookup_sortedFields, lookup_sortedFields]
          apply map_sorted_eq (same.child (.key name))
          intro value other found foundOther sameParts
          exact ih (name, value) ((mem_iff_lookup leftDistinct.fields).mpr found) sameParts
            (leftDistinct.child (.key name) found)
            (rightDistinct.child (.key name) foundOther)
      | _ => cases same.kind

/-- Two values are sorted to one value exactly when they are the same. -/
theorem sorted_eq_iff_same {left right : Json Number} (leftDistinct : left.Distinct)
    (rightDistinct : right.Distinct) : left.sorted = right.sorted ↔ left.Same right := by
  constructor
  · intro equal
    have first := same_sorted left leftDistinct
    rw [equal] at first
    exact first.trans (same_sorted right rightDistinct).symm
  · intro same
    exact sorted_eq_of_same same leftDistinct rightDistinct

/-! ### The compact text -/

/-- How the characters of a string and the numbers are written. -/
structure Printer (Number : Type) where
  escape : Char → List Char
  number : Number → List Char

/-- The characters of a number. -/
def isNumberChar (character : Char) : Bool :=
  character.isDigit || ['-', '+', '.', 'e', 'E'].contains character

/-- Strings are escaped character by character, without a bare quote and such that the characters
are told apart; a number is told apart by its text, which is made of the characters of numbers. -/
structure Printer.Lawful (printer : Printer Number) : Prop where
  escape_starts : ∀ character, ∃ first rest, printer.escape character = first :: rest ∧ first ≠ '"'
  escape_apart : ∀ left right leftRest rightRest,
    printer.escape left ++ leftRest = printer.escape right ++ rightRest →
      left = right ∧ leftRest = rightRest
  number_ne_nil : ∀ value, printer.number value ≠ []
  number_chars : ∀ value, ∀ character ∈ printer.number value, isNumberChar character = true
  number_injective : Function.Injective printer.number

section Print

variable (printer : Printer Number)

/-- A string between quotes. -/
def quote (text : String) : List Char := '"' :: (text.toList.flatMap printer.escape ++ ['"'])

mutual

/-- The text of a value, without white space. -/
def print : Json Number → List Char
  | .null => ['n', 'u', 'l', 'l']
  | .bool true => ['t', 'r', 'u', 'e']
  | .bool false => ['f', 'a', 'l', 's', 'e']
  | .number value => printer.number value
  | .string text => quote printer text
  | .array items => '[' :: printItems items
  | .object fields => '\x7b' :: printFields fields

/-- The items of an array, up to its end. -/
def printItems : List (Json Number) → List Char
  | [] => [']']
  | item :: rest => print item ++ printMoreItems rest

def printMoreItems : List (Json Number) → List Char
  | [] => [']']
  | item :: rest => ',' :: (print item ++ printMoreItems rest)

/-- The fields of an object, up to its end. -/
def printFields : List (String × Json Number) → List Char
  | [] => ['\x7d']
  | (name, value) :: rest => quote printer name ++ ':' :: (print value ++ printMoreFields rest)

def printMoreFields : List (String × Json Number) → List Char
  | [] => ['\x7d']
  | (name, value) :: rest =>
      ',' :: (quote printer name ++ ':' :: (print value ++ printMoreFields rest))

end

end Print

section Reading

variable {printer : Printer Number}

/-- A string is read up to its closing quote. -/
theorem quote_append_inj (lawful : printer.Lawful) {left right : String}
    {leftRest rightRest : List Char}
    (equal : quote printer left ++ leftRest = quote printer right ++ rightRest) :
    left = right ∧ leftRest = rightRest := by
  have body : ∀ (chars others : List Char), chars.flatMap printer.escape ++ '"' :: leftRest =
      others.flatMap printer.escape ++ '"' :: rightRest → chars = others ∧ leftRest = rightRest := by
    intro chars
    induction chars with
    | nil =>
        intro others same
        cases others with
        | nil => exact ⟨rfl, (List.cons.inj same).2⟩
        | cons other _ =>
            obtain ⟨first, rest, starts, bare⟩ := lawful.escape_starts other
            rw [List.flatMap_cons, starts] at same
            exact absurd (List.cons.inj same).1.symm bare
    | cons character chars ih =>
        intro others same
        cases others with
        | nil =>
            obtain ⟨first, rest, starts, bare⟩ := lawful.escape_starts character
            rw [List.flatMap_cons, starts] at same
            exact absurd (List.cons.inj same).1 bare
        | cons other others =>
            rw [List.flatMap_cons, List.flatMap_cons, List.append_assoc, List.append_assoc] at same
            obtain ⟨rfl, rest⟩ := lawful.escape_apart _ _ _ _ same
            obtain ⟨rfl, last⟩ := ih others rest
            exact ⟨rfl, last⟩
  have inside : left.toList.flatMap printer.escape ++ ['"'] ++ leftRest =
      right.toList.flatMap printer.escape ++ ['"'] ++ rightRest := (List.cons.inj equal).2
  rw [List.append_assoc, List.append_assoc] at inside
  obtain ⟨same, rest⟩ := body _ _ inside
  exact ⟨String.toList_injective same, rest⟩

/-- What does not go on with a number. -/
def Ended (rest : List Char) : Prop :=
  ∀ character, rest.head? = some character → isNumberChar character = false

/-- A number is read up to where the text does not go on with one. -/
theorem number_append_inj (lawful : printer.Lawful) {left right : Number}
    {leftRest rightRest : List Char} (leftEnded : Ended leftRest) (rightEnded : Ended rightRest)
    (equal : printer.number left ++ leftRest = printer.number right ++ rightRest) :
    left = right ∧ leftRest = rightRest := by
  have cut : ∀ value rest, Ended rest →
      (printer.number value ++ rest).takeWhile isNumberChar = printer.number value := by
    intro value rest ended
    rw [List.takeWhile_append_of_pos (lawful.number_chars value)]
    cases rest with
    | nil => simp
    | cons first _ => rw [List.takeWhile_cons_of_neg (by simp [ended first rfl]), List.append_nil]
  have same : printer.number left = printer.number right := by
    rw [← cut left leftRest leftEnded, equal, cut right rightRest rightEnded]
  rw [same] at equal
  exact ⟨lawful.number_injective same, List.append_cancel_left equal⟩

/-- What the first character of a text announces. -/
def announced (first : Char) : Nat :=
  if first = 'n' then 0
  else if first = 't' ∨ first = 'f' then 1
  else if first = '"' then 2
  else if first = '[' then 3
  else if first = '\x7b' then 4
  else if isNumberChar first then 5
  else 6

/-- The constructor of a value, as a number. -/
def shape : Json Number → Nat
  | .null => 0
  | .bool _ => 1
  | .string _ => 2
  | .array _ => 3
  | .object _ => 4
  | .number _ => 5

theorem shape_lt (value : Json Number) : value.shape < 6 := by
  cases value <;> simp [shape]

theorem announced_of_isNumberChar {first : Char} (numeric : isNumberChar first = true) :
    announced first = 5 := by
  have other : ∀ character, isNumberChar character = false → first ≠ character := by
    rintro character plain rfl
    rw [numeric] at plain
    cases plain
  simp [announced, numeric, other 'n' (by decide), other 't' (by decide), other 'f' (by decide),
    other '"' (by decide), other '[' (by decide), other '\x7b' (by decide)]

/-- The first character of a text announces the constructor of the value. -/
theorem print_starts (lawful : printer.Lawful) (value : Json Number) :
    ∃ first rest, print printer value = first :: rest ∧ announced first = value.shape := by
  cases value with
  | null => exact ⟨_, _, rfl, rfl⟩
  | bool value => cases value <;> exact ⟨_, _, rfl, rfl⟩
  | number value =>
      obtain ⟨first, rest, starts⟩ := List.exists_cons_of_ne_nil (lawful.number_ne_nil value)
      refine ⟨first, rest, starts, announced_of_isNumberChar ?_⟩
      apply lawful.number_chars value
      rw [starts]
      exact List.mem_cons_self
  | string text => exact ⟨_, _, rfl, by simp [announced, shape]⟩
  | array items => exact ⟨_, _, rfl, by simp [announced, shape]⟩
  | object fields => exact ⟨_, _, rfl, by simp [announced, shape]⟩

/-- The first character of a text tells the shape of the value. -/
theorem shape_eq_of_print (lawful : printer.Lawful) {left right : Json Number}
    {leftRest rightRest : List Char}
    (equal : print printer left ++ leftRest = print printer right ++ rightRest) :
    left.shape = right.shape := by
  obtain ⟨first, rest, starts, announces⟩ := print_starts lawful left
  obtain ⟨other, others, startsToo, announcesToo⟩ := print_starts lawful right
  rw [starts, startsToo] at equal
  rw [← announces, ← announcesToo, (List.cons.inj equal).1]

/-- No value starts with the end of an array or an object. -/
theorem print_append_ne (lawful : printer.Lawful) (value : Json Number) {closing : Char}
    (closes : announced closing = 6) (rest others : List Char) :
    print printer value ++ rest ≠ closing :: others := by
  intro equal
  obtain ⟨first, front, starts, announces⟩ := print_starts lawful value
  rw [starts] at equal
  have small := value.shape_lt
  rw [← announces, (List.cons.inj equal).1, closes] at small
  omega

/-- After an item, a list goes on with a comma or a bracket. -/
theorem ended_more_items (rest : List (Json Number)) (after : List Char) :
    Ended (printMoreItems printer rest ++ after) := by
  intro character first
  cases rest with
  | nil =>
      cases first
      decide
  | cons item rest =>
      cases first
      decide

/-- After a field, an object goes on with a comma or a brace. -/
theorem ended_more_fields (rest : List (String × Json Number)) (after : List Char) :
    Ended (printMoreFields printer rest ++ after) := by
  intro character first
  cases rest with
  | nil =>
      cases first
      decide
  | cons field rest =>
      cases first
      decide

/-- A value that is read from the front of any text that goes on with something else. -/
def Readable (printer : Printer Number) (value : Json Number) : Prop :=
  ∀ {other : Json Number} {rest otherRest : List Char}, Ended rest → Ended otherRest →
    print printer value ++ rest = print printer other ++ otherRest → value = other ∧ rest = otherRest

theorem more_items_append_inj {items others : List (Json Number)} {rest otherRest : List Char}
    (readable : ∀ item ∈ items, Readable printer item)
    (equal : printMoreItems printer items ++ rest = printMoreItems printer others ++ otherRest) :
    items = others ∧ rest = otherRest := by
  induction items generalizing others with
  | nil =>
      cases others with
      | nil => exact ⟨rfl, List.append_cancel_left equal⟩
      | cons other others => cases (List.cons.inj equal).1
  | cons item items ih =>
      cases others with
      | nil => cases (List.cons.inj equal).1
      | cons other others =>
          have after : print printer item ++ printMoreItems printer items ++ rest =
              print printer other ++ printMoreItems printer others ++ otherRest :=
            (List.cons.inj equal).2
          rw [List.append_assoc, List.append_assoc] at after
          obtain ⟨rfl, more⟩ := readable item List.mem_cons_self (ended_more_items _ _)
            (ended_more_items _ _) after
          obtain ⟨rfl, last⟩ := ih (fun later member => readable later (List.mem_cons_of_mem _ member))
            more
          exact ⟨rfl, last⟩

/-- A list is read back. -/
theorem items_append_inj (lawful : printer.Lawful) {items others : List (Json Number)}
    {rest otherRest : List Char} (readable : ∀ item ∈ items, Readable printer item)
    (equal : printItems printer items ++ rest = printItems printer others ++ otherRest) :
    items = others ∧ rest = otherRest := by
  cases items with
  | nil =>
      cases others with
      | nil => exact ⟨rfl, List.append_cancel_left equal⟩
      | cons other others =>
          rw [printItems, printItems, List.append_assoc] at equal
          exact absurd equal.symm (print_append_ne lawful other (by decide) _ _)
  | cons item items =>
      cases others with
      | nil =>
          rw [printItems, printItems, List.append_assoc] at equal
          exact absurd equal (print_append_ne lawful item (by decide) _ _)
      | cons other others =>
          rw [printItems, printItems, List.append_assoc, List.append_assoc] at equal
          obtain ⟨rfl, more⟩ := readable item List.mem_cons_self (ended_more_items _ _)
            (ended_more_items _ _) equal
          obtain ⟨rfl, last⟩ := more_items_append_inj
            (fun later member => readable later (List.mem_cons_of_mem _ member)) more
          exact ⟨rfl, last⟩

/-- One field is read, with its name. -/
theorem field_append_inj (lawful : printer.Lawful) {name otherName : String}
    {value other : Json Number} {fields others : List (String × Json Number)}
    {rest otherRest : List Char} (readable : Readable printer value)
    (equal : quote printer name ++ ':' :: (print printer value ++ printMoreFields printer fields) ++
        rest = quote printer otherName ++
          ':' :: (print printer other ++ printMoreFields printer others) ++ otherRest) :
    (name, value) = (otherName, other) ∧
      printMoreFields printer fields ++ rest = printMoreFields printer others ++ otherRest := by
  rw [List.append_assoc, List.append_assoc] at equal
  obtain ⟨rfl, after⟩ := quote_append_inj lawful equal
  have values : print printer value ++ printMoreFields printer fields ++ rest =
      print printer other ++ printMoreFields printer others ++ otherRest := (List.cons.inj after).2
  rw [List.append_assoc, List.append_assoc] at values
  obtain ⟨rfl, more⟩ := readable (ended_more_fields _ _) (ended_more_fields _ _) values
  exact ⟨rfl, more⟩

theorem more_fields_append_inj (lawful : printer.Lawful)
    {fields others : List (String × Json Number)} {rest otherRest : List Char}
    (readable : ∀ field ∈ fields, Readable printer field.2)
    (equal : printMoreFields printer fields ++ rest = printMoreFields printer others ++ otherRest) :
    fields = others ∧ rest = otherRest := by
  induction fields generalizing others with
  | nil =>
      cases others with
      | nil => exact ⟨rfl, List.append_cancel_left equal⟩
      | cons other others => cases (List.cons.inj equal).1
  | cons field fields ih =>
      cases others with
      | nil => cases (List.cons.inj equal).1
      | cons other others =>
          obtain ⟨same, more⟩ := field_append_inj lawful (readable field List.mem_cons_self)
            (List.cons.inj equal).2
          obtain ⟨rfl, last⟩ := ih (fun later member => readable later (List.mem_cons_of_mem _ member))
            more
          exact ⟨congrArg (· :: fields) same, last⟩

/-- An object is read back. -/
theorem fields_append_inj (lawful : printer.Lawful) {fields others : List (String × Json Number)}
    {rest otherRest : List Char} (readable : ∀ field ∈ fields, Readable printer field.2)
    (equal : printFields printer fields ++ rest = printFields printer others ++ otherRest) :
    fields = others ∧ rest = otherRest := by
  cases fields with
  | nil =>
      cases others with
      | nil => exact ⟨rfl, List.append_cancel_left equal⟩
      | cons other others => cases (List.cons.inj equal).1
  | cons field fields =>
      cases others with
      | nil => cases (List.cons.inj equal).1
      | cons other others =>
          obtain ⟨same, more⟩ := field_append_inj lawful (readable field List.mem_cons_self) equal
          obtain ⟨rfl, last⟩ := more_fields_append_inj lawful
            (fun later member => readable later (List.mem_cons_of_mem _ member)) more
          exact ⟨congrArg (· :: fields) same, last⟩

/-- Every value is read from the front of a text. -/
theorem readable (lawful : printer.Lawful) (value : Json Number) : Readable printer value := by
  induction value using induct with
  | null =>
      intro other rest otherRest _ _ equal
      have shapes := shape_eq_of_print lawful equal
      cases other with
      | null => exact ⟨rfl, List.append_cancel_left equal⟩
      | _ => cases shapes
  | bool value =>
      intro other rest otherRest _ _ equal
      have shapes := shape_eq_of_print lawful equal
      cases other with
      | bool other =>
          cases value <;> cases other
          · exact ⟨rfl, List.append_cancel_left equal⟩
          · cases (List.cons.inj equal).1
          · cases (List.cons.inj equal).1
          · exact ⟨rfl, List.append_cancel_left equal⟩
      | _ => cases shapes
  | number value =>
      intro other rest otherRest ended otherEnded equal
      have shapes := shape_eq_of_print lawful equal
      cases other with
      | number other =>
          obtain ⟨rfl, last⟩ := number_append_inj lawful ended otherEnded equal
          exact ⟨rfl, last⟩
      | _ => cases shapes
  | string text =>
      intro other rest otherRest _ _ equal
      have shapes := shape_eq_of_print lawful equal
      cases other with
      | string other =>
          obtain ⟨rfl, last⟩ := quote_append_inj lawful equal
          exact ⟨rfl, last⟩
      | _ => cases shapes
  | array items ih =>
      intro other rest otherRest _ _ equal
      have shapes := shape_eq_of_print lawful equal
      cases other with
      | array others =>
          obtain ⟨rfl, last⟩ := items_append_inj lawful ih (List.cons.inj equal).2
          exact ⟨rfl, last⟩
      | _ => cases shapes
  | object fields ih =>
      intro other rest otherRest _ _ equal
      have shapes := shape_eq_of_print lawful equal
      cases other with
      | object others =>
          obtain ⟨rfl, last⟩ := fields_append_inj lawful ih (List.cons.inj equal).2
          exact ⟨rfl, last⟩
      | _ => cases shapes

/-- The text of a value determines it. -/
theorem print_injective (lawful : printer.Lawful) :
    Function.Injective (print printer : Json Number → List Char) := by
  intro left right equal
  have ended : Ended [] := by
    intro character first
    cases first
  have whole : print printer left ++ [] = print printer right ++ [] := by rw [equal]
  exact (readable lawful left ended ended whole).1

end Reading

end Json

end Citadel
