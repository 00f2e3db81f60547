import Citadel.Data.Framing
import Mathlib.Data.List.Count

/-!
# Fields between separators

Fields that are joined by a separator are told apart only as far as they do not contain it. A
joined text with one free side determines its fields, and so does its first and its last field
whatever the others contain.
-/

namespace Citadel

section Joined

variable {α : Type} [DecidableEq α] {separator : α}

/-- Joining adds one separator between two fields. -/
theorem count_intercalate (field : List α) (fields : List (List α)) :
    ([separator].intercalate (field :: fields)).count separator =
      fields.length + ((field :: fields).map (List.count separator)).sum := by
  induction fields generalizing field with
  | nil => simp [List.intercalate]
  | cons next fields ih =>
      rw [List.intercalate_cons_cons, List.count_append, List.count_append, ih next,
        List.count_singleton_self]
      simp only [List.map_cons, List.sum_cons, List.length_cons]
      omega

/-- As many fields with the same joined text are free of the separator if the others are. -/
theorem free_of_intercalate {left right : List (List α)} (sizes : left.length = right.length)
    (free : ∀ field ∈ left, separator ∉ field)
    (same : [separator].intercalate left = [separator].intercalate right) :
    ∀ field ∈ right, separator ∉ field := by
  cases left with
  | nil =>
      rw [List.length_eq_zero_iff.mp sizes.symm]
      exact fun _ member => absurd member List.not_mem_nil
  | cons first rest =>
      cases right with
      | nil => simp at sizes
      | cons first' rest' =>
          have counts := congrArg (List.count separator) same
          rw [count_intercalate, count_intercalate] at counts
          have none : ((first :: rest).map (List.count separator)).sum = 0 := by
            apply List.sum_eq_zero_iff_forall_eq_nat.mpr
            intro count member
            obtain ⟨field, inside, rfl⟩ := List.mem_map.mp member
            exact List.count_eq_zero_of_not_mem (free field inside)
          have lengths : rest.length = rest'.length := Nat.succ.inj sizes
          have none' : ((first' :: rest').map (List.count separator)).sum = 0 := by omega
          intro field inside
          have zero := List.sum_eq_zero_iff_forall_eq_nat.mp none' _ (List.mem_map_of_mem inside)
          exact List.count_eq_zero.mp zero

/-- Fields that are free of the separator are determined among as many fields. -/
theorem intercalate_inj {left right : List (List α)} (sizes : left.length = right.length)
    (free : ∀ field ∈ left, separator ∉ field)
    (same : [separator].intercalate left = [separator].intercalate right) : left = right := by
  have free' := free_of_intercalate sizes free same
  cases left with
  | nil => exact (List.length_eq_zero_iff.mp sizes.symm).symm
  | cons first rest =>
      cases right with
      | nil => simp at sizes
      | cons first' rest' =>
          rw [← List.splitOn_intercalate separator free (List.cons_ne_nil _ _), same,
            List.splitOn_intercalate separator free' (List.cons_ne_nil _ _)]

variable {first second third first' second' third' : List α}

omit [DecidableEq α] in
theorem intercalate_pair (first second : List α) :
    [separator].intercalate [first, second] = first ++ separator :: second := by
  simp [List.intercalate]

omit [DecidableEq α] in
theorem intercalate_triple (first second third : List α) :
    [separator].intercalate [first, second, third] =
      first ++ separator :: (second ++ separator :: third) := by
  simp [List.intercalate]

/-- A pair without separators is read back from its text. -/
theorem intercalate_pair_inj (free : separator ∉ first ∧ separator ∉ second)
    (same : [separator].intercalate [first', second'] = [separator].intercalate [first, second]) :
    first' = first ∧ second' = second := by
  have all : ∀ field ∈ [first, second], separator ∉ field := by simpa using free
  have sizes : [first, second].length = [first', second'].length := rfl
  simpa [eq_comm] using intercalate_inj sizes all same.symm

theorem intercalate_triple_inj
    (free : separator ∉ first ∧ separator ∉ second ∧ separator ∉ third)
    (same : [separator].intercalate [first', second', third'] =
      [separator].intercalate [first, second, third]) :
    first' = first ∧ second' = second ∧ third' = third := by
  have all : ∀ field ∈ [first, second, third], separator ∉ field := by simpa using free
  have sizes : [first, second, third].length = [first', second', third'].length := rfl
  simpa [eq_comm] using intercalate_inj sizes all same.symm

omit [DecidableEq α] in
/-- Two fields that are cut elsewhere join to the same text. -/
theorem intercalate_recut {rest : List (List α)}
    (cut : first' ++ separator :: second' = first ++ separator :: second) :
    [separator].intercalate (first' :: second' :: rest) =
      [separator].intercalate (first :: second :: rest) := by
  have merge : ∀ left right : List α, [separator].intercalate (left :: right :: rest) =
      [separator].intercalate ((left ++ separator :: right) :: rest) := by
    intro left right
    cases rest <;> simp [List.intercalate]
  rw [merge, merge, cut]

end Joined

section Ambiguous

variable {separator : Char} {first second third : String}

/-- A separator inside one of two texts lets the cut between them be made elsewhere. -/
theorem exists_other_cut (inside : separator ∈ first.toList ∨ separator ∈ second.toList) :
    ∃ first' second' : String, first' ≠ first ∧
      first'.toList ++ separator :: second'.toList =
        first.toList ++ separator :: second.toList := by
  have shorter : ∀ {left right : String}, left.toList.length < right.toList.length →
      left ≠ right := by
    intro left right less same
    rw [same] at less
    exact lt_irrefl _ less
  rcases inside with member | member
  · obtain ⟨front, back, cut⟩ := List.append_of_mem member
    refine ⟨String.ofList front, String.ofList (back ++ separator :: second.toList), ?_, ?_⟩
    · apply shorter
      simp [cut]
    · simp [cut]
  · obtain ⟨front, back, cut⟩ := List.append_of_mem member
    refine ⟨String.ofList (first.toList ++ separator :: front), String.ofList back, ?_, ?_⟩
    · apply Ne.symm
      apply shorter
      simp
    · simp [cut]

/-- A separator inside one of three texts lets other texts join to the same. -/
theorem exists_other_triple (inside : ¬ (separator ∉ first.toList ∧ separator ∉ second.toList ∧
      separator ∉ third.toList)) :
    ∃ first' second' third' : String, ¬ (first' = first ∧ second' = second) ∧
      [separator].intercalate [first'.toList, second'.toList, third'.toList] =
        [separator].intercalate [first.toList, second.toList, third.toList] := by
  by_cases early : separator ∈ first.toList ∨ separator ∈ second.toList
  · obtain ⟨first', second', differs, cut⟩ := exists_other_cut early
    exact ⟨first', second', third, fun same => differs same.1, intercalate_recut cut⟩
  · have late : separator ∈ second.toList ∨ separator ∈ third.toList := by tauto
    obtain ⟨second', third', differs, cut⟩ := exists_other_cut late
    refine ⟨first, second', third', fun same => differs same.2, ?_⟩
    rw [List.intercalate_cons_cons, intercalate_recut cut, ← List.intercalate_cons_cons]

end Ambiguous

/-- A field behind the last separator is told apart from what stands before it. -/
theorem separated_last_inj {α : Type} {separator : α} {front front' back back' : List α}
    (plain : separator ∉ back) (plain' : separator ∉ back')
    (same : front ++ separator :: back = front' ++ separator :: back') :
    front = front' ∧ back = back' := by
  have mirrored : back.reverse ++ separator :: front.reverse =
      back'.reverse ++ separator :: front'.reverse := by
    have flipped := congrArg List.reverse same
    simpa only [List.reverse_append, List.reverse_cons, List.append_assoc, List.singleton_append]
      using flipped
  obtain ⟨backs, fronts⟩ := separated_inj (mt List.mem_reverse.mp plain)
    (mt List.mem_reverse.mp plain') mirrored
  exact ⟨List.reverse_injective fronts, List.reverse_injective backs⟩

/-- Different numbers have different digits. -/
theorem toDigits_injective : Function.Injective (Nat.toDigits 10) := by
  intro left right same
  have read := congrArg (fun digits => Nat.ofDigitChars 10 digits 0) same
  simpa [Nat.ofDigitChars_ten_toDigits] using read

/-- A number is determined by its decimal text. -/
theorem decimal_text_inj {left right : Nat}
    (same : (toString left).toList = (toString right).toList) : left = right := by
  apply toDigits_injective
  simpa only [Nat.toString_eq_repr, Nat.repr, String.toList_ofList] using same

/-- No bar stands in a decimal number. -/
theorem bar_not_mem_decimal (number : Nat) : '|' ∉ (toString number).toList := by
  intro bar
  rw [Nat.toString_eq_repr, Nat.repr, String.toList_ofList] at bar
  have digit := Nat.isDigit_of_mem_toDigits (by decide) (by decide) bar
  exact absurd digit (by decide)

end Citadel
