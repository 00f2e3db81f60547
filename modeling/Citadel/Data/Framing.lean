import Citadel.Data.Bytes

/-!
# Fields that can be told apart

A field written behind its own length, as a big-endian integer of fixed width, can be
followed by anything: where the field ends is known before its content is read. So a
sequence of such fields determines every one of them. A field without a length ends at the
first separator, provided that it contains none.
-/

namespace Citadel

/-- A field behind its length. -/
def framed (width : Nat) (field : Bytes) : Bytes := beBytes width field.length ++ field

@[simp] theorem framed_length (width : Nat) (field : Bytes) :
    (framed width field).length = width + field.length := by
  simp [framed]

/-- Numbers that fit are told apart by their bytes. -/
theorem beBytes_inj {width left right : Nat} (leftFits : left < 256 ^ width)
    (rightFits : right < 256 ^ width) (same : beBytes width left = beBytes width right) :
    left = right := by
  rw [← beNat_beBytes_of_lt leftFits, same, beNat_beBytes_of_lt rightFits]

/-- A number read from bytes is written back as the same bytes. -/
theorem beBytes_beNat (bytes : Bytes) : beBytes bytes.length (beNat bytes) = bytes := by
  induction bytes using List.reverseRecOn with
  | nil => rfl
  | append_singleton front last ih =>
      have bound : last.toNat < 256 := last.toNat_lt
      have high : (beNat front * 256 + last.toNat) / 256 = beNat front := by omega
      have low : UInt8.ofNat (beNat front * 256 + last.toNat) = last := by
        apply UInt8.toNat_inj.mp
        rw [UInt8.toNat_ofNat']
        omega
      rw [beNat_append_singleton, List.length_append, List.length_singleton, beBytes, high, low, ih]

/-- A field at the front of a text is determined by the text, and so is what follows it. -/
theorem framed_append_inj {width : Nat} {left right leftRest rightRest : Bytes}
    (leftFits : left.length < 256 ^ width) (rightFits : right.length < 256 ^ width)
    (same : framed width left ++ leftRest = framed width right ++ rightRest) :
    left = right ∧ leftRest = rightRest := by
  simp only [framed, List.append_assoc] at same
  obtain ⟨prefixes, same⟩ := List.append_inj same (by simp)
  have lengths := beBytes_inj leftFits rightFits prefixes
  exact List.append_inj same lengths

/-- A field that ends at the first separator is told apart from what follows. -/
theorem separated_inj {α : Type} {separator : α} {front front' back back' : List α}
    (plain : separator ∉ front) (plain' : separator ∉ front')
    (same : front ++ separator :: back = front' ++ separator :: back') :
    front = front' ∧ back = back' := by
  induction front generalizing front' with
  | nil =>
      cases front' with
      | nil => exact ⟨rfl, (List.cons.inj same).2⟩
      | cons first rest => exact absurd (List.cons.inj same).1 (List.ne_of_not_mem_cons plain')
  | cons first rest ih =>
      cases front' with
      | nil => exact absurd (List.cons.inj same).1.symm (List.ne_of_not_mem_cons plain)
      | cons first' rest' =>
          obtain ⟨rfl, tails⟩ := List.cons.inj same
          obtain ⟨rfl, rfl⟩ := ih (List.not_mem_of_not_mem_cons plain)
            (List.not_mem_of_not_mem_cons plain') tails
          exact ⟨rfl, rfl⟩

end Citadel
