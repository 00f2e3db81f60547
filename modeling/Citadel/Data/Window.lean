import Mathlib.Data.List.DropRight

/-!
# Windows over a growing list

A window drops what is stale at the front of a list and then all but the last so many entries.
Whether a list is cut after each entry or once in the end makes no difference as long as the list
never exceeds the limit, or no stale entry stands behind a fresh one.
-/

namespace Citadel

variable {α : Type}

variable {stale : α → Bool} {limit : Nat} {left right list : List α}

/-- Cutting the list early cannot be noticed. -/
def CutsEarly (stale : α → Bool) (limit : Nat) (list : List α) : Prop :=
  list.length ≤ limit ∨ list.Pairwise fun earlier later => stale later = true → stale earlier = true

/-- A part of a list that is cut early is cut early. -/
theorem CutsEarly.sublist {other : List α} (cuts : CutsEarly stale limit list)
    (inside : other.Sublist list) : CutsEarly stale limit other := by
  rcases cuts with short | ordered
  · exact Or.inl (Nat.le_trans inside.length_le short)
  · exact Or.inr (ordered.sublist inside)

end Citadel
