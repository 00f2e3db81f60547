import Mathlib.Order.Lattice

/-!
# Levels that follow a band

A level that follows a band moves only as far as it has to: up to the lower bound of the band
when it is below it, down to the upper bound when it is above. Following a band twice is
following it once. Along bands that rise, only the first one can pull a level down for good.
-/

namespace Citadel

/-- A lower and an upper bound. -/
structure Band (α : Type) [LE α] where
  low : α
  high : α
  ordered : low ≤ high

namespace Band

variable {α : Type} [LinearOrder α]

/-- What becomes of a level that follows the band. -/
def hold (band : Band α) (level : α) : α := min (max level band.low) band.high

variable {band first last : Band α} {level : α}

theorem low_le_hold (band : Band α) (level : α) : band.low ≤ band.hold level :=
  le_min (le_max_right _ _) band.ordered

theorem hold_le_high (band : Band α) (level : α) : band.hold level ≤ band.high :=
  min_le_right _ _

/-- The same, as the cases below, above and inside the band. -/
theorem hold_eq (band : Band α) (level : α) : band.hold level =
    if level < band.low then band.low else if band.high < level then band.high else level := by
  split
  · rename_i below
    rw [hold, max_eq_right below.le, min_eq_left band.ordered]
  · rename_i reached
    rw [hold, max_eq_left (not_lt.mp reached)]
    split
    · rename_i above
      exact min_eq_right above.le
    · rename_i inside
      exact min_eq_left (not_lt.mp inside)

/-- A level inside the band stays. -/
theorem hold_of_mem (above : band.low ≤ level) (below : level ≤ band.high) :
    band.hold level = level := by
  rw [hold, max_eq_left above, min_eq_left below]

/-- Holding twice is holding once. -/
@[simp] theorem hold_hold (band : Band α) (level : α) :
    band.hold (band.hold level) = band.hold level :=
  hold_of_mem (band.low_le_hold level) (band.hold_le_high level)

/-- A level rises only to the lower bound. -/
theorem lt_low_of_lt_hold (rises : level < band.hold level) :
    level < band.low ∧ band.hold level = band.low := by
  have above : level < band.low := by
    by_contra inside
    have stays : band.hold level ≤ level := by
      rw [hold, max_eq_left (not_lt.mp inside)]
      exact min_le_left _ _
    exact absurd rises (not_lt.mpr stays)
  constructor
  · exact above
  · rw [hold, max_eq_right above.le, min_eq_left band.ordered]

/-- A level falls only to the upper bound. -/
theorem high_lt_of_hold_lt (falls : band.hold level < level) :
    band.high < level ∧ band.hold level = band.high := by
  have above : band.high < level := by
    by_contra inside
    have stays : level ≤ band.hold level :=
      le_min (le_max_left _ _) (not_lt.mp inside)
    exact absurd falls (not_lt.mpr stays)
  constructor
  · exact above
  · rw [hold, min_eq_right (above.le.trans (le_max_left _ _))]

/-- Both bounds of a band are at most those of the next one. -/
def Rises (first next : Band α) : Prop :=
  first.low ≤ next.low ∧ first.high ≤ next.high

/-- A level that no band pulls down ends as if it had followed the last band alone. -/
theorem Rises.hold_hold (rises : first.Rises last) (below : level ≤ first.high) :
    last.hold (first.hold level) = last.hold level := by
  have pushed : max (first.hold level) last.low = max level last.low := by
    rcases le_total level first.low with under | inside
    · have raised : first.hold level = first.low := by
        rw [hold, max_eq_right under, min_eq_left first.ordered]
      rw [raised, max_eq_right rises.1, max_eq_right (under.trans rises.1)]
    · rw [hold_of_mem inside below]
  change min (max (first.hold level) last.low) last.high = min (max level last.low) last.high
  rw [pushed]

end Band

end Citadel
