import Mathlib.Algebra.Group.Int.Defs
import Mathlib.Algebra.Group.Nat.Defs

/-!
# Checked integer operations

Operations on 64-bit integers that fail where the machine cannot represent the result or there is
none.
-/

namespace Citadel

/-- Why an integer operation fails. -/
inductive ArithmeticFault where
  | divisionByZero
  | overflow
  deriving DecidableEq, Repr

/-- The numbers of a signed 64-bit integer. -/
def FitsI64 (value : Int) : Prop := -2 ^ 63 ≤ value ∧ value < 2 ^ 63

instance (value : Int) : Decidable (FitsI64 value) := inferInstanceAs (Decidable (_ ∧ _))

/-- `i64 * i64`. -/
def mulI64 (left right : Int) : Except ArithmeticFault Int :=
  if FitsI64 (left * right) then .ok (left * right) else .error .overflow

/-- `i64 / i64`. -/
def divI64 (left right : Int) : Except ArithmeticFault Int :=
  if right = 0 then .error .divisionByZero
  else if FitsI64 (left.tdiv right) then .ok (left.tdiv right)
  else .error .overflow

/-- `u64 * u64`. -/
def mulU64 (left right : Nat) : Except ArithmeticFault Nat :=
  if left * right < 2 ^ 64 then .ok (left * right) else .error .overflow

/-- `u64 / u64`. -/
def divU64 (left right : Nat) : Except ArithmeticFault Nat :=
  if right = 0 then .error .divisionByZero else .ok (left / right)

theorem mulI64_eq_ok {left right : Int} (fits : FitsI64 (left * right)) :
    mulI64 left right = .ok (left * right) := if_pos fits

/-- A quotient of numbers that are not negative fits if the dividend does. -/
theorem divI64_eq_ok {left right : Int} (fits : FitsI64 left) (nonneg : 0 ≤ left)
    (positive : 0 < right) : divI64 left right = .ok (left.tdiv right) := by
  have nonzero : right ≠ 0 := by omega
  have lower : 0 ≤ left.tdiv right := Int.tdiv_nonneg nonneg (Int.le_of_lt positive)
  have upper : left.tdiv right ≤ left := Int.tdiv_le_self right nonneg
  have bounds : FitsI64 (left.tdiv right) := by
    unfold FitsI64 at fits ⊢
    omega
  rw [divI64, if_neg nonzero, if_pos bounds]

@[simp] theorem divI64_zero (left : Int) : divI64 left 0 = .error .divisionByZero := rfl

theorem divU64_eq_ok {left right : Nat} (positive : 0 < right) :
    divU64 left right = .ok (left / right) := if_neg (Nat.ne_of_gt positive)

end Citadel
