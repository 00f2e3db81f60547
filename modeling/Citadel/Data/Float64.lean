import Mathlib.Algebra.Group.Nat.Defs
import Mathlib.Data.Nat.Log

/-!
# Double-precision scaling of whole numbers

The code scales 64-bit integers by constants such as `0.9` through `f64` and
casts the product back. For these operands a double is a dyadic rational far
from the exponent limits, so conversion, product and cast are exact integer
arithmetic: rounding a positive rational `n / 2 ^ s` to 53 significant bits,
ties to even, only depends on `n`.
-/

namespace Citadel

/-- A positive double `significand / 2 ^ scale`. -/
structure Float64 where
  significand : Nat
  scale : Nat
  deriving DecidableEq, Repr

namespace Float64

/-- Round to 53 significant bits, ties to even. -/
def round (value : Nat) : Nat :=
  let excess := Nat.log2 value - 52
  let unit := 2 ^ excess
  let quotient := value / unit
  let remainder := value % unit
  if 2 * remainder < unit then quotient * unit
  else if unit < 2 * remainder then (quotient + 1) * unit
  else (quotient + quotient % 2) * unit

/-- The cast `(count as f64 * factor) as u64`, which saturates. -/
def scaleU64 (factor : Float64) (count : Nat) : Nat :=
  min (round (round count * factor.significand) / 2 ^ factor.scale) (2 ^ 64 - 1)

/-- The cast `(count as f64 * factor) as i64`, which saturates. -/
def scaleI64 (factor : Float64) (count : Nat) : Nat :=
  min (round (round count * factor.significand) / 2 ^ factor.scale) (2 ^ 63 - 1)

/-! The constants of the code, as the doubles the compiler reads them as. -/

def one : Float64 := ⟨1, 0⟩
def nineTenths : Float64 := ⟨8106479329266893, 53⟩
def fourFifths : Float64 := ⟨3602879701896397, 52⟩
def threeQuarters : Float64 := ⟨3, 2⟩
def threeFifths : Float64 := ⟨5404319552844595, 53⟩
def half : Float64 := ⟨1, 1⟩
def twoFifths : Float64 := ⟨3602879701896397, 53⟩
def threeTenths : Float64 := ⟨5404319552844595, 54⟩
def quarter : Float64 := ⟨1, 2⟩
def oneFifth : Float64 := ⟨3602879701896397, 54⟩
def oneTenth : Float64 := ⟨3602879701896397, 55⟩

end Float64

end Citadel
