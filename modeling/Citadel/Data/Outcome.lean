import Mathlib.Logic.Basic

/-!
# Inverting fallible computations

The rules that read a successful chain of fallible steps backwards, one step at a
time.
-/

namespace Citadel

variable {ε δ α β : Type}

/-- A chain that succeeded succeeded at its first step and at the rest. -/
theorem Except.of_bind_eq_ok {first : Except ε α} {rest : α → Except ε β} {result : β}
    (succeeded : (first >>= rest) = .ok result) :
    ∃ value, first = .ok value ∧ rest value = .ok result := by
  cases first with
  | error error => cases succeeded
  | ok value => exact ⟨value, rfl, succeeded⟩

/-- A guard that succeeded was not taken. -/
theorem Except.of_guard_eq_ok {refused : Prop} [Decidable refused] {error : ε}
    {rest : Except ε α} {result : α}
    (succeeded : (if refused then .error error else rest) = .ok result) :
    ¬ refused ∧ rest = .ok result := by
  split at succeeded
  · cases succeeded
  · rename_i passed
    exact ⟨passed, succeeded⟩

theorem Except.mapError_ok (rename : ε → δ) (value : α) :
    (.ok value : Except ε α).mapError rename = .ok value := rfl

theorem Except.mapError_error (rename : ε → δ) (error : ε) :
    (.error error : Except ε α).mapError rename = .error (rename error) := rfl

/-- Renaming errors leaves a success as it was. -/
theorem Except.of_mapError_eq_ok {rename : ε → δ} {outcome : Except ε α} {result : α}
    (succeeded : outcome.mapError rename = .ok result) : outcome = .ok result := by
  cases outcome with
  | error error => cases succeeded
  | ok value =>
      cases succeeded
      rfl

end Citadel
