import Mathlib.Algebra.Order.Ring.Rat
import Mathlib.Tactic.Linarith
import Citadel.Data.Machine

/-!
# Meters

A meter reads from the state of a machine how much is left of an allowance. Time adds to it at
a rate, up to a burst, and every input that is charged takes one from it. However the machine
is run, no window of time has more charged inputs than the burst and what the rate adds over
the window.
-/

namespace Citadel.Machine

variable {σ ι ο : Type}

/-- The inputs of a run that are charged, told by the input and the answer to it. -/
def charged (step : σ → ι → ο × σ) (charges : ι → ο → Bool) : σ → List ι → List ι
  | _, [] => []
  | state, input :: rest =>
      if charges input (step state input).1 then
        input :: charged step charges (step state input).2 rest
      else charged step charges (step state input).2 rest

/-- How many of some inputs fall into a window of time. -/
def within (instant : ι → ℕ) (first last : ℕ) (inputs : List ι) : ℕ :=
  inputs.countP fun input => first ≤ instant input ∧ instant input ≤ last

/-- What a machine must do for the inputs that are charged to be metered, on steps that meet a
condition. -/
structure Meter (step : σ → ι → ο × σ) (instant : ι → ℕ) (charges : ι → ο → Bool)
    (allowed : σ → ι → Prop) (rate burst : ℚ) where
  level : σ → ℕ → ℚ
  holds : σ → Prop
  rate_nonneg : 0 ≤ rate
  level_nonneg : ∀ state now, holds state → 0 ≤ level state now
  level_le : ∀ state now, holds state → level state now ≤ burst
  refills : ∀ state now later, holds state → now ≤ later →
    level state later ≤ level state now + rate * (later - now)
  charge : ∀ state input, holds state → allowed state input →
    level (step state input).2 (instant input) +
      (if charges input (step state input).1 then 1 else 0) ≤ level state (instant input)
  keeps : ∀ state input, holds state → allowed state input → holds (step state input).2

section Windows

variable {step : σ → ι → ο × σ} {instant : ι → ℕ} {charges : ι → ο → Bool}
  {state : σ} {inputs : List ι} {clock first last : ℕ}

/-- Only inputs are charged, in their order. -/
theorem charged_sublist : (charged step charges state inputs).Sublist inputs := by
  induction inputs generalizing state with
  | nil => exact List.Sublist.refl []
  | cons input rest ih =>
      rw [charged]
      split
      · exact ih.cons_cons input
      · exact ih.cons input

theorem charged_append (left right : List ι) :
    charged step charges state (left ++ right) =
      charged step charges state left ++ charged step charges (after step state left) right := by
  induction left generalizing state with
  | nil => rfl
  | cons input rest ih =>
      rw [List.cons_append, charged, charged, after_cons, ih]
      split
      · rfl
      · rfl

theorem within_append (left right : List ι) :
    within instant first last (left ++ right) =
      within instant first last left + within instant first last right :=
  List.countP_append

/-- Nothing falls into a window that is over. -/
theorem within_charged_of_late (late : last < clock)
    (ordered : (clock :: inputs.map instant).Pairwise (· ≤ ·)) :
    within instant first last (charged step charges state inputs) = 0 := by
  apply List.countP_eq_zero.mpr
  intro input member
  have after : clock ≤ instant input := by
    apply List.rel_of_pairwise_cons ordered
    exact List.mem_map_of_mem (charged_sublist.subset member)
  simp only [decide_eq_true_eq, not_and, not_le]
  intro _
  omega

/-- One more input counts when it is charged and falls within the window. -/
theorem within_charged_cons (input : ι) (rest : List ι) :
    within instant first last (charged step charges state (input :: rest)) =
      within instant first last (charged step charges (step state input).2 rest) +
        if charges input (step state input).1 = true ∧ first ≤ instant input ∧
          instant input ≤ last then 1 else 0 := by
  rw [charged]
  split
  · rename_i charge
    simp [within, List.countP_cons, charge]
  · rename_i free
    simp [free]

namespace Meter

variable {allowed : σ → ι → Prop} {rate burst : ℚ}

/-- From now to the end of a window at most as much is charged as the meter shows now and the
rate adds until then. -/
theorem within_le_level (meter : Meter step instant charges allowed rate burst)
    (ordered : (clock :: inputs.map instant).Pairwise (· ≤ ·)) (ahead : clock ≤ last)
    (along : Along step allowed state inputs) (holds : meter.holds state) :
    (within instant first last (charged step charges state inputs) : ℚ) ≤
      meter.level state clock + rate * (last - clock) := by
  have gain : 0 ≤ rate * ((last : ℚ) - clock) :=
    mul_nonneg meter.rate_nonneg (sub_nonneg.mpr (Nat.cast_le.mpr ahead))
  have level := meter.level_nonneg state clock holds
  induction inputs generalizing clock state with
  | nil =>
      simp only [charged, within, List.countP_nil, Nat.cast_zero]
      linarith
  | cons input rest ih =>
      have next : clock ≤ instant input := List.rel_of_pairwise_cons ordered List.mem_cons_self
      obtain ⟨met, later⟩ := along
      rw [within_charged_cons]
      by_cases inside : instant input ≤ last
      · have grown := meter.refills state clock (instant input) holds next
        have taken := meter.charge state input holds met
        have kept := meter.keeps state input holds met
        have tail := ih ordered.of_cons inside later kept
          (mul_nonneg meter.rate_nonneg (sub_nonneg.mpr (Nat.cast_le.mpr inside)))
          (meter.level_nonneg _ _ kept)
        have one : ((if charges input (step state input).1 = true ∧ first ≤ instant input ∧
            instant input ≤ last then 1 else 0 : ℕ) : ℚ) ≤
              if charges input (step state input).1 = true then 1 else 0 := by
          split
          · rename_i charge
            simp [charge.1]
          · split
            · simp
            · simp
        rw [Nat.cast_add]
        linarith
      · rw [within_charged_of_late (Nat.not_le.mp inside) ordered.of_cons, if_neg]
        · rw [Nat.zero_add, Nat.cast_zero]
          linarith
        · rintro ⟨-, -, early⟩
          exact inside early

/-- In every window of time at most as much is charged as the burst and what the rate adds over
the window. -/
theorem within_le (meter : Meter step instant charges allowed rate burst)
    (ordered : (clock :: inputs.map instant).Pairwise (· ≤ ·)) (window : first ≤ last)
    (along : Along step allowed state inputs) (holds : meter.holds state) :
    (within instant first last (charged step charges state inputs) : ℚ) ≤
      burst + rate * (last - first) := by
  have gain : 0 ≤ rate * ((last : ℚ) - first) :=
    mul_nonneg meter.rate_nonneg (sub_nonneg.mpr (Nat.cast_le.mpr window))
  have burst_nonneg : 0 ≤ burst :=
    le_trans (meter.level_nonneg state clock holds) (meter.level_le state clock holds)
  induction inputs generalizing clock state with
  | nil =>
      simp only [charged, within, List.countP_nil, Nat.cast_zero]
      linarith
  | cons input rest ih =>
      obtain ⟨met, later⟩ := id along
      have kept := meter.keeps state input holds met
      by_cases early : instant input < first
      · -- the window has not begun
        rw [within_charged_cons, if_neg, Nat.add_zero]
        · exact ih ordered.of_cons later kept
        · rintro ⟨-, begun, -⟩
          omega
      · by_cases inside : instant input ≤ last
        · -- from the first input of the window on, the meter shows at most the burst
          have again : (instant input :: (input :: rest).map instant).Pairwise (· ≤ ·) := by
            rw [List.map_cons, List.pairwise_cons]
            constructor
            · intro other member
              rcases List.mem_cons.mp member with rfl | behind
              · exact Nat.le_refl _
              · exact List.rel_of_pairwise_cons ordered.of_cons behind
            · exact ordered.of_cons
          have bound : (within instant first last
              (charged step charges state (input :: rest)) : ℚ) ≤
                meter.level state (instant input) + rate * (last - instant input) :=
            meter.within_le_level again inside along holds
          have full := meter.level_le state (instant input) holds
          have shorter : rate * ((last : ℚ) - instant input) ≤ rate * (last - first) := by
            apply mul_le_mul_of_nonneg_left _ meter.rate_nonneg
            have begun : (first : ℚ) ≤ instant input := Nat.cast_le.mpr (Nat.not_lt.mp early)
            linarith
          linarith
        · rw [within_charged_cons, within_charged_of_late (Nat.not_le.mp inside) ordered.of_cons,
            if_neg]
          · rw [Nat.zero_add, Nat.cast_zero]
            linarith
          · rintro ⟨-, -, early⟩
            exact inside early

end Meter

end Windows

end Citadel.Machine
