import Mathlib.Order.Basic
import Mathlib.Data.List.Pairwise

/-!
# Machines that answer

A machine takes an input, answers it and moves to its next state. Two machines that are
given the same inputs are compared by their answers. The inputs carry instants, and the
relation between the two states may speak of every instant from the last one on.
-/

namespace Citadel.Machine

variable {σ τ ι ο κ : Type}

/-- What a machine answers to a sequence of inputs. -/
def answers (step : σ → ι → ο × σ) : σ → List ι → List ο
  | _, [] => []
  | state, input :: rest => (step state input).1 :: answers step (step state input).2 rest

@[simp] theorem answers_nil (step : σ → ι → ο × σ) (state : σ) : answers step state [] = [] := rfl

@[simp] theorem answers_cons (step : σ → ι → ο × σ) (state : σ) (input : ι) (rest : List ι) :
    answers step state (input :: rest) =
      (step state input).1 :: answers step (step state input).2 rest := rfl

/-- The state of a machine after a sequence of inputs. -/
def after (step : σ → ι → ο × σ) (state : σ) (inputs : List ι) : σ :=
  inputs.foldl (fun state input => (step state input).2) state

@[simp] theorem after_cons (step : σ → ι → ο × σ) (state : σ) (input : ι) (rest : List ι) :
    after step state (input :: rest) = after step (step state input).2 rest := rfl

/-- A condition on the state and the next input that every step of a run meets. -/
def Along (step : σ → ι → ο × σ) (allowed : σ → ι → Prop) : σ → List ι → Prop
  | _, [] => True
  | state, input :: rest => allowed state input ∧ Along step allowed (step state input).2 rest

/-- A condition is met all along if it follows from what every step keeps. -/
theorem along_of_kept {step : σ → ι → ο × σ} {allowed : σ → ι → Prop} {kept : σ → Prop}
    (meets : ∀ state input, kept state → allowed state input)
    (keeps : ∀ state input, kept state → kept (step state input).2) {state : σ} {inputs : List ι}
    (start : kept state) : Along step allowed state inputs := by
  induction inputs generalizing state with
  | nil => exact trivial
  | cons input rest ih => exact ⟨meets state input start, ih (keeps state input start)⟩

/-- What is always allowed is allowed along every run. -/
theorem along_of_forall {step : σ → ι → ο × σ} {allowed : σ → ι → Prop}
    (all : ∀ state input, allowed state input) {state : σ} {inputs : List ι} :
    Along step allowed state inputs :=
  along_of_kept (fun state input (_ : True) => all state input) (fun _ _ _ => trivial) trivial

/-- Two machines run side by side, and a condition on their states and the next input that
every step meets. -/
def Throughout (left : σ → ι → ο × σ) (right : τ → ι → ο × τ) (meets : σ → τ → ι → Prop) :
    σ → τ → List ι → Prop
  | _, _, [] => True
  | first, second, input :: rest =>
      meets first second input ∧
        Throughout left right meets (left first input).2 (right second input).2 rest

section Simulation

variable [Preorder κ] {instant : ι → κ} {left : σ → ι → ο × σ} {right : τ → ι → ο × τ}
  {meets : σ → τ → ι → Prop} (related : κ → σ → τ → Prop)

/-- Two machines give the same answers exactly when every step meets a condition, if a step
from related states gets the same answer exactly then and keeps the states related. -/
theorem answers_eq_iff
    (same : ∀ clock first second input, clock ≤ instant input → related clock first second →
      ((left first input).1 = (right second input).1 ↔ meets first second input))
    (keeps : ∀ clock first second input, clock ≤ instant input → related clock first second →
      meets first second input →
        related (instant input) (left first input).2 (right second input).2)
    {inputs : List ι} {clock : κ} {first : σ} {second : τ}
    (ordered : (clock :: inputs.map instant).Pairwise (· ≤ ·))
    (start : related clock first second) :
    answers left first inputs = answers right second inputs ↔
      Throughout left right meets first second inputs := by
  induction inputs generalizing clock first second with
  | nil => simp [Throughout]
  | cons input rest ih =>
      have next : clock ≤ instant input := List.rel_of_pairwise_cons ordered List.mem_cons_self
      have later : (instant input :: rest.map instant).Pairwise (· ≤ ·) := ordered.of_cons
      rw [answers_cons, answers_cons, List.cons.injEq, Throughout, same _ _ _ _ next start]
      constructor
      · rintro ⟨met, equal⟩
        exact ⟨met, (ih later (keeps _ _ _ _ next start met)).mp equal⟩
      · rintro ⟨met, all⟩
        exact ⟨met, (ih later (keeps _ _ _ _ next start met)).mpr all⟩

omit [Preorder κ] in
/-- A condition is met all along if it follows from what every step keeps. -/
theorem throughout_of_kept (kept : σ → τ → Prop) (allowed : ι → Prop)
    (meeting : ∀ first second input, allowed input → kept first second → meets first second input)
    (keeps : ∀ first second input, allowed input → kept first second →
      kept (left first input).2 (right second input).2)
    {inputs : List ι} {first : σ} {second : τ} (all : ∀ input ∈ inputs, allowed input)
    (start : kept first second) : Throughout left right meets first second inputs := by
  induction inputs generalizing first second with
  | nil => exact trivial
  | cons input rest ih =>
      have head : allowed input := all input List.mem_cons_self
      constructor
      · exact meeting first second input head start
      · apply ih
        · intro other member
          exact all other (List.mem_cons_of_mem _ member)
        · exact keeps first second input head start

/-- Related machines give the same answers along a run whose steps meet a condition, when such a
step gets one answer and keeps the machines related. -/
theorem answers_eq_of_along {allowed : σ → ι → Prop}
    (step : ∀ clock first second input, clock ≤ instant input → allowed first input →
      related clock first second → (left first input).1 = (right second input).1 ∧
        related (instant input) (left first input).2 (right second input).2)
    {inputs : List ι} {clock : κ} {first : σ} {second : τ}
    (ordered : (clock :: inputs.map instant).Pairwise (· ≤ ·))
    (along : Along left allowed first inputs) (start : related clock first second) :
    answers left first inputs = answers right second inputs := by
  induction inputs generalizing clock first second with
  | nil => rfl
  | cons input rest ih =>
      have next : clock ≤ instant input := List.rel_of_pairwise_cons ordered List.mem_cons_self
      obtain ⟨met, later⟩ := along
      obtain ⟨same, kept⟩ := step _ _ _ _ next met start
      rw [answers_cons, answers_cons, same, ih ordered.of_cons later kept]

/-- Related machines give the same answers when every step does and keeps them related. -/
theorem answers_eq
    (step : ∀ clock first second input, clock ≤ instant input → related clock first second →
      (left first input).1 = (right second input).1 ∧
        related (instant input) (left first input).2 (right second input).2)
    {inputs : List ι} {clock : κ} {first : σ} {second : τ}
    (ordered : (clock :: inputs.map instant).Pairwise (· ≤ ·))
    (start : related clock first second) :
    answers left first inputs = answers right second inputs :=
  answers_eq_of_along related
    (fun clock first second input next _ => step clock first second input next)
    ordered (along_of_forall fun _ _ => trivial) start

end Simulation

end Citadel.Machine
