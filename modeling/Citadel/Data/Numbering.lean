import Mathlib.Data.List.ReduceOption

/-!
# Numbered results

Calls are played one after the other on one state, and some of their results carry the
number that a counter stood at. The counter moves on with every number it gives out and is
closed by the last one; a call that gives out none leaves it where it was.
-/

namespace Citadel

section Calls

variable {σ κ ρ : Type}

/-- Play calls one after the other, each on the state that the one before left. -/
def playCalls (call : κ → σ → ρ × σ) : List κ → σ → List ρ × σ
  | [], state => ([], state)
  | first :: rest, state =>
      let (result, after) := call first state
      let (results, final) := playCalls call rest after
      (result :: results, final)

/-- If every failing call leaves the state, then so do any number of them. -/
theorem playCalls_of_failed {call : κ → σ → ρ × σ} {Failed : ρ → Prop}
    (keeps : ∀ request state, Failed (call request state).1 → (call request state).2 = state)
    {calls : List κ} {state : σ} (failed : ∀ result ∈ (playCalls call calls state).1, Failed result) :
    (playCalls call calls state).2 = state := by
  induction calls with
  | nil => rfl
  | cons first rest ih =>
      have kept : (call first state).2 = state := keeps first state (failed _ List.mem_cons_self)
      simp only [playCalls, kept] at failed ⊢
      exact ih fun result member => failed result (.tail _ member)

end Calls

/-- A counter, until the last number is given out. -/
structure Counter where
  next : Nat
  closed : Bool
  deriving DecidableEq, Repr

namespace Counter

/-- A call gives out no number, or the next one, and says whether it is the last. -/
inductive Step (limit : Nat) (counter : Counter) : Option (Nat × Bool) → Counter → Prop where
  | refuse : Step limit counter none counter
  | issue {last : Bool} (pending : counter.closed = false) (bounded : counter.next + 1 < limit) :
      Step limit counter (some (counter.next, last)) ⟨counter.next + 1, last⟩

/-- Calls one after the other. -/
inductive Run (limit : Nat) : Counter → List (Option (Nat × Bool)) → Counter → Prop where
  | nil (counter : Counter) : Run limit counter [] counter
  | cons {counter next final : Counter} {number : Option (Nat × Bool)}
      {numbers : List (Option (Nat × Bool))} (step : Step limit counter number next)
      (rest : Run limit next numbers final) : Run limit counter (number :: numbers) final

/-- The numbers of a run: contiguous from the first one, distinct, below the limit, and none
behind the last one. -/
structure Numbered (first limit : Nat) (numbers : List (Option (Nat × Bool))) : Prop where
  contiguous : numbers.reduceOption.map Prod.fst =
    List.range' first numbers.reduceOption.length
  distinct : (numbers.reduceOption.map Prod.fst).Nodup
  bounded : ∀ index last, some (index, last) ∈ numbers → index + 1 < limit
  ends : ∀ before index after, numbers = before ++ some (index, true) :: after →
    ∀ later ∈ after, later = none

variable {limit : Nat} {counter final : Counter} {numbers : List (Option (Nat × Bool))}

/-- A closed counter gives out nothing. -/
theorem Run.none_of_closed (run : Run limit counter numbers final) (closed : counter.closed = true) :
    ∀ number ∈ numbers, number = none := by
  induction run with
  | nil => simp
  | cons step _ ih =>
      intro number member
      cases step with
      | refuse =>
          rcases List.mem_cons.mp member with same | inside
          · exact same
          · exact ih closed number inside
      | issue pending => exact absurd (pending.symm.trans closed) (by simp)

/-- The numbers given are those from the counter on, without a gap. -/
theorem Run.contiguous (run : Run limit counter numbers final) :
    numbers.reduceOption.map Prod.fst =
      List.range' counter.next numbers.reduceOption.length := by
  induction run with
  | nil => rfl
  | cons step _ ih =>
      cases step with
      | refuse => exact ih
      | issue =>
          rw [List.reduceOption_cons_of_some, List.map_cons, ih, List.length_cons,
            List.range'_succ]

/-- No number reaches the limit. -/
theorem Run.bounded (run : Run limit counter numbers final) {index : Nat} {last : Bool}
    (member : some (index, last) ∈ numbers) : index + 1 < limit := by
  induction run with
  | nil => cases member
  | cons step _ ih =>
      rcases List.mem_cons.mp member with same | inside
      · cases same
        cases step with
        | issue _ bounded => exact bounded
      · exact ih inside

/-- After the last number there is none. -/
theorem Run.ends (run : Run limit counter numbers final)
    {before after : List (Option (Nat × Bool))} {index : Nat}
    (split : numbers = before ++ some (index, true) :: after) :
    ∀ later ∈ after, later = none := by
  induction run generalizing before with
  | nil => simp at split
  | cons step rest ih =>
      cases before with
      | nil =>
          cases split
          cases step with
          | issue => exact rest.none_of_closed rfl
      | cons first before =>
          cases split
          exact ih rfl

/-- What a run gives out is numbered. -/
theorem Run.numbered (run : Run limit counter numbers final) :
    Numbered counter.next limit numbers where
  contiguous := run.contiguous
  distinct := by
    rw [run.contiguous]
    exact List.nodup_range'
  bounded := fun _ _ member => run.bounded member
  ends := fun _ _ _ split => run.ends split

/-- Calls that each move the counter as a step does make up a run. -/
theorem run_playCalls {σ κ ρ : Type} {call : κ → σ → ρ × σ} {view : σ → Counter}
    {number : ρ → Option (Nat × Bool)}
    (steps : ∀ request state,
      Step limit (view state) (number (call request state).1) (view (call request state).2))
    (calls : List κ) (state : σ) :
    Run limit (view state) ((playCalls call calls state).1.map number)
      (view (playCalls call calls state).2) := by
  induction calls generalizing state with
  | nil => exact .nil _
  | cons first rest ih => exact .cons (steps first state) (ih _)

end Counter

end Citadel
