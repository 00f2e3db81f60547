import Mathlib.Logic.Function.Basic

/-!
# Programs that act on an outside world

A `Program` is the tree of everything a piece of code may do: return, fail with
an error its caller can see, abort, or perform one operation and continue with
the answer. The tree says nothing about the world the operations act on, so one
definition serves both readings of the same code: `Program.run` plays it alone
against a handler, and the interleaving semantics plays many programs against
one shared world, one operation at a time.
-/

namespace Citadel

/-- Why a program stopped with neither a value nor an error. -/
inductive Abort where
  /-- The code panicked. -/
  | panic (message : String)
  /-- A loop used up the iterations it was given. -/
  | outOfFuel
  deriving DecidableEq, Repr

/-- How a finished program answered its caller. -/
inductive Outcome (ε α : Type) where
  | ok (value : α)
  | err (error : ε)
  | aborted (why : Abort)
  deriving DecidableEq, Repr

/-- Whether the caller got a value. -/
def Outcome.isOk {ε α : Type} : Outcome ε α → Bool
  | .ok _ => true
  | .err _ => false
  | .aborted _ => false

/-- Translate the error of an outcome. -/
def Outcome.mapErr {ε δ α : Type} (translate : ε → δ) : Outcome ε α → Outcome δ α
  | .ok value => .ok value
  | .err error => .err (translate error)
  | .aborted why => .aborted why

@[simp] theorem Outcome.isOk_mapErr {ε δ α : Type} (translate : ε → δ) (outcome : Outcome ε α) :
    (outcome.mapErr translate).isOk = outcome.isOk := by
  cases outcome <;> rfl

/-- Hand the error of an outcome over as a value. -/
def Outcome.attempt {ε δ α : Type} : Outcome ε α → Outcome δ (Except ε α)
  | .ok value => .ok (.ok value)
  | .err error => .ok (.error error)
  | .aborted why => .aborted why

/-- The tree of operations a program may perform. `Ret op` is the type of the
answer to `op`. -/
inductive Program (Op : Type) (Ret : Op → Type) (ε α : Type) : Type where
  | ret (value : α)
  | fail (error : ε)
  | abort (why : Abort)
  | perform (op : Op) (next : Ret op → Program Op Ret ε α)

namespace Program

variable {Op : Type} {Ret : Op → Type} {ε δ α β γ σ : Type}

/-- Run the second program on the value of the first; errors and aborts end the
whole. -/
def bind : Program Op Ret ε α → (α → Program Op Ret ε β) → Program Op Ret ε β
  | .ret value, continuation => continuation value
  | .fail error, _ => .fail error
  | .abort why, _ => .abort why
  | .perform op next, continuation => .perform op fun answer => (next answer).bind continuation

instance : Monad (Program Op Ret ε) where
  pure := .ret
  bind := bind

/-- The program that performs one operation and returns its answer. -/
def call (op : Op) : Program Op Ret ε (Ret op) :=
  .perform op .ret

/-- Rewrite the error a program fails with (`Result::map_err`). -/
def mapErr (translate : ε → δ) : Program Op Ret ε α → Program Op Ret δ α
  | .ret value => .ret value
  | .fail error => .fail (translate error)
  | .abort why => .abort why
  | .perform op next => .perform op fun answer => (next answer).mapErr translate

/-- Hand a program's error to its caller as a value. Aborts pass through. -/
def attempt : Program Op Ret ε α → Program Op Ret δ (Except ε α)
  | .ret value => .ret (.ok value)
  | .fail error => .ret (.error error)
  | .abort why => .abort why
  | .perform op next => .perform op fun answer => (next answer).attempt

/-- Continue with a computed result, failing on its error (the `?` operator). -/
def ofExcept (translate : ε → δ) : Except ε α → Program Op Ret δ α
  | .ok value => .ret value
  | .error error => .fail (translate error)

/-- Continue with a value that may be absent (`Option::ok_or`). -/
def ofOption (error : ε) : Option α → Program Op Ret ε α
  | some value => .ret value
  | none => .fail error

/-- Play a program alone against a handler that answers every operation. -/
def run (handle : (op : Op) → σ → Ret op × σ) : Program Op Ret ε α → σ → Outcome ε α × σ
  | .ret value, state => (.ok value, state)
  | .fail error, state => (.err error, state)
  | .abort why, state => (.aborted why, state)
  | .perform op next, state =>
      (next (handle op state).1).run handle (handle op state).2

/-- The states before and after each operation of a run, in order. -/
def transitions (handle : (op : Op) → σ → Ret op × σ) : Program Op Ret ε α → σ → List (σ × σ)
  | .ret _, _ => []
  | .fail _, _ => []
  | .abort _, _ => []
  | .perform op next, state =>
      (state, (handle op state).2) ::
        (next (handle op state).1).transitions handle (handle op state).2

/-- The operations of a run, each with the state that it finds. -/
def performed (handle : (op : Op) → σ → Ret op × σ) : Program Op Ret ε α → σ → List (Op × σ)
  | .ret _, _ => []
  | .fail _, _ => []
  | .abort _, _ => []
  | .perform op next, state =>
      (op, state) :: (next (handle op state).1).performed handle (handle op state).2

/-- How often what is observed of the state changes in a run. -/
def changes [DecidableEq β] (handle : (op : Op) → σ → Ret op × σ) (observe : σ → β)
    (program : Program Op Ret ε α) (state : σ) : Nat :=
  (program.transitions handle state).countP fun pair => observe pair.1 ≠ observe pair.2

@[simp] theorem pure_eq_ret (value : α) :
    (pure value : Program Op Ret ε α) = .ret value := rfl

@[simp] theorem ret_bind (value : α) (continuation : α → Program Op Ret ε β) :
    (Program.ret value >>= continuation) = continuation value := rfl

@[simp] theorem fail_bind (error : ε) (continuation : α → Program Op Ret ε β) :
    ((Program.fail error : Program Op Ret ε α) >>= continuation) = .fail error := rfl

@[simp] theorem abort_bind (why : Abort) (continuation : α → Program Op Ret ε β) :
    ((Program.abort why : Program Op Ret ε α) >>= continuation) = .abort why := rfl

@[simp] theorem perform_bind (op : Op) (next : Ret op → Program Op Ret ε α)
    (continuation : α → Program Op Ret ε β) :
    (Program.perform op next >>= continuation) =
      .perform op fun answer => next answer >>= continuation := rfl

@[simp] theorem call_bind (op : Op) (continuation : Ret op → Program Op Ret ε β) :
    ((call op : Program Op Ret ε (Ret op)) >>= continuation) = .perform op continuation := rfl

/-- Sequencing is associative. -/
theorem bind_assoc (program : Program Op Ret ε α) (first : α → Program Op Ret ε β)
    (second : β → Program Op Ret ε γ) :
    (program >>= first) >>= second = program >>= fun value => first value >>= second := by
  induction program with
  | ret value => rfl
  | fail error => rfl
  | abort why => rfl
  | perform op next ih =>
      simp only [perform_bind]
      exact congrArg (Program.perform op) (funext ih)

section Run

variable (handle : (op : Op) → σ → Ret op × σ)

@[simp] theorem run_ret (value : α) (state : σ) :
    (Program.ret value : Program Op Ret ε α).run handle state = (.ok value, state) := rfl

@[simp] theorem run_fail (error : ε) (state : σ) :
    (Program.fail error : Program Op Ret ε α).run handle state = (.err error, state) := rfl

@[simp] theorem run_abort (why : Abort) (state : σ) :
    (Program.abort why : Program Op Ret ε α).run handle state = (.aborted why, state) := rfl

@[simp] theorem run_perform (op : Op) (next : Ret op → Program Op Ret ε α) (state : σ) :
    (Program.perform op next).run handle state =
      (next (handle op state).1).run handle (handle op state).2 := rfl

/-- Feed the answer of a finished program to its continuation. -/
def andThen (handle : (op : Op) → σ → Ret op × σ) (continuation : α → Program Op Ret ε β) :
    Outcome ε α × σ → Outcome ε β × σ
  | (.ok value, state) => (continuation value).run handle state
  | (.err error, state) => (.err error, state)
  | (.aborted why, state) => (.aborted why, state)

@[simp] theorem andThen_ok (continuation : α → Program Op Ret ε β) (value : α) (state : σ) :
    andThen handle continuation (.ok value, state) = (continuation value).run handle state := rfl

@[simp] theorem andThen_err (continuation : α → Program Op Ret ε β) (error : ε) (state : σ) :
    andThen handle continuation (.err error, state) = (.err error, state) := rfl

@[simp] theorem andThen_aborted (continuation : α → Program Op Ret ε β) (why : Abort)
    (state : σ) :
    andThen handle continuation (.aborted why, state) = (.aborted why, state) := rfl

/-- A run of a sequence is the run of its first part followed by the rest. -/
theorem run_bind (program : Program Op Ret ε α) (continuation : α → Program Op Ret ε β)
    (state : σ) :
    (program >>= continuation).run handle state =
      andThen handle continuation (program.run handle state) := by
  induction program generalizing state with
  | ret value => rfl
  | fail error => rfl
  | abort why => rfl
  | perform op next ih => exact ih _ _

/-- A sequence performs what its first part does, and what the rest does if that succeeds. -/
theorem mem_performed_bind {program : Program Op Ret ε α} {continuation : α → Program Op Ret ε β}
    {state : σ} {asked : Op × σ} :
    asked ∈ (program >>= continuation).performed handle state ↔
      asked ∈ program.performed handle state ∨
        ∃ value middle, program.run handle state = (.ok value, middle) ∧
          asked ∈ (continuation value).performed handle middle := by
  induction program generalizing state with
  | ret value =>
      constructor
      · intro rest
        exact .inr ⟨value, state, rfl, rest⟩
      · rintro (first | ⟨_, _, ran, rest⟩)
        · cases first
        · cases ran
          exact rest
  | fail error => simp [performed]
  | abort why => simp [performed]
  | perform op next ih =>
      simp only [perform_bind, performed, List.mem_cons, run_perform, ih, or_assoc]

/-- What every performed operation keeps, the run keeps. -/
theorem performed_invariant {handle : (op : Op) → σ → Ret op × σ} {program : Program Op Ret ε α}
    {state : σ} (invariant : σ → Prop)
    (step : ∀ asked ∈ program.performed handle state, invariant asked.2 →
      invariant (handle asked.1 asked.2).2)
    (start : invariant state) : invariant (program.run handle state).2 := by
  induction program generalizing state with
  | ret value => exact start
  | fail error => exact start
  | abort why => exact start
  | perform op next ih =>
      apply ih
      · intro asked member
        exact step asked (List.mem_cons_of_mem _ member)
      · exact step (op, state) List.mem_cons_self start

/-- What can only change by coming to an end changes at most once. -/
theorem changes_le_one [DecidableEq β] {handle : (op : Op) → σ → Ret op × σ} {observe : σ → β}
    {live : β → Prop} {program : Program Op Ret ε α} {state : σ}
    (ends : ∀ before after, (before, after) ∈ program.transitions handle state →
      observe before = observe after ∨ live (observe before) ∧ ¬ live (observe after)) :
    program.changes handle observe state ≤ 1 ∧
      (¬ live (observe state) → program.changes handle observe state = 0) := by
  induction program generalizing state with
  | ret value => exact ⟨Nat.zero_le 1, fun _ => rfl⟩
  | fail error => exact ⟨Nat.zero_le 1, fun _ => rfl⟩
  | abort why => exact ⟨Nat.zero_le 1, fun _ => rfl⟩
  | perform op next ih =>
      obtain ⟨bounded, ended⟩ := ih (handle op state).1
        fun before after member => ends before after (List.mem_cons_of_mem _ member)
      unfold changes at bounded ended ⊢
      rw [transitions, List.countP_cons]
      rcases ends _ _ List.mem_cons_self with same | ⟨alive, dead⟩
      · rw [if_neg (by simpa using same), same]
        exact ⟨bounded, ended⟩
      · constructor
        · rw [ended dead]
          split <;> omega
        · intro absent
          exact absurd alive absent

/-- The error of the first part is the error of the whole. -/
theorem run_bind_eq_err {program : Program Op Ret ε α} {continuation : α → Program Op Ret ε β}
    {state : σ} {error : ε} (failed : (program.run handle state).1 = .err error) :
    ((program >>= continuation).run handle state).1 = .err error := by
  rw [run_bind]
  cases ran : program.run handle state with
  | mk outcome after =>
      rw [ran] at failed
      cases failed
      rfl

/-- Wrapping the value of a program. -/
theorem run_bind_ret_eq_ok {program : Program Op Ret ε α} {wrap : α → β} {state : σ} {value : α}
    (returned : (program.run handle state).1 = .ok value) :
    ((program >>= fun value => .ret (wrap value)).run handle state).1 = .ok (wrap value) := by
  rw [run_bind]
  cases ran : program.run handle state with
  | mk outcome after =>
      rw [ran] at returned
      cases returned
      rfl

/-- Rewriting errors does not change what a program does to the world. -/
theorem run_mapErr (translate : ε → δ) (program : Program Op Ret ε α) (state : σ) :
    (program.mapErr translate).run handle state =
      ((program.run handle state).1.mapErr translate, (program.run handle state).2) := by
  induction program generalizing state with
  | ret value => rfl
  | fail error => rfl
  | abort why => rfl
  | perform op next ih => exact ih _ _

/-- Handing over the error does not change what a program does to the world. -/
theorem run_attempt (program : Program Op Ret ε α) (state : σ) :
    (program.attempt : Program Op Ret δ (Except ε α)).run handle state =
      ((program.run handle state).1.attempt, (program.run handle state).2) := by
  induction program generalizing state with
  | ret value => rfl
  | fail error => rfl
  | abort why => rfl
  | perform op next ih => exact ih _ _

/-- The run ends with a value or an error. -/
def Ends (program : Program Op Ret ε α) (state : σ) : Prop :=
  ∀ why, (program.run handle state).1 ≠ .aborted why

section Ends

variable {handle} {state : σ}

theorem ends_ret {value : α} : Ends handle (.ret value : Program Op Ret ε α) state := by
  intro why same
  cases same

theorem ends_fail {error : ε} : Ends handle (.fail error : Program Op Ret ε α) state := by
  intro why same
  cases same

theorem ends_ofExcept {translate : ε → δ} {value : Except ε α} :
    Ends handle (ofExcept translate value : Program Op Ret δ α) state := by
  cases value with
  | ok value => exact ends_ret
  | error problem => exact ends_fail

theorem ends_ofOption {error : ε} {found : Option α} :
    Ends handle (ofOption error found : Program Op Ret ε α) state := by
  cases found with
  | some value => exact ends_ret
  | none => exact ends_fail

/-- After an option that is there, the rest has to end. -/
theorem ends_ofOption_bind {error : ε} {found : Option α} {continuation : α → Program Op Ret ε β}
    (rest : ∀ value, found = some value → Ends handle (continuation value) state) :
    Ends handle (ofOption error found >>= continuation) state := by
  cases found with
  | some value => exact rest value rfl
  | none => exact ends_fail

/-- After a result that is not an error, the rest has to end. -/
theorem ends_ofExcept_bind {translate : ε → δ} {result : Except ε α}
    {continuation : α → Program Op Ret δ β}
    (rest : ∀ value, result = .ok value → Ends handle (continuation value) state) :
    Ends handle (ofExcept translate result >>= continuation) state := by
  cases result with
  | ok value => exact rest value rfl
  | error problem => exact ends_fail

/-- Renaming the error does not keep a program from ending. -/
theorem ends_mapErr {translate : ε → δ} {program : Program Op Ret ε α}
    (ends : Ends handle program state) : Ends handle (program.mapErr translate) state := by
  intro why aborted
  rw [run_mapErr] at aborted
  cases first : (program.run handle state).1 with
  | ok value =>
      rw [first] at aborted
      cases aborted
  | err error =>
      rw [first] at aborted
      cases aborted
  | aborted panicked => exact ends panicked first

/-- A sequence ends when both of its parts do. -/
theorem ends_bind {program : Program Op Ret ε α} {continuation : α → Program Op Ret ε β} :
    Ends handle (program >>= continuation) state ↔ Ends handle program state ∧
      ∀ value middle, program.run handle state = (.ok value, middle) →
        Ends handle (continuation value) middle := by
  unfold Ends
  rw [run_bind]
  cases program.run handle state with
  | mk outcome after =>
      cases outcome with
      | ok value =>
          constructor
          · intro ended
            constructor
            · intro why same
              cases same
            · intro result middle ran
              cases ran
              exact ended
          · rintro ⟨-, ended⟩
            exact ended value after rfl
      | err error =>
          constructor
          · intro ended
            constructor
            · intro why same
              cases same
            · intro result middle ran
              cases ran
          · rintro ⟨ended, -⟩ why same
            cases same
      | aborted why =>
          constructor
          · intro ended
            exact absurd rfl (ended why)
          · rintro ⟨ended, -⟩
            exact absurd rfl (ended why)

end Ends

variable {handle} {state after : σ}

/-- When a sequence succeeds, so did its first part, and the rest went on from there. -/
theorem of_run_bind_eq_ok {program : Program Op Ret ε α} {continuation : α → Program Op Ret ε β}
    {result : β} (ran : (program >>= continuation).run handle state = (.ok result, after)) :
    ∃ value middle, program.run handle state = (.ok value, middle) ∧
      (continuation value).run handle middle = (.ok result, after) := by
  rw [run_bind] at ran
  match first : program.run handle state with
  | (.ok value, middle) =>
      rw [first] at ran
      exact ⟨value, middle, rfl, ran⟩
  | (.err error, middle) =>
      rw [first] at ran
      cases ran
  | (.aborted why, middle) =>
      rw [first] at ran
      cases ran

/-- Renaming errors makes no program succeed. -/
theorem of_run_mapErr_eq_ok {translate : ε → δ} {program : Program Op Ret ε α} {value : α}
    (ran : (program.mapErr translate).run handle state = (.ok value, after)) :
    program.run handle state = (.ok value, after) := by
  rw [run_mapErr] at ran
  match first : program.run handle state with
  | (.ok result, middle) =>
      rw [first] at ran
      cases ran
      rfl
  | (.err error, middle) =>
      rw [first] at ran
      cases ran
  | (.aborted why, middle) =>
      rw [first] at ran
      cases ran

/-- When the run gets past an option, the option was there. -/
theorem of_run_ofOption_bind_eq_ok {error : ε} {found : Option α}
    {continuation : α → Program Op Ret ε β} {result : β}
    (ran : (ofOption error found >>= continuation).run handle state = (.ok result, after)) :
    ∃ value, found = some value ∧
      (continuation value).run handle state = (.ok result, after) := by
  cases found with
  | none => cases ran
  | some value => exact ⟨value, rfl, ran⟩

/-- When the run gets past a result, the result was no error. -/
theorem of_run_ofExcept_bind_eq_ok {translate : ε → δ} {found : Except ε α}
    {continuation : α → Program Op Ret δ β} {result : β}
    (ran : (ofExcept translate found >>= continuation).run handle state = (.ok result, after)) :
    ∃ value, found = .ok value ∧
      (continuation value).run handle state = (.ok result, after) := by
  cases found with
  | error problem => cases ran
  | ok value => exact ⟨value, rfl, ran⟩

/-- When the run gets past a check, the check was passed. -/
theorem of_run_guard_eq_ok {refused : Prop} [Decidable refused] {error : ε}
    {rest : Program Op Ret ε α} {result : α}
    (ran : (if refused then .fail error else rest).run handle state = (.ok result, after)) :
    ¬ refused ∧ rest.run handle state = (.ok result, after) := by
  by_cases taken : refused
  · rw [if_pos taken] at ran
    cases ran
  · rw [if_neg taken] at ran
    exact ⟨taken, ran⟩

/-- An option that was returned was there. -/
theorem of_run_ofOption_eq_ok {error : ε} {found : Option α} {value : α}
    (ran : (ofOption error found : Program Op Ret ε α).run handle state = (.ok value, after)) :
    found = some value := by
  cases found with
  | none => cases ran
  | some result =>
      cases ran
      rfl

/-- A result that was returned was no error. -/
theorem of_run_ofExcept_eq_ok {translate : ε → δ} {found : Except ε α} {value : α}
    (ran : (ofExcept translate found : Program Op Ret δ α).run handle state =
      (.ok value, after)) :
    found = .ok value := by
  cases found with
  | error problem => cases ran
  | ok result =>
      cases ran
      rfl

end Run

end Program

end Citadel
