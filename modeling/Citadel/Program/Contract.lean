import Citadel.Program.Basic

/-!
# Contracts on what a program does

A `Contract` follows a program with a ghost value that it updates from every
answer. At each ghost value it says which operations the program may perform and
which answers it may rely on. `Program.Meets` is the resulting weakest
precondition. It quantifies over every expected answer, so it holds of a program
alone and of the same program in any interleaving; `Program.Meets.run` is the first
reading, the interleaving module has the second.
-/

namespace Citadel

/-- Which operations a program may perform and which answers it relies on, as a
function of what it has seen. -/
structure Contract (Op : Type) (Ret : Op → Type) where
  Ghost : Type
  Allows : Ghost → Op → Prop
  Expects : Ghost → (op : Op) → Ret op → Prop
  after : Ghost → (op : Op) → Ret op → Ghost

namespace Program

variable {Op : Type} {Ret : Op → Type} {ε δ α β σ : Type}

/-- From `ghost` on, the program performs allowed operations only and ends in
`post`, whatever the expected answers are. -/
def Meets (contract : Contract Op Ret) :
    contract.Ghost → Program Op Ret ε α → (contract.Ghost → Outcome ε α → Prop) → Prop
  | ghost, .ret value, post => post ghost (.ok value)
  | ghost, .fail error, post => post ghost (.err error)
  | ghost, .abort why, post => post ghost (.aborted why)
  | ghost, .perform op next, post =>
      contract.Allows ghost op ∧
        ∀ answer, contract.Expects ghost op answer →
          (next answer).Meets contract (contract.after ghost op answer) post

variable {contract : Contract Op Ret} {ghost : contract.Ghost}

@[simp] theorem meets_ret {value : α} {post : contract.Ghost → Outcome ε α → Prop} :
    (Program.ret value : Program Op Ret ε α).Meets contract ghost post ↔
      post ghost (.ok value) := Iff.rfl

@[simp] theorem meets_fail {error : ε} {post : contract.Ghost → Outcome ε α → Prop} :
    (Program.fail error : Program Op Ret ε α).Meets contract ghost post ↔
      post ghost (.err error) := Iff.rfl

@[simp] theorem meets_abort {why : Abort} {post : contract.Ghost → Outcome ε α → Prop} :
    (Program.abort why : Program Op Ret ε α).Meets contract ghost post ↔
      post ghost (.aborted why) := Iff.rfl

/-- An operation has to be allowed, and the rest has to meet the contract for every answer that
may be expected. -/
@[simp] theorem meets_perform {op : Op} {next : Ret op → Program Op Ret ε α}
    {post : contract.Ghost → Outcome ε α → Prop} :
    (Program.perform op next).Meets contract ghost post ↔
      contract.Allows ghost op ∧
        ∀ answer, contract.Expects ghost op answer →
          (next answer).Meets contract (contract.after ghost op answer) post := Iff.rfl

/-- A weaker postcondition is met as well. -/
theorem Meets.mono {program : Program Op Ret ε α}
    {strong weak : contract.Ghost → Outcome ε α → Prop}
    (meets : program.Meets contract ghost strong)
    (implies : ∀ ghost outcome, strong ghost outcome → weak ghost outcome) :
    program.Meets contract ghost weak := by
  induction program generalizing ghost with
  | ret value => exact implies _ _ meets
  | fail error => exact implies _ _ meets
  | abort why => exact implies _ _ meets
  | perform op next ih => exact ⟨meets.1, fun answer expected => ih answer (meets.2 answer expected)⟩

/-- What a sequence must satisfy after its first part. -/
def bindPost (continuation : α → Program Op Ret ε β)
    (post : contract.Ghost → Outcome ε β → Prop) : contract.Ghost → Outcome ε α → Prop
  | ghost, .ok value => (continuation value).Meets contract ghost post
  | ghost, .err error => post ghost (.err error)
  | ghost, .aborted why => post ghost (.aborted why)

/-- The rule for sequences. -/
theorem Meets.bind {program : Program Op Ret ε α} {continuation : α → Program Op Ret ε β}
    {post : contract.Ghost → Outcome ε β → Prop}
    (meets : program.Meets contract ghost (bindPost continuation post)) :
    (program >>= continuation).Meets contract ghost post := by
  induction program generalizing ghost with
  | ret value => exact meets
  | fail error => exact meets
  | abort why => exact meets
  | perform op next ih => exact ⟨meets.1, fun answer expected => ih answer (meets.2 answer expected)⟩

/-- The rule for translated errors. -/
theorem Meets.mapErr {translate : ε → δ} {program : Program Op Ret ε α}
    {post : contract.Ghost → Outcome δ α → Prop}
    (meets : program.Meets contract ghost fun ghost outcome =>
      post ghost (outcome.mapErr translate)) :
    (program.mapErr translate).Meets contract ghost post := by
  induction program generalizing ghost with
  | ret value => exact meets
  | fail error => exact meets
  | abort why => exact meets
  | perform op next ih => exact ⟨meets.1, fun answer expected => ih answer (meets.2 answer expected)⟩

/-- The rule for errors handed over as values. -/
theorem Meets.attempt {program : Program Op Ret ε α}
    {post : contract.Ghost → Outcome δ (Except ε α) → Prop}
    (meets : program.Meets contract ghost fun ghost outcome => post ghost outcome.attempt) :
    (program.attempt : Program Op Ret δ (Except ε α)).Meets contract ghost post := by
  induction program generalizing ghost with
  | ret value => exact meets
  | fail error => exact meets
  | abort why => exact meets
  | perform op next ih => exact ⟨meets.1, fun answer expected => ih answer (meets.2 answer expected)⟩

/-- What is allowed to a sequence is allowed to its first part. -/
theorem Meets.of_bind {program : Program Op Ret ε α} {continuation : α → Program Op Ret ε β}
    {post : contract.Ghost → Outcome ε β → Prop}
    (meets : (program >>= continuation).Meets contract ghost post) :
    program.Meets contract ghost fun _ _ => True := by
  induction program generalizing ghost with
  | ret value => trivial
  | fail error => trivial
  | abort why => trivial
  | perform op next ih => exact ⟨meets.1, fun answer expected => ih answer (meets.2 answer expected)⟩

/-- What is allowed to a program with its errors translated is allowed to the program. -/
theorem Meets.of_mapErr {translate : ε → δ} {program : Program Op Ret ε α}
    {post : contract.Ghost → Outcome δ α → Prop}
    (meets : (program.mapErr translate).Meets contract ghost post) :
    program.Meets contract ghost fun _ _ => True := by
  induction program generalizing ghost with
  | ret value => trivial
  | fail error => trivial
  | abort why => trivial
  | perform op next ih => exact ⟨meets.1, fun answer expected => ih answer (meets.2 answer expected)⟩

/-- Two handlers that give a program the same answers give it the same outcome. The
ghost says which operations they have to agree on. -/
theorem Meets.runBoth {τ : Type} {first : (op : Op) → σ → Ret op × σ}
    {second : (op : Op) → τ → Ret op × τ} {related : contract.Ghost → σ → τ → Prop}
    (step : ∀ ghost left right op, related ghost left right → contract.Allows ghost op →
      (first op left).1 = (second op right).1 ∧ contract.Expects ghost op (first op left).1 ∧
        related (contract.after ghost op (first op left).1) (first op left).2 (second op right).2)
    {program : Program Op Ret ε α} {post : contract.Ghost → Outcome ε α → Prop}
    (meets : program.Meets contract ghost post) {left : σ} {right : τ}
    (start : related ghost left right) :
    (program.run first left).1 = (program.run second right).1 ∧
      ∃ final, related final (program.run first left).2 (program.run second right).2 := by
  induction program generalizing ghost left right with
  | ret value => exact ⟨rfl, ghost, start⟩
  | fail error => exact ⟨rfl, ghost, start⟩
  | abort why => exact ⟨rfl, ghost, start⟩
  | perform op next ih =>
      obtain ⟨same, expected, kept⟩ := step _ _ _ _ start meets.1
      simp only [run_perform]
      rw [← same]
      exact ih _ (meets.2 _ expected) kept

/-- The program performs only operations of one kind. -/
def Uses (allowed : Op → Prop) : Program Op Ret ε α → Prop
  | .ret _ => True
  | .fail _ => True
  | .abort _ => True
  | .perform op next => allowed op ∧ ∀ answer, (next answer).Uses allowed

section Uses

variable {allowed : Op → Prop}

@[simp] theorem uses_ret {value : α} :
    (Program.ret value : Program Op Ret ε α).Uses allowed := trivial

@[simp] theorem uses_fail {error : ε} :
    (Program.fail error : Program Op Ret ε α).Uses allowed := trivial

@[simp] theorem uses_abort {why : Abort} :
    (Program.abort why : Program Op Ret ε α).Uses allowed := trivial

@[simp] theorem uses_perform {op : Op} {next : Ret op → Program Op Ret ε α} :
    (Program.perform op next).Uses allowed ↔
      allowed op ∧ ∀ answer, (next answer).Uses allowed := Iff.rfl

@[simp] theorem uses_ofOption {error : ε} {value : Option α} :
    (ofOption error value : Program Op Ret ε α).Uses allowed := by
  cases value <;> trivial

@[simp] theorem uses_ofExcept {translate : ε → δ} {value : Except ε α} :
    (ofExcept translate value : Program Op Ret δ α).Uses allowed := by
  cases value <;> trivial

/-- A sequence uses what its parts use. -/
theorem Uses.bind {program : Program Op Ret ε α} {continuation : α → Program Op Ret ε β}
    (first : program.Uses allowed) (rest : ∀ value, (continuation value).Uses allowed) :
    (program >>= continuation).Uses allowed := by
  induction program with
  | ret value => exact rest value
  | fail error => trivial
  | abort why => trivial
  | perform op next ih => exact ⟨first.1, fun answer => ih answer (first.2 answer)⟩

theorem Uses.mapErr {translate : ε → δ} {program : Program Op Ret ε α}
    (uses : program.Uses allowed) : (program.mapErr translate).Uses allowed := by
  induction program with
  | ret value => trivial
  | fail error => trivial
  | abort why => trivial
  | perform op next ih => exact ⟨uses.1, fun answer => ih answer (uses.2 answer)⟩

theorem Uses.attempt {program : Program Op Ret ε α} (uses : program.Uses allowed) :
    (program.attempt : Program Op Ret δ (Except ε α)).Uses allowed := by
  induction program with
  | ret value => trivial
  | fail error => trivial
  | abort why => trivial
  | perform op next ih => exact ⟨uses.1, fun answer => ih answer (uses.2 answer)⟩

/-- More operations may be allowed. -/
theorem Uses.mono {wider : Op → Prop} {program : Program Op Ret ε α} (uses : program.Uses allowed)
    (implies : ∀ op, allowed op → wider op) : program.Uses wider := by
  induction program with
  | ret value => trivial
  | fail error => trivial
  | abort why => trivial
  | perform op next ih => exact ⟨implies op uses.1, fun answer => ih answer (uses.2 answer)⟩

/-- Every program is made of operations. -/
theorem uses_any (program : Program Op Ret ε α) : program.Uses fun _ => True := by
  induction program with
  | ret value => trivial
  | fail error => trivial
  | abort why => trivial
  | perform op next ih => exact ⟨trivial, ih⟩

/-- The contract of a program that performs only operations of one kind. -/
def within (allowed : Op → Prop) : Contract Op Ret where
  Ghost := Unit
  Allows _ := allowed
  Expects _ _ _ := True
  after _ _ _ := ()

/-- A program made only of operations that `contract` allows and that leave the
ghost alone keeps it to the end. -/
theorem Meets.ofUses {program : Program Op Ret ε α} (uses : program.Uses allowed)
    (neutral : ∀ op, allowed op →
      contract.Allows ghost op ∧ ∀ answer, contract.after ghost op answer = ghost) :
    program.Meets contract ghost fun final _ => final = ghost := by
  induction program with
  | ret value => rfl
  | fail error => rfl
  | abort why => rfl
  | perform op next ih =>
      obtain ⟨allows, keeps⟩ := neutral op uses.1
      refine ⟨allows, fun answer _ => ?_⟩
      rw [keeps answer]
      exact ih answer (uses.2 answer)

/-- A program made only of operations that are always allowed meets its contract. -/
theorem Meets.ofAllowed {program : Program Op Ret ε α}
    (uses : program.Uses fun op => ∀ ghost, contract.Allows ghost op) :
    program.Meets contract ghost fun _ _ => True := by
  induction program generalizing ghost with
  | ret value => trivial
  | fail error => trivial
  | abort why => trivial
  | perform op next ih =>
      constructor
      · exact uses.1 ghost
      · intro answer _
        exact ih answer (uses.2 answer)

/-- A program made only of operations that do not touch the world leaves it
unchanged. -/
theorem Uses.run_state {handle : (op : Op) → σ → Ret op × σ} {program : Program Op Ret ε α}
    (uses : program.Uses allowed)
    (neutral : ∀ op, allowed op → ∀ state, (handle op state).2 = state) (state : σ) :
    (program.run handle state).2 = state := by
  induction program generalizing state with
  | ret value => rfl
  | fail error => rfl
  | abort why => rfl
  | perform op next ih =>
      rw [run_perform, neutral op uses.1]
      exact ih _ (uses.2 _) _

/-- What every operation of one kind keeps, a program made of them keeps. -/
theorem Uses.invariant {handle : (op : Op) → σ → Ret op × σ} {program : Program Op Ret ε α}
    (uses : program.Uses allowed) (invariant : σ → Prop)
    (step : ∀ op state, allowed op → invariant state → invariant (handle op state).2) {state : σ}
    (start : invariant state) : invariant (program.run handle state).2 := by
  induction program generalizing state with
  | ret value => exact start
  | fail error => exact start
  | abort why => exact start
  | perform op next ih => exact ih _ (uses.2 _) (step op state uses.1 start)

/-- Everything that is performed in a run is of the kind that the program performs. -/
theorem Uses.of_mem_performed {handle : (op : Op) → σ → Ret op × σ} {program : Program Op Ret ε α}
    (uses : program.Uses allowed) {state before : σ} {op : Op}
    (member : (op, before) ∈ program.performed handle state) : allowed op := by
  induction program generalizing state with
  | ret value => cases member
  | fail error => cases member
  | abort why => cases member
  | perform first next ih =>
      rcases List.mem_cons.mp member with same | later
      · cases same
        exact uses.1
      · exact ih _ (uses.2 _) later

/-- What is performed in a sequence and not by its first part is performed by the rest. -/
theorem Uses.of_mem_performed_bind {handle : (op : Op) → σ → Ret op × σ}
    {program : Program Op Ret ε α} {continuation : α → Program Op Ret ε β} {state before : σ}
    {op : Op} (uses : program.Uses allowed) (other : ¬ allowed op)
    (member : (op, before) ∈ (program >>= continuation).performed handle state) :
    ∃ value middle, program.run handle state = (.ok value, middle) ∧
      (op, before) ∈ (continuation value).performed handle middle := by
  rcases (mem_performed_bind handle).mp member with first | rest
  · exact absurd (uses.of_mem_performed first) other
  · exact rest

/-- Two handlers that agree on every operation of one kind give a program made of them the
same outcome. -/
theorem Uses.runBoth {τ : Type} {first : (op : Op) → σ → Ret op × σ}
    {second : (op : Op) → τ → Ret op × τ} {related : σ → τ → Prop}
    {program : Program Op Ret ε α} (uses : program.Uses allowed)
    (step : ∀ op left right, allowed op → related left right →
      (first op left).1 = (second op right).1 ∧ related (first op left).2 (second op right).2)
    {left : σ} {right : τ} (start : related left right) :
    (program.run first left).1 = (program.run second right).1 ∧
      related (program.run first left).2 (program.run second right).2 := by
  have meets : program.Meets (within allowed) () fun final _ => final = () :=
    Meets.ofUses uses fun op permitted => ⟨permitted, fun _ => rfl⟩
  have both := Meets.runBoth (fun (_ : Unit) left right op agree permitted =>
    ⟨(step op left right permitted agree).1, trivial, (step op left right permitted agree).2⟩)
    meets start
  obtain ⟨same, _, ends⟩ := both
  exact ⟨same, ends⟩

/-- A sequence that succeeded, read backwards over a first part that does not touch
the world. -/
theorem Uses.of_run_bind_eq_ok {handle : (op : Op) → σ → Ret op × σ}
    {program : Program Op Ret ε α} {continuation : α → Program Op Ret ε β} {state after : σ}
    {result : β} (uses : program.Uses allowed)
    (neutral : ∀ op, allowed op → ∀ state, (handle op state).2 = state)
    (ran : (program >>= continuation).run handle state = (.ok result, after)) :
    ∃ value, program.run handle state = (.ok value, state) ∧
      (continuation value).run handle state = (.ok result, after) := by
  obtain ⟨value, middle, first, rest⟩ := Program.of_run_bind_eq_ok ran
  have unchanged : middle = state := by
    have kept := uses.run_state neutral state
    rwa [first] at kept
  subst unchanged
  exact ⟨value, first, rest⟩

end Uses

/-- The program performs at most so many operations, whatever they answer. -/
def AsksAtMost : Program Op Ret ε α → Nat → Prop
  | .ret _, _ => True
  | .fail _, _ => True
  | .abort _, _ => True
  | .perform _ next, bound => 0 < bound ∧ ∀ answer, (next answer).AsksAtMost (bound - 1)

section AsksAtMost

variable {bound : Nat} {program : Program Op Ret ε α}

/-- A program that performs nothing keeps every bound. -/
theorem asksAtMost_of_uses_nothing (uses : program.Uses fun _ => False) :
    program.AsksAtMost bound := by
  cases program with
  | ret value => trivial
  | fail error => trivial
  | abort why => trivial
  | perform op next => exact uses.1.elim

theorem AsksAtMost.mono {larger : Nat} (asks : program.AsksAtMost bound) (le : bound ≤ larger) :
    program.AsksAtMost larger := by
  induction program generalizing bound larger with
  | ret value => trivial
  | fail error => trivial
  | abort why => trivial
  | perform op next ih =>
      obtain ⟨room, later⟩ := asks
      constructor
      · omega
      · intro answer
        apply ih answer (later answer)
        omega

/-- A sequence performs what its parts perform. -/
theorem AsksAtMost.bind {first second : Nat} {continuation : α → Program Op Ret ε β}
    (asks : program.AsksAtMost first) (rest : ∀ value, (continuation value).AsksAtMost second)
    (room : first + second ≤ bound) : (program >>= continuation).AsksAtMost bound := by
  induction program generalizing first bound with
  | ret value =>
      apply (rest value).mono
      omega
  | fail error => trivial
  | abort why => trivial
  | perform op next ih =>
      obtain ⟨enough, later⟩ := asks
      constructor
      · omega
      · intro answer
        apply ih answer (later answer)
        omega

/-- A first part that performs nothing asks nothing. -/
theorem AsksAtMost.bindUses {continuation : α → Program Op Ret ε β}
    (uses : program.Uses fun _ => False) (rest : ∀ value, (continuation value).AsksAtMost bound) :
    (program >>= continuation).AsksAtMost bound :=
  AsksAtMost.bind (asksAtMost_of_uses_nothing uses) rest (Nat.le_of_eq (Nat.zero_add bound))

/-- No run performs more. -/
theorem AsksAtMost.length_performed_le {handle : (op : Op) → σ → Ret op × σ} {state : σ}
    (asks : program.AsksAtMost bound) : (program.performed handle state).length ≤ bound := by
  induction program generalizing bound state with
  | ret value => exact Nat.zero_le bound
  | fail error => exact Nat.zero_le bound
  | abort why => exact Nat.zero_le bound
  | perform op next ih =>
      obtain ⟨room, later⟩ := asks
      rw [performed, List.length_cons]
      have fewer : ((next (handle op state).1).performed handle (handle op state).2).length ≤
          bound - 1 := ih _ (later _)
      omega

end AsksAtMost

/-- The program fails with errors of one kind only. -/
def FailsOnly (admitted : ε → Prop) : Program Op Ret ε α → Prop
  | .ret _ => True
  | .fail error => admitted error
  | .abort _ => True
  | .perform _ next => ∀ answer, (next answer).FailsOnly admitted

section FailsOnly

variable {admitted : ε → Prop}

/-- A sequence fails only with the errors of its parts. -/
theorem FailsOnly.bind {program : Program Op Ret ε α} {continuation : α → Program Op Ret ε β}
    (first : program.FailsOnly admitted) (rest : ∀ value, (continuation value).FailsOnly admitted) :
    (program >>= continuation).FailsOnly admitted := by
  induction program with
  | ret value => exact rest value
  | fail error => exact first
  | abort why => exact first
  | perform op next ih => exact fun answer => ih answer (first answer)

/-- The error of a run is of that kind. -/
theorem FailsOnly.run {handle : (op : Op) → σ → Ret op × σ} {program : Program Op Ret ε α}
    {state : σ} {error : ε} (only : program.FailsOnly admitted)
    (failed : (program.run handle state).1 = .err error) : admitted error := by
  induction program generalizing state with
  | ret value => cases failed
  | fail problem =>
      cases failed
      exact only
  | abort why => cases failed
  | perform op next ih => exact ih _ (only _) failed

/-- The error of a program whose first part succeeds comes from the rest. -/
theorem run_bind_ne_err {handle : (op : Op) → σ → Ret op × σ} {program : Program Op Ret ε α}
    {rest : α → Program Op Ret ε β} {state : σ} {value : α} {error : ε}
    (first : (program.run handle state).1 = .ok value)
    (only : (rest value).FailsOnly (· ≠ error)) :
    ((program >>= rest).run handle state).1 ≠ .err error := by
  rw [run_bind]
  cases ran : program.run handle state with
  | mk outcome middle =>
      rw [ran] at first
      obtain rfl : outcome = .ok value := first
      intro failed
      exact only.run failed rfl

/-- Wrapping the value of a program adds no error. -/
theorem run_bind_ret_ne_err {handle : (op : Op) → σ → Ret op × σ} {program : Program Op Ret ε α}
    {wrap : α → β} {state : σ} {error : ε}
    (first : (program.run handle state).1 ≠ .err error) :
    ((program >>= fun value => .ret (wrap value)).run handle state).1 ≠ .err error := by
  rw [run_bind]
  cases ran : program.run handle state with
  | mk outcome middle =>
      rw [ran] at first
      cases outcome with
      | ok value => exact nofun
      | err problem =>
          intro failed
          obtain rfl : problem = error := Outcome.err.inj failed
          exact first rfl
      | aborted why => exact nofun

end FailsOnly

/-! ### Programs played alone

When one handler answers every operation, the state itself serves as the ghost. -/

/-- The contract of a program played alone: its ghost is the state, and each
operation must be allowed in the state that it finds. -/
def alone (handle : (op : Op) → σ → Ret op × σ) (allows : σ → Op → Prop) : Contract Op Ret where
  Ghost := σ
  Allows := allows
  Expects state op answer := answer = (handle op state).1
  after state op _ := (handle op state).2

section Alone

variable {handle : (op : Op) → σ → Ret op × σ} {allows : σ → Op → Prop} {state : σ}

/-- The rule for one operation. -/
theorem Meets.performAlone {op : Op} {next : Ret op → Program Op Ret ε α}
    {post : σ → Outcome ε α → Prop} (allowed : allows state op)
    (rest : (next (handle op state).1).Meets (alone handle allows) (handle op state).2 post) :
    (Program.perform op next).Meets (alone handle allows) state post := by
  refine ⟨allowed, ?_⟩
  rintro answer rfl
  exact rest

/-- The rule for one operation and a continuation of its answer. -/
theorem Meets.callAlone {op : Op} {continuation : Ret op → Program Op Ret ε α}
    {post : σ → Outcome ε α → Prop} (allowed : allows state op)
    (rest : (continuation (handle op state).1).Meets (alone handle allows) (handle op state).2
      post) :
    (call op >>= continuation).Meets (alone handle allows) state post :=
  Meets.performAlone allowed rest

/-- The rule for a first part that only performs operations which leave the state
alone: it is evaluated, and the rest goes on from its value. -/
theorem Meets.bindUses {allowed : Op → Prop} {program : Program Op Ret ε α}
    {continuation : α → Program Op Ret ε β} {post : σ → Outcome ε β → Prop}
    (uses : program.Uses allowed)
    (neutral : ∀ op, allowed op → ∀ state, allows state op ∧ (handle op state).2 = state)
    (value : ∀ value, program.run handle state = (.ok value, state) →
      (continuation value).Meets (alone handle allows) state post)
    (error : ∀ error, program.run handle state = (.err error, state) → post state (.err error))
    (aborted : ∀ why, program.run handle state = (.aborted why, state) →
      post state (.aborted why)) :
    (program >>= continuation).Meets (alone handle allows) state post := by
  induction program with
  | ret result => exact value result rfl
  | fail problem => exact error problem rfl
  | abort why => exact aborted why rfl
  | perform op next ih =>
      obtain ⟨permitted, unchanged⟩ := neutral op uses.1 state
      refine Meets.performAlone permitted ?_
      rw [unchanged]
      simp only [run_perform, unchanged] at value error aborted
      exact ih _ (uses.2 _) value error aborted

/-- The rule for a first part whose operations all keep an invariant. -/
theorem Meets.bindInvariant {allowed : Op → Prop} {program : Program Op Ret ε α}
    {continuation : α → Program Op Ret ε β} {final : σ → Prop} (uses : program.Uses allowed)
    (invariant : σ → Prop)
    (step : ∀ op state, allowed op → invariant state → invariant (handle op state).2)
    (enough : ∀ state, invariant state → final state) (start : invariant state)
    (rest : ∀ value state, invariant state →
      (continuation value).Meets (alone handle fun _ _ => True) state fun state _ => final state) :
    (program >>= continuation).Meets (alone handle fun _ _ => True) state
      fun state _ => final state := by
  induction program generalizing state with
  | ret value => exact rest value state start
  | fail error => exact enough state start
  | abort why => exact enough state start
  | perform op next ih =>
      refine Meets.performAlone trivial ?_
      exact ih _ (uses.2 _) (step op state uses.1 start)

/-- A program that meets its contract alone ends as its postcondition says. -/
theorem Meets.runAlone {program : Program Op Ret ε α} {post : σ → Outcome ε α → Prop}
    (meets : program.Meets (alone handle allows) state post) :
    post (program.run handle state).2 (program.run handle state).1 := by
  induction program generalizing state with
  | ret value => exact meets
  | fail error => exact meets
  | abort why => exact meets
  | perform op next ih => exact ih _ (meets.2 _ rfl)

/-- An invariant that every allowed operation keeps holds at the end of a run. -/
theorem Meets.invariantAlone {program : Program Op Ret ε α} {post : σ → Outcome ε α → Prop}
    (invariant : σ → Prop)
    (step : ∀ state op, invariant state → allows state op → invariant (handle op state).2)
    (meets : program.Meets (alone handle allows) state post) (start : invariant state) :
    invariant (program.run handle state).2 := by
  induction program generalizing state with
  | ret value => exact start
  | fail error => exact start
  | abort why => exact start
  | perform op next ih => exact ih _ (meets.2 _ rfl) (step _ _ start meets.1)

/-- Every transition of a run is made by an allowed operation, in a state that
satisfies the invariant. -/
theorem Meets.transitionsAlone {program : Program Op Ret ε α} {post : σ → Outcome ε α → Prop}
    (invariant : σ → Prop)
    (step : ∀ state op, invariant state → allows state op → invariant (handle op state).2)
    (meets : program.Meets (alone handle allows) state post) (start : invariant state)
    {before after : σ} (member : (before, after) ∈ program.transitions handle state) :
    invariant before ∧ ∃ op, allows before op ∧ after = (handle op before).2 := by
  induction program generalizing state with
  | ret value => cases member
  | fail error => cases member
  | abort why => cases member
  | perform op next ih =>
      rcases List.mem_cons.mp member with same | later
      · obtain ⟨rfl, rfl⟩ := Prod.mk.inj same
        exact ⟨start, op, meets.1, rfl⟩
      · exact ih _ (meets.2 _ rfl) (step _ _ start meets.1) later

end Alone

section Run

variable {handle : (op : Op) → σ → Ret op × σ} {sound : Op → σ → Prop}
  {related : contract.Ghost → σ → Prop} {program : Program Op Ret ε α}
  {post : contract.Ghost → Outcome ε α → Prop} {state : σ}

/-- Played alone, a program that meets its contract keeps every relation between ghost and
world that its allowed operations keep, as long as what it performs is sound. -/
theorem Meets.run
    (step : ∀ ghost state op, sound op state → related ghost state → contract.Allows ghost op →
      contract.Expects ghost op (handle op state).1 ∧
        related (contract.after ghost op (handle op state).1) (handle op state).2)
    (meets : program.Meets contract ghost post) (start : related ghost state)
    (sounds : ∀ asked ∈ program.performed handle state, sound asked.1 asked.2) :
    ∃ final, related final (program.run handle state).2 ∧
      post final (program.run handle state).1 := by
  induction program generalizing ghost state with
  | ret value => exact ⟨ghost, start, meets⟩
  | fail error => exact ⟨ghost, start, meets⟩
  | abort why => exact ⟨ghost, start, meets⟩
  | perform op next ih =>
      have first : sound op state := sounds _ List.mem_cons_self
      obtain ⟨expected, kept⟩ := step ghost state op first start meets.1
      apply ih _ (meets.2 _ expected) kept
      intro asked member
      exact sounds asked (List.mem_cons_of_mem _ member)

/-- What such a program performs is allowed by a ghost that is related to the state it is
performed in. -/
theorem Meets.of_mem_performed
    (step : ∀ ghost state op, sound op state → related ghost state → contract.Allows ghost op →
      contract.Expects ghost op (handle op state).1 ∧
        related (contract.after ghost op (handle op state).1) (handle op state).2)
    (meets : program.Meets contract ghost post) (start : related ghost state)
    (sounds : ∀ asked ∈ program.performed handle state, sound asked.1 asked.2)
    {asked : Op × σ} (member : asked ∈ program.performed handle state) :
    ∃ ghost, related ghost asked.2 ∧ contract.Allows ghost asked.1 := by
  induction program generalizing ghost state with
  | ret value => cases member
  | fail error => cases member
  | abort why => cases member
  | perform op next ih =>
      have first : sound op state := sounds _ List.mem_cons_self
      obtain ⟨expected, kept⟩ := step ghost state op first start meets.1
      rcases List.mem_cons.mp member with same | later
      · subst same
        exact ⟨ghost, start, meets.1⟩
      · apply ih _ (meets.2 _ expected) kept _ later
        intro asked member
        exact sounds asked (List.mem_cons_of_mem _ member)

end Run

end Program

end Citadel
