import Citadel.Program.Interleaving

/-!
# Programs that keep a journal

A `Journaled` operation acts on the world or records an event. `erase` is the same code
without its records. Recording changes no answer, so the code runs as its erasure does
(`run_journaled`).

`reporting` is the contract of code that reports what it wrote: each write that was
answered well is recorded by the next operation of its caller, and nothing else is
recorded as a write. `Tells` relates what the events of code tell to its outcome.
-/

namespace Citadel

/-- An operation of code that keeps a journal. -/
inductive Journaled (Op Event : Type) where
  | act (op : Op)
  | record (event : Event)

/-- The type of the answer. -/
@[reducible] def Journaled.Ret {Op Event : Type} (Ret : Op → Type) : Journaled Op Event → Type
  | .act op => Ret op
  | .record _ => Unit

/-- Code that keeps a journal. -/
abbrev Recorder (Op Event : Type) (Ret : Op → Type) :=
  Program (Journaled Op Event) (Journaled.Ret Ret)

namespace Program

variable {Op Event Entry Fact : Type} {Ret : Op → Type} {ε δ α β σ : Type}

/-- Code that records nothing. -/
def lift : Program Op Ret ε α → Recorder Op Event Ret ε α
  | .ret value => .ret value
  | .fail error => .fail error
  | .abort why => .abort why
  | .perform op next => .perform (.act op) fun answer => (next answer).lift

/-- Record an event. -/
def note (event : Event) : Recorder Op Event Ret ε Unit :=
  .perform (.record event) fun _ => .ret ()

/-- The code without its records. -/
def erase : Recorder Op Event Ret ε α → Program Op Ret ε α
  | .ret value => .ret value
  | .fail error => .fail error
  | .abort why => .abort why
  | .perform (.act op) next => .perform op fun answer => (next answer).erase
  | .perform (.record _) next => (next ()).erase

@[simp] theorem erase_ret (value : α) :
    (Program.ret value : Recorder Op Event Ret ε α).erase = .ret value := rfl

@[simp] theorem erase_fail (error : ε) :
    (Program.fail error : Recorder Op Event Ret ε α).erase = .fail error := rfl

@[simp] theorem erase_abort (why : Abort) :
    (Program.abort why : Recorder Op Event Ret ε α).erase = .abort why := rfl

@[simp] theorem erase_act (op : Op) (next : Ret op → Recorder Op Event Ret ε α) :
    (Program.perform (.act op) next : Recorder Op Event Ret ε α).erase =
      .perform op fun answer => (next answer).erase := rfl

@[simp] theorem erase_record (event : Event) (next : Unit → Recorder Op Event Ret ε α) :
    (Program.perform (.record event) next : Recorder Op Event Ret ε α).erase =
      (next ()).erase := rfl

/-- A program that records nothing is what it was. -/
@[simp] theorem erase_lift (program : Program Op Ret ε α) :
    (program.lift : Recorder Op Event Ret ε α).erase = program := by
  induction program with
  | ret value => rfl
  | fail error => rfl
  | abort why => rfl
  | perform op next ih => exact congrArg (Program.perform op) (funext ih)

@[simp] theorem erase_note (event : Event) :
    (note event : Recorder Op Event Ret ε Unit).erase = .ret () := rfl

@[simp] theorem erase_ofExcept (translate : ε → δ) (result : Except ε α) :
    (ofExcept translate result : Recorder Op Event Ret δ α).erase = ofExcept translate result := by
  cases result <;> rfl

@[simp] theorem erase_ofOption (error : ε) (found : Option α) :
    (ofOption error found : Recorder Op Event Ret ε α).erase = ofOption error found := by
  cases found <;> rfl

/-- The events of a sequence are taken out of its parts. -/
@[simp] theorem erase_bind (program : Recorder Op Event Ret ε α)
    (continuation : α → Recorder Op Event Ret ε β) :
    (program >>= continuation).erase = program.erase >>= fun value => (continuation value).erase := by
  induction program with
  | ret value => rfl
  | fail error => rfl
  | abort why => rfl
  | perform op next ih =>
      cases op with
      | act op => exact congrArg (Program.perform op) (funext ih)
      | record event => exact ih ()

/-- Events do not depend on how errors are named. -/
@[simp] theorem erase_mapErr (translate : ε → δ) (program : Recorder Op Event Ret ε α) :
    (program.mapErr translate).erase = program.erase.mapErr translate := by
  induction program with
  | ret value => rfl
  | fail error => rfl
  | abort why => rfl
  | perform op next ih =>
      cases op with
      | act op => exact congrArg (Program.perform op) (funext ih)
      | record event => exact ih ()

/-- Events are recorded whether or not an error is caught. -/
@[simp] theorem erase_attempt (program : Recorder Op Event Ret ε α) :
    (program.attempt : Recorder Op Event Ret δ (Except ε α)).erase = program.erase.attempt := by
  induction program with
  | ret value => rfl
  | fail error => rfl
  | abort why => rfl
  | perform op next ih =>
      cases op with
      | act op => exact congrArg (Program.perform op) (funext ih)
      | record event => exact ih ()

/-- A sequence that ends by returning the value of its first part is its first part. -/
@[simp] theorem bind_ret (program : Program Op Ret ε α) :
    (program >>= fun value => .ret value) = program := by
  induction program with
  | ret value => rfl
  | fail error => rfl
  | abort why => rfl
  | perform op next ih => exact congrArg (Program.perform op) (funext ih)

@[simp] theorem bind_ret_unit (program : Program Op Ret ε Unit) :
    (program >>= fun _ => .ret ()) = program :=
  bind_ret program

/-- Failing with the translated error of an attempt is translating the error. -/
theorem attempt_bind_eq {program : Program Op Ret ε α} {translate : ε → δ}
    {continuation : α → Program Op Ret δ β} :
    ((program.attempt : Program Op Ret δ (Except ε α)) >>= fun
      | .error error => .fail (translate error)
      | .ok value => continuation value) = program.mapErr translate >>= continuation := by
  induction program with
  | ret value => rfl
  | fail error => rfl
  | abort why => rfl
  | perform op next ih => exact congrArg (Program.perform op) (funext ih)

/-- Play an operation; an event is stamped with the state it is recorded in and put at
the end of the journal. -/
def handleJournaled (handle : (op : Op) → σ → Ret op × σ) (stamp : σ → Event → Entry) :
    (op : Journaled Op Event) → σ × List Entry → Journaled.Ret Ret op × (σ × List Entry)
  | .act op, state => ((handle op state.1).1, ((handle op state.1).2, state.2))
  | .record event, state => ((), (state.1, state.2 ++ [stamp state.1 event]))

/-- Keeping a journal changes neither the outcome nor what is done to the world, and what
was in the journal stays. -/
theorem run_journaled (handle : (op : Op) → σ → Ret op × σ) (stamp : σ → Event → Entry)
    (program : Recorder Op Event Ret ε α) (state : σ) (journal : List Entry) :
    ∃ recorded, program.run (handleJournaled handle stamp) (state, journal) =
      ((program.erase.run handle state).1, ((program.erase.run handle state).2,
        journal ++ recorded)) := by
  induction program generalizing state journal with
  | ret value => exact ⟨[], by simp⟩
  | fail error => exact ⟨[], by simp⟩
  | abort why => exact ⟨[], by simp⟩
  | perform op next ih =>
      cases op with
      | act op => exact ih _ _ _
      | record event =>
          obtain ⟨recorded, ran⟩ := ih () state (journal ++ [stamp state event])
          refine ⟨stamp state event :: recorded, ?_⟩
          rw [run_perform]
          refine ran.trans ?_
          rw [erase_record, List.append_assoc, List.singleton_append]

/-- Code that records nothing leaves the journal as it was. -/
theorem run_lift (handle : (op : Op) → σ → Ret op × σ) (stamp : σ → Event → Entry)
    (program : Program Op Ret ε α) (state : σ) (journal : List Entry) :
    (program.lift : Recorder Op Event Ret ε α).run (handleJournaled handle stamp)
        (state, journal) =
      ((program.run handle state).1, ((program.run handle state).2, journal)) := by
  induction program generalizing state with
  | ret value => rfl
  | fail error => rfl
  | abort why => rfl
  | perform op next ih => exact ih _ _

/-- Code that records nothing performs what it performs. -/
theorem Uses.lift {allowed : Op → Prop} {permitted : Journaled Op Event → Prop}
    {program : Program Op Ret ε α} (uses : program.Uses allowed)
    (implies : ∀ op, allowed op → permitted (.act op)) :
    (program.lift : Recorder Op Event Ret ε α).Uses permitted := by
  induction program with
  | ret value => trivial
  | fail error => trivial
  | abort why => trivial
  | perform op next ih => exact ⟨implies op uses.1, fun answer => ih answer (uses.2 answer)⟩

/-- The contract of code that reports its writes. Its ghost is the write that still has
to be recorded: `wrote` says what an operation wrote, `told` what an event reports. The
code may rely on answers that are `expected`. -/
def reporting (expected : (op : Op) → Ret op → Prop) (wrote : (op : Op) → Ret op → Option Fact)
    (told : Event → Option Fact) : Contract (Journaled Op Event) (Journaled.Ret Ret) where
  Ghost := Option Fact
  Allows owed
    | .act _ => owed = none
    | .record event => told event = owed
  Expects
    | _, .act op, answer => expected op answer
    | _, .record _, _ => True
  after
    | _, .act op, answer => wrote op answer
    | _, .record _, _ => none

/-- The code reports its writes. -/
abbrev Reports (expected : (op : Op) → Ret op → Prop) (wrote : (op : Op) → Ret op → Option Fact)
    (told : Event → Option Fact) (program : Recorder Op Event Ret ε α) : Prop :=
  program.Meets (reporting expected wrote told) none fun owed _ => owed = none

section Reports

variable {expected : (op : Op) → Ret op → Prop} {wrote : (op : Op) → Ret op → Option Fact}
  {told : Event → Option Fact}

/-- A sequence reports what its parts report. -/
theorem Reports.bind {program : Recorder Op Event Ret ε α}
    {continuation : α → Recorder Op Event Ret ε β} (first : Reports expected wrote told program)
    (rest : ∀ value, Reports expected wrote told (continuation value)) :
    Reports expected wrote told (program >>= continuation) := by
  refine Meets.bind (first.mono ?_)
  rintro owed outcome rfl
  cases outcome with
  | ok value => exact rest value
  | err error => rfl
  | aborted why => rfl

theorem Reports.mapErr {translate : ε → δ} {program : Recorder Op Event Ret ε α}
    (reports : Reports expected wrote told program) : Reports expected wrote told (program.mapErr translate) :=
  Meets.mapErr reports

theorem Reports.attempt {program : Recorder Op Event Ret ε α}
    (reports : Reports expected wrote told program) :
    Reports expected wrote told (program.attempt : Recorder Op Event Ret δ (Except ε α)) :=
  Meets.attempt reports

/-- Code that writes nothing and records nothing. -/
theorem Reports.lift {program : Program Op Ret ε α}
    (uses : program.Uses fun op => ∀ answer, wrote op answer = none) :
    Reports expected wrote told (program.lift : Recorder Op Event Ret ε α) := by
  induction program with
  | ret value => rfl
  | fail error => rfl
  | abort why => rfl
  | perform op next ih =>
      refine ⟨rfl, fun answer _ => ?_⟩
      have silent : wrote op answer = none := uses.1 answer
      change (next answer).lift.Meets (reporting expected wrote told) (wrote op answer) _
      rw [silent]
      exact ih answer (uses.2 answer)

/-- The rule for an operation that writes nothing. -/
theorem Reports.act {op : Op} {continuation : Ret op → Recorder Op Event Ret ε α}
    (silent : ∀ answer, wrote op answer = none)
    (rest : ∀ answer, expected op answer → Reports expected wrote told (continuation answer)) :
    Reports expected wrote told (.perform (.act op) continuation) := by
  refine ⟨rfl, fun answer expects => ?_⟩
  change (continuation answer).Meets (reporting expected wrote told) (wrote op answer) _
  rw [silent answer]
  exact rest answer expects

/-- The rule for an event that reports no write. -/
theorem Reports.note {event : Event} {continuation : Unit → Recorder Op Event Ret ε α}
    (silent : told event = none) (rest : Reports expected wrote told (continuation ())) :
    Reports expected wrote told (Program.note event >>= continuation) :=
  ⟨silent, fun _ _ => rest⟩

end Reports

/-- The contract whose ghost is what the code told by its events. -/
@[reducible] def telling (Ret : Op → Type) (told : Event → Option Fact) :
    Contract (Journaled Op Event) (Journaled.Ret Ret) where
  Ghost := List Fact
  Allows _ _ := True
  Expects _ _ _ := True
  after
    | facts, .act _, _ => facts
    | facts, .record event, _ => facts ++ (told event).toList

/-- What the code tells by its events satisfies a condition, together with its outcome. -/
def Tells (told : Event → Option Fact) (program : Recorder Op Event Ret ε α)
    (post : List Fact → Outcome ε α → Prop) : Prop :=
  ∀ past : List Fact, program.Meets (telling Ret told) past fun (facts : List Fact) outcome =>
    ∃ more, facts = past ++ more ∧ post more outcome

section Tells

variable {told : Event → Option Fact}

/-- A program that returns has told nothing more. -/
theorem Tells.ret {value : α} {post : List Fact → Outcome ε α → Prop} (holds : post [] (.ok value)) :
    Tells told (.ret value : Recorder Op Event Ret ε α) post :=
  fun past => ⟨[], (List.append_nil past).symm, holds⟩

theorem Tells.fail {error : ε} {post : List Fact → Outcome ε α → Prop}
    (holds : post [] (.err error)) :
    Tells told (.fail error : Recorder Op Event Ret ε α) post :=
  fun past => ⟨[], (List.append_nil past).symm, holds⟩

theorem Tells.abort {why : Abort} {post : List Fact → Outcome ε α → Prop}
    (holds : post [] (.aborted why)) :
    Tells told (.abort why : Recorder Op Event Ret ε α) post :=
  fun past => ⟨[], (List.append_nil past).symm, holds⟩

/-- The rule for an operation on the world. -/
theorem Tells.act {op : Op} {next : Ret op → Recorder Op Event Ret ε α}
    {post : List Fact → Outcome ε α → Prop} (rest : ∀ answer, Tells told (next answer) post) :
    Tells told (.perform (.act op) next) post :=
  fun past => ⟨trivial, fun answer _ => rest answer past⟩

/-- The rule for an event. -/
theorem Tells.note {event : Event} {continuation : Unit → Recorder Op Event Ret ε α}
    {post : List Fact → Outcome ε α → Prop}
    (rest : Tells told (continuation ()) fun more => post ((told event).toList ++ more)) :
    Tells told (Program.note event >>= continuation) post := by
  intro past
  refine ⟨trivial, fun _ _ => ?_⟩
  refine Meets.mono (rest (past ++ (told event).toList)) ?_
  rintro facts outcome ⟨more, rfl, holds⟩
  exact ⟨_, List.append_assoc _ _ _, holds⟩

/-- The rule for a first part that tells nothing. -/
theorem Tells.bind {program : Recorder Op Event Ret ε α}
    {continuation : α → Recorder Op Event Ret ε β} {post : List Fact → Outcome ε β → Prop}
    (silent : Tells told program fun more _ => more = [])
    (rest : ∀ value, Tells told (continuation value) post)
    (error : ∀ error, post [] (.err error)) (aborted : ∀ why, post [] (.aborted why)) :
    Tells told (program >>= continuation) post := by
  intro past
  refine Meets.bind ((silent past).mono ?_)
  rintro facts outcome ⟨more, rfl, rfl⟩
  rw [List.append_nil]
  cases outcome with
  | ok value => exact rest value past
  | err problem => exact ⟨[], (List.append_nil past).symm, error problem⟩
  | aborted why => exact ⟨[], (List.append_nil past).symm, aborted why⟩

/-- The rule for a renamed error. -/
theorem Tells.mapErr {translate : ε → δ} {program : Recorder Op Event Ret ε α}
    {post : List Fact → Outcome δ α → Prop}
    (tells : Tells told program fun more outcome => post more (outcome.mapErr translate)) :
    Tells told (program.mapErr translate) post :=
  fun past => Meets.mapErr (tells past)

/-- The rule of consequence. -/
theorem Tells.mono {program : Recorder Op Event Ret ε α}
    {strong weak : List Fact → Outcome ε α → Prop} (tells : Tells told program strong)
    (implies : ∀ more outcome, strong more outcome → weak more outcome) :
    Tells told program weak := by
  intro past
  refine (tells past).mono ?_
  rintro facts outcome ⟨more, same, holds⟩
  exact ⟨more, same, implies more outcome holds⟩

/-- Code whose events tell nothing. -/
theorem Tells.silent {program : Recorder Op Event Ret ε α}
    (uses : program.Uses fun op => ∀ event, op = .record event → told event = none) :
    Tells told program fun more _ => more = [] := by
  induction program with
  | ret value => exact Tells.ret rfl
  | fail error => exact Tells.fail rfl
  | abort why => exact Tells.abort rfl
  | perform op next ih =>
      cases op with
      | act op => exact Tells.act fun answer => ih answer (uses.2 answer)
      | record event =>
          have rest : Tells told (next ()) fun more _ => (told event).toList ++ more = [] := by
            rw [uses.1 event rfl]
            exact ih () (uses.2 ())
          exact Tells.note rest

end Tells

end Program

end Citadel
