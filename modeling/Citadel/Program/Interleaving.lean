import Citadel.Program.Contract

/-!
# Interleaved execution

A `Pool` is any family of programs over one shared state. Its steps are single
operations: one running thread performs its next operation, or a thread whose
program has ended hands its outcome to its caller, or the state moves by itself
(the passing of time). A trace keeps the shared state each event found, so a
property can speak about what was stored when an operation took effect.

`Runs.rely` carries contracts and an invariant through every interleaving: the ghost
of each thread is the fold of that thread's own events, whatever the others did, and
the invariant may tell which answers a thread can expect.
-/

namespace Citadel

/-- The shared state a pool acts on: which answers an operation may get, and how
the state may move between operations. -/
structure SharedWorld (Op : Type) (Ret : Op → Type) where
  State : Type
  Answers : State → (op : Op) → Ret op → State → Prop
  Drifts : State → State → Prop

/-- A caller is still running its program or has its outcome. -/
inductive Thread (Op : Type) (Ret : Op → Type) (ε α : Type) where
  | running (program : Program Op Ret ε α)
  | finished (outcome : Outcome ε α)

/-- One observable step of a pool. -/
inductive Event (ι Op : Type) (Ret : Op → Type) (ε α : Type) where
  | performed (caller : ι) (op : Op) (answer : Ret op)
  | returned (caller : ι) (outcome : Outcome ε α)
  | drifted

/-- Whose step it was. -/
def Event.caller? {ι Op : Type} {Ret : Op → Type} {ε α : Type} : Event ι Op Ret ε α → Option ι
  | .performed caller _ _ => some caller
  | .returned caller _ => some caller
  | .drifted => none

/-- An event together with the shared state it found. -/
structure Entry (σ ι Op : Type) (Ret : Op → Type) (ε α : Type) where
  before : σ
  event : Event ι Op Ret ε α

namespace Program

variable {Op : Type} {Ret : Op → Type} {ε α : Type}

/-- The outcome of a program that has ended. -/
def outcome? : Program Op Ret ε α → Option (Outcome ε α)
  | .ret value => some (.ok value)
  | .fail error => some (.err error)
  | .abort why => some (.aborted why)
  | .perform _ _ => none

/-- The program that has ended with an outcome. -/
def ended : Outcome ε α → Program Op Ret ε α
  | .ok value => .ret value
  | .err error => .fail error
  | .aborted why => .abort why

@[simp] theorem outcome?_ended (outcome : Outcome ε α) :
    (ended outcome : Program Op Ret ε α).outcome? = some outcome := by
  cases outcome <;> rfl

/-- A program that has ended satisfies its postcondition. -/
theorem Meets.outcome {contract : Contract Op Ret} {ghost : contract.Ghost}
    {program : Program Op Ret ε α} {post : contract.Ghost → Outcome ε α → Prop}
    {outcome : Outcome ε α} (meets : program.Meets contract ghost post)
    (ended : program.outcome? = some outcome) : post ghost outcome := by
  cases program with
  | ret value => cases ended; exact meets
  | fail error => cases ended; exact meets
  | abort why => cases ended; exact meets
  | perform op next => cases ended

end Program

namespace Program

variable {Op : Type} {Ret : Op → Type} {ε δ α β σ : Type} {handle : (op : Op) → σ → Ret op × σ}

/-- How far a program gets when it is played alone and stopped before it ends. -/
inductive Reaches (handle : (op : Op) → σ → Ret op × σ) :
    Program Op Ret ε α → σ → Program Op Ret ε α → σ → Prop where
  | refl {program state} : Reaches handle program state program state
  | step {op next state stop after}
      (rest : Reaches handle (next (handle op state).1) (handle op state).2 stop after) :
      Reaches handle (.perform op next) state stop after

namespace Reaches

variable {program stop : Program Op Ret ε α} {state after : σ}

theorem trans {last : Program Op Ret ε α} {final : σ}
    (first : Reaches handle program state stop after)
    (second : Reaches handle stop after last final) : Reaches handle program state last final := by
  induction first with
  | refl => exact second
  | step _ ih => exact .step (ih second)

/-- A sequence gets past a first part that succeeds. -/
theorem past {continuation : α → Program Op Ret ε β} {value : α}
    (ran : program.run handle state = (.ok value, after)) :
    Reaches handle (program >>= continuation) state (continuation value) after := by
  induction program generalizing state with
  | ret result =>
      cases ran
      exact .refl
  | fail error => cases ran
  | abort why => cases ran
  | perform op next ih => exact .step (ih _ ran)

/-- A program that is not stopped ends. -/
theorem ended : Reaches handle program state (.ended (program.run handle state).1)
    (program.run handle state).2 := by
  induction program generalizing state with
  | ret value => exact .refl
  | fail error => exact .refl
  | abort why => exact .refl
  | perform op next ih => exact .step (ih _)

theorem bind (reaches : Reaches handle program state stop after)
    (continuation : α → Program Op Ret ε β) :
    Reaches handle (program >>= continuation) state (stop >>= continuation) after := by
  induction reaches with
  | refl => exact .refl
  | step _ ih => exact .step ih

theorem mapErr (reaches : Reaches handle program state stop after) (translate : ε → δ) :
    Reaches handle (program.mapErr translate) state (stop.mapErr translate) after := by
  induction reaches with
  | refl => exact .refl
  | step _ ih => exact .step ih

end Reaches

end Program

/-- A shared state and the threads that act on it. -/
structure Pool (ι σ Op : Type) (Ret : Op → Type) (ε α : Type) where
  shared : σ
  thread : ι → Thread Op Ret ε α

namespace Pool

variable {ι Op : Type} {Ret : Op → Type} {ε α : Type} [DecidableEq ι]

/-- One step of a pool. -/
inductive Step (world : SharedWorld Op Ret) :
    Pool ι world.State Op Ret ε α → Event ι Op Ret ε α →
      Pool ι world.State Op Ret ε α → Prop where
  | perform {pool caller op next answer after}
      (runs : pool.thread caller = .running (.perform op next))
      (answers : world.Answers pool.shared op answer after) :
      Step world pool (.performed caller op answer)
        ⟨after, Function.update pool.thread caller (.running (next answer))⟩
  | return {pool caller program outcome}
      (runs : pool.thread caller = .running program)
      (ended : program.outcome? = some outcome) :
      Step world pool (.returned caller outcome)
        ⟨pool.shared, Function.update pool.thread caller (.finished outcome)⟩
  | drift {pool after} (drifts : world.Drifts pool.shared after) :
      Step world pool .drifted ⟨after, pool.thread⟩

/-- The traces a pool can produce, with the pool each ends in. -/
inductive Runs (world : SharedWorld Op Ret) (start : Pool ι world.State Op Ret ε α) :
    List (Entry world.State ι Op Ret ε α) → Pool ι world.State Op Ret ε α → Prop where
  | refl : Runs world start [] start
  | step {trace pool event next} (prior : Runs world start trace pool)
      (transition : Step world pool event next) :
      Runs world start (trace ++ [⟨pool.shared, event⟩]) next

end Pool

/-- Every step of a trace satisfies a condition on the steps before it and on itself. -/
def EveryStep {ι σ Op : Type} {Ret : Op → Type} {ε α : Type}
    (condition : List (Entry σ ι Op Ret ε α) → Entry σ ι Op Ret ε α → Prop)
    (trace : List (Entry σ ι Op Ret ε α)) : Prop :=
  ∀ past entry rest, trace = past ++ entry :: rest → condition past entry

/-- There is no step in an empty trace. -/
theorem everyStep_nil {ι σ Op : Type} {Ret : Op → Type} {ε α : Type}
    {condition : List (Entry σ ι Op Ret ε α) → Entry σ ι Op Ret ε α → Prop} :
    EveryStep condition [] := by
  intro past entry rest split
  simp at split

/-- The condition on a trace with one more step. -/
theorem everyStep_snoc {ι σ Op : Type} {Ret : Op → Type} {ε α : Type}
    {condition : List (Entry σ ι Op Ret ε α) → Entry σ ι Op Ret ε α → Prop}
    {trace : List (Entry σ ι Op Ret ε α)} {last : Entry σ ι Op Ret ε α} :
    EveryStep condition (trace ++ [last]) ↔ EveryStep condition trace ∧ condition trace last := by
  constructor
  · intro every
    constructor
    · rintro past entry rest rfl
      exact every past entry (rest ++ [last]) (by simp)
    · exact every trace last [] rfl
  · rintro ⟨every, ends⟩ past entry rest split
    rcases List.eq_nil_or_concat rest with rfl | ⟨init, final, rfl⟩
    · obtain ⟨rfl, same⟩ := List.append_inj' split rfl
      cases same
      exact ends
    · rw [List.concat_eq_append, ← List.cons_append, ← List.append_assoc] at split
      obtain ⟨rfl, -⟩ := List.append_inj' split rfl
      exact every past entry init rfl

/-- The caller has got its outcome. -/
def Returned {ι σ Op : Type} {Ret : Op → Type} {ε α : Type} (trace : List (Entry σ ι Op Ret ε α))
    (caller : ι) (outcome : Outcome ε α) : Prop :=
  ∃ before, (⟨before, .returned caller outcome⟩ : Entry σ ι Op Ret ε α) ∈ trace

theorem Returned.append {ι σ Op : Type} {Ret : Op → Type} {ε α : Type}
    {trace : List (Entry σ ι Op Ret ε α)} {caller : ι} {outcome : Outcome ε α}
    (returned : Returned trace caller outcome) (more : List (Entry σ ι Op Ret ε α)) :
    Returned (trace ++ more) caller outcome := by
  obtain ⟨before, member⟩ := returned
  exact ⟨before, List.mem_append_left more member⟩

/-- The ghost of one caller after a trace: the fold of its own operations. -/
def Contract.ghostOf {ι σ Op : Type} {Ret : Op → Type} {ε α : Type} [DecidableEq ι]
    (contract : Contract Op Ret) (start : contract.Ghost) (caller : ι) :
    List (Entry σ ι Op Ret ε α) → contract.Ghost :=
  List.foldl (fun ghost entry =>
    match entry.event with
    | .performed other op answer => if other = caller then contract.after ghost op answer else ghost
    | .returned _ _ => ghost
    | .drifted => ghost) start

section GhostOf

variable {ι σ Op : Type} {Ret : Op → Type} {ε α : Type} [DecidableEq ι]
  {contract : Contract Op Ret} {start : contract.Ghost} {caller other : ι}
  {trace : List (Entry σ ι Op Ret ε α)} {before : σ}

@[simp] theorem Contract.ghostOf_nil :
    contract.ghostOf start caller ([] : List (Entry σ ι Op Ret ε α)) = start := rfl

/-- A caller's operation moves its contract. -/
@[simp] theorem Contract.ghostOf_performed_self {op : Op} {answer : Ret op} :
    contract.ghostOf start caller (trace ++ [⟨before, .performed caller op answer⟩]) =
      contract.after (contract.ghostOf start caller trace) op answer := by
  simp [Contract.ghostOf]

theorem Contract.ghostOf_performed_other {op : Op} {answer : Ret op} (different : other ≠ caller) :
    contract.ghostOf start caller (trace ++ [⟨before, .performed other op answer⟩]) =
      contract.ghostOf start caller trace := by
  simp [Contract.ghostOf, different]

@[simp] theorem Contract.ghostOf_returned {outcome : Outcome ε α} :
    contract.ghostOf start caller (trace ++ [⟨before, .returned other outcome⟩]) =
      contract.ghostOf start caller trace := by
  simp [Contract.ghostOf]

@[simp] theorem Contract.ghostOf_drifted :
    contract.ghostOf start caller (trace ++ [⟨before, .drifted⟩]) =
      contract.ghostOf start caller trace := by
  simp [Contract.ghostOf]

/-- The steps of others do not move a caller's ghost. -/
theorem Contract.ghostOf_of_others {more : List (Entry σ ι Op Ret ε α)}
    (others : ∀ entry ∈ more, entry.event.caller? ≠ some caller) :
    contract.ghostOf start caller (trace ++ more) = contract.ghostOf start caller trace := by
  induction more generalizing trace with
  | nil => rw [List.append_nil]
  | cons first rest ih =>
      have other := others first (.head _)
      rw [List.append_cons, ih fun entry member => others entry (.tail _ member)]
      obtain ⟨shared, event⟩ := first
      cases event with
      | performed actor op answer =>
          apply Contract.ghostOf_performed_other
          rintro rfl
          exact other rfl
      | returned actor outcome => exact Contract.ghostOf_returned
      | drifted => exact Contract.ghostOf_drifted

end GhostOf

namespace Pool

variable {ι Op : Type} {Ret : Op → Type} {ε α : Type} [DecidableEq ι]
  {world : SharedWorld Op Ret} {start pool : Pool ι world.State Op Ret ε α}
  {trace : List (Entry world.State ι Op Ret ε α)}

/-- What a thread's state says about the contract of its program. -/
def ThreadMeets (contract : Contract Op Ret) (ghost : contract.Ghost)
    (post : contract.Ghost → Outcome ε α → Prop) : Thread Op Ret ε α → Prop
  | .running program => program.Meets contract ghost post
  | .finished outcome => post ghost outcome

/-- Whatever a caller knows, the shared world answers as its contract expects. -/
def Honours (world : SharedWorld Op Ret) (contract : ι → Contract Op Ret) : Prop :=
  ∀ caller ghost shared op answer after, world.Answers shared op answer after →
    (contract caller).Expects ghost op answer

/-- The rule for an invariant of traces: every step keeps it. -/
theorem Runs.invariant
    (Inv : List (Entry world.State ι Op Ret ε α) → Pool ι world.State Op Ret ε α → Prop)
    (initially : Inv [] start)
    (each : ∀ trace pool event next, Runs world start trace pool → Inv trace pool →
      Step world pool event next → Inv (trace ++ [⟨pool.shared, event⟩]) next)
    (runs : Runs world start trace pool) : Inv trace pool := by
  induction runs with
  | refl => exact initially
  | step prior transition ih => exact each _ _ _ _ prior ih transition

/-- The rule for a condition on every step: each step meets it if the steps before it
did. -/
theorem Runs.everyStep
    {condition : List (Entry world.State ι Op Ret ε α) → Entry world.State ι Op Ret ε α → Prop}
    (each : ∀ trace pool event next, Runs world start trace pool → EveryStep condition trace →
      Step world pool event next → condition trace ⟨pool.shared, event⟩)
    (runs : Runs world start trace pool) : EveryStep condition trace := by
  induction runs with
  | refl => exact everyStep_nil
  | step prior transition ih =>
      exact everyStep_snoc.mpr ⟨ih, each _ _ _ _ prior ih transition⟩

/-- A run goes on from where another one ended. -/
theorem Runs.trans {more : List (Entry world.State ι Op Ret ε α)}
    {last : Pool ι world.State Op Ret ε α} (runs : Runs world start trace pool)
    (rest : Runs world pool more last) : Runs world start (trace ++ more) last := by
  induction rest with
  | refl =>
      rw [List.append_nil]
      exact runs
  | step prior transition ih =>
      rw [← List.append_assoc]
      exact ih.step transition

/-- A caller that has its outcome does nothing more. -/
theorem Runs.finished_of_returned (runs : Runs world start trace pool) {caller : ι}
    {outcome : Outcome ε α} (returned : Returned trace caller outcome) :
    pool.thread caller = .finished outcome := by
  obtain ⟨before, member⟩ := returned
  induction runs with
  | refl => cases member
  | @step trace pool event next prior transition ih =>
      rcases List.mem_append.mp member with earlier | last
      · have ended := ih earlier
        cases transition with
        | @perform actor op next answer after runs answers =>
            have different : caller ≠ actor := by
              rintro rfl
              rw [runs] at ended
              cases ended
            simpa [Function.update_of_ne different] using ended
        | @«return» actor program given runs stops =>
            have different : caller ≠ actor := by
              rintro rfl
              rw [runs] at ended
              cases ended
            simpa [Function.update_of_ne different] using ended
        | drift drifts => exact ended
      · have same := congrArg Entry.event (List.mem_singleton.mp last)
        cases transition with
        | @perform actor op next answer after runs answers => cases same
        | @«return» actor program given runs stops =>
            cases same
            exact Function.update_self _ _ _
        | drift drifts => cases same

/-! ### Letting one caller run -/

section Alone

variable {handle : (op : Op) → world.State → Ret op × world.State} {caller : ι}
  {program : Program Op Ret ε α} {holds : world.State → Prop}

/-- A caller that is left alone gets as far as its program played alone, through states
that satisfy every invariant of its operations. -/
theorem Runs.play (answers : ∀ op state,
      world.Answers state op (handle op state).1 (handle op state).2)
    (keeps : ∀ op state, holds state → holds (handle op state).2)
    (runs : Runs world start trace pool) (waiting : pool.thread caller = .running program)
    (begins : holds pool.shared) :
    ∃ more, Runs world start (trace ++ more)
        ⟨(program.run handle pool.shared).2, Function.update pool.thread caller
          (.running (.ended (program.run handle pool.shared).1))⟩ ∧
      holds (program.run handle pool.shared).2 ∧
      ∀ entry ∈ more, entry.event.caller? = some caller ∧ holds entry.before := by
  induction program generalizing trace pool with
  | ret value => exact ⟨[], by simpa [Program.ended, ← waiting] using runs, begins, nofun⟩
  | fail error => exact ⟨[], by simpa [Program.ended, ← waiting] using runs, begins, nofun⟩
  | abort why => exact ⟨[], by simpa [Program.ended, ← waiting] using runs, begins, nofun⟩
  | perform op next ih =>
      have performed := runs.step (.perform waiting (answers op pool.shared))
      obtain ⟨more, rest, ends, mine⟩ := ih _ performed (Function.update_self _ _ _)
        (keeps op _ begins)
      refine ⟨⟨pool.shared, .performed caller op (handle op pool.shared).1⟩ :: more, ?_, ends, ?_⟩
      · simpa using rest
      · rintro entry (_ | ⟨_, later⟩)
        · exact ⟨rfl, begins⟩
        · exact mine entry later

/-- A caller that is left alone can be stopped wherever its program can. -/
theorem Runs.reach (answers : ∀ op state,
      world.Answers state op (handle op state).1 (handle op state).2)
    (runs : Runs world start trace pool) (caller : ι)
    (waiting : pool.thread caller = .running program)
    {stop : Program Op Ret ε α} {after : world.State}
    (reaches : Program.Reaches handle program pool.shared stop after) :
    ∃ more, Runs world start (trace ++ more)
        ⟨after, Function.update pool.thread caller (.running stop)⟩ ∧
      ∀ entry ∈ more, entry.event.caller? = some caller := by
  generalize same : pool.shared = state at reaches
  induction reaches generalizing trace pool with
  | refl =>
      subst same
      exact ⟨[], by simpa [← waiting] using runs, nofun⟩
  | @step op next state stop after rest ih =>
      subst same
      have performed := runs.step (.perform waiting (answers op pool.shared))
      obtain ⟨more, played, mine⟩ := ih performed (Function.update_self _ _ _) rfl
      refine ⟨⟨pool.shared, .performed caller op (handle op pool.shared).1⟩ :: more, ?_, ?_⟩
      · simpa using played
      · rintro entry (_ | ⟨_, later⟩)
        · rfl
        · exact mine entry later

/-- A caller that is left alone returns what its program played alone returns. -/
theorem Runs.finish (answers : ∀ op state,
      world.Answers state op (handle op state).1 (handle op state).2)
    (runs : Runs world start trace pool) (waiting : pool.thread caller = .running program) :
    ∃ more, Runs world start (trace ++ more)
        ⟨(program.run handle pool.shared).2, Function.update pool.thread caller
          (.finished (program.run handle pool.shared).1)⟩ ∧
      Returned (trace ++ more) caller (program.run handle pool.shared).1 ∧
      ∀ entry ∈ more, entry.event.caller? = some caller := by
  obtain ⟨more, played, -, mine⟩ := runs.play answers (fun _ _ (always : True) => always) waiting
    trivial
  have returned := played.step
    (.return (Function.update_self _ _ _) (Program.outcome?_ended _))
  refine ⟨more ++ [⟨(program.run handle pool.shared).2,
    .returned caller (program.run handle pool.shared).1⟩], ?_, ⟨(program.run handle pool.shared).2,
    by simp⟩, ?_⟩
  · simpa using returned
  · intro entry member
    rcases List.mem_append.mp member with early | last
    · exact (mine entry early).1
    · rw [List.mem_singleton.mp last]
      rfl

end Alone

/-- The rule for contracts that rely on an invariant: the invariant tells which answers
to expect, and the operations that the contracts allow keep it. -/
theorem Runs.rely {contract : ι → Contract Op Ret} {ghost : ∀ caller, (contract caller).Ghost}
    {post : ∀ caller, (contract caller).Ghost → Outcome ε α → Prop}
    (Inv : List (Entry world.State ι Op Ret ε α) → world.State → Prop)
    (honours : ∀ trace shared caller state op answer after, Inv trace shared →
      world.Answers shared op answer after → (contract caller).Expects state op answer)
    (initially : ∀ caller,
      ThreadMeets (contract caller) (ghost caller) (post caller) (start.thread caller))
    (holds : Inv [] start.shared)
    (perform : ∀ trace shared caller op answer after, Inv trace shared →
      (contract caller).Allows ((contract caller).ghostOf (ghost caller) caller trace) op →
      world.Answers shared op answer after →
      Inv (trace ++ [⟨shared, .performed caller op answer⟩]) after)
    (returns : ∀ trace shared caller outcome, Inv trace shared →
      post caller ((contract caller).ghostOf (ghost caller) caller trace) outcome →
      Inv (trace ++ [⟨shared, .returned caller outcome⟩]) shared)
    (drift : ∀ trace shared after, Inv trace shared → world.Drifts shared after →
      Inv (trace ++ [⟨shared, .drifted⟩]) after)
    (runs : Runs world start trace pool) :
    Inv trace pool.shared ∧ ∀ caller,
      ThreadMeets (contract caller) ((contract caller).ghostOf (ghost caller) caller trace)
        (post caller) (pool.thread caller) := by
  induction runs with
  | refl => exact ⟨holds, initially⟩
  | step prior transition ih =>
      obtain ⟨held, meets⟩ := ih
      cases transition with
      | @perform actor op next answer after runs answers =>
          have own := meets actor
          rw [runs] at own
          refine ⟨perform _ _ _ _ _ _ held own.1 answers, fun caller => ?_⟩
          by_cases same : actor = caller
          · subst same
            simpa [ThreadMeets] using own.2 answer (honours _ _ _ _ _ _ _ held answers)
          · rw [Contract.ghostOf_performed_other same]
            simpa [Function.update_of_ne (Ne.symm same)] using meets caller
      | @«return» actor program outcome runs ended =>
          have own := meets actor
          rw [runs] at own
          have done := Program.Meets.outcome own ended
          refine ⟨returns _ _ _ _ held done, fun caller => ?_⟩
          rw [Contract.ghostOf_returned]
          by_cases same : actor = caller
          · subst same
            simpa [ThreadMeets] using done
          · simpa [Function.update_of_ne (Ne.symm same)] using meets caller
      | drift drifts =>
          refine ⟨drift _ _ _ held drifts, fun caller => ?_⟩
          simpa using meets caller

/-- In every interleaving each thread keeps meeting its own contract. -/
theorem Runs.meets {contract : ι → Contract Op Ret} {ghost : ∀ caller, (contract caller).Ghost}
    {post : ∀ caller, (contract caller).Ghost → Outcome ε α → Prop}
    (honours : Honours world contract)
    (initially : ∀ caller,
      ThreadMeets (contract caller) (ghost caller) (post caller) (start.thread caller))
    (runs : Runs world start trace pool) (caller : ι) :
    ThreadMeets (contract caller) ((contract caller).ghostOf (ghost caller) caller trace)
      (post caller) (pool.thread caller) :=
  (Runs.rely (fun _ _ => True) (fun _ _ _ _ _ _ _ _ => honours _ _ _ _ _ _) initially trivial
    (fun _ _ _ _ _ _ _ _ _ => trivial) (fun _ _ _ _ _ _ => trivial) (fun _ _ _ _ _ => trivial)
    runs).2 caller

end Pool

end Citadel
