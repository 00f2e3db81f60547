import Citadel.Program.Journal
import Mathlib.Algebra.BigOperators.Group.Finset.Piecewise
import Mathlib.Data.List.Induction
import Mathlib.Data.List.Perm.Basic

/-!
# Callers that share a journal

Every interleaving of code that keeps a journal is one of the code without it
(`Runs.erase`). The journal has what the callers recorded; callers that report their
writes have reported all of them but the one they are about to report (`Runs.report`), and
a caller that has its outcome has told what its code tells (`Runs.tells`).
-/

namespace Citadel

/-- A shared world with a journal that every caller appends to. -/
@[reducible] def SharedWorld.journaled {Op Event Entry : Type} {Ret : Op → Type}
    (world : SharedWorld Op Ret) (stamp : world.State → Event → Entry) :
    SharedWorld (Journaled Op Event) (Journaled.Ret Ret) where
  State := world.State × List Entry
  Answers
    | before, .act op, answer, after => world.Answers before.1 op answer after.1 ∧
        after.2 = before.2
    | before, .record event, _, after => after = (before.1, before.2 ++ [stamp before.1 event])
  Drifts before after := world.Drifts before.1 after.1 ∧ after.2 = before.2

section Erasing

variable {Op Event Stamped ι : Type} {Ret : Op → Type} {ε α : Type}

/-- A thread without its records. -/
def Thread.erase : Thread (Journaled Op Event) (Journaled.Ret Ret) ε α → Thread Op Ret ε α
  | .running program => .running program.erase
  | .finished outcome => .finished outcome

@[simp] theorem Thread.erase_running (program : Recorder Op Event Ret ε α) :
    (Thread.running program).erase = .running program.erase := rfl

@[simp] theorem Thread.erase_finished (outcome : Outcome ε α) :
    (Thread.finished outcome : Thread (Journaled Op Event) (Journaled.Ret Ret) ε α).erase =
      .finished outcome := rfl

/-- A pool without its journal. -/
def Pool.erase {σ : Type}
    (pool : Pool ι (σ × List Stamped) (Journaled Op Event) (Journaled.Ret Ret) ε α) :
    Pool ι σ Op Ret ε α :=
  ⟨pool.shared.1, fun caller => (pool.thread caller).erase⟩

/-- What is seen of a step by somebody who does not see the journal. -/
def Entry.erase {σ : Type}
    (entry : Entry (σ × List Stamped) ι (Journaled Op Event) (Journaled.Ret Ret) ε α) :
    Option (Entry σ ι Op Ret ε α) :=
  match entry.event with
  | .performed caller (.act op) answer => some ⟨entry.before.1, .performed caller op answer⟩
  | .performed _ (.record _) _ => none
  | .returned caller outcome => some ⟨entry.before.1, .returned caller outcome⟩
  | .drifted => some ⟨entry.before.1, .drifted⟩

/-- A program that has ended has ended without its events too. -/
theorem Program.outcome?_erase {program : Recorder Op Event Ret ε α} {outcome : Outcome ε α}
    (ended : program.outcome? = some outcome) : program.erase.outcome? = some outcome := by
  cases program with
  | ret value => exact ended
  | fail error => exact ended
  | abort why => exact ended
  | perform op next => cases ended

variable [DecidableEq ι]

/-- Taking events out and moving one caller may be done in either order. -/
theorem Thread.erase_update {thread : ι → Thread (Journaled Op Event) (Journaled.Ret Ret) ε α}
    {caller : ι} {next : Thread (Journaled Op Event) (Journaled.Ret Ret) ε α} :
    (fun other => (Function.update thread caller next other).erase) =
      Function.update (fun other => (thread other).erase) caller next.erase := by
  funext other
  by_cases same : other = caller
  · subst same
    simp
  · simp [Function.update_of_ne same]

namespace Pool

variable {world : SharedWorld Op Ret} {stamp : world.State → Event → Stamped}
  {start pool : Pool ι (world.journaled stamp).State (Journaled Op Event) (Journaled.Ret Ret) ε α}
  {trace : List (Entry (world.journaled stamp).State ι (Journaled Op Event) (Journaled.Ret Ret) ε α)}

/-- Every interleaving of code that keeps a journal is an interleaving of the code without
it, with the same answers and the same outcomes. -/
theorem Runs.erase (runs : Runs (world.journaled stamp) start trace pool) :
    Runs world start.erase (trace.filterMap Entry.erase) pool.erase := by
  induction runs with
  | refl => exact .refl
  | @step trace pool event next prior transition ih =>
      rw [List.filterMap_append]
      cases transition with
      | @perform caller op next answer after runs answers =>
          have waiting : (pool.erase.thread caller) = (Thread.running (.perform op next)).erase :=
            congrArg Thread.erase runs
          cases op with
          | act op =>
              obtain ⟨answered, -⟩ := answers
              have moved := ih.step (.perform waiting answered)
              simpa [Entry.erase, Pool.erase, Thread.erase_update] using moved
          | record event =>
              obtain rfl : after = (pool.shared.1, pool.shared.2 ++ [stamp pool.shared.1 event]) :=
                answers
              have unmoved : Function.update pool.erase.thread caller (.running (next ()).erase) =
                  pool.erase.thread := by
                rw [Function.update_eq_self_iff]
                exact waiting.symm
              have same : Pool.erase ⟨(pool.shared.1, pool.shared.2 ++
                  [stamp pool.shared.1 event]), Function.update pool.thread caller
                    (.running (next answer))⟩ = pool.erase := by
                simp only [Pool.erase, Thread.erase_update]
                exact congrArg (Pool.mk pool.shared.1) unmoved
              rw [same, List.filterMap_cons_none rfl, List.filterMap_nil, List.append_nil]
              exact ih
      | @«return» caller program outcome runs ended =>
          have waiting : pool.erase.thread caller = .running program.erase :=
            congrArg Thread.erase runs
          have moved := ih.step (.return waiting (Program.outcome?_erase ended))
          simpa [Entry.erase, Pool.erase, Thread.erase_update] using moved
      | drift drifts =>
          have moved := ih.step (.drift drifts.1)
          simpa [Entry.erase, Pool.erase] using moved

end Pool

end Erasing

section Reported

variable {Op Event Stamped Fact ι σ : Type} {Ret : Op → Type} {ε α : Type}
  (wrote : (op : Op) → Ret op → Option Fact) (told : Event → Option Fact)

/-- What a step wrote, with its caller. -/
def writtenAt (entry : Entry σ ι (Journaled Op Event) (Journaled.Ret Ret) ε α) :
    Option (ι × Fact) :=
  match entry.event with
  | .performed caller (.act op) answer => (wrote op answer).map fun fact => (caller, fact)
  | _ => none

/-- What a step reported, with its caller. -/
def reportedAt (entry : Entry σ ι (Journaled Op Event) (Journaled.Ret Ret) ε α) :
    Option (ι × Fact) :=
  match entry.event with
  | .performed caller (.record event) _ => (told event).map fun fact => (caller, fact)
  | _ => none

/-- What the callers wrote, in order. -/
def writtenFacts (trace : List (Entry σ ι (Journaled Op Event) (Journaled.Ret Ret) ε α)) :
    List (ι × Fact) :=
  trace.filterMap (writtenAt wrote)

/-- What the callers reported, in order. -/
def reportedFacts (trace : List (Entry σ ι (Journaled Op Event) (Journaled.Ret Ret) ε α)) :
    List (ι × Fact) :=
  trace.filterMap (reportedAt told)

/-- The items of one caller. -/
def itemsOf {β : Type} [DecidableEq ι] (caller : ι) (all : List (ι × β)) : List (ι × β) :=
  all.filter fun item => item.1 = caller

variable {wrote told}

/-- What one more step writes. -/
theorem writtenFacts_snoc (trace : List (Entry σ ι (Journaled Op Event) (Journaled.Ret Ret) ε α))
    (entry : Entry σ ι (Journaled Op Event) (Journaled.Ret Ret) ε α) :
    writtenFacts wrote (trace ++ [entry]) =
      writtenFacts wrote trace ++ (writtenAt wrote entry).toList := by
  rw [writtenFacts, List.filterMap_append, ← writtenFacts]
  cases found : writtenAt wrote entry with
  | none => rw [List.filterMap_cons_none found, List.filterMap_nil, Option.toList_none]
  | some item => rw [List.filterMap_cons_some found, List.filterMap_nil, Option.toList_some]

/-- What one more step reports. -/
theorem reportedFacts_snoc (trace : List (Entry σ ι (Journaled Op Event) (Journaled.Ret Ret) ε α))
    (entry : Entry σ ι (Journaled Op Event) (Journaled.Ret Ret) ε α) :
    reportedFacts told (trace ++ [entry]) =
      reportedFacts told trace ++ (reportedAt told entry).toList := by
  rw [reportedFacts, List.filterMap_append, ← reportedFacts]
  cases found : reportedAt told entry with
  | none => rw [List.filterMap_cons_none found, List.filterMap_nil, Option.toList_none]
  | some item => rw [List.filterMap_cons_some found, List.filterMap_nil, Option.toList_some]

section ItemsOf

variable {β : Type} [DecidableEq ι] {caller other : ι} {item : Option β}

theorem itemsOf_append (left right : List (ι × β)) :
    itemsOf caller (left ++ right) = itemsOf caller left ++ itemsOf caller right :=
  List.filter_append left right

theorem itemsOf_own : itemsOf caller (item.map fun found => (caller, found)).toList =
    (item.map fun found => (caller, found)).toList := by
  cases item with
  | none => rfl
  | some found => simp [itemsOf]

theorem itemsOf_other (different : other ≠ caller) :
    itemsOf caller (item.map fun found => (other, found)).toList = [] := by
  cases item with
  | none => rfl
  | some found => simp [itemsOf, different]

end ItemsOf

/-- Lists that agree on the items of every caller hold the same items. -/
theorem perm_of_itemsOf [DecidableEq ι] [DecidableEq Fact] {left right : List (ι × Fact)}
    (same : ∀ caller, itemsOf caller left = itemsOf caller right) : left.Perm right := by
  rw [List.perm_iff_count]
  intro item
  have counted : ∀ all : List (ι × Fact), all.count item = (itemsOf item.1 all).count item :=
    fun all => (List.count_filter (by simp)).symm
  rw [counted left, counted right, same]

namespace Pool

variable {world : SharedWorld Op Ret} {stamp : world.State → Event → Stamped} [DecidableEq ι]
  {start pool : Pool ι (world.journaled stamp).State (Journaled Op Event) (Journaled.Ret Ret) ε α}
  {trace : List (Entry (world.journaled stamp).State ι (Journaled Op Event) (Journaled.Ret Ret) ε α)}
  {expected : (op : Op) → Ret op → Prop}

/-- What a caller still owes the journal. -/
def owes (expected : (op : Op) → Ret op → Prop) (wrote : (op : Op) → Ret op → Option Fact)
    (told : Event → Option Fact) (caller : ι)
    (trace : List (Entry (world.journaled stamp).State ι (Journaled Op Event) (Journaled.Ret Ret)
      ε α)) : Option Fact :=
  (Program.reporting expected wrote told).ghostOf none caller trace

/-- What one more step adds to what was written, reported and is owed. -/
theorem owes_snoc {caller : ι} {entry : Entry (world.journaled stamp).State ι
      (Journaled Op Event) (Journaled.Ret Ret) ε α}
    (idle : ∀ op answer, entry.event ≠ .performed caller op answer) :
    owes expected wrote told caller (trace ++ [entry]) = owes expected wrote told caller trace := by
  obtain ⟨before, event⟩ := entry
  cases event with
  | performed other op answer =>
      apply Contract.ghostOf_performed_other
      rintro rfl
      exact idle op answer rfl
  | returned other outcome => exact Contract.ghostOf_returned
  | drifted => exact Contract.ghostOf_drifted

/-- What is written and not yet reported. -/
def Balanced (expected : (op : Op) → Ret op → Prop) (wrote : (op : Op) → Ret op → Option Fact)
    (told : Event → Option Fact)
    (trace : List (Entry (world.journaled stamp).State ι (Journaled Op Event) (Journaled.Ret Ret)
      ε α)) : Prop :=
  ∀ caller, itemsOf caller (writtenFacts wrote trace) = itemsOf caller (reportedFacts told trace) ++
    ((owes expected wrote told caller trace).map fun fact => (caller, fact)).toList

/-- One more step of a caller that reports what it writes. -/
theorem Balanced.snoc {entry : Entry (world.journaled stamp).State ι (Journaled Op Event)
      (Journaled.Ret Ret) ε α} (balanced : Balanced expected wrote told trace)
    (allowed : ∀ caller op answer, entry.event = .performed caller op answer →
      (Program.reporting expected wrote told).Allows (owes expected wrote told caller trace) op) :
    Balanced expected wrote told (trace ++ [entry]) := by
  obtain ⟨before, event⟩ := entry
  intro caller
  have prior := balanced caller
  rw [writtenFacts_snoc, reportedFacts_snoc, itemsOf_append, itemsOf_append]
  cases event with
  | performed other op answer =>
      have permitted := allowed other op answer rfl
      by_cases same : other = caller
      · subst same
        have moved : owes expected wrote told other (trace ++ [⟨before, .performed other op answer⟩]) =
            (Program.reporting expected wrote told).after (owes expected wrote told other trace) op answer :=
          Contract.ghostOf_performed_self
        rw [moved, prior]
        cases op with
        | act op =>
            have settled : owes expected wrote told other trace = none := permitted
            rw [settled]
            change _ ++ itemsOf other ((wrote op answer).map fun fact => (other, fact)).toList =
              _ ++ itemsOf other [] ++ ((wrote op answer).map fun fact => (other, fact)).toList
            rw [itemsOf_own]
            simp [itemsOf]
        | record event =>
            have owed : told event = owes expected wrote told other trace := permitted
            rw [← owed]
            change _ ++ itemsOf other [] =
              _ ++ itemsOf other ((told event).map fun fact => (other, fact)).toList ++ []
            rw [itemsOf_own]
            simp [itemsOf]
      · rw [owes_snoc fun op' answer' given => same (by cases given; rfl), prior]
        cases op with
        | act op =>
            change _ ++ itemsOf caller ((wrote op answer).map fun fact => (other, fact)).toList =
              _ ++ itemsOf caller [] ++ _
            rw [itemsOf_other same]
            simp [itemsOf]
        | record event =>
            change _ ++ itemsOf caller [] =
              _ ++ itemsOf caller ((told event).map fun fact => (other, fact)).toList ++ _
            rw [itemsOf_other same]
            simp [itemsOf]
  | returned other outcome =>
      have idle : owes expected wrote told caller (trace ++ [⟨before, .returned other outcome⟩]) =
          owes expected wrote told caller trace := owes_snoc fun op answer given => (by cases given)
      rw [idle, prior]
      simp [writtenAt, reportedAt, itemsOf]
  | drifted =>
      have idle : owes expected wrote told caller (trace ++ [⟨before, .drifted⟩]) =
          owes expected wrote told caller trace := owes_snoc fun op answer given => (by cases given)
      rw [idle, prior]
      simp [writtenAt, reportedAt, itemsOf]

/-- A caller that has its outcome owes nothing. -/
theorem owes_eq_none {caller : ι} {thread : Thread (Journaled Op Event) (Journaled.Ret Ret) ε α}
    {outcome : Outcome ε α} (ended : thread = .finished outcome)
    (meets : ThreadMeets (Program.reporting expected wrote told)
      (owes expected wrote told caller trace) (fun owed _ => owed = none) thread) :
    owes expected wrote told caller trace = none := by
  subst ended
  exact meets

/-- The ghost of a caller is what it told. -/
theorem ghostOf_telling (caller : ι) :
    (Program.telling Ret told).ghostOf [] caller trace =
      (itemsOf caller (reportedFacts told trace)).map Prod.snd := by
  induction trace using List.reverseRecOn with
  | nil => rfl
  | append_singleton trace entry ih =>
      obtain ⟨before, event⟩ := entry
      rw [reportedFacts_snoc, itemsOf_append, List.map_append, ← ih]
      cases event with
      | performed other op answer =>
          by_cases same : other = caller
          · subst same
            rw [Contract.ghostOf_performed_self]
            cases op with
            | act op => exact (List.append_nil _).symm
            | record event =>
                change _ ++ (told event).toList =
                  _ ++ (itemsOf other ((told event).map fun fact => (other, fact)).toList).map _
                rw [itemsOf_own]
                cases told event <;> rfl
          · rw [Contract.ghostOf_performed_other same]
            cases op with
            | act op => exact (List.append_nil _).symm
            | record event =>
                change _ = _ ++
                  (itemsOf caller ((told event).map fun fact => (other, fact)).toList).map _
                rw [itemsOf_other same]
                exact (List.append_nil _).symm
      | returned other outcome =>
          rw [Contract.ghostOf_returned]
          exact (List.append_nil _).symm
      | drifted =>
          rw [Contract.ghostOf_drifted]
          exact (List.append_nil _).symm

/-- What a caller has told when it got its outcome is what its code tells. -/
theorem Runs.tells {post : ι → List Fact → Outcome ε α → Prop}
    (initially : ∀ caller, ∃ program, start.thread caller = .running program ∧
      Program.Tells told program (post caller))
    (runs : Runs (world.journaled stamp) start trace pool) {caller : ι} {outcome : Outcome ε α}
    (returned : Returned trace caller outcome) :
    post caller ((itemsOf caller (reportedFacts told trace)).map Prod.snd) outcome := by
  have honours : Honours (world.journaled stamp) fun _ : ι => Program.telling Ret told :=
    fun _ _ _ _ _ _ _ => trivial
  have starts : ∀ caller, ThreadMeets (Program.telling Ret told) [] (post caller)
      (start.thread caller) := by
    intro caller
    obtain ⟨program, waiting, tells⟩ := initially caller
    rw [waiting]
    refine (tells []).mono ?_
    rintro facts result ⟨more, rfl, holds⟩
    exact holds
  have meets := Runs.meets honours starts runs caller
  rw [runs.finished_of_returned returned] at meets
  rw [← ghostOf_telling]
  exact meets

/-- The journal has what the callers recorded, in order. -/
theorem Runs.journal {read : Stamped → Option Fact}
    (reads : ∀ state event, read (stamp state event) = told event)
    (runs : Runs (world.journaled stamp) start trace pool) :
    pool.shared.2.filterMap read =
      start.shared.2.filterMap read ++ (reportedFacts told trace).map Prod.snd := by
  induction runs with
  | refl => simp [reportedFacts]
  | step prior transition ih =>
      rw [reportedFacts_snoc, List.map_append, ← List.append_assoc, ← ih]
      cases transition with
      | @perform caller op next answer after runs answers =>
          cases op with
          | act op =>
              rw [answers.2]
              simp [reportedAt]
          | record event =>
              obtain rfl := answers
              rw [List.filterMap_append]
              cases found : told event with
              | none => simp [reportedAt, reads, found]
              | some fact => simp [reportedAt, reads, found]
      | @«return» caller program outcome runs ended => simp [reportedAt]
      | drift drifts =>
          rw [drifts.2]
          simp [reportedAt]

/-- The journal only grows. -/
theorem Runs.journal_prefix (runs : Runs (world.journaled stamp) start trace pool) :
    start.shared.2 <+: pool.shared.2 := by
  induction runs with
  | refl => exact List.prefix_refl _
  | step prior transition ih =>
      refine ih.trans ?_
      cases transition with
      | @perform caller op next answer after runs answers =>
          cases op with
          | act op => exact answers.2 ▸ List.prefix_refl _
          | record event =>
              obtain rfl := answers
              exact List.prefix_append _ _
      | @«return» caller program outcome runs ended => exact List.prefix_refl _
      | drift drifts => exact drifts.2 ▸ List.prefix_refl _

/-- Callers that report their writes have reported all of them but the one they are about to
report, in their order. -/
theorem Runs.report
    (honours : ∀ before op answer after, world.Answers before op answer after → expected op answer)
    (initially : ∀ caller, ThreadMeets (Program.reporting expected wrote told) none
      (fun owed _ => owed = none) (start.thread caller))
    (runs : Runs (world.journaled stamp) start trace pool) :
    Balanced expected wrote told trace ∧
      ∀ caller, ThreadMeets (Program.reporting expected wrote told)
        (owes expected wrote told caller trace) (fun owed _ => owed = none)
        (pool.thread caller) := by
  have answered : ∀ shared state op answer after,
      (world.journaled stamp).Answers shared op answer after →
        (Program.reporting expected wrote told).Expects state op answer := by
    intro shared state op answer after answers
    cases op with
    | act op => exact honours _ _ _ _ answers.1
    | record event => trivial
  refine Runs.rely (fun trace _ => Balanced expected wrote told trace)
    (fun _ shared caller state op answer after _ => answered shared state op answer after)
    initially (fun caller => rfl) ?_ ?_ ?_ runs
  · intro trace shared caller op answer after balanced permitted answers
    refine balanced.snoc ?_
    intro other op' answer' same
    cases same
    exact permitted
  · intro trace shared caller outcome balanced _
    refine balanced.snoc ?_
    intro other op' answer' same
    cases same
  · intro trace shared after balanced drifts
    refine balanced.snoc ?_
    intro other op' answer' same
    cases same

/-- A caller that owes a report makes it with its next operation. -/
theorem reports_next {caller : ι} {thread : Thread (Journaled Op Event) (Journaled.Ret Ret) ε α}
    {fact : Fact} (owed : owes expected wrote told caller trace = some fact)
    (meets : ThreadMeets (Program.reporting expected wrote told) (owes expected wrote told caller trace)
      (fun owed _ => owed = none) thread) :
    ∃ event next, thread = .running (.perform (.record event) next) ∧ told event = some fact := by
  rw [owed] at meets
  cases thread with
  | finished outcome => cases meets
  | running program =>
      cases program with
      | ret value => cases meets
      | fail error => cases meets
      | abort why => cases meets
      | perform op next =>
          cases op with
          | act op => cases meets.1
          | record event => exact ⟨event, next, rfl, meets.1⟩

/-- A caller that is left alone returns what its code returns without its records, in the
state that this code leaves, and adds to the journal. -/
theorem Runs.finish_journaled {handle : (op : Op) → world.State → Ret op × world.State}
    {caller : ι} {program : Recorder Op Event Ret ε α} {state after : world.State}
    {journal : List Stamped} {outcome : Outcome ε α}
    (answers : ∀ op state, world.Answers state op (handle op state).1 (handle op state).2)
    (runs : Runs (world.journaled stamp) start trace pool)
    (waiting : pool.thread caller = .running program) (here : pool.shared = (state, journal))
    (ran : program.erase.run handle state = (outcome, after)) :
    ∃ more recorded, Runs (world.journaled stamp) start (trace ++ more)
        ⟨(after, journal ++ recorded), Function.update pool.thread caller (.finished outcome)⟩ ∧
      Returned (trace ++ more) caller outcome := by
  obtain ⟨recorded, played⟩ := Program.run_journaled handle stamp program state journal
  rw [ran] at played
  have stepwise : ∀ op (state : (world.journaled stamp).State),
      (world.journaled stamp).Answers state op
        (Program.handleJournaled handle stamp op state).1
        (Program.handleJournaled handle stamp op state).2 := by
    intro op state
    cases op with
    | act op => exact ⟨answers op state.1, rfl⟩
    | record event => rfl
  obtain ⟨more, finished, returned, -⟩ := Runs.finish stepwise runs waiting
  rw [here, played] at finished
  rw [here, played] at returned
  exact ⟨more, recorded, finished, returned⟩

end Pool

end Reported

section Counting

variable {ι Fact : Type} [DecidableEq ι] [BEq Fact] [Fintype ι]

/-- How often a fact is told is how often the callers told it. -/
theorem count_eq_sum_itemsOf (all : List (ι × Fact)) (fact : Fact) :
    (all.map Prod.snd).count fact =
      ∑ caller, ((itemsOf caller all).map Prod.snd).count fact := by
  induction all with
  | nil => simp [itemsOf]
  | cons item rest ih =>
      have split : ∀ caller, ((itemsOf caller (item :: rest)).map Prod.snd).count fact =
          ((itemsOf caller rest).map Prod.snd).count fact +
            if item.1 = caller then (if item.2 == fact then 1 else 0) else 0 := by
        intro caller
        by_cases own : item.1 = caller
        · simp [itemsOf, own, List.count_cons]
        · simp [itemsOf, own]
      simp only [split, Finset.sum_add_distrib, ← ih, List.map_cons, List.count_cons]
      simp

end Counting

end Citadel
