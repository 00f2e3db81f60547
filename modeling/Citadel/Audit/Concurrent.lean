import Citadel.Program.Interleaving
import Citadel.Audit.Chain
import Citadel.Audit.PlainFormat
import Mathlib.Data.List.Perm.Subperm

/-!
# Threads that share a sink

`IntegrityChainSink::record` links an event while it holds the lock and writes the line
after it has let go. Threads may therefore write in another order than they linked. The
log is a chain as long as every write is the turn of its event: the first of the chain
that is not written yet.
-/

namespace Citadel.Audit

open HashChain

/-! ### The code of a thread -/

/-- The two atomic steps of `record`. -/
inductive SinkOp (Body : Type) where
  | link (event : AuditEvent Body)
  | write (stamped : AuditEvent Body)

/-- What a step hands back. -/
abbrev SinkOp.Ret {Body : Type} : SinkOp Body → Type
  | .link _ => AuditEvent Body
  | .write _ => Unit

/-- What the threads share: the state of the sink and the file. -/
structure Sink where
  chain : ChainState
  file : Option Bytes

section Code

variable {Body : Type}

/-- The programs of threads that record events. -/
abbrev SinkProgram (Body : Type) := Program (SinkOp Body) SinkOp.Ret Empty

/-- `IntegrityChainSink::record`: link under the lock, then forward to the file. -/
def record (event : AuditEvent Body) : SinkProgram Body Unit := do
  let stamped ← Program.call (.link event)
  Program.call (SinkOp.write stamped)

/-- A thread that records events one after another. -/
def recordCalls : List (AuditEvent Body) → SinkProgram Body Unit
  | [] => .ret ()
  | event :: rest => do
      record event
      recordCalls rest

/-- The shared sink: a link stamps the event, a write appends its line. -/
abbrev sharedSink (format : LogFormat Body) : SharedWorld (SinkOp Body) SinkOp.Ret where
  State := Sink
  Answers sink op answer after :=
    match op with
    | .link event =>
        answer = (sink.chain.link format event).1 ∧
          after = { sink with chain := (sink.chain.link format event).2 }
    | .write stamped => after = { sink with file := FileAuditSink.record format sink.file stamped }
  Drifts _ _ := False

end Code

variable {ι Body : Type} [DecidableEq ι] {format : LogFormat Body}

/-- Threads and the sink they share. -/
abbrev SinkPool (ι Body : Type) := Pool ι Sink (SinkOp Body) SinkOp.Ret Empty Unit

/-- A step of a thread, with the sink that it found. -/
abbrev SinkEntry (ι Body : Type) := Entry Sink ι (SinkOp Body) SinkOp.Ret Empty Unit

/-- No thread has recorded anything yet. -/
def freshPool (format : LogFormat Body) (calls : ι → List (AuditEvent Body)) : SinkPool ι Body where
  shared := ⟨.new format, none⟩
  thread caller := .running (recordCalls (calls caller))

/-! ### Histories -/

/-- The event that a step linked: whose it was, as it was given and as it was stamped. -/
def SinkEntry.linked? (entry : SinkEntry ι Body) :
    Option (ι × AuditEvent Body × AuditEvent Body) :=
  match entry.event with
  | .performed caller (.link event) stamped => some (caller, event, stamped)
  | .performed _ (.write _) _ => none
  | .returned _ _ => none
  | .drifted => none

/-- The event that a step wrote, and whose it was. -/
def SinkEntry.written? (entry : SinkEntry ι Body) : Option (ι × AuditEvent Body) :=
  match entry.event with
  | .performed _ (.link _) _ => none
  | .performed caller (.write stamped) _ => some (caller, stamped)
  | .returned _ _ => none
  | .drifted => none

/-- The events in the order of the chain. -/
def linked (trace : List (SinkEntry ι Body)) : List (ι × AuditEvent Body) :=
  trace.filterMap fun entry => (SinkEntry.linked? entry).map fun (caller, _, stamped) =>
    (caller, stamped)

/-- The events as they were given, in the order of the chain. -/
def requested (trace : List (SinkEntry ι Body)) : List (AuditEvent Body) :=
  trace.filterMap fun entry => (SinkEntry.linked? entry).map fun (_, event, _) => event

/-- The events in the order of the file. -/
def written (trace : List (SinkEntry ι Body)) : List (ι × AuditEvent Body) :=
  trace.filterMap SinkEntry.written?

/-- What belongs to one thread. -/
def own {α : Type} (caller : ι) (entries : List (ι × α)) : List α :=
  (entries.filter fun entry => entry.1 = caller).map Prod.snd

section Own

variable {α : Type} {caller other : ι} {entries : List (ι × α)} {value : α}

@[simp] theorem own_nil : own caller ([] : List (ι × α)) = [] := rfl

@[simp] theorem own_snoc_self :
    own caller (entries ++ [(caller, value)]) = own caller entries ++ [value] := by
  simp [own]

theorem own_snoc_other (different : other ≠ caller) :
    own caller (entries ++ [(other, value)]) = own caller entries := by
  simp [own, different]

theorem count_own [DecidableEq α] : (own caller entries).count value =
    entries.count (caller, value) := by
  induction entries with
  | nil => rfl
  | cons entry entries ih =>
      obtain ⟨owner, held⟩ := entry
      by_cases same : owner = caller
      · subst same
        by_cases equal : held = value
        · simpa [own, equal] using ih
        · simpa [own, equal] using ih
      · simpa [own, same] using ih

end Own

/-- Threads that each wrote a part of what they linked wrote a part of it all. -/
theorem length_le_of_own {α : Type} {part whole : List (ι × α)}
    (each : ∀ caller, own caller part <+: own caller whole) : part.length ≤ whole.length := by
  classical
  apply List.Subperm.length_le
  rw [List.subperm_ext_iff]
  rintro ⟨caller, value⟩ -
  rw [← count_own, ← count_own]
  exact (each caller).sublist.count_le value

/-! ### What each step leaves -/

/-- How far a thread is: the events it has linked and written, against those it was given. -/
inductive Progress (calls links writes : List (AuditEvent Body)) :
    Thread (SinkOp Body) SinkOp.Ret Empty Unit → Prop where
  | idle {todo : List (AuditEvent Body)}
      (given : calls.map AuditEvent.body = writes.map AuditEvent.body ++ todo.map AuditEvent.body)
      (settled : links = writes) : Progress calls links writes (.running (recordCalls todo))
  | pending {stamped : AuditEvent Body} {todo : List (AuditEvent Body)}
      (given : calls.map AuditEvent.body =
        writes.map AuditEvent.body ++ stamped.body :: todo.map AuditEvent.body)
      (ahead : links = writes ++ [stamped]) :
      Progress calls links writes
        (.running (.perform (.write stamped) fun _ => recordCalls todo))
  | finished {outcome : Outcome Empty Unit}
      (given : calls.map AuditEvent.body = writes.map AuditEvent.body)
      (settled : links = writes) : Progress calls links writes (.finished outcome)

theorem Progress.isPrefix {calls links writes : List (AuditEvent Body)}
    {thread : Thread (SinkOp Body) SinkOp.Ret Empty Unit}
    (progress : Progress calls links writes thread) : writes <+: links := by
  cases progress with
  | idle given settled => rw [settled]
  | pending given ahead =>
      rw [ahead]
      exact List.prefix_append _ _
  | finished given settled => rw [settled]

/-- A running thread is between two calls or about to write. -/
theorem Progress.of_running {calls links writes : List (AuditEvent Body)}
    {program : SinkProgram Body Unit}
    {thread : Thread (SinkOp Body) SinkOp.Ret Empty Unit}
    (progress : Progress calls links writes thread) (running : thread = .running program) :
    (∃ todo, program = recordCalls todo ∧ links = writes ∧
      calls.map AuditEvent.body = writes.map AuditEvent.body ++ todo.map AuditEvent.body) ∨
    (∃ stamped todo, program = .perform (.write stamped) (fun _ => recordCalls todo) ∧
      links = writes ++ [stamped] ∧
      calls.map AuditEvent.body =
        writes.map AuditEvent.body ++ stamped.body :: todo.map AuditEvent.body) := by
  cases progress with
  | idle given settled =>
      cases running
      exact .inl ⟨_, rfl, settled, given⟩
  | pending given ahead =>
      cases running
      exact .inr ⟨_, _, rfl, ahead, given⟩
  | finished given settled => cases running

/-- What holds of every run: the chain follows the links, the file the writes, and every
thread is some way through its events. -/
structure Follows (format : LogFormat Body) (calls : ι → List (AuditEvent Body))
    (trace : List (SinkEntry ι Body)) (pool : SinkPool ι Body) : Prop where
  chain : pool.shared.chain = stateAfter format (.new format) (requested trace)
  links : (linked trace).map Prod.snd = stamped format (.new format) (requested trace)
  file : pool.shared.file =
    extended none ((written trace).map fun entry => format.serialize entry.2)
  progress : ∀ caller, Progress (calls caller) (own caller (linked trace))
    (own caller (written trace)) (pool.thread caller)

section Snoc

variable {trace : List (SinkEntry ι Body)} {before : Sink} {caller : ι}

omit [DecidableEq ι]

theorem linked_link {event stamped : AuditEvent Body} :
    linked (trace ++ [⟨before, .performed caller (.link event) stamped⟩]) =
      linked trace ++ [(caller, stamped)] := by
  simp [linked, SinkEntry.linked?]

theorem requested_link {event stamped : AuditEvent Body} :
    requested (trace ++ [⟨before, .performed caller (.link event) stamped⟩]) =
      requested trace ++ [event] := by
  simp [requested, SinkEntry.linked?]

theorem written_link {event stamped : AuditEvent Body} :
    written (trace ++ [⟨before, .performed caller (.link event) stamped⟩]) = written trace := by
  simp [written, SinkEntry.written?]

theorem linked_write {stamped : AuditEvent Body} {answer : Unit} :
    linked (trace ++ [⟨before, .performed caller (.write stamped) answer⟩]) = linked trace := by
  simp [linked, SinkEntry.linked?]

theorem requested_write {stamped : AuditEvent Body} {answer : Unit} :
    requested (trace ++ [⟨before, .performed caller (.write stamped) answer⟩]) =
      requested trace := by
  simp [requested, SinkEntry.linked?]

theorem written_write {stamped : AuditEvent Body} {answer : Unit} :
    written (trace ++ [⟨before, .performed caller (.write stamped) answer⟩]) =
      written trace ++ [(caller, stamped)] := by
  simp [written, SinkEntry.written?]

theorem linked_return {outcome : Outcome Empty Unit} :
    linked (trace ++ [⟨before, .returned caller outcome⟩]) = linked trace := by
  simp [linked, SinkEntry.linked?]

theorem requested_return {outcome : Outcome Empty Unit} :
    requested (trace ++ [⟨before, .returned caller outcome⟩]) = requested trace := by
  simp [requested, SinkEntry.linked?]

theorem written_return {outcome : Outcome Empty Unit} :
    written (trace ++ [⟨before, .returned caller outcome⟩]) = written trace := by
  simp [written, SinkEntry.written?]

end Snoc

namespace Follows

variable {calls : ι → List (AuditEvent Body)} {trace : List (SinkEntry ι Body)}
  {pool : SinkPool ι Body} {caller : ι}

theorem start (format : LogFormat Body) (calls : ι → List (AuditEvent Body)) :
    Follows format calls [] (freshPool format calls) :=
  ⟨rfl, rfl, rfl, fun _ => .idle rfl rfl⟩

/-- A thread links its next event. -/
theorem link (follows : Follows format calls trace pool) {event : AuditEvent Body}
    {todo : List (AuditEvent Body)} {before : Sink}
    (given : (calls caller).map AuditEvent.body =
      (own caller (written trace)).map AuditEvent.body ++ (event :: todo).map AuditEvent.body)
    (settled : own caller (linked trace) = own caller (written trace)) :
    Follows format calls
      (trace ++ [⟨before, .performed caller (.link event) (pool.shared.chain.link format event).1⟩])
      ⟨{ pool.shared with chain := (pool.shared.chain.link format event).2 },
        Function.update pool.thread caller (.running (.perform
          (.write (pool.shared.chain.link format event).1) fun _ => recordCalls todo))⟩ := by
  refine ⟨?_, ?_, ?_, ?_⟩
  · rw [requested_link, stateAfter_snoc, ← follows.chain]
  · rw [linked_link, requested_link, List.map_append, follows.links, stamped_append,
      ← follows.chain]
    rfl
  · rw [written_link]
    exact follows.file
  · intro other
    dsimp only
    rw [linked_link, written_link]
    by_cases same : other = caller
    · subst same
      rw [own_snoc_self, Function.update_self, settled]
      exact .pending given rfl
    · rw [own_snoc_other (Ne.symm same), Function.update_of_ne same]
      exact follows.progress other

/-- A thread writes the event that it linked. -/
theorem write (follows : Follows format calls trace pool) {stamped : AuditEvent Body}
    {todo : List (AuditEvent Body)} {before : Sink} {answer : Unit}
    (given : (calls caller).map AuditEvent.body =
      (own caller (written trace)).map AuditEvent.body ++ stamped.body :: todo.map AuditEvent.body)
    (ahead : own caller (linked trace) = own caller (written trace) ++ [stamped]) :
    Follows format calls (trace ++ [⟨before, .performed caller (.write stamped) answer⟩])
      ⟨{ pool.shared with file := FileAuditSink.record format pool.shared.file stamped },
        Function.update pool.thread caller (.running (recordCalls todo))⟩ := by
  refine ⟨?_, ?_, ?_, ?_⟩
  · rw [requested_write]
    exact follows.chain
  · rw [linked_write, requested_write]
    exact follows.links
  · rw [written_write, List.map_append, extended_append, ← follows.file]
    simp [FileAuditSink.record, extended, logBytes]
  · intro other
    dsimp only
    rw [linked_write, written_write]
    by_cases same : other = caller
    · subst same
      rw [own_snoc_self, Function.update_self]
      exact .idle (by simpa using given) ahead
    · rw [own_snoc_other (Ne.symm same), Function.update_of_ne same]
      exact follows.progress other

/-- A thread that has recorded all its events ends. -/
theorem ends (follows : Follows format calls trace pool) {outcome : Outcome Empty Unit}
    {before : Sink}
    (given : (calls caller).map AuditEvent.body =
      (own caller (written trace)).map AuditEvent.body)
    (settled : own caller (linked trace) = own caller (written trace)) :
    Follows format calls (trace ++ [⟨before, .returned caller outcome⟩])
      ⟨pool.shared, Function.update pool.thread caller (.finished outcome)⟩ := by
  refine ⟨?_, ?_, ?_, ?_⟩
  · rw [requested_return]
    exact follows.chain
  · rw [linked_return, requested_return]
    exact follows.links
  · rw [written_return]
    exact follows.file
  · intro other
    dsimp only
    rw [linked_return, written_return]
    by_cases same : other = caller
    · subst same
      rw [Function.update_self]
      exact .finished given settled
    · rw [Function.update_of_ne same]
      exact follows.progress other

end Follows

/-- Every run follows the code. -/
theorem follows_of_runs {calls : ι → List (AuditEvent Body)} {trace : List (SinkEntry ι Body)}
    {pool : SinkPool ι Body}
    (runs : Pool.Runs (sharedSink format) (freshPool format calls) trace pool) :
    Follows format calls trace pool := by
  apply Pool.Runs.invariant (Follows format calls) (Follows.start format calls) ?_ runs
  intro trace pool event next _ follows transition
  cases transition with
  | @perform caller op next answer after runs answers =>
      rcases (follows.progress caller).of_running runs with
        ⟨todo, isProgram, settled, given⟩ | ⟨stamped, todo, isProgram, ahead, given⟩
      · cases todo with
        | nil => cases isProgram
        | cons event todo =>
            cases isProgram
            obtain ⟨rfl, rfl⟩ := answers
            exact follows.link given settled
      · cases isProgram
        cases answers
        exact follows.write given ahead
  | @«return» caller program outcome runs ended =>
      rcases (follows.progress caller).of_running runs with
        ⟨todo, isProgram, settled, given⟩ | ⟨stamped, todo, isProgram, ahead, given⟩
      · cases todo with
        | nil => exact follows.ends (by simpa using given) settled
        | cons event todo =>
            cases isProgram
            cases ended
      · cases isProgram
        cases ended
  | drift drifts => exact drifts.elim

/-! ### The order of the lines -/

/-- A write is in turn if its event is the first of the chain that is not written yet. -/
def InTurn (past : List (SinkEntry ι Body)) (entry : SinkEntry ι Body) : Prop :=
  ∀ caller stamped answer, entry.event = .performed caller (.write stamped) answer →
    ((linked past).map Prod.snd)[(written past).length]? = some stamped

theorem snoc_isPrefix_iff {α : Type} {part whole : List α} {last : α} :
    part ++ [last] <+: whole ↔ part <+: whole ∧ whole[part.length]? = some last := by
  constructor
  · rintro ⟨rest, rfl⟩
    exact ⟨⟨[last] ++ rest, by simp⟩, by simp⟩
  · rintro ⟨⟨rest, rfl⟩, next⟩
    cases rest with
    | nil => simp at next
    | cons first rest =>
        obtain rfl : first = last := by simpa using next
        exact ⟨rest, by simp⟩

theorem isPrefix_snoc_iff {α : Type} {part whole : List α} {last : α}
    (shorter : part.length ≤ whole.length) : part <+: whole ++ [last] ↔ part <+: whole := by
  constructor
  · intro isPrefix
    exact List.prefix_of_prefix_length_le isPrefix (List.prefix_append _ _) shorter
  · intro isPrefix
    exact isPrefix.trans (List.prefix_append _ _)

/-- The lines are in the order of the chain exactly if every write was in turn. -/
theorem isPrefix_iff_inTurn {calls : ι → List (AuditEvent Body)} {trace : List (SinkEntry ι Body)}
    {pool : SinkPool ι Body}
    (runs : Pool.Runs (sharedSink format) (freshPool format calls) trace pool) :
    (written trace).map Prod.snd <+: (linked trace).map Prod.snd ↔ EveryStep InTurn trace := by
  refine Pool.Runs.invariant (fun trace _ => (written trace).map Prod.snd <+:
    (linked trace).map Prod.snd ↔ EveryStep InTurn trace) ?_ ?_ runs
  · refine ⟨fun _ past entry rest split => ?_, fun _ => List.nil_prefix⟩
    cases past <;> cases split
  · intro trace pool event next prior ih transition
    have follows := follows_of_runs prior
    have shorter : ((written trace).map Prod.snd).length ≤ ((linked trace).map Prod.snd).length := by
      rw [List.length_map, List.length_map]
      exact length_le_of_own fun caller => (follows.progress caller).isPrefix
    rw [everyStep_snoc, ← ih]
    cases transition with
    | @perform caller op next answer after runs answers =>
        cases op with
        | link event =>
            rw [linked_link, written_link, List.map_append, List.map_singleton,
              isPrefix_snoc_iff shorter]
            exact ⟨fun isPrefix => ⟨isPrefix, nofun⟩, And.left⟩
        | write stamped =>
            rw [linked_write, written_write, List.map_append, List.map_singleton,
              snoc_isPrefix_iff, List.length_map]
            apply and_congr_right
            intro _
            constructor
            · rintro turn other otherStamped otherAnswer ⟨⟩
              exact turn
            · intro turn
              exact turn caller stamped answer rfl
    | @«return» caller program outcome runs ended =>
        rw [linked_return, written_return]
        exact ⟨fun isPrefix => ⟨isPrefix, nofun⟩, And.left⟩
    | drift drifts => exact drifts.elim

/-- What a log should be at any time: the lines are those that were written, in the order
of the chain, the verifier accepts them, and every thread finds its events in the log,
each once and all of them when it is done. -/
structure ChainOrder (format : LogFormat Body) (calls : ι → List (AuditEvent Body))
    (trace : List (SinkEntry ι Body)) (pool : SinkPool ι Body) : Prop where
  lines : ∀ file, pool.shared.file = some file →
    eventLines file = (written trace).map fun entry => format.serialize entry.2
  order : (written trace).map Prod.snd <+: (linked trace).map Prod.snd
  accepted : ∀ file, pool.shared.file = some file → (cmdVerifyChain format (some file)).Accepts
  recorded : ∀ caller,
    (own caller (written trace)).map AuditEvent.body <+: (calls caller).map AuditEvent.body ∧
    ∀ outcome, pool.thread caller = .finished outcome →
      (own caller (written trace)).map AuditEvent.body = (calls caller).map AuditEvent.body

section Lines

variable {calls : ι → List (AuditEvent Body)} {trace : List (SinkEntry ι Body)}
  {pool : SinkPool ι Body}

theorem mem_own {α : Type} {caller : ι} {entries : List (ι × α)} {value : α} :
    value ∈ own caller entries ↔ (caller, value) ∈ entries := by
  simp [own]

/-- What was written was linked before. -/
theorem Follows.stamp (follows : Follows format calls trace pool) {entry : ι × AuditEvent Body}
    (member : entry ∈ written trace) : Stamp entry.2 := by
  have mine : entry.2 ∈ own entry.1 (linked trace) :=
    (follows.progress entry.1).isPrefix.subset (mem_own.mpr member)
  have listed : entry.2 ∈ (linked trace).map Prod.snd :=
    List.mem_map_of_mem (mem_own.mp mine)
  rw [follows.links] at listed
  exact stamp_of_mem_stamped (ChainState.valid_new format) listed

/-- The lines of the file are those that were written. -/
theorem Follows.eventLines_eq (lawful : format.Lawful) (follows : Follows format calls trace pool)
    {file : Bytes} (isFile : pool.shared.file = some file) :
    eventLines file = (written trace).map fun entry => format.serialize entry.2 := by
  have stored := follows.file
  rw [isFile, extended] at stored
  split at stored
  · cases stored
  · cases stored
    rw [Option.getD_none, List.nil_append, ← Function.comp_def format.serialize Prod.snd,
      ← List.map_map]
    apply eventLines_logBytes lawful
    intro event member
    obtain ⟨entry, written, rfl⟩ := List.mem_map.mp member
    exact follows.stamp written

/-- A file of lines in the order of the chain is accepted. -/
theorem Follows.accepts (lawful : format.Lawful) (follows : Follows format calls trace pool)
    (order : (written trace).map Prod.snd <+: (linked trace).map Prod.snd)
    {file : Bytes} (isFile : pool.shared.file = some file) :
    (cmdVerifyChain format (some file)).Accepts := by
  have stored := follows.file
  rw [List.prefix_iff_eq_take, follows.links, ← stamped_take] at order
  rw [isFile, ← Function.comp_def format.serialize Prod.snd, ← List.map_map, order,
    extended] at stored
  split at stored
  · cases stored
  · rename_i nonempty
    cases stored
    have recorded : (requested trace).take ((written trace).map Prod.snd).length ≠ [] := by
      intro silent
      rw [silent] at nonempty
      exact nonempty rfl
    obtain ⟨digits, intact⟩ := cmdVerifyChain_stamped lawful recorded
    rw [Option.getD_none, List.nil_append, intact]
    rfl

/-- Every thread finds its events in the log. -/
theorem Progress.recorded {calls links writes : List (AuditEvent Body)}
    {thread : Thread (SinkOp Body) SinkOp.Ret Empty Unit}
    (progress : Progress calls links writes thread) :
    writes.map AuditEvent.body <+: calls.map AuditEvent.body ∧
      ∀ outcome, thread = .finished outcome →
        writes.map AuditEvent.body = calls.map AuditEvent.body := by
  cases progress with
  | idle given settled =>
      rw [given]
      exact ⟨List.prefix_append _ _, nofun⟩
  | pending given ahead =>
      rw [given]
      exact ⟨List.prefix_append _ _, nofun⟩
  | finished given settled =>
      rw [given]
      exact ⟨List.prefix_rfl, fun _ _ => rfl⟩

end Lines

/-- At every point of every run of any number of threads, the log is in chain order,
accepted and complete exactly if every write so far was in turn. -/
theorem chain_order_iff_in_turn (lawful : format.Lawful) (calls : ι → List (AuditEvent Body))
    (trace : List (SinkEntry ι Body)) (pool : SinkPool ι Body)
    (runs : Pool.Runs (sharedSink format) (freshPool format calls) trace pool) :
    ChainOrder format calls trace pool ↔ EveryStep InTurn trace := by
  have follows := follows_of_runs runs
  constructor
  · intro ordered
    exact (isPrefix_iff_inTurn runs).mp ordered.order
  · intro every
    have order := (isPrefix_iff_inTurn runs).mpr every
    exact ⟨fun _ => follows.eventLines_eq lawful, order, fun _ => follows.accepts lawful order,
      fun caller => (follows.progress caller).recorded⟩

/-! ### Two threads -/

section Runs

variable {calls : ι → List (AuditEvent Body)} {trace : List (SinkEntry ι Body)}
  {pool : SinkPool ι Body}

theorem runs_link (runs : Pool.Runs (sharedSink format) (freshPool format calls) trace pool)
    (caller : ι) {event : AuditEvent Body} {todo : List (AuditEvent Body)}
    (waits : pool.thread caller = .running (recordCalls (event :: todo))) :
    Pool.Runs (sharedSink format) (freshPool format calls)
      (trace ++ [⟨pool.shared,
        .performed caller (.link event) (pool.shared.chain.link format event).1⟩])
      ⟨{ pool.shared with chain := (pool.shared.chain.link format event).2 },
        Function.update pool.thread caller (.running (.perform
          (.write (pool.shared.chain.link format event).1) fun _ => recordCalls todo))⟩ := by
  have answers : (sharedSink format).Answers pool.shared (.link event)
      (pool.shared.chain.link format event).1
      { pool.shared with chain := (pool.shared.chain.link format event).2 } := ⟨rfl, rfl⟩
  exact .step runs (Pool.Step.perform waits answers)

theorem runs_write (runs : Pool.Runs (sharedSink format) (freshPool format calls) trace pool)
    (caller : ι) {stamped : AuditEvent Body} {todo : List (AuditEvent Body)}
    (waits : pool.thread caller =
      .running (.perform (.write stamped) fun _ => recordCalls todo)) :
    Pool.Runs (sharedSink format) (freshPool format calls)
      (trace ++ [⟨pool.shared, .performed caller (.write stamped) ()⟩])
      ⟨{ pool.shared with file := FileAuditSink.record format pool.shared.file stamped },
        Function.update pool.thread caller (.running (recordCalls todo))⟩ := by
  have answers : (sharedSink format).Answers pool.shared (.write stamped) ()
      { pool.shared with file := FileAuditSink.record format pool.shared.file stamped } := rfl
  exact .step runs (Pool.Step.perform waits answers)

theorem runs_return (runs : Pool.Runs (sharedSink format) (freshPool format calls) trace pool)
    (caller : ι) (waits : pool.thread caller = .running (recordCalls [])) :
    Pool.Runs (sharedSink format) (freshPool format calls)
      (trace ++ [⟨pool.shared, .returned caller (.ok ())⟩])
      ⟨pool.shared, Function.update pool.thread caller (.finished (.ok ()))⟩ :=
  .step runs (.return waits rfl)

end Runs

/-- Two threads with one event each. -/
def twoThreads (success : Bool) : List (AuditEvent Bool) := [⟨success, none, none⟩]

/-- Threads that record their events one after the other leave a log in chain order. -/
theorem threads_in_turn :
    ∃ trace pool, Pool.Runs (sharedSink plainFormat) (freshPool plainFormat twoThreads) trace pool ∧
      (∀ caller, pool.thread caller = .finished (.ok ())) ∧
      ChainOrder plainFormat twoThreads trace pool := by
  have first := runs_return (runs_write (runs_link (.refl : Pool.Runs (sharedSink plainFormat)
    (freshPool plainFormat twoThreads) _ _) true rfl) true rfl) true rfl
  have runs := runs_return (runs_write (runs_link first false rfl) false rfl) false rfl
  refine ⟨_, _, runs, ?_, ?_⟩
  · intro caller
    cases caller <;> rfl
  · apply (chain_order_iff_in_turn plainFormat_lawful twoThreads _ _ runs).mpr
    apply (isPrefix_iff_inTurn runs).mp
    exact List.prefix_rfl

/-- The first event of the chain, and the one that follows it. -/
def firstEvent : AuditEvent Bool := ⟨false, some 0, some plainFormat.genesis⟩

@[inherit_doc firstEvent]
def secondEvent : AuditEvent Bool :=
  ⟨true, some 1, some (plainFormat.hash (plainFormat.serialize firstEvent))⟩

theorem firstEvent_readsAs : ReadsAs plainFormat firstEvent :=
  ((ChainState.valid_new plainFormat).stamp ⟨false, none, none⟩).readsAs plainFormat_lawful

theorem secondEvent_readsAs : ReadsAs plainFormat secondEvent :=
  ((ChainState.valid_link (.new plainFormat) ⟨false, none, none⟩).stamp
    ⟨true, none, none⟩).readsAs plainFormat_lawful

/-- The digests are of texts of different lengths. -/
theorem hash_firstEvent_ne_genesis :
    plainFormat.hash (plainFormat.serialize firstEvent) ≠ plainFormat.genesis := by
  intro same
  exact absurd (hexEncode_injective same) (by decide +kernel)

/-- The second event names the first as its predecessor, and not the start. -/
theorem linkOf_secondEvent_ne_genesis :
    linkOf plainFormat (plainFormat.serialize secondEvent) ≠ plainFormat.genesis := by
  intro first
  have names : some (linkOf plainFormat (plainFormat.serialize secondEvent)) =
      some (plainFormat.hash (plainFormat.serialize firstEvent)) := secondEvent_readsAs.link
  rw [first] at names
  exact hash_firstEvent_ne_genesis (Option.some.inj names).symm

/-- The line that comes first names the hash of the other. -/
theorem swapped_not_accepted {file : Bytes} (lines : eventLines file =
    [plainFormat.serialize secondEvent, plainFormat.serialize firstEvent]) :
    ¬ (cmdVerifyChain plainFormat (some file)).Accepts := by
  intro accepts
  have inOrder := linked_of_accepts accepts
  rw [lines, List.filter_cons, if_pos secondEvent_readsAs.chained, HashChain.linked_cons] at inOrder
  exact linkOf_secondEvent_ne_genesis inOrder.1

/-- Two threads that link in one order and write in the other, with all their events. -/
theorem threads_out_of_turn :
    ∃ trace pool file,
      Pool.Runs (sharedSink plainFormat) (freshPool plainFormat twoThreads) trace pool ∧
      (∀ caller, pool.thread caller = .finished (.ok ())) ∧ pool.shared.file = some file ∧
      (eventLines file).map (sequenceOf plainFormat) = [some 1, some 0] ∧
      ¬ (cmdVerifyChain plainFormat (some file)).Accepts := by
  have runs := runs_return (runs_return (runs_write (runs_write (runs_link (runs_link
    (.refl : Pool.Runs (sharedSink plainFormat) (freshPool plainFormat twoThreads) _ _)
    false rfl) true rfl) true rfl) false rfl) true rfl) false rfl
  have lines : eventLines _ =
      [plainFormat.serialize secondEvent, plainFormat.serialize firstEvent] :=
    (follows_of_runs runs).eventLines_eq plainFormat_lawful rfl
  refine ⟨_, _, _, runs, ?_, rfl, ?_, swapped_not_accepted lines⟩
  · intro caller
    cases caller <;> rfl
  · rw [lines, List.map_cons, List.map_singleton, firstEvent_readsAs.sequence,
      secondEvent_readsAs.sequence]
    rfl

end Citadel.Audit
