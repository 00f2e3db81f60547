import Citadel.Keystore.Session
import Citadel.Keystore.Success

/-!
# Callers that share a key

Any number of callers run operations on one key at once, their storage calls in any
order. `Callers.invariant` is the rule for what holds in every such run: the state of
the argument is what each caller has read and written, together with the stored keys,
and a write replaces the stored record by an update of the record that its caller
once read. `PutFinds` is the form of condition under which the operations are right:
how the record that a write finds compares with the one that its caller read.
-/

namespace Citadel

open Envelope Program Keystore

/-- Callers of the keystore and the world they share. -/
abbrev KeyPool (ι : Type) := Pool ι World Op Op.Ret CallError CallValue

/-- What happened so far, operation by operation. -/
abbrev KeyTrace (ι : Type) := List (Entry World ι Op Op.Ret CallError CallValue)

variable {ι : Type} [DecidableEq ι] {ks : Keystore} {id : KeyId} {calls : ι → Call}
  {admits : Env → Prop} {start pool : KeyPool ι} {trace : KeyTrace ι}

/-- The session of one caller with a key. -/
def sessionOf (id : KeyId) (caller : ι) (trace : KeyTrace ι) : Session :=
  (session id fun _ _ => True).ghostOf .fresh caller trace

/-- Every write finds a record that compares with the one its caller read as `finds`
says. -/
def PutFinds (id : KeyId) (finds : KeyMetadata → KeyMetadata → Prop) (past : KeyTrace ι)
    (entry : Entry World ι Op Op.Ret CallError CallValue) : Prop :=
  ∀ caller record answer read stored, entry.event = .performed caller (.put record) answer →
    (sessionOf id caller past).read = some read → entry.before.keys.find? id = some stored →
    finds read stored

/-- All callers work on one key, and none has begun. -/
structure Callers (ks : Keystore) (id : KeyId) (calls : ι → Call) (start : KeyPool ι) : Prop where
  onKey : ∀ caller, (calls caller).OnKey id
  waiting : ∀ caller, ∃ fuel, start.thread caller = .running ((calls caller).prog ks fuel)

omit [DecidableEq ι] in
/-- Every caller keeps to its session from the start. -/
theorem Callers.initially (callers : Callers ks id calls start) (caller : ι) :
    Pool.ThreadMeets (session id (Updates ks (calls caller))) .fresh ((calls caller).Answered ks)
      (start.thread caller) := by
  obtain ⟨fuel, begun⟩ := callers.waiting caller
  rw [begun]
  exact Call.session_meets ks (callers.onKey caller) fuel

/-- What a caller knows once it has its outcome. -/
theorem Callers.answered (callers : Callers ks id calls start)
    (runs : Pool.Runs (sharedWorld admits) start trace pool) {caller : ι}
    {outcome : Outcome CallError CallValue} (returned : Returned trace caller outcome) :
    (calls caller).Answered ks (sessionOf id caller trace) outcome := by
  have meets := Pool.Runs.meets honours_session callers.initially runs caller
  rw [runs.finished_of_returned returned] at meets
  exact meets

/-- The sessions of all callers. -/
abbrev sessions (id : KeyId) (trace : KeyTrace ι) : ι → Session :=
  fun caller => sessionOf id caller trace

/-- Only the session of the caller of an operation moves. -/
theorem sessions_performed {before : World} {caller : ι} {op : Op} {answer : op.Ret} :
    sessions id (trace ++ [⟨before, .performed caller op answer⟩]) =
      Function.update (sessions id trace) caller ((sessionOf id caller trace).see id op answer) := by
  funext other
  by_cases same : other = caller
  · subst same
    rw [Function.update_self]
    exact Contract.ghostOf_performed_self
  · rw [Function.update_of_ne same]
    exact Contract.ghostOf_performed_other (Ne.symm same)

theorem sessions_returned {before : World} {caller : ι} {outcome : Outcome CallError CallValue} :
    sessions id (trace ++ [⟨before, .returned caller outcome⟩]) = sessions id trace := by
  funext other
  exact Contract.ghostOf_returned

theorem sessions_drifted {before : World} :
    sessions id (trace ++ [⟨before, .drifted⟩]) = sessions id trace := by
  funext other
  exact Contract.ghostOf_drifted

/-- How one operation moves the session of its caller and the stored keys. -/
inductive Moves (admits : Env → Prop) (id : KeyId) (state : Session) (keys : Keys) :
    Op → Session → Keys → Prop where
  | idle {op : Op} : Moves admits id state keys op state keys
  | read {record : KeyMetadata} (first : state.read = none) (found : keys.find? id = some record) :
      Moves admits id state keys (.get id) { state with read := some record } keys
  | stored {record : KeyMetadata} :
      Moves admits id state keys (.put record) { state with wrote := true } (keys.insert record)
  | storedThenFailed {record : KeyMetadata} (torn : ∃ env, admits env ∧ ¬ env.AtomicPut) :
      Moves admits id state keys (.put record) state (keys.insert record)

theorem moves_of_answers {state : Session} {world after : World} {op : Op} {answer : op.Ret}
    (answers : (sharedWorld admits).Answers world op answer after) :
    Moves admits id state world.keys op (state.see id op answer) after.keys := by
  obtain ⟨env, admitted, answered⟩ := answers
  cases op with
  | get other =>
      obtain ⟨given, rfl⟩ := Prod.mk.inj answered
      match answer with
      | .error error => exact .idle
      | .ok none => exact .idle
      | .ok (some record) =>
          simp only [Session.see]
          split
          · rename_i first
            obtain ⟨rfl, unread⟩ := first
            exact .read unread (eq_of_faulty_eq_ok given).symm
          · exact .idle
  | put record =>
      simp only [handle] at answered
      cases outcome : env.putOutcome record.id with
      | stored =>
          rw [outcome] at answered
          cases answered
          exact .stored
      | refused error =>
          rw [outcome] at answered
          cases answered
          exact .idle
      | storedThenFailed error =>
          rw [outcome] at answered
          cases answered
          refine .storedThenFailed ⟨env, admitted, fun atomic => ?_⟩
          rcases atomic record.id with stored | ⟨other, refused⟩
          · rw [outcome] at stored
            cases stored
          · rw [outcome] at refused
            cases refused
  | claim key =>
      cases answered
      exact .idle
  | release key =>
      cases answered
      exact .idle
  | _ =>
      cases answered
      exact .idle

/-- Whoever has read the key read a record of it, and the key is still stored; whoever
has not has written nothing. -/
structure Grounded (id : KeyId) (sessions : ι → Session) (keys : Keys) : Prop where
  present : ∀ caller read, (sessions caller).read = some read →
    read.id = id ∧ ∃ stored, keys.find? id = some stored
  unread : ∀ caller, (sessions caller).read = none → (sessions caller).wrote = false

omit [DecidableEq ι] in
theorem Grounded.insert {sessions : ι → Session} {keys : Keys} {record : KeyMetadata}
    (grounded : Grounded id sessions keys) : Grounded id sessions (keys.insert record) := by
  refine ⟨?_, grounded.unread⟩
  intro caller read hasRead
  obtain ⟨own, stored, found⟩ := grounded.present caller read hasRead
  refine ⟨own, ?_⟩
  rw [Table.find?_insert]
  split
  · exact ⟨record, rfl⟩
  · exact ⟨stored, found⟩

/-- A caller reads the key, or writes after it has. -/
theorem Grounded.update {sessions : ι → Session} {keys : Keys} {caller : ι} {read : KeyMetadata}
    (grounded : Grounded id sessions keys) (own : read.id = id)
    (present : ∃ stored, keys.find? id = some stored) (wrote : Bool) :
    Grounded id (Function.update sessions caller ⟨some read, wrote⟩) keys := by
  constructor
  · intro other record hasRead
    by_cases same : other = caller
    · subst same
      rw [Function.update_self] at hasRead
      cases hasRead
      exact ⟨own, present⟩
    · rw [Function.update_of_ne same] at hasRead
      exact grounded.present other record hasRead
  · intro other unread
    by_cases same : other = caller
    · subst same
      rw [Function.update_self] at unread
      cases unread
    · rw [Function.update_of_ne same] at unread ⊢
      exact grounded.unread other unread

/-- The rule for callers that share a key. -/
theorem Callers.invariant (callers : Callers ks id calls start)
    {finds : KeyMetadata → KeyMetadata → Prop} (holds : (ι → Session) → Keys → Prop)
    (initially : holds (fun _ => .fresh) start.shared.keys)
    (reads : ∀ sessions keys caller record, holds sessions keys → sessions caller = .fresh →
      keys.find? id = some record →
      holds (Function.update sessions caller ⟨some record, false⟩) keys)
    (writes : ∀ sessions keys caller read record stored wrote, holds sessions keys →
      sessions caller = ⟨some read, false⟩ → Updates ks (calls caller) read record →
      record.id = id → keys.find? id = some stored → finds read stored →
      (wrote = true ∨ ∃ env, admits env ∧ ¬ env.AtomicPut) →
      holds (Function.update sessions caller ⟨some read, wrote⟩) (keys.insert record))
    (runs : Pool.Runs (sharedWorld admits) start trace pool)
    (every : EveryStep (PutFinds id finds) trace) : holds (sessions id trace) pool.shared.keys := by
  refine ((Pool.Runs.rely (fun trace (world : World) =>
    EveryStep (PutFinds id finds) trace →
      holds (sessions id trace) world.keys ∧ Grounded id (sessions id trace) world.keys)
    (fun _ _ _ _ _ _ _ _ => honours_session _ _ _ _ _ _) callers.initially ?_ ?_ ?_ ?_ runs).1
      every).1
  · intro _
    refine ⟨initially, ?_, fun _ _ => rfl⟩
    intro caller read hasRead
    cases hasRead
  · intro past world caller op answer after held allowed answers every
    obtain ⟨every, here⟩ := everyStep_snoc.mp every
    obtain ⟨held, grounded⟩ := held every
    rw [sessions_performed]
    have moves : Moves admits id (sessionOf id caller past) world.keys op
        ((sessionOf id caller past).see id op answer) after.keys := moves_of_answers answers
    have self : sessionOf id caller past = sessions id past caller := rfl
    have write : ∀ record wrote,
        Session.Allows (Updates ks (calls caller)) (sessionOf id caller past) (.put record) →
        (∀ read stored, (sessionOf id caller past).read = some read →
          world.keys.find? id = some stored → finds read stored) →
        (wrote = true ∨ ∃ env, admits env ∧ ¬ env.AtomicPut) →
        holds (Function.update (sessions id past) caller
            { sessionOf id caller past with wrote := wrote }) (world.keys.insert record) ∧
          Grounded id (Function.update (sessions id past) caller
            { sessionOf id caller past with wrote := wrote }) (world.keys.insert record) := by
      rintro record wrote ⟨unwritten, read, hasRead, updates⟩ compares kind
      obtain ⟨own, stored, found⟩ := grounded.present caller read hasRead
      have state : sessions id past caller = ⟨some read, false⟩ := by
        rw [← hasRead, ← unwritten]
      have next : ({ sessionOf id caller past with wrote := wrote } : Session) =
          ⟨some read, wrote⟩ := by rw [← hasRead]
      rw [next]
      exact ⟨writes _ _ caller read record stored wrote held state updates
        (updates.id.trans own) found (compares read stored hasRead found) kind,
        (grounded.update own ⟨stored, found⟩ wrote).insert⟩
    generalize (sessionOf id caller past).see id op answer = next at moves ⊢
    generalize after.keys = keys at moves ⊢
    cases moves with
    | idle =>
        rw [self, Function.update_eq_self]
        exact ⟨held, grounded⟩
    | @read record first found =>
        have unwritten : (sessionOf id caller past).wrote = false := grounded.unread caller first
        have state : sessions id past caller = .fresh := by
          rw [Session.fresh, ← first, ← unwritten]
        rw [unwritten]
        exact ⟨reads _ _ caller record held state found,
          grounded.update (Table.key_of_find? found) ⟨record, found⟩ _⟩
    | @stored record =>
        exact write _ _ allowed (fun _ _ => here _ _ _ _ _ rfl) (Or.inl rfl)
    | @storedThenFailed record torn =>
        have unwritten : sessionOf id caller past =
            { sessionOf id caller past with wrote := false } := by
          rw [← show (sessionOf id caller past).wrote = false from allowed.1]
        rw [unwritten]
        exact write _ _ allowed (fun _ _ => here _ _ _ _ _ rfl) (Or.inr torn)
  · intro past world caller outcome held _ every
    rw [sessions_returned]
    exact held (everyStep_snoc.mp every).1
  · rintro past world after held ⟨later, -, rfl⟩ every
    rw [sessions_drifted]
    exact held (everyStep_snoc.mp every).1

/-- A caller that works on the key alone reads `record`, which stays until it writes. -/
structure HasAlone (id : KeyId) (record : KeyMetadata) (state : Session) (keys : Keys) : Prop where
  stays : state.wrote = false → keys.find? id = some record
  seen : ∀ read, state.read = some read → read = record
  unread : state.read = none → state.wrote = false

/-- An operation of a caller that works alone. -/
theorem HasAlone.moves {record : KeyMetadata} {state next : Session} {keys after : Keys} {op : Op}
    (atomic : ∀ env, admits env → env.AtomicPut)
    (alone : HasAlone id record state keys) (moves : Moves admits id state keys op next after)
    (allowed : ∀ written, op = .put written → state.read ≠ none) :
    HasAlone id record next after := by
  cases moves with
  | idle => exact alone
  | @read current first found =>
      have unwritten := alone.unread first
      refine ⟨alone.stays, ?_, fun _ => unwritten⟩
      rintro read ⟨⟩
      exact Option.some.inj (found.symm.trans (alone.stays unwritten))
  | @stored written => exact ⟨nofun, alone.seen, fun unread => absurd unread (allowed written rfl)⟩
  | storedThenFailed torn =>
      obtain ⟨env, admitted, fails⟩ := torn
      exact absurd (atomic env admitted) fails

/-- A caller that begins while nobody else acts finds what it read. -/
theorem Callers.alone (callers : Callers ks id calls start)
    (atomic : ∀ env, admits env → env.AtomicPut)
    (runs : Pool.Runs (sharedWorld admits) start trace pool) {caller : ι}
    (unseen : ∀ entry ∈ trace, entry.event.caller? ≠ some caller) {record : KeyMetadata}
    (found : pool.shared.keys.find? id = some record)
    {finds : KeyMetadata → KeyMetadata → Prop} (same : finds record record)
    (every : EveryStep (PutFinds id finds) trace) {more : KeyTrace ι} {last : KeyPool ι}
    (rest : Pool.Runs (sharedWorld admits) pool more last)
    (own : ∀ entry ∈ more, entry.event.caller? = some caller) :
    EveryStep (PutFinds id finds) (trace ++ more) ∧
      HasAlone id record (sessionOf id caller (trace ++ more)) last.shared.keys := by
  refine Pool.Runs.invariant (fun more (last : KeyPool ι) =>
    (∀ entry ∈ more, entry.event.caller? = some caller) →
      EveryStep (PutFinds id finds) (trace ++ more) ∧
        HasAlone id record (sessionOf id caller (trace ++ more)) last.shared.keys) ?_ ?_ rest own
  · intro _
    have fresh : sessionOf id caller ([] ++ trace) = .fresh := Contract.ghostOf_of_others unseen
    rw [List.nil_append] at fresh
    rw [List.append_nil, fresh]
    exact ⟨every, fun _ => found, nofun, fun _ => rfl⟩
  · intro done current event next prior held transition own
    obtain ⟨all, alone⟩ := held fun entry member => own entry (List.mem_append_left _ member)
    have mine : event.caller? = some caller := own _ (List.mem_append_right _ (.head _))
    have meets := Pool.Runs.meets honours_session callers.initially (runs.trans prior) caller
    rw [← List.append_assoc, everyStep_snoc]
    cases transition with
    | @perform actor op following answer after running answers =>
        obtain rfl : actor = caller := Option.some.inj mine
        rw [running] at meets
        have allowed : Session.Allows (Updates ks (calls actor))
            (sessionOf id actor (trace ++ done)) op := meets.1
        refine ⟨⟨all, ?_⟩, ?_⟩
        · rintro _ written _ read stored ⟨⟩ hasRead present
          obtain rfl := alone.seen read hasRead
          obtain rfl := Option.some.inj ((alone.stays allowed.1).symm.trans present)
          exact same
        · have performed : sessionOf id actor (trace ++ done ++
              [⟨current.shared, .performed actor op answer⟩]) =
                (sessionOf id actor (trace ++ done)).see id op answer :=
            Contract.ghostOf_performed_self
          rw [performed]
          refine alone.moves atomic (moves_of_answers answers) ?_
          intro written isPut
          rw [isPut] at allowed
          obtain ⟨-, read, hasRead, -⟩ := allowed
          simp [hasRead]
    | @«return» actor program outcome running stops =>
        refine ⟨⟨all, ?_⟩, ?_⟩
        · intro _ _ _ _ _ isPut
          cases isPut
        · have same : sessionOf id caller (trace ++ done ++
              [⟨current.shared, .returned actor outcome⟩]) = sessionOf id caller (trace ++ done) :=
            Contract.ghostOf_returned
          rw [same]
          exact alone
    | drift drifts => cases mine

/-- Callers that are about to run their calls. -/
def waitingPool (ks : Keystore) (world : World) (calls : ι → Call) : KeyPool ι :=
  ⟨world, fun caller => .running ((calls caller).prog ks 0)⟩

omit [DecidableEq ι] in
theorem callers_waitingPool (world : World) (onKey : ∀ caller, (calls caller).OnKey id) :
    Callers ks id calls (waitingPool ks world calls) :=
  ⟨onKey, fun _ => ⟨0, rfl⟩⟩

/-- A caller reads its key and is held up. -/
theorem runs_read {env : Env} (caller : ι) {program : Prog CallError CallValue}
    {record : KeyMetadata}
    {next : Except KeystoreError (Option KeyMetadata) → Prog CallError CallValue}
    (admitted : admits env) (answers : env.getFault id = none)
    (runs : Pool.Runs (sharedWorld admits) start trace pool)
    (waiting : pool.thread caller = .running program) (shape : program = .perform (.get id) next)
    (found : pool.shared.keys.find? id = some record) :
    ∃ more, Pool.Runs (sharedWorld admits) start (trace ++ more)
      ⟨pool.shared, Function.update pool.thread caller (.running (next (.ok (some record))))⟩ := by
  subst shape
  have answered : handle env (.get id) pool.shared = (.ok (some record), pool.shared) := by
    simp only [handle, answers, found, faulty]
  have answers : (sharedWorld admits).Answers pool.shared (.get id) (.ok (some record))
      pool.shared := ⟨env, admitted, answered⟩
  exact ⟨_, runs.step (.perform waiting answers)⟩

/-- A caller runs to its end while the others wait. -/
theorem runs_finish {env : Env} (caller : ι) {program : Prog CallError CallValue}
    {outcome : Outcome CallError CallValue} {after : World} (admitted : admits env)
    (runs : Pool.Runs (sharedWorld admits) start trace pool)
    (waiting : pool.thread caller = .running program)
    (ran : program.run (handle env) pool.shared = (outcome, after)) :
    ∃ more, Pool.Runs (sharedWorld admits) start (trace ++ more)
        ⟨after, Function.update pool.thread caller (.finished outcome)⟩ ∧
      Returned (trace ++ more) caller outcome := by
  have answers : ∀ op state, (sharedWorld admits).Answers state op (handle env op state).1
      (handle env op state).2 := fun op state => ⟨env, admitted, rfl⟩
  obtain ⟨more, finished, returned, -⟩ := Pool.Runs.finish answers runs waiting
  rw [ran] at finished returned
  exact ⟨more, finished, returned⟩

/-- A caller that has not acted yet takes its turn: it runs to its end while the others wait, and
finds what it read. -/
theorem Callers.finish_turn {env : Env} (callers : Callers ks id calls start)
    (atomic : ∀ env, admits env → env.AtomicPut) (caller : ι) {program : Prog CallError CallValue}
    {outcome : Outcome CallError CallValue} {after : World} {record : KeyMetadata}
    {finds : KeyMetadata → KeyMetadata → Prop} (admitted : admits env)
    (runs : Pool.Runs (sharedWorld admits) start trace pool)
    (unseen : ∀ entry ∈ trace, entry.event.caller? ≠ some caller)
    (every : EveryStep (PutFinds id finds) trace)
    (waiting : pool.thread caller = .running program)
    (found : pool.shared.keys.find? id = some record) (same : finds record record)
    (ran : program.run (handle env) pool.shared = (outcome, after)) :
    ∃ more, Pool.Runs (sharedWorld admits) start (trace ++ more)
        ⟨after, Function.update pool.thread caller (.finished outcome)⟩ ∧
      Returned (trace ++ more) caller outcome ∧
      EveryStep (PutFinds id finds) (trace ++ more) ∧
      ∀ entry ∈ more, entry.event.caller? = some caller := by
  have answers : ∀ op state, (sharedWorld admits).Answers state op (handle env op state).1
      (handle env op state).2 := fun op state => ⟨env, admitted, rfl⟩
  obtain ⟨more, finished, returned, own⟩ :=
    Pool.Runs.finish answers (.refl : Pool.Runs (sharedWorld admits) pool [] pool) waiting
  rw [ran] at finished returned
  obtain ⟨before, member⟩ := returned
  exact ⟨more, runs.trans finished, ⟨before, List.mem_append_right _ member⟩,
    (callers.alone atomic runs unseen found same every finished own).1, own⟩

end Citadel
