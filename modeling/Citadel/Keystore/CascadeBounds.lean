import Citadel.Keystore.CascadeSpec

/-!
# A cascade ends

Nothing keeps track of the keys that a cascade has seen. Every key on its stack was suspended
before it was pushed, and only keys in use are suspended, so the keys in use and the keys on the
stack get fewer with each key that is taken from it. That holds for any links between the keys,
and for a backend that fails as it likes: every operation meets an environment of its own.
-/

namespace Citadel

open Program

namespace Keystore

/-- Whether a key can be suspended. -/
def inUse (record : KeyMetadata) : Bool := record.state.canTransitionTo .suspended

/-- How many keys are in use. -/
def keysInUse (keys : Keys) : Nat := keys.entries.countP inUse

/-- What is stored under an identifier is a key in use. -/
def Live (found : Option KeyMetadata) : Prop := ∃ record, found = some record ∧ inUse record = true

/-- Every write takes a key out of use. -/
def TakesOutOfUse (state : World × Turns) : Op → Prop
  | .put record => Live (state.1.keys.find? record.id) ∧ inUse record = false
  | _ => True

section TakesOutOfUse

variable {state : World × Turns} {record : KeyMetadata}

/-- A write leaves the other keys alone. -/
theorem find?_put_of_ne {id : KeyId} (different : id ≠ record.id) :
    (handleTurn (.put record) state).2.1.keys.find? id = state.1.keys.find? id := by
  simp only [handleTurn, handle]
  rw [find?_handlePut_of_ne different]

/-- What the writes do to the key of an identifier. -/
theorem ends_of_takesOutOfUse {op : Op} (takes : TakesOutOfUse state op) (id : KeyId) :
    state.1.keys.find? id = (handleTurn op state).2.1.keys.find? id ∨
      Live (state.1.keys.find? id) ∧ ¬ Live ((handleTurn op state).2.1.keys.find? id) := by
  cases op with
  | put record =>
      obtain ⟨live, retired⟩ := takes
      by_cases own : id = record.id
      · subst own
        have dead : ¬ Live (some record) := by
          rintro ⟨stored, same, used⟩
          rw [← Option.some.inj same, retired] at used
          cases used
        simp only [handleTurn, handle]
        cases (state.2 0).env.putOutcome record.id with
        | refused error => exact .inl rfl
        | stored =>
            refine .inr ⟨live, ?_⟩
            rwa [handlePut, Table.find?_insert_self]
        | storedThenFailed error =>
            refine .inr ⟨live, ?_⟩
            rwa [handlePut, Table.find?_insert_self]
      · left
        exact (find?_put_of_ne own).symm
  | _ => exact .inl rfl

/-- A write that takes a key out of use makes the keys in use fewer, unless it is refused. -/
theorem keysInUse_insert {keys : Keys} (live : Live (keys.find? record.id))
    (retired : inUse record = false) : keysInUse (keys.insert record) + 1 = keysInUse keys := by
  obtain ⟨old, found, used⟩ := live
  have traded := Table.countP_insert_of_find? inUse found
  rw [if_pos used, retired] at traded
  simpa [keysInUse] using traded

/-- A write that succeeds stores its record. -/
theorem keys_of_put (stored : (handleTurn (.put record) state).1 = .ok ()) :
    (handleTurn (.put record) state).2.1.keys = state.1.keys.insert record := by
  simp only [handleTurn, handle] at stored ⊢
  cases outcome : (state.2 0).env.putOutcome record.id with
  | stored => rfl
  | refused error =>
      rw [outcome] at stored
      cases stored
  | storedThenFailed error =>
      rw [outcome] at stored
      cases stored

/-- A key that is pushed was in use before. -/
theorem bounded_put (cascade : Cascade) (takes : TakesOutOfUse state (.put record)) :
    keysInUse (handleTurn (.put record) state).2.1.keys +
        (afterWrite record.id cascade (handleTurn (.put record) state).1).stack.length ≤
      keysInUse state.1.keys + cascade.stack.length := by
  have fewer := keysInUse_insert takes.1 takes.2
  simp only [handleTurn, handle]
  cases (state.2 0).env.putOutcome record.id with
  | stored =>
      simp only [handlePut, afterWrite, List.length_cons]
      omega
  | refused error => exact Nat.le_refl _
  | storedThenFailed error =>
      simp only [handlePut, afterWrite]
      omega

end TakesOutOfUse

section Loops

variable {state : World × Turns} {cascade : Cascade}

/-- A loop returns, and at most this many keys are in use or on the stack. -/
def AtMost (bound : Nat) (later : World × Turns) (outcome : Outcome CallError Cascade) : Prop :=
  ∃ next, outcome = .ok next ∧ keysInUse later.1.keys + next.stack.length ≤ bound

theorem AtMost.mono {bound larger : Nat} {later : World × Turns}
    {outcome : Outcome CallError Cascade} (most : AtMost bound later outcome)
    (le : bound ≤ larger) : AtMost larger later outcome := by
  obtain ⟨next, returned, fewer⟩ := most
  exact ⟨next, returned, Nat.le_trans fewer le⟩

/-- The inner loop pushes no more keys than it suspends. -/
theorem suspendChildren_bounded {children : List KeyMetadata}
    (distinct : (children.map KeyMetadata.id).Nodup)
    (stored : ∀ child ∈ children, state.1.keys.find? child.id = some child) :
    (suspendChildren children cascade).Meets (alone handleTurn TakesOutOfUse) state
      (AtMost (keysInUse state.1.keys + cascade.stack.length)) := by
  induction children generalizing state cascade with
  | nil => exact ⟨cascade, rfl, Nat.le_refl _⟩
  | cons child rest ih =>
      rw [List.map_cons, List.nodup_cons] at distinct
      have found := stored child List.mem_cons_self
      have others : ∀ other ∈ rest, state.1.keys.find? other.id = some other :=
        fun other member => stored other (List.mem_cons_of_mem _ member)
      unfold suspendChildren
      by_cases terminal : alreadyTerminal child.state = true
      · rw [if_pos terminal]
        exact ih distinct.2 others
      · rw [if_neg terminal]
        by_cases cannot : child.state.canTransitionTo .suspended = false
        · rw [if_pos cannot]
          exact ih distinct.2 others
        · rw [if_neg cannot]
          have used : inUse child = true := by
            rw [inUse]
            simpa using cannot
          have live : Live (state.1.keys.find? child.id) := ⟨child, found, used⟩
          refine Meets.performAlone trivial (Meets.performAlone ⟨live, rfl⟩ ?_)
          have takes : TakesOutOfUse (handleTurn .utcNow state).2
              (.put (suspendedRecord child (handleTurn .utcNow state).1)) := ⟨live, rfl⟩
          have written := bounded_put cascade takes
          have kept : ∀ other ∈ rest, (handleTurn (.put (suspendedRecord child
              (handleTurn .utcNow state).1)) (handleTurn .utcNow state).2).2.1.keys.find? other.id =
                some other := by
            intro other member
            rw [find?_put_of_ne]
            · exact others other member
            · intro same
              exact distinct.1 (same ▸ List.mem_map_of_mem member)
          generalize handleTurn (.put (suspendedRecord child (handleTurn .utcNow state).1))
            (handleTurn .utcNow state).2 = ended at written kept ⊢
          obtain ⟨answer, later⟩ := ended
          -- what the answer adds to the stack it has taken out of use
          cases answer with
          | ok done => exact (ih distinct.2 kept).mono fun _ _ most => most.mono written
          | error error => exact (ih distinct.2 kept).mono fun _ _ most => most.mono written

/-- The outer loop ends when its fuel is for the keys in use and the keys on the stack. -/
theorem cascadeLoop_bounded {fuel : Nat}
    (enough : keysInUse state.1.keys + cascade.stack.length ≤ fuel) :
    (cascadeLoop fuel cascade).Meets (alone handleTurn TakesOutOfUse) state
      fun _ outcome => ∀ why, outcome ≠ .aborted why := by
  induction fuel generalizing state cascade with
  | zero =>
      unfold cascadeLoop
      cases stack : cascade.stack with
      | nil =>
          intro why same
          cases same
      | cons top rest =>
          rw [stack, List.length_cons] at enough
          omega
  | succ fuel ih =>
      unfold cascadeLoop
      cases stack : cascade.stack with
      | nil =>
          intro why same
          cases same
      | cons parentId rest =>
          refine Meets.callAlone trivial ?_
          cases answer : (handleTurn (.listByParent parentId) state).1 with
          | error error =>
              intro why same
              cases same
          | ok children =>
              obtain ⟨distinct, members⟩ := listing_spec answer
              have inner : (suspendChildren children { cascade with stack := rest }).Meets
                  (alone handleTurn TakesOutOfUse) (handleTurn (.listByParent parentId) state).2
                  (AtMost (keysInUse state.1.keys + rest.length)) :=
                suspendChildren_bounded distinct fun child member => ((members child).mp member).1
              rw [Program.ofExcept, ret_bind]
              refine Meets.bind (inner.mono ?_)
              rintro later outcome ⟨next, rfl, fewer⟩
              apply ih
              rw [stack, List.length_cons] at enough
              omega

end Loops

section Call

variable {state : World × Turns} {cascade : Cascade} {id : KeyId}

/-- A revocation takes the key out of use, or returns an error. -/
theorem revoke_bounded :
    ((revoke id).mapErr cascadeError).Meets (alone handleTurn TakesOutOfUse) state
      fun later outcome => (∃ error, outcome = .err error) ∨
        outcome = .ok () ∧ keysInUse later.1.keys + 1 = keysInUse state.1.keys := by
  refine Meets.mapErr (Meets.mapErr ?_)
  unfold get
  refine Meets.bind (Meets.callAlone trivial ?_)
  cases answer : (handleTurn (.get id) state).1 with
  | error error => exact .inl ⟨_, rfl⟩
  | ok found =>
      cases found with
      | none => exact .inl ⟨_, rfl⟩
      | some record =>
          have present : state.1.keys.find? id = some record := (eq_of_faulty_eq_ok answer).symm
          have own : record.id = id := Table.key_of_find? present
          change Meets _ _ (if record.state ≠ .active then _ else _) _
          by_cases active : record.state = .active
          · have used : inUse record = true := by
              rw [inUse, active]
              rfl
            have live : Live (state.1.keys.find? record.id) := ⟨record, own ▸ present, used⟩
            rw [if_neg (not_not.mpr active)]
            apply Meets.performAlone trivial
            apply Meets.performAlone trivial
            refine Meets.performAlone ⟨live, rfl⟩ ?_
            cases stored : (handleTurn (.put (revokedRecord record _ _)) _).1 with
            | error error => exact .inl ⟨_, rfl⟩
            | ok done =>
                refine .inr ⟨rfl, ?_⟩
                rw [keys_of_put stored]
                exact keysInUse_insert live rfl
          · rw [if_pos active]
            exact .inl ⟨_, rfl⟩

/-- The whole call ends when its fuel is for the keys in use. -/
theorem revokeCascade_bounded {fuel : Nat} (enough : keysInUse state.1.keys ≤ fuel) :
    (revokeCascade fuel id).Meets (alone handleTurn TakesOutOfUse) state
      fun _ outcome => ∀ why, outcome ≠ .aborted why := by
  refine Meets.bind (revoke_bounded.mono ?_)
  rintro later outcome (⟨error, rfl⟩ | ⟨rfl, fewer⟩)
  · intro why same
    cases same
  · have room : keysInUse later.1.keys + [id].length ≤ fuel := by
      rw [List.length_singleton]
      omega
    have loop : (cascadeLoop fuel ⟨0, [], [id]⟩).Meets (alone handleTurn TakesOutOfUse) later
        fun _ outcome => ∀ why, outcome ≠ .aborted why := cascadeLoop_bounded room
    refine Meets.bind (loop.mono ?_)
    intro final outcome ended
    cases outcome with
    | ok cascade =>
        intro why same
        cases same
    | err error =>
        intro why same
        cases same
    | aborted why => exact absurd rfl (ended why)

end Call

section Fuel

variable {σ : Type} {handler : (op : Op) → σ → op.Ret × σ} {fuel more : Nat} {state : σ}

/-- A loop that has ended makes no use of more fuel. -/
theorem cascadeLoop_run_eq {cascade : Cascade}
    (ended : Ends handler (cascadeLoop fuel cascade) state) (le : fuel ≤ more) :
    (cascadeLoop more cascade).run handler state =
      (cascadeLoop fuel cascade).run handler state := by
  induction fuel generalizing more cascade state with
  | zero =>
      unfold Ends cascadeLoop at ended
      cases stack : cascade.stack with
      | nil => cases more <;> simp only [cascadeLoop, stack]
      | cons top rest =>
          simp only [stack] at ended
          exact absurd rfl (ended .outOfFuel)
  | succ fuel ih =>
      obtain ⟨more, rfl⟩ : ∃ left, more = left + 1 := ⟨more - 1, by omega⟩
      unfold Ends at ended
      unfold cascadeLoop at ended ⊢
      cases stack : cascade.stack with
      | nil => rfl
      | cons parentId rest =>
          simp only [stack, call_bind, run_perform] at ended ⊢
          cases answered : handler (.listByParent parentId) state with
          | mk answer middle =>
              rw [answered] at ended
              cases answer with
              | error error => rfl
              | ok children =>
                  simp only [Program.ofExcept, ret_bind, run_bind] at ended ⊢
                  cases ran : (suspendChildren children { cascade with stack := rest }).run handler
                      middle with
                  | mk outcome later =>
                      rw [ran] at ended
                      cases outcome with
                      | ok next => exact ih ended (by omega)
                      | err error => rfl
                      | aborted why => rfl

/-- A cascade that has ended makes no use of more fuel. -/
theorem revokeCascade_run_eq {id : KeyId} (ended : Ends handler (revokeCascade fuel id) state)
    (le : fuel ≤ more) :
    (revokeCascade more id).run handler state = (revokeCascade fuel id).run handler state := by
  obtain ⟨-, continued⟩ := ends_bind.mp ended
  unfold revokeCascade
  rw [run_bind, run_bind]
  cases ran : ((revoke id).mapErr cascadeError).run handler state with
  | mk outcome middle =>
      cases outcome with
      | err error => rfl
      | aborted why => rfl
      | ok done =>
          obtain ⟨looped, -⟩ := ends_bind.mp (continued done middle ran)
          rw [andThen_ok, andThen_ok, run_bind, run_bind, cascadeLoop_run_eq looped le]

end Fuel

/-- With enough fuel a call ends with a value or an error, the same whatever fuel is left, and no
key is changed more than once. -/
def EndsChangingOnce {ε α : Type} (call : Nat → Prog ε α) (start : World × Turns) : Prop :=
  ∃ enough result, ∀ fuel, enough ≤ fuel →
    (call fuel).run handleTurn start = result ∧ (∀ why, result.1 ≠ .aborted why) ∧
      ∀ id, (call fuel).changes handleTurn (fun state => state.1.keys.find? id) start ≤ 1

/-- A call that takes keys out of use, and ends as soon as it has enough fuel. -/
theorem endsChangingOnce_of_meets {ε α : Type} {call : Nat → Prog ε α} {start : World × Turns}
    {enough : Nat}
    (meets : ∀ fuel, enough ≤ fuel → (call fuel).Meets (alone handleTurn TakesOutOfUse) start
      fun _ outcome => ∀ why, outcome ≠ .aborted why)
    (stable : ∀ fuel, enough ≤ fuel → Ends handleTurn (call enough) start →
      (call fuel).run handleTurn start = (call enough).run handleTurn start) :
    EndsChangingOnce call start := by
  have ended : Ends handleTurn (call enough) start := (meets enough (Nat.le_refl _)).runAlone
  refine ⟨enough, (call enough).run handleTurn start, ?_⟩
  intro fuel le
  refine ⟨stable fuel le ended, ended, ?_⟩
  intro id
  have ends : ∀ before after, (before, after) ∈ (call fuel).transitions handleTurn start →
      before.1.keys.find? id = after.1.keys.find? id ∨
        Live (before.1.keys.find? id) ∧ ¬ Live (after.1.keys.find? id) := by
    intro before after member
    obtain ⟨-, op, takes, rfl⟩ := (meets fuel le).transitionsAlone (fun _ => True)
      (fun _ _ _ _ => trivial) trivial member
    exact ends_of_takesOutOfUse takes id
  exact (changes_le_one ends).1

/-- For every content of the store and every pattern of failures, the work loop from any stack
and the whole cascade end, and change no key more than once. -/
theorem cascade_ends_changing_once (world : World) (turns : Turns) :
    (∀ cascade, EndsChangingOnce (fun fuel => cascadeLoop fuel cascade) (world, turns)) ∧
      ∀ id, EndsChangingOnce (fun fuel => revokeCascade fuel id) (world, turns) := by
  constructor
  · intro cascade
    apply endsChangingOnce_of_meets
    · intro fuel enough
      exact cascadeLoop_bounded enough
    · intro fuel le ended
      exact cascadeLoop_run_eq ended le
  · intro id
    apply endsChangingOnce_of_meets
    · intro fuel enough
      exact revokeCascade_bounded enough
    · intro fuel le ended
      exact revokeCascade_run_eq ended le

end Keystore

end Citadel
