import Citadel.Keystore.Evolution

/-!
# What a cascade reaches

The cascade walks down the keys that it suspends. `Visited` is the set of keys it
looks at, as a property of the keys it started from and of which writes succeed;
`Progress` is the invariant of its two loops. When the stack is empty exactly the
visited keys have been dealt with, and the loop never uses up its fuel.
-/

namespace Citadel

open Program

namespace Keystore

variable {env : Env} {keys : Keys} {root : KeyId}

/-- The key is a child of another. -/
def Child (keys : Keys) (id parentId : KeyId) : Prop :=
  ∃ record, keys.find? id = some record ∧ record.parentId = some parentId

/-- The key is in a state from which it can be suspended. -/
def Suspendable (keys : Keys) (id : KeyId) : Prop :=
  ∃ record, keys.find? id = some record ∧ record.state.canTransitionTo .suspended = true

theorem canTransitionTo_suspended_iff {state : KeyState} :
    state.canTransitionTo .suspended = true ↔ state = .active ∨ state = .rotated := by
  cases state <;> decide

/-- The keys a cascade from `root` looks at: the children of the root, and the children
of every key on the way that it suspends. -/
inductive Visited (keys : Keys) (env : Env) (root : KeyId) : KeyId → Prop where
  | child {id : KeyId} (child : Child keys id root) : Visited keys env root id
  | under {id parentId : KeyId} (parent : Visited keys env root parentId)
      (suspendable : Suspendable keys parentId) (stored : env.putOutcome parentId = .stored)
      (child : Child keys id parentId) : Visited keys env root id

/-- A write that leaves the record as it was. -/
def Refused (env : Env) (id : KeyId) : Prop := ∃ error, env.putOutcome id = .refused error

/-- The keys a cascade reports: it could not write them, or could not suspend them. -/
def Reported (keys : Keys) (env : Env) (id : KeyId) : Prop :=
  ∃ record, keys.find? id = some record ∧
    if record.state.canTransitionTo .suspended = true then env.putOutcome id ≠ .stored
    else alreadyTerminal record.state = false

/-- The invariant of the cascade: `done` are the keys whose children were listed, `seen`
the children that were dealt with, and `keys` the table it started from. -/
structure Progress (env : Env) (keys : Keys) (root : KeyId) (now : Nat) (done seen : List KeyId)
    (world : World) (cascade : Cascade) : Prop where
  clock : world.now = now
  absent : ∀ id, keys.find? id = none → world.keys.find? id = none
  untouched : ∀ id record, keys.find? id = some record →
    (id ∉ seen ∨ record.state.canTransitionTo .suspended = false ∨ Refused env id) →
    world.keys.find? id = some record
  suspended : ∀ id record, keys.find? id = some record → id ∈ seen →
    record.state.canTransitionTo .suspended = true → ¬ Refused env id →
    world.keys.find? id = some (suspendedRecord record now)
  frontier : ∀ id ∈ done ++ cascade.stack, id = root ∨
    (id ∈ seen ∧ Suspendable keys id ∧ env.putOutcome id = .stored)
  rooted : root ∈ done ++ cascade.stack
  pushed : ∀ id ∈ seen, Suspendable keys id → env.putOutcome id = .stored →
    id ∈ done ++ cascade.stack
  distinct : (done ++ cascade.stack).Nodup
  visited : ∀ id ∈ seen, Visited keys env root id
  errors : ∀ id, (∃ message, (id, message) ∈ cascade.errors) ↔ id ∈ seen ∧ Reported keys env id

section Progress

variable {now : Nat} {done seen : List KeyId} {world : World} {cascade : Cascade}

/-- The record of a key during a cascade. -/
theorem Progress.record (progress : Progress env keys root now done seen world cascade)
    {id : KeyId} {current : KeyMetadata} (found : world.keys.find? id = some current) :
    ∃ record, keys.find? id = some record ∧
      ((current = record ∧ (id ∉ seen ∨ record.state.canTransitionTo .suspended = false ∨
        Refused env id)) ∨
      (current = suspendedRecord record now ∧ id ∈ seen ∧
        record.state.canTransitionTo .suspended = true ∧ ¬ Refused env id)) := by
  cases stored : keys.find? id with
  | none =>
      rw [progress.absent id stored] at found
      cases found
  | some record =>
      refine ⟨record, rfl, ?_⟩
      by_cases still : id ∉ seen ∨ record.state.canTransitionTo .suspended = false ∨ Refused env id
      · rw [progress.untouched id record stored still] at found
        cases found
        exact Or.inl ⟨rfl, still⟩
      · push Not at still
        obtain ⟨member, edge, unrefused⟩ := still
        have can : record.state.canTransitionTo .suspended = true := by simpa using edge
        rw [progress.suspended id record stored member can unrefused] at found
        cases found
        exact Or.inr ⟨rfl, member, can, unrefused⟩

/-- A key that can still be suspended is neither done nor on the stack. -/
theorem Progress.not_frontier (progress : Progress env keys root now done seen world cascade)
    (rootTerminal : ¬ Suspendable keys root) {id : KeyId} {current : KeyMetadata}
    (found : world.keys.find? id = some current)
    (edge : current.state.canTransitionTo .suspended = true) : id ∉ done ++ cascade.stack := by
  intro member
  obtain ⟨record, stored, ⟨rfl, still⟩ | ⟨rfl, -, -, -⟩⟩ := progress.record found
  · rcases progress.frontier id member with rfl | ⟨inSeen, -, storedPut⟩
    · exact rootTerminal ⟨_, stored, edge⟩
    · rcases still with notSeen | cannot | ⟨error, refused⟩
      · exact notSeen inSeen
      · rw [cannot] at edge
        cases edge
      · rw [storedPut] at refused
        cases refused
  · cases edge

/-- One more child is dealt with: its own record is what the table asks for, it is
pushed if it was suspended and reported if it was not. -/
theorem Progress.deal (progress : Progress env keys root now done seen world cascade) {id : KeyId}
    {record : KeyMetadata} (found : keys.find? id = some record)
    (visited : Visited keys env root id) {later : World} {next : Cascade}
    (clock : later.now = now)
    (others : ∀ other, other ≠ id → later.keys.find? other = world.keys.find? other)
    (kept : record.state.canTransitionTo .suspended = false ∨ Refused env id →
      later.keys.find? id = some record)
    (written : record.state.canTransitionTo .suspended = true → ¬ Refused env id →
      later.keys.find? id = some (suspendedRecord record now))
    (stack : ∀ other, other ∈ done ++ next.stack ↔ other ∈ done ++ cascade.stack ∨
      (other = id ∧ Suspendable keys id ∧ env.putOutcome id = .stored))
    (distinct : (done ++ next.stack).Nodup)
    (errors : ∀ other, (∃ message, (other, message) ∈ next.errors) ↔
      (∃ message, (other, message) ∈ cascade.errors) ∨ (other = id ∧ Reported keys env id)) :
    Progress env keys root now done (id :: seen) later next where
  clock := clock
  absent := by
    intro other missing
    have different : other ≠ id := by
      rintro rfl
      rw [found] at missing
      cases missing
    rw [others other different]
    exact progress.absent other missing
  untouched := by
    intro other stored found' still
    by_cases same : other = id
    · subst same
      rw [found] at found'
      cases found'
      exact kept (still.resolve_left (fun absent => absent List.mem_cons_self))
    · rw [others other same]
      refine progress.untouched other stored found' ?_
      rcases still with absent | rest
      · exact Or.inl fun member => absent (List.mem_cons_of_mem _ member)
      · exact Or.inr rest
  suspended := by
    intro other stored found' member edge unrefused
    by_cases same : other = id
    · subst same
      rw [found] at found'
      cases found'
      exact written edge unrefused
    · rw [others other same]
      exact progress.suspended other stored found' ((List.mem_cons.mp member).resolve_left same)
        edge unrefused
  frontier := by
    intro other member
    rcases (stack other).mp member with old | ⟨rfl, suspendable, stored⟩
    · rcases progress.frontier other old with isRoot | ⟨inSeen, rest⟩
      · exact Or.inl isRoot
      · exact Or.inr ⟨List.mem_cons_of_mem _ inSeen, rest⟩
    · exact Or.inr ⟨List.mem_cons_self, suspendable, stored⟩
  rooted := (stack root).mpr (Or.inl progress.rooted)
  pushed := by
    intro other member suspendable stored
    rcases List.mem_cons.mp member with rfl | old
    · exact (stack other).mpr (Or.inr ⟨rfl, suspendable, stored⟩)
    · exact (stack other).mpr (Or.inl (progress.pushed other old suspendable stored))
  distinct := distinct
  visited := by
    intro other member
    rcases List.mem_cons.mp member with rfl | old
    · exact visited
    · exact progress.visited other old
  errors := by
    intro other
    rw [errors other, progress.errors other]
    constructor
    · rintro (⟨old, reported⟩ | ⟨rfl, reported⟩)
      · exact ⟨List.mem_cons_of_mem _ old, reported⟩
      · exact ⟨List.mem_cons_self, reported⟩
    · rintro ⟨member, reported⟩
      rcases List.mem_cons.mp member with rfl | old
      · exact Or.inr ⟨rfl, reported⟩
      · exact Or.inl ⟨old, reported⟩

/-- A child that is already out of use is passed over. -/
theorem Progress.passOver (progress : Progress env keys root now done seen world cascade)
    {id : KeyId} {current : KeyMetadata} (found : world.keys.find? id = some current)
    (visited : Visited keys env root id) (terminal : alreadyTerminal current.state = true) :
    Progress env keys root now done (id :: seen) world cascade := by
  obtain ⟨record, stored, ⟨rfl, still⟩ | ⟨rfl, inSeen, edge, unrefused⟩⟩ := progress.record found
  · have cannot : current.state.canTransitionTo .suspended = false := by
      cases state : current.state <;> rw [state] at terminal <;> first | rfl | cases terminal
    refine progress.deal stored visited progress.clock (fun _ _ => rfl) (fun _ => found) ?_ ?_
      progress.distinct ?_
    · intro can
      rw [cannot] at can
      cases can
    · intro other
      refine ⟨Or.inl, fun either => either.resolve_right ?_⟩
      rintro ⟨-, ⟨other, found', can⟩, -⟩
      rw [stored] at found'
      cases found'
      rw [cannot] at can
      cases can
    · intro other
      refine ⟨Or.inl, fun either => either.resolve_right ?_⟩
      rintro ⟨-, other, found', reported⟩
      rw [stored] at found'
      cases found'
      rw [if_neg (by simp [cannot]), terminal] at reported
      cases reported
  · refine progress.deal stored visited progress.clock (fun _ _ => rfl) ?_ (fun _ _ => found) ?_
      progress.distinct ?_
    · rintro (cannot | refused)
      · rw [cannot] at edge
        cases edge
      · exact absurd refused unrefused
    · intro other
      refine ⟨Or.inl, fun either => either.elim (fun old => old) ?_⟩
      rintro ⟨rfl, suspendable, storedPut⟩
      exact progress.pushed other inSeen suspendable storedPut
    · intro other
      refine ⟨Or.inl, fun either => either.elim (fun old => old) ?_⟩
      rintro ⟨rfl, reported⟩
      exact (progress.errors other).mpr ⟨inSeen, reported⟩

/-- A child that cannot be suspended is reported. -/
theorem Progress.report (progress : Progress env keys root now done seen world cascade)
    {id : KeyId} {current : KeyMetadata} {message : String}
    (found : world.keys.find? id = some current) (visited : Visited keys env root id)
    (cannot : current.state.canTransitionTo .suspended = false)
    (inUse : alreadyTerminal current.state = false) :
    Progress env keys root now done (id :: seen) world
      { cascade with errors := cascade.errors ++ [(id, message)] } := by
  obtain ⟨record, stored, ⟨rfl, still⟩ | ⟨rfl, -, -, -⟩⟩ := progress.record found
  · refine progress.deal stored visited progress.clock (fun _ _ => rfl) (fun _ => found) ?_ ?_
      progress.distinct ?_
    · intro can
      rw [cannot] at can
      cases can
    · intro other
      refine ⟨Or.inl, fun either => either.resolve_right ?_⟩
      rintro ⟨-, ⟨other, found', can⟩, -⟩
      rw [stored] at found'
      cases found'
      rw [cannot] at can
      cases can
    · intro other
      have reported : Reported keys env id := by
        refine ⟨current, stored, ?_⟩
        rw [if_neg (by simp [cannot])]
        exact inUse
      simp [exists_or, reported]
  · cases inUse

/-- What the cascade does with the answer to a write. -/
def afterWrite (id : KeyId) (cascade : Cascade) : Except KeystoreError Unit → Cascade
  | .ok _ => { cascade with
      suspended := cascade.suspended + 1
      stack := id :: cascade.stack }
  | .error error => { cascade with errors := cascade.errors ++ [(id, KeystoreError.display error)] }

/-- A child that can be suspended is written, and pushed or reported by the answer. -/
theorem Progress.write (progress : Progress env keys root now done seen world cascade)
    (rootTerminal : ¬ Suspendable keys root) {child : KeyMetadata}
    (found : world.keys.find? child.id = some child) (visited : Visited keys env root child.id)
    (edge : child.state.canTransitionTo .suspended = true) :
    Progress env keys root now done (child.id :: seen)
      (handlePut (env.putOutcome child.id) (suspendedRecord child now) world).2
      (afterWrite child.id cascade
        (handlePut (env.putOutcome child.id) (suspendedRecord child now) world).1) := by
  have fresh := progress.not_frontier rootTerminal found edge
  have others : ∀ other, other ≠ child.id →
      (handlePut (env.putOutcome child.id) (suspendedRecord child now) world).2.keys.find? other =
        world.keys.find? other := fun other different => find?_handlePut_of_ne different
  obtain ⟨record, stored, ⟨rfl, still⟩ | ⟨rfl, -, -, -⟩⟩ := progress.record found
  · have can : ¬ (child.state.canTransitionTo .suspended = false) := by simp [edge]
    have inserted : (world.keys.insert (suspendedRecord child now)).find? child.id =
        some (suspendedRecord child now) :=
      Table.find?_insert_self world.keys (suspendedRecord child now)
    cases outcome : env.putOutcome child.id with
    | stored =>
        rw [outcome] at others
        refine progress.deal stored visited progress.clock others ?_ (fun _ _ => inserted) ?_ ?_ ?_
        · rintro (cannot | ⟨error, refused⟩)
          · exact absurd cannot can
          · rw [outcome] at refused
            cases refused
        · intro other
          simp only [handlePut, afterWrite, List.mem_append, List.mem_cons, outcome, and_true]
          constructor
          · rintro (old | rfl | old)
            · exact Or.inl (Or.inl old)
            · exact Or.inr ⟨rfl, child, stored, edge⟩
            · exact Or.inl (Or.inr old)
          · rintro ((old | old) | ⟨rfl, -⟩)
            · exact Or.inl old
            · exact Or.inr (Or.inr old)
            · exact Or.inr (Or.inl rfl)
        · exact List.nodup_middle.mpr (List.nodup_cons.mpr ⟨fresh, progress.distinct⟩)
        · intro other
          refine ⟨Or.inl, fun either => either.resolve_right ?_⟩
          rintro ⟨-, other, found', reported⟩
          rw [stored] at found'
          cases found'
          rw [if_pos edge] at reported
          exact reported outcome
    | refused error =>
        have reported : Reported keys env child.id :=
          ⟨child, stored, by simp [edge, outcome]⟩
        refine progress.deal stored visited progress.clock (fun _ _ => rfl) (fun _ => found) ?_ ?_
          progress.distinct ?_
        · exact fun _ unrefused => absurd ⟨error, outcome⟩ unrefused
        · simp [handlePut, afterWrite, outcome]
        · simp [handlePut, afterWrite, exists_or, reported]
    | storedThenFailed error =>
        rw [outcome] at others
        have reported : Reported keys env child.id :=
          ⟨child, stored, by simp [edge, outcome]⟩
        refine progress.deal stored visited progress.clock others ?_ (fun _ _ => inserted) ?_
          progress.distinct ?_
        · rintro (cannot | ⟨error, refused⟩)
          · exact absurd cannot can
          · rw [outcome] at refused
            cases refused
        · simp [handlePut, afterWrite, outcome]
        · simp [handlePut, afterWrite, exists_or, reported]
  · cases edge

/-- The inner loop deals with every listed child. -/
theorem suspendChildren_progress {children : List KeyMetadata}
    (progress : Progress env keys root now done seen world cascade)
    (rootTerminal : ¬ Suspendable keys root) (distinct : (children.map KeyMetadata.id).Nodup)
    (stored : ∀ child ∈ children, world.keys.find? child.id = some child)
    (visited : ∀ child ∈ children, Visited keys env root child.id) :
    (suspendChildren children cascade).Meets (alone (handle env) fun _ _ => True) world
      fun later outcome => ∃ dealt next, outcome = .ok next ∧
        Progress env keys root now done dealt later next ∧ (∀ id ∈ seen, id ∈ dealt) ∧
        ∀ child ∈ children, child.id ∈ dealt := by
  induction children generalizing seen world cascade with
  | nil =>
      refine ⟨seen, cascade, rfl, progress, fun _ member => member, ?_⟩
      intro child member
      cases member
  | cons child rest ih =>
      rw [List.map_cons, List.nodup_cons] at distinct
      have found := stored child List.mem_cons_self
      have isVisited := visited child List.mem_cons_self
      have restVisited : ∀ other ∈ rest, Visited keys env root other.id :=
        fun other member => visited other (List.mem_cons_of_mem _ member)
      have restStored : ∀ other ∈ rest, world.keys.find? other.id = some other :=
        fun other member => stored other (List.mem_cons_of_mem _ member)
      -- whatever happens to the child, the loop goes on with it among the dealt
      have goOn : ∀ {later : World} {next : Cascade},
          Progress env keys root now done (child.id :: seen) later next →
          (∀ other ∈ rest, later.keys.find? other.id = some other) →
          (suspendChildren rest next).Meets (alone (handle env) fun _ _ => True) later
            fun final outcome => ∃ dealt last, outcome = .ok last ∧
              Progress env keys root now done dealt final last ∧ (∀ id ∈ seen, id ∈ dealt) ∧
              ∀ other ∈ child :: rest, other.id ∈ dealt := by
        intro later next after kept
        refine (ih after distinct.2 kept restVisited).mono ?_
        rintro final outcome ⟨dealt, last, rfl, finished, grows, all⟩
        refine ⟨dealt, last, rfl, finished, fun id member => grows id (List.mem_cons_of_mem _ member),
          ?_⟩
        intro other member
        rcases List.mem_cons.mp member with rfl | later
        · exact grows _ List.mem_cons_self
        · exact all other later
      unfold suspendChildren
      by_cases terminal : alreadyTerminal child.state = true
      · rw [if_pos terminal]
        exact goOn (progress.passOver found isVisited terminal) restStored
      · rw [if_neg terminal]
        by_cases cannot : child.state.canTransitionTo .suspended = false
        · rw [if_pos cannot]
          exact goOn (progress.report found isVisited cannot (by simpa using terminal)) restStored
        · rw [if_neg cannot]
          have written := progress.write rootTerminal found isVisited (by simpa using cannot)
          have kept : ∀ other ∈ rest,
              (handlePut (env.putOutcome child.id) (suspendedRecord child now)
                world).2.keys.find? other.id = some other := by
            intro other member
            rw [find?_handlePut_of_ne]
            · exact restStored other member
            · intro same
              exact distinct.1 (same ▸ List.mem_map_of_mem member)
          refine Meets.performAlone trivial (Meets.performAlone trivial ?_)
          simp only [handle, progress.clock, suspendedRecord] at written kept ⊢
          generalize handlePut (env.putOutcome child.id)
            { child with state := .suspended, updatedAt := now } world = ended at written kept ⊢
          obtain ⟨answer, later⟩ := ended
          cases answer with
          | ok done => exact goOn written kept
          | error error => exact goOn written kept

/-- Taking the top of the stack. -/
theorem Progress.pop {parentId : KeyId} {stack : List KeyId}
    (progress : Progress env keys root now done seen world cascade)
    (top : cascade.stack = parentId :: stack) :
    Progress env keys root now (done ++ [parentId]) seen world { cascade with stack := stack } := by
  have same : (done ++ [parentId]) ++ stack = done ++ cascade.stack := by simp [top]
  exact {
    clock := progress.clock
    absent := progress.absent
    untouched := progress.untouched
    suspended := progress.suspended
    frontier := by
      rw [same]
      exact progress.frontier
    rooted := by
      rw [same]
      exact progress.rooted
    pushed := by
      rw [same]
      exact progress.pushed
    distinct := by
      rw [same]
      exact progress.distinct
    visited := progress.visited
    errors := progress.errors }

/-- The parent of a key does not change during a cascade. -/
theorem Progress.parentId (progress : Progress env keys root now done seen world cascade)
    {id : KeyId} {current : KeyMetadata} (found : world.keys.find? id = some current) :
    ∃ record, keys.find? id = some record ∧ record.parentId = current.parentId := by
  obtain ⟨record, stored, ⟨rfl, -⟩ | ⟨rfl, -⟩⟩ := progress.record found
  · exact ⟨current, stored, rfl⟩
  · exact ⟨record, stored, rfl⟩

/-- A key that was there is still there during a cascade. -/
theorem Progress.find? (progress : Progress env keys root now done seen world cascade)
    {id : KeyId} {record : KeyMetadata} (stored : keys.find? id = some record) :
    ∃ current, world.keys.find? id = some current ∧ current.parentId = record.parentId := by
  by_cases still : id ∉ seen ∨ record.state.canTransitionTo .suspended = false ∨ Refused env id
  · exact ⟨record, progress.untouched id record stored still, rfl⟩
  · push Not at still
    obtain ⟨member, edge, unrefused⟩ := still
    exact ⟨_, progress.suspended id record stored member (by simpa using edge) unrefused, rfl⟩

/-- Done keys and keys on the stack are stored keys, so there are not too many. -/
theorem Progress.length_le (progress : Progress env keys root now done seen world cascade)
    (rootStored : ∃ record, keys.find? root = some record) :
    done.length + cascade.stack.length ≤ keys.entries.length := by
  have inTable : ∀ id, (∃ record, keys.find? id = some record) →
      id ∈ keys.entries.map KeyMetadata.id := by
    rintro id ⟨record, stored⟩
    exact Table.key_of_find? stored ▸ List.mem_map_of_mem (Table.mem_of_find? stored)
  have subset : done ++ cascade.stack ⊆ keys.entries.map KeyMetadata.id := by
    intro id member
    refine inTable id ?_
    rcases progress.frontier id member with rfl | ⟨-, ⟨record, stored, -⟩, -⟩
    · exact rootStored
    · exact ⟨record, stored⟩
  have bounded := (List.subperm_of_subset progress.distinct subset).length_le
  simpa using bounded

/-- The children of every done key were dealt with. -/
def Covered (keys : Keys) (done seen : List KeyId) : Prop :=
  ∀ id parentId, Child keys id parentId → parentId ∈ done → id ∈ seen

/-- The outer loop ends with an empty stack, unless a listing fails. -/
theorem cascadeLoop_progress {fuel : Nat}
    (progress : Progress env keys root now done seen world cascade)
    (rootTerminal : ¬ Suspendable keys root)
    (rootStored : ∃ record, keys.find? root = some record) (covered : Covered keys done seen)
    (enough : keys.entries.length ≤ fuel + done.length) :
    (cascadeLoop fuel cascade).Meets (alone (handle env) fun _ _ => True) world
      fun later outcome => (∃ error, outcome = .err error) ∨
        ∃ finished dealt last, outcome = .ok last ∧ last.stack = [] ∧
          Progress env keys root now finished dealt later last ∧ Covered keys finished dealt := by
  have bounded := progress.length_le rootStored
  induction fuel generalizing done seen world cascade with
  | zero =>
      unfold cascadeLoop
      cases stack : cascade.stack with
      | nil => exact Or.inr ⟨done, seen, cascade, rfl, stack, progress, covered⟩
      | cons top rest =>
          rw [stack, List.length_cons] at bounded
          omega
  | succ fuel ih =>
      unfold cascadeLoop
      cases stack : cascade.stack with
      | nil => exact Or.inr ⟨done, seen, cascade, rfl, stack, progress, covered⟩
      | cons parentId rest =>
          have popped := progress.pop stack
          refine Meets.callAlone trivial ?_
          simp only [handle]
          cases answer : faulty env.listFault (env.order (world.keys.entries.filter fun record =>
              record.parentId = some parentId)) with
          | error error => exact Or.inl ⟨_, rfl⟩
          | ok children =>
              obtain ⟨distinct, members⟩ := listing_spec answer
              have isChild : ∀ child ∈ children, Child keys child.id parentId := by
                intro child member
                obtain ⟨found, listed⟩ := (members child).mp member
                obtain ⟨record, stored, same⟩ := progress.parentId found
                exact ⟨record, stored, same.trans (by simpa using listed)⟩
              have visits : ∀ child ∈ children, Visited keys env root child.id := by
                intro child member
                have onTop : parentId ∈ done ++ cascade.stack := by simp [stack]
                rcases progress.frontier parentId onTop with rfl | ⟨inSeen, suspendable, stored⟩
                · exact .child (isChild child member)
                · exact .under (progress.visited _ inSeen) suspendable stored
                    (isChild child member)
              have inner := suspendChildren_progress popped rootTerminal distinct
                (fun child member => ((members child).mp member).1) visits
              rw [Program.ofExcept, ret_bind]
              refine Meets.bind (inner.mono ?_)
              rintro later outcome ⟨dealt, next, rfl, after, grows, all⟩
              refine ih after ?_ ?_ (after.length_le rootStored)
              · intro id parent child member
                rcases List.mem_append.mp member with old | new
                · exact grows id (covered id parent child old)
                · obtain rfl := List.mem_singleton.mp new
                  obtain ⟨record, stored, isParent⟩ := child
                  obtain ⟨current, found, same⟩ := progress.find? stored
                  have own : current.id = id := Table.key_of_find? found
                  have listed : current ∈ children := by
                    refine (members current).mpr ⟨own ▸ found, ?_⟩
                    simpa using same.trans isParent
                  exact own ▸ all current listed
              · rw [List.length_append, List.length_singleton]
                omega

/-- When the stack is empty the dealt keys are exactly the visited ones. -/
theorem Progress.mem_iff_visited (progress : Progress env keys root now done seen world cascade)
    (empty : cascade.stack = []) (covered : Covered keys done seen) {id : KeyId} :
    id ∈ seen ↔ Visited keys env root id := by
  have frontier : ∀ {other}, other ∈ done ++ cascade.stack → other ∈ done := by
    intro other member
    simpa [empty] using member
  constructor
  · exact progress.visited id
  · intro visited
    induction visited with
    | child child => exact covered _ _ child (frontier progress.rooted)
    | under parent suspendable stored child ih =>
        exact covered _ _ child (frontier (progress.pushed _ ih suspendable stored))

end Progress

end Keystore

end Citadel
