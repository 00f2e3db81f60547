import Citadel.Keystore.CascadeSpec
import Citadel.Keystore.LifecycleSafety
import Mathlib.Logic.Relation

/-!
# Descendants of a revoked key

`parentId` edges form a forest in every reachable state. Over that forest a cascade
stops exactly the descendants that it visits, so it stops all of them if and only if
none sits below a key on which the walk ends.
-/

namespace Citadel

open Program

namespace Keystore

variable {env : Env} {keys : Keys} {root : KeyId}

/-! ### The forest of keys -/

/-- The key is a descendant of another, through keys in any state. -/
def Below (keys : Keys) (ancestor id : KeyId) : Prop := Relation.TransGen (Child keys) id ancestor

/-- Every parent is stored, and came before its children. -/
structure Forest (keys : Keys) : Prop where
  parent : ∀ id parentId, Child keys id parentId → ∃ record, keys.find? parentId = some record
  ranked : ∃ rank : KeyId → Nat, ∀ id parentId, Child keys id parentId → rank parentId < rank id

/-- No key is its own descendant. -/
theorem Forest.not_below_self (forest : Forest keys) (id : KeyId) : ¬ Below keys id id := by
  obtain ⟨rank, ranked⟩ := forest.ranked
  intro loop
  have smaller : ∀ {low high}, Relation.TransGen (Child keys) low high → rank high < rank low := by
    intro low high path
    induction path with
    | single edge => exact ranked _ _ edge
    | tail _ edge ih => exact (ranked _ _ edge).trans ih
  exact lt_irrefl _ (smaller loop)

/-- Replacing a record by one with the same parent keeps every edge. -/
theorem child_insert_iff {before record : KeyMetadata}
    (found : keys.find? record.id = some before) (same : record.parentId = before.parentId)
    {id parentId : KeyId} :
    Child (keys.insert record) id parentId ↔ Child keys id parentId := by
  by_cases own : id = record.id
  · subst own
    constructor
    · rintro ⟨stored, lookup, named⟩
      rw [Table.find?_insert_self] at lookup
      cases lookup
      exact ⟨before, found, same.symm.trans named⟩
    · rintro ⟨stored, lookup, named⟩
      rw [found] at lookup
      cases lookup
      exact ⟨record, Table.find?_insert_self _ _, same.trans named⟩
  · unfold Child
    rw [Table.find?_insert_of_ne _ own]

/-- An edge of a table with a new record is an old edge or leads from the new key. -/
theorem child_insert_created {record : KeyMetadata} {id parentId : KeyId}
    (child : Child (keys.insert record) id parentId) :
    (id = record.id ∧ record.parentId = some parentId) ∨
      (id ≠ record.id ∧ Child keys id parentId) := by
  obtain ⟨stored, lookup, named⟩ := child
  by_cases own : id = record.id
  · subst own
    rw [Table.find?_insert_self] at lookup
    cases lookup
    exact Or.inl ⟨rfl, named⟩
  · rw [Table.find?_insert_of_ne _ own] at lookup
    exact Or.inr ⟨own, stored, lookup, named⟩

/-- A new key joins the forest as a leaf. -/
theorem Forest.create (forest : Forest keys) {record : KeyMetadata} (created : Creates keys record) :
    Forest (keys.insert record) := by
  have present : ∀ {id parentId}, Child (keys.insert record) id parentId →
      ∃ parent, keys.find? parentId = some parent := by
    intro id parentId child
    rcases child_insert_created child with ⟨-, named⟩ | ⟨-, old⟩
    · exact created.parent parentId named
    · exact forest.parent id parentId old
  have different : ∀ {id parentId}, Child (keys.insert record) id parentId →
      parentId ≠ record.id := by
    rintro id parentId child rfl
    obtain ⟨parent, found⟩ := present child
    rw [created.absent] at found
    cases found
  obtain ⟨rank, ranked⟩ := forest.ranked
  constructor
  · intro id parentId child
    obtain ⟨parent, found⟩ := present child
    refine ⟨parent, ?_⟩
    rw [Table.find?_insert_of_ne _ (different child)]
    exact found
  · -- the new key goes right above the rank of its parent
    refine ⟨fun id => if id = record.id then (record.parentId.map rank).getD 0 + 1 else rank id, ?_⟩
    intro id parentId child
    simp only [if_neg (different child)]
    rcases child_insert_created child with ⟨rfl, named⟩ | ⟨other, old⟩
    · simp [named]
    · rw [if_neg other]
      exact ranked id parentId old

/-- An edit keeps the forest. -/
theorem Forest.edit (forest : Forest keys) {before record : KeyMetadata}
    (found : keys.find? record.id = some before) (same : record.parentId = before.parentId) :
    Forest (keys.insert record) := by
  constructor
  · intro id parentId child
    obtain ⟨parent, stored⟩ := forest.parent id parentId ((child_insert_iff found same).mp child)
    by_cases own : parentId = record.id
    · exact ⟨record, own ▸ Table.find?_insert_self _ _⟩
    · exact ⟨parent, (Table.find?_insert_of_ne _ own).trans stored⟩
  · obtain ⟨rank, ranked⟩ := forest.ranked
    refine ⟨rank, ?_⟩
    intro id parentId child
    exact ranked id parentId ((child_insert_iff found same).mp child)

/-! ### What a cascade has done -/

/-- The effect of a cascade that returned, over the keys it found. -/
structure Cascades (env : Env) (keys : Keys) (root : KeyId) (now : Nat) (later : Keys)
    (errors : List (KeyId × String)) : Prop where
  revoked : ∃ before, keys.find? root = some before ∧ before.state = .active ∧
    later.find? root = some (revokedRecord before now now)
  absent : ∀ id, keys.find? id = none → later.find? id = none
  untouched : ∀ id record, id ≠ root → keys.find? id = some record →
    (¬ Visited keys env root id ∨ record.state.canTransitionTo .suspended = false ∨
      Refused env id) → later.find? id = some record
  suspended : ∀ id record, keys.find? id = some record → Visited keys env root id →
    record.state.canTransitionTo .suspended = true → ¬ Refused env id →
    later.find? id = some (suspendedRecord record now)
  errors : ∀ id, (∃ message, (id, message) ∈ errors) ↔
    Visited keys env root id ∧ Reported keys env id

/-- A visited key is a descendant. -/
theorem Visited.isBelow {id : KeyId} (visited : Visited keys env root id) : Below keys root id := by
  induction visited with
  | child child => exact .single child
  | under _ _ _ child ih => exact .head child ih

/-- A revocation writes one record. -/
theorem revoke_run_inv {world after : World} {id : KeyId}
    (ran : (revoke id).run (handle env) world = (.ok (), after)) :
    ∃ before, world.keys.find? id = some before ∧ before.state = .active ∧
      after = { world with
        keys := world.keys.insert (revokedRecord before world.now world.now) } := by
  obtain ⟨before, got, rest⟩ :=
    (get_reads id).of_run_bind_eq_ok (fun _ reads => handle_of_reads reads) (of_run_mapErr_eq_ok ran)
  obtain ⟨active, written⟩ := of_run_guard_eq_ok rest
  exact ⟨before, find?_of_get got, not_not.mp active, of_put_eq_ok written⟩

/-- Revoking the root changes neither the edges nor, apart from the root, what can be
suspended: the cascade visits what it would have visited before. -/
theorem visited_insert_iff (forest : Forest keys) {before record : KeyMetadata}
    (found : keys.find? record.id = some before) (same : record.parentId = before.parentId)
    {id : KeyId} :
    Visited (keys.insert record) env record.id id ↔ Visited keys env record.id id := by
  have elsewhere : ∀ {other}, other ≠ record.id →
      (Suspendable (keys.insert record) other ↔ Suspendable keys other) := by
    intro other different
    unfold Suspendable
    rw [Table.find?_insert_of_ne _ different]
  have edge : ∀ {low high}, Child (keys.insert record) low high ↔ Child keys low high :=
    child_insert_iff found same
  have different : ∀ {other}, Visited keys env record.id other → other ≠ record.id := by
    rintro other visited rfl
    exact forest.not_below_self _ visited.isBelow
  constructor
  · intro visited
    induction visited with
    | child child => exact .child (edge.mp child)
    | under _ suspendable stored child ih =>
        exact .under ih ((elsewhere (different ih)).mp suspendable) stored (edge.mp child)
  · intro visited
    induction visited with
    | child child => exact .child (edge.mpr child)
    | under parent suspendable stored child ih =>
        exact .under ih ((elsewhere (different parent)).mpr suspendable) stored (edge.mpr child)

/-- The state in which the walk begins. -/
theorem Progress.initial {world : World} {now : Nat} (start : world.keys = keys)
    (clock : world.now = now) : Progress env keys root now [] [] world ⟨0, [], [root]⟩ where
  clock := clock
  absent _ missing := start ▸ missing
  untouched _ _ found _ := start ▸ found
  suspended _ _ _ member := absurd member List.not_mem_nil
  frontier id member := Or.inl (by simpa using member)
  rooted := by simp
  pushed _ member := absurd member List.not_mem_nil
  distinct := by simp
  visited _ member := absurd member List.not_mem_nil
  errors id := by simp

/-- The walk from a revoked root, over the keys from before the revocation. -/
theorem Progress.cascades {before : KeyMetadata} {now : Nat} {done seen : List KeyId}
    {world : World} {cascade : Cascade} (forest : Forest keys)
    (found : keys.find? before.id = some before) (active : before.state = .active)
    (progress : Progress env (keys.insert (revokedRecord before now now)) before.id now done seen
      world cascade)
    (empty : cascade.stack = [])
    (covered : Covered (keys.insert (revokedRecord before now now)) done seen) :
    Cascades env keys before.id now world.keys cascade.errors := by
  obtain ⟨record, revoked⟩ : ∃ record, record = revokedRecord before now now := ⟨_, rfl⟩
  have identity : before.id = record.id := revoked ▸ rfl
  rw [← revoked, identity] at progress
  rw [← revoked] at covered
  rw [identity] at found ⊢
  have same : record.parentId = before.parentId := revoked ▸ rfl
  have dealt : ∀ {id}, id ∈ seen ↔ Visited keys env record.id id := fun {id} =>
    (progress.mem_iff_visited empty covered).trans (visited_insert_iff forest found same)
  have different : ∀ {id}, Visited keys env record.id id → id ≠ record.id := by
    rintro id visited rfl
    exact forest.not_below_self _ visited.isBelow
  have elsewhere : ∀ {id}, id ≠ record.id → (keys.insert record).find? id = keys.find? id :=
    fun other => Table.find?_insert_of_ne _ other
  refine ⟨⟨before, found, active, ?_⟩, ?_, ?_, ?_, ?_⟩
  · rw [← revoked]
    refine progress.untouched _ _ (Table.find?_insert_self _ _) (Or.inr (Or.inl ?_))
    rw [revoked]
    rfl
  · intro id missing
    refine progress.absent id ?_
    rw [elsewhere]
    · exact missing
    · rintro rfl
      rw [found] at missing
      cases missing
  · intro id stored other lookup still
    refine progress.untouched id stored ((elsewhere other).trans lookup) ?_
    rwa [dealt]
  · intro id stored lookup visited edge unrefused
    exact progress.suspended id stored ((elsewhere (different visited)).trans lookup)
      (dealt.mpr visited) edge unrefused
  · intro id
    rw [progress.errors id, dealt]
    refine and_congr_right fun visited => ?_
    unfold Reported
    rw [elsewhere (different visited)]

/-- The revoked root cannot be suspended. -/
theorem not_suspendable_revoked (before : KeyMetadata) (revoked updated : Nat) :
    ¬ Suspendable (keys.insert (revokedRecord before revoked updated)) before.id := by
  rintro ⟨stored, lookup, edge⟩
  rw [show before.id = (revokedRecord before revoked updated).id from rfl,
    Table.find?_insert_self] at lookup
  cases lookup
  cases edge

/-- The walk after the revocation of a key either fails or ends with an empty stack. -/
theorem cascadeLoop_of_revoked {fuel : Nat} {world : World} {before : KeyMetadata}
    (found : world.keys.find? before.id = some before)
    (enough : world.keys.entries.length ≤ fuel) {outcome : Outcome CallError Cascade}
    {after : World} (walked : (cascadeLoop fuel ⟨0, [], [before.id]⟩).run (handle env)
      { world with keys := world.keys.insert (revokedRecord before world.now world.now) } =
        (outcome, after)) :
    (∃ error, outcome = .err error) ∨ ∃ finished dealt last, outcome = .ok last ∧
      last.stack = [] ∧
      Progress env (world.keys.insert (revokedRecord before world.now world.now)) before.id
        world.now finished dealt after last ∧
      Covered (world.keys.insert (revokedRecord before world.now world.now)) finished dealt := by
  have length : (world.keys.insert (revokedRecord before world.now world.now)).entries.length =
      world.keys.entries.length := Table.length_insert_of_find? found
  have start : Progress env (world.keys.insert (revokedRecord before world.now world.now)) before.id
      world.now [] [] { world with
        keys := world.keys.insert (revokedRecord before world.now world.now) }
      ⟨0, [], [before.id]⟩ := Progress.initial rfl rfl
  have walk := (cascadeLoop_progress start (not_suspendable_revoked _ _ _)
    ⟨_, Table.find?_insert_self _ (revokedRecord before world.now world.now)⟩
    (fun _ _ _ member => absurd member List.not_mem_nil) (by simpa [length] using enough)).runAlone
  rwa [walked] at walk

/-- A cascade that returned has suspended what it visited, and says what it could not
suspend. -/
theorem cascades_of_run {fuel : Nat} {world after : World} {revoked suspended : Nat}
    {errors : List (KeyId × String)} (forest : Forest world.keys)
    (enough : world.keys.entries.length ≤ fuel)
    (ran : (revokeCascade fuel root).run (handle env) world =
      (.ok (revoked, suspended, errors), after)) :
    Cascades env world.keys root world.now after.keys errors := by
  obtain ⟨_, middle, first, rest⟩ := of_run_bind_eq_ok ran
  obtain ⟨before, found, active, rfl⟩ := revoke_run_inv (of_run_mapErr_eq_ok first)
  obtain ⟨cascade, final, walked, done⟩ := of_run_bind_eq_ok rest
  cases done
  have own : before.id = root := Table.key_of_find? found
  subst own
  obtain ⟨error, failed⟩ | ⟨finished, dealt, last, ended, empty, progress, covered⟩ :=
    cascadeLoop_of_revoked found enough walked
  · cases failed
  · cases ended
    exact progress.cascades forest found active empty covered

/-- The inner loop never fails: what it cannot write it reports. -/
theorem suspendChildren_ne_err (children : List KeyMetadata) (cascade : Cascade) (world : World)
    (error : CallError) :
    ((suspendChildren children cascade).run (handle env) world).1 ≠ .err error := by
  induction children generalizing cascade world with
  | nil => simp [suspendChildren]
  | cons child rest ih =>
      rw [suspendChildren]
      split
      · exact ih _ _
      · split
        · exact ih _ _
        · simp only [call_bind, run_perform]
          split
          · exact ih _ _
          · exact ih _ _

/-- With a backend that lists, the outer loop does not fail either. -/
theorem cascadeLoop_ne_err (lists : env.listFault = none) (fuel : Nat) (cascade : Cascade)
    (world : World) (error : CallError) :
    ((cascadeLoop fuel cascade).run (handle env) world).1 ≠ .err error := by
  induction fuel generalizing cascade world with
  | zero =>
      rw [cascadeLoop]
      split <;> simp
  | succ fuel ih =>
      rw [cascadeLoop]
      split
      · simp
      · rename_i parentId stack top
        simp only [call_bind, run_perform, handle, lists, faulty, Program.ofExcept, ret_bind,
          run_bind]
        cases walked : (suspendChildren _ _).run (handle env) world with
        | mk outcome later =>
            cases outcome with
            | ok next => exact ih next later
            | err problem =>
                exact absurd (congrArg Prod.fst walked) (suspendChildren_ne_err _ _ _ _)
            | aborted why => simp

/-- With a backend that answers, a cascade on an active key succeeds. -/
theorem revokeCascade_run (reliable : env.Reliable) {fuel : Nat} {world : World}
    {record : KeyMetadata} (enough : world.keys.entries.length ≤ fuel)
    (found : world.keys.find? root = some record) (active : record.state = .active) :
    ∃ suspended errors after, (revokeCascade fuel root).run (handle env) world =
      (.ok (1, suspended, errors), after) := by
  have own : record.id = root := Table.key_of_find? found
  subst own
  rw [revokeCascade, run_bind, run_mapErr, revoke_run reliable found active]
  simp only [Outcome.mapErr, andThen_ok, run_bind]
  cases walked : (cascadeLoop fuel ⟨0, [], [record.id]⟩).run (handle env)
      { world with keys := world.keys.insert (revokedRecord record world.now world.now) } with
  | mk outcome after =>
      cases outcome with
      | ok cascade => exact ⟨cascade.suspended, cascade.errors, after, rfl⟩
      | err error =>
          exact absurd (congrArg Prod.fst walked) (cascadeLoop_ne_err reliable.list _ _ _ _)
      | aborted why =>
          obtain ⟨error, failed⟩ | ⟨finished, dealt, last, ended, -⟩ :=
            cascadeLoop_of_revoked found enough walked
          · cases failed
          · cases ended

section Cascades

variable {now : Nat} {later : Keys} {errors : List (KeyId × String)}

/-- A key after a cascade has the parent that it had before. -/
theorem Cascades.record (cascades : Cascades env keys root now later errors) {id : KeyId}
    {record : KeyMetadata} (found : keys.find? id = some record) :
    ∃ current, later.find? id = some current ∧ current.parentId = record.parentId := by
  by_cases isRoot : id = root
  · subst isRoot
    obtain ⟨before, stored, -, written⟩ := cascades.revoked
    rw [stored] at found
    cases found
    exact ⟨_, written, rfl⟩
  · by_cases still : ¬ Visited keys env root id ∨ record.state.canTransitionTo .suspended = false ∨
      Refused env id
    · exact ⟨record, cascades.untouched id record isRoot found still, rfl⟩
    · push Not at still
      obtain ⟨visited, edge, unrefused⟩ := still
      exact ⟨_, cascades.suspended id record found visited (by simpa using edge) unrefused, rfl⟩

theorem Cascades.child_iff (cascades : Cascades env keys root now later errors)
    {id parentId : KeyId} : Child later id parentId ↔ Child keys id parentId := by
  constructor
  · rintro ⟨current, stored, named⟩
    cases found : keys.find? id with
    | none =>
        rw [cascades.absent id found] at stored
        cases stored
    | some record =>
        obtain ⟨other, stored', same⟩ := cascades.record found
        rw [stored] at stored'
        cases stored'
        exact ⟨record, found, same.symm.trans named⟩
  · rintro ⟨record, found, named⟩
    obtain ⟨current, stored, same⟩ := cascades.record found
    exact ⟨current, stored, same.trans named⟩

theorem Cascades.below_iff (cascades : Cascades env keys root now later errors)
    {ancestor id : KeyId} : Below later ancestor id ↔ Below keys ancestor id := by
  have edges : Child later = Child keys := by
    funext low high
    exact propext cascades.child_iff
  rw [Below, edges, Below]

/-- Every descendant of the key is out of use or named in the list. -/
def DescendantsStopped (keys : Keys) (root : KeyId) (errors : List (KeyId × String)) : Prop :=
  ∀ id record, Below keys root id → keys.find? id = some record →
    (record.state ≠ .active ∧ record.state ≠ .rotated) ∨ ∃ message, (id, message) ∈ errors

/-- Every descendant in use is joined to the root by keys that are in use themselves and
whose writes succeed. -/
def Unobstructed (keys : Keys) (env : Env) (root : KeyId) : Prop :=
  ∀ id, Below keys root id → Suspendable keys id → Visited keys env root id

/-- A visited key that could be suspended is stopped or reported. -/
theorem Cascades.stopped (cascades : Cascades env keys root now later errors) {id : KeyId}
    {record : KeyMetadata} (found : keys.find? id = some record)
    (visited : Visited keys env root id) (edge : record.state.canTransitionTo .suspended = true) :
    later.find? id = some (suspendedRecord record now) ∨ ∃ message, (id, message) ∈ errors := by
  by_cases refused : Refused env id
  · refine Or.inr ((cascades.errors id).mpr ⟨visited, record, found, ?_⟩)
    obtain ⟨error, outcome⟩ := refused
    simp [edge, outcome]
  · exact Or.inl (cascades.suspended id record found visited edge refused)

/-- A cascade stops every descendant exactly when nothing obstructs its walk. -/
theorem Cascades.descendantsStopped_iff (forest : Forest keys)
    (cascades : Cascades env keys root now later errors) :
    DescendantsStopped later root errors ↔ Unobstructed keys env root := by
  have different : ∀ {id}, Below keys root id → id ≠ root := by
    rintro id below rfl
    exact forest.not_below_self _ below
  constructor
  · rintro stopped id below ⟨record, found, edge⟩
    by_contra missed
    have kept := cascades.untouched id record (different below) found (Or.inl missed)
    rcases stopped id record (cascades.below_iff.mpr below) kept with unused | reported
    · rcases canTransitionTo_suspended_iff.mp edge with active | rotated
      · exact unused.1 active
      · exact unused.2 rotated
    · exact missed ((cascades.errors id).mp reported).1
  · intro unobstructed id current below stored
    rw [cascades.below_iff] at below
    cases found : keys.find? id with
    | none =>
        rw [cascades.absent id found] at stored
        cases stored
    | some record =>
        by_cases edge : record.state.canTransitionTo .suspended = true
        · rcases cascades.stopped found (unobstructed id below ⟨record, found, edge⟩) edge with
            suspended | reported
          · rw [stored] at suspended
            cases suspended
            exact Or.inl ⟨nofun, nofun⟩
          · exact Or.inr reported
        · have kept := cascades.untouched id record (different below) found
            (Or.inr (Or.inl (by simpa using edge)))
          rw [stored] at kept
          cases kept
          rw [canTransitionTo_suspended_iff] at edge
          push Not at edge
          exact Or.inl edge

end Cascades

end Keystore

open Keystore

variable {ks : Keystore} {env : Env}

/-- A write keeps destroyed records empty and the keys a forest. -/
theorem Call.MayWrite.forest {step : Step} {world : World} {keys : Keys} {record : KeyMetadata}
    (fresh : step.Fresh world) (held : Emptied keys ∧ Forest keys)
    (mayWrite : step.call.MayWrite ks step.env world.keys keys record) :
    Emptied (keys.insert record) ∧ Forest (keys.insert record) := by
  obtain ⟨emptied, forest⟩ := held
  refine ⟨mayWrite.emptied fresh emptied, ?_⟩
  rcases mayWrite.created_or_edits fresh emptied with created | ⟨before, found, edits⟩
  · exact forest.create created
  · exact forest.edit found edits.parentId

theorem Keystore.Forest.empty : Forest Table.empty := by
  refine ⟨?_, fun _ => 0, ?_⟩
  · rintro id parentId ⟨record, ⟨⟩, -⟩
  · rintro id parentId ⟨record, ⟨⟩, -⟩

/-- In every reachable state the keys form a forest. -/
theorem Reachable.forest {allowed : Step → World → Prop} {world : World}
    (reachable : Reachable ks allowed world) : Forest world.keys := by
  obtain ⟨now, replay, reaches⟩ := reachable
  have kept := reaches.keys_invariant (fun keys => Emptied keys ∧ Forest keys) ?_ ?_
  · exact kept.2
  · intro step world keys record _ fresh held mayWrite
    exact mayWrite.forest fresh held
  · exact ⟨.empty, .empty⟩

/-- A cascade that a step returned has the effect of a cascade. -/
theorem Step.cascades {world after : World} {now revoked suspended : Nat} {root : KeyId}
    {errors : List (KeyId × String)} (forest : Forest world.keys)
    (ran : (Step.mk now env (.revokeCascade root)).run ks world =
      (.ok (.cascade revoked suspended errors), after)) :
    Cascades env world.keys root now after.keys errors := by
  obtain ⟨⟨first, second, third⟩, middle, cascaded, done⟩ := of_run_bind_eq_ok ran
  cases done
  have entered : Forest (Step.enter ⟨now, env, .revokeCascade root⟩ world).keys := forest
  exact cascades_of_run entered (Nat.le_succ _) cascaded

/-- With a backend that answers, the step of a cascade on an active key succeeds. -/
theorem Step.exists_cascade {world : World} {now : Nat} {root : KeyId} {record : KeyMetadata}
    (reliable : env.Reliable) (found : world.keys.find? root = some record)
    (active : record.state = .active) :
    ∃ suspended errors after, (Step.mk now env (.revokeCascade root)).run ks world =
      (.ok (.cascade 1 suspended errors), after) := by
  obtain ⟨suspended, errors, after, ran⟩ : ∃ suspended errors after,
      (revokeCascade (world.keys.entries.length + 1) root).run (handle env)
        { world with now := now } = (.ok (1, suspended, errors), after) :=
    revokeCascade_run reliable (Nat.le_succ _) found active
  refine ⟨suspended, errors, after, ?_⟩
  simp only [Step.run, Call.run, Call.prog, Step.enter, run_bind, ran, andThen_ok]
  rfl

/-- A cascade that returned `Ok` leaves every descendant of its key out of use or
reports it if and only if each descendant in use is joined to the key by keys in use
whose writes succeed. A key that is pending, expired, suspended, revoked or destroyed,
or that could not be written, hides everything below it. -/
theorem revokeCascade_stops_descendants_iff {world after : World} {now revoked suspended : Nat}
    {root : KeyId} {errors : List (KeyId × String)} (reachable : Reachable ks anyStep world)
    (ran : (Step.mk now env (.revokeCascade root)).run ks world =
      (.ok (.cascade revoked suspended errors), after)) :
    DescendantsStopped after.keys root errors ↔ Unobstructed world.keys env root :=
  (Step.cascades reachable.forest ran).descendantsStopped_iff reachable.forest

/-- Every key of a line of active keys is active. -/
theorem Grove.active_of_line {keys : Keys}
    (grove : Grove keys (line .active .active .active .active)) (id : KeyId)
    (record : KeyMetadata) (found : keys.find? id = some record) : record.state = .active := by
  obtain ⟨n, within, rfl⟩ := grove.named id record found
  obtain ⟨entry, place⟩ : ∃ entry, (line .active .active .active .active)[n]? = some entry :=
    ⟨_, List.getElem?_eq_getElem within⟩
  have active : entry.state = .active := by
    have member := List.mem_of_getElem? place
    revert member
    simp only [line, List.mem_cons, List.not_mem_nil, or_false]
    rintro (rfl | rfl | rfl | rfl) <;> rfl
  obtain ⟨other, version, also, planted⟩ := grove.planted n entry place
  obtain rfl : record = other := Option.some.inj (found.symm.trans also)
  rw [planted.state, active]

/-- Among active keys whose writes succeed nothing hides a descendant. -/
theorem Keystore.unobstructed_of_active {keys : Keys} {env : Env} {root : KeyId}
    (active : ∀ id record, keys.find? id = some record → record.state = .active)
    (stores : ∀ id, env.putOutcome id = .stored) : Unobstructed keys env root := by
  rintro id below -
  induction below using Relation.TransGen.head_induction_on with
  | single child => exact .child child
  | @head id parentId child rest visited =>
      obtain ⟨_, ⟨record, found, -⟩, -⟩ := Relation.TransGen.head'_iff.mp rest
      have suspendable : Suspendable keys parentId :=
        ⟨record, found, by rw [active _ _ found]; rfl⟩
      exact .under visited suspendable (stores parentId) child

/-- The parents of a grove are those of its plan. -/
theorem Grove.child_iff {keys : Keys} {plan : List Planting} (grove : Grove keys plan) {n : Nat}
    {entry : Planting} {parentId : KeyId}
    (place : plan[n]? = some entry) :
    Child keys (keyNumbered n) parentId ↔ entry.parent.map keyNumbered = some parentId := by
  obtain ⟨record, version, found, planted⟩ := grove.planted n entry place
  rw [← planted.parentId]
  constructor
  · rintro ⟨other, also, child⟩
    obtain rfl : record = other := Option.some.inj (found.symm.trans also)
    exact child
  · intro child
    exact ⟨record, found, child⟩

/-- A pending domain hides an active key-encrypting key from the cascade of the root. -/
theorem kek_below_pending_domain_missed :
    ∃ world after suspended errors, Reachable plainKeystore anyStep world ∧
      Grove world.keys (line .active .pending .active .active) ∧
      (Step.mk 0 (quietEnv 4) (.revokeCascade (keyNumbered 0))).run plainKeystore world =
        (.ok (.cascade 1 suspended errors), after) ∧
      ¬ DescendantsStopped after.keys (keyNumbered 0) errors := by
  obtain ⟨world, reachable, grove, -⟩ := exists_line plainKeystore_growable anyStep
    (.memory ⟨1, []⟩) .active .pending .active .active (by decide) (fun _ _ _ _ _ _ _ => trivial)
  obtain ⟨rootRecord, rootVersion, rootFound, rootPlanted⟩ := grove.planted 0 _ rfl
  obtain ⟨domainRecord, domainVersion, domainFound, domainPlanted⟩ := grove.planted 1 _ rfl
  obtain ⟨kekRecord, kekVersion, kekFound, kekPlanted⟩ := grove.planted 2 _ rfl
  obtain ⟨suspended, errors, after, ran⟩ : ∃ suspended errors after,
      (Step.mk 0 (quietEnv 4) (.revokeCascade (keyNumbered 0))).run plainKeystore world =
        (.ok (.cascade 1 suspended errors), after) :=
    Step.exists_cascade (quietEnv_reliable 4) rootFound rootPlanted.state
  refine ⟨world, after, suspended, errors, reachable, grove, ran, ?_⟩
  rw [(Step.cascades reachable.forest ran).descendantsStopped_iff reachable.forest]
  intro unobstructed
  have kekChild : Child world.keys (keyNumbered 2) (keyNumbered 1) := (grove.child_iff rfl).mpr rfl
  have domainChild : Child world.keys (keyNumbered 1) (keyNumbered 0) :=
    (grove.child_iff rfl).mpr rfl
  have isBelow : Below world.keys (keyNumbered 0) (keyNumbered 2) :=
    .head kekChild (.single domainChild)
  have inUse : Suspendable world.keys (keyNumbered 2) :=
    ⟨kekRecord, kekFound, by rw [kekPlanted.state]; rfl⟩
  have parentIs : ∀ {parentId}, Child world.keys (keyNumbered 2) parentId →
      parentId = keyNumbered 1 := by
    intro parentId child
    have place : (line .active .pending .active .active)[2]? =
        some ⟨.keyEncrypting, some 1, .active⟩ := rfl
    exact (Option.some.inj ((grove.child_iff place).mp child)).symm
  cases unobstructed _ isBelow inUse with
  | child child =>
      have same : keyNumbered 0 = keyNumbered 1 := parentIs child
      rw [keyNumbered_inj (by decide) (by decide)] at same
      cases same
  | under parent suspendable stored child =>
      obtain ⟨record, found, edge⟩ := suspendable
      rw [parentIs child] at found
      obtain rfl : domainRecord = record := Option.some.inj (domainFound.symm.trans found)
      rw [domainPlanted.state] at edge
      cases edge

/-- Below an active root with active keys everything is stopped. -/
theorem line_stopped_below_root :
    ∃ world after suspended errors, Reachable plainKeystore anyStep world ∧
      Grove world.keys (line .active .active .active .active) ∧
      (Step.mk 0 (quietEnv 4) (.revokeCascade (keyNumbered 0))).run plainKeystore world =
        (.ok (.cascade 1 suspended errors), after) ∧
      DescendantsStopped after.keys (keyNumbered 0) errors := by
  obtain ⟨world, reachable, grove, -⟩ := exists_line plainKeystore_growable anyStep
    (.memory ⟨1, []⟩) .active .active .active .active (by decide) (fun _ _ _ _ _ _ _ => trivial)
  obtain ⟨rootRecord, rootVersion, rootFound, rootPlanted⟩ := grove.planted 0 _ rfl
  obtain ⟨suspended, errors, after, ran⟩ : ∃ suspended errors after,
      (Step.mk 0 (quietEnv 4) (.revokeCascade (keyNumbered 0))).run plainKeystore world =
        (.ok (.cascade 1 suspended errors), after) :=
    Step.exists_cascade (quietEnv_reliable 4) rootFound rootPlanted.state
  refine ⟨world, after, suspended, errors, reachable, grove, ran, ?_⟩
  exact (revokeCascade_stops_descendants_iff reachable ran).mpr
    (unobstructed_of_active grove.active_of_line fun _ => rfl)

end Citadel
