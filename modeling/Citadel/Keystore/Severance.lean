import Citadel.Keystore.Descendants

/-!
# Keys below a revoked key

A cascade marks the keys below a revoked one by suspending them, and nothing else
records that an ancestor was given up. `Severed` says that no key in use has a revoked
or destroyed key above it. It survives every call except the two that do not look up
the tree: an activation below a revoked or destroyed key, and the destruction of a key
with keys in use below it.
-/

namespace Citadel

open Program

namespace Keystore

variable {ks : Keystore} {env : Env} {keys : Keys} {root : KeyId}

/-- The states of a key that was given up. -/
def GivenUp (state : KeyState) : Prop := state = .revoked ∨ state = .destroyed

/-- The key is stored, revoked or destroyed. -/
def Withdrawn (keys : Keys) (id : KeyId) : Prop :=
  ∃ record, keys.find? id = some record ∧ GivenUp record.state

/-- No key in use has a revoked or destroyed key on its chain of parents. -/
def Severed (keys : Keys) : Prop :=
  ∀ id ancestor, Below keys ancestor id → Withdrawn keys ancestor → ¬ Suspendable keys id

/-- Every suspended key has a revoked or destroyed key on its chain of parents. -/
def Explained (keys : Keys) : Prop :=
  ∀ id record, keys.find? id = some record → record.state = .suspended →
    ∃ ancestor, Below keys ancestor id ∧ Withdrawn keys ancestor

/-- What a table keeps when keys are revoked by cascades. -/
structure Kept (keys : Keys) : Prop where
  emptied : Emptied keys
  forest : Forest keys
  severed : Severed keys
  explained : Explained keys

/-! ### One write -/

/-- A new key joins as a leaf, so the chains of the other keys stay as they were. -/
theorem Forest.below_of_create (forest : Forest keys) {record : KeyMetadata}
    (created : Creates keys record) {ancestor id : KeyId} (other : id ≠ record.id)
    (below : Below (keys.insert record) ancestor id) : Below keys ancestor id := by
  unfold Below at below
  induction below using Relation.TransGen.head_induction_on with
  | single edge =>
      rcases child_insert_created edge with ⟨same, -⟩ | ⟨-, old⟩
      · exact absurd same other
      · exact .single old
  | head edge _ ih =>
      rcases child_insert_created edge with ⟨same, -⟩ | ⟨-, old⟩
      · exact absurd same other
      · refine .head old (ih ?_)
        rintro rfl
        obtain ⟨parent, found⟩ := forest.parent _ _ old
        rw [created.absent] at found
        cases found

/-- Old chains are still there after a write that keeps every key. -/
theorem below_insert {record : KeyMetadata} (keeps : Extends keys (keys.insert record))
    {ancestor id : KeyId} (below : Below keys ancestor id) :
    Below (keys.insert record) ancestor id := by
  refine Relation.TransGen.mono ?_ _ _ below
  rintro low high ⟨stored, found, named⟩
  obtain ⟨kept, lookup, outlives⟩ := keeps low stored found
  exact ⟨kept, lookup, outlives.parentId.trans named⟩

/-- A new key changes nothing for the others. -/
theorem Kept.create (kept : Kept keys) {record : KeyMetadata} (created : Creates keys record)
    (emptied : Emptied (keys.insert record)) (keeps : Extends keys (keys.insert record)) :
    Kept (keys.insert record) := by
  have isNew : ∀ {id stored}, (keys.insert record).find? id = some stored →
      stored.state ≠ .pending → id ≠ record.id ∧ keys.find? id = some stored := by
    intro id stored found inState
    by_cases same : id = record.id
    · subst same
      rw [Table.find?_insert_self] at found
      cases found
      exact absurd created.pending inState
    · rw [Table.find?_insert_of_ne _ same] at found
      exact ⟨same, found⟩
  refine ⟨emptied, kept.forest.create created, ?_, ?_⟩
  · rintro id ancestor below ⟨upper, foundUpper, givenUp⟩ ⟨lower, foundLower, edge⟩
    have inUse : lower.state ≠ .pending := by
      intro pending
      rw [pending] at edge
      cases edge
    have notPending : upper.state ≠ .pending := by
      intro pending
      rw [pending] at givenUp
      rcases givenUp with impossible | impossible <;> cases impossible
    obtain ⟨other, oldLower⟩ := isNew foundLower inUse
    obtain ⟨-, oldUpper⟩ := isNew foundUpper notPending
    exact kept.severed id ancestor (kept.forest.below_of_create created other below)
      ⟨upper, oldUpper, givenUp⟩ ⟨lower, oldLower, edge⟩
  · intro id stored found suspended
    obtain ⟨-, old⟩ := isNew found (by simp [suspended])
    obtain ⟨ancestor, below, upper, foundUpper, givenUp⟩ := kept.explained id stored old suspended
    refine ⟨ancestor, below_insert keeps below, upper, ?_, givenUp⟩
    rw [Table.find?_insert_of_ne]
    · exact foundUpper
    · rintro rfl
      rw [created.absent] at foundUpper
      cases foundUpper

/-- An edit keeps the table in order when a key that comes into use has nothing revoked
or destroyed above it, and a key that is given up has nothing in use below it. -/
theorem Kept.edit (kept : Kept keys) {before record : KeyMetadata}
    (found : keys.find? record.id = some before) (edits : Edits before record)
    (emptied : Emptied (keys.insert record))
    (inUse : record.state.canTransitionTo .suspended = true →
      before.state.canTransitionTo .suspended = true ∨
        ∀ ancestor, Below keys ancestor record.id → ¬ Withdrawn keys ancestor)
    (withdrawn : GivenUp record.state →
      GivenUp before.state ∨ ∀ other, Below keys record.id other → ¬ Suspendable keys other)
    (suspended : record.state = .suspended → before.state = .suspended)
    (stays : GivenUp before.state → GivenUp record.state) : Kept (keys.insert record) := by
  have edges : Child (keys.insert record) = Child keys := by
    funext low high
    exact propext (child_insert_iff found edits.parentId)
  have elsewhere : ∀ {id}, id ≠ record.id → (keys.insert record).find? id = keys.find? id :=
    fun other => Table.find?_insert_of_ne _ other
  have own : ∀ {stored}, (keys.insert record).find? record.id = some stored → record = stored := by
    intro stored lookup
    rw [Table.find?_insert_self] at lookup
    exact Option.some.inj lookup
  refine ⟨emptied, kept.forest.edit found edits.parentId, ?_, ?_⟩
  · rintro id ancestor below ⟨upper, foundUpper, givenUp⟩ ⟨lower, foundLower, edge⟩
    rw [Below, edges] at below
    have apart : id ≠ ancestor := by
      rintro rfl
      exact kept.forest.not_below_self _ below
    by_cases lowerIs : id = record.id
    · subst lowerIs
      obtain rfl := own foundLower
      rw [elsewhere apart.symm] at foundUpper
      rcases inUse edge with already | free
      · exact kept.severed _ ancestor below ⟨upper, foundUpper, givenUp⟩ ⟨before, found, already⟩
      · exact free ancestor below ⟨upper, foundUpper, givenUp⟩
    · rw [elsewhere lowerIs] at foundLower
      by_cases upperIs : ancestor = record.id
      · subst upperIs
        obtain rfl := own foundUpper
        rcases withdrawn givenUp with already | free
        · exact kept.severed id _ below ⟨before, found, already⟩ ⟨lower, foundLower, edge⟩
        · exact free id below ⟨lower, foundLower, edge⟩
      · rw [elsewhere upperIs] at foundUpper
        exact kept.severed id ancestor below ⟨upper, foundUpper, givenUp⟩ ⟨lower, foundLower, edge⟩
  · intro id stored lookup isSuspended
    obtain ⟨old, oldFound, oldSuspended⟩ :
        ∃ old, keys.find? id = some old ∧ old.state = .suspended := by
      by_cases same : id = record.id
      · subst same
        obtain rfl := own lookup
        exact ⟨before, found, suspended isSuspended⟩
      · exact ⟨stored, (elsewhere same).symm.trans lookup, isSuspended⟩
    obtain ⟨ancestor, below, upper, foundUpper, givenUp⟩ := kept.explained id old oldFound oldSuspended
    refine ⟨ancestor, ?_, ?_⟩
    · rw [Below, edges]
      exact below
    · by_cases same : ancestor = record.id
      · subst same
        rw [found] at foundUpper
        cases foundUpper
        exact ⟨record, Table.find?_insert_self _ _, stays givenUp⟩
      · exact ⟨upper, (elsewhere same).trans foundUpper, givenUp⟩

/-- An edit that keeps the state keeps the table in order. -/
theorem Kept.editSame (kept : Kept keys) {before record : KeyMetadata}
    (found : keys.find? record.id = some before) (edits : Edits before record)
    (emptied : Emptied (keys.insert record)) (same : record.state = before.state) :
    Kept (keys.insert record) := by
  refine kept.edit found edits emptied ?_ ?_ ?_ ?_
  · exact fun edge => Or.inl (same ▸ edge)
  · exact fun givenUp => Or.inl (same ▸ givenUp)
  · exact fun suspended => same.symm.trans suspended
  · exact fun givenUp => same.symm ▸ givenUp

/-- Expiring a key that may still be used keeps the table in order. -/
theorem Kept.expire (kept : Kept keys) {before : KeyMetadata} {now : Nat}
    (found : keys.find? before.id = some before) (edits : Edits before (expiredRecord before now))
    (emptied : Emptied (keys.insert (expiredRecord before now)))
    (usable : before.state.canDecrypt = true) : Kept (keys.insert (expiredRecord before now)) := by
  refine kept.edit found edits emptied nofun ?_ nofun ?_
  · rintro (impossible | impossible) <;> cases impossible
  · rintro (state | state) <;> rw [state] at usable <;> cases usable

/-! ### A cascade -/

section Cascade

variable {now : Nat} {later : Keys}

/-- When a cascade reports nothing, each key that it visits and that is not in use has
a revoked or destroyed key above it or is one. -/
theorem Cascades.visited_or_below (kept : Kept keys)
    (cascades : Cascades env keys root now later []) {id : KeyId} (below : Below keys root id) :
    Visited keys env root id ∨ ∃ ancestor, Withdrawn keys ancestor ∧ Below keys ancestor id := by
  have unreported : ∀ {other}, Visited keys env root other → ¬ Reported keys env other := by
    intro other visited reported
    obtain ⟨message, member⟩ := (cascades.errors other).mpr ⟨visited, reported⟩
    cases member
  -- from the root downwards: every key on the way is suspended by the walk, or marks the
  -- end of it
  unfold Below at below
  induction below using Relation.TransGen.head_induction_on with
  | single edge => exact Or.inl (.child edge)
  | @head low parentId edge _ ih =>
      rcases ih with visited | ⟨ancestor, withdrawn, above⟩
      · obtain ⟨parent, found⟩ := kept.forest.parent _ _ edge
        by_cases can : parent.state.canTransitionTo .suspended = true
        · refine Or.inl (.under visited ⟨parent, found, can⟩ ?_ edge)
          by_contra failed
          refine unreported visited ⟨parent, found, ?_⟩
          rw [if_pos can]
          exact failed
        · have passedOver : alreadyTerminal parent.state = true := by
            by_contra inUse
            refine unreported visited ⟨parent, found, ?_⟩
            rw [if_neg can]
            simpa using inUse
          by_cases suspended : parent.state = .suspended
          · obtain ⟨ancestor, above, withdrawn⟩ :=
              kept.explained parentId parent found suspended
            exact Or.inr ⟨ancestor, withdrawn, .head edge above⟩
          · refine Or.inr ⟨parentId, ⟨parent, found, ?_⟩, .single edge⟩
            unfold GivenUp
            cases state : parent.state <;> simp_all [alreadyTerminal]
      · exact Or.inr ⟨ancestor, withdrawn, .head edge above⟩

/-- When a cascade reports nothing, it has suspended every key in use below its root. -/
theorem Cascades.suspends_below (kept : Kept keys)
    (cascades : Cascades env keys root now later []) {id : KeyId} {record : KeyMetadata}
    (below : Below keys root id) (found : keys.find? id = some record)
    (edge : record.state.canTransitionTo .suspended = true) :
    later.find? id = some (suspendedRecord record now) := by
  rcases cascades.visited_or_below kept below with visited | ⟨ancestor, withdrawn, above⟩
  · rcases cascades.stopped found visited edge with suspended | ⟨message, member⟩
    · exact suspended
    · cases member
  · exact absurd ⟨record, found, edge⟩ (kept.severed id ancestor above withdrawn)

/-- A key that was given up is left alone by a cascade. -/
theorem Cascades.keeps_withdrawn {errors : List (KeyId × String)}
    (cascades : Cascades env keys root now later errors) {id : KeyId}
    (withdrawn : Withdrawn keys id) : Withdrawn later id := by
  obtain ⟨record, found, givenUp⟩ := withdrawn
  refine ⟨record, cascades.untouched id record ?_ found (Or.inr (Or.inl ?_)), givenUp⟩
  · rintro rfl
    obtain ⟨before, stored, active, -⟩ := cascades.revoked
    rw [stored] at found
    cases found
    rw [active] at givenUp
    rcases givenUp with impossible | impossible <;> cases impossible
  · rcases givenUp with state | state <;> rw [state] <;> rfl

/-- A key after a cascade: the revoked root, a key that was suspended, or as it was. -/
theorem Cascades.cases {errors : List (KeyId × String)}
    (cascades : Cascades env keys root now later errors) {id : KeyId} {current : KeyMetadata}
    (stored : later.find? id = some current) :
    (id = root ∧ current.state = .revoked) ∨
      (Visited keys env root id ∧ current.state = .suspended) ∨
      (id ≠ root ∧ keys.find? id = some current) := by
  by_cases isRoot : id = root
  · subst isRoot
    obtain ⟨before, -, -, written⟩ := cascades.revoked
    rw [stored] at written
    cases written
    exact Or.inl ⟨rfl, rfl⟩
  · cases found : keys.find? id with
    | none =>
        rw [cascades.absent id found] at stored
        cases stored
    | some record =>
        by_cases still : ¬ Visited keys env root id ∨
            record.state.canTransitionTo .suspended = false ∨ Refused env id
        · have same := cascades.untouched id record isRoot found still
          rw [stored] at same
          exact Or.inr (Or.inr ⟨isRoot, same.symm⟩)
        · push Not at still
          obtain ⟨visited, edge, unrefused⟩ := still
          have written := cascades.suspended id record found visited (by simpa using edge) unrefused
          rw [stored] at written
          cases written
          exact Or.inr (Or.inl ⟨visited, rfl⟩)

/-- A cascade that reports nothing keeps the table in order. -/
theorem Cascades.kept (kept : Kept keys) (cascades : Cascades env keys root now later [])
    (emptied : Emptied later) (forest : Forest later) : Kept later := by
  refine ⟨emptied, forest, ?_, ?_⟩
  · rintro id ancestor below ⟨upper, foundUpper, givenUp⟩ ⟨lower, foundLower, edge⟩
    rw [cascades.below_iff] at below
    -- the lower key is in use afterwards, so the cascade has not touched it
    rcases cascades.cases foundLower with ⟨-, state⟩ | ⟨-, state⟩ | ⟨-, oldLower⟩
    · rw [state] at edge
      cases edge
    · rw [state] at edge
      cases edge
    · rcases cascades.cases foundUpper with ⟨rfl, -⟩ | ⟨-, state⟩ | ⟨-, oldUpper⟩
      · have suspended := cascades.suspends_below kept below oldLower edge
        rw [foundLower] at suspended
        have state : lower.state = .suspended := congrArg KeyMetadata.state (Option.some.inj suspended)
        rw [state] at edge
        cases edge
      · rw [state] at givenUp
        rcases givenUp with impossible | impossible <;> cases impossible
      · exact kept.severed id ancestor below ⟨upper, oldUpper, givenUp⟩ ⟨lower, oldLower, edge⟩
  · intro id current stored suspended
    rcases cascades.cases stored with ⟨-, state⟩ | ⟨visited, -⟩ | ⟨-, old⟩
    · rw [suspended] at state
      cases state
    · obtain ⟨before, -, -, written⟩ := cascades.revoked
      exact ⟨root, cascades.below_iff.mpr visited.isBelow, _, written, Or.inl rfl⟩
    · obtain ⟨ancestor, below, withdrawn⟩ := kept.explained id current old suspended
      exact ⟨ancestor, cascades.below_iff.mpr below, cascades.keeps_withdrawn withdrawn⟩

end Cascade

/-! ### Whole runs -/

/-- Keys are revoked only by cascades that report nothing. A call that failed before it
changed a key does not count. -/
def RevokesByCascade (ks : Keystore) (step : Step) (world : World) : Prop :=
  match step.call with
  | .revoke _ => (step.run ks world).2.keys = world.keys
  | .revokeCascade _ =>
      (∃ revoked suspended, (step.run ks world).1 = .ok (.cascade revoked suspended [])) ∨
        (step.run ks world).2.keys = world.keys
  | _ => True

/-- The call does not bring a key into use below a revoked or destroyed one, nor destroy
a key above one in use. -/
def Cautious (step : Step) (world : World) : Prop :=
  match step.call with
  | .activate id =>
      (∃ record, world.keys.find? id = some record ∧
        record.state.canTransitionTo .active = true) →
      ∀ ancestor, Below world.keys ancestor id → ¬ Withdrawn world.keys ancestor
  | .destroy id =>
      (∃ record, world.keys.find? id = some record ∧
        record.state.canTransitionTo .destroyed = true) →
      ∀ other, Below world.keys id other → ¬ Suspendable world.keys other
  | _ => True

/-- Each write of a cautious call that revokes nothing keeps the table in order. -/
theorem Kept.write {step : Step} {world : World} {record : KeyMetadata} (kept : Kept keys)
    (fresh : step.Fresh world) (cautious : Cautious step world)
    (revokes : ∀ id, step.call ≠ .revoke id) (cascades : ∀ id, step.call ≠ .revokeCascade id)
    (mayWrite : step.call.MayWrite ks step.env world.keys keys record) :
    Kept (keys.insert record) := by
  have emptied := mayWrite.emptied fresh kept.emptied
  have keeps := mayWrite.extends fresh kept.emptied
  rcases mayWrite.created_or_edits fresh kept.emptied with created | ⟨before, stored, edits⟩
  · exact kept.create created emptied keeps
  · obtain ⟨change, once⟩ := mayWrite
    unfold Cautious at cautious
    generalize step.call = call at change once cautious revokes cascades
    have same : ∀ {id other}, keys.find? id = some other → record.id = other.id →
        other = before := by
      intro id other found own
      rw [own, Table.key_of_find? found, found] at stored
      exact Option.some.inj stored
    cases change with
    | generated kem placed wraps =>
        cases once rfl
        exact absurd (stored.symm.trans fresh) nofun
    | signingGenerated placed wraps =>
        cases once rfl
        exact absurd (stored.symm.trans fresh) nofun
    | @activated id old updated now found edge =>
        cases once rfl
        obtain rfl := same found rfl
        have own : old.id = id := Table.key_of_find? found
        have free := cautious ⟨old, found, edge⟩
        rw [← own] at free
        refine kept.edit stored edits emptied (fun _ => Or.inr free) ?_ nofun ?_
        · rintro (impossible | impossible) <;> cases impossible
        · rintro (state | state) <;> rw [state] at edge <;> cases edge
    | rotated found active wraps =>
        obtain rfl := same found rfl
        exact kept.editSame stored edits emptied active.symm
    | rewrapped found current unwraps wraps =>
        obtain rfl := same found rfl
        exact kept.editSame stored edits emptied rfl
    | revoked found active => exact absurd rfl (revokes _)
    | cascadeRevoked found active => exact absurd rfl (cascades _)
    | suspended found edge => exact absurd rfl (cascades _)
    | expired found usable =>
        obtain rfl := same found rfl
        exact kept.expire stored edits emptied usable
    | dueExpired found usable =>
        obtain rfl := same found rfl
        exact kept.expire stored edits emptied usable
    | @destroyed id old destroyed updated found edge =>
        cases once rfl
        obtain rfl := same found rfl
        have own : old.id = id := Table.key_of_find? found
        have free := cautious ⟨old, found, edge⟩
        rw [← own] at free
        exact kept.edit stored edits emptied nofun (fun _ => Or.inr free) nofun
          (fun _ => Or.inr rfl)
    | used found active data =>
        obtain rfl := same found rfl
        exact kept.editSame stored edits emptied rfl

/-- A step of a cautious run that revokes by cascades keeps the table in order. -/
theorem Kept.step {step : Step} {world : World} (kept : Kept world.keys)
    (fresh : step.Fresh world) (revokes : RevokesByCascade ks step world)
    (cautious : Cautious step world) : Kept (step.run ks world).2.keys := by
  by_cases plain : ∃ id, step.call = .revoke id
  · obtain ⟨id, called⟩ := plain
    unfold RevokesByCascade at revokes
    rw [called] at revokes
    rwa [revokes]
  · by_cases cascading : ∃ id, step.call = .revokeCascade id
    · obtain ⟨id, called⟩ := cascading
      obtain ⟨now, env, call⟩ := step
      cases called
      obtain ⟨emptied, forest⟩ := Step.keys_invariant (fun keys => Emptied keys ∧ Forest keys)
        (fun _ _ held mayWrite => mayWrite.forest fresh held) ⟨kept.emptied, kept.forest⟩
      rcases revokes with ⟨revoked, suspended, returned⟩ | unchanged
      · exact (Step.cascades kept.forest (Prod.ext returned rfl)).kept kept emptied forest
      · rwa [unchanged]
    · refine Step.keys_invariant Kept ?_ kept
      intro keys record held mayWrite
      exact held.write fresh cautious (fun id called => plain ⟨id, called⟩)
        (fun id called => cascading ⟨id, called⟩) mayWrite

/-- Nothing is out of order in an empty table. -/
theorem Kept.empty : Kept Table.empty := by
  refine ⟨.empty, .empty, ?_, ?_⟩
  · rintro id ancestor - - ⟨record, ⟨⟩, -⟩
  · intro id record found
    cases found

/-- In a run that revokes keys only by cascades without errors, whose activations find
no revoked or destroyed key above their key and whose destructions find no key in use
below theirs, no key in use ever has a revoked or destroyed key above it. -/
theorem severed_of_cautious_run {world : World}
    (reachable : Reachable ks
      (fun step before => RevokesByCascade ks step before ∧ Cautious step before) world) :
    Severed world.keys := by
  obtain ⟨now, replay, reaches⟩ := reachable
  have kept : Kept world.keys := by
    induction reaches with
    | refl => exact .empty
    | step step prior fresh allows ih => exact ih.step fresh allows.1 allows.2
  exact kept.severed

end Keystore

open Keystore

/-! ### A line and its cascade -/

/-- The cascade of the root of a line of active keys reports nothing. -/
theorem exists_cascaded_line {ks : Keystore} {world : World} (forest : Forest world.keys)
    (grove : Grove world.keys (line .active .active .active .active)) :
    ∃ suspended after, (Step.mk 0 (quietEnv 4) (.revokeCascade (keyNumbered 0))).run ks world =
        (.ok (.cascade 1 suspended []), after) ∧
      Cascades (quietEnv 4) world.keys (keyNumbered 0) 0 after.keys [] := by
  obtain ⟨rootRecord, rootVersion, rootFound, rootPlanted⟩ := grove.planted 0 _ rfl
  obtain ⟨suspended, errors, after, ran⟩ : ∃ suspended errors after,
      (Step.mk 0 (quietEnv 4) (.revokeCascade (keyNumbered 0))).run ks world =
        (.ok (.cascade 1 suspended errors), after) :=
    Step.exists_cascade (quietEnv_reliable 4) rootFound rootPlanted.state
  have cascades := Step.cascades forest ran
  have silent : errors = [] := by
    refine List.eq_nil_iff_forall_not_mem.mpr ?_
    rintro ⟨id, message⟩ member
    obtain ⟨-, record, found, reported⟩ := (cascades.errors id).mp ⟨message, member⟩
    rw [grove.active_of_line id record found] at reported
    exact reported rfl
  subst silent
  exact ⟨suspended, after, ran, cascades⟩

/-- A grown hierarchy holds no key that was given up. -/
theorem Grove.not_withdrawn {keys : Keys} {plan : List Planting} (grove : Grove keys plan)
    (grows : Grows plan)
    (id : KeyId) : ¬ Withdrawn keys id := by
  rintro ⟨record, found, givenUp⟩
  obtain ⟨n, within, rfl⟩ := grove.named id record found
  obtain ⟨other, version, also, planted⟩ := grove.planted n plan[n] (List.getElem?_eq_getElem within)
  obtain rfl : record = other := Option.some.inj (found.symm.trans also)
  rw [planted.state] at givenUp
  rcases grows.young (List.getElem?_eq_getElem within) with young | young
  · rw [young] at givenUp
    simp [GivenUp] at givenUp
  · rw [young] at givenUp
    simp [GivenUp] at givenUp

/-- The calls that grow a hierarchy revoke nothing and are cautious. -/
theorem cautious_of_grows {ks : Keystore} {n : Nat} {call : Call} {world : World}
    {plan : List Planting}
    (kind : Call.Grows call) (grows : Grows plan) (grove : Grove world.keys plan) :
    RevokesByCascade ks ⟨0, quietEnv n, call⟩ world ∧ Cautious ⟨0, quietEnv n, call⟩ world := by
  cases kind with
  | generate => exact ⟨trivial, trivial⟩
  | generateSigningKey => exact ⟨trivial, trivial⟩
  | activate => exact ⟨trivial, fun _ ancestor _ => grove.not_withdrawn grows ancestor⟩

/-- The domain of a line after the cascade of its root. -/
theorem Keystore.Cascades.domain {keys later : Keys} {errors : List (KeyId × String)}
    (cascades : Cascades (quietEnv 4) keys (keyNumbered 0) 0 later errors)
    (grove : Grove keys (line .active .active .active .active)) :
    Child keys (keyNumbered 1) (keyNumbered 0) ∧ Withdrawn later (keyNumbered 0) ∧
      ∃ record, later.find? (keyNumbered 1) = some record ∧ record.state = .suspended := by
  obtain ⟨record, version, found, planted⟩ := grove.planted 1 _ rfl
  have child : Child keys (keyNumbered 1) (keyNumbered 0) := ⟨record, found, planted.parentId⟩
  obtain ⟨root, -, -, revoked⟩ := cascades.revoked
  refine ⟨child, ⟨_, revoked, .inl rfl⟩, suspendedRecord record 0, ?_, rfl⟩
  refine cascades.suspended _ record found (.child child) (by rw [planted.state]; rfl) ?_
  rintro ⟨error, refused⟩
  cases refused

/-- A suspended domain is activated again below its revoked root. -/
theorem domain_reactivated_below_revoked_root :
    ∃ world, Reachable plainKeystore (RevokesByCascade plainKeystore) world ∧
      ¬ Severed world.keys := by
  obtain ⟨world, reachable, grove, -⟩ := exists_line plainKeystore_growable
    (RevokesByCascade plainKeystore) (.memory ⟨1, []⟩) .active .active .active .active (by decide)
    (fun _ _ _ _ kind grows grove => (cautious_of_grows kind grows grove).1)
  obtain ⟨suspended, after, ran, cascades⟩ := exists_cascaded_line reachable.forest grove
  obtain ⟨child, withdrawn, record, found, state⟩ := cascades.domain grove
  have revoked : Reachable plainKeystore (RevokesByCascade plainKeystore) after := by
    have stepped := reachable.step ⟨0, quietEnv 4, .revokeCascade (keyNumbered 0)⟩
      (grove.fresh (by simp [line]) (by decide)) (.inl ⟨1, suspended, congrArg Prod.fst ran⟩)
    rwa [ran] at stepped
  have unused : after.keys.find? (keyNumbered 5) = none :=
    cascades.absent _ (grove.absent (by simp [line]) (by decide))
  let activates : Step := ⟨0, quietEnv 5, .activate (keyNumbered 1)⟩
  have activated := revoked.step activates (fresh_of_absent unused) trivial
  refine ⟨_, activated, ?_⟩
  have written : (activates.run plainKeystore after).2.keys =
      after.keys.insert (activatedRecord record 0 0) := by
    have ran : (Keystore.activate (keyNumbered 1)).run (handle (quietEnv 5))
        { after with now := 0 } = _ :=
      activate_run (quietEnv_reliable 5) found (by rw [state]; rfl)
    simp only [activates, Step.run, Call.run, Call.prog, Step.enter, run_bind, ran, andThen_ok,
      run_ret, pure_eq_ret]
  have own : record.id = keyNumbered 1 := Table.key_of_find? found
  rw [written]
  intro severed
  have childAfter : Child (after.keys.insert (activatedRecord record 0 0)) (keyNumbered 1)
      (keyNumbered 0) := by
    have stored : after.keys.find? (activatedRecord record 0 0).id = some record := own ▸ found
    exact (child_insert_iff stored rfl).mpr (cascades.child_iff.mpr child)
  obtain ⟨root, rootFound, givenUp⟩ := withdrawn
  have rootKept : (after.keys.insert (activatedRecord record 0 0)).find? (keyNumbered 0) =
      some root := by
    rw [← rootFound]
    exact find?_insert_numbered own (by decide) (by decide) (by decide)
  exact severed _ _ (.single childAfter) ⟨root, rootKept, givenUp⟩
    ⟨_, find?_insert_own own, rfl⟩

/-- With cautious steps the line below a revoked root stays out of use. -/
theorem line_severed_below_revoked_root :
    ∃ world, Reachable plainKeystore
        (fun step before => RevokesByCascade plainKeystore step before ∧ Cautious step before)
        world ∧
      Withdrawn world.keys (keyNumbered 0) ∧ Severed world.keys := by
  obtain ⟨world, reachable, grove, -⟩ := exists_line plainKeystore_growable
    (fun step before => RevokesByCascade plainKeystore step before ∧ Cautious step before)
    (.memory ⟨1, []⟩) .active .active .active .active (by decide)
    (fun _ _ _ _ kind grows grove => cautious_of_grows kind grows grove)
  obtain ⟨suspended, after, ran, cascades⟩ := exists_cascaded_line reachable.forest grove
  have revoked := reachable.step ⟨0, quietEnv 4, .revokeCascade (keyNumbered 0)⟩
    (grove.fresh (by simp [line]) (by decide))
    ⟨.inl ⟨1, suspended, congrArg Prod.fst ran⟩, trivial⟩
  rw [ran] at revoked
  exact ⟨after, revoked, (cascades.domain grove).2.1, severed_of_cautious_run revoked⟩

end Citadel
