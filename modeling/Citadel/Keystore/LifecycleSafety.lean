import Citadel.Keystore.Growth

/-!
# The lifecycle over whole runs

Every state a key goes through, in every run and between any two operations of a
call, follows the transition table; and destruction is final. Neither depends on
the storage backend: a failing backend can only lose writes.
-/

namespace Citadel

open Envelope Program Keystore

variable {ks : Keystore} {env : Env} {world : World}

/-! ### The table -/

/-- How the stored record of one key may move: it appears pending, follows the table
and never disappears. -/
def Follows : Option KeyMetadata → Option KeyMetadata → Prop
  | none, none => True
  | none, some created => created.state = .pending
  | some old, some new => old.state = new.state ∨ old.state.canTransitionTo new.state = true
  | some _, none => False

theorem Follows.refl (stored : Option KeyMetadata) : Follows stored stored := by
  cases stored with
  | none => trivial
  | some record => exact Or.inl rfl

/-- In every reachable state destroyed records are empty. -/
theorem Reachable.emptied {allowed : Step → World → Prop} (reachable : Reachable ks allowed world) :
    Emptied world.keys := by
  obtain ⟨now, replay, reaches⟩ := reachable
  refine reaches.keys_invariant Emptied ?_ ?_
  · intro step world keys record _ fresh emptied mayWrite
    exact mayWrite.emptied fresh emptied
  · exact .empty

/-- A write moves every key as the table says. -/
theorem Call.MayWrite.follows {step : Step} {keys : Keys} {record : KeyMetadata}
    (fresh : step.Fresh world) (emptied : Emptied keys)
    (mayWrite : step.call.MayWrite ks step.env world.keys keys record) (id : KeyId) :
    Follows (keys.find? id) ((keys.insert record).find? id) := by
  by_cases same : id = record.id
  · subst same
    rw [Table.find?_insert_self]
    rcases mayWrite.created_or_edits fresh emptied with created | ⟨before, found, edits⟩
    · rw [created.absent]
      exact created.pending
    · rw [found]
      rcases edits.edge with kept | edge
      · exact Or.inl kept.symm
      · exact Or.inr edge
  · rw [Table.find?_insert_of_ne _ same]
    exact Follows.refl _

/-- Between any two operations of a step every key moves as the table says. -/
theorem Step.follows {step : Step} {before after : World} (fresh : step.Fresh world)
    (emptied : Emptied world.keys) (member : (before, after) ∈ step.transitions ks world)
    (id : KeyId) : Follows (before.keys.find? id) (after.keys.find? id) := by
  have preserves : ∀ keys record, Emptied keys →
      step.call.MayWrite ks step.env world.keys keys record → Emptied (keys.insert record) :=
    fun _ _ emptied mayWrite => mayWrite.emptied fresh emptied
  rcases Step.keys_transition Emptied preserves emptied member with
    unchanged | ⟨record, held, mayWrite, written⟩
  · rw [unchanged]
    exact Follows.refl _
  · rw [written]
    exact mayWrite.follows fresh held id

/-! ### Destruction is final -/

/-- A destroyed record survives every step. -/
theorem Step.keeps_destroyed {step : Step} {id : KeyId} {record : KeyMetadata}
    (fresh : step.Fresh world) (emptied : Emptied world.keys)
    (found : world.keys.find? id = some record) (destroyed : record.state = .destroyed) :
    (step.run ks world).2.keys.find? id = some record := by
  have preserves : ∀ keys written, (Emptied keys ∧ keys.find? id = some record) →
      step.call.MayWrite ks step.env world.keys keys written →
      Emptied (keys.insert written) ∧ (keys.insert written).find? id = some record := by
    rintro keys written ⟨emptied, found⟩ mayWrite
    exact ⟨mayWrite.emptied fresh emptied, mayWrite.keeps_destroyed fresh emptied found destroyed⟩
  have kept := Step.keys_invariant (fun keys => Emptied keys ∧ keys.find? id = some record)
    preserves ⟨emptied, found⟩
  exact kept.2

theorem Reaches.keeps_destroyed {allowed : Step → World → Prop} {later : World} {id : KeyId}
    {record : KeyMetadata} (emptied : Emptied world.keys)
    (found : world.keys.find? id = some record) (destroyed : record.state = .destroyed)
    (reaches : Reaches ks allowed world later) :
    Emptied later.keys ∧ later.keys.find? id = some record := by
  refine reaches.keys_invariant (fun keys => Emptied keys ∧ keys.find? id = some record) ?_
    ⟨emptied, found⟩
  rintro step world keys written _ fresh ⟨emptied, found⟩ mayWrite
  exact ⟨mayWrite.emptied fresh emptied, mayWrite.keeps_destroyed fresh emptied found destroyed⟩

/-- The program ends with an error and leaves the world alone. -/
def FailsAt {ε α : Type} (env : Env) (world : World) (program : Prog ε α) : Prop :=
  ∃ error, program.run (handle env) world = (.err error, world)

section FailsAt

variable {ε δ α β : Type}

theorem FailsAt.fail (error : ε) : FailsAt env world (.fail error : Prog ε α) := ⟨error, rfl⟩

theorem FailsAt.mapErr {program : Prog ε α} {translate : ε → δ}
    (fails : FailsAt env world program) : FailsAt env world (program.mapErr translate) := by
  obtain ⟨error, ran⟩ := fails
  refine ⟨translate error, ?_⟩
  rw [run_mapErr, ran]
  rfl

theorem FailsAt.first {program : Prog ε α} {continuation : α → Prog ε β}
    (fails : FailsAt env world program) : FailsAt env world (program >>= continuation) := by
  obtain ⟨error, ran⟩ := fails
  refine ⟨error, ?_⟩
  rw [run_bind, ran]
  rfl

theorem FailsAt.rest {program : Prog ε α} {continuation : α → Prog ε β} {value : α}
    (ran : program.run (handle env) world = (.ok value, world))
    (fails : FailsAt env world (continuation value)) :
    FailsAt env world (program >>= continuation) := by
  obtain ⟨error, failed⟩ := fails
  refine ⟨error, ?_⟩
  rw [run_bind, ran]
  exact failed

/-- Reading a stored record fails only when the backend does. -/
theorem get_run_or_failsAt {id : KeyId} {record : KeyMetadata}
    (found : world.keys.find? id = some record) :
    (Keystore.get id).run (handle env) world = (.ok record, world) ∨
      FailsAt env world (Keystore.get id) := by
  cases fault : env.getFault id with
  | none => exact Or.inl (get_run fault found)
  | some error =>
      refine Or.inr ⟨error, ?_⟩
      simp [Keystore.get, handle, faulty, fault, Program.ofExcept]

/-- A call that reads a record and cannot go on with it fails. -/
theorem FailsAt.get {id : KeyId} {record : KeyMetadata}
    {continuation : KeyMetadata → Prog KeystoreError α}
    (found : world.keys.find? id = some record)
    (fails : FailsAt env world (continuation record)) :
    FailsAt env world (Keystore.get id >>= continuation) := by
  rcases get_run_or_failsAt found with ran | failed
  · exact FailsAt.rest ran fails
  · exact FailsAt.first failed

theorem FailsAt.getMapErr {id : KeyId} {record : KeyMetadata} {translate : KeystoreError → ε}
    {continuation : KeyMetadata → Prog ε α} (found : world.keys.find? id = some record)
    (fails : FailsAt env world (continuation record)) :
    FailsAt env world ((Keystore.get id).mapErr translate >>= continuation) := by
  rcases get_run_or_failsAt found with ran | failed
  · refine FailsAt.rest ?_ fails
    rw [run_mapErr, ran]
    rfl
  · exact FailsAt.first (FailsAt.mapErr failed)

end FailsAt

/-- Destroyed material cannot be unwrapped. -/
theorem unwrapKeyVersionInner_failsAt {skip : Bool} {levels : Nat} {id : KeyId}
    {version : KeyVersion} (destroyed : version.secretKeyMaterial = .destroyed) :
    FailsAt env world (ks.unwrapKeyVersionInner skip levels id version) := by
  cases levels with
  | zero => exact FailsAt.fail _
  | succ levels =>
      unfold unwrapKeyVersionInner
      rw [destroyed]
      exact FailsAt.fail _

/-- Every call on a destroyed key fails and writes nothing. -/
theorem Call.failsAt_of_destroyed {call : Call} {id : KeyId} {record : KeyMetadata} {fuel : Nat}
    (found : world.keys.find? id = some record) (destroyed : record.state = .destroyed)
    (empty : ∀ version ∈ record.versions, version.secretKeyMaterial = .destroyed)
    (target : call.target = some id) : FailsAt env world (call.prog ks fuel) := by
  cases call with
  | generate name keyType policyId parentId => cases target
  | generateSigningKey name policyId parentId => cases target
  | activate id =>
      cases target
      refine FailsAt.first (FailsAt.mapErr (FailsAt.get found (FailsAt.first ?_)))
      rw [transition, destroyed]
      exact FailsAt.fail _
  | rotate id =>
      cases target
      refine FailsAt.first (FailsAt.mapErr (FailsAt.get found ?_))
      rw [if_pos (by simp [destroyed])]
      exact FailsAt.fail _
  | rewrap id newParentId =>
      cases target
      refine FailsAt.first (FailsAt.mapErr (FailsAt.getMapErr found ?_))
      cases current : record.currentKeyVersion with
      | none => exact FailsAt.fail _
      | some version =>
          have gone := empty version (KeyMetadata.mem_of_getVersion current)
          refine FailsAt.rest rfl ?_
          exact FailsAt.first (FailsAt.mapErr (unwrapKeyVersionInner_failsAt gone))
  | revoke id =>
      cases target
      refine FailsAt.first (FailsAt.mapErr (FailsAt.get found ?_))
      rw [if_pos (by simp [destroyed])]
      exact FailsAt.fail _
  | revokeCascade id =>
      cases target
      refine FailsAt.first (FailsAt.first (FailsAt.mapErr (FailsAt.mapErr (FailsAt.get found ?_))))
      rw [if_pos (by simp [destroyed])]
      exact FailsAt.fail _
  | expire id =>
      cases target
      refine FailsAt.first (FailsAt.mapErr (FailsAt.get found ?_))
      rw [checkExpiration, destroyed]
      exact FailsAt.fail _
  | expireDueKeys => cases target
  | destroy id =>
      cases target
      refine FailsAt.first (FailsAt.mapErr (FailsAt.get found ?_))
      rw [if_pos (by simp [destroyed, KeyState.canTransitionTo, KeyState.validTransitions])]
      exact FailsAt.fail _
  | encrypt id plaintext aad context =>
      cases target
      refine FailsAt.first (FailsAt.mapErr (FailsAt.getMapErr found ?_))
      rw [if_pos (by simp [destroyed, KeyState.canEncrypt])]
      exact FailsAt.fail _
  | decrypt blob aad context =>
      cases target
      refine FailsAt.first (FailsAt.mapErr (FailsAt.getMapErr found ?_))
      rw [if_pos (by simp [destroyed, KeyState.canDecrypt])]
      exact FailsAt.fail _
  | sign id message =>
      cases target
      refine FailsAt.first (FailsAt.mapErr (FailsAt.getMapErr found ?_))
      split
      · exact FailsAt.fail _
      · rw [if_pos (by simp [destroyed])]
        exact FailsAt.fail _

/-- In every run, with any backend: between any two operations each key moves along
the lifecycle table and appears as pending; and from the moment a key is destroyed
its record holds no secret, never changes again, and every call on it fails. -/
theorem lifecycle_of_reachable (reachable : Reachable ks anyStep world) :
    (∀ (step : Step) (before after : World), step.Fresh world →
      (before, after) ∈ step.transitions ks world →
      ∀ id, Follows (before.keys.find? id) (after.keys.find? id)) ∧
    (∀ id record, world.keys.find? id = some record → record.state = .destroyed →
      (∀ version ∈ record.versions, version.secretKeyMaterial = .destroyed) ∧
      ∀ later, Reaches ks anyStep world later →
        later.keys.find? id = some record ∧
        ∀ step : Step, step.Fresh later →
          (step.run ks later).2.keys.find? id = some record ∧
          (step.call.target = some id → ∃ error, (step.run ks later).1 = .err error)) := by
  have emptied := reachable.emptied
  refine ⟨fun step before after fresh member => step.follows fresh emptied member, ?_⟩
  intro id record found destroyed
  have empty := emptied id record found destroyed
  refine ⟨empty, ?_⟩
  intro later reaches
  obtain ⟨emptied, kept⟩ := reaches.keeps_destroyed emptied found destroyed
  refine ⟨kept, ?_⟩
  intro step fresh
  refine ⟨step.keeps_destroyed fresh emptied kept destroyed, ?_⟩
  intro target
  obtain ⟨error, ran⟩ : FailsAt step.env (step.enter later) (step.call.prog ks _) :=
    Call.failsAt_of_destroyed kept destroyed empty target
  exact ⟨error, congrArg Prod.fst ran⟩

/-- A root that was destroyed stays as it is. -/
theorem destroyed_root_stays :
    ∃ world record, Reachable plainKeystore anyStep world ∧
      world.keys.find? (keyNumbered 0) = some record ∧ record.state = .destroyed ∧
      ∀ later, Reaches plainKeystore anyStep world later →
        later.keys.find? (keyNumbered 0) = some record := by
  obtain ⟨world, reachable, grove, -⟩ := exists_line plainKeystore_growable anyStep
    (.memory ⟨1, []⟩) .pending .pending .pending .pending (by decide)
    (fun _ _ _ _ _ _ _ => trivial)
  obtain ⟨record, version, found, planted⟩ := grove.planted 0 _ rfl
  let destroys : Step := ⟨0, quietEnv 4, .destroy (keyNumbered 0)⟩
  have ran : destroys.run plainKeystore world = (.ok .done, { world with
      now := 0, keys := world.keys.insert (destroyedRecord record 0 0) }) :=
    Step.run_of_prog fun _ =>
      destroy_prog_run (quietEnv_reliable 4) found (by rw [planted.state]; rfl)
  have later : Reachable plainKeystore anyStep (destroys.run plainKeystore world).2 :=
    reachable.step destroys (grove.fresh (by simp [line]) (by decide)) trivial
  have stored : (destroys.run plainKeystore world).2.keys.find? (keyNumbered 0) =
      some (destroyedRecord record 0 0) := by
    rw [ran]
    exact find?_insert_own planted.id
  obtain ⟨-, final⟩ := (lifecycle_of_reachable later).2 _ _ stored rfl
  exact ⟨_, _, later, stored, rfl, fun later reaches => (final later reaches).1⟩

end Citadel
